import RemoteAgent.Action
import RemoteAgent.Stream

/-! Sources of bytes: byte strings and streams. Both give the bytes that are asked for, and fewer
only at their end. -/

namespace RemoteAgent.Wire

class Source (σ : Type) where
  draw : Nat → σ → Except IoError (List UInt8) × σ

instance : Source (List UInt8) where
  draw n bs := (.ok (bs.take n), bs.drop n)

instance : Source Stream where
  draw := Stream.draw

variable {σ : Type} [Source σ]

def upTo (n : Nat) : Action σ (List UInt8) := fun s =>
  match Source.draw n s with
  | (.ok bs, s') => ⟨.ok bs, s', []⟩
  | (.error e, s') => ⟨.error (.channelIo e), s', []⟩

def exactly (n : Nat) : Action σ (List UInt8) := do
  let bs ← upTo n
  if bs.length < n then .fail (.channelIo .unexpectedEnd) else pure bs

theorem weight_upTo {n : Nat} {s : Stream} {bs : List UInt8} (h : (upTo n s).result = .ok bs) :
    Stream.weight (upTo n s).state.incoming + bs.length ≤ Stream.weight s.incoming := by
  have hd := @Stream.weight_drawPieces s.chunk n s.incoming bs
  unfold upTo at h ⊢
  simp only [Source.draw, Stream.draw] at h ⊢
  split at h
  · next d t heq =>
    simp only [Prod.mk.injEq] at heq
    obtain ⟨h1, rfl⟩ := heq
    simp only [Except.ok.injEq] at h
    subst h
    exact hd h1
  · simp at h

theorem spends_exactly (n : Nat) :
    Action.Spends (fun s : Stream => Stream.weight s.incoming) n (exactly n) := by
  intro s bs h
  unfold exactly at h ⊢
  cases hu : upTo n s with
  | mk r t es =>
    cases r with
    | error e => rw [Action.bind_of_error hu] at h; cases h
    | ok d =>
      have hw := @weight_upTo n s d (by rw [hu])
      rw [Action.bind_of_ok hu] at h ⊢
      rw [hu] at hw
      dsimp only at h hw ⊢
      split at h
      · cases h
      · next hlen =>
        rw [if_neg hlen]
        simp only [Action.pure_apply]
        omega

end RemoteAgent.Wire
