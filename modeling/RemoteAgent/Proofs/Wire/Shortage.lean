import RemoteAgent.Proofs.Action.Endings
import RemoteAgent.Proofs.Wire.Reading

/-! How readers of byte strings fail. Either the bytes run out, or a reader meets a fault, and then it
meets the same fault whatever bytes follow. -/

namespace RemoteAgent.Wire

open RemoteAgent.Action

def RunsOut (e : Error) : Prop := ∃ cause, e = .channelIo cause ∧ cause.kind = .unexpectedEof

def Faults {α : Type} (bad : Error → Prop) (act : Action (List UInt8) α) : Prop :=
  ∀ bs e, (act bs).result = .error e →
    RunsOut e ∨ bad e ∧ ∀ rest, (act (bs ++ rest)).result = .error e

namespace Faults

variable {α β : Type} {bad bad' : Error → Prop} {act : Action (List UInt8) α}
  {next : α → Action (List UInt8) β} {spells : α → List UInt8 → Prop}

theorem mono (h : Faults bad act) (hb : ∀ e, bad e → bad' e) : Faults bad' act :=
  fun bs e he => (h bs e he).imp_right fun hbad => ⟨hb e hbad.1, hbad.2⟩

theorem pure (a : α) : Faults bad (pure a) := fun _ _ h => nomatch h

theorem fail {e : Error} (h : bad e) : Faults bad (Action.fail e : Action (List UInt8) α) := by
  intro bs e' he
  cases he
  exact .inr ⟨h, fun _ => rfl⟩

/-- What a reader has read it reads again when more bytes follow, so a later fault comes again too. -/
theorem bind (h : Faults bad act) (hr : Reads act spells) (hn : ∀ a, Faults bad (next a)) :
    Faults bad (act >>= next) := by
  intro bs e he
  cases ha : act bs with
  | mk r t es =>
    cases r with
    | error e' =>
      rw [bind_of_error ha] at he
      cases he
      rcases h bs e (by rw [ha]) with hout | ⟨hbad, hstays⟩
      · exact .inl hout
      · exact .inr ⟨hbad, fun rest => (bind_of_failure (hstays rest)).1⟩
    | ok a =>
      rw [bind_of_ok ha] at he
      obtain ⟨front, hfront, hbs⟩ := hr.sound bs a (by rw [ha])
      rw [ha] at hbs
      rcases hn a t e he with hout | ⟨hbad, hstays⟩
      · exact .inl hout
      · refine .inr ⟨hbad, fun rest => ?_⟩
        rw [hbs, List.append_assoc, bind_of_ok (hr.complete a front (t ++ rest) hfront)]
        exact hstays rest

theorem map (h : Faults bad act) (hr : Reads act spells) (f : α → β) :
    Faults bad (do return f (← act)) := h.bind hr fun a => .pure (f a)

end Faults

section Fields

variable {bad : Error → Prop}

theorem faults_upTo (n : Nat) {short : List UInt8 → Error} (hshort : ∀ bs, RunsOut (short bs)) :
    Faults bad (do
      let bs ← upTo n
      if bs.length < n then Action.fail (short bs) else Pure.pure bs) := by
  intro bs e he
  have hdraw : upTo n bs = ⟨.ok (bs.take n), bs.drop n, []⟩ := rfl
  rw [bind_of_ok hdraw] at he
  split at he
  · cases he
    exact .inl (hshort _)
  · cases he

theorem faults_exactly (n : Nat) : Faults bad (exactly n) :=
  faults_upTo n fun _ => ⟨_, rfl, rfl⟩

theorem faults_nat (width : Nat) : Faults bad (readNat width) :=
  (faults_exactly width).map (reads_exactly width) leValue

theorem faults_pointer : Faults bad readPointer := (faults_nat 8).map (reads_nat 8) UInt64.ofNat

theorem faults_blob : Faults bad readBlob :=
  (faults_nat 4).bind (reads_nat 4) fun n => faults_upTo n fun bs => ⟨.truncated n bs.length, rfl, rfl⟩

def InvalidText (e : Error) : Prop := ∃ fault, e = .protocol (.invalidText fault)

theorem faults_text : Faults InvalidText readText := by
  refine faults_blob.bind reads_blob fun bs => ?_
  cases Text.Utf8.decode bs with
  | ok s => exact .pure s
  | error fault => exact .fail ⟨fault, rfl⟩

theorem faults_pointerList (n : Nat) : Faults bad (readPointerList n) := by
  induction n with
  | zero => exact .pure []
  | succ n ih => exact faults_pointer.bind reads_pointer fun a => ih.map (reads_pointerList n) (a :: ·)

theorem faults_field (t : FieldType) : Faults InvalidText (read t) := by
  cases t with
  | bool => exact (faults_exactly 1).map (reads_exactly 1) fun bs => leValue bs != 0
  | u32 => exact (faults_nat 4).map (reads_nat 4) UInt32.ofNat
  | i32 => exact (faults_nat 4).map (reads_nat 4) fun n => (UInt32.ofNat n).toInt32
  | u64 | pointer => exact faults_pointer
  | length => exact faults_nat 4
  | bytes => exact faults_blob
  | text => exact faults_text
  | pointers => exact (faults_nat 4).bind (reads_nat 4) faults_pointerList

theorem faults_row (ts : List FieldType) : Faults InvalidText (readRow ts) := by
  induction ts with
  | nil => exact .pure ()
  | cons t r ih => exact (faults_field t).bind (reads_field t) fun v => ih.map (reads_row r) (v, ·)

end Fields

end RemoteAgent.Wire
