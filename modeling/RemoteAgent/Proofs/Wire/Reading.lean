import Mathlib.Algebra.Group.Nat.Defs
import RemoteAgent.Wire.Field

/-! Readers of byte strings and what they read. A reader takes a spelling of its value from the
front of the bytes and leaves the rest; nothing else makes it succeed. -/

namespace RemoteAgent.Wire

theorem leValue_leBytes (width n : Nat) : leValue (leBytes width n) = n % 256 ^ width := by
  induction width generalizing n with
  | zero => simp [leBytes, leValue, Nat.mod_one]
  | succ width ih =>
    have hb : (UInt8.ofNat n).toNat = n % 256 := UInt8.toNat_ofNat'
    rw [leBytes, leValue, ih, hb, Nat.pow_succ', Nat.mod_mul]

theorem leValue_lt (bs : List UInt8) : leValue bs < 256 ^ bs.length := by
  induction bs with
  | nil => simp [leValue]
  | cons b r ih =>
    have hb := b.toNat_lt
    simp only [leValue, List.length_cons, Nat.pow_succ]
    omega

theorem leBytes_mod (width n : Nat) : leBytes width (n % 256 ^ width) = leBytes width n := by
  have h := leBytes_leValue (leBytes width n)
  rwa [length_leBytes, leValue_leBytes] at h

variable {α β : Type}

/-- A reader that finds exactly the given spellings. -/
structure Reads (act : Action (List UInt8) α) (spells : α → List UInt8 → Prop) : Prop where
  complete : ∀ a front rest, spells a front → act (front ++ rest) = ⟨.ok a, rest, []⟩
  sound : ∀ bs a, (act bs).result = .ok a → ∃ front, spells a front ∧ bs = front ++ (act bs).state

namespace Reads

variable {act : Action (List UInt8) α} {next : α → Action (List UInt8) β}
  {spells spells' : α → List UInt8 → Prop} {tail : α → β → List UInt8 → Prop}

theorem congr (h : Reads act spells) (hs : ∀ a bs, spells a bs ↔ spells' a bs) :
    Reads act spells' := by
  have he : spells = spells' := funext fun a => funext fun bs => propext (hs a bs)
  exact he ▸ h

theorem pure (a : α) : Reads (pure a) fun b bs => b = a ∧ bs = [] where
  complete := by
    rintro b front rest ⟨rfl, rfl⟩
    rfl
  sound := by
    intro bs b h
    cases h
    exact ⟨[], ⟨rfl, rfl⟩, rfl⟩

theorem fail (e : Error) : Reads (Action.fail e : Action (List UInt8) α) fun _ _ => False where
  complete := by
    intro _ _ _ h
    exact h.elim
  sound := by
    intro _ _ h
    cases h

theorem bind (h : Reads act spells) (hn : ∀ a, Reads (next a) (tail a)) :
    Reads (act >>= next) fun b bs =>
      ∃ a front back, bs = front ++ back ∧ spells a front ∧ tail a b back where
  complete := by
    rintro b bs rest ⟨a, front, back, rfl, hf, hb⟩
    rw [List.append_assoc, Action.bind_of_ok (h.complete a front (back ++ rest) hf),
      (hn a).complete b back rest hb]
    rfl
  sound := by
    intro bs b hr
    cases ha : act bs with
    | mk r t es =>
      cases r with
      | error e =>
        rw [Action.bind_of_error ha] at hr
        cases hr
      | ok a =>
        rw [Action.bind_of_ok ha] at hr ⊢
        obtain ⟨front, hf, hbs⟩ := h.sound bs a (by rw [ha])
        obtain ⟨back, hb, ht⟩ := (hn a).sound t b hr
        refine ⟨front ++ back, ⟨a, front, back, rfl, hf, hb⟩, ?_⟩
        rw [ha] at hbs
        dsimp only at hbs ⊢
        rw [hbs, List.append_assoc, ← ht]

theorem map (h : Reads act spells) (f : α → β) :
    Reads (do return f (← act)) fun b bs => ∃ a, b = f a ∧ spells a bs := by
  refine (h.bind fun a => Reads.pure (f a)).congr fun b bs => ⟨?_, ?_⟩
  · rintro ⟨a, front, back, rfl, hf, rfl, rfl⟩
    exact ⟨a, rfl, (List.append_nil front).symm ▸ hf⟩
  · rintro ⟨a, rfl, hs⟩
    exact ⟨a, bs, [], (List.append_nil bs).symm, hs, rfl, rfl⟩

end Reads

theorem reads_upTo (n : Nat) (short : List UInt8 → Error) :
    Reads (do
      let bs ← upTo n
      if bs.length < n then Action.fail (short bs) else pure bs) fun v bs => v = bs ∧ v.length = n where
  complete := by
    rintro v front rest ⟨rfl, rfl⟩
    have hu : upTo v.length (v ++ rest) = ⟨.ok v, rest, []⟩ := by
      simp only [upTo, Source.draw, List.take_left, List.drop_left]
    rw [Action.bind_of_ok hu, if_neg (Nat.lt_irrefl _)]
    rfl
  sound := by
    intro bs v h
    have hu : upTo n bs = ⟨.ok (bs.take n), bs.drop n, []⟩ := rfl
    rw [Action.bind_of_ok hu] at h ⊢
    split at h
    · cases h
    · next hlen =>
      rw [if_neg hlen]
      cases h
      refine ⟨bs.take n, ⟨rfl, ?_⟩, (List.take_append_drop n bs).symm⟩
      rw [List.length_take] at hlen ⊢
      omega

theorem reads_exactly (n : Nat) : Reads (exactly n) fun v bs => v = bs ∧ v.length = n :=
  reads_upTo n fun _ => .channelIo .unexpectedEnd

theorem reads_nat (width : Nat) :
    Reads (readNat width) fun n bs => n < 256 ^ width ∧ bs = leBytes width n := by
  refine ((reads_exactly width).map leValue).congr fun n bs => ⟨?_, ?_⟩
  · rintro ⟨v, rfl, rfl, rfl⟩
    exact ⟨leValue_lt v, (leBytes_leValue v).symm⟩
  · rintro ⟨hn, rfl⟩
    refine ⟨leBytes width n, ?_, rfl, length_leBytes width n⟩
    rw [leValue_leBytes, Nat.mod_eq_of_lt hn]

theorem leValue_singleton_bne (b : UInt8) : (leValue [b] != 0) = (b != 0) := by
  rw [Bool.eq_iff_iff, bne_iff_ne, bne_iff_ne, leValue, leValue, ne_eq, ne_eq, ← UInt8.toNat_inj]
  rfl

theorem reads_pointer : Reads readPointer fun a bs => bs = encodePointer a := by
  refine ((reads_nat 8).map UInt64.ofNat).congr fun a bs => ⟨?_, ?_⟩
  · rintro ⟨n, rfl, hn, rfl⟩
    rw [encodePointer, UInt64.toNat_ofNat_of_lt' hn]
  · rintro rfl
    exact ⟨a.toNat, (UInt64.ofNat_toNat).symm, a.toNat_lt, rfl⟩

theorem encodeLength_eq_ok_iff {n : Nat} {bs : List UInt8} :
    encodeLength n = .ok bs ↔ n < 2 ^ 32 ∧ bs = leBytes 4 n := by
  have hsize : UInt32.size = 2 ^ 32 := rfl
  rw [encodeLength, hsize]
  split
  · next hn => simp only [Except.ok.injEq, hn, true_and, eq_comm]
  · next hn => exact ⟨fun h => (nomatch h), fun h => (hn h.1).elim⟩

theorem reads_length : Reads (readNat 4) fun n bs => encodeLength n = .ok bs :=
  (reads_nat 4).congr fun _ _ => encodeLength_eq_ok_iff.symm

theorem counted_eq_ok_iff {n : Nat} {back bs : List UInt8} :
    (do return (← encodeLength n) ++ back : Except Error (List UInt8)) = .ok bs ↔
      ∃ front, encodeLength n = .ok front ∧ bs = front ++ back := by
  rw [Error.bind_eq_ok_iff]
  constructor
  · rintro ⟨front, hf, h⟩
    cases h
    exact ⟨front, hf, rfl⟩
  · rintro ⟨front, hf, rfl⟩
    exact ⟨front, hf, rfl⟩

theorem reads_blob : Reads readBlob fun v bs => encodeBlob v = .ok bs := by
  refine (reads_length.bind fun n =>
    reads_upTo n fun bs => .channelIo (.truncated n bs.length)).congr fun v bs => ?_
  refine Iff.trans ⟨?_, ?_⟩ counted_eq_ok_iff.symm
  · rintro ⟨n, front, back, rfl, hf, rfl, rfl⟩
    exact ⟨front, hf, rfl⟩
  · rintro ⟨front, hf, rfl⟩
    exact ⟨v.length, front, v, rfl, hf, rfl, rfl⟩

theorem reads_text : Reads readText fun s bs => encodeBlob (Text.Utf8.encode s) = .ok bs := by
  refine (reads_blob.bind fun v =>
    (?_ : Reads _ fun s bs => v = Text.Utf8.encode s ∧ bs = [])).congr fun s bs => ⟨?_, ?_⟩
  · cases hv : Text.Utf8.decode v with
    | ok s =>
      refine (Reads.pure s).congr fun s' bs => and_congr_left fun _ => ?_
      rw [← Text.Utf8.decode_eq_ok_iff, hv, Except.ok.injEq, eq_comm]
    | error f =>
      refine (Reads.fail _).congr fun s' bs => ⟨False.elim, fun h => ?_⟩
      rw [← Text.Utf8.decode_eq_ok_iff, hv] at h
      cases h.1
  · rintro ⟨v, front, back, rfl, hf, rfl, rfl⟩
    rw [hf, List.append_nil]
  · intro h
    exact ⟨_, bs, [], (List.append_nil bs).symm, h, rfl, rfl⟩

theorem reads_pointerList (n : Nat) :
    Reads (readPointerList n) fun as bs => as.length = n ∧ bs = as.flatMap encodePointer := by
  induction n with
  | zero =>
    refine (Reads.pure []).congr fun as bs => ⟨?_, ?_⟩
    · rintro ⟨rfl, rfl⟩
      exact ⟨rfl, rfl⟩
    · rintro ⟨has, rfl⟩
      rw [List.eq_nil_of_length_eq_zero has]
      exact ⟨rfl, rfl⟩
  | succ n ih =>
    refine (reads_pointer.bind fun a => ih.map (a :: ·)).congr fun as bs => ⟨?_, ?_⟩
    · rintro ⟨a, front, back, rfl, rfl, r, rfl, rfl, rfl⟩
      exact ⟨rfl, rfl⟩
    · rintro ⟨has, rfl⟩
      cases as with
      | nil => cases has
      | cons a r => exact ⟨a, _, _, rfl, rfl, r, rfl, Nat.succ.inj has, rfl⟩

def Spells : (t : FieldType) → t.Value → List UInt8 → Prop
  | .bool, (v : Bool), bs => ∃ b : UInt8, bs = [b] ∧ v = (b != 0)
  | t, v, bs => encode t v = .ok bs

theorem reads_field (t : FieldType) : Reads (read t) (Spells t) := by
  cases t with
  | bool =>
    refine ((reads_exactly 1).map fun v => leValue v != 0).congr fun v bs => ⟨?_, ?_⟩
    · rintro ⟨w, rfl, rfl, hw⟩
      obtain ⟨b, rfl⟩ := List.length_eq_one_iff.1 hw
      exact ⟨b, rfl, leValue_singleton_bne b⟩
    · rintro ⟨b, rfl, rfl⟩
      exact ⟨[b], (leValue_singleton_bne b).symm, rfl, rfl⟩
  | u32 =>
    refine ((reads_nat 4).map UInt32.ofNat).congr fun v bs => ⟨?_, ?_⟩
    · rintro ⟨n, rfl, hn, rfl⟩
      simp only [Spells, encode, UInt32.toNat_ofNat_of_lt' hn]
    · rintro h
      cases h
      exact ⟨_, UInt32.ofNat_toNat.symm, UInt32.toNat_lt _, rfl⟩
  | i32 =>
    refine ((reads_nat 4).map fun n => (UInt32.ofNat n).toInt32).congr fun v bs => ⟨?_, ?_⟩
    · rintro ⟨n, rfl, hn, rfl⟩
      simp only [Spells, encode, UInt32.toUInt32_toInt32, UInt32.toNat_ofNat_of_lt' hn]
    · rintro h
      cases h
      exact ⟨_, by rw [UInt32.ofNat_toNat, Int32.toInt32_toUInt32], UInt32.toNat_lt _, rfl⟩
  | u64 | pointer =>
    refine reads_pointer.congr fun a bs => ?_
    simp only [Spells, encode, Except.ok.injEq, eq_comm]
  | length => exact reads_length
  | bytes => exact reads_blob
  | text => exact reads_text
  | pointers =>
    refine (reads_length.bind reads_pointerList).congr fun as bs => ?_
    refine Iff.trans ⟨?_, ?_⟩ counted_eq_ok_iff.symm
    · rintro ⟨n, front, back, rfl, hf, rfl, rfl⟩
      exact ⟨front, hf, rfl⟩
    · rintro ⟨front, hf, rfl⟩
      exact ⟨_, front, _, rfl, hf, rfl, rfl⟩

def SpellsRow : (ts : List FieldType) → Row ts → List UInt8 → Prop
  | [], _, bs => bs = []
  | t :: r, (v, vs), bs => ∃ front back, bs = front ++ back ∧ Spells t v front ∧ SpellsRow r vs back

theorem reads_row (ts : List FieldType) : Reads (readRow ts) (SpellsRow ts) := by
  induction ts with
  | nil =>
    refine (Reads.pure ()).congr fun _ bs => ?_
    simp only [SpellsRow, true_and]
  | cons t r ih =>
    refine ((reads_field t).bind fun v => ih.map (v, ·)).congr fun vs bs => ⟨?_, ?_⟩
    · rintro ⟨v, front, back, rfl, hf, w, rfl, hb⟩
      exact ⟨front, back, rfl, hf, hb⟩
    · obtain ⟨v, w⟩ := vs
      rintro ⟨front, back, rfl, hf, hb⟩
      exact ⟨v, front, back, rfl, hf, w, rfl, hb⟩

end RemoteAgent.Wire
