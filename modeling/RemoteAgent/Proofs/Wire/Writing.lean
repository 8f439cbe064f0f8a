import RemoteAgent.Proofs.Wire.Reading

/-! Writers of fields and what they write: a field is written unless it has too many elements, and
what is written spells its value. -/

namespace RemoteAgent.Wire

/-- The numbers of elements that stand before a field. -/
def FieldType.counts : (t : FieldType) → t.Value → List Nat
  | .length, n => [n]
  | .bytes, (bs : List UInt8) => [bs.length]
  | .text, s => [(Text.Utf8.encode s).length]
  | .pointers, (as : List UInt64) => [as.length]
  | _, _ => []

def Row.counts : (ts : List FieldType) → Row ts → List Nat
  | [], _ => []
  | t :: r, (v, vs) => t.counts v ++ Row.counts r vs

/-- Something is written if all counts fit in 32 bits; if not, one that does not is the failure. -/
def WrittenIfFits (counts : List Nat) (r : Except Error (List UInt8)) : Prop :=
  (∀ n ∈ counts, n < 2 ^ 32) ∧ (∃ bs, r = .ok bs) ∨
    ∃ n ∈ counts, 2 ^ 32 ≤ n ∧ r = .error (.protocol (.lengthTooLarge n))

theorem WrittenIfFits.exists_of_fits {counts : List Nat} {r : Except Error (List UInt8)}
    (h : WrittenIfFits counts r) (hfit : ∀ n ∈ counts, n < 2 ^ 32) : ∃ bs, r = .ok bs := by
  rcases h with ⟨-, hbs⟩ | ⟨n, hn, hle, -⟩
  · exact hbs
  · exact (Nat.not_lt.2 hle (hfit n hn)).elim

theorem writtenIfFits_nil (bs : List UInt8) : WrittenIfFits [] (.ok bs) :=
  .inl ⟨fun _ h => (List.not_mem_nil h).elim, bs, rfl⟩

theorem writtenIfFits_counted (n : Nat) (back : List UInt8) :
    WrittenIfFits [n] (do return (← encodeLength n) ++ back) := by
  rcases Nat.lt_or_ge n (2 ^ 32) with hn | hn
  · have he : encodeLength n = .ok (leBytes 4 n) := if_pos hn
    rw [he]
    exact .inl ⟨fun k hk => List.mem_singleton.1 hk ▸ hn, _, rfl⟩
  · have he : encodeLength n = .error (.protocol (.lengthTooLarge n)) := if_neg (Nat.not_lt.2 hn)
    rw [he]
    exact .inr ⟨n, List.mem_singleton_self n, hn, rfl⟩

theorem writtenIfFits_encode (t : FieldType) (v : t.Value) :
    WrittenIfFits (t.counts v) (encode t v) := by
  cases t with
  | bool | u32 | i32 | u64 | pointer => exact writtenIfFits_nil _
  | length =>
    have h := writtenIfFits_counted v []
    simp only [List.append_nil, bind_pure] at h
    exact h
  | bytes | text | pointers => exact writtenIfFits_counted _ _

theorem writtenIfFits_encodeRow (ts : List FieldType) (vs : Row ts) :
    WrittenIfFits (Row.counts ts vs) (encodeRow ts vs) := by
  induction ts with
  | nil => exact writtenIfFits_nil _
  | cons t r ih =>
    obtain ⟨v, vs⟩ := vs
    simp only [encodeRow, Row.counts]
    rcases writtenIfFits_encode t v with ⟨hv, bs, he⟩ | ⟨n, hn, hlt, he⟩
    · rcases ih vs with ⟨hvs, more, hm⟩ | ⟨n, hn, hlt, hm⟩
      · refine .inl ⟨fun n hn => ?_, bs ++ more, by rw [he, hm]; rfl⟩
        exact (List.mem_append.1 hn).elim (hv n) (hvs n)
      · exact .inr ⟨n, List.mem_append_right _ hn, hlt, by rw [he, hm]; rfl⟩
    · exact .inr ⟨n, List.mem_append_left _ hn, hlt, by rw [he]; rfl⟩

theorem encodeRow_cons_eq_ok_iff {t : FieldType} {r : List FieldType} {v : t.Value} {vs : Row r}
    {bs : List UInt8} : encodeRow (t :: r) (v, vs) = .ok bs ↔
      ∃ front back, bs = front ++ back ∧ encode t v = .ok front ∧ encodeRow r vs = .ok back := by
  simp only [encodeRow, Error.bind_eq_ok_iff]
  constructor
  · rintro ⟨front, hf, back, hb, h⟩
    cases h
    exact ⟨front, back, rfl, hf, hb⟩
  · rintro ⟨front, back, rfl, hf, hb⟩
    exact ⟨front, hf, back, hb, rfl⟩

theorem spells_of_encode {t : FieldType} {v : t.Value} {bs : List UInt8}
    (h : encode t v = .ok bs) : Spells t v bs := by
  cases t with
  | bool =>
    cases h
    cases v with
    | false => exact ⟨0, rfl, rfl⟩
    | true => exact ⟨1, rfl, rfl⟩
  | _ => exact h

theorem spellsRow_of_encodeRow {ts : List FieldType} {vs : Row ts} {bs : List UInt8}
    (h : encodeRow ts vs = .ok bs) : SpellsRow ts vs bs := by
  induction ts generalizing bs with
  | nil =>
    cases h
    rfl
  | cons t r ih =>
    obtain ⟨v, vs⟩ := vs
    obtain ⟨front, back, rfl, hf, hb⟩ := encodeRow_cons_eq_ok_iff.1 h
    exact ⟨front, back, rfl, spells_of_encode hf, ih hb⟩

theorem encodeRow_of_spellsRow {ts : List FieldType} {vs : Row ts} {bs : List UInt8}
    (ht : FieldType.bool ∉ ts) (h : SpellsRow ts vs bs) : encodeRow ts vs = .ok bs := by
  induction ts generalizing bs with
  | nil =>
    cases h
    rfl
  | cons t r ih =>
    obtain ⟨v, vs⟩ := vs
    obtain ⟨front, back, rfl, hf, hb⟩ := h
    rw [List.mem_cons, not_or] at ht
    have hv : encode t v = .ok front := by
      cases t with
      | bool => exact (ht.1 rfl).elim
      | _ => exact hf
    exact encodeRow_cons_eq_ok_iff.2 ⟨front, back, rfl, hv, ih ht.2 hb⟩

def plainFlag : List FieldType → List UInt8 → List UInt8
  | .bool :: _, b :: r => (if b = 0 then 0 else 1) :: r
  | _, bs => bs

theorem plainFlag_of_ne {t : FieldType} (ht : t ≠ .bool) (r : List FieldType) (bs : List UInt8) :
    plainFlag (t :: r) bs = bs := by
  cases t with
  | bool => exact (ht rfl).elim
  | _ => rfl

theorem length_plainFlag (ts : List FieldType) (bs : List UInt8) :
    (plainFlag ts bs).length = bs.length := by
  cases ts with
  | nil => rfl
  | cons t r =>
    by_cases ht : t = .bool
    · subst ht
      cases bs <;> rfl
    · rw [plainFlag_of_ne ht]

theorem getElem?_plainFlag (ts : List FieldType) (bs : List UInt8) (i : Nat) :
    (plainFlag ts bs)[i]? =
      if i = 0 ∧ ts.head? = some .bool then bs[i]?.map (fun b => if b = 0 then 0 else 1)
      else bs[i]? := by
  cases ts with
  | nil => simp [plainFlag]
  | cons t r =>
    by_cases ht : t = .bool
    · subst ht
      cases bs with
      | nil => simp [plainFlag]
      | cons b bs => cases i <;> simp [plainFlag]
    · rw [plainFlag_of_ne ht, if_neg fun h => ht (Option.some.inj h.2)]

theorem encodeRow_eq_plainFlag {ts : List FieldType} {vs : Row ts} {bs : List UInt8}
    (ht : FieldType.bool ∉ ts.tail) (h : SpellsRow ts vs bs) :
    encodeRow ts vs = .ok (plainFlag ts bs) := by
  cases ts with
  | nil => exact encodeRow_of_spellsRow List.not_mem_nil h
  | cons t r =>
    by_cases htb : t = .bool
    · subst htb
      obtain ⟨v, vs⟩ := vs
      obtain ⟨front, back, rfl, ⟨b, rfl, rfl⟩, hb⟩ := h
      -- Only this field has more than one spelling.
      have hflag : encode .bool (b != 0) = .ok [if b = 0 then 0 else 1] := by
        by_cases hb0 : b = 0 <;> simp [encode, hb0]
      exact encodeRow_cons_eq_ok_iff.2 ⟨_, back, rfl, hflag, encodeRow_of_spellsRow ht hb⟩
    · rw [plainFlag_of_ne htb]
      refine encodeRow_of_spellsRow ?_ h
      rw [List.mem_cons, not_or]
      exact ⟨fun h => htb h.symm, ht⟩

end RemoteAgent.Wire
