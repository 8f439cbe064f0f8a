import RemoteAgent.Proofs.Message.Payload

/-! Both ways between messages and payloads. What can be encoded is decoded as it was, and what was
decoded is encoded as it was, but for the byte of a true success flag. -/

namespace RemoteAgent.Message

open Wire

/-- Encoding fails only for a count above 32 bits, and decoding undoes it. -/
theorem encode_exists_iff_and_decode_encode (m : Message) :
    ((∃ p, m.encode = .ok p) ↔ ∀ n ∈ m.elementCounts, n < 2 ^ 32) ∧
    ((¬ ∀ n ∈ m.elementCounts, n < 2 ^ 32) → ∃ n ∈ m.elementCounts,
      2 ^ 32 ≤ n ∧ m.encode = .error (.protocol (.lengthTooLarge n))) ∧
    ∀ p, m.encode = .ok p → decode p = .ok m := by
  refine ⟨⟨?_, fun hn => ?_⟩, fun hn => ?_, fun p hp => decode_of_spells (spells_of_encode hp)⟩
  · rintro ⟨p, hp⟩
    rcases writtenIfFits m with ⟨hn, _⟩ | ⟨n, _, _, he⟩
    · exact hn
    · rw [hp] at he
      cases he
  · rcases writtenIfFits m with ⟨_, hp⟩ | ⟨n, hmem, hle, _⟩
    · exact hp
    · exact (Nat.not_lt.2 hle (hn n hmem)).elim
  · rcases writtenIfFits m with ⟨hall, _⟩ | hbig
    · exact (hn hall).elim
    · exact hbig

theorem bool_not_mem_tail_layout (k : Kind) : FieldType.bool ∉ k.layout.tail := by
  cases k <;> decide

theorem head?_layout_eq_bool_iff (k : Kind) :
    k.layout.head? = some .bool ↔ k = .status ∨ k = .statusWithValue := by
  cases k <;> decide

def plainPayload (k : Kind) (p : List UInt8) : List UInt8 := p.take 4 ++ plainFlag k.layout (p.drop 4)

theorem encode_of_spells {m : Message} {p : List UInt8} (h : m.Spells p) :
    m.encode = .ok (plainPayload m.kind p) := by
  obtain ⟨fields, hs, rfl⟩ := h
  have hlen : (leBytes 4 m.kind.tag.toNat).length = 4 := length_leBytes 4 _
  refine encode_eq_ok_iff.2 ⟨_, encodeRow_eq_plainFlag (bool_not_mem_tail_layout m.kind) hs, ?_⟩
  rw [plainPayload, List.take_left' hlen, List.drop_left' hlen]

theorem Spells.plainPayload_eq {m : Message} {p q : List UInt8} (hp : m.Spells p)
    (hq : m.Spells q) : plainPayload m.kind p = plainPayload m.kind q :=
  Except.ok.inj ((encode_of_spells hp).symm.trans (encode_of_spells hq))

theorem Spells.four_le_length {m : Message} {p : List UInt8} (h : m.Spells p) : 4 ≤ p.length := by
  obtain ⟨fields, _, rfl⟩ := h
  rw [List.length_append, length_leBytes]
  exact Nat.le_add_right 4 _

theorem length_plainPayload (k : Kind) (p : List UInt8) : (plainPayload k p).length = p.length := by
  rw [plainPayload, List.length_append, length_plainFlag, ← List.length_append,
    List.take_append_drop]

theorem getElem?_plainPayload {k : Kind} {p : List UInt8} (hp : 4 ≤ p.length) (i : Nat) :
    (plainPayload k p)[i]? =
      if i = 4 ∧ (k = .status ∨ k = .statusWithValue) then
        p[i]?.map fun b => if b = 0 then 0 else 1
      else p[i]? := by
  have hlen : (p.take 4).length = 4 := List.length_take_of_le hp
  rw [plainPayload]
  rcases Nat.lt_or_ge i 4 with hi | hi
  · rw [List.getElem?_append_left (by omega), List.getElem?_take_of_lt hi, if_neg (by omega)]
  · rw [List.getElem?_append_right (by omega), getElem?_plainFlag, hlen, List.getElem?_drop,
      Nat.add_sub_cancel' hi]
    have h4 : i - 4 = 0 ↔ i = 4 := by omega
    simp only [h4, head?_layout_eq_bool_iff]

theorem ne_zero_of_flag_eq {b c : UInt8} (hne : b ≠ c)
    (h : (if b = 0 then 0 else 1 : UInt8) = if c = 0 then 0 else 1) : b ≠ 0 ∧ c ≠ 0 := by
  by_cases hb : b = 0 <;> by_cases hc : c = 0
  · exact (hne (hb.trans hc.symm)).elim
  · rw [if_pos hb, if_neg hc] at h
    exact absurd h (by decide)
  · rw [if_neg hb, if_pos hc] at h
    exact absurd h (by decide)
  · exact ⟨hb, hc⟩

theorem Spells.getElem?_ne {m : Message} {p q : List UInt8} (hp : m.Spells p) (hq : m.Spells q)
    {i : Nat} (hi : p[i]? ≠ q[i]?) :
    i = 4 ∧ (m.kind = .status ∨ m.kind = .statusWithValue) ∧
      ∃ b c, p[i]? = some b ∧ q[i]? = some c ∧ b ≠ 0 ∧ c ≠ 0 := by
  have hat : (plainPayload m.kind p)[i]? = (plainPayload m.kind q)[i]? := by
    rw [hp.plainPayload_eq hq]
  rw [getElem?_plainPayload hp.four_le_length, getElem?_plainPayload hq.four_le_length] at hat
  -- Away from the flag the plain payloads are the payloads themselves.
  by_cases hc : i = 4 ∧ (m.kind = .status ∨ m.kind = .statusWithValue)
  · rw [if_pos hc, if_pos hc] at hat
    refine ⟨hc.1, hc.2, ?_⟩
    cases hb : p[i]? with
    | none =>
      cases hd : q[i]? with
      | none => exact (hi (hb.trans hd.symm)).elim
      | some c => simp [hb, hd] at hat
    | some b =>
      cases hd : q[i]? with
      | none => simp [hb, hd] at hat
      | some c =>
        rw [hb, hd, ne_eq, Option.some.injEq] at hi
        rw [hb, hd, Option.map_some, Option.map_some, Option.some.injEq] at hat
        obtain ⟨hb0, hc0⟩ := ne_zero_of_flag_eq hi hat
        exact ⟨b, c, rfl, rfl, hb0, hc0⟩
  · rw [if_neg hc, if_neg hc] at hat
    exact (hi hat).elim

/-- Encoding gives back what was decoded, with a set success flag as 1. -/
theorem encode_of_decode {p : List UInt8} {m : Message} (h : decode p = .ok m) :
    (∃ q, m.encode = .ok q ∧ q.length = p.length ∧
      ∀ i, q[i]? =
        if i = 4 ∧ (m.kind = .status ∨ m.kind = .statusWithValue) then
          p[i]?.map fun b => if b = 0 then 0 else 1
        else p[i]?) ∧
    ∀ p', decode p' = .ok m → p'.length = p.length ∧
      ∀ i, p[i]? ≠ p'[i]? → i = 4 ∧ (m.kind = .status ∨ m.kind = .statusWithValue) ∧
        ∃ b c, p[i]? = some b ∧ p'[i]? = some c ∧ b ≠ 0 ∧ c ≠ 0 := by
  have hp : m.Spells p := decode_eq_ok_iff.1 h
  refine ⟨⟨plainPayload m.kind p, encode_of_spells hp, length_plainPayload _ _,
    getElem?_plainPayload hp.four_le_length⟩, fun p' h' => ?_⟩
  have hp' : m.Spells p' := decode_eq_ok_iff.1 h'
  refine ⟨?_, fun i hi => hp.getElem?_ne hp' hi⟩
  rw [← length_plainPayload m.kind p', hp'.plainPayload_eq hp, length_plainPayload]

theorem encode_of_decode_flag_seven :
    decode [2, 0, 0, 0, 7, 1, 0, 0, 0, 9] = .ok (statusWithValue true [9]) ∧
      ∃ q, (statusWithValue true [9]).encode = .ok q ∧ q[4]? = some 1 ∧ q[9]? = some 9 := by
  have hd : decode [2, 0, 0, 0, 7, 1, 0, 0, 0, 9] = .ok (statusWithValue true [9]) := by rfl
  obtain ⟨⟨q, hq, _, hi⟩, _⟩ := encode_of_decode hd
  exact ⟨hd, q, hq, hi 4, hi 9⟩

end RemoteAgent.Message
