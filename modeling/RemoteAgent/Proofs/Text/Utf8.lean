import RemoteAgent.Text.Utf8

/-! Text as bytes and back: nothing is marked in bytes that are those of a text. -/

namespace RemoteAgent.Text.Utf8

section Lead

variable {b : UInt8}

theorem lead?_ascii (h : b.toNat < 0x80) : lead? b = some (0, 0x80, 0xBF) := by
  have hlt : b < 0x80 := UInt8.lt_iff_toNat_lt.2 h
  rw [lead?, if_pos hlt]

theorem lead?_two (hlo : 0xC2 ≤ b.toNat) (hhi : b.toNat < 0xE0) :
    lead? b = some (1, 0x80, 0xBF) := by
  simp only [lead?, UInt8.lt_iff_toNat_lt, UInt8.reduceToNat]
  rw [if_neg (by omega), if_neg (by omega), if_pos hhi]

theorem lead?_three (hlo : 0xE0 ≤ b.toNat) (hhi : b.toNat < 0xF0) :
    ∃ lo hi, lead? b = some (2, lo, hi) ∧
      lo.toNat = (if b.toNat = 0xE0 then 0xA0 else 0x80) ∧
      hi.toNat = if b.toNat = 0xED then 0x9F else 0xBF := by
  simp only [lead?, UInt8.lt_iff_toNat_lt, ← UInt8.toNat_inj, UInt8.reduceToNat]
  rw [if_neg (by omega), if_neg (by omega), if_neg (by omega)]
  by_cases h0 : b.toNat = 0xE0
  · rw [if_pos h0, if_pos h0, if_neg (by omega)]
    exact ⟨_, _, rfl, rfl, rfl⟩
  · rw [if_neg h0, if_neg h0]
    by_cases hd : b.toNat = 0xED
    · rw [if_pos hd, if_pos hd]
      exact ⟨_, _, rfl, rfl, rfl⟩
    · rw [if_neg hd, if_neg hd, if_pos hhi]
      exact ⟨_, _, rfl, rfl, rfl⟩

theorem lead?_four (hlo : 0xF0 ≤ b.toNat) (hhi : b.toNat ≤ 0xF4) :
    ∃ lo hi, lead? b = some (3, lo, hi) ∧
      lo.toNat = (if b.toNat = 0xF0 then 0x90 else 0x80) ∧
      hi.toNat = if b.toNat = 0xF4 then 0x8F else 0xBF := by
  simp only [lead?, UInt8.lt_iff_toNat_lt, ← UInt8.toNat_inj, UInt8.reduceToNat]
  rw [if_neg (by omega), if_neg (by omega), if_neg (by omega), if_neg (by omega),
    if_neg (by omega), if_neg (by omega)]
  by_cases h0 : b.toNat = 0xF0
  · rw [if_pos h0, if_pos h0, if_neg (by omega)]
    exact ⟨_, _, rfl, rfl, rfl⟩
  · rw [if_neg h0, if_neg h0]
    by_cases h4 : b.toNat = 0xF4
    · rw [if_neg (by omega), if_pos h4, if_pos h4]
      exact ⟨_, _, rfl, rfl, rfl⟩
    · rw [if_pos (by omega), if_neg h4]
      exact ⟨_, _, rfl, rfl, rfl⟩

end Lead

section Follow

variable {lo hi c : UInt8} {cs r : List UInt8}

theorem follow_of_continues (h : ∀ c ∈ cs, 0x80 ≤ c.toNat ∧ c.toNat ≤ 0xBF) :
    follow cs.length 0x80 0xBF (cs ++ r) = (cs.length, .whole) := by
  induction cs with
  | nil => rfl
  | cons c cs ih =>
    obtain ⟨hlo, hhi⟩ := h c List.mem_cons_self
    have hc : (0x80 : UInt8) ≤ c ∧ c ≤ 0xBF :=
      ⟨UInt8.le_iff_toNat_le.2 hlo, UInt8.le_iff_toNat_le.2 hhi⟩
    rw [List.length_cons, List.cons_append, follow, if_pos hc,
      ih fun d hd => h d (List.mem_cons_of_mem c hd)]

/-- The bounds of the lead byte are those of the first byte that follows. -/
theorem follow_cons (hlo : lo.toNat ≤ c.toNat) (hhi : c.toNat ≤ hi.toNat)
    (h : ∀ c ∈ cs, 0x80 ≤ c.toNat ∧ c.toNat ≤ 0xBF) :
    follow (cs.length + 1) lo hi (c :: cs ++ r) = (cs.length + 1, .whole) := by
  have hc : lo ≤ c ∧ c ≤ hi := ⟨UInt8.le_iff_toNat_le.2 hlo, UInt8.le_iff_toNat_le.2 hhi⟩
  rw [List.cons_append, follow, if_pos hc, follow_of_continues h]

theorem lossyChars_of_tail {b : UInt8} (h : tail b (cs ++ r) = (cs.length, .whole)) :
    lossyChars (b :: cs ++ r) = Char.ofNat (codePoint b cs.length cs) :: lossyChars r := by
  rw [List.cons_append, lossyChars, h]
  dsimp only
  rw [List.take_left, List.drop_left]

end Follow

section Character

variable {a b c d : Nat} {r : List UInt8}

theorem lossyChars_one (ha : a < 0x80) :
    lossyChars (UInt8.ofNat a :: r) = Char.ofNat a :: lossyChars r := by
  have hlead : (UInt8.ofNat a).toNat = a :=
    UInt8.toNat_ofNat_of_lt (show _ < 256 by omega)
  have htail : tail (UInt8.ofNat a) ([] ++ r) = (0, .whole) := by
    rw [tail, lead?_ascii (by omega)]
    rfl
  have hchars := lossyChars_of_tail htail
  rw [codePoint, List.length_nil, if_pos rfl, hlead] at hchars
  exact hchars

theorem lossyChars_two (ha : 2 ≤ a) (ha' : a < 0x20) (hb : b < 0x40) :
    lossyChars (UInt8.ofNat (a + 0xc0) :: UInt8.ofNat (b + 0x80) :: r) =
      Char.ofNat (a * 64 + b) :: lossyChars r := by
  have hlead : (UInt8.ofNat (a + 0xc0)).toNat = a + 0xc0 :=
    UInt8.toNat_ofNat_of_lt (show _ < 256 by omega)
  have hnext : (UInt8.ofNat (b + 0x80)).toNat = b + 0x80 :=
    UInt8.toNat_ofNat_of_lt (show _ < 256 by omega)
  have htail : tail (UInt8.ofNat (a + 0xc0)) ([UInt8.ofNat (b + 0x80)] ++ r) = (1, .whole) := by
    rw [tail, lead?_two (by omega) (by omega)]
    refine @follow_of_continues [_] r fun c hc => ?_
    rw [List.mem_singleton.1 hc, hnext]
    omega
  have hchars := lossyChars_of_tail htail
  have hpoint : codePoint (UInt8.ofNat (a + 0xc0)) 1 [UInt8.ofNat (b + 0x80)] = a * 64 + b := by
    show (UInt8.ofNat (a + 0xc0)).toNat % 32 * 64 + (UInt8.ofNat (b + 0x80)).toNat % 64 = _
    omega
  exact hpoint ▸ hchars

theorem lossyChars_three (ha : a < 0x10) (hb : b < 0x40) (hc : c < 0x40)
    (hlow : 0x800 ≤ (a * 64 + b) * 64 + c)
    (hvalid : (a * 64 + b) * 64 + c < 0xD800 ∨ 0xDFFF < (a * 64 + b) * 64 + c) :
    lossyChars (UInt8.ofNat (a + 0xe0) :: UInt8.ofNat (b + 0x80) :: UInt8.ofNat (c + 0x80) :: r) =
      Char.ofNat ((a * 64 + b) * 64 + c) :: lossyChars r := by
  have hlead : (UInt8.ofNat (a + 0xe0)).toNat = a + 0xe0 :=
    UInt8.toNat_ofNat_of_lt (show _ < 256 by omega)
  have hnext : (UInt8.ofNat (b + 0x80)).toNat = b + 0x80 :=
    UInt8.toNat_ofNat_of_lt (show _ < 256 by omega)
  have hlast : (UInt8.ofNat (c + 0x80)).toNat = c + 0x80 :=
    UInt8.toNat_ofNat_of_lt (show _ < 256 by omega)
  have htail : tail (UInt8.ofNat (a + 0xe0))
      ([UInt8.ofNat (b + 0x80), UInt8.ofNat (c + 0x80)] ++ r) = (2, .whole) := by
    obtain ⟨lo, hi, hbounds, hlo, hhi⟩ := @lead?_three (UInt8.ofNat (a + 0xe0)) (by omega) (by omega)
    rw [hlead] at hlo hhi
    rw [tail, hbounds]
    -- a lead byte with narrower bounds leaves out short forms and surrogates
    refine @follow_cons lo hi _ [_] r ?_ ?_ fun c hc => ?_
    · rw [hlo, hnext]
      split <;> omega
    · rw [hhi, hnext]
      split <;> omega
    · rw [List.mem_singleton.1 hc, hlast]
      omega
  have hchars := lossyChars_of_tail htail
  have hpoint : codePoint (UInt8.ofNat (a + 0xe0)) 2
      [UInt8.ofNat (b + 0x80), UInt8.ofNat (c + 0x80)] = (a * 64 + b) * 64 + c := by
    show ((UInt8.ofNat (a + 0xe0)).toNat % 16 * 64 + (UInt8.ofNat (b + 0x80)).toNat % 64) * 64 +
      (UInt8.ofNat (c + 0x80)).toNat % 64 = _
    omega
  exact hpoint ▸ hchars

theorem lossyChars_four (hb : b < 0x40) (hc : c < 0x40) (hd : d < 0x40)
    (hlow : 0x10000 ≤ ((a * 64 + b) * 64 + c) * 64 + d)
    (hhigh : ((a * 64 + b) * 64 + c) * 64 + d < 0x110000) :
    lossyChars (UInt8.ofNat (a + 0xf0) :: UInt8.ofNat (b + 0x80) :: UInt8.ofNat (c + 0x80) ::
      UInt8.ofNat (d + 0x80) :: r) =
        Char.ofNat (((a * 64 + b) * 64 + c) * 64 + d) :: lossyChars r := by
  have hlead : (UInt8.ofNat (a + 0xf0)).toNat = a + 0xf0 :=
    UInt8.toNat_ofNat_of_lt (show _ < 256 by omega)
  have hcont : ∀ n < 0x40, (UInt8.ofNat (n + 0x80)).toNat = n + 0x80 :=
    fun n hn => UInt8.toNat_ofNat_of_lt (show _ < 256 by omega)
  have htail : tail (UInt8.ofNat (a + 0xf0))
      ([UInt8.ofNat (b + 0x80), UInt8.ofNat (c + 0x80), UInt8.ofNat (d + 0x80)] ++ r) =
        (3, .whole) := by
    obtain ⟨lo, hi, hbounds, hlo, hhi⟩ := @lead?_four (UInt8.ofNat (a + 0xf0)) (by omega) (by omega)
    rw [hlead] at hlo hhi
    rw [tail, hbounds]
    refine @follow_cons lo hi _ [_, _] r ?_ ?_ fun x hx => ?_
    · rw [hlo, hcont b hb]
      split <;> omega
    · rw [hhi, hcont b hb]
      split <;> omega
    · simp only [List.mem_cons, List.not_mem_nil, or_false] at hx
      rcases hx with rfl | rfl
      · rw [hcont c hc]
        omega
      · rw [hcont d hd]
        omega
  have hchars := lossyChars_of_tail htail
  have hpoint : codePoint (UInt8.ofNat (a + 0xf0)) 3
      [UInt8.ofNat (b + 0x80), UInt8.ofNat (c + 0x80), UInt8.ofNat (d + 0x80)] =
        ((a * 64 + b) * 64 + c) * 64 + d := by
    show (((UInt8.ofNat (a + 0xf0)).toNat % 8 * 64 + (UInt8.ofNat (b + 0x80)).toNat % 64) * 64 +
      (UInt8.ofNat (c + 0x80)).toNat % 64) * 64 + (UInt8.ofNat (d + 0x80)).toNat % 64 = _
    rw [hlead, hcont b hb, hcont c hc, hcont d hd]
    omega
  exact hpoint ▸ hchars

end Character

theorem lossyChars_utf8EncodeChar (c : Char) (r : List UInt8) :
    lossyChars (String.utf8EncodeChar c ++ r) = c :: lossyChars r := by
  have hvalid : c.toNat < 0xD800 ∨ 0xDFFF < c.toNat ∧ c.toNat < 0x110000 := c.valid
  have hback : ∀ n, n = c.toNat → Char.ofNat n = c := fun n hn => hn ▸ Char.ofNat_toNat c
  have hval : c.val.toNat = c.toNat := rfl
  rw [String.utf8EncodeChar, hval]
  by_cases h1 : c.toNat ≤ 0x7f
  · rw [if_pos h1]
    exact (lossyChars_one (by omega)).trans (congrArg (· :: _) (hback _ rfl))
  · by_cases h2 : c.toNat ≤ 0x7ff
    · rw [if_neg h1, if_pos h2]
      refine (lossyChars_two ?_ ?_ ?_).trans (congrArg (· :: _) (hback _ ?_))
      all_goals omega
    · by_cases h3 : c.toNat ≤ 0xffff
      · rw [if_neg h1, if_neg h2, if_pos h3]
        refine (lossyChars_three ?_ ?_ ?_ ?_ ?_).trans (congrArg (· :: _) (hback _ ?_))
        all_goals omega
      · rw [if_neg h1, if_neg h2, if_neg h3]
        refine (lossyChars_four ?_ ?_ ?_ ?_ ?_).trans (congrArg (· :: _) (hback _ ?_))
        all_goals omega

theorem encode_eq_flatMap (s : String) : encode s = s.toList.flatMap String.utf8EncodeChar := by
  rw [encode, ← String.utf8Encode_toList, List.utf8Encode, List.data_toByteArray]

@[simp] theorem lossy_encode (s : String) : lossy (encode s) = s := by
  have hchars : ∀ cs : List Char, lossyChars (cs.flatMap String.utf8EncodeChar) = cs := by
    intro cs
    induction cs with
    | nil => rw [List.flatMap_nil, lossyChars]
    | cons c cs ih => rw [List.flatMap_cons, lossyChars_utf8EncodeChar, ih]
  rw [lossy, encode_eq_flatMap, hchars, String.ofList_toList]

end RemoteAgent.Text.Utf8
