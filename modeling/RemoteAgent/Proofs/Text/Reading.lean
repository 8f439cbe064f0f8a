import Mathlib.Data.List.TakeWhile
import RemoteAgent.Text.Blank
import RemoteAgent.Text.Hex

/-! What is read back from a text: the words that white space parts, the two sides of a mark, and
hexadecimal numerals, with zeros in front of them or without. -/

namespace RemoteAgent.Text

section Words

structure IsWord (w : List Char) : Prop where
  nonempty : w ≠ []
  plain : ∀ c ∈ w, isBlank c = false

instance (w : List Char) : Decidable (IsWord w) :=
  decidable_of_iff (w ≠ [] ∧ (w.all fun c => !isBlank c) = true) <| by
    simp only [List.all_eq_true, Bool.not_eq_true']
    exact ⟨fun h => ⟨h.1, h.2⟩, fun h => ⟨h.nonempty, h.plain⟩⟩

variable {w rest cs : List Char}

theorem wordsFrom_append (hw : ∀ c ∈ w, isBlank c = false) (word rest : List Char) :
    wordsFrom word (w ++ rest) = wordsFrom (w.reverse ++ word) rest := by
  induction w generalizing word with
  | nil => rfl
  | cons c w ih =>
    obtain ⟨hc, hw⟩ := List.forall_mem_cons.1 hw
    rw [List.cons_append, wordsFrom, if_neg (Bool.eq_false_iff.1 hc), ih hw, List.reverse_cons,
      List.append_assoc, List.singleton_append]

theorem words_append (hw : IsWord w) (hrest : ∀ c ∈ rest.head?, isBlank c = true) :
    words (w ++ rest) = w :: words rest := by
  have hword : w.reverse ≠ [] := List.reverse_eq_nil_iff.not.2 hw.nonempty
  rw [words, wordsFrom_append hw.plain, List.append_nil, words]
  cases rest with
  | nil => rw [wordsFrom, if_neg hword, List.reverse_reverse, wordsFrom, if_pos rfl]
  | cons c r =>
    have hc : isBlank c = true := hrest c rfl
    rw [wordsFrom, if_pos hc, if_neg hword, List.reverse_reverse, wordsFrom, if_pos hc, if_pos rfl]

theorem words_cons {c : Char} (hc : isBlank c = true) (cs : List Char) : words (c :: cs) = words cs := by
  rw [words, wordsFrom, if_pos hc, if_pos rfl, words]

theorem words_replicate (n : Nat) (cs : List Char) :
    words (List.replicate n ' ' ++ cs) = words cs := by
  induction n with
  | zero => rfl
  | succ n ih =>
    rw [List.replicate_succ, List.cons_append, words_cons (by decide), ih]

theorem getD_words_zero (h : ∀ c ∈ cs.head?, isBlank c = false) :
    ((words cs)[0]?).getD [] = cs.takeWhile fun c => !isBlank c := by
  cases cs with
  | nil => rfl
  | cons c r =>
    have hc : isBlank c = false := h c rfl
    have hword : IsWord ((c :: r).takeWhile fun c => !isBlank c) := by
      refine ⟨?_, fun d hd => ?_⟩
      · rw [List.takeWhile_cons_of_pos (by simpa using hc)]
        exact List.cons_ne_nil _ _
      · simpa using List.mem_takeWhile_imp hd
    have hrest : ∀ d ∈ ((c :: r).dropWhile fun c => !isBlank c).head?, isBlank d = true := by
      intro d hd
      have hstop := List.head?_dropWhile_not (fun c => !isBlank c) (c :: r)
      rw [Option.mem_def.1 hd] at hstop
      simpa using hstop
    have hwords := words_append hword hrest
    rw [List.takeWhile_append_dropWhile] at hwords
    rw [hwords]
    rfl

end Words

theorem splitOnce?_append {mark : Char} {a : List Char} (h : mark ∉ a) (b : List Char) :
    splitOnce? mark (a ++ mark :: b) = some (a, b) := by
  induction a with
  | nil => rw [List.nil_append, splitOnce?, if_pos rfl]
  | cons c a ih =>
    have hc : c ≠ mark := fun heq => h (heq ▸ List.mem_cons_self)
    have ha : mark ∉ a := fun hmem => h (List.mem_cons_of_mem c hmem)
    rw [List.cons_append, splitOnce?, if_neg hc, ih ha, Option.map_some]

section Numerals

theorem hexValue?_digitChar : ∀ d < 16, hexValue? (Nat.digitChar d) = some d := by decide

theorem readHexFrom_hexDigits (n : Nat) : readHexFrom 0 (hexDigits n) = some n := by
  induction n using Nat.strongRecOn with
  | ind n ih =>
    rw [hexDigits, Nat.toDigits_eq_if (by decide)]
    split
    · next hlt =>
      rw [readHexFrom, hexValue?_digitChar n hlt]
      exact congrArg some (Nat.zero_add n)
    · next hge =>
      have hdiv : n / 16 < n := Nat.div_lt_self (by omega) (by decide)
      have hhigh : readHexFrom 0 (Nat.toDigits 16 (n / 16)) = some (n / 16) := ih (n / 16) hdiv
      rw [readHexFrom_append, hhigh, Option.bind_some, readHexFrom,
        hexValue?_digitChar (n % 16) (Nat.mod_lt n (by decide))]
      exact congrArg some (Nat.div_add_mod' n 16)

theorem readHexFrom_zeros (k : Nat) (cs : List Char) :
    readHexFrom 0 (List.replicate k '0' ++ cs) = readHexFrom 0 cs := by
  induction k with
  | zero => rfl
  | succ k ih => exact ih

theorem hexValue?_ne_none_of_readHexFrom {acc n : Nat} {cs : List Char}
    (h : readHexFrom acc cs = some n) : ∀ c ∈ cs, hexValue? c ≠ none := by
  induction cs generalizing acc with
  | nil => exact fun c hc => (List.not_mem_nil hc).elim
  | cons d cs ih =>
    rw [readHexFrom] at h
    cases hd : hexValue? d with
    | none =>
      rw [hd] at h
      cases h
    | some v =>
      rw [hd] at h
      refine List.forall_mem_cons.2 ⟨?_, ih h⟩
      rw [hd]
      exact Option.some_ne_none v

theorem isBlank_eq_false_of_hexValue? {c : Char} (h : hexValue? c ≠ none) : isBlank c = false := by
  have hrange : 48 ≤ c.toNat ∧ c.toNat ≤ 57 ∨ 97 ≤ c.toNat ∧ c.toNat ≤ 102 ∨
      65 ≤ c.toNat ∧ c.toNat ≤ 70 := by
    unfold hexValue? at h
    split at h
    · next hdigit => exact .inl hdigit
    · split at h
      · next hlower => exact .inr (.inl hlower)
      · split at h
        · next hupper => exact .inr (.inr hupper)
        · exact (h rfl).elim
  simp only [isBlank, Bool.or_eq_false_iff, Bool.and_eq_false_iff, decide_eq_false_iff_not]
  omega

end Numerals

end RemoteAgent.Text
