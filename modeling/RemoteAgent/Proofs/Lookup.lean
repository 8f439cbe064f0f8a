import Mathlib.Data.List.Basic

/-! What is found in a list of keys and values after an entry was put before it or all entries of a
key were taken out. -/

namespace RemoteAgent

variable {α β : Type} [BEq α] [LawfulBEq α] [DecidableEq α] {name : α} {es : List (α × β)}

theorem lookup_cons_ite (name other : α) (b : β) (es : List (α × β)) :
    ((name, b) :: es).lookup other = if other = name then some b else es.lookup other := by
  rw [List.lookup_cons]
  split
  · next h => rw [if_pos (eq_of_beq h)]
  · next h => rw [if_neg (ne_of_beq_false h)]

theorem lookup_filter_ne (name other : α) (es : List (α × β)) :
    (es.filter (·.1 ≠ name)).lookup other = if other = name then none else es.lookup other := by
  induction es with
  | nil => exact (ite_self none).symm
  | cons e es ih =>
    obtain ⟨n, b⟩ := e
    rw [lookup_cons_ite, List.filter_cons]
    by_cases hn : n = name
    · subst hn
      rw [if_neg (by simp), ih]
      split
      · rfl
      · rfl
    · rw [if_pos (by simpa using hn), lookup_cons_ite, ih]
      split
      · next h =>
        subst h
        rw [if_neg hn]
      · rfl

omit [DecidableEq α] in
theorem mem_of_lookup {b : β} (h : es.lookup name = some b) : (name, b) ∈ es := by
  obtain ⟨front, back, rfl, -⟩ := List.lookup_eq_some_iff.1 h
  exact List.mem_append_right front List.mem_cons_self

end RemoteAgent
