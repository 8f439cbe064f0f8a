import RemoteAgent.Memory.Mapping

/-! Memory maps. In a map whose mappings rise and share no address, the region at an address is that
of the mapping there, and a free one where there is none. -/

namespace RemoteAgent.Memory

theorem Protection.isAccessible_toCode (p : Protection) :
    Code.isAccessible p.toCode = (p.read || p.write) := by
  obtain ⟨r, w, x, c⟩ := p
  cases r <;> cases w <;> cases x <;> cases c <;> decide

namespace Mapping

def Sorted (ms : List Mapping) : Prop := ms.Pairwise fun m n => m.start ≤ n.start

/-- No address lies in two of them. -/
def Disjoint (ms : List Mapping) : Prop :=
  ms.Pairwise fun m n => ∀ a, ¬ (m.contains a = true ∧ n.contains a = true)

theorem contains_iff {m : Mapping} {a : Nat} : m.contains a = true ↔ m.start ≤ a ∧ a < m.stop := by
  simp only [contains, Bool.and_eq_true, decide_eq_true_eq]

theorem isAccessible_toRegion (m : Mapping) :
    m.toRegion.isAccessible = true ↔ m.read = true ∨ m.write = true := by
  have hcode : Code.isAccessible m.protection.toCode = (m.read || m.write) :=
    m.protection.isAccessible_toCode
  have hstate : m.toRegion.state =
      if m.protection.toCode = Code.noAccess then .reserve else .commit := rfl
  have hprotect : m.toRegion.protect = m.protection.toCode := rfl
  rw [Region.isAccessible, hstate, hprotect, ← Bool.or_eq_true, ← hcode]
  by_cases h : m.protection.toCode = Code.noAccess
  · rw [h]
    decide
  · simp only [if_neg h, decide_true, Bool.true_and]

theorem stop_toRegion {m : Mapping} (h : m.start ≤ m.stop) (ht : m.stop ≤ top) :
    m.toRegion.stop = m.stop := by
  have hsum : m.start + (m.stop - m.start) = m.stop := Nat.add_sub_cancel' h
  show min (m.start + (m.stop - m.start)) top = m.stop
  rw [hsum]
  exact Nat.min_eq_left ht

end Mapping

theorem isAccessible_freeRegion (start stop : Nat) :
    (freeRegion start stop).isAccessible = false := by
  have hstate : (freeRegion start stop).state = .free := rfl
  simp only [Region.isAccessible, hstate, reduceCtorEq, decide_false, Bool.false_and]

theorem regionFrom_of_contains {ms : List Mapping} (hs : Mapping.Sorted ms)
    (hd : Mapping.Disjoint ms) {m : Mapping} (hm : m ∈ ms) {a : Nat} (ha : m.contains a = true)
    (gap : Nat) : regionFrom gap ms a = m.toRegion := by
  have hin : m.start ≤ a ∧ a < m.stop := Mapping.contains_iff.1 ha
  induction ms generalizing gap with
  | nil => cases hm
  | cons n ns ih =>
    have hsn := List.pairwise_cons.1 hs
    have hdn := List.pairwise_cons.1 hd
    rcases List.mem_cons.1 hm with rfl | hmem
    · rw [regionFrom, if_neg (Nat.not_lt.2 hin.1), if_pos hin.2]
    · have hstart : n.start ≤ a := Nat.le_trans (hsn.1 m hmem) hin.1
      have hout : ¬ a < n.stop := by
        intro hlt
        exact hdn.1 m hmem a ⟨Mapping.contains_iff.2 ⟨hstart, hlt⟩, ha⟩
      rw [regionFrom, if_neg (Nat.not_lt.2 hstart), if_neg hout]
      exact ih hsn.2 hdn.2 hmem n.stop

theorem exists_regionFrom_eq_freeRegion {ms : List Mapping} {a : Nat}
    (h : ∀ m ∈ ms, m.contains a = false) (gap : Nat) :
    ∃ start stop, regionFrom gap ms a = freeRegion start stop := by
  induction ms generalizing gap with
  | nil => exact ⟨gap, top, rfl⟩
  | cons n ns ih =>
    have hn : n.contains a = false := h n List.mem_cons_self
    by_cases hstart : a < n.start
    · exact ⟨gap, n.start, by rw [regionFrom, if_pos hstart]⟩
    · have hstop : ¬ a < n.stop := by
        intro hlt
        rw [Mapping.contains_iff.2 ⟨Nat.not_lt.1 hstart, hlt⟩] at hn
        cases hn
      rw [regionFrom, if_neg hstart, if_neg hstop]
      exact ih (fun m hm => h m (List.mem_cons_of_mem n hm)) n.stop

def Usable (ms : List Mapping) (a : Nat) : Prop :=
  ∃ m ∈ ms, m.contains a = true ∧ (m.read = true ∨ m.write = true)

theorem usable_iff_isAccessible_regionAt {ms : List Mapping} (hs : Mapping.Sorted ms)
    (hd : Mapping.Disjoint ms) {a : Nat} : Usable ms a ↔ (regionAt ms a).isAccessible = true := by
  unfold regionAt
  by_cases hc : ∃ m ∈ ms, m.contains a = true
  · obtain ⟨m, hm, ha⟩ := hc
    have hregion : ∀ n ∈ ms, n.contains a = true → regionFrom 0 ms a = n.toRegion :=
      fun n hn han => regionFrom_of_contains hs hd hn han 0
    constructor
    · rintro ⟨n, hn, han, hacc⟩
      rw [hregion n hn han]
      exact n.isAccessible_toRegion.2 hacc
    · intro hacc
      rw [hregion m hm ha] at hacc
      exact ⟨m, hm, ha, m.isAccessible_toRegion.1 hacc⟩
  · have hout : ∀ m ∈ ms, m.contains a = false := by
      intro m hm
      rw [Bool.eq_false_iff]
      exact fun ha => hc ⟨m, hm, ha⟩
    obtain ⟨start, stop, hfree⟩ := exists_regionFrom_eq_freeRegion hout 0
    rw [hfree, isAccessible_freeRegion]
    refine ⟨?_, fun h => nomatch h⟩
    rintro ⟨m, hm, ha, _⟩
    exact (hc ⟨m, hm, ha⟩).elim

theorem stop_regionAt_of_usable {ms : List Mapping} (hs : Mapping.Sorted ms)
    (hd : Mapping.Disjoint ms) (ht : ∀ m ∈ ms, m.stop ≤ top) {a : Nat} (h : Usable ms a) :
    a < (regionAt ms a).stop ∧ ∀ b, a ≤ b → b < (regionAt ms a).stop → Usable ms b := by
  obtain ⟨m, hm, ha, hacc⟩ := h
  have hin : m.start ≤ a ∧ a < m.stop := Mapping.contains_iff.1 ha
  have hstop : m.toRegion.stop = m.stop := Mapping.stop_toRegion (by omega) (ht m hm)
  unfold regionAt
  rw [regionFrom_of_contains hs hd hm ha, hstop]
  refine ⟨hin.2, ?_⟩
  intro b hab hb
  exact ⟨m, hm, Mapping.contains_iff.2 ⟨Nat.le_trans hin.1 hab, hb⟩, hacc⟩

end RemoteAgent.Memory
