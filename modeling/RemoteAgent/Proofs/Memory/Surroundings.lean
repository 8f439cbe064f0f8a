import RemoteAgent.Proofs.Memory.Partition
import RemoteAgent.Proofs.Memory.Protecting

/-! What a list of mappings shows around an address. Whatever the order of the mappings, and also where
they overlap, the size of the region does not fall below zero, and the address lies in it unless it is
the highest one. In a memory map, two regions that share an address are one. -/

namespace RemoteAgent.Memory

def span? (start stop : Nat) : Option Nat := if start ≤ stop then some (stop - start) else none

def freeRegion? (start stop : Nat) : Option Region :=
  (span? start stop).map fun size => { freeRegion start stop with size }

def Mapping.toRegion? (m : Mapping) : Option Region :=
  (span? m.start m.stop).map fun size => { m.toRegion with size }

def regionFrom? (gap : Nat) : List Mapping → Nat → Option Region
  | [], _ => freeRegion? gap top
  | m :: r, address =>
    if address < m.start then freeRegion? gap m.start
    else if address < m.stop then m.toRegion?
    else regionFrom? m.stop r address

def regionAt? (mappings : List Mapping) (address : Nat) : Option Region :=
  regionFrom? 0 mappings address

theorem freeRegion?_of_le {start stop : Nat} (h : start ≤ stop) :
    freeRegion? start stop = some (freeRegion start stop) := by
  rw [freeRegion?, span?, if_pos h, Option.map_some]
  rfl

theorem Mapping.toRegion?_of_le {m : Mapping} (h : m.start ≤ m.stop) :
    m.toRegion? = some m.toRegion := by
  rw [toRegion?, span?, if_pos h, Option.map_some]
  rfl

theorem contains_freeRegion {start stop a : Nat} (hstop : stop ≤ top) (hlo : start ≤ a)
    (hhi : a < stop) : (freeRegion start stop).contains a = true := by
  have hend : (freeRegion start stop).stop = stop := stop_freeRegion (by omega) hstop
  exact Region.contains_iff.2 ⟨hlo, hend.symm ▸ hhi⟩

theorem Mapping.contains_toRegion {m : Mapping} (hm : m.Proper) (a : Nat) :
    m.toRegion.contains a = m.contains a := by
  have hend : m.toRegion.stop = m.stop := stop_toRegion (Nat.le_of_lt hm.nonempty) hm.bounded
  rw [Region.contains, hend]
  rfl

section Search

variable {ms : List Mapping} {gap a c : Nat}

theorem regionFrom?_eq_some (hp : ∀ m ∈ ms, m.Proper) (hgap : gap ≤ a) (ha : a ≤ top) :
    regionFrom? gap ms a = some (regionFrom gap ms a) := by
  induction ms generalizing gap with
  | nil => exact freeRegion?_of_le (hgap.trans ha)
  | cons m ms ih =>
    obtain ⟨hm, hp⟩ := List.forall_mem_cons.1 hp
    rw [regionFrom?, regionFrom]
    split
    · next hbelow => exact freeRegion?_of_le (Nat.le_of_lt (Nat.lt_of_le_of_lt hgap hbelow))
    · split
      · exact Mapping.toRegion?_of_le (Nat.le_of_lt hm.nonempty)
      · next hbehind => exact ih hp (Nat.not_lt.1 hbehind)

theorem contains_regionFrom (hp : ∀ m ∈ ms, m.Proper) (hgap : gap ≤ a) (ha : a < top) :
    (regionFrom gap ms a).contains a = true := by
  induction ms generalizing gap with
  | nil => exact contains_freeRegion (Nat.le_refl top) hgap ha
  | cons m ms ih =>
    obtain ⟨hm, hp⟩ := List.forall_mem_cons.1 hp
    rw [regionFrom]
    split
    · next hbelow =>
      have hstart : m.start ≤ top := (Nat.le_of_lt hm.nonempty).trans hm.bounded
      exact contains_freeRegion hstart hgap hbelow
    · next hfrom =>
      split
      · next hinside =>
        rw [Mapping.contains_toRegion hm]
        exact Mapping.contains_iff.2 ⟨Nat.not_lt.1 hfrom, hinside⟩
      · next hbehind => exact ih hp (Nat.not_lt.1 hbehind)

theorem regionFrom_top (hp : ∀ m ∈ ms, m.Proper) :
    regionFrom gap ms top = freeRegion ((ms.getLast?.map (·.stop)).getD gap) top := by
  induction ms generalizing gap with
  | nil => rfl
  | cons m ms ih =>
    obtain ⟨hm, hp⟩ := List.forall_mem_cons.1 hp
    rw [regionFrom_behind hm hm.bounded, ih hp, List.getLast?_cons]
    cases ms.getLast? with
    | none => rfl
    | some n => rfl

theorem pairwise_stop_le_start (hs : Mapping.Sorted ms) (hd : Mapping.Disjoint ms)
    (hp : ∀ m ∈ ms, m.Proper) : ms.Pairwise fun m n => m.stop ≤ n.start :=
  (hs.and hd).imp_of_mem fun _ hn h => stop_le_start h.1 (hp _ hn) h.2

theorem le_base_regionFrom (hr : ms.Pairwise fun m n => m.stop ≤ n.start) (hp : ∀ m ∈ ms, m.Proper)
    (hgap : ∀ m ∈ ms, gap ≤ m.start) : gap ≤ (regionFrom gap ms a).base := by
  induction ms generalizing gap with
  | nil => exact Nat.le_refl gap
  | cons m ms ih =>
    obtain ⟨hbehind, hr⟩ := List.pairwise_cons.1 hr
    obtain ⟨hm, hp⟩ := List.forall_mem_cons.1 hp
    have hstart : gap ≤ m.start := hgap m List.mem_cons_self
    rw [regionFrom]
    split
    · exact Nat.le_refl gap
    · split
      · exact hstart
      · calc gap ≤ m.start := hstart
          _ ≤ m.stop := Nat.le_of_lt hm.nonempty
          _ ≤ _ := ih hr hp hbehind

theorem regionFrom_eq_of_contains (hr : ms.Pairwise fun m n => m.stop ≤ n.start)
    (hp : ∀ m ∈ ms, m.Proper) (hgap : ∀ m ∈ ms, gap ≤ m.start)
    (hc : (regionFrom gap ms a).contains c = true) :
    regionFrom gap ms c = regionFrom gap ms a := by
  induction ms generalizing gap with
  | nil => rfl
  | cons m ms ih =>
    obtain ⟨hbehind, hr⟩ := List.pairwise_cons.1 hr
    obtain ⟨hm, hp⟩ := List.forall_mem_cons.1 hp
    have hstart : gap ≤ m.start := hgap m List.mem_cons_self
    rw [regionFrom] at hc
    split at hc
    · next hbelow =>
      have hend : (freeRegion gap m.start).stop = m.start :=
        stop_freeRegion hstart ((Nat.le_of_lt hm.nonempty).trans hm.bounded)
      have hlow : c < m.start := hend ▸ (Region.contains_iff.1 hc).2
      rw [regionFrom, regionFrom, if_pos hlow, if_pos hbelow]
    · next hfrom =>
      split at hc
      · next hinside =>
        rw [Mapping.contains_toRegion hm, Mapping.contains_iff] at hc
        rw [regionFrom, regionFrom, if_neg (Nat.not_lt.2 hc.1), if_pos hc.2, if_neg hfrom,
          if_pos hinside]
      · next hbeyond =>
        -- What is found behind the mapping lies above it, so that both searches go on there.
        have hbase : m.stop ≤ (regionFrom m.stop ms a).base := le_base_regionFrom hr hp hbehind
        have hhigh : m.stop ≤ c := hbase.trans (Region.contains_iff.1 hc).1
        rw [regionFrom_behind hm hhigh, regionFrom_behind hm (Nat.not_lt.1 hbeyond)]
        exact ih hr hp hbehind hc

end Search

theorem state_regionAt_eq_free_iff {ms : List Mapping} (hs : Mapping.Sorted ms)
    (hd : Mapping.Disjoint ms) (a : Nat) :
    (regionAt ms a).state = .free ↔ ∀ m ∈ ms, m.contains a = false := by
  constructor
  · intro hfree m hm
    rw [Bool.eq_false_iff]
    intro hin
    rw [regionAt, regionFrom_of_contains hs hd hm hin] at hfree
    exact m.state_toRegion_ne_free hfree
  · intro hout
    obtain ⟨start, stop, hfree⟩ := exists_regionFrom_eq_freeRegion hout 0
    rw [regionAt, hfree]
    rfl

theorem regionAt_eq_of_common {ms : List Mapping} (hs : Mapping.Sorted ms)
    (hd : Mapping.Disjoint ms) (hp : ∀ m ∈ ms, m.Proper) {a b c : Nat}
    (ha : (regionAt ms a).contains c = true) (hb : (regionAt ms b).contains c = true) :
    regionAt ms a = regionAt ms b := by
  have hr := pairwise_stop_le_start hs hd hp
  have hgap : ∀ m ∈ ms, 0 ≤ m.start := fun _ _ => Nat.zero_le _
  calc regionAt ms a = regionAt ms c := (regionFrom_eq_of_contains hr hp hgap ha).symm
    _ = regionAt ms b := regionFrom_eq_of_contains hr hp hgap hb

/-- The region at an address of any list of proper mappings: its size is the difference of two addresses,
and it holds the address unless that is the highest, where it is the gap behind the last mapping of the
list. In a memory map the regions at two addresses are equal or share no address, and the region at an
address is free exactly if the address is not mapped. -/
theorem regionAt_surrounds {ms : List Mapping} (hp : ∀ m ∈ ms, m.Proper) :
    (∀ a ≤ top, regionAt? ms a = some (regionAt ms a)) ∧
      (∀ a < top, (regionAt ms a).contains a = true) ∧
      regionAt ms top = freeRegion ((ms.getLast?.map (·.stop)).getD 0) top ∧
      (Mapping.Sorted ms → Mapping.Disjoint ms →
        (∀ a b, regionAt ms a = regionAt ms b ∨
          ∀ c, ¬ ((regionAt ms a).contains c = true ∧ (regionAt ms b).contains c = true)) ∧
        ∀ a, (regionAt ms a).state = .free ↔ ∀ m ∈ ms, m.contains a = false) := by
  refine ⟨fun a ha => regionFrom?_eq_some hp (Nat.zero_le a) ha,
    fun a ha => contains_regionFrom hp (Nat.zero_le a) ha, regionFrom_top hp, fun hs hd => ⟨?_, ?_⟩⟩
  · intro a b
    by_cases hsame : regionAt ms a = regionAt ms b
    · exact .inl hsame
    · exact .inr fun c hc => hsame (regionAt_eq_of_common hs hd hp hc.1 hc.2)
  · exact fun a => state_regionAt_eq_free_iff hs hd a

/-- Mappings that overlap and fall, with a gap that begins where the second one ends; and a memory map
whose last mapping leaves no gap behind it. -/
theorem regionAt_surrounds_overlapping :
    let ms : List Mapping := [⟨0x5000, 0x8000, true, true, false, ""⟩,
      ⟨0x1000, 0x6000, true, false, true, "/agent"⟩, ⟨0x9000, top, false, false, false, ""⟩]
    let ns : List Mapping := [⟨0x1000, 0x3000, true, true, false, ""⟩,
      ⟨0x3000, top, false, false, false, ""⟩]
    ((∀ m ∈ ms, m.Proper) ∧ regionAt? ms 0x8500 = some (freeRegion 0x6000 0x9000) ∧
        (freeRegion 0x6000 0x9000).contains 0x8500 = true) ∧
      ((∀ m ∈ ns, m.Proper) ∧ Mapping.Sorted ns ∧ Mapping.Disjoint ns ∧
        regionAt ns top = freeRegion top top ∧ (regionAt ns 0x2fff).state ≠ .free) := by
  intro ms ns
  have hp : ∀ m ∈ ms, m.Proper := by
    simp only [ms, List.forall_mem_cons]
    exact ⟨⟨by decide, by decide⟩, ⟨by decide, by decide⟩, ⟨by decide, by decide⟩, nofun⟩
  have hp' : ∀ m ∈ ns, m.Proper := by
    simp only [ns, List.forall_mem_cons]
    exact ⟨⟨by decide, by decide⟩, ⟨by decide, by decide⟩, nofun⟩
  have hs : Mapping.Sorted ns := by
    unfold Mapping.Sorted
    decide
  have hd : Mapping.Disjoint ns := by
    simp only [ns, Mapping.Disjoint, Mapping.contains_iff, List.pairwise_cons, List.mem_singleton,
      forall_eq, List.not_mem_nil, false_imp_iff, implies_true, List.Pairwise.nil, and_true]
    omega
  obtain ⟨hsize, hin, -, -⟩ := regionAt_surrounds hp
  obtain ⟨-, -, hlast, hmap⟩ := regionAt_surrounds hp'
  have hgap : regionAt ms 0x8500 = freeRegion 0x6000 0x9000 := by decide
  refine ⟨⟨hp, ?_, ?_⟩, hp', hs, hd, hlast, fun hfree => ?_⟩
  · rw [← hgap]
    exact hsize 0x8500 (by decide)
  · rw [← hgap]
    exact hin 0x8500 (by decide)
  · have hout := ((hmap hs hd).2 0x2fff).1 hfree _ List.mem_cons_self
    cases hout

end RemoteAgent.Memory
