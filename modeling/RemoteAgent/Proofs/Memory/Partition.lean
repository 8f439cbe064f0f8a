import Mathlib.Data.List.Chain
import RemoteAgent.Proofs.Memory.Operations

/-! Memory maps as a whole. A walk over a map goes from mapping to mapping and names the gaps between
them, so that its regions part the address space among the mappings and the gaps. -/

namespace RemoteAgent.Memory

/-- The mapping has addresses, and they all are addresses. -/
structure Mapping.Proper (m : Mapping) : Prop where
  nonempty : m.start < m.stop
  bounded : m.stop ≤ top

theorem Mapping.le_top_of_readAddress? {cs : List Char} {n : Nat} (h : readAddress? cs = some n) :
    n ≤ top := by
  unfold readAddress? at h
  dsimp only at h
  split at h
  · split at h
    · next hle =>
      cases h
      exact hle
    · cases h
  · cases h

theorem Mapping.proper_of_parse? {line : String} {m : Mapping} (h : parse? line = some m) :
    m.Proper := by
  refine ⟨start_lt_stop_of_parse? h, ?_⟩
  simp only [parse?, readRange?, bind, Option.bind_eq_some_iff] at h
  obtain ⟨range, _, letters, _, ⟨start, stop⟩, ⟨⟨a, b⟩, _, lo, _, hi, hhi, hrange⟩, h⟩ := h
  cases hrange
  split at h
  · split at h
    · cases h
      exact le_top_of_readAddress? hhi
    · cases h
  · cases h

theorem Space.proper_mappings {s : Space} (h : s.Ordered) : ∀ m ∈ s.mappings, m.Proper := by
  refine fun m hm => ⟨?_, stop_mappings_le h m hm⟩
  rcases List.mem_append.1 hm with hm | hm
  · obtain ⟨r, hr, rfl⟩ := List.mem_map.1 hm
    exact (h.of_mem hr).2.1
  · rw [List.mem_singleton] at hm
    subst hm
    decide

inductive Lays : Nat → List Mapping → List Region → Prop
  | done : Lays top [] []
  | rest {gap : Nat} (h : gap < top) : Lays gap [] [freeRegion gap top]
  | mapped {m : Mapping} {ms : List Mapping} {rs : List Region} (hm : m.Proper)
    (h : Lays m.stop ms rs) : Lays m.start (m :: ms) (m.toRegion :: rs)
  | gap {gap : Nat} {m : Mapping} {ms : List Mapping} {rs : List Region} (hgap : gap < m.start)
    (hm : m.Proper) (h : Lays m.stop ms rs) :
    Lays gap (m :: ms) (freeRegion gap m.start :: m.toRegion :: rs)

section Walk

variable {query : Nat → Option Region} {cursor : Nat} {r : Region}

def regionsFrom (query : Nat → Option Region) (cursor : Nat) : List Region :=
  (walkFrom query cursor).filterMap (·.2)

theorem regionsFrom_of_top (hq : query cursor = some r) (hr : r.stop = top) :
    regionsFrom query cursor = [r] := by
  rw [regionsFrom, walkFrom, hq]
  dsimp only
  rw [dif_pos (.inr hr)]
  rfl

theorem regionsFrom_of_lt (hq : query cursor = some r) (hlt : cursor < r.stop)
    (hr : r.stop < top) : regionsFrom query cursor = r :: regionsFrom query r.stop := by
  rw [regionsFrom, walkFrom, hq]
  dsimp only
  rw [dif_neg (by omega)]
  rfl

theorem stop_freeRegion {start stop : Nat} (h : start ≤ stop) (ht : stop ≤ top) :
    (freeRegion start stop).stop = stop := by
  have hsum : start + (stop - start) = stop := Nat.add_sub_cancel' h
  show min (start + (stop - start)) top = stop
  rw [hsum]
  exact Nat.min_eq_left ht

theorem regionFrom_behind {m : Mapping} {a : Nat} (hm : m.Proper) (h : m.stop ≤ a) (gap : Nat)
    (ms : List Mapping) : regionFrom gap (m :: ms) a = regionFrom m.stop ms a := by
  have hstart : m.start < a := Nat.lt_of_lt_of_le hm.nonempty h
  rw [regionFrom, if_neg (by omega), if_neg (Nat.not_lt.2 h)]

theorem stop_le_start {m n : Mapping} (hle : m.start ≤ n.start) (hn : n.Proper)
    (hd : ∀ a, ¬ (m.contains a = true ∧ n.contains a = true)) : m.stop ≤ n.start := by
  refine Nat.le_of_not_lt fun hlt => hd n.start ⟨?_, ?_⟩
  · exact Mapping.contains_iff.2 ⟨hle, hlt⟩
  · exact Mapping.contains_iff.2 ⟨Nat.le_refl _, hn.nonempty⟩

theorem lays_regionsFrom {ms : List Mapping} (hs : Mapping.Sorted ms) (hd : Mapping.Disjoint ms)
    (hp : ∀ m ∈ ms, m.Proper) {gap : Nat} (hgap : ∀ m ∈ ms, gap ≤ m.start) (hlt : gap < top)
    (hq : ∀ a, gap ≤ a → a ≤ top → query a = some (regionFrom gap ms a)) :
    Lays gap ms (regionsFrom query gap) := by
  induction ms generalizing gap with
  | nil =>
    have hstop : (freeRegion gap top).stop = top := stop_freeRegion (by omega) (Nat.le_refl top)
    rw [regionsFrom_of_top (hq gap (Nat.le_refl gap) (Nat.le_of_lt hlt)) hstop]
    exact .rest hlt
  | cons m ms ih =>
    obtain ⟨hsm, hs⟩ := List.pairwise_cons.1 hs
    obtain ⟨hdm, hd⟩ := List.pairwise_cons.1 hd
    obtain ⟨hm, hp⟩ := List.forall_mem_cons.1 hp
    have hle : gap ≤ m.start := hgap m List.mem_cons_self
    have hstop : m.toRegion.stop = m.stop :=
      Mapping.stop_toRegion (Nat.le_of_lt hm.nonempty) hm.bounded
    have hbehind : ∀ n ∈ ms, m.stop ≤ n.start := fun n hn =>
      stop_le_start (hsm n hn) (hp n hn) (hdm n hn)
    have hbelow : m.start < top := Nat.lt_of_lt_of_le hm.nonempty hm.bounded
    have hmapped : ∃ rs, regionsFrom query m.start = m.toRegion :: rs ∧ Lays m.stop ms rs := by
      have hat : query m.start = some m.toRegion := by
        rw [hq m.start hle (Nat.le_of_lt hbelow), regionFrom, if_neg (Nat.lt_irrefl _),
          if_pos hm.nonempty]
      rcases Nat.lt_or_eq_of_le hm.bounded with hmore | htop
      · have hrest : ∀ a, m.stop ≤ a → a ≤ top → query a = some (regionFrom m.stop ms a) := by
          intro a ha hatop
          have hstart : m.start < a := Nat.lt_of_lt_of_le hm.nonempty ha
          rw [hq a (by omega) hatop, regionFrom_behind hm ha]
        rw [regionsFrom_of_lt hat (hstop ▸ hm.nonempty) (hstop ▸ hmore), hstop]
        exact ⟨_, rfl, ih hs hd hp hbehind hmore hrest⟩
      · -- no mapping lies behind one that ends at the top
        have hnone : ms = [] := List.eq_nil_iff_forall_not_mem.2 fun n hn => by
          have hstart := hbehind n hn
          obtain ⟨hnonempty, hbounded⟩ := hp n hn
          omega
        rw [regionsFrom_of_top hat (hstop.trans htop), hnone, htop]
        exact ⟨[], rfl, .done⟩
    obtain ⟨rs, hrs, hlays⟩ := hmapped
    rcases Nat.lt_or_eq_of_le hle with hbefore | rfl
    · have hat : query gap = some (freeRegion gap m.start) := by
        rw [hq gap (Nat.le_refl gap) (Nat.le_of_lt hlt), regionFrom, if_pos hbefore]
      have hend : (freeRegion gap m.start).stop = m.start := stop_freeRegion hle (Nat.le_of_lt hbelow)
      rw [regionsFrom_of_lt hat (hend.symm ▸ hbefore) (hend.symm ▸ hbelow), hend, hrs]
      exact .gap hbefore hm hlays
    · rw [hrs]
      exact .mapped hm hlays

end Walk

/-- The regions lie one behind another, none of them empty, and fill all between two addresses. -/
def Tiles (first : Nat) (rs : List Region) (last : Nat) : Prop :=
  match rs with
  | [] => first = last
  | r :: rs => r.base = first ∧ 0 < r.size ∧ Tiles (r.base + r.size) rs last

def Vacant (ms : List Mapping) (start stop : Nat) : Prop :=
  ∀ a, start ≤ a → a < stop → ∀ m ∈ ms, m.contains a = false

/-- A stretch that is vacant, and no longer one is. -/
structure Gap (ms : List Mapping) (start stop : Nat) : Prop where
  vacant : Vacant ms start stop
  maximal : ∀ a b, a ≤ start → stop ≤ b → b ≤ top → Vacant ms a b → a = start ∧ b = stop

structure Bordered (gap : Nat) (ms : List Mapping) (start stop : Nat) : Prop where
  nonempty : start < stop
  within : gap ≤ start
  below : start = gap ∨ ∃ m ∈ ms, m.stop = start
  above : stop = top ∨ ∃ m ∈ ms, m.start = stop
  apart : ∀ m ∈ ms, m.stop ≤ start ∨ stop ≤ m.start

theorem Bordered.behind {gap start stop : Nat} {m : Mapping} {ms : List Mapping} (hgap : gap ≤ m.start)
    (hm : m.Proper) (h : Bordered m.stop ms start stop) : Bordered gap (m :: ms) start stop := by
  have hnonempty := hm.nonempty
  have hwithin := h.within
  refine ⟨h.nonempty, by omega, .inr ?_, ?_, List.forall_mem_cons.2 ⟨.inl hwithin, h.apart⟩⟩
  · rcases h.below with rfl | ⟨n, hn, hstop⟩
    · exact ⟨m, List.mem_cons_self, rfl⟩
    · exact ⟨n, List.mem_cons_of_mem m hn, hstop⟩
  · exact h.above.imp_right fun ⟨n, hn, hstart⟩ => ⟨n, List.mem_cons_of_mem m hn, hstart⟩

theorem Bordered.gap {ms : List Mapping} (hp : ∀ m ∈ ms, m.Proper) {start stop : Nat}
    (h : Bordered 0 ms start stop) : Gap ms start stop := by
  refine ⟨fun a hle hlt m hm => ?_, fun a b ha hb htop hvacant => ⟨?_, ?_⟩⟩
  · rw [Bool.eq_false_iff]
    intro hin
    obtain ⟨hstart, hstop⟩ := Mapping.contains_iff.1 hin
    rcases h.apart m hm with hbelow | habove <;> omega
  · rcases h.below with hzero | ⟨m, hm, hstop⟩
    · omega
    -- the last address of the mapping below would be vacant
    · refine Nat.le_antisymm ha (Nat.le_of_not_lt fun hlt => ?_)
      have hnonempty := (hp m hm).nonempty
      have hin : m.contains (start - 1) = true := Mapping.contains_iff.2 (by omega)
      have hlast := h.nonempty
      rw [hvacant (start - 1) (by omega) (by omega) m hm] at hin
      cases hin
  · rcases h.above with htop' | ⟨m, hm, hstart⟩
    · omega
    -- and so would be the first address of the mapping above
    · refine Nat.le_antisymm (Nat.le_of_not_lt fun hlt => ?_) hb
      have hnonempty := (hp m hm).nonempty
      have hin : m.contains stop = true := Mapping.contains_iff.2 (by omega)
      have hfirst := h.nonempty
      rw [hvacant stop (by omega) hlt m hm] at hin
      cases hin

theorem Protection.toCode_eq_noAccess_iff (p : Protection) :
    p.toCode = Code.noAccess ↔ (p.read || p.write || p.execute) = false := by
  obtain ⟨r, w, x, c⟩ := p
  cases r <;> cases w <;> cases x <;> cases c <;> decide

theorem Mapping.state_toRegion (m : Mapping) : m.toRegion.state =
    if m.read || m.write || m.execute then .commit else .reserve := by
  have hstate : m.toRegion.state =
      if m.protection.toCode = Code.noAccess then .reserve else .commit := rfl
  have hcode := m.protection.toCode_eq_noAccess_iff
  rw [hstate]
  cases haccess : (m.read || m.write || m.execute) with
  | true => exact if_neg fun hnone => by cases haccess.symm.trans (hcode.1 hnone)
  | false => exact if_pos (hcode.2 haccess)

theorem Mapping.state_toRegion_ne_free (m : Mapping) : m.toRegion.state ≠ .free := by
  rw [m.state_toRegion]
  split <;> exact fun h => by cases h

theorem end_toRegion {m : Mapping} (hm : m.Proper) : m.toRegion.base + m.toRegion.size = m.stop :=
  Nat.add_sub_cancel' (Nat.le_of_lt hm.nonempty)

theorem end_freeRegion {start stop : Nat} (h : start < stop) :
    (freeRegion start stop).base + (freeRegion start stop).size = stop :=
  Nat.add_sub_cancel' (Nat.le_of_lt h)

theorem Tiles.cons {first next last : Nat} {r : Region} {rs : List Region} (hbase : r.base = first)
    (hend : r.base + r.size = next) (hlt : first < next) (h : Tiles next rs last) :
    Tiles first (r :: rs) last :=
  ⟨hbase, by omega, hend ▸ h⟩

namespace Lays

variable {gap : Nat} {ms : List Mapping} {rs : List Region}

theorem tiles (h : Lays gap ms rs) : Tiles gap rs top := by
  induction h with
  | done => rfl
  | rest hlt => exact .cons rfl (end_freeRegion hlt) hlt rfl
  | mapped hm _ ih => exact .cons rfl (end_toRegion hm) hm.nonempty ih
  | gap hgap hm _ ih =>
    exact .cons rfl (end_freeRegion hgap) hgap (.cons rfl (end_toRegion hm) hm.nonempty ih)

theorem filter_mapped (h : Lays gap ms rs) :
    rs.filter (·.state ≠ .free) = ms.map Mapping.toRegion := by
  have hfree : ∀ start stop, (freeRegion start stop).state = .free := fun _ _ => rfl
  induction h with
  | done => rfl
  | rest => rfl
  | mapped _ _ ih => simpa [Mapping.state_toRegion_ne_free] using ih
  | gap _ _ _ ih => simpa [hfree, Mapping.state_toRegion_ne_free] using ih

theorem isChain (h : Lays gap ms rs) :
    rs.IsChain fun r r' => r.state = .free → r'.state ≠ .free := by
  -- behind a mapping, whatever comes next may be free
  have hbehind : ∀ (m : Mapping) {rs : List Region},
      (rs.IsChain fun r r' => r.state = .free → r'.state ≠ .free) →
      (m.toRegion :: rs).IsChain fun r r' => r.state = .free → r'.state ≠ .free := by
    intro m rs hrs
    cases rs with
    | nil => exact .singleton _
    | cons r rs => exact .cons_cons (fun hfree => (m.state_toRegion_ne_free hfree).elim) hrs
  induction h with
  | done => exact .nil
  | rest => exact .singleton _
  | mapped _ _ ih => exact hbehind _ ih
  | gap _ _ _ ih => exact .cons_cons (fun _ => Mapping.state_toRegion_ne_free _) (hbehind _ ih)

theorem length_le (h : Lays gap ms rs) : rs.length ≤ 2 * ms.length + 1 := by
  induction h with
  | done => exact Nat.zero_le _
  | rest => exact Nat.le_refl 1
  | mapped _ _ ih =>
    rw [List.length_cons, List.length_cons]
    omega
  | gap _ _ _ ih =>
    rw [List.length_cons, List.length_cons, List.length_cons]
    omega

theorem le_start (h : Lays gap ms rs) : ∀ m ∈ ms, gap ≤ m.start := by
  induction h with
  | done => exact fun _ hm => (List.not_mem_nil hm).elim
  | rest => exact fun _ hm => (List.not_mem_nil hm).elim
  | mapped hm _ ih =>
    have hle := Nat.le_of_lt hm.nonempty
    exact List.forall_mem_cons.2 ⟨Nat.le_refl _, fun n hn => Nat.le_trans hle (ih n hn)⟩
  | gap hgap hm _ ih =>
    have hle := Nat.le_of_lt (Nat.lt_trans hgap hm.nonempty)
    exact List.forall_mem_cons.2 ⟨Nat.le_of_lt hgap, fun n hn => Nat.le_trans hle (ih n hn)⟩

theorem bordered (h : Lays gap ms rs) : ∀ r ∈ rs, r.state = .free →
    Bordered gap ms r.base (r.base + r.size) := by
  induction h with
  | done => exact fun _ hr => (List.not_mem_nil hr).elim
  | rest hlt =>
    refine List.forall_mem_singleton.2 fun _ => ?_
    rw [end_freeRegion hlt]
    exact ⟨hlt, Nat.le_refl _, .inl rfl, .inl rfl, fun _ hm => (List.not_mem_nil hm).elim⟩
  | mapped hm _ ih =>
    refine List.forall_mem_cons.2 ⟨fun hfree => ?_, fun r hr hfree => ?_⟩
    · exact (Mapping.state_toRegion_ne_free _ hfree).elim
    · exact (ih r hr hfree).behind (Nat.le_refl _) hm
  | @gap gap m ms rs hgap hm h ih =>
    refine List.forall_mem_cons.2 ⟨fun _ => ?_, ?_⟩
    · have hapart : ∀ n ∈ m :: ms, n.stop ≤ gap ∨ m.start ≤ n.start := by
        refine List.forall_mem_cons.2 ⟨.inr (Nat.le_refl _), fun n hn => .inr ?_⟩
        exact Nat.le_trans (Nat.le_of_lt hm.nonempty) (h.le_start n hn)
      rw [end_freeRegion hgap]
      exact ⟨hgap, Nat.le_refl _, .inl rfl, .inr ⟨m, List.mem_cons_self, rfl⟩, hapart⟩
    · refine List.forall_mem_cons.2 ⟨fun hfree => ?_, fun r hr hfree => ?_⟩
      · exact (Mapping.state_toRegion_ne_free _ hfree).elim
      · exact (ih r hr hfree).behind (Nat.le_of_lt hgap) hm

theorem filter_committed (h : Lays gap ms rs) : rs.filter (·.state = .commit) =
    (ms.filter fun m => m.read || m.write || m.execute).map Mapping.toRegion := by
  have hmapped : ∀ r : Region,
      decide (r.state = .commit) = (decide (r.state = .commit) && decide (r.state ≠ .free)) := by
    intro r
    cases r.state <;> rfl
  have hcommit : ∀ m : Mapping,
      decide (m.toRegion.state = .commit) = (m.read || m.write || m.execute) := by
    intro m
    rw [m.state_toRegion]
    cases m.read || m.write || m.execute <;> rfl
  calc rs.filter (·.state = .commit)
    _ = (rs.filter (·.state ≠ .free)).filter (·.state = .commit) := by
      rw [List.filter_filter]
      exact List.filter_congr fun r _ => hmapped r
    _ = (ms.filter fun m => m.read || m.write || m.execute).map Mapping.toRegion := by
      rw [h.filter_mapped, List.filter_map]
      exact congrArg (List.map _) (List.filter_congr fun m _ => hcommit m)

end Lays

section Engine

variable {σ : Type} [AddressSpace σ] {s : σ}

theorem Engine.result_regions (h : ∀ asked, (AddressSpace.looked asked s).result = .ok ()) :
    (Engine.regions s).result = .ok (regionsFrom (AddressSpace.look s) 0) ∧
      (Engine.committedRegions s).result =
        .ok ((regionsFrom (AddressSpace.look s) 0).filter (·.state = .commit)) := by
  have hregions : (Engine.regions s).result = .ok (regionsFrom (AddressSpace.look s) 0) := by
    rw [Engine.regions, Action.bind_of_ok (Action.get_apply s)]
    exact (Action.bind_of_result (h _)).1
  exact ⟨hregions, (Action.bind_of_result hregions).1⟩

/-- The regions of a map with proper mappings, which rise and share no address, part all addresses up to
the highest. All mappings are among them, in order, and in between stand the longest vacant stretches;
those that are committed are the mappings that allow any access. -/
theorem regions_of_regionAt {ms : List Mapping} (hs : Mapping.Sorted ms) (hd : Mapping.Disjoint ms)
    (hp : ∀ m ∈ ms, m.Proper) (hlook : ∀ a ≤ top, AddressSpace.look s a = some (regionAt ms a))
    (hlooked : ∀ asked, (AddressSpace.looked asked s).result = .ok ()) :
    ∃ rs, (Engine.regions s).result = .ok rs ∧ Tiles 0 rs top ∧
      (rs.IsChain fun r r' => r.state = .free → r'.state ≠ .free) ∧
      rs.filter (·.state ≠ .free) = ms.map Mapping.toRegion ∧
      (∀ m ∈ ms, m.toRegion.base = m.start ∧ m.toRegion.base + m.toRegion.size = m.stop ∧
        m.toRegion.protect = m.protection.toCode ∧
        m.toRegion.state = if m.read || m.write || m.execute then .commit else .reserve) ∧
      (∀ r ∈ rs, r.state = .free → Gap ms r.base (r.base + r.size)) ∧
      rs.length ≤ 2 * ms.length + 1 ∧
      (Engine.committedRegions s).result =
        .ok ((ms.filter fun m => m.read || m.write || m.execute).map Mapping.toRegion) := by
  have hlays : Lays 0 ms (regionsFrom (AddressSpace.look s) 0) :=
    lays_regionsFrom hs hd hp (fun _ _ => Nat.zero_le _) (by decide) fun a _ ha => hlook a ha
  obtain ⟨hregions, hcommitted⟩ := Engine.result_regions hlooked
  refine ⟨_, hregions, hlays.tiles, hlays.isChain, hlays.filter_mapped, fun m hm => ?_,
    fun r hr hfree => ?_, hlays.length_le, ?_⟩
  · exact ⟨rfl, end_toRegion (hp m hm), rfl, m.state_toRegion⟩
  · exact (hlays.bordered r hr hfree).gap hp
  · rw [hcommitted, hlays.filter_committed]

theorem regions_of_regionAt_from_zero :
    let s : Space := { areas := [⟨0, 0x1000, ⟨true, true, false, false⟩, .anonymous⟩,
      ⟨0x1000, 0x3000, .none, .anonymous⟩] }
    (∃ rs, (Engine.regions s).result = .ok rs ∧ Tiles 0 rs top ∧ rs.length ≤ 7) ∧
      (Engine.committedRegions s).result = .ok [⟨0, 0x1000, Code.readWrite, .commit, .anonymous⟩,
        ⟨0xffffffffff600000, 0x1000, Code.execute, .commit, .anonymous⟩] := by
  intro s
  have hordered : s.Ordered := by
    show Within 0 Space.gate.start s.areas
    decide
  have hlooked : ∀ asked, (AddressSpace.looked asked s).result = .ok () := fun asked => by
    obtain ⟨es, hes⟩ := Space.looked_apply asked s
    exact congrArg Outcome.result hes
  obtain ⟨rs, hregions, htiles, -, -, -, -, hlength, hcommitted⟩ :=
    regions_of_regionAt (Space.sorted_mappings hordered) (Space.disjoint_mappings hordered)
      (Space.proper_mappings hordered) (fun _ _ => rfl) hlooked
  exact ⟨⟨rs, hregions, htiles, hlength⟩, hcommitted⟩

end Engine

end RemoteAgent.Memory
