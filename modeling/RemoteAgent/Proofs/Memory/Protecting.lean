import Mathlib.Data.List.Basic
import Mathlib.Order.MinMax
import Mathlib.Tactic.SplitIfs
import RemoteAgent.Proofs.Memory.Operations

/-! Changes of protection. In a map of whole pages that take every protection, protecting a range changes
the pages that meet the range and no others, and queries tell so. -/

namespace RemoteAgent.Memory

open RemoteAgent.Action

section Pages

def Meets (address size a : Nat) : Prop :=
  pageDown a < address + max size 1 ∧ address < pageDown a + pageSize

variable {address size a : Nat}

theorem Meets.exists_touches (h : Meets address size a) :
    ∃ x, Touches address (address + size) x ∧ pageDown x = pageDown a := by
  refine ⟨max address (pageDown a), ?_, ?_⟩
  · unfold Meets at h
    unfold Touches
    omega
  · unfold Meets pageDown pageSize at *
    omega

theorem meets_of_touches (h : Touches address (address + size) a) : Meets address size a := by
  unfold Touches at h
  unfold Meets pageDown pageSize
  omega

theorem exists_pagesOf? (h : address + max size 1 + pageSize ≤ top) :
    ∃ lo hi, Space.pagesOf? address size = some (lo, hi) ∧ (pageSize ∣ lo ∧ pageSize ∣ hi) ∧
      ∀ a, lo ≤ a ∧ a < hi ↔ Meets address size a := by
  refine ⟨pageDown address, pageDown (address + max size 1 + (pageSize - 1)), ?_,
    ⟨Nat.dvd_mul_left _ _, Nat.dvd_mul_left _ _⟩, fun a => ?_⟩
  · have hsum : add? address (max size 1) = some (address + max size 1) := if_pos (by omega)
    have hup : pageUp? (address + max size 1) =
        some (pageDown (address + max size 1 + (pageSize - 1))) := by
      rw [pageUp?, add?, if_pos (by omega), Option.map_some]
    rw [Space.pagesOf?, hsum, Option.bind_eq_bind, Option.bind_some, hup, Option.bind_some,
      Option.pure_def]
  · unfold Meets pageDown pageSize
    omega

end Pages

section Codes

/-- The number that a query tells for pages that were protected under a number: no private copies. -/
def Code.reported (code : UInt32) : UInt32 :=
  if code = writeCopy then readWrite
  else if code = executeWriteCopy then executeReadWrite
  else code

theorem reported_eq_toCode {code : UInt32} {p : Protection}
    (h : Protection.ofPlainCode? code = some p) :
    (⟨p.read, p.write, p.execute, false⟩ : Protection).toCode = Code.reported code := by
  unfold Protection.ofPlainCode? at h
  split_ifs at h with hnone hread hwrite hexecute hexecuteRead hexecuteWrite
  · subst hnone
    cases h
    decide
  · subst hread
    cases h
    decide
  · cases h
    rcases hwrite with rfl | rfl <;> decide
  · subst hexecute
    cases h
    decide
  · subst hexecuteRead
    cases h
    decide
  · cases h
    rcases hexecuteWrite with rfl | rfl <;> decide

end Codes

section Walk

variable {query : Nat → Option Region}

theorem Region.contains_iff {r : Region} {a : Nat} :
    r.contains a = true ↔ r.base ≤ a ∧ a < r.stop := by
  simp only [Region.contains, Bool.and_eq_true, decide_eq_true_eq]

theorem exists_asked_of_touches
    (hq : ∀ a r, query a = some r → r.isAccessible = true → r.contains a = true) {stop cursor : Nat}
    (hok : (checkFrom query stop cursor).2 = .ok ()) {a : Nat} (ha : Touches cursor stop a) :
    ∃ b ∈ (checkFrom query stop cursor).1, ∃ r, query b = some r ∧ r.isAccessible = true ∧
      r.contains a = true := by
  fun_induction checkFrom query stop cursor with
  | case1 | case2 | case3 => cases hok
  | case4 cursor r hr hacc hmove hend =>
    have hacc : r.isAccessible = true := by simpa using hacc
    have hin := Region.contains_iff.1 (hq cursor r hr hacc)
    refine ⟨cursor, List.mem_singleton_self _, r, hr, hacc, Region.contains_iff.2 ?_⟩
    unfold Touches at ha
    omega
  | case5 cursor r hr hacc hmove hend asked result heq ih =>
    have hacc : r.isAccessible = true := by simpa using hacc
    have hin := Region.contains_iff.1 (hq cursor r hr hacc)
    unfold Touches at ha
    rcases Nat.lt_or_ge a r.stop with hlow | hhigh
    · exact ⟨cursor, List.mem_cons_self, r, hr, hacc, Region.contains_iff.2 (by omega)⟩
    · rw [heq] at ih
      obtain ⟨b, hb, hregion⟩ := ih hok ⟨hhigh, by omega⟩
      exact ⟨b, List.mem_cons_of_mem _ hb, hregion⟩

end Walk

section Done

variable {p : Protection} {hi cursor lo upper : Nat} {areas : List Area}

theorem protectAreas_of_admitted (h : Within lo upper areas)
    (hall : ∀ x, cursor ≤ x → x < hi → ¬ Refuses p areas x) :
    (protectAreas p hi cursor areas).2 = none ∧
      Passes p cursor hi areas (protectAreas p hi cursor areas).1 := by
  induction areas generalizing lo cursor with
  | nil =>
    have hle : hi ≤ cursor := Nat.not_lt.1 fun hlt => hall cursor (Nat.le_refl _) hlt nofun
    exact ⟨if_neg (Nat.not_lt.2 hle), passes_of_le hle []⟩
  | cons b rs ih =>
    obtain ⟨hlo, hb, hrs⟩ := h
    rcases Nat.lt_or_ge cursor hi with hlt | hge
    · rcases Nat.lt_or_ge cursor b.stop with hin | hout
      · have hrefuses := hall cursor (Nat.le_refl _) hlt
        have hstart : b.start ≤ cursor := by
          refine Nat.not_lt.1 fun hgap => hrefuses fun g hg => ?_
          have habove : Within b.start upper (b :: rs) := ⟨Nat.le_refl _, hb, hrs⟩
          rw [habove.pageAt_of_lt hgap] at hg
          cases hg
        have haccepts : b.accepts p = true := by
          refine Bool.not_eq_false _ ▸ fun hno => hrefuses fun g hg => ?_
          rw [pageAt_cons, if_pos ⟨hstart, hin⟩] at hg
          cases hg
          exact hno
        have hrest : ∀ x, min hi b.stop ≤ x → x < hi → ¬ Refuses p rs x :=
          fun x hle hx hrefused => hall x (by omega) hx (hrefused.cons (by omega))
        obtain ⟨hdone, hpasses⟩ := ih hrs hrest
        refine ⟨?_, ?_⟩
        · rw [protectAreas, if_neg (Nat.not_le.2 hlt), if_neg (Nat.not_le.2 hin),
            if_neg (Nat.not_lt.2 hstart), haccepts]
          exact hdone
        · rw [protectAreas_of_accepts hlt hstart hin haccepts, map_clip]
          exact hpasses.cons_accepts ⟨by omega, Nat.le_refl _⟩ hrs ⟨hstart, hin⟩ haccepts
      · have hrest : ∀ x, cursor ≤ x → x < hi → ¬ Refuses p rs x :=
          fun x hle hx hrefused => hall x hle hx (hrefused.cons (by omega))
        obtain ⟨hdone, hpasses⟩ := ih hrs hrest
        refine ⟨?_, ?_⟩
        · rw [protectAreas, if_neg (Nat.not_le.2 hlt), if_pos hout]
          exact hdone
        · rw [protectAreas_of_stop_le hlt hout]
          exact hpasses.cons_below hout
    · refine ⟨?_, ?_⟩
      · rw [protectAreas, if_pos hge]
      · rw [protectAreas_of_le hge]
        exact passes_of_le hge _

end Done

section Query

variable {s : Space} {a : Nat}

theorem result_query (a : Nat) (s : Space) :
    (Engine.query a s).result = .ok (protectionAt s.look a) := by
  obtain ⟨es, hlooked⟩ := Space.looked_apply [a] s
  have hact : AddressSpace.looked [a] s = ⟨.ok (), s, es⟩ := hlooked
  rw [Engine.query, bind_of_ok (get_apply s)]
  dsimp only
  rw [bind_of_ok hact]
  rfl

theorem protectionAt_look (hs : s.Ordered) (hopen : s.canOpen = true) (a : Nat) :
    protectionAt s.look a = match pageAt s.areas a with
      | some g => (⟨g.1.read, g.1.write, g.1.execute, false⟩ : Protection).toCode
      | none => if Space.gate.contains a then Code.execute else 0 := by
  have hsorted := Space.sorted_mappings hs
  have hdisjoint := Space.disjoint_mappings hs
  rw [Space.look_of_open hopen]
  show (regionFrom 0 s.mappings a).protect = _
  cases hpage : pageAt s.areas a with
  | some g =>
    obtain ⟨r, hr, ha, rfl⟩ := exists_mem_of_pageAt hpage
    have hmem : r.toMapping ∈ s.mappings := List.mem_append_left _ (List.mem_map_of_mem hr)
    rw [regionFrom_of_contains hsorted hdisjoint hmem ha]
    rfl
  | none =>
    by_cases hgate : Space.gate.contains a = true
    · have hmem : Space.gate ∈ s.mappings := List.mem_append_right _ (List.mem_singleton_self _)
      rw [regionFrom_of_contains hsorted hdisjoint hmem hgate]
      dsimp only
      rw [if_pos hgate]
      decide
    · have hout : ∀ m ∈ s.mappings, m.contains a = false := by
        intro m hm
        rw [Bool.eq_false_iff]
        intro ha
        rcases List.mem_append.1 hm with hm | hm
        · obtain ⟨r, hr, rfl⟩ := List.mem_map.1 hm
          rw [pageAt_of_mem hs hr ha] at hpage
          cases hpage
        · rw [List.mem_singleton.1 hm] at ha
          exact hgate ha
      obtain ⟨start, stop, hfree⟩ := exists_regionFrom_eq_freeRegion hout 0
      rw [hfree]
      dsimp only
      rw [if_neg hgate]
      rfl

end Query

section Private

/-- Whole pages that take every protection. -/
structure Area.Private (r : Area) : Prop where
  start : pageSize ∣ r.start
  stop : pageSize ∣ r.stop
  admits : ∀ p, r.source.admits p = true

/-- The areas rise, and all of them are whole pages that take every protection. -/
structure Space.Private (s : Space) : Prop where
  ordered : s.Ordered
  areas : ∀ r ∈ s.areas, r.Private

variable {p : Protection} {lo hi cursor : Nat} {areas : List Area}

theorem Area.Private.clip {r : Area} (h : r.Private) (hlo : pageSize ∣ lo) (hhi : pageSize ∣ hi) :
    ∀ x ∈ r.clip lo hi, x.Private := by
  intro x hx
  unfold Area.clip at hx
  split at hx
  · rw [List.mem_singleton] at hx
    subst hx
    exact ⟨max_rec' (pageSize ∣ ·) hlo h.start, min_rec' (pageSize ∣ ·) hhi h.stop, h.admits⟩
  · cases hx

theorem private_protectAreas (h : ∀ r ∈ areas, r.Private) (hcursor : pageSize ∣ cursor)
    (hhi : pageSize ∣ hi) : ∀ r ∈ (protectAreas p hi cursor areas).1, r.Private := by
  induction areas generalizing cursor with
  | nil => exact nofun
  | cons b rs ih =>
    obtain ⟨hb, hrs⟩ := List.forall_mem_cons.1 h
    rcases Nat.lt_or_ge cursor hi with hlt | hge
    · rcases Nat.lt_or_ge cursor b.stop with hin | hout
      · by_cases hstuck : cursor < b.start ∨ b.accepts p = false
        · rw [protectAreas_of_stuck hin hstuck]
          exact h
        · obtain ⟨hstart, haccepts⟩ := not_or.1 hstuck
          have hchanged : ({ b with protection := p } : Area).Private := ⟨hb.start, hb.stop, hb.admits⟩
          have hnext : pageSize ∣ min hi b.stop := min_rec' (pageSize ∣ ·) hhi hb.stop
          rw [protectAreas_of_accepts hlt (Nat.not_lt.1 hstart) hin (by simpa using haccepts), map_clip]
          simp only [List.forall_mem_append]
          exact ⟨⟨⟨hb.clip (Nat.dvd_zero _) hcursor, hchanged.clip hcursor hhi⟩, hb.clip hhi hb.stop⟩,
            ih hrs hnext⟩
      · rw [protectAreas_of_stop_le hlt hout]
        exact List.forall_mem_cons.2 ⟨hb, ih hrs hcursor⟩
    · rw [protectAreas_of_le hge]
      exact h

theorem private_coalesce (h : ∀ r ∈ areas, r.Private) : ∀ r ∈ coalesce areas, r.Private := by
  fun_induction coalesce areas with
  | case1 => exact h
  | case2 a => exact h
  | case3 a b r htouch ih =>
    obtain ⟨ha, hrest⟩ := List.forall_mem_cons.1 h
    obtain ⟨hb, hr⟩ := List.forall_mem_cons.1 hrest
    exact ih (List.forall_mem_cons.2 ⟨⟨ha.start, hb.stop, ha.admits⟩, hr⟩)
  | case4 a b r _ ih =>
    obtain ⟨ha, hrest⟩ := List.forall_mem_cons.1 h
    exact List.forall_mem_cons.2 ⟨ha, ih hrest⟩

end Private

section Accepted

variable {s : Space} {address size a b : Nat} {r : Region}

theorem exists_area_of_look (hs : s.Ordered) (hr : s.look b = some r) (hacc : r.isAccessible = true) :
    ∃ m ∈ s.areas, m.contains b = true ∧ r.base = m.start ∧ r.stop = m.stop := by
  have hsorted := Space.sorted_mappings hs
  have hdisjoint := Space.disjoint_mappings hs
  rw [Space.look] at hr
  split at hr
  · cases hr
    have husable := (usable_iff_isAccessible_regionAt hsorted hdisjoint).2 hacc
    obtain ⟨g, hg, -⟩ := (Space.usable_mappings_iff hs).1 husable
    obtain ⟨m, hm, hb, -⟩ := exists_mem_of_pageAt hg
    have hmem : m.toMapping ∈ s.mappings := List.mem_append_left _ (List.mem_map_of_mem hm)
    have hregion : regionAt s.mappings b = m.toMapping.toRegion :=
      regionFrom_of_contains hsorted hdisjoint hmem hb 0
    have hstop : m.toMapping.toRegion.stop = m.stop :=
      Mapping.stop_toRegion (Nat.le_of_lt (hs.of_mem hm).2.1) (Space.stop_mappings_le hs _ hmem)
    rw [hregion]
    exact ⟨m, hm, hb, rfl, hstop⟩
  · cases hr

theorem contains_of_pageDown_eq {m : Area} {x : Nat} (hm : m.Private)
    (hx : m.contains x = true) (h : pageDown x = pageDown a) : m.contains a = true := by
  obtain ⟨⟨i, hi⟩, ⟨j, hj⟩, -⟩ := hm
  rw [Area.contains_iff] at hx ⊢
  unfold pageDown pageSize at *
  omega

theorem Space.Private.exists_asked (hs : s.Private) (hok : (check s.look address size).2 = .ok ())
    (ha : Meets address size a) :
    (∃ b ∈ (check s.look address size).1, ∃ r, s.look b = some r ∧ r.isAccessible = true ∧
      r.contains a = true) ∧ ∃ m ∈ s.areas, m.contains a = true := by
  rcases Nat.lt_or_ge top (address + size) with hover | hle
  · rw [check_of_overflow hover] at hok
    cases hok
  · rw [check_of_le hle] at hok ⊢
    have hq : ∀ b r, s.look b = some r → r.isAccessible = true → r.contains b = true := by
      intro b r hr hacc
      obtain ⟨m, -, hb, hbase, hstop⟩ := exists_area_of_look hs.ordered hr hacc
      rw [Region.contains_iff, hbase, hstop]
      exact Area.contains_iff.1 hb
    obtain ⟨x, hx, hpage⟩ := ha.exists_touches
    obtain ⟨b, hasked, r, hr, hacc, hin⟩ := exists_asked_of_touches hq hok hx
    obtain ⟨m, hm, hb, hbase, hstop⟩ := exists_area_of_look hs.ordered hr hacc
    rw [Region.contains_iff, hbase, hstop, ← Area.contains_iff] at hin
    have hcontains := contains_of_pageDown_eq (hs.areas m hm) hin hpage
    refine ⟨⟨b, hasked, r, hr, hacc, ?_⟩, m, hm, hcontains⟩
    rw [Region.contains_iff, hbase, hstop]
    exact Area.contains_iff.1 hcontains

theorem Space.Private.exists_page (hs : s.Private) (hok : (check s.look address size).2 = .ok ())
    (ha : Meets address size a) :
    ∃ g, pageAt s.areas a = some g ∧ ∀ p, g.2.admits p = true := by
  obtain ⟨-, m, hm, hin⟩ := hs.exists_asked hok ha
  exact ⟨_, pageAt_of_mem hs.ordered hm hin, (hs.areas m hm).admits⟩

theorem Space.Private.end_le (hs : s.Private) (hok : (check s.look address size).2 = .ok ()) :
    address + max size 1 + pageSize ≤ top := by
  have hlast : Touches address (address + size) (address + max size 1 - 1) := by
    unfold Touches
    omega
  obtain ⟨g, hg, -⟩ := hs.exists_page hok (meets_of_touches hlast)
  have hbelow : address + max size 1 - 1 < gate.start := by
    refine Nat.not_le.1 fun hge => ?_
    rw [Within.pageAt_of_ge hs.ordered hge] at hg
    cases hg
  have hroom : gate.start + pageSize ≤ top := by decide
  omega

theorem Space.Private.canOpen_eq (hs : s.Private) (hok : (check s.look address size).2 = .ok ()) :
    s.canOpen = true := by
  obtain ⟨⟨b, -, r, hr, -⟩, -⟩ := hs.exists_asked hok (meets_of_touches (touches_self _ _))
  rw [Space.look] at hr
  split at hr
  · assumption
  · cases hr

end Accepted

section Protect

variable {s : Space} {address size : Nat} {code : UInt32}

theorem space_protect_of_none (h : Protection.ofPlainCode? code = none) :
    Space.protect address size code s =
      ⟨.error (.memoryAccess address (.unsupportedProtection code)), s, []⟩ := by
  rw [Space.protect, h]
  rfl

theorem space_protect_of_done {p : Protection} {lo hi : Nat}
    (hp : Protection.ofPlainCode? code = some p)
    (hpages : Space.pagesOf? address size = some (lo, hi))
    (hdone : (protectAreas p hi lo s.areas).2 = none) :
    (Space.protect address size code s).result = .ok (protectionAt s.look address) ∧
      (Space.protect address size code s).state =
        { s with areas := coalesce (protectAreas p hi lo s.areas).1 } := by
  obtain ⟨es, hlooked⟩ := Space.looked_apply [address] s
  rw [Space.protect, hp]
  dsimp only
  rw [bind_of_ok (get_apply s), bind_of_ok hlooked, hpages]
  dsimp only
  rw [bind_of_ok (set_apply _ _), hdone]
  exact ⟨rfl, rfl⟩

/-- What a change of protection that succeeds has done, and what it tells. -/
structure Changed (s t : Space) (address size : Nat) (code old : UInt32) : Prop where
  pages : ∃ p, Protection.ofPlainCode? code = some p ∧ ∀ a, Meets address size a →
    ∃ g, pageAt s.areas a = some g ∧ pageAt t.areas a = some (p, g.2)
  others : ∀ a, ¬ Meets address size a → pageAt t.areas a = pageAt s.areas a
  accepted : ∀ a, Meets address size a → ∃ b ∈ (check s.look address size).1, ∃ r,
    s.look b = some r ∧ r.isAccessible = true ∧ r.contains a = true
  queried : ∀ a, Meets address size a → (Engine.query a t).result = .ok (Code.reported code)
  unqueried : ∀ a, ¬ Meets address size a → (Engine.query a t).result = (Engine.query a s).result
  returned : (Engine.query address s).result = .ok old
  stays : t.Private

theorem Space.Private.changed (hs : s.Private) (hok : (check s.look address size).2 = .ok ())
    {p : Protection} (hp : Protection.ofPlainCode? code = some p) :
    ∃ old, (Engine.protect address size code s).result = .ok old ∧
      Changed s (Engine.protect address size code s).state address size code old := by
  obtain ⟨lo, hi, hpages, ⟨hlo, hhi⟩, hmeets⟩ := exists_pagesOf? (hs.end_le hok)
  have hadmitted : ∀ x, lo ≤ x → x < hi → ¬ Refuses p s.areas x := by
    intro x hle hlt hrefuses
    obtain ⟨g, hg, hadmits⟩ := hs.exists_page hok ((hmeets x).1 ⟨hle, hlt⟩)
    have hno := hrefuses g hg
    rw [hadmits p] at hno
    cases hno
  obtain ⟨hdone, hpasses⟩ := protectAreas_of_admitted hs.ordered hadmitted
  obtain ⟨hresult, hstate⟩ := space_protect_of_done (s := s) hp hpages hdone
  rw [(protect_of_check_eq_ok hok).1, (protect_of_check_eq_ok hok).2, hresult, hstate]
  have hordered : Within 0 Space.gate.start (protectAreas p hi lo s.areas).1 :=
    hs.ordered.protectAreas
  have hpage := (hpasses.coalesce hordered).pages
  have hcoalesced := hordered.coalesce
  have hprivate := private_coalesce (private_protectAreas (p := p) hs.areas hlo hhi)
  generalize coalesce (protectAreas p hi lo s.areas).1 = areas at hpage hcoalesced hprivate
  have hopen : s.canOpen = true := hs.canOpen_eq hok
  have hquery := protectionAt_look (s := { s with areas := areas }) hcoalesced hopen
  have hin : ∀ a, Meets address size a →
      ∃ g, pageAt s.areas a = some g ∧ pageAt areas a = some (p, g.2) := by
    intro a ha
    obtain ⟨g, hg, -⟩ := hs.exists_page hok ha
    refine ⟨g, hg, ?_⟩
    rw [hpage, if_pos ((hmeets a).2 ha), hg]
    rfl
  have hout : ∀ a, ¬ Meets address size a → pageAt areas a = pageAt s.areas a := by
    intro a ha
    rw [hpage, if_neg fun h => ha ((hmeets a).1 h)]
  refine ⟨_, rfl, ⟨p, hp, hin⟩, hout, fun a ha => (hs.exists_asked hok ha).1, fun a ha => ?_,
    fun a ha => ?_, result_query address s, hcoalesced, hprivate⟩
  · obtain ⟨g, -, hg⟩ := hin a ha
    rw [result_query, hquery, hg]
    exact congrArg Except.ok (reported_eq_toCode hp)
  · rw [result_query, result_query, hquery, protectionAt_look hs.ordered hopen, hout a ha]

end Protect

/-- In a map of whole pages that take every protection, a range that has passed the check can be rounded
to pages, protecting it fails only with a number for which there is no protection, and otherwise the pages
that meet the range get the protection. -/
theorem protect_of_private {s : Space} (hs : s.Private) (address size : Nat) (code : UInt32) :
    (∀ old, (Engine.protect address size code s).result = .ok old →
      Changed s (Engine.protect address size code s).state address size code old) ∧
    ((Engine.validate address size s).result = .ok () →
      Space.pagesOf? address size ≠ none ∧
      ∀ e, (Engine.protect address size code s).result = .error e →
        Protection.ofPlainCode? code = none ∧
          e = .memoryAccess address (.unsupportedProtection code)) := by
  rw [result_validate]
  cases hcheck : (check s.look address size).2 with
  | error e =>
    refine ⟨fun old hold => ?_, nofun⟩
    rw [Engine.protect, (validate_bind_of_error hcheck).1] at hold
    cases hold
  | ok u =>
    obtain ⟨lo, hi, hpages, -⟩ := exists_pagesOf? (hs.end_le hcheck)
    cases hp : Protection.ofPlainCode? code with
    | none =>
      rw [(protect_of_check_eq_ok hcheck).1, space_protect_of_none hp]
      refine ⟨nofun, fun _ => ⟨by rw [hpages]; nofun, fun e he => ⟨rfl, ?_⟩⟩⟩
      cases he
      rfl
    | some p =>
      obtain ⟨old, hresult, hchanged⟩ := hs.changed hcheck hp
      rw [hresult]
      refine ⟨fun old' hold => ?_, fun _ => ⟨by rw [hpages]; nofun, nofun⟩⟩
      cases hold
      exact hchanged

theorem protect_of_private_across :
    let s : Space :=
      { areas := [⟨0x10000, 0x13000, ⟨true, true, false, false⟩, .anonymous⟩,
          ⟨0x13000, 0x15000, ⟨true, false, true, false⟩, .file "/agent" true true⟩] }
    s.Private ∧
      (Engine.protect 0x12fff 2 Code.writeCopy s).result = .ok Code.readWrite ∧
      Changed s (Engine.protect 0x12fff 2 Code.writeCopy s).state 0x12fff 2 Code.writeCopy
        Code.readWrite ∧
      (Engine.validate 0x12fff 2 s).result = .ok () ∧ Space.pagesOf? 0x12fff 2 ≠ none ∧
      (Engine.protect 0x12fff 2 0x104 s).result =
        .error (.memoryAccess 0x12fff (.unsupportedProtection 0x104)) := by
  intro s
  have hordered : s.Ordered := by
    have hwithin : Within 0 Space.gate.start s.areas := by decide
    exact hwithin
  have hs : s.Private := by
    refine ⟨hordered, List.forall_mem_cons.2 ⟨?_, List.forall_mem_singleton.2 ?_⟩⟩
    · exact ⟨by decide, by decide, fun _ => rfl⟩
    · exact ⟨by decide, by decide, fun _ => rfl⟩
  have hresult : (Engine.protect 0x12fff 2 Code.writeCopy s).result = .ok Code.readWrite := by cbv
  have hvalid : (Engine.validate 0x12fff 2 s).result = .ok () := by cbv
  have hrefused : (Engine.protect 0x12fff 2 0x104 s).result =
      .error (.memoryAccess 0x12fff (.unsupportedProtection 0x104)) := by cbv
  exact ⟨hs, hresult, (protect_of_private hs _ _ _).1 _ hresult, hvalid,
    ((protect_of_private hs _ _ 0x104).2 hvalid).1, hrefused⟩

end RemoteAgent.Memory
