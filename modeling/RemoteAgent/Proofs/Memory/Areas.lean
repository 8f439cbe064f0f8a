import RemoteAgent.Memory.Area

/-! Areas by address. A list of areas that rise is known by what is mapped at each address; mapping
and unmapping change this at the addresses they are about and nowhere else, and protecting leaves
mapped what was mapped. -/

namespace RemoteAgent.Memory

def pageAt (areas : List Area) (address : Nat) : Option (Protection × Area.Source) :=
  (areas.find? (·.contains address)).map fun r => (r.protection, r.source)

def Within (lo hi : Nat) : List Area → Prop
  | [] => lo ≤ hi
  | r :: rs => lo ≤ r.start ∧ r.start < r.stop ∧ Within r.stop hi rs

instance Within.decidable (lo hi : Nat) : (areas : List Area) → Decidable (Within lo hi areas)
  | [] => inferInstanceAs (Decidable (lo ≤ hi))
  | r :: rs =>
    have := Within.decidable r.stop hi rs
    inferInstanceAs (Decidable (lo ≤ r.start ∧ r.start < r.stop ∧ Within r.stop hi rs))

namespace Area

theorem contains_iff {r : Area} {a : Nat} : r.contains a = true ↔ r.start ≤ a ∧ a < r.stop := by
  simp only [contains, Bool.and_eq_true, decide_eq_true_eq]

end Area

theorem pageAt_nil (a : Nat) : pageAt [] a = none := rfl

theorem pageAt_cons (r : Area) (rs : List Area) (a : Nat) : pageAt (r :: rs) a =
    if r.start ≤ a ∧ a < r.stop then some (r.protection, r.source) else pageAt rs a := by
  unfold pageAt
  rw [List.find?_cons]
  by_cases h : r.start ≤ a ∧ a < r.stop
  · rw [if_pos h, Area.contains_iff.2 h]
    rfl
  · rw [if_neg h, Bool.eq_false_iff.2 fun hc => h (Area.contains_iff.1 hc)]

theorem pageAt_append (xs ys : List Area) (a : Nat) :
    pageAt (xs ++ ys) a = (pageAt xs a).or (pageAt ys a) := by
  unfold pageAt
  rw [List.find?_append, Option.map_or]

theorem pageAt_clip (r : Area) (lo hi a : Nat) : pageAt (r.clip lo hi) a =
    if lo ≤ a ∧ a < hi ∧ r.start ≤ a ∧ a < r.stop then some (r.protection, r.source) else none := by
  unfold Area.clip
  by_cases hne : max lo r.start < min hi r.stop
  · rw [if_pos hne, pageAt_cons, pageAt_nil]
    have hiff : (max lo r.start ≤ a ∧ a < min hi r.stop) ↔
        (lo ≤ a ∧ a < hi ∧ r.start ≤ a ∧ a < r.stop) := by omega
    simp only [hiff]
  · have hout : ¬ (lo ≤ a ∧ a < hi ∧ r.start ≤ a ∧ a < r.stop) := by omega
    rw [if_neg hne, if_neg hout, pageAt_nil]

namespace Within

variable {lo m hi : Nat} {xs ys : List Area}

theorem le (h : Within lo hi xs) : lo ≤ hi := by
  induction xs generalizing lo with
  | nil => exact h
  | cons r rs ih =>
    obtain ⟨hlo, hr, hrs⟩ := h
    have := ih hrs
    omega

theorem append (hx : Within lo m xs) (hy : Within m hi ys) : Within lo hi (xs ++ ys) := by
  induction xs generalizing lo with
  | nil =>
    cases ys with
    | nil => exact Nat.le_trans hx hy
    | cons r rs => exact ⟨Nat.le_trans hx hy.1, hy.2⟩
  | cons r rs ih => exact ⟨hx.1, hx.2.1, ih hx.2.2⟩

theorem clip {r : Area} {a b : Nat} (hr : lo ≤ hi) (hlo : lo ≤ max a r.start)
    (hhi : min b r.stop ≤ hi) : Within lo hi (r.clip a b) := by
  unfold Area.clip
  split
  · next hne => exact ⟨hlo, hne, hhi⟩
  · exact hr

theorem pageAt_of_lt (h : Within lo hi xs) {a : Nat} (ha : a < lo) : pageAt xs a = none := by
  induction xs generalizing lo with
  | nil => rfl
  | cons r rs ih =>
    obtain ⟨hlo, hr, hrs⟩ := h
    rw [pageAt_cons, if_neg (by omega)]
    exact ih hrs (by omega)

theorem pageAt_of_ge (h : Within lo hi xs) {a : Nat} (ha : hi ≤ a) : pageAt xs a = none := by
  induction xs generalizing lo with
  | nil => rfl
  | cons r rs ih =>
    have := h.2.2.le
    rw [pageAt_cons, if_neg (by omega)]
    exact ih h.2.2

end Within

section Unmap

theorem pageAt_unmapAreas (lo hi : Nat) (areas : List Area) (a : Nat) :
    pageAt (unmapAreas lo hi areas) a = if lo ≤ a ∧ a < hi then none else pageAt areas a := by
  unfold unmapAreas
  induction areas with
  | nil => rw [List.flatMap_nil, pageAt_nil, ite_self]
  | cons r rs ih =>
    rw [List.flatMap_cons, pageAt_append, pageAt_append, pageAt_clip, pageAt_clip, ih, pageAt_cons]
    by_cases hin : lo ≤ a ∧ a < hi
    · rw [if_pos hin, if_pos hin, if_neg (by omega), if_neg (by omega)]
      rfl
    · rw [if_neg hin, if_neg hin]
      by_cases hr : r.start ≤ a ∧ a < r.stop
      · rw [if_pos hr]
        by_cases hlow : a < lo
        · rw [if_pos (by omega)]
          rfl
        · rw [if_neg (by omega), if_pos (by omega)]
          rfl
      · rw [if_neg hr, if_neg (by omega), if_neg (by omega)]
        rfl

theorem Within.unmapAreas {lo hi a b : Nat} {areas : List Area} (h : Within lo hi areas)
    (hab : a ≤ b) : Within lo hi (unmapAreas a b areas) := by
  unfold Memory.unmapAreas
  induction areas generalizing lo with
  | nil => exact h
  | cons r rs ih =>
    obtain ⟨hlo, hr, hrs⟩ := h
    rw [List.flatMap_cons]
    refine Within.append (m := r.stop) ?_ (ih hrs)
    refine Within.append (m := max r.start (min a r.stop)) ?_ ?_
    · exact Within.clip (by omega) (by omega) (by omega)
    · exact Within.clip (by omega) (by omega) (by omega)

end Unmap

section Insert

variable {r : Area} {areas : List Area}

theorem pageAt_insertArea (hfree : ∀ a, r.start ≤ a → a < r.stop → pageAt areas a = none)
    (a : Nat) : pageAt (insertArea r areas) a =
      if r.start ≤ a ∧ a < r.stop then some (r.protection, r.source) else pageAt areas a := by
  induction areas with
  | nil => rw [insertArea, pageAt_cons]
  | cons b rs ih =>
    rw [insertArea]
    split
    · rw [pageAt_cons]
    · have hrest : ∀ a, r.start ≤ a → a < r.stop → pageAt rs a = none := by
        intro a hlo hhi
        have hnone := hfree a hlo hhi
        rw [pageAt_cons] at hnone
        split at hnone
        · cases hnone
        · exact hnone
      rw [pageAt_cons, ih hrest, pageAt_cons b rs]
      by_cases hb : b.start ≤ a ∧ a < b.stop
      · have hout : ¬ (r.start ≤ a ∧ a < r.stop) := by
          intro hin
          have hnone := hfree a hin.1 hin.2
          rw [pageAt_cons, if_pos hb] at hnone
          cases hnone
        rw [if_pos hb, if_neg hout, if_pos hb]
      · rw [if_neg hb, if_neg hb]

theorem Within.insertArea {lo hi : Nat} (h : Within lo hi areas) (hlo : lo ≤ r.start)
    (hr : r.start < r.stop) (hhi : r.stop ≤ hi)
    (hfree : ∀ a, r.start ≤ a → a < r.stop → pageAt areas a = none) :
    Within lo hi (insertArea r areas) := by
  induction areas generalizing lo with
  | nil => exact ⟨hlo, hr, hhi⟩
  | cons b rs ih =>
    obtain ⟨hblo, hb, hrs⟩ := h
    -- the first address of either area lies outside the other
    have hbelow : r.start ≤ b.start → b.start < r.stop → False := by
      intro h1 h2
      have hnone := hfree b.start h1 h2
      rw [pageAt_cons, if_pos ⟨Nat.le_refl _, hb⟩] at hnone
      cases hnone
    have habove : b.start ≤ r.start → r.start < b.stop → False := by
      intro h1 h2
      have hnone := hfree r.start (Nat.le_refl _) hr
      rw [pageAt_cons, if_pos ⟨h1, h2⟩] at hnone
      cases hnone
    rw [Memory.insertArea]
    split
    · next hlt => exact ⟨hlo, hr, Nat.not_lt.1 fun hin => hbelow (by omega) hin, hb, hrs⟩
    · next hge =>
      have hstop : b.stop ≤ r.start := Nat.not_lt.1 fun hin => habove (by omega) hin
      refine ⟨hblo, hb, ih hrs hstop ?_⟩
      intro a ha hlt
      have hnone := hfree a ha hlt
      rwa [pageAt_cons, if_neg (by omega)] at hnone

end Insert

section Coalesce

theorem Within.coalesce {lo hi : Nat} {areas : List Area} (h : Within lo hi areas) :
    Within lo hi (coalesce areas) := by
  fun_induction Memory.coalesce areas generalizing lo with
  | case1 => exact h
  | case2 a => exact h
  | case3 a b r htouch ih =>
    obtain ⟨hlo, ha, -, hb, hr⟩ := h
    exact ih ⟨hlo, by dsimp only; omega, hr⟩
  | case4 a b r _ ih => exact ⟨h.1, h.2.1, ih h.2.2⟩

theorem pageAt_coalesce {lo hi : Nat} {areas : List Area} (h : Within lo hi areas) (x : Nat) :
    pageAt (coalesce areas) x = pageAt areas x := by
  fun_induction Memory.coalesce areas generalizing lo with
  | case1 => rfl
  | case2 a => rfl
  | case3 a b r htouch ih =>
    obtain ⟨hlo, ha, -, hb, hr⟩ := h
    obtain ⟨hstop, hprotection, hsource⟩ := htouch
    have hmerged : Within lo hi ({ a with stop := b.stop } :: r) :=
      ⟨hlo, by dsimp only; omega, hr⟩
    rw [ih hmerged, pageAt_cons, pageAt_cons a, pageAt_cons b]
    dsimp only
    by_cases hin : a.start ≤ x ∧ x < b.stop
    · rw [if_pos hin, ← hprotection, ← hsource]
      by_cases hxa : a.start ≤ x ∧ x < a.stop
      · rw [if_pos hxa]
      · rw [if_neg hxa, if_pos (by omega)]
    · rw [if_neg hin, if_neg (by omega), if_neg (by omega)]
  | case4 a b r _ ih => rw [pageAt_cons, ih h.2.2, ← pageAt_cons]

end Coalesce

section Protect

variable {p : Protection} {hi cursor : Nat}

theorem protectAreas_of_le (h : hi ≤ cursor) (areas : List Area) :
    (protectAreas p hi cursor areas).1 = areas := by
  cases areas with
  | nil => rfl
  | cons a rs => rw [protectAreas, if_pos h]

theorem protectAreas_of_stop_le {a : Area} (hlt : cursor < hi) (hstop : a.stop ≤ cursor)
    (rs : List Area) :
    (protectAreas p hi cursor (a :: rs)).1 = a :: (protectAreas p hi cursor rs).1 := by
  rw [protectAreas, if_neg (Nat.not_le.2 hlt), if_pos hstop]

theorem protectAreas_of_stuck {a : Area} (hstop : cursor < a.stop)
    (h : cursor < a.start ∨ a.accepts p = false) (rs : List Area) :
    (protectAreas p hi cursor (a :: rs)).1 = a :: rs := by
  rw [protectAreas]
  split
  · rfl
  · rw [if_neg (Nat.not_le.2 hstop)]
    split
    · rfl
    · next hin =>
      rw [h.resolve_left hin]
      rfl

theorem protectAreas_of_accepts {a : Area} (hlt : cursor < hi) (hstart : a.start ≤ cursor)
    (hstop : cursor < a.stop) (h : a.accepts p = true) (rs : List Area) :
    (protectAreas p hi cursor (a :: rs)).1 =
      a.clip 0 cursor ++ (a.clip cursor hi).map (fun b => { b with protection := p }) ++
        a.clip hi a.stop ++ (protectAreas p hi (min hi a.stop) rs).1 := by
  rw [protectAreas, if_neg (Nat.not_le.2 hlt), if_neg (Nat.not_le.2 hstop),
    if_neg (Nat.not_lt.2 hstart), h]
  rfl

theorem map_clip (a : Area) (lo hi : Nat) :
    (a.clip lo hi).map (fun b => { b with protection := p }) =
      ({ a with protection := p } : Area).clip lo hi := by
  unfold Area.clip
  split
  · rfl
  · rfl

theorem Within.protectAreas {lo top : Nat} {areas : List Area} (h : Within lo top areas) :
    Within lo top (protectAreas p hi cursor areas).1 := by
  induction areas generalizing lo cursor with
  | nil => exact h
  | cons a rs ih =>
    obtain ⟨hlo, ha, hrs⟩ := h
    rcases Nat.lt_or_ge cursor hi with hlt | hge
    · rcases Nat.lt_or_ge cursor a.stop with hin | hout
      · by_cases hstuck : cursor < a.start ∨ a.accepts p = false
        · rw [protectAreas_of_stuck hin hstuck]
          exact ⟨hlo, ha, hrs⟩
        · obtain ⟨hstart, haccepts⟩ := not_or.1 hstuck
          rw [protectAreas_of_accepts hlt (Nat.not_lt.1 hstart) hin (by simpa using haccepts),
            map_clip]
          refine Within.append (m := a.stop) ?_ (ih hrs)
          refine Within.append (m := max cursor (min hi a.stop)) ?_ ?_
          · refine Within.append (m := cursor) ?_ ?_
            · exact Within.clip (by omega) (by omega) (by omega)
            · exact Within.clip (by omega) (by dsimp only; omega) (by dsimp only; omega)
          · exact Within.clip (by omega) (by omega) (by omega)
      · rw [protectAreas_of_stop_le hlt hout]
        exact ⟨hlo, ha, ih hrs⟩
    · rw [protectAreas_of_le hge]
      exact ⟨hlo, ha, hrs⟩

def Area.Source.admits (source : Area.Source) (p : Protection) : Bool :=
  match source with
  | .file _ writable _ => writable || !p.write
  | .anonymous => true

theorem Area.accepts_eq (a : Area) (p : Protection) : a.accepts p = a.source.admits p := rfl

def Refuses (p : Protection) (areas : List Area) (x : Nat) : Prop :=
  ∀ g, pageAt areas x = some g → g.2.admits p = false

/-- Protecting has gone over the pages from `lo` up to `reached`, none of which refuses, and has
changed no other page. -/
structure Passes (p : Protection) (lo reached : Nat) (areas areas' : List Area) : Prop where
  admitted : ∀ x, lo ≤ x → x < reached → ¬ Refuses p areas x
  pages : ∀ x, pageAt areas' x =
    if lo ≤ x ∧ x < reached then (pageAt areas x).map fun g => (p, g.2) else pageAt areas x

section Passes

variable {b : Area} {rs rs' : List Area} {top reached : Nat}

theorem passes_of_le (h : reached ≤ cursor) (areas : List Area) :
    Passes p cursor reached areas areas :=
  ⟨fun x hle hlt => by omega, fun x => by rw [if_neg (by omega)]⟩

theorem pageAt_cons_of_stop_le {x : Nat} (h : b.stop ≤ x) : pageAt (b :: rs) x = pageAt rs x := by
  rw [pageAt_cons, if_neg (by omega)]

theorem Refuses.cons {x : Nat} (h : Refuses p rs x) (hout : b.stop ≤ x) : Refuses p (b :: rs) x :=
  fun g hg => h g ((pageAt_cons_of_stop_le hout).symm.trans hg)

theorem not_refuses_cons {x : Nat} (hin : b.start ≤ x ∧ x < b.stop) (h : b.accepts p = true) :
    ¬ Refuses p (b :: rs) x := by
  intro hrefuses
  have hpage : pageAt (b :: rs) x = some (b.protection, b.source) := by rw [pageAt_cons, if_pos hin]
  rw [b.accepts_eq, hrefuses _ hpage] at h
  cases h

theorem Passes.cons_below (h : Passes p cursor reached rs rs') (hout : b.stop ≤ cursor) :
    Passes p cursor reached (b :: rs) (b :: rs') := by
  refine ⟨fun x hle hlt hrefuses => h.admitted x hle hlt fun g hg => hrefuses g ?_, fun x => ?_⟩
  · rw [pageAt_cons_of_stop_le (Nat.le_trans hout hle), hg]
  · rw [pageAt_cons, pageAt_cons, h.pages]
    grind

/-- An area that gets the protection as far as the range goes, behind which the protection goes on. -/
theorem Passes.cons_accepts (h : Passes p (min hi b.stop) reached rs rs')
    (hreached : min hi b.stop ≤ reached ∧ reached ≤ hi) (hrs : Within b.stop top rs)
    (hin : b.start ≤ cursor ∧ cursor < b.stop) (haccepts : b.accepts p = true) :
    Passes p cursor reached (b :: rs) (b.clip 0 cursor ++
      ({ b with protection := p } : Area).clip cursor hi ++ b.clip hi b.stop ++ rs') := by
  refine ⟨fun x hle hlt hrefuses => ?_, fun x => ?_⟩
  · rcases Nat.lt_or_ge x b.stop with hlow | hhigh
    · exact not_refuses_cons ⟨by omega, hlow⟩ haccepts hrefuses
    · refine h.admitted x (by omega) hlt fun g hg => hrefuses g ?_
      rw [pageAt_cons_of_stop_le hhigh, hg]
  · rw [pageAt_append, pageAt_append, pageAt_append, pageAt_clip, pageAt_clip, pageAt_clip, h.pages,
      pageAt_cons]
    grind [hrs.pageAt_of_lt]

theorem exists_passes (p : Protection) (hi cursor : Nat) {lo : Nat} {areas : List Area}
    (h : Within lo top areas) : ∃ reached, (min hi cursor ≤ reached ∧ reached ≤ hi) ∧
      Passes p cursor reached areas (protectAreas p hi cursor areas).1 ∧
      ∀ e, (protectAreas p hi cursor areas).2 = some e → reached < hi ∧ Refuses p areas reached := by
  induction areas generalizing lo cursor with
  | nil =>
    refine ⟨min hi cursor, by omega, passes_of_le (by omega) [], fun e he => ?_⟩
    rw [protectAreas] at he
    split at he
    · exact ⟨by omega, fun g hg => by cases hg⟩
    · cases he
  | cons b rs ih =>
    obtain ⟨hlo, hb, hrs⟩ := h
    rcases Nat.lt_or_ge cursor hi with hlt | hge
    · rcases Nat.lt_or_ge cursor b.stop with hin | hout
      · by_cases hstuck : cursor < b.start ∨ b.accepts p = false
        · rw [protectAreas_of_stuck hin hstuck]
          refine ⟨cursor, by omega, passes_of_le (Nat.le_refl _) _, fun e _ => ⟨hlt, fun g hg => ?_⟩⟩
          rcases hstuck with hgap | hrefuses
          · have hall : Within b.start top (b :: rs) := ⟨Nat.le_refl _, hb, hrs⟩
            rw [hall.pageAt_of_lt hgap] at hg
            cases hg
          · by_cases hstart : b.start ≤ cursor
            · rw [pageAt_cons, if_pos ⟨hstart, hin⟩] at hg
              cases hg
              exact hrefuses
            · rw [pageAt_cons, if_neg fun hx => hstart hx.1, hrs.pageAt_of_lt hin] at hg
              cases hg
        · obtain ⟨hstart, haccepts⟩ := not_or.1 hstuck
          have hstart := Nat.not_lt.1 hstart
          have haccepts : b.accepts p = true := by simpa using haccepts
          obtain ⟨reached, hbounds, hpasses, hstop⟩ := ih (min hi b.stop) hrs
          rw [protectAreas_of_accepts hlt hstart hin haccepts, map_clip]
          refine ⟨reached, by omega, hpasses.cons_accepts (by omega) hrs ⟨hstart, hin⟩ haccepts,
            fun e he => ?_⟩
          rw [protectAreas, if_neg (Nat.not_le.2 hlt), if_neg (Nat.not_le.2 hin),
            if_neg (Nat.not_lt.2 hstart), haccepts] at he
          obtain ⟨hless, hrefuses⟩ := hstop e he
          exact ⟨hless, hrefuses.cons (by omega)⟩
      · obtain ⟨reached, hbounds, hpasses, hstop⟩ := ih cursor hrs
        rw [protectAreas_of_stop_le hlt hout]
        refine ⟨reached, hbounds, hpasses.cons_below hout, fun e he => ?_⟩
        rw [protectAreas, if_neg (Nat.not_le.2 hlt), if_pos hout] at he
        obtain ⟨hless, hrefuses⟩ := hstop e he
        exact ⟨hless, hrefuses.cons (by omega)⟩
    · rw [protectAreas_of_le hge]
      refine ⟨hi, by omega, passes_of_le hge _, fun e he => ?_⟩
      rw [protectAreas, if_pos hge] at he
      cases he

theorem Passes.coalesce {lo : Nat} {areas areas' : List Area}
    (h : Passes p cursor reached areas areas') (hw : Within lo top areas') :
    Passes p cursor reached areas (coalesce areas') :=
  ⟨h.admitted, fun x => (pageAt_coalesce hw x).trans (h.pages x)⟩

theorem Passes.mapped_iff {areas areas' : List Area} (h : Passes p cursor reached areas areas')
    (x : Nat) : pageAt areas' x = none ↔ pageAt areas x = none := by
  rw [h.pages]
  split
  · exact Option.map_eq_none_iff
  · exact Iff.rfl

end Passes

end Protect

end RemoteAgent.Memory
