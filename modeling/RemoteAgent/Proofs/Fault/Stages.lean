import RemoteAgent.Proofs.Fault.Threads

/-! How far the guard is with a signal. While the actions are exchanged and put back, each of them is what
was found or the guard's own; and what was found is written down before anybody can need it, but for one
moment of the very first exchange. -/

namespace RemoteAgent.Fault

open RemoteAgent.Action

variable {n : Nat} {α : Type} {found : Signal → Foreign} {p : Process n α} {i j : Fin n}
  {signal : Signal} {k : Nat}

inductive Stage where
  | found
  | unsaved
  | guarded

def Work.stage (signal : Signal) : Work → Stage
  | exchanging todo => if signal ∈ todo then .found else .guarded
  | saving s _ todo =>
    if signal ∈ todo then .found else if signal = s then .unsaved else .guarded
  | restoring todo => if signal ∈ todo then .guarded else .found

def Work.Proper (found : Signal → Foreign) : Work → Prop
  | exchanging todo => todo.Nodup
  | saving signal old todo => (signal :: todo).Nodup ∧ old = .foreign (found signal)
  | restoring todo => todo.Nodup

namespace Process

def workOf (i : Fin n) (p : Process n α) : Option Work :=
  p.lock.bind fun held => if held.1 = i then some held.2 else none

def stage (signal : Signal) (p : Process n α) : Stage :=
  match p.lock with
  | some (_, w) => w.stage signal
  | none => if p.count = 0 then .found else .guarded

def inPlace (found : Signal → Foreign) (signal : Signal) (p : Process n α) : Disposition :=
  if p.handed signal then .foreign (found signal) else .guard

def At (found : Signal → Foreign) (signal : Signal) (p : Process n α) : Stage → Prop
  | .found => p.actions signal = .foreign (found signal)
  | .unsaved => p.actions signal = p.inPlace found signal
  | .guarded => p.actions signal = p.inPlace found signal ∧
      p.saved signal = some (.foreign (found signal))

/-- The actions are as the count and the work in hand say, and what they were is kept. -/
structure Minds (found : Signal → Foreign) (p : Process n α) : Prop where
  stages : ∀ signal, p.At found signal (p.stage signal)
  proper : ∀ i w, p.lock = some (i, w) → w.Proper found ∧ p.count = 0
  saved : ∀ signal d, p.saved signal = some d → d = .foreign (found signal)
  handed : ∀ signal, p.handed signal = true → (found signal).isPlain = true

def Knows (signal : Signal) (p : Process n α) : Prop :=
  p.saved signal = none → p.stage signal = .unsaved

end Process

section Minds

variable {w : Work}

theorem mem_signals (signal : Signal) : signal ∈ [Signal.segmentation, .bus] := by
  cases signal
  · exact .head _
  · exact .tail _ (.head _)

theorem nodup_signals : [Signal.segmentation, .bus].Nodup := by decide

theorem workOf_of_free (h : p.lock = none) (i : Fin n) : p.workOf i = none := by
  rw [Process.workOf, h]
  rfl

theorem workOf_of_held (h : p.lock = some (i, w)) : p.workOf i = some w := by
  rw [Process.workOf, h]
  exact if_pos rfl

theorem workOf_of_other (h : p.lock = some (i, w)) (hij : j ≠ i) : p.workOf j = none := by
  rw [Process.workOf, h]
  exact if_neg hij.symm

theorem held_of_workOf (h : p.workOf i = some w) : p.lock = some (i, w) := by
  obtain ⟨⟨j, w'⟩, hlock, hheld⟩ := Option.bind_eq_some_iff.1 h
  rw [hlock]
  obtain ⟨rfl, hw⟩ := Option.ite_none_right_eq_some.1 hheld
  cases hw
  rfl

theorem stage_of_held (h : p.lock = some (i, w)) (signal : Signal) :
    p.stage signal = w.stage signal := by
  rw [Process.stage, h]

theorem stage_of_open (h : p.lock = none) (hcount : p.count ≠ 0) (signal : Signal) :
    p.stage signal = .guarded := by
  rw [Process.stage, h]
  exact if_neg hcount

theorem stage_of_idle (h : p.lock = none) (hcount : p.count = 0) (signal : Signal) :
    p.stage signal = .found := by
  rw [Process.stage, h]
  exact if_pos hcount

theorem holder_of_unsaved (h : p.stage signal = .unsaved) :
    ∃ i old todo, p.lock = some (i, .saving signal old todo) := by
  cases hlock : p.lock with
  | none =>
    rw [Process.stage, hlock] at h
    dsimp only at h
    split at h <;> cases h
  | some held =>
    obtain ⟨i, w⟩ := held
    rw [stage_of_held hlock] at h
    cases w with
    | saving s old todo =>
      rw [Work.stage] at h
      split at h
      · cases h
      · split at h
        · next heq => exact ⟨i, old, todo, heq ▸ rfl⟩
        · cases h
    | _ =>
      rw [Work.stage] at h
      split at h <;> cases h

namespace Process.Minds

variable {r : List Signal} {old : Disposition}

theorem free_of_open (h : p.Minds found) (hcount : p.count ≠ 0) : p.lock = none := by
  cases hlock : p.lock with
  | none => rfl
  | some held => exact (hcount (h.proper held.1 held.2 hlock).2).elim

theorem of_open (h : p.Minds found) (hcount : p.count ≠ 0) (signal : Signal) :
    p.At found signal .guarded :=
  stage_of_open (h.free_of_open hcount) hcount signal ▸ h.stages signal

theorem of_idle (h : p.Minds found) (hfree : p.lock = none) (hcount : p.count = 0) (signal : Signal) :
    p.actions signal = .foreign (found signal) := by
  have hstage := h.stages signal
  rw [stage_of_idle hfree hcount] at hstage
  exact hstage

theorem action (h : p.Minds found) (signal : Signal) :
    p.actions signal = .foreign (found signal) ∨ p.actions signal = .guard := by
  have hstage := h.stages signal
  have hplace : p.inPlace found signal = .foreign (found signal) ∨ p.inPlace found signal = .guard := by
    rw [inPlace]
    exact ite_eq_or_eq ..
  cases hs : p.stage signal with
  | found =>
    rw [hs] at hstage
    exact .inl hstage
  | unsaved =>
    rw [hs] at hstage
    exact hstage ▸ hplace
  | guarded =>
    rw [hs] at hstage
    exact hstage.1 ▸ hplace

theorem knows (h : p.Minds found) (haction : p.actions signal = .guard) : p.Knows signal := by
  intro hsaved
  have hstage := h.stages signal
  cases hs : p.stage signal with
  | found =>
    rw [hs] at hstage
    cases haction.symm.trans hstage
  | unsaved => rfl
  | guarded =>
    rw [hs] at hstage
    cases hsaved.symm.trans hstage.2

theorem exchanges (h : p.Minds found) (hfree : p.lock = none) (hcount : p.count = 0) (i : Fin n) :
    ({ p with lock := some (i, .exchanging [.segmentation, .bus]) } : Process n α).Minds found := by
  refine ⟨fun signal => ?_, fun j w hlock => ?_, h.saved, h.handed⟩
  · rw [stage_of_held rfl, Work.stage, if_pos (mem_signals signal)]
    exact h.of_idle hfree hcount signal
  · cases hlock
    exact ⟨nodup_signals, hcount⟩

theorem restores (h : p.Minds found) (hcount : p.count ≠ 0) (i : Fin n) :
    ({ p with count := 0, lock := some (i, .restoring [.segmentation, .bus]) } :
      Process n α).Minds found := by
  refine ⟨fun signal => ?_, fun j w hlock => ?_, h.saved, h.handed⟩
  · rw [stage_of_held rfl, Work.stage, if_pos (mem_signals signal)]
    exact h.of_open hcount signal
  · cases hlock
    exact ⟨nodup_signals, rfl⟩

theorem counts (h : p.Minds found) (hcount : p.count ≠ 0) (hk : k ≠ 0) :
    ({ p with count := k } : Process n α).Minds found := by
  have hfree := h.free_of_open hcount
  refine ⟨fun signal => ?_, fun j w hlock => ?_, h.saved, h.handed⟩
  · rw [stage_of_open (p := { p with count := k }) hfree hk]
    exact h.of_open hcount signal
  · cases hfree.symm.trans hlock

theorem exchange (h : p.Minds found) (hlock : p.lock = some (i, .exchanging (signal :: r))) :
    ({ p with actions := Function.update p.actions signal .guard
              handed := Function.update p.handed signal false
              lock := some (i, .saving signal (p.actions signal) r) } : Process n α).Minds found := by
  obtain ⟨hnodup, hcount⟩ := h.proper i _ hlock
  have hnot := (List.nodup_cons.1 hnodup).1
  have hold : p.actions signal = .foreign (found signal) := by
    have hstage := h.stages signal
    rw [stage_of_held hlock, Work.stage, if_pos (.head _)] at hstage
    exact hstage
  refine ⟨fun x => ?_, fun j w hheld => ?_, h.saved, fun x hx => ?_⟩
  · have hstage := h.stages x
    rw [stage_of_held hlock, Work.stage] at hstage
    rw [stage_of_held rfl, Work.stage]
    by_cases hmem : x ∈ r
    · have hne : x ≠ signal := fun heq => hnot (heq ▸ hmem)
      rw [if_pos (.tail _ hmem)] at hstage
      rw [if_pos hmem]
      exact (Function.update_of_ne hne ..).trans hstage
    · rw [if_neg hmem]
      by_cases heq : x = signal
      · subst heq
        rw [if_pos rfl]
        show Function.update .. = if Function.update p.handed x false x then _ else _
        rw [Function.update_self, Function.update_self]
        rfl
      · rw [if_neg (List.not_mem_cons_of_ne_of_not_mem heq hmem)] at hstage
        rw [if_neg heq]
        refine ⟨?_, hstage.2⟩
        show Function.update .. = if Function.update p.handed signal false x then _ else _
        rw [Function.update_of_ne heq, Function.update_of_ne heq]
        exact hstage.1
  · cases hheld
    exact ⟨⟨hnodup, hold⟩, hcount⟩
  · by_cases heq : x = signal
    · subst heq
      cases (Function.update_self ..).symm.trans hx
    · exact h.handed x ((Function.update_of_ne heq ..).symm.trans hx)

theorem save (h : p.Minds found) (hlock : p.lock = some (i, .saving signal old r)) :
    ({ p with saved := Function.update p.saved signal (some old)
              lock := some (i, .exchanging r) } : Process n α).Minds found := by
  obtain ⟨⟨hnodup, hold⟩, hcount⟩ := h.proper i _ hlock
  refine ⟨fun x => ?_, fun j w hheld => ?_, fun x d hd => ?_, h.handed⟩
  · have hstage := h.stages x
    rw [stage_of_held hlock, Work.stage] at hstage
    rw [stage_of_held rfl, Work.stage]
    by_cases hmem : x ∈ r
    · rw [if_pos hmem] at hstage ⊢
      exact hstage
    · rw [if_neg hmem] at hstage ⊢
      by_cases heq : x = signal
      · subst heq
        rw [if_pos rfl] at hstage
        exact ⟨hstage, (Function.update_self ..).trans (congrArg some hold)⟩
      · rw [if_neg heq] at hstage
        exact ⟨hstage.1, (Function.update_of_ne heq ..).trans hstage.2⟩
  · cases hheld
    exact ⟨(List.nodup_cons.1 hnodup).2, hcount⟩
  · by_cases heq : x = signal
    · subst heq
      cases (Function.update_self ..).symm.trans hd
      exact hold
    · exact h.saved x d ((Function.update_of_ne heq ..).symm.trans hd)

theorem restore (h : p.Minds found) (hlock : p.lock = some (i, .restoring (signal :: r))) :
    ({ p with actions := Function.update p.actions signal ((p.saved signal).getD .guard)
              lock := some (i, .restoring r) } : Process n α).Minds found := by
  obtain ⟨hnodup, hcount⟩ := h.proper i _ hlock
  have hnot := (List.nodup_cons.1 hnodup).1
  refine ⟨fun x => ?_, fun j w hheld => ?_, h.saved, h.handed⟩
  · have hstage := h.stages x
    rw [stage_of_held hlock, Work.stage] at hstage
    rw [stage_of_held rfl, Work.stage]
    by_cases heq : x = signal
    · subst heq
      rw [if_pos (.head _)] at hstage
      rw [if_neg hnot]
      show Function.update .. = _
      rw [Function.update_self, hstage.2]
      rfl
    · by_cases hmem : x ∈ r
      · rw [if_pos (.tail _ hmem)] at hstage
        rw [if_pos hmem]
        exact ⟨(Function.update_of_ne heq ..).trans hstage.1, hstage.2⟩
      · rw [if_neg (List.not_mem_cons_of_ne_of_not_mem heq hmem)] at hstage
        rw [if_neg hmem]
        exact (Function.update_of_ne heq ..).trans hstage
  · cases hheld
    exact ⟨(List.nodup_cons.1 hnodup).2, hcount⟩

theorem exchanged (h : p.Minds found) (hlock : p.lock = some (i, .exchanging [])) :
    ({ p with count := p.count + 1, lock := none } : Process n α).Minds found := by
  refine ⟨fun x => ?_, fun j w hheld => (by cases hheld), h.saved, h.handed⟩
  have hstage := h.stages x
  rw [stage_of_held hlock, Work.stage, if_neg List.not_mem_nil] at hstage
  rw [stage_of_open rfl (Nat.succ_ne_zero _)]
  exact hstage

theorem restored (h : p.Minds found) (hlock : p.lock = some (i, .restoring [])) :
    ({ p with lock := none } : Process n α).Minds found := by
  refine ⟨fun x => ?_, fun j w hheld => (by cases hheld), h.saved, h.handed⟩
  have hstage := h.stages x
  rw [stage_of_held hlock, Work.stage, if_neg List.not_mem_nil] at hstage
  rw [stage_of_idle (p := { p with lock := none }) rfl (h.proper i _ hlock).2]
  exact hstage

theorem hands (h : p.Minds found) (hplain : (found signal).isPlain = true) :
    ({ p with actions := Function.update p.actions signal (.foreign (found signal))
              handed := Function.update p.handed signal true } : Process n α).Minds found := by
  have hstages : ∀ x s, p.At found x s →
      ({ p with actions := Function.update p.actions signal (.foreign (found signal))
                handed := Function.update p.handed signal true } : Process n α).At found x s := by
    intro x s hx
    by_cases heq : x = signal
    · subst heq
      have hplace : ∀ handed : Signal → Bool, Function.update p.actions x (.foreign (found x)) x =
          if Function.update handed x true x then .foreign (found x) else .guard := by
        intro handed
        rw [Function.update_self, Function.update_self]
        rfl
      cases s with
      | found => exact Function.update_self ..
      | unsaved => exact hplace _
      | guarded => exact ⟨hplace _, hx.2⟩
    · have hplace : ∀ d, p.actions x = d → Function.update p.actions signal (.foreign (found signal)) x = d :=
        fun d hd => (Function.update_of_ne heq ..).trans hd
      have hhanded : Function.update p.handed signal true x = p.handed x := Function.update_of_ne heq ..
      cases s with
      | found => exact hplace _ hx
      | unsaved =>
        show _ = if Function.update p.handed signal true x then _ else _
        rw [hhanded]
        exact hplace _ hx
      | guarded =>
        refine ⟨?_, hx.2⟩
        show _ = if Function.update p.handed signal true x then _ else _
        rw [hhanded]
        exact hplace _ hx.1
  refine ⟨fun x => hstages x _ (h.stages x), h.proper, h.saved, fun x hx => ?_⟩
  by_cases heq : x = signal
  · exact heq ▸ hplain
  · exact h.handed x ((Function.update_of_ne heq ..).symm.trans hx)

end Process.Minds

end Minds

end RemoteAgent.Fault
