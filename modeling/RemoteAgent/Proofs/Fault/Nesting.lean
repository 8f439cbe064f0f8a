import Mathlib.Algebra.BigOperators.Group.Finset.Piecewise
import Mathlib.Algebra.Order.BigOperators.Group.Finset
import Mathlib.Data.Fintype.Basic
import RemoteAgent.Proofs.Fault.Stages

/-! The books of the guard. Whatever threads do, and in whatever order, the count is the number of open
scopes, the actions are the guard's own while it is positive, or have been put back by it, each thread's
current frame is that of its innermost scope, and every guarded call returns what its body comes to. -/

namespace RemoteAgent.Fault

open RemoteAgent.Action

variable {n : Nat} {α : Type} {found : Signal → Foreign} {p p' : Process n α} {i j : Fin n}
  {t : Thread α} {stack rest : List (Layer α)} {frame : Frame} {body c mended after : Code α}
  {next : Except Error α → Code α} {r : Except String α} {signal : Signal} {address k : Nat}

section Stack

def within (stack : List (Layer α)) : Bool := (innermost stack).isSome

def Chained : List (Layer α) → Prop
  | [] => True
  | .scope frame _ _ :: r => frame.place = r.length ∧ frame.previous = innermost r ∧ Chained r
  | .rescue _ :: r => Chained r

def Layer.onward (inside : Bool) : Layer α → Except Error (Except String α) →
    Except Error (Except String α)
  | .scope _ _ next, .ok r => (Code.resume next r).ending inside
  | .scope _ _ next, .error e => (next (.error e)).ending inside
  | .rescue next, .ok r => (next r).ending inside
  | .rescue _, .error e => .error e

def Tracks : List (Layer α) → Except Error (Except String α) → Prop
  | [], _ => True
  | .scope frame body next :: r, e =>
    body.ending true = e ∧ Tracks r ((Layer.scope frame body next).onward (within r) e)
  | .rescue next :: r, e => Tracks r ((Layer.rescue next).onward (within r) e)

theorem ending_scope (inside : Bool) (frame : Frame) (body : Code α)
    (next : Except Error α → Code α) : (Code.scope body next).ending inside =
      (Layer.scope frame body next).onward inside (body.ending true) := by
  rw [Code.ending]
  cases body.ending true with
  | error e => rfl
  | ok r =>
    cases r with
    | ok v => rfl
    | error text => rfl

theorem ending_rescue (inside : Bool) (body : Code α) (next : Except String α → Code α) :
    (Code.rescue body next).ending inside =
      (Layer.rescue next).onward inside (body.ending inside) := by
  rw [Code.ending]
  cases body.ending inside with
  | error e => rfl
  | ok r => rfl

theorem innermost_cut (stack : List (Layer α)) : innermost (cut stack) = innermost stack := by
  induction stack with
  | nil => rfl
  | cons layer r ih =>
    cases layer with
    | scope frame body next => rfl
    | rescue next => exact ih

theorem depth_cut (stack : List (Layer α)) : depth (cut stack) = depth stack := by
  induction stack with
  | nil => rfl
  | cons layer r ih =>
    cases layer with
    | scope frame body next => rfl
    | rescue next => exact ih

theorem Chained.cut (h : Chained stack) : Chained (cut stack) := by
  induction stack with
  | nil => exact h
  | cons layer r ih =>
    cases layer with
    | scope frame body next => exact h
    | rescue next => exact ih h

/-- Nobody but a scope stops a trap. -/
theorem Tracks.cut {e : Error} (h : Tracks stack (.error e)) : Tracks (cut stack) (.error e) := by
  induction stack with
  | nil => exact h
  | cons layer r ih =>
    cases layer with
    | scope frame body next => exact h
    | rescue next => exact ih h

theorem cut_of_innermost (h : innermost stack = some k) :
    ∃ frame body next rest, cut stack = .scope frame body next :: rest ∧ frame.place = k := by
  induction stack with
  | nil => cases h
  | cons layer r ih =>
    cases layer with
    | scope frame body next => exact ⟨frame, body, next, r, rfl, Option.some.inj h⟩
    | rescue next => exact ih h

theorem jump_eq (signal : Signal) (address : Nat) (hcut : cut stack = .scope frame body next :: rest) :
    jump signal address frame.place stack =
      some (.scope { frame with signal := signal.number, address := Memory.told address } body next ::
        rest) := by
  induction stack with
  | nil => cases hcut
  | cons layer r ih =>
    cases layer with
    | scope frame' body' next' =>
      cases hcut
      exact if_pos rfl
    | rescue next' => exact ih hcut

end Stack

def Control.Follows : Control α → List (Layer α) → Prop
  | .outside, stack => stack = []
  | .running c, stack => Tracks stack (c.ending (within stack))
  | .opening body next, stack => Tracks stack ((Code.scope body next).ending (within stack))
  | .landed, .scope frame body next :: r =>
    Tracks (.scope frame body next :: r) (.error (.fault frame.signal frame.address))
  | .landed, _ => False
  | .closing after, stack => Tracks stack (after.ending (within stack))
  | .restoring after, stack => Tracks stack (after.ending (within stack))
  | .handling _ _ mended, stack =>
    innermost stack = none ∧ Tracks stack (mended.ending (within stack))
  | .astray, _ => True
  | .lost, _ => False

structure Thread.Sound (t : Thread α) : Prop where
  current : t.current = innermost t.stack
  chained : Chained t.stack
  follows : t.control.Follows t.stack

def Control.Agrees (i : Fin n) (p : Process n α) : Control α → Prop
  | .opening _ _ => ∃ signals, p.workOf i = some (.exchanging signals) ∨
      ∃ signal old, p.workOf i = some (.saving signal old signals)
  | .restoring _ => ∃ signals, p.workOf i = some (.restoring signals)
  | .handling signal _ _ => p.workOf i = none ∧ p.Knows signal
  | _ => p.workOf i = none

structure Process.Inv (found : Signal → Foreign) (p : Process n α) : Prop where
  count : p.count = ∑ i, (p.threads i).opened
  minds : p.Minds found
  agrees : ∀ i, (p.threads i).control.Agrees i p
  sound : ∀ i, (p.threads i).Sound
  returned : ∀ x ∈ p.returned, x.1.ending true = x.2

section Place

variable {w w' : Work}

theorem threads_place_self (i : Fin n) (t : Thread α) (p : Process n α) :
    (p.place i t).threads i = t := Function.update_self ..

theorem threads_place_ne (h : j ≠ i) (t : Thread α) (p : Process n α) :
    (p.place i t).threads j = p.threads j := Function.update_of_ne h ..

theorem sum_opened (i : Fin n) (t : Thread α) (threads : Fin n → Thread α) :
    ∑ j, (Function.update threads i t j).opened + (threads i).opened =
      ∑ j, (threads j).opened + t.opened := by
  have hupdate : (fun j => (Function.update threads i t j).opened) =
      Function.update (fun j => (threads j).opened) i t.opened :=
    Function.comp_update Thread.opened threads i t
  rw [hupdate, Finset.sum_update_of_mem (Finset.mem_univ i), Finset.sdiff_singleton_eq_erase,
    ← Finset.add_sum_erase _ (fun j => (threads j).opened) (Finset.mem_univ i)]
  omega

theorem opened_le_count (h : p.Inv found) (i : Fin n) : (p.threads i).opened ≤ p.count := by
  rw [h.count]
  exact Finset.single_le_sum (f := fun j => (p.threads j).opened) (fun _ _ => Nat.zero_le _)
    (Finset.mem_univ i)

theorem depth_le_opened (t : Thread α) : depth t.stack ≤ t.opened := by
  rw [Thread.opened]
  split
  · exact Nat.le_succ _
  · exact Nat.le_refl _

theorem Control.Agrees.keep {control : Control α} (h : control.Agrees j p)
    (hwork : p'.workOf j = p.workOf j) (hknows : ∀ signal, p.Knows signal → p'.Knows signal) :
    control.Agrees j p' := by
  cases control with
  | opening body next =>
    obtain ⟨signals, hold⟩ := h
    exact ⟨signals, hwork ▸ hold⟩
  | restoring after =>
    obtain ⟨signals, hold⟩ := h
    exact ⟨signals, hwork.trans hold⟩
  | handling signal address mended => exact ⟨hwork.trans h.1, hknows signal h.2⟩
  | _ => exact hwork.trans h

theorem Process.Inv.moved (h : p.Inv found) (hthreads : p'.threads = Function.update p.threads i t)
    (hcount : p'.count + (p.threads i).opened = p.count + t.opened) (hminds : p'.Minds found)
    (ht : t.Sound) (hagrees : t.control.Agrees i p')
    (hworks : ∀ j, j ≠ i → p'.workOf j = p.workOf j)
    (hknows : ∀ signal, p.Knows signal → p'.Knows signal)
    (hreturned : ∀ x ∈ p'.returned, x.1.ending true = x.2) : p'.Inv found := by
  have hthread : ∀ j, j = i ∧ p'.threads j = t ∨ j ≠ i ∧ p'.threads j = p.threads j := by
    intro j
    rw [hthreads]
    by_cases hji : j = i
    · exact .inl ⟨hji, by rw [hji, Function.update_self]⟩
    · exact .inr ⟨hji, Function.update_of_ne hji ..⟩
  refine ⟨?_, hminds, fun j => ?_, fun j => ?_, hreturned⟩
  · have hsum := sum_opened i t p.threads
    rw [← hthreads] at hsum
    have hold := h.count
    omega
  · obtain ⟨rfl, heq⟩ | ⟨hji, heq⟩ := hthread j
    · exact heq ▸ hagrees
    · exact heq ▸ (h.agrees j).keep (hworks j hji) hknows
  · obtain ⟨rfl, heq⟩ | ⟨hji, heq⟩ := hthread j
    · exact heq ▸ ht
    · exact heq ▸ h.sound j

theorem Process.Inv.place (h : p.Inv found) (ht : t.Sound) (hagrees : t.control.Agrees i p)
    (hopened : t.opened = (p.threads i).opened) : (p.place i t).Inv found :=
  h.moved rfl (congrArg (p.count + ·) hopened.symm)
    ⟨h.minds.stages, h.minds.proper, h.minds.saved, h.minds.handed⟩ ht
    (hagrees.keep rfl fun _ hx => hx) (fun _ _ => rfl) (fun _ hx => hx) h.returned

theorem Process.Inv.worked (h : p.Inv found) (hlock : p.lock = some (i, w))
    (hlock' : p'.lock = some (i, w')) (hthreads : p'.threads = p.threads)
    (hcount : p'.count = p.count) (hminds : p'.Minds found)
    (hagrees : (p.threads i).control.Agrees i p')
    (hknows : ∀ signal, p.Knows signal → p'.Knows signal) (hreturned : p'.returned = p.returned) :
    p'.Inv found :=
  h.moved (hthreads.trans (Function.update_eq_self ..).symm) (congrArg (· + _) hcount) hminds
    (h.sound i) hagrees
    (fun _ hji => (workOf_of_other hlock' hji).trans (workOf_of_other hlock hji).symm) hknows
    (hreturned ▸ h.returned)

theorem Process.Knows.written (h : p.Knows signal) (hstage : p.stage signal ≠ .unsaved) :
    p.saved signal ≠ none := fun hnone => hstage (h hnone)

theorem Process.Knows.of_written (h : p.saved signal ≠ none) : p.Knows signal :=
  fun hnone => (h hnone).elim

end Place

section Lock

theorem Thread.Sound.enclosed (ht : t.Sound)
    (hfollows : Tracks t.stack ((Code.scope body next).ending (within t.stack))) :
    (t.enclosed body next).Sound := by
  rw [ending_scope _ { place := t.stack.length, previous := t.current }] at hfollows
  exact ⟨rfl, ⟨rfl, ht.current, ht.chained⟩, rfl, hfollows⟩

theorem Process.Inv.enters (h : p.Inv found) (hfree : p.lock = none)
    (hcontrol : (p.threads i).control = .running (.scope body next)) :
    (p.enters i body next).Inv found := by
  obtain ⟨hcurrent, hchained, hfollows⟩ := h.sound i
  rw [hcontrol] at hfollows
  have hopened : (p.threads i).opened = depth (p.threads i).stack := by rw [Thread.opened, hcontrol]
  rw [Process.enters]
  split
  · next hcount =>
    refine h.moved (t := { p.threads i with control := .opening body next }) rfl ?_ ?_
      ⟨hcurrent, hchained, hfollows⟩ ⟨_, .inl (workOf_of_held rfl)⟩
      (fun j hji => (workOf_of_other rfl hji).trans (workOf_of_free hfree j).symm)
      (fun signal hx => ?_) h.returned
    · rw [hopened]
      rfl
    · obtain ⟨hstages, hproper, hsaved, hhanded⟩ := h.minds.exchanges hfree hcount i
      exact ⟨hstages, hproper, hsaved, hhanded⟩
    · refine .of_written (hx.written ?_)
      rw [stage_of_idle hfree hcount]
      exact Stage.noConfusion
  · next hcount =>
    refine h.moved (t := (p.threads i).enclosed body next) rfl ?_ ?_ ((h.sound i).enclosed hfollows)
      (workOf_of_free hfree i) (fun _ _ => rfl) (fun signal hx => ?_) h.returned
    · rw [hopened]
      show p.count + 1 + _ = p.count + (_ + 1)
      omega
    · obtain ⟨hstages, hproper, hsaved, hhanded⟩ := h.minds.counts hcount (Nat.succ_ne_zero p.count)
      exact ⟨hstages, hproper, hsaved, hhanded⟩
    · refine .of_written (hx.written ?_)
      rw [stage_of_open hfree hcount]
      exact Stage.noConfusion

theorem Process.Inv.leaves (h : p.Inv found) (hfree : p.lock = none)
    (hcontrol : (p.threads i).control = .closing after) : (p.leaves i after).Inv found := by
  obtain ⟨hcurrent, hchained, hfollows⟩ := h.sound i
  rw [hcontrol] at hfollows
  have hopened : (p.threads i).opened = depth (p.threads i).stack + 1 := by
    rw [Thread.opened, hcontrol]
  have hle := opened_le_count h i
  have hcount : p.count ≠ 0 := by omega
  have hwritten : ∀ signal, p.Knows signal → p.saved signal ≠ none := by
    intro signal hx
    refine hx.written ?_
    rw [stage_of_open hfree hcount]
    exact Stage.noConfusion
  rw [Process.leaves]
  split
  · next hlast =>
    refine h.moved (t := { p.threads i with control := .restoring after }) rfl ?_ ?_
      ⟨hcurrent, hchained, hfollows⟩ ⟨_, workOf_of_held rfl⟩
      (fun j hji => (workOf_of_other rfl hji).trans (workOf_of_free hfree j).symm)
      (fun signal hx => .of_written (hwritten signal hx)) h.returned
    · show 0 + _ = p.count + depth (p.threads i).stack
      omega
    · obtain ⟨hstages, hproper, hsaved, hhanded⟩ := h.minds.restores hcount i
      exact ⟨hstages, hproper, hsaved, hhanded⟩
  · next hlast =>
    refine h.moved (t := { p.threads i with control := .running after }) rfl ?_ ?_
      ⟨hcurrent, hchained, hfollows⟩ (workOf_of_free hfree i) (fun _ _ => rfl)
      (fun signal hx => .of_written (hwritten signal hx)) h.returned
    · show p.count - 1 + _ = p.count + depth (p.threads i).stack
      omega
    · obtain ⟨hstages, hproper, hsaved, hhanded⟩ :=
        h.minds.counts (k := p.count - 1) hcount (by omega)
      exact ⟨hstages, hproper, hsaved, hhanded⟩

theorem opening_of_exchanging (h : p.Inv found) {w : Work} (hlock : p.lock = some (i, w))
    (hw : ∀ signals, w ≠ .restoring signals) :
    ∃ body next, (p.threads i).control = .opening body next := by
  have hwork := workOf_of_held hlock
  have hagrees := h.agrees i
  cases hcontrol : (p.threads i).control with
  | opening body next => exact ⟨body, next, rfl⟩
  | restoring after =>
    rw [hcontrol] at hagrees
    obtain ⟨signals, hheld⟩ := hagrees
    exact (hw signals (Option.some.inj (hwork.symm.trans hheld))).elim
  | handling signal address mended =>
    rw [hcontrol] at hagrees
    cases hwork.symm.trans hagrees.1
  | _ =>
    rw [hcontrol] at hagrees
    cases hwork.symm.trans hagrees

theorem restoring_of_restoring (h : p.Inv found) {signals : List Signal}
    (hlock : p.lock = some (i, .restoring signals)) :
    ∃ after, (p.threads i).control = .restoring after := by
  have hwork := workOf_of_held hlock
  have hagrees := h.agrees i
  cases hcontrol : (p.threads i).control with
  | restoring after => exact ⟨after, rfl⟩
  | opening body next =>
    rw [hcontrol] at hagrees
    obtain ⟨signals, hheld | ⟨signal, old, hheld⟩⟩ := hagrees
    · cases hwork.symm.trans hheld
    · cases hwork.symm.trans hheld
  | handling signal address mended =>
    rw [hcontrol] at hagrees
    cases hwork.symm.trans hagrees.1
  | _ =>
    rw [hcontrol] at hagrees
    cases hwork.symm.trans hagrees

theorem Process.Inv.exchanging (h : p.Inv found) {signals : List Signal}
    (hlock : p.lock = some (i, .exchanging signals)) : (p.work i (.exchanging signals)).Inv found := by
  obtain ⟨body, next, hcontrol⟩ := opening_of_exchanging h hlock fun _ => Work.noConfusion
  have hwritten : ∀ x, p.Knows x → p.saved x ≠ none := by
    intro x hx
    refine hx.written ?_
    rw [stage_of_held hlock, Work.stage]
    split <;> exact Stage.noConfusion
  cases signals with
  | cons signal signals =>
    refine h.worked hlock rfl rfl rfl (h.minds.exchange hlock) ?_
      (fun x hx => .of_written (hwritten x hx)) rfl
    rw [hcontrol]
    exact ⟨signals, .inr ⟨signal, _, workOf_of_held rfl⟩⟩
  | nil =>
    have ht := h.sound i
    have hfollows := ht.follows
    rw [hcontrol] at hfollows
    have hopened : (p.threads i).opened = depth (p.threads i).stack := by
      rw [Thread.opened, hcontrol]
    rw [Process.work, hcontrol]
    refine h.moved (t := (p.threads i).enclosed body next) rfl ?_ ?_ (ht.enclosed hfollows)
      (workOf_of_free rfl i)
      (fun j hji => (workOf_of_free rfl j).trans (workOf_of_other hlock hji).symm)
      (fun x hx => .of_written (hwritten x hx)) h.returned
    · rw [hopened]
      show p.count + 1 + _ = p.count + (_ + 1)
      omega
    · obtain ⟨hstages, hproper, hsaved, hhanded⟩ := h.minds.exchanged hlock
      exact ⟨hstages, hproper, hsaved, hhanded⟩

theorem Process.Inv.saving (h : p.Inv found) {old : Disposition} {signals : List Signal}
    (hlock : p.lock = some (i, .saving signal old signals)) :
    (p.work i (.saving signal old signals)).Inv found := by
  obtain ⟨body, next, hcontrol⟩ := opening_of_exchanging h hlock fun _ => Work.noConfusion
  refine h.worked hlock rfl rfl rfl (h.minds.save hlock) ?_ (fun x hx => ?_) rfl
  · rw [hcontrol]
    exact ⟨signals, .inl (workOf_of_held rfl)⟩
  · refine .of_written ?_
    show Function.update p.saved signal (some old) x ≠ none
    by_cases heq : x = signal
    · rw [heq, Function.update_self]
      exact Option.some_ne_none _
    · rw [Function.update_of_ne heq]
      refine hx.written ?_
      rw [stage_of_held hlock, Work.stage]
      rw [if_neg heq]
      split <;> exact Stage.noConfusion

theorem Process.Inv.restoring (h : p.Inv found) {signals : List Signal}
    (hlock : p.lock = some (i, .restoring signals)) : (p.work i (.restoring signals)).Inv found := by
  obtain ⟨after, hcontrol⟩ := restoring_of_restoring h hlock
  have hwritten : ∀ x, p.Knows x → p.saved x ≠ none := by
    intro x hx
    refine hx.written ?_
    rw [stage_of_held hlock, Work.stage]
    split <;> exact Stage.noConfusion
  cases signals with
  | cons signal signals =>
    refine h.worked hlock rfl rfl rfl (h.minds.restore hlock) ?_
      (fun x hx => .of_written (hwritten x hx)) rfl
    rw [hcontrol]
    exact ⟨signals, workOf_of_held rfl⟩
  | nil =>
    obtain ⟨hcurrent, hchained, hfollows⟩ := h.sound i
    rw [hcontrol] at hfollows
    have hopened : (p.threads i).opened = depth (p.threads i).stack := by
      rw [Thread.opened, hcontrol]
    rw [Process.work, hcontrol]
    refine h.moved (t := { p.threads i with control := .running after }) rfl
      (congrArg (p.count + ·) hopened) ?_ ⟨hcurrent, hchained, hfollows⟩ (workOf_of_free rfl i)
      (fun j hji => (workOf_of_free rfl j).trans (workOf_of_other hlock hji).symm)
      (fun x hx => .of_written (hwritten x hx)) h.returned
    obtain ⟨hstages, hproper, hsaved, hhanded⟩ := h.minds.restored hlock
    exact ⟨hstages, hproper, hsaved, hhanded⟩

end Lock

section Trap

theorem follows_mended
    (hfollows : Tracks stack ((Code.trap signal address mended).ending (within stack)))
    (hout : innermost stack = none) : Tracks stack (mended.ending (within stack)) := by
  have hwithin : within stack = false := by rw [within, hout]; rfl
  rw [hwithin, Code.ending, if_neg Bool.false_ne_true] at hfollows
  rw [hwithin]
  exact hfollows

theorem follows_trap (hfollows : Tracks stack (mended.ending (within stack)))
    (hout : innermost stack = none) :
    Tracks stack ((Code.trap signal address mended).ending (within stack)) := by
  have hwithin : within stack = false := by rw [within, hout]; rfl
  rw [hwithin] at hfollows
  rw [hwithin, Code.ending, if_neg Bool.false_ne_true]
  exact hfollows

/-- Another action than a handler's is the end of the process, wherever the trap comes from. -/
theorem meet_of_plain {f : Foreign} (hplain : f.isPlain = true) (i : Fin n) (address : Nat)
    (mended : Code α) (p : Process n α) :
    p.meet f i signal address mended = { p with ended := some signal } := by
  cases f with
  | standard => rfl
  | ignored => rfl
  | handler id takesInfo => cases hplain

theorem Process.Inv.ends (h : p.Inv found) (signal : Signal) :
    ({ p with ended := some signal } : Process n α).Inv found := by
  obtain ⟨hcount, ⟨hstages, hproper, hsaved, hhanded⟩, hagrees, hsound, hreturned⟩ := h
  exact ⟨hcount, ⟨hstages, hproper, hsaved, hhanded⟩,
    fun j => (hagrees j).keep rfl fun _ hx => hx, hsound, hreturned⟩

structure Process.Stray (i : Fin n) (mended : Code α) (p : Process n α) : Prop where
  outer : innermost (p.threads i).stack = none
  tracks : Tracks (p.threads i).stack (mended.ending (within (p.threads i).stack))
  idle : p.workOf i = none
  opened : (p.threads i).opened = depth (p.threads i).stack

theorem Process.Inv.stray_of_trap (h : p.Inv found)
    (hcontrol : (p.threads i).control = .running (.trap signal address mended))
    (hout : innermost (p.threads i).stack = none) : p.Stray i mended := by
  have hfollows := (h.sound i).follows
  have hagrees := h.agrees i
  rw [hcontrol] at hfollows hagrees
  exact ⟨hout, follows_mended hfollows hout, hagrees, by rw [Thread.opened, hcontrol]⟩

theorem Process.Inv.stray_of_handling (h : p.Inv found)
    (hcontrol : (p.threads i).control = .handling signal address mended) : p.Stray i mended := by
  have hfollows := (h.sound i).follows
  have hagrees := h.agrees i
  rw [hcontrol] at hfollows hagrees
  exact ⟨hfollows.1, hfollows.2, hagrees.1, by rw [Thread.opened, hcontrol]⟩

theorem Process.Inv.mends (h : p.Inv found) (hstray : p.Stray i mended) :
    (p.put i (.running mended)).Inv found :=
  h.place ⟨(h.sound i).current, (h.sound i).chained, hstray.tracks⟩ hstray.idle hstray.opened.symm

theorem Process.Inv.meet (h : p.Inv found) (hstray : p.Stray i mended) (f : Foreign)
    (signal : Signal) (address : Nat) : (p.meet f i signal address mended).Inv found := by
  cases f with
  | standard => exact h.ends signal
  | ignored => exact h.ends signal
  | handler id takesInfo =>
    obtain ⟨hcount, ⟨hstages, hproper, hsaved, hhanded⟩, hagrees, hsound, hreturned⟩ :=
      h.mends hstray
    exact ⟨hcount, ⟨hstages, hproper, hsaved, hhanded⟩,
      fun j => (hagrees j).keep rfl fun _ hx => hx, hsound, hreturned⟩

theorem Process.Inv.hand (h : p.Inv found) (hstray : p.Stray i mended) :
    (p.hand (found signal) i signal address mended).Inv found := by
  rw [Process.hand]
  split
  · next hplain =>
    refine h.moved (t := { p.threads i with control := .running (.trap signal address mended) }) rfl
      (congrArg (p.count + ·) hstray.opened) ?_
      ⟨(h.sound i).current, (h.sound i).chained, follows_trap hstray.tracks hstray.outer⟩
      hstray.idle (fun _ _ => rfl) (fun _ hx => hx) h.returned
    obtain ⟨hstages, hproper, hsaved, hhanded⟩ := h.minds.hands hplain
    exact ⟨hstages, hproper, hsaved, hhanded⟩
  · exact h.meet hstray ..

theorem pass_of_written (h : p.Inv found) (hwritten : p.saved signal ≠ none) :
    p.pass i signal address mended = p.hand (found signal) i signal address mended := by
  obtain ⟨d, hd⟩ := Option.ne_none_iff_exists'.1 hwritten
  have hfound := h.minds.saved signal d hd
  subst hfound
  rw [Process.pass, hd]

theorem Process.Inv.pass (h : p.Inv found)
    (hcontrol : (p.threads i).control = .handling signal address mended) :
    (p.pass i signal address mended).Inv found := by
  have hstray := h.stray_of_handling hcontrol
  by_cases hwritten : p.saved signal = none
  · rw [Process.pass, hwritten]
    exact h.place ⟨(h.sound i).current, (h.sound i).chained, trivial⟩ hstray.idle
      hstray.opened.symm
  · rw [pass_of_written h hwritten]
    exact h.hand hstray

theorem current_of_cut (ht : t.Sound) (hcut : cut t.stack = .scope frame body next :: rest) :
    t.current = some frame.place := by
  rw [ht.current, ← innermost_cut, hcut]
  rfl

theorem count_of_cut (h : p.Inv found)
    (hcut : cut (p.threads i).stack = .scope frame body next :: rest) : p.count ≠ 0 := by
  have hle := opened_le_count h i
  have hdepth := depth_le_opened (p.threads i)
  rw [← depth_cut, hcut] at hdepth
  have hpositive : depth (.scope frame body next :: rest) = depth rest + 1 := rfl
  omega

theorem deliver_of_inside (h : p.Inv found)
    (hcut : cut (p.threads i).stack = .scope frame body next :: rest) :
    p.deliver i signal address mended =
      if p.handed signal then { p with ended := some signal }
      else p.place i { p.threads i with
        stack := .scope { frame with signal := signal.number, address := Memory.told address } body
          next :: rest
        control := .landed } := by
  have haction := (h.minds.of_open (count_of_cut h hcut) signal).1
  rw [Process.inPlace] at haction
  rw [Process.deliver, haction]
  by_cases hhanded : p.handed signal = true
  · rw [if_pos hhanded, if_pos hhanded]
    exact meet_of_plain (h.minds.handed signal hhanded) ..
  · rw [if_neg hhanded, if_neg hhanded, current_of_cut (h.sound i) hcut]
    dsimp only
    rw [jump_eq signal address hcut]

theorem deliver_of_outside (h : p.Inv found) (hout : innermost (p.threads i).stack = none)
    (signal : Signal) (address : Nat) (mended : Code α) :
    p.deliver i signal address mended = p.meet (found signal) i signal address mended ∨
      p.actions signal = .guard ∧
        p.deliver i signal address mended = p.put i (.handling signal address mended) := by
  rw [Process.deliver]
  obtain haction | haction := h.minds.action signal
  · rw [haction]
    exact .inl rfl
  · rw [haction, (h.sound i).current, hout]
    exact .inr ⟨rfl, rfl⟩

theorem Process.Inv.deliver (h : p.Inv found)
    (hcontrol : (p.threads i).control = .running (.trap signal address mended)) :
    (p.deliver i signal address mended).Inv found := by
  cases hin : innermost (p.threads i).stack with
  | none =>
    have hstray := h.stray_of_trap hcontrol hin
    obtain hdeliver | ⟨haction, hdeliver⟩ := deliver_of_outside h hin signal address mended
    · rw [hdeliver]
      exact h.meet hstray ..
    · rw [hdeliver]
      exact h.place ⟨(h.sound i).current, (h.sound i).chained, hstray.outer, hstray.tracks⟩
        ⟨hstray.idle, h.minds.knows haction⟩ hstray.opened.symm
  | some k =>
    obtain ⟨frame, body, next, rest, hcut, -⟩ := cut_of_innermost hin
    have hcurrent := current_of_cut (h.sound i) hcut
    obtain ⟨-, hchained, hfollows⟩ := h.sound i
    have hagrees := h.agrees i
    rw [hcontrol] at hfollows hagrees
    change Tracks _ (Code.ending _ _) at hfollows
    have hwithin : within (p.threads i).stack = true := by rw [within, hin]; rfl
    rw [hwithin, Code.ending, if_pos rfl] at hfollows
    have htracks := hfollows.cut
    have hchain := hchained.cut
    rw [hcut] at htracks hchain
    rw [deliver_of_inside h hcut]
    split
    · exact h.ends signal
    · refine h.place ⟨hcurrent, hchain, htracks⟩ hagrees ?_
      rw [Thread.opened, Thread.opened, hcontrol]
      exact (congrArg depth hcut).symm.trans (depth_cut _)

end Trap

section Step

def Process.popped (i : Fin n) (body : Code α) (rest : List (Layer α))
    (result : Except Error (Except String α)) (after : Code α) (p : Process n α) : Process n α :=
  { p.place i ⟨innermost rest, rest, .closing after⟩ with returned := p.returned ++ [(body, result)] }

theorem pops_eq (ht : (p.threads i).Sound)
    (hstack : (p.threads i).stack = .scope frame body next :: rest)
    (result : Frame → Except Error (Except String α)) (after : Frame → Code α) :
    p.pops i body rest result after = p.popped i body rest (result frame) (after frame) := by
  have hchained := ht.chained
  rw [hstack] at hchained
  have hframe : (p.threads i).frame = some frame := by
    rw [Thread.frame, ht.current, hstack]
    exact if_pos rfl
  rw [Process.pops, hframe]
  dsimp only
  rw [hchained.2.1]
  rfl

theorem Process.Inv.popped (h : p.Inv found)
    (hstack : (p.threads i).stack = .scope frame body next :: rest)
    (hidle : p.workOf i = none) (hopened : (p.threads i).opened = depth (p.threads i).stack)
    {result : Except Error (Except String α)} (hresult : body.ending true = result)
    (hafter : Tracks rest (after.ending (within rest))) :
    (p.popped i body rest result after).Inv found := by
  have hchained := (h.sound i).chained
  rw [hstack] at hchained hopened
  refine h.moved (t := ⟨innermost rest, rest, .closing after⟩) rfl (congrArg (p.count + ·) hopened)
    ⟨h.minds.stages, h.minds.proper, h.minds.saved, h.minds.handed⟩ ⟨rfl, hchained.2.2, hafter⟩ hidle
    (fun _ _ => rfl) (fun _ hx => hx) fun x hx => ?_
  rcases List.mem_append.1 hx with hx | hx
  · exact h.returned x hx
  · rw [List.mem_singleton.1 hx]
    exact hresult

theorem Process.Inv.finish (h : p.Inv found) (hcontrol : (p.threads i).control = .running (.done r)) :
    (p.finish i r).Inv found := by
  obtain ⟨hcurrent, hchained, hfollows⟩ := h.sound i
  have hagrees := h.agrees i
  rw [hcontrol] at hfollows hagrees
  change Tracks _ (.ok r) at hfollows
  have hopened : (p.threads i).opened = depth (p.threads i).stack := by rw [Thread.opened, hcontrol]
  rw [Process.finish]
  cases hstack : (p.threads i).stack with
  | nil => exact h.place ⟨hcurrent, hchained, hstack⟩ hagrees hopened.symm
  | cons layer rest =>
    rw [hstack] at hcurrent hchained hfollows
    cases layer with
    | scope frame body next =>
      dsimp only
      rw [pops_eq (h.sound i) hstack]
      exact h.popped hstack hagrees hopened hfollows.1 hfollows.2
    | rescue next =>
      rw [hstack] at hopened
      exact h.place ⟨hcurrent, hchained, hfollows⟩ hagrees hopened.symm

theorem landed_stack (ht : t.Sound) (hcontrol : t.control = .landed) :
    ∃ frame body next rest, t.stack = .scope frame body next :: rest ∧
      Tracks (.scope frame body next :: rest) (.error (.fault frame.signal frame.address)) := by
  have hfollows := ht.follows
  rw [hcontrol] at hfollows
  cases hstack : t.stack with
  | nil =>
    rw [hstack] at hfollows
    exact hfollows.elim
  | cons layer rest =>
    rw [hstack] at hfollows
    cases layer with
    | scope frame body next => exact ⟨frame, body, next, rest, rfl, hfollows⟩
    | rescue next => exact hfollows.elim

theorem Process.Inv.land (h : p.Inv found) (hcontrol : (p.threads i).control = .landed) :
    (p.land i).Inv found := by
  have ht := h.sound i
  have hagrees := h.agrees i
  rw [hcontrol] at hagrees
  obtain ⟨frame, body, next, rest, hstack, hfollows⟩ := landed_stack ht hcontrol
  rw [Process.land, hstack]
  dsimp only
  rw [pops_eq ht hstack]
  exact h.popped hstack hagrees (by rw [Thread.opened, hcontrol]) hfollows.1 hfollows.2

theorem Process.Inv.rescue {next : Except String α → Code α} (h : p.Inv found)
    (hcontrol : (p.threads i).control = .running (.rescue body next)) :
    (p.place i { p.threads i with stack := .rescue next :: (p.threads i).stack
                                  control := .running body }).Inv found := by
  obtain ⟨hcurrent, hchained, hfollows⟩ := h.sound i
  have hagrees := h.agrees i
  rw [hcontrol] at hfollows hagrees
  change Tracks _ _ at hfollows
  rw [ending_rescue] at hfollows
  exact h.place ⟨hcurrent, hchained, hfollows⟩ hagrees (by rw [Thread.opened, Thread.opened, hcontrol]; rfl)

theorem Process.Inv.advance (h : p.Inv found) (i : Fin n) : (p.advance i).Inv found := by
  have hagrees := h.agrees i
  rw [Process.advance]
  cases hcontrol : (p.threads i).control with
  | outside => exact h
  | astray => exact h
  | lost => exact h
  | landed => exact h.land hcontrol
  | handling signal address mended => exact h.pass hcontrol
  | opening body next =>
    rw [hcontrol] at hagrees
    obtain ⟨signals, hwork | ⟨signal, old, hwork⟩⟩ := hagrees
    · have hlock := held_of_workOf hwork
      rw [hlock]
      exact h.exchanging hlock
    · have hlock := held_of_workOf hwork
      rw [hlock]
      exact h.saving hlock
  | restoring after =>
    rw [hcontrol] at hagrees
    obtain ⟨signals, hwork⟩ := hagrees
    have hlock := held_of_workOf hwork
    rw [hlock]
    exact h.restoring hlock
  | closing after =>
    cases hlock : p.lock with
    | none => exact h.leaves hlock hcontrol
    | some held => exact h
  | running c =>
    cases c with
    | done r => exact h.finish hcontrol
    | trap signal address mended => exact h.deliver hcontrol
    | rescue body next => exact h.rescue hcontrol
    | scope body next =>
      cases hlock : p.lock with
      | none => exact h.enters hlock hcontrol
      | some held => exact h

theorem Process.Inv.call (h : p.Inv found) (i : Fin n) (c : Code α) : (p.call i c).Inv found := by
  obtain ⟨hcurrent, hchained, hfollows⟩ := h.sound i
  have hagrees := h.agrees i
  rw [Process.call]
  split
  · next hcontrol =>
    rw [hcontrol] at hfollows hagrees
    have hstack : (p.threads i).stack = [] := hfollows
    refine h.place ⟨hcurrent, hchained, ?_⟩ hagrees (by rw [Thread.opened, Thread.opened, hcontrol])
    show Tracks (p.threads i).stack _
    rw [hstack]
    trivial
  · exact h

theorem Process.Inv.mend (h : p.Inv found) (i : Fin n) : (p.mend i).Inv found := by
  rw [Process.mend]
  split
  · next hcontrol hcurrent =>
    rw [(h.sound i).current] at hcurrent
    exact h.mends (h.stray_of_trap hcontrol hcurrent)
  · exact h

theorem step_advance (h : p.ended = none) (i : Fin n) : p.step (.advance i) = p.advance i := by
  rw [Process.step.eq_def, h]

theorem Process.Inv.step (h : p.Inv found) (m : Move n α) : (p.step m).Inv found := by
  rw [Process.step.eq_def]
  cases p.ended with
  | some signal => exact h
  | none =>
    cases m with
    | call i c => exact h.call i c
    | advance i => exact h.advance i
    | mend i => exact h.mend i

theorem Process.Inv.run (h : p.Inv found) (ms : List (Move n α)) : (p.run ms).Inv found := by
  induction ms generalizing p with
  | nil => exact h
  | cons m ms ih => exact ih (h.step m)

theorem inv_fresh (found : Signal → Foreign) : (Process.fresh found : Process n α).Inv found := by
  refine ⟨?_, ⟨fun _ => rfl, fun _ _ hlock => (by cases hlock), fun _ _ hsaved => (by cases hsaved),
    fun _ hhanded => (by cases hhanded)⟩, fun _ => rfl, fun _ => ⟨rfl, trivial, rfl⟩,
    fun x hx => (List.not_mem_nil hx).elim⟩
  exact (Finset.sum_eq_zero fun _ _ => rfl).symm

end Step

end RemoteAgent.Fault
