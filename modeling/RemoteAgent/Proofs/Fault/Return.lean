import RemoteAgent.Proofs.Fault.Nesting

/-! Whoever has opened a scope comes out of it again. A thread stays where it is while others move; who
has the lock lets go of it; and a thread that is then left alone comes to the end of its code, of the
calls around that, and so out of all scopes, unless a trap ends the process. -/

namespace RemoteAgent.Fault

open RemoteAgent.Action

variable {n : Nat} {α : Type} {found : Signal → Foreign} {p q : Process n α} {i j : Fin n}
  {t : Thread α} {stack rest : List (Layer α)} {frame : Frame} {body c mended after : Code α}
  {next : Except Error α → Code α} {r : Except String α} {signal : Signal} {address : Nat}
  {m : Move n α}

section Closed

theorem step_of_done (h : p.Inv found) (hended : p.ended = none)
    (hcontrol : (p.threads i).control = .running (.done r))
    (hstack : (p.threads i).stack = .scope frame body next :: rest) :
    p.step (.advance i) = p.popped i body rest (.ok r) (.resume next r) := by
  rw [step_advance hended, Process.advance, hcontrol]
  dsimp only
  rw [Process.finish, hstack]
  exact pops_eq (h.sound i) hstack (fun _ => .ok r) fun _ => .resume next r

theorem step_of_landed (h : p.Inv found) (hended : p.ended = none)
    (hcontrol : (p.threads i).control = .landed)
    (hstack : (p.threads i).stack = .scope frame body next :: rest) :
    p.step (.advance i) = p.popped i body rest (.error (.fault frame.signal frame.address))
      (next (.error (.fault frame.signal frame.address))) := by
  rw [step_advance hended, Process.advance, hcontrol]
  dsimp only
  rw [Process.land, hstack]
  exact pops_eq (h.sound i) hstack (fun frame => .error (.fault frame.signal frame.address))
    fun frame => next (.error (.fault frame.signal frame.address))

theorem step_of_trap (hended : p.ended = none)
    (hcontrol : (p.threads i).control = .running (.trap signal address mended)) :
    p.step (.advance i) = p.deliver i signal address mended := by
  rw [step_advance hended, Process.advance, hcontrol]

theorem step_of_handling (hended : p.ended = none)
    (hcontrol : (p.threads i).control = .handling signal address mended) :
    p.step (.advance i) = p.pass i signal address mended := by
  rw [step_advance hended, Process.advance, hcontrol]

end Closed

section Others

theorem threads_pops (hij : j ≠ i) (body : Code α) (rest : List (Layer α))
    (result : Frame → Except Error (Except String α)) (after : Frame → Code α) (p : Process n α) :
    (p.pops i body rest result after).threads j = p.threads j := by
  rw [Process.pops]
  split
  · exact threads_place_ne hij ..
  · exact threads_place_ne hij ..

theorem threads_meet (hij : j ≠ i) (f : Foreign) (signal : Signal) (address : Nat)
    (mended : Code α) (p : Process n α) :
    (p.meet f i signal address mended).threads j = p.threads j := by
  cases f with
  | standard => rfl
  | ignored => rfl
  | handler id takesInfo => exact threads_place_ne hij ..

theorem threads_pass (hij : j ≠ i) (signal : Signal) (address : Nat) (mended : Code α)
    (p : Process n α) : (p.pass i signal address mended).threads j = p.threads j := by
  rw [Process.pass]
  split
  · rw [Process.hand]
    split
    · exact threads_place_ne hij ..
    · exact threads_meet hij ..
  · exact threads_place_ne hij ..
  · exact threads_place_ne hij ..

theorem threads_deliver (hij : j ≠ i) (signal : Signal) (address : Nat) (mended : Code α)
    (p : Process n α) : (p.deliver i signal address mended).threads j = p.threads j := by
  rw [Process.deliver]
  split
  · exact threads_meet hij ..
  · split
    · split
      · exact threads_place_ne hij ..
      · exact threads_place_ne hij ..
    · exact threads_place_ne hij ..

theorem threads_work (hij : j ≠ i) (w : Work) (p : Process n α) :
    (p.work i w).threads j = p.threads j := by
  rw [Process.work.eq_def]
  split
  · rfl
  · rfl
  · rfl
  · split
    · exact threads_place_ne hij ..
    · rfl
  · split
    · exact threads_place_ne hij ..
    · rfl

theorem threads_advance (hij : j ≠ i) (p : Process n α) :
    (p.advance i).threads j = p.threads j := by
  rw [Process.advance]
  split
  · rw [Process.finish]
    split
    · exact threads_place_ne hij ..
    · exact threads_pops hij ..
    · exact threads_place_ne hij ..
  · exact threads_deliver hij ..
  · rw [Process.enters]
    split
    · exact threads_place_ne hij ..
    · exact threads_place_ne hij ..
  · rfl
  · exact threads_place_ne hij ..
  · exact threads_work hij ..
  · rw [Process.land]
    split
    · exact threads_pops hij ..
    · exact threads_place_ne hij ..
  · rw [Process.leaves]
    split
    · exact threads_place_ne hij ..
    · exact threads_place_ne hij ..
  · rfl
  · exact threads_work hij ..
  · exact threads_pass hij ..
  · rfl

theorem threads_step (hm : m.thread ≠ j) (p : Process n α) :
    (p.step m).threads j = p.threads j := by
  rw [Process.step.eq_def]
  split
  · rfl
  · cases m with
    | call i c =>
      dsimp only
      rw [Process.call]
      split
      · exact threads_place_ne hm.symm ..
      · rfl
    | advance i => exact threads_advance hm.symm p
    | mend i =>
      dsimp only
      rw [Process.mend]
      split
      · exact threads_place_ne hm.symm ..
      · rfl

theorem threads_run {ms : List (Move n α)} (hms : ∀ m ∈ ms, m.thread ≠ j) (p : Process n α) :
    (p.run ms).threads j = p.threads j := by
  induction ms generalizing p with
  | nil => rfl
  | cons m ms ih =>
    obtain ⟨hm, hms⟩ := List.forall_mem_cons.1 hms
    exact (ih hms (p.step m)).trans (threads_step hm p)

end Others

def Process.Comes (i : Fin n) (goal : Process n α → Prop) (p : Process n α) : Prop :=
  ∃ k, goal (p.run (List.replicate k (.advance i)))

structure Process.Free (found : Signal → Foreign) (p : Process n α) : Prop where
  inv : p.Inv found
  lock : p.lock = none

/-- A thread has got to a point, and others may have the lock. -/
structure Process.Ready (found : Signal → Foreign) (i : Fin n) (t : Thread α) (count : Nat)
    (p : Process n α) : Prop extends p.Free found where
  thread : p.threads i = t
  count : p.count = count
  ended : p.ended = none

section Comes

variable {goal goal' : Process n α → Prop} {signals : List Signal}

theorem comes_of (h : goal p) : p.Comes i goal := ⟨0, h⟩

theorem comes_of_step (h : (p.step (.advance i)).Comes i goal) : p.Comes i goal := by
  obtain ⟨k, hk⟩ := h
  exact ⟨k + 1, hk⟩

theorem Process.Comes.bind (h : p.Comes i goal) (hgoal : ∀ q, goal q → q.Comes i goal') :
    p.Comes i goal' := by
  obtain ⟨k, hk⟩ := h
  obtain ⟨l, hl⟩ := hgoal _ hk
  refine ⟨k + l, ?_⟩
  rw [List.replicate_add, Process.run, List.foldl_append]
  exact hl

theorem step_of_opening (hended : p.ended = none) {w : Work} (hlock : p.lock = some (i, w))
    (hcontrol : (p.threads i).control = .opening body next) : p.step (.advance i) = p.work i w := by
  rw [step_advance hended, Process.advance, hcontrol, hlock]

theorem step_of_restoring (hended : p.ended = none) {w : Work} (hlock : p.lock = some (i, w))
    (hcontrol : (p.threads i).control = .restoring after) : p.step (.advance i) = p.work i w := by
  rw [step_advance hended, Process.advance, hcontrol, hlock]

theorem comes_of_exchanging (h : p.Inv found) (hended : p.ended = none)
    (hlock : p.lock = some (i, .exchanging signals))
    (hcontrol : (p.threads i).control = .opening body next) :
    p.Comes i (Process.Ready found i ((p.threads i).enclosed body next) (p.count + 1)) := by
  induction signals generalizing p with
  | nil =>
    have hstep := step_of_opening hended hlock hcontrol
    have hinv := h.step (.advance i)
    rw [hstep] at hinv
    refine comes_of_step (comes_of ?_)
    rw [hstep]
    rw [Process.work, hcontrol] at hinv ⊢
    exact ⟨⟨hinv, rfl⟩, threads_place_self .., rfl, hended⟩
  | cons signal signals ih =>
    have hstep := step_of_opening hended hlock hcontrol
    have hinv := h.step (.advance i)
    rw [hstep] at hinv
    have hlater := hinv.step (.advance i)
    rw [step_of_opening (p := p.work i (.exchanging (signal :: signals))) hended rfl hcontrol]
      at hlater
    refine comes_of_step (comes_of_step ?_)
    rw [hstep,
      step_of_opening (p := p.work i (.exchanging (signal :: signals))) hended rfl hcontrol]
    exact ih hlater hended rfl hcontrol

theorem comes_of_saving (h : p.Inv found) (hended : p.ended = none) {old : Disposition}
    (hlock : p.lock = some (i, .saving signal old signals))
    (hcontrol : (p.threads i).control = .opening body next) :
    p.Comes i (Process.Ready found i ((p.threads i).enclosed body next) (p.count + 1)) := by
  have hstep := step_of_opening hended hlock hcontrol
  have hinv := h.step (.advance i)
  rw [hstep] at hinv
  refine comes_of_step ?_
  rw [hstep]
  exact comes_of_exchanging hinv hended rfl hcontrol

theorem comes_of_restoring (h : p.Inv found) (hended : p.ended = none)
    (hlock : p.lock = some (i, .restoring signals))
    (hcontrol : (p.threads i).control = .restoring after) :
    p.Comes i (Process.Ready found i { p.threads i with control := .running after } p.count) := by
  induction signals generalizing p with
  | nil =>
    have hstep := step_of_restoring hended hlock hcontrol
    have hinv := h.step (.advance i)
    rw [hstep] at hinv
    refine comes_of_step (comes_of ?_)
    rw [hstep]
    rw [Process.work, hcontrol] at hinv ⊢
    exact ⟨⟨hinv, rfl⟩, threads_place_self .., rfl, hended⟩
  | cons signal signals ih =>
    have hstep := step_of_restoring hended hlock hcontrol
    have hinv := h.step (.advance i)
    rw [hstep] at hinv
    refine comes_of_step ?_
    rw [hstep]
    exact ih hinv hended rfl hcontrol

theorem comes_enclosed (h : p.Free found) (hended : p.ended = none)
    (hcontrol : (p.threads i).control = .running (.scope body next)) :
    p.Comes i (Process.Ready found i ((p.threads i).enclosed body next) (p.count + 1)) := by
  have hstep : p.step (.advance i) = p.enters i body next := by
    rw [step_advance hended, Process.advance, hcontrol, h.lock]
  have hinv := h.inv.step (.advance i)
  rw [hstep] at hinv
  refine comes_of_step ?_
  rw [hstep]
  rw [Process.enters] at hinv ⊢
  split at hinv
  · next hcount =>
    rw [if_pos hcount]
    have hopening := threads_place_self i { p.threads i with control := .opening body next }
      { p with lock := some (i, .exchanging [.segmentation, .bus]) }
    have hcomes := comes_of_exchanging hinv hended rfl (congrArg Thread.control hopening)
    rw [Process.put] at hcomes
    rw [hopening] at hcomes
    exact hcomes
  · next hcount =>
    rw [if_neg hcount]
    exact comes_of ⟨⟨hinv, h.lock⟩, threads_place_self .., rfl, hended⟩

theorem comes_closed (h : p.Free found) (hended : p.ended = none)
    (hcontrol : (p.threads i).control = .closing after) :
    p.Comes i
      (Process.Ready found i { p.threads i with control := .running after } (p.count - 1)) := by
  have hstep : p.step (.advance i) = p.leaves i after := by
    rw [step_advance hended, Process.advance, hcontrol, h.lock]
  have hinv := h.inv.step (.advance i)
  rw [hstep] at hinv
  refine comes_of_step ?_
  rw [hstep]
  rw [Process.leaves] at hinv ⊢
  split at hinv
  · next hcount =>
    rw [if_pos hcount]
    have hrestoring := threads_place_self i { p.threads i with control := .restoring after }
      { p with count := 0, lock := some (i, .restoring [.segmentation, .bus]) }
    have hcomes := comes_of_restoring hinv hended rfl (congrArg Thread.control hrestoring)
    rw [Process.put] at hcomes
    rw [hrestoring] at hcomes
    rw [hcount]
    exact hcomes
  · next hcount =>
    rw [if_neg hcount]
    exact comes_of ⟨⟨hinv, h.lock⟩, threads_place_self .., rfl, hended⟩

theorem comes_free (h : p.Inv found) (hended : p.ended = none) {w : Work}
    (hlock : p.lock = some (i, w)) : p.Comes i (Process.Free found) := by
  have hfree : ∀ {t k}, p.Comes i (Process.Ready found i t k) → p.Comes i (Process.Free found) :=
    fun hcomes => hcomes.bind fun q hq => comes_of hq.toFree
  cases w with
  | exchanging signals =>
    obtain ⟨body, next, hcontrol⟩ := opening_of_exchanging h hlock fun _ => Work.noConfusion
    exact hfree (comes_of_exchanging h hended hlock hcontrol)
  | saving signal old signals =>
    obtain ⟨body, next, hcontrol⟩ := opening_of_exchanging h hlock fun _ => Work.noConfusion
    exact hfree (comes_of_saving h hended hlock hcontrol)
  | restoring signals =>
    obtain ⟨after, hcontrol⟩ := restoring_of_restoring h hlock
    exact hfree (comes_of_restoring h hended hlock hcontrol)

end Comes

section Stray

def Process.Mended (found : Signal → Foreign) (i : Fin n) (t : Thread α) (mended : Code α)
    (q : Process n α) : Prop :=
  q.Free found ∧ (q.ended ≠ none ∨ q.threads i = { t with control := .running mended })

theorem mended_of_meet (h : p.Free found) (hstray : p.Stray i mended) :
    (p.meet (found signal) i signal address mended).Mended found i (p.threads i) mended := by
  have hinv := h.inv.meet hstray (found signal) signal address
  cases hf : found signal with
  | handler id takesInfo =>
    rw [hf] at hinv
    exact ⟨⟨hinv, h.lock⟩, .inr (threads_place_self ..)⟩
  | _ =>
    rw [hf] at hinv
    exact ⟨⟨hinv, h.lock⟩, .inl (Option.some_ne_none _)⟩

theorem pass_of_free (h : p.Free found)
    (hcontrol : (p.threads i).control = .handling signal address mended) :
    p.pass i signal address mended = p.hand (found signal) i signal address mended := by
  have hagrees := h.inv.agrees i
  rw [hcontrol] at hagrees
  refine pass_of_written h.inv (hagrees.2.written fun hunsaved => ?_)
  obtain ⟨j, old, todo, hlock⟩ := holder_of_unsaved hunsaved
  cases h.lock.symm.trans hlock

theorem comes_ended (h : p.Free found) (hended : p.ended = none)
    (hcontrol : (p.threads i).control = .running (.trap signal address mended)) {f : Foreign}
    (haction : p.actions signal = .foreign f) (hplain : f.isPlain = true) :
    p.Comes i (Process.Mended found i t mended) := by
  refine comes_of_step (comes_of ?_)
  rw [step_of_trap hended hcontrol, Process.deliver, haction]
  dsimp only
  rw [meet_of_plain hplain]
  exact ⟨⟨h.inv.ends signal, h.lock⟩, .inl (Option.some_ne_none _)⟩

theorem comes_mended_of_handling (h : p.Free found) (hended : p.ended = none)
    (hcontrol : (p.threads i).control = .handling signal address mended) :
    p.Comes i (Process.Mended found i (p.threads i) mended) := by
  have hstray := h.inv.stray_of_handling hcontrol
  have hstep := step_of_handling hended hcontrol
  rw [pass_of_free h hcontrol] at hstep
  have hinv := h.inv.step (.advance i)
  refine comes_of_step ?_
  rw [hstep] at hinv ⊢
  rw [Process.hand] at hinv ⊢
  split at hinv
  · next hplain =>
    rw [if_pos hplain]
    -- the access is made again, and meets what was put back
    exact comes_ended ⟨hinv, h.lock⟩ hended (congrArg Thread.control (threads_place_self ..))
      (Function.update_self ..) hplain
  · next hplain =>
    rw [if_neg hplain]
    exact comes_of (mended_of_meet h hstray)

theorem comes_mended_of_trap (h : p.Free found) (hended : p.ended = none)
    (hcontrol : (p.threads i).control = .running (.trap signal address mended))
    (hout : innermost (p.threads i).stack = none) :
    p.Comes i (Process.Mended found i (p.threads i) mended) := by
  have hstray := h.inv.stray_of_trap hcontrol hout
  have hstep := step_of_trap hended hcontrol
  have hinv := h.inv.step (.advance i)
  refine comes_of_step ?_
  rw [hstep] at hinv ⊢
  obtain hdeliver | ⟨-, hdeliver⟩ := deliver_of_outside h.inv hout signal address mended
  · rw [hdeliver]
    exact comes_of (mended_of_meet h hstray)
  · rw [hdeliver] at hinv ⊢
    have hthread := threads_place_self i
      { p.threads i with control := .handling signal address mended } p
    have hcomes := comes_mended_of_handling ⟨hinv, h.lock⟩ hended (congrArg Thread.control hthread)
    rw [Process.put] at hcomes
    rw [hthread] at hcomes
    exact hcomes

end Stray

section Home

/-- The code on top of a stack has come to its end, by itself or by a trap in the scope around it; or
the process has. -/
inductive Process.Settles (i : Fin n) (stack : List (Layer α)) (q : Process n α) : Prop where
  | ended (hended : q.ended ≠ none)
  | done (r : Except String α) (hcontrol : (q.threads i).control = .running (.done r))
    (hstack : (q.threads i).stack = stack)
  | trapped (frame frame' : Frame) (body : Code α) (next : Except Error α → Code α)
    (rest : List (Layer α)) (hcontrol : (q.threads i).control = .landed)
    (hstack : (q.threads i).stack = .scope frame' body next :: rest)
    (hcut : cut stack = .scope frame body next :: rest)

theorem comes_settles_of_step (h : p.Free found) (hstep : p.ended = none →
    p.Comes i fun q => q.Free found ∧ q.Settles i stack) :
    p.Comes i fun q => q.Free found ∧ q.Settles i stack := by
  by_cases hended : p.ended = none
  · exact hstep hended
  · exact comes_of ⟨h, .ended hended⟩

theorem thread_of_rescue {next : Except String α → Code α} (hended : p.ended = none)
    (hcontrol : (p.threads i).control = .running (.rescue body next)) :
    p.step (.advance i) = p.place i { p.threads i with
      stack := .rescue next :: (p.threads i).stack, control := .running body } := by
  rw [step_advance hended, Process.advance, hcontrol]

theorem thread_of_rescued {next : Except String α → Code α} (hended : p.ended = none)
    (hcontrol : (p.threads i).control = .running (.done r))
    (hstack : (p.threads i).stack = .rescue next :: rest) :
    p.step (.advance i) =
      p.place i { p.threads i with stack := rest, control := .running (next r) } := by
  rw [step_advance hended, Process.advance, hcontrol]
  dsimp only
  rw [Process.finish, hstack]

theorem comes_onward (h : p.Free found) (hended : p.ended = none)
    {result : Except Error (Except String α)}
    (hstep : p.step (.advance i) = p.popped i body rest result after) :
    p.Comes i fun q => q.Free found ∧ q.threads i = ⟨innermost rest, rest, .running after⟩ := by
  have hinv := h.inv.step (.advance i)
  refine comes_of_step ?_
  rw [hstep] at hinv ⊢
  have hthread := threads_place_self i ⟨innermost rest, rest, .closing after⟩ p
  refine (comes_closed ⟨hinv, h.lock⟩ hended (congrArg Thread.control hthread)).bind
    fun q hq => comes_of ⟨hq.toFree, ?_⟩
  have hlast := hq.thread
  rw [Process.popped] at hlast
  dsimp only at hlast
  rw [hthread] at hlast
  exact hlast

/-- From wherever nobody has the lock, a thread that runs this code gets to its end. -/
def Code.Settling (found : Signal → Foreign) (i : Fin n) (c : Code α) : Prop :=
  ∀ p : Process n α, p.Free found → (p.threads i).control = .running c →
    p.Comes i fun q => q.Free found ∧ q.Settles i (p.threads i).stack

theorem Code.Settling.comes {current : Option Nat} (hc : c.Settling found i) (h : p.Free found)
    (hthread : p.threads i = ⟨current, stack, .running c⟩) :
    p.Comes i fun q => q.Free found ∧ q.Settles i stack := by
  have hcomes := hc p h (by rw [hthread])
  rw [hthread] at hcomes
  exact hcomes

theorem settling_trap (hmended : mended.Settling found i) :
    (Code.trap signal address mended).Settling found i := by
  intro p h hcontrol
  refine comes_settles_of_step h fun hended => ?_
  cases hin : innermost (p.threads i).stack with
  | none =>
    refine (comes_mended_of_trap h hended hcontrol hin).bind fun q hq => ?_
    obtain ⟨hq, hover | hthread⟩ := hq
    · exact comes_of ⟨hq, .ended hover⟩
    · exact hmended.comes hq hthread
  | some k =>
    obtain ⟨frame, body, next, rest, hcut, -⟩ := cut_of_innermost hin
    have hinv := h.inv.step (.advance i)
    have hstep := step_of_trap hended hcontrol
    rw [deliver_of_inside h.inv hcut] at hstep
    refine comes_of_step (comes_of ?_)
    rw [hstep] at hinv ⊢
    split at hinv
    · next hhanded =>
      rw [if_pos hhanded]
      exact ⟨⟨hinv, h.lock⟩, .ended (Option.some_ne_none _)⟩
    · next hhanded =>
      rw [if_neg hhanded]
      exact ⟨⟨hinv, h.lock⟩, .trapped frame _ body next rest
        (congrArg Thread.control (threads_place_self ..))
        (congrArg Thread.stack (threads_place_self ..)) hcut⟩

theorem settling_scope {next : Except Error α → Code α} (hbody : body.Settling found i)
    (hnext : ∀ x, (next x).Settling found i) : (Code.scope body next).Settling found i := by
  intro p h hcontrol
  refine comes_settles_of_step h fun hended => (comes_enclosed h hended hcontrol).bind fun q hq => ?_
  refine (hbody.comes hq.toFree hq.thread).bind fun q hq => ?_
  obtain ⟨hq, hsettles⟩ := hq
  refine comes_settles_of_step hq fun hended => ?_
  have hreturned : ∀ {x result},
      q.step (.advance i) = q.popped i body (p.threads i).stack result (next x) →
      q.Comes i fun q => q.Free found ∧ q.Settles i (p.threads i).stack := fun {x _} hstep =>
    (comes_onward hq hended hstep).bind fun q hq => (hnext x).comes hq.1 hq.2
  cases hsettles with
  | ended hover => exact (hover hended).elim
  | done r hcontrol hlast =>
    have hstep := step_of_done hq.inv hended hcontrol hlast
    cases r with
    | ok v => exact hreturned hstep
    | error text =>
      refine (comes_onward hq hended hstep).bind fun q hq => comes_of ⟨hq.1, ?_⟩
      exact .done (.error text) (by rw [hq.2]; rfl) (by rw [hq.2])
  | trapped frame frame' body' next' rest hcontrol hlast hcut =>
    change Layer.scope _ body next :: (p.threads i).stack = _ at hcut
    cases hcut
    exact hreturned (step_of_landed hq.inv hended hcontrol hlast)

theorem settling_rescue {next : Except String α → Code α} (hbody : body.Settling found i)
    (hnext : ∀ r, (next r).Settling found i) : (Code.rescue body next).Settling found i := by
  intro p h hcontrol
  refine comes_settles_of_step h fun hended => comes_of_step ?_
  have hinv := h.inv.step (.advance i)
  rw [thread_of_rescue hended hcontrol] at hinv ⊢
  refine (hbody.comes ⟨hinv, h.lock⟩ (threads_place_self ..)).bind fun q hq => ?_
  obtain ⟨hq, hsettles⟩ := hq
  cases hsettles with
  | ended hover => exact comes_of ⟨hq, .ended hover⟩
  | trapped frame frame' body' next' rest hcontrol hlast hcut =>
    exact comes_of ⟨hq, .trapped frame frame' body' next' rest hcontrol hlast hcut⟩
  | done r hcontrol hlast =>
    refine comes_settles_of_step hq fun hended => comes_of_step ?_
    have hinv := hq.inv.step (.advance i)
    rw [thread_of_rescued hended hcontrol hlast] at hinv ⊢
    exact (hnext r).comes ⟨hinv, hq.lock⟩ (threads_place_self ..)

theorem settling (found : Signal → Foreign) (i : Fin n) (c : Code α) : c.Settling found i := by
  induction c with
  | done r => exact fun p h hcontrol => comes_of ⟨h, .done r hcontrol rfl⟩
  | trap signal address mended ih => exact settling_trap ih
  | scope body next ihbody ihnext => exact settling_scope ihbody ihnext
  | rescue body next ihbody ihnext => exact settling_rescue ihbody ihnext

def Process.Home (i : Fin n) (q : Process n α) : Prop :=
  q.ended ≠ none ∨ (q.threads i).control = .outside

theorem comes_home_of_step (hstep : p.ended = none → p.Comes i (Process.Home i)) :
    p.Comes i (Process.Home i) := by
  by_cases hended : p.ended = none
  · exact hstep hended
  · exact comes_of (.inl hended)

theorem length_cut_le (stack : List (Layer α)) : (cut stack).length ≤ stack.length := by
  induction stack with
  | nil => exact Nat.le_refl _
  | cons layer r ih =>
    cases layer with
    | scope frame body next => exact Nat.le_refl _
    | rescue next => exact Nat.le_succ_of_le ih

theorem comes_home_of_running (h : p.Free found) (hcontrol : (p.threads i).control = .running c) :
    p.Comes i (Process.Home i) := by
  -- each time, the code comes to its end and its caller goes on with less of a stack
  induction hk : (p.threads i).stack.length using Nat.strong_induction_on generalizing p c with
  | _ k ih =>
    refine (settling found i c p h hcontrol).bind fun q hq => ?_
    obtain ⟨hq, hsettles⟩ := hq
    refine comes_home_of_step fun hended => ?_
    have hrest : ∀ {body rest result after}, rest.length < (p.threads i).stack.length →
        q.step (.advance i) = q.popped i body rest result after → q.Comes i (Process.Home i) := by
      intro body rest result after hlt hstep
      refine (comes_onward hq hended hstep).bind fun q hq => ?_
      exact ih rest.length (hk ▸ hlt) hq.1 (by rw [hq.2]) (by rw [hq.2])
    cases hsettles with
    | ended hover => exact (hover hended).elim
    | trapped frame frame' body next rest hcontrol hlast hcut =>
      have hle := length_cut_le (p.threads i).stack
      rw [hcut] at hle
      exact hrest hle (step_of_landed hq.inv hended hcontrol hlast)
    | done r hcontrol hlast =>
      cases hstack : (p.threads i).stack with
      | nil =>
        rw [hstack] at hlast
        refine comes_of_step (comes_of (.inr ?_))
        rw [step_advance hended, Process.advance, hcontrol]
        dsimp only
        rw [Process.finish, hlast]
        exact congrArg Thread.control (threads_place_self ..)
      | cons layer rest =>
        rw [hstack] at hlast
        have hlt : rest.length < (p.threads i).stack.length := by
          rw [hstack]
          exact Nat.lt_succ_self _
        cases layer with
        | scope frame body next =>
          exact hrest hlt (step_of_done hq.inv hended hcontrol hlast)
        | rescue next =>
          have hinv := hq.inv.step (.advance i)
          refine comes_of_step ?_
          rw [thread_of_rescued hended hcontrol hlast] at hinv ⊢
          exact ih rest.length (hk ▸ hlt) ⟨hinv, hq.lock⟩
            (congrArg Thread.control (threads_place_self ..))
            (by rw [threads_place_self])

theorem Process.Inv.comes_home (h : p.Inv found) (hlock : ∀ j w, p.lock = some (j, w) → j = i)
    (hastray : (p.threads i).isAstray = false) : p.Comes i (Process.Home i) := by
  refine comes_home_of_step fun hended => ?_
  have hagrees := h.agrees i
  have hfollows := (h.sound i).follows
  have hfree : p.workOf i = none → p.Free found := by
    intro hidle
    refine ⟨h, ?_⟩
    cases hheld : p.lock with
    | none => rfl
    | some held =>
      obtain rfl := hlock held.1 held.2 hheld
      cases hidle.symm.trans (workOf_of_held hheld)
  have hready : ∀ {t k c}, p.Comes i (Process.Ready found i t k) → t.control = .running c →
      p.Comes i (Process.Home i) := fun hcomes hcontrol =>
    hcomes.bind fun q hq => comes_home_of_running hq.toFree (by rw [hq.thread, hcontrol])
  cases hcontrol : (p.threads i).control with
  | outside => exact comes_of (.inr hcontrol)
  | astray =>
    rw [Thread.isAstray, hcontrol] at hastray
    cases hastray
  | lost =>
    rw [hcontrol] at hfollows
    exact hfollows.elim
  | running c =>
    rw [hcontrol] at hagrees
    exact comes_home_of_running (hfree hagrees) hcontrol
  | opening body next =>
    rw [hcontrol] at hagrees
    obtain ⟨signals, hwork | ⟨signal, old, hwork⟩⟩ := hagrees
    · exact hready (comes_of_exchanging h hended (held_of_workOf hwork) hcontrol) rfl
    · exact hready (comes_of_saving h hended (held_of_workOf hwork) hcontrol) rfl
  | restoring after =>
    rw [hcontrol] at hagrees
    obtain ⟨signals, hwork⟩ := hagrees
    exact hready (comes_of_restoring h hended (held_of_workOf hwork) hcontrol) rfl
  | closing after =>
    rw [hcontrol] at hagrees
    exact hready (comes_closed (hfree hagrees) hended hcontrol) rfl
  | handling signal address mended =>
    rw [hcontrol] at hagrees
    refine (comes_mended_of_handling (hfree hagrees.1) hended hcontrol).bind fun q hq => ?_
    obtain ⟨hq, hover | hthread⟩ := hq
    · exact comes_of (.inl hover)
    · exact comes_home_of_running hq (by rw [hthread])
  | landed =>
    rw [hcontrol] at hagrees
    obtain ⟨frame, body, next, rest, hstack, -⟩ := landed_stack (h.sound i) hcontrol
    refine (comes_onward (hfree hagrees) hended (step_of_landed h hended hcontrol hstack)).bind
      fun q hq => comes_home_of_running hq.1 (by rw [hq.2])

end Home

end RemoteAgent.Fault
