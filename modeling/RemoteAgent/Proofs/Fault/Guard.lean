import RemoteAgent.Proofs.Fault.Bodies
import RemoteAgent.Proofs.Fault.Return

/-! What the guard promises. A trap in a scope ends that scope and no other, and the caller goes on with
the error; a panic passes through scopes and closes them; a trap outside of scopes is for whoever had
the signal before, and if that was no handler, the guard puts back what it found. -/

namespace RemoteAgent.Fault

open RemoteAgent.Action

variable {n : Nat} {α : Type} {found : Signal → Foreign} {p : Process n α} {i : Fin n}
  {rest : List (Layer α)} {frame : Frame} {body mended : Code α} {next : Except Error α → Code α}
  {signal : Signal} {address : Nat}

/-- The books of the guard are in order, and what it promises holds. -/
structure Process.Orderly (found : Signal → Foreign) (p : Process n α) : Prop where
  count : p.count = ∑ i, (p.threads i).opened
  -- the actions, with no regard to the lock: in place as long as a scope is open
  actions : ∀ signal, p.actions signal = .foreign (found signal) ∨ p.actions signal = .guard
  guarded : p.count ≠ 0 → p.lock = none ∧ ∀ signal,
    p.actions signal = (if p.handed signal then .foreign (found signal) else .guard) ∧
      p.saved signal = some (.foreign (found signal))
  idle : p.count = 0 → p.lock = none → ∀ signal, p.actions signal = .foreign (found signal)
  -- an action is put back early only if it is no handler, and for a trap outside of scopes
  handed : ∀ signal, p.handed signal = true → (found signal).isPlain = true
  hands : ∀ m signal, (p.step m).handed signal = true → p.handed signal = true ∨
    (∃ address mended, (p.threads m.thread).control = .handling signal address mended) ∧
      innermost (p.threads m.thread).stack = none
  current : ∀ i, (p.threads i).current = innermost (p.threads i).stack ∧ Chained (p.threads i).stack
  alive : ∀ i, (p.threads i).control ≠ .lost
  opens : ∀ i body next, p.ended = none → p.lock = none →
    (p.threads i).control = .running (.scope body next) →
      p.Comes i (Process.Ready found i ((p.threads i).enclosed body next) (p.count + 1))
  -- a value goes to the caller, and a panic goes on from there
  returns : ∀ i r frame body next rest, p.ended = none →
    (p.threads i).control = .running (.done r) →
    (p.threads i).stack = .scope frame body next :: rest →
      p.step (.advance i) = p.popped i body rest (.ok r) (.resume next r)
  -- a trap takes two moves of its thread, between which others may move
  traps : ∀ i signal address mended frame body next rest, p.ended = none →
    (p.threads i).control = .running (.trap signal address mended) →
    cut (p.threads i).stack = .scope frame body next :: rest →
      if p.handed signal then p.step (.advance i) = { p with ended := some signal }
      else (∃ stack, p.step (.advance i) = p.place i { p.threads i with stack, control := .landed }) ∧
        ∀ ms, (∀ m ∈ ms, m.thread ≠ i) → ((p.step (.advance i)).run ms).ended = none →
          ((p.step (.advance i)).run ms).step (.advance i) =
            ((p.step (.advance i)).run ms).popped i body rest
              (.error (.fault signal.number (Memory.told address)))
              (next (.error (.fault signal.number (Memory.told address))))
  closes : ∀ i after, p.ended = none → p.lock = none → (p.threads i).control = .closing after →
    p.Comes i (Process.Ready found i { p.threads i with control := .running after } (p.count - 1))
  -- a trap outside of scopes meets what was there before, at once or from the guard's handler
  strays : ∀ i signal address mended, p.ended = none →
    (p.threads i).control = .running (.trap signal address mended) →
    innermost (p.threads i).stack = none →
      p.step (.advance i) = p.meet (found signal) i signal address mended ∨
        p.actions signal = .guard ∧
          p.step (.advance i) = p.put i (.handling signal address mended)
  passes : ∀ i signal address mended, p.ended = none →
    (p.threads i).control = .handling signal address mended →
      p.step (.advance i) = p.hand (found signal) i signal address mended ∨
        p.saved signal = none ∧ ∃ j old todo, p.lock = some (j, .saving signal old todo)
  results : ∀ x ∈ p.returned, ∀ (σ : Type) [Scopes σ] (s : σ),
    (Fault.guarded (x.1.run true) s).result = x.2
  bodies : ∀ (f : UInt64 → α) (g : α → UInt64), Function.LeftInverse g f → ∀ (b : Body) (h : Host),
    b.Inward → ∀ x ∈ p.returned, x.1 = (b.code (readByte h.memory)).via f g →
      x.2 = ((Fault.guarded b.run h).result.map Exit.except).map (Except.map f)
  frees : ∀ i w, p.ended = none → p.lock = some (i, w) → p.Comes i (Process.Free found)
  home : ∀ i, (∀ j w, p.lock = some (j, w) → j = i) → p.Comes i (Process.Home i)

theorem handed_meet (f : Foreign) (i : Fin n) (s : Signal) (address : Nat) (mended : Code α)
    (p : Process n α) : (p.meet f i s address mended).handed = p.handed := by
  cases f with
  | standard => rfl
  | ignored => rfl
  | handler id takesInfo => rfl

theorem handed_pops (i : Fin n) (body : Code α) (rest : List (Layer α))
    (result : Frame → Except Error (Except String α)) (after : Frame → Code α) (p : Process n α) :
    (p.pops i body rest result after).handed = p.handed := by
  rw [Process.pops]
  split <;> rfl

theorem handed_work (i : Fin n) (w : Work) (h : (p.work i w).handed signal = true) :
    p.handed signal = true := by
  rw [Process.work.eq_def] at h
  split at h
  · next s todo =>
    by_cases heq : signal = s
    · subst heq
      cases (Function.update_self ..).symm.trans h
    · exact (Function.update_of_ne heq ..).symm.trans h
  · exact h
  · exact h
  · split at h <;> exact h
  · split at h <;> exact h

theorem handed_deliver (i : Fin n) (s : Signal) (address : Nat) (mended : Code α)
    (p : Process n α) : (p.deliver i s address mended).handed = p.handed := by
  rw [Process.deliver]
  split
  · exact handed_meet ..
  · split
    · split <;> rfl
    · rfl

theorem handling_of_handed (h : (p.advance i).handed signal = true) (hbefore : p.handed signal ≠ true) :
    ∃ address mended, (p.threads i).control = .handling signal address mended := by
  rw [Process.advance] at h
  split at h
  · rw [Process.finish] at h
    split at h
    · exact (hbefore h).elim
    · rw [handed_pops] at h
      exact (hbefore h).elim
    · exact (hbefore h).elim
  · rw [handed_deliver] at h
    exact (hbefore h).elim
  · rw [Process.enters] at h
    split at h <;> exact (hbefore h).elim
  · exact (hbefore h).elim
  · exact (hbefore h).elim
  · exact (hbefore (handed_work _ _ h)).elim
  · rw [Process.land] at h
    split at h
    · rw [handed_pops] at h
      exact (hbefore h).elim
    · exact (hbefore h).elim
  · rw [Process.leaves] at h
    split at h <;> exact (hbefore h).elim
  · exact (hbefore h).elim
  · exact (hbefore (handed_work _ _ h)).elim
  · next s address mended hcontrol =>
    rw [Process.pass] at h
    split at h
    · rw [Process.hand] at h
      split at h
      · by_cases heq : signal = s
        · exact ⟨address, mended, heq ▸ hcontrol⟩
        · exact (hbefore ((Function.update_of_ne heq ..).symm.trans h)).elim
      · rw [handed_meet] at h
        exact (hbefore h).elim
    · exact (hbefore h).elim
    · exact (hbefore h).elim
  · exact (hbefore h).elim

theorem Process.Inv.hands (h : p.Inv found) (m : Move n α)
    (hafter : (p.step m).handed signal = true) : p.handed signal = true ∨
      (∃ address mended, (p.threads m.thread).control = .handling signal address mended) ∧
        innermost (p.threads m.thread).stack = none := by
  by_cases hbefore : p.handed signal = true
  · exact .inl hbefore
  rw [Process.step.eq_def] at hafter
  split at hafter
  · exact (hbefore hafter).elim
  · cases m with
    | call i c =>
      dsimp only at hafter
      rw [Process.call] at hafter
      split at hafter <;> exact (hbefore hafter).elim
    | mend i =>
      dsimp only at hafter
      rw [Process.mend] at hafter
      split at hafter <;> exact (hbefore hafter).elim
    | advance i =>
      obtain ⟨address, mended, hcontrol⟩ := handling_of_handed hafter hbefore
      exact .inr ⟨⟨address, mended, hcontrol⟩, (h.stray_of_handling hcontrol).outer⟩

theorem Process.Inv.traps (h : p.Inv found) (hended : p.ended = none)
    (hcontrol : (p.threads i).control = .running (.trap signal address mended))
    (hcut : cut (p.threads i).stack = .scope frame body next :: rest) :
    if p.handed signal then p.step (.advance i) = { p with ended := some signal }
    else (∃ stack, p.step (.advance i) = p.place i { p.threads i with stack, control := .landed }) ∧
      ∀ ms, (∀ m ∈ ms, m.thread ≠ i) → ((p.step (.advance i)).run ms).ended = none →
        ((p.step (.advance i)).run ms).step (.advance i) =
          ((p.step (.advance i)).run ms).popped i body rest
            (.error (.fault signal.number (Memory.told address)))
            (next (.error (.fault signal.number (Memory.told address)))) := by
  have hstep := step_of_trap hended hcontrol
  rw [deliver_of_inside h hcut] at hstep
  split
  · next hhanded =>
    rw [if_pos hhanded] at hstep
    exact hstep
  · next hhanded =>
    rw [if_neg hhanded] at hstep
    refine ⟨⟨_, hstep⟩, fun ms hms hlast => ?_⟩
    have hthread := threads_run hms (p.step (.advance i))
    rw [hstep, threads_place_self] at hthread
    rw [hstep] at hlast ⊢
    exact step_of_landed (hstep ▸ (h.step (.advance i)).run ms) hlast (by rw [hthread])
      (by rw [hthread])

theorem Process.Inv.passes (h : p.Inv found) (hended : p.ended = none)
    (hcontrol : (p.threads i).control = .handling signal address mended) :
    p.step (.advance i) = p.hand (found signal) i signal address mended ∨
      p.saved signal = none ∧ ∃ j old todo, p.lock = some (j, .saving signal old todo) := by
  have hagrees := h.agrees i
  rw [hcontrol] at hagrees
  by_cases hsaved : p.saved signal = none
  · exact .inr ⟨hsaved, holder_of_unsaved (hagrees.2 hsaved)⟩
  · rw [step_of_handling hended hcontrol]
    exact .inl (pass_of_written h hsaved)

theorem Process.Inv.orderly (h : p.Inv found) (hastray : ∀ i, (p.threads i).isAstray = false) :
    p.Orderly found where
  count := h.count
  actions := h.minds.action
  guarded hcount := ⟨h.minds.free_of_open hcount, h.minds.of_open hcount⟩
  idle hcount hlock := h.minds.of_idle hlock hcount
  handed := h.minds.handed
  hands m signal := h.hands m
  current i := ⟨(h.sound i).current, (h.sound i).chained⟩
  alive i hlost := by
    have hfollows := (h.sound i).follows
    rw [hlost] at hfollows
    exact hfollows
  opens i body next hended hlock := comes_enclosed ⟨h, hlock⟩ hended
  returns i r frame body next rest hended := step_of_done h hended
  traps i signal address mended frame body next rest hended := h.traps hended
  closes i after hended hlock := comes_closed ⟨h, hlock⟩ hended
  strays i signal address mended hended hcontrol hout := by
    rw [step_of_trap hended hcontrol]
    exact deliver_of_outside h hout ..
  passes i signal address mended hended := h.passes hended
  results x hx σ _ s := (x.1.guarded_result s).trans (h.returned x hx)
  bodies f g hg b host hb x hx hcode := by
    rw [Body.guarded_run hb, ← Code.ending_via hg, ← hcode]
    exact (h.returned x hx).symm
  frees i w hended hlock := comes_free h hended hlock
  home i hlock := h.comes_home hlock (hastray i)

/-- Any number of threads open scopes, one inside another, and leave them in any way and any order. No
thread has looked for what a signal had in the moment before that was written down, for the first time. -/
theorem orderly_of_run (n : Nat) (α : Type) (found : Signal → Foreign) (ms : List (Move n α))
    (hastray : ∀ i, (((Process.fresh found : Process n α).run ms).threads i).isAstray = false) :
    ((Process.fresh found : Process n α).run ms).Orderly found :=
  ((inv_fresh found).run ms).orderly hastray

def strayed : List (Move 2 Nat) :=
  .call 0 (.scope (.done (.ok 1)) fun _ => .done (.ok 2)) :: List.replicate 6 (.advance 0) ++
    [.call 1 (.trap .segmentation 16 (.done (.ok 3))), .advance 1, .advance 1]

theorem orderly_of_run_strayed :
    (∀ i, (((Process.fresh fun _ => .standard).run strayed).threads i).isAstray = false) ∧
      ((Process.fresh fun _ => .standard).run strayed).Orderly fun _ => .standard :=
  ⟨by decide +kernel, orderly_of_run 2 Nat (fun _ => .standard) strayed (by decide +kernel)⟩

/-- The guard can have put an action back while a scope is open; it has yet to put some of them back once
the last scope is closed; and a fault at an address that no pointer can have is told as one at zero. -/
theorem not_guarded_of_stray :
    let during := (Process.fresh fun _ => .standard).run strayed
    let closed := during.run (List.replicate 2 (.advance 0))
    let body : Code Nat := .trap .segmentation 0x8000000000000000 (.done (.ok 1))
    let far : Process 1 Nat := (Process.fresh fun _ => .standard).run
      (.call 0 (.scope body fun _ => .done (.ok 2)) :: List.replicate 8 (.advance 0))
    (during.count = 1 ∧ during.actions .segmentation = .foreign .standard) ∧
      (closed.count = 0 ∧ closed.actions .bus = .guard) ∧
        far.returned.map (·.2) = [.error (.fault 11 0)] := by
  decide +kernel

end RemoteAgent.Fault
