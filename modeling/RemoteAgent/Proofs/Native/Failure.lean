import Mathlib.Algebra.Group.Nat.Defs
import RemoteAgent.Agent.Context
import RemoteAgent.Proofs.Action.Endings

/-! How native calls fail: with a trap, with a bad address, or with too many arguments. Native code that
calls trampolines gets values from them, whatever becomes of the controller. -/

namespace RemoteAgent

open RemoteAgent.Action

def Error.IsTrap (e : Error) : Prop :=
  ∃ signal a, e = .fault signal a ∧ (signal = 11 ∨ signal = 7) ∧ a < 16 ^ 16

theorem isTrap_told {signal : Int} (h : signal = 11 ∨ signal = 7) (a : Nat) :
    (Error.fault signal (Memory.told a)).IsTrap := ⟨signal, _, rfl, h, Memory.told_lt a⟩

namespace Memory.Space

theorem length_bytesAt (s : Space) (a n : Nat) : (s.bytesAt a n).length = n := by
  induction n generalizing a with
  | zero => rfl
  | succ n ih => rw [bytesAt, List.length_cons, ih]

theorem ends_load (a n : Nat) : Ends (fun bs => bs.length = n) Error.IsTrap (load a n) := by
  unfold load
  refine ends_get.andThen fun s => ?_
  split
  · next h => exact ends_fail (isTrap_told (signal_of_firstTrap? h) _)
  · exact ends_pure (length_bytesAt s a n)

end Memory.Space

theorem Bridge.succeeds_forward (name : String) (args : List UInt64) :
    Succeeds (fun _ => True) (Bridge.forward name args) := by
  unfold forward
  refine ends_get.andThen fun b => ?_
  dsimp only
  split
  · exact (ends_tell _).andThen fun _ => ends_pure trivial
  · next i _ =>
    refine (ends_any (roundTrip i name args)).attempt.bind fun r _ => ?_
    split
    · split
      · exact (ends_tell _).andThen fun _ => (ends_tell _).andThen fun _ => ends_pure trivial
      · exact (ends_tell _).andThen fun _ => ends_pure trivial
    · refine (ends_tell _).andThen fun _ => (ends_modify _).andThen fun _ => ?_
      have hdetach : Succeeds (fun _ => True) (detachSession i) := by
        unfold detachSession
        refine ends_get.andThen fun b => ?_
        split
        · exact (ends_set _).andThen fun _ => ends_tell _
        · exact ends_pure trivial
      exact hdetach.andThen fun _ => ends_pure trivial

namespace Context

theorem succeeds_enter (t : Native.Trampoline Registry.RemoteFunction) (args : List UInt64) :
    Succeeds (fun _ => True) (enter t args) :=
  (Bridge.succeeds_forward t.handler.name (Native.received t.arity args)).on _ _

/-- Native code that returns or traps does so in an agent too: all calls of trampolines come back. -/
theorem ends_run (course : Native.Course) (h : course.ReturnsOrTraps) :
    FailsOnly Error.IsTrap (course.run h : Action Context UInt64) := by
  induction course with
  | value v => exact ends_pure trivial
  | trap signal a => exact ends_fail ⟨signal, a, rfl, h⟩
  | memory change next ih =>
    rw [Native.Course.run]
    refine ends_get.andThen fun c => ?_
    exact Ends.andThen (fun _ => trivial) fun _ => ih _ (h _)
  | callback address args next ih =>
    rw [Native.Course.run]
    refine ends_get.andThen fun c => ?_
    cases ht : Native.Machine.trampoline? c address with
    | none => exact ends_fail (isTrap_told (.inl rfl) address)
    | some run =>
      obtain ⟨t, -, rfl⟩ := Option.map_eq_some_iff.1 ht
      refine ((succeeds_enter t args).mono (fun _ h => h) fun _ h => h.elim).andThen fun v => ?_
      exact ih v (h v)
  | away => exact h.elim

theorem ends_jump (address : Nat) (args : List UInt64) :
    FailsOnly Error.IsTrap (Native.jump address args : Action Context UInt64) := by
  unfold Native.jump
  refine ends_get.andThen fun c => ?_
  split
  · next run ht =>
    obtain ⟨t, -, rfl⟩ := Option.map_eq_some_iff.1 ht
    exact (succeeds_enter t args).mono (fun _ h => h) fun _ h => h.elim
  · split
    · next htrap => exact ends_fail (isTrap_told (Memory.Space.signal_of_trap? htrap) address)
    · exact ends_run _ _

def CallFails (count : Nat) (e : Error) : Prop :=
  e = .invalidAddress 0 ∨ e.IsTrap ∨
    Native.maxArity < count ∧ e = .resourceExhausted (.tooManyArguments count Native.maxArity)

theorem fits_ofArity {count : Nat} :
    Fits (fun d => d.arity = count) (CallFails count) (Native.Descriptor.ofArity count) := by
  unfold Native.Descriptor.ofArity
  split
  · exact rfl
  · next h => exact .inr (.inr ⟨Nat.not_le.1 h, rfl⟩)

theorem ends_call (address : Nat) (args : List UInt64) :
    FailsOnly (CallFails args.length) (Native.call address args : Action Context UInt64) := by
  unfold Native.call
  dsimp only
  refine ends_unless (fun _ => .inl rfl) fun _ => ?_
  refine (ends_ofExcept fits_ofArity).bind fun d hd => ?_
  refine (ends_tell _).andThen fun _ => ?_
  have hinvoke : FailsOnly (CallFails args.length)
      (d.invoke address args : Action Context UInt64) := by
    unfold Native.Descriptor.invoke
    rw [if_pos hd.symm]
    exact (ends_jump address args).mono (fun _ h => h) fun _ h => .inr (.inl h)
  refine (Fault.ends_guarded hinvoke).attempt.bind fun r hr => ?_
  split
  · exact (ends_tell _).andThen fun _ => ends_pure trivial
  · exact (ends_tell _).andThen fun _ => ends_fail hr

end Context

end RemoteAgent
