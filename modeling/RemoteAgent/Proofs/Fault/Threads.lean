import Mathlib.Logic.Function.Basic
import RemoteAgent.Memory.Space
import RemoteAgent.Proofs.Action.Endings

/-! Threads that open guarded scopes, one inside another and all at the same time. A trap meets whatever
the process does about its signal; the guard's own handler jumps to where the innermost scope of the
thread was opened. Scopes are counted under a lock. The first one exchanges the actions of the signals
and writes down what they were, the last one puts them back, a signal at a time, and others move in
between; the handlers take no lock. Nobody else sets an action for the two signals, and setting one does
not fail. -/

namespace RemoteAgent.Fault

open RemoteAgent.Action

inductive Signal where
  | segmentation
  | bus
  deriving DecidableEq

def Signal.number : Signal → Int
  | segmentation => 11
  | bus => 7

inductive Code (α : Type) where
  | done (r : Except String α)
  -- traps; if a handler mends what it trapped on, it goes on
  | trap (signal : Signal) (address : Nat) (mended : Code α)
  | scope (body : Code α) (next : Except Error α → Code α)
  | rescue (body : Code α) (next : Except String α → Code α)

variable {α : Type}

namespace Code

def resume (next : Except Error α → Code α) : Except String α → Code α
  | .ok v => next (.ok v)
  | .error text => .done (.error text)

/-- Runs code by itself, in a scope or not. Out of scopes every trap is mended. -/
def run {σ : Type} [Scopes σ] (inside : Bool) : Code α → Action σ (Except String α)
  | done r => pure r
  | trap signal address mended =>
    if inside then .fail (.fault signal.number (Memory.told address)) else run inside mended
  | scope body next => do
    match ← (guarded (run true body)).attempt with
    | .ok (.ok v) => run inside (next (.ok v))
    | .ok (.error text) => return .error text
    | .error e => run inside (next (.error e))
  | rescue body next => do
    let r ← run inside body
    run inside (next r)

def ending (inside : Bool) : Code α → Except Error (Except String α)
  | done r => .ok r
  | trap signal address mended =>
    if inside then .error (.fault signal.number (Memory.told address)) else ending inside mended
  | scope body next =>
    match ending true body with
    | .ok (.ok v) => ending inside (next (.ok v))
    | .ok (.error text) => .ok (.error text)
    | .error e => ending inside (next (.error e))
  | rescue body next =>
    match ending inside body with
    | .ok r => ending inside (next r)
    | .error e => .error e

end Code

section Sequential

theorem result_bind {σ β γ : Type} {act : Action σ β} {next : β → Action σ γ} {r : Except Error γ}
    {b : Except Error β} (hact : ∀ s, (act s).result = b)
    (hok : ∀ x, b = .ok x → ∀ s, (next x s).result = r) (herror : ∀ e, b = .error e → r = .error e)
    (s : σ) : ((act >>= next) s).result = r := by
  have hb := hact s
  cases ha : act s with
  | mk result t es =>
    rw [ha] at hb
    cases result with
    | ok x =>
      rw [bind_of_ok ha]
      exact hok x hb.symm t
    | error e =>
      rw [bind_of_error ha]
      exact (herror e hb.symm).symm

variable {σ : Type} [Scopes σ]

theorem result_guarded {β : Type} {act : Action σ β} {r : Except Error β}
    (h : ∀ s, (act s).result = r) (s : σ) : (guarded act s).result = r := by
  obtain ⟨k, hresult, -⟩ := guarded_apply act s
  rw [hresult, h]

theorem Code.result_run (c : Code α) (inside : Bool) (s : σ) :
    (c.run inside s).result = c.ending inside := by
  induction c generalizing inside s with
  | done r => rfl
  | trap signal address mended ih =>
    rw [run, ending]
    split
    · rfl
    · exact ih inside s
  | scope body next ihbody ihnext =>
    rw [run, ending]
    have hguarded := fun s : σ => result_guarded (ihbody true) s
    refine result_bind (b := .ok (body.ending true)) (fun s => ?_) (fun x hx s => ?_)
      (fun e he => by cases he) s
    · rw [attempt_apply, hguarded]
    · cases hx
      cases body.ending true with
      | error e => exact ihnext _ inside s
      | ok r =>
        cases r with
        | ok v => exact ihnext _ inside s
        | error text => rfl
  | rescue body next ihbody ihnext =>
    rw [run, ending]
    refine result_bind (ihbody inside) (fun x hx s => ?_) (fun e he => ?_) s
    · rw [hx]
      exact ihnext x inside s
    · rw [he]

theorem Code.guarded_result (c : Code α) (s : σ) : (guarded (c.run true) s).result = c.ending true :=
  result_guarded (c.result_run true) s

end Sequential

inductive Foreign where
  | standard
  | ignored
  | handler (id : Nat) (takesInfo : Bool)
  deriving DecidableEq

def Foreign.isPlain : Foreign → Bool
  | handler _ _ => false
  | _ => true

inductive Disposition where
  | guard
  | foreign (f : Foreign)
  deriving DecidableEq

inductive Work where
  | exchanging (todo : List Signal)
  | saving (signal : Signal) (old : Disposition) (todo : List Signal)
  | restoring (todo : List Signal)

structure Frame where
  place : Nat
  previous : Option Nat
  signal : Int := 0
  address : Nat := 0

/-- A call in progress. The body of a scope is there for the record. -/
inductive Layer (α : Type) where
  | scope (frame : Frame) (body : Code α) (next : Except Error α → Code α)
  | rescue (next : Except String α → Code α)

inductive Control (α : Type) where
  | outside
  | running (c : Code α)
  | opening (body : Code α) (next : Except Error α → Code α)
  | landed
  -- is out of the frame of a scope, and has to take it from the count
  | closing (after : Code α)
  | restoring (after : Code α)
  -- is in the guard's handler with a trap from outside of scopes
  | handling (signal : Signal) (address : Nat) (mended : Code α)
  | astray
  -- used a pointer to a frame that is no more, or took the guard for what was there before it
  | lost

structure Thread (α : Type) where
  current : Option Nat := none
  -- the innermost call comes first
  stack : List (Layer α) := []
  control : Control α := .outside

structure Encounter (n : Nat) where
  thread : Fin n
  id : Nat
  signal : Signal
  address : Option Nat

structure Process (n : Nat) (α : Type) where
  actions : Signal → Disposition
  count : Nat := 0
  lock : Option (Fin n × Work) := none
  saved : Signal → Option Disposition := fun _ => none
  -- for the record: the guard has put back an action since it was installed
  handed : Signal → Bool := fun _ => false
  threads : Fin n → Thread α := fun _ => {}
  met : List (Encounter n) := []
  ended : Option Signal := none
  -- the bodies of the scopes that have closed, and what the guarded calls return
  returned : List (Code α × Except Error (Except String α)) := []

section Stack

def innermost : List (Layer α) → Option Nat
  | [] => none
  | .scope frame _ _ :: _ => some frame.place
  | .rescue _ :: r => innermost r

def depth : List (Layer α) → Nat
  | [] => 0
  | .scope _ _ _ :: r => depth r + 1
  | .rescue _ :: r => depth r

def cut : List (Layer α) → List (Layer α)
  | [] => []
  | .scope frame body next :: r => .scope frame body next :: r
  | .rescue _ :: r => cut r

def frameAt (place : Nat) : List (Layer α) → Option Frame
  | [] => none
  | .scope frame _ _ :: r => if frame.place = place then some frame else frameAt place r
  | .rescue _ :: r => frameAt place r

def jump (signal : Signal) (address place : Nat) : List (Layer α) → Option (List (Layer α))
  | [] => none
  | .scope frame body next :: r =>
    if frame.place = place then
      some (.scope { frame with signal := signal.number, address := Memory.told address } body next :: r)
    else jump signal address place r
  | .rescue _ :: r => jump signal address place r

end Stack

namespace Thread

def frame (t : Thread α) : Option Frame := t.current.bind fun place => frameAt place t.stack

def enclosed (body : Code α) (next : Except Error α → Code α) (t : Thread α) : Thread α :=
  let frame : Frame := { place := t.stack.length, previous := t.current }
  ⟨some frame.place, .scope frame body next :: t.stack, .running body⟩

def opened (t : Thread α) : Nat :=
  match t.control with
  | .closing _ => depth t.stack + 1
  | _ => depth t.stack

def isAstray (t : Thread α) : Bool :=
  match t.control with
  | .astray => true
  | _ => false

end Thread

inductive Move (n : Nat) (α : Type) where
  | call (i : Fin n) (c : Code α)
  | advance (i : Fin n)
  -- somebody mends what a thread outside of scopes is about to trap on
  | mend (i : Fin n)

def Move.thread {n : Nat} : Move n α → Fin n
  | call i _ => i
  | advance i => i
  | mend i => i

namespace Process

variable {n : Nat}

def place (i : Fin n) (t : Thread α) (p : Process n α) : Process n α :=
  { p with threads := Function.update p.threads i t }

def put (i : Fin n) (control : Control α) (p : Process n α) : Process n α :=
  p.place i { p.threads i with control }

def enters (i : Fin n) (body : Code α) (next : Except Error α → Code α) (p : Process n α) :
    Process n α :=
  if p.count = 0 then
    { p with lock := some (i, .exchanging [.segmentation, .bus]) }.put i (.opening body next)
  else { p with count := p.count + 1 }.place i ((p.threads i).enclosed body next)

def leaves (i : Fin n) (after : Code α) (p : Process n α) : Process n α :=
  if p.count = 1 then
    { p with count := 0, lock := some (i, .restoring [.segmentation, .bus]) }.put i (.restoring after)
  else { p with count := p.count - 1 }.put i (.running after)

def work (i : Fin n) (p : Process n α) : Work → Process n α
  | .exchanging (signal :: r) =>
    { p with actions := Function.update p.actions signal .guard
             handed := Function.update p.handed signal false
             lock := some (i, .saving signal (p.actions signal) r) }
  | .saving signal old r =>
    { p with saved := Function.update p.saved signal (some old), lock := some (i, .exchanging r) }
  | .restoring (signal :: r) =>
    { p with actions := Function.update p.actions signal ((p.saved signal).getD .guard)
             lock := some (i, .restoring r) }
  | .exchanging [] =>
    match (p.threads i).control with
    | .opening body next =>
      { p with count := p.count + 1, lock := none }.place i ((p.threads i).enclosed body next)
    | _ => p
  | .restoring [] =>
    match (p.threads i).control with
    | .restoring after => { p with lock := none }.put i (.running after)
    | _ => p

def meet (f : Foreign) (i : Fin n) (signal : Signal) (address : Nat) (mended : Code α)
    (p : Process n α) : Process n α :=
  match f with
  | .standard => { p with ended := some signal }
  | .ignored => { p with ended := some signal }
  | .handler id takesInfo =>
    { p.put i (.running mended) with
      met := p.met ++ [⟨i, id, signal, if takesInfo then some (Memory.told address) else none⟩] }

/-- A handler that was there before the guard is called. Any other action is put back, and the access is
made again. -/
def hand (f : Foreign) (i : Fin n) (signal : Signal) (address : Nat) (mended : Code α)
    (p : Process n α) : Process n α :=
  if f.isPlain then
    { p.put i (.running (.trap signal address mended)) with
      actions := Function.update p.actions signal (.foreign f)
      handed := Function.update p.handed signal true }
  else p.meet f i signal address mended

def pass (i : Fin n) (signal : Signal) (address : Nat) (mended : Code α) (p : Process n α) :
    Process n α :=
  match p.saved signal with
  | some (.foreign f) => p.hand f i signal address mended
  | some .guard => p.put i .lost
  | none => p.put i .astray

def deliver (i : Fin n) (signal : Signal) (address : Nat) (mended : Code α) (p : Process n α) :
    Process n α :=
  match p.actions signal with
  | .foreign f => p.meet f i signal address mended
  | .guard =>
    match (p.threads i).current with
    | some place =>
      match jump signal address place (p.threads i).stack with
      | some stack => p.place i { p.threads i with stack, control := .landed }
      | none => p.put i .lost
    | none => p.put i (.handling signal address mended)

def pops (i : Fin n) (body : Code α) (rest : List (Layer α))
    (result : Frame → Except Error (Except String α)) (after : Frame → Code α) (p : Process n α) :
    Process n α :=
  match (p.threads i).frame with
  | none => p.put i .lost
  | some frame =>
    { p.place i ⟨frame.previous, rest, .closing (after frame)⟩ with
      returned := p.returned ++ [(body, result frame)] }

def finish (i : Fin n) (r : Except String α) (p : Process n α) : Process n α :=
  match (p.threads i).stack with
  | [] => p.put i .outside
  | .scope _ body next :: rest => p.pops i body rest (fun _ => .ok r) fun _ => .resume next r
  | .rescue next :: rest =>
    p.place i { p.threads i with stack := rest, control := .running (next r) }

def land (i : Fin n) (p : Process n α) : Process n α :=
  match (p.threads i).stack with
  | .scope _ body next :: rest =>
    p.pops i body rest (fun frame => .error (.fault frame.signal frame.address)) fun frame =>
      next (.error (.fault frame.signal frame.address))
  | _ => p.put i .lost

def advance (i : Fin n) (p : Process n α) : Process n α :=
  match (p.threads i).control, p.lock with
  | .running (.done r), _ => p.finish i r
  | .running (.trap signal address mended), _ => p.deliver i signal address mended
  | .running (.scope body next), none => p.enters i body next
  | .running (.scope _ _), some _ => p
  | .running (.rescue body next), _ =>
    p.place i { p.threads i with stack := .rescue next :: (p.threads i).stack
                                 control := .running body }
  | .opening _ _, some (_, w) => p.work i w
  | .landed, _ => p.land i
  | .closing after, none => p.leaves i after
  | .closing _, some _ => p
  | .restoring _, some (_, w) => p.work i w
  | .handling signal address mended, _ => p.pass i signal address mended
  | _, _ => p

def call (i : Fin n) (c : Code α) (p : Process n α) : Process n α :=
  match (p.threads i).control with
  | .outside => p.put i (.running c)
  | _ => p

def mend (i : Fin n) (p : Process n α) : Process n α :=
  match (p.threads i).control, (p.threads i).current with
  | .running (.trap _ _ mended), none => p.put i (.running mended)
  | _, _ => p

def step (m : Move n α) (p : Process n α) : Process n α :=
  match p.ended with
  | some _ => p
  | none =>
    match m with
    | .call i c => p.call i c
    | .advance i => p.advance i
    | .mend i => p.mend i

def run (ms : List (Move n α)) (p : Process n α) : Process n α := ms.foldl (fun p m => p.step m) p

def fresh (found : Signal → Foreign) : Process n α := { actions := fun signal => .foreign (found signal) }

end Process

end RemoteAgent.Fault
