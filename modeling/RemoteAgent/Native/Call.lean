import RemoteAgent.Native.Code

/-! Native calls: a number of arguments of the size of an address and one result of that size. A call
to a bad address, or one whose code traps, fails and leaves the process running. -/

namespace RemoteAgent.Native

open Log

def maxArity : Nat := 64

structure Descriptor where
  arity : Nat
  arity_le : arity ≤ maxArity

def Descriptor.ofArity (arity : Nat) : Except Error Descriptor :=
  if h : arity ≤ maxArity then .ok ⟨arity, h⟩
  else .error (.resourceExhausted (.tooManyArguments arity maxArity))

class Machine (σ : Type) where
  memory : σ → Memory.Space
  setMemory : Memory.Space → σ → σ
  program : σ → Program
  trampoline? : σ → Nat → Option (List UInt64 → Action σ UInt64)

variable {σ : Type} [Machine σ]

instance : Fault.Scopes σ where
  openScopes s := (Machine.memory s).openScopes
  setOpenScopes n s := Machine.setMemory { Machine.memory s with openScopes := n } s

def inMemory {α : Type} (act : Action Memory.Space α) : Action σ α :=
  act.on Machine.memory Machine.setMemory

def Course.run : (c : Course) → c.ReturnsOrTraps → Action σ UInt64
  | value v, _ => pure v
  | trap signal address, _ => .fail (.fault signal address)
  | memory change next, h => do
    let found := Machine.memory (← Action.get : σ)
    inMemory (.modify (·.workedOn change))
    run (next found) (h found)
  | callback address args next, h => do
    match Machine.trampoline? (← Action.get : σ) address with
    | some enter =>
      let v ← enter args
      run (next v) (h v)
    | none => .fail (.fault 11 (Memory.told address))
  | away, h => h.elim

def jump (address : Nat) (args : List UInt64) : Action σ UInt64 := do
  let s ← Action.get
  match Machine.trampoline? s address with
  | some enter => enter args
  | none =>
    match (Machine.memory s).trap? .execute address with
    | some signal => .fail (.fault signal (Memory.told address))
    | none =>
      let p := Machine.program s
      (p.course address args).run (p.returnsOrTraps address args)

def Descriptor.invoke (d : Descriptor) (address : Nat) (args : List UInt64) : Action σ UInt64 :=
  if args.length = d.arity then jump address args
  else .fail (.nativeCall (.wrongArgumentCount d.arity args.length))

def target : String := "hands_core::call"

def call (address : Nat) (args : List UInt64) : Action σ UInt64 := do
  if address = 0 then .fail (.invalidAddress 0)
  let d ← Action.ofExcept (Descriptor.ofArity args.length)
  let shown := ("address", Text.hex address)
  .tell [{ level := .debug, target, message := "Calling native function",
           fields := [shown, ("arg_count", toString args.length)] }]
  match ← (Fault.guarded (d.invoke address args)).attempt with
  | .ok value =>
    .tell [{ level := .debug, target, message := "Native call returned",
             fields := [shown, ("result", Text.hex value.toNat)] }]
    return value
  | .error e =>
    .tell [{ level := .warn, target, message := "Native call failed",
             fields := [shown, ("error", e.message)] }]
    .fail e

end RemoteAgent.Native
