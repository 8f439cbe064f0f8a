import RemoteAgent.Memory.Space
import RemoteAgent.Wire.Bytes

/-! Bodies of guarded scopes: computations that read memory, panic, and open scopes inside each other.
A trap ends the innermost scope; a panic passes through all of them; a trap on a thread without a
scope goes to the handlers that were there before. -/

namespace RemoteAgent.Fault

/-- An expression that is worked out in a scope or out of one. `touch` reads a byte, `outside` does so on
another thread, which has no scope; `scope` is one more than what its body gives, or `otherwise` if that
fails. -/
inductive Body where
  | value (v : UInt64)
  | touch (address : Nat)
  | panic (text : String)
  | sum (parts : List Body)
  | scope (body : Body) (otherwise : UInt64)
  | outside (address : Nat)

inductive Exit where
  | value (v : UInt64)
  | panicked (text : String)
  deriving DecidableEq, Repr

/-- A process with handlers of its own for traps, and the signals that they have met. -/
structure Host where
  memory : Memory.Space
  hasHandlers : Bool := false
  met : List Int := []

namespace Host

instance : Scopes Host where
  openScopes h := h.memory.openScopes
  setOpenScopes n h := { h with memory := { h.memory with openScopes := n } }

def mend (signal : Int) (address : Nat) (m : Memory.Space) : Memory.Space :=
  let start := Memory.pageDown address
  let stop := start + Memory.pageSize
  let usable : Memory.Protection := ⟨true, true, false, false⟩
  if signal = 7 then
    { m with areas := Memory.insertArea ⟨start, stop, usable, .anonymous⟩
                        (Memory.unmapAreas start stop m.areas)
             contents := fun a => if start ≤ a ∧ a < stop then 0 else m.contents a }
  else
    { m with areas := Memory.coalesce (Memory.protectAreas usable stop start m.areas).1 }

def readOutside (address : Nat) : Action Host Exit := do
  let h ← Action.get
  match h.memory.trap? .read address with
  | none => return .value (UInt64.ofNat (h.memory.contents address).toNat)
  | some signal =>
    if !h.hasHandlers then .fail (.fault signal (Memory.told address))
    let m := mend signal address h.memory
    .set { h with memory := m, met := h.met ++ [signal] }
    return .value (UInt64.ofNat (m.contents address).toNat)

end Host

namespace Body

def resume (otherwise : UInt64) : Except Error Exit → Exit
  | .ok (.value v) => .value (v + 1)
  | .ok (.panicked text) => .panicked text
  | .error _ => .value otherwise

mutual

def run : Body → Action Host Exit
  | value v => pure (.value v)
  | touch address => do
    let bytes ← (Memory.Space.load address 1).on Host.memory fun m h => { h with memory := m }
    return .value (UInt64.ofNat (Wire.leValue bytes))
  | panic text => pure (.panicked text)
  | sum parts => runAll 0 parts
  | scope body otherwise => do
    return resume otherwise (← (guarded (run body)).attempt)
  | outside address => Host.readOutside address

def runAll (total : UInt64) : List Body → Action Host Exit
  | [] => pure (.value total)
  | part :: r => do
    match ← run part with
    | .value v => runAll (total + v) r
    | .panicked text => return .panicked text

end

end Body

end RemoteAgent.Fault
