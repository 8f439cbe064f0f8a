import RemoteAgent.Native.Trampoline

/-! The registry of remote functions: names of functions of the controller, and the trampolines
through which native code calls them. -/

namespace RemoteAgent

open Log Native

structure Registry.RemoteFunction where
  name : String
  arity : Nat
  deriving DecidableEq, Repr

structure Registry where
  entries : List (String × Trampoline Registry.RemoteFunction) := []
  tried : Nat := 0
  /-- Whether there is room for the code of a trampoline, after so many others. -/
  hasRoom : Nat → Bool := fun _ => true

namespace Registry

def target : String := "hands_agent::functions"

def find? (r : Registry) (name : String) : Option (Trampoline RemoteFunction) :=
  r.entries.lookup name

def addressOf? (r : Registry) (name : String) : Option Nat := (r.find? name).map (·.address)

def arityOf? (r : Registry) (name : String) : Option Nat :=
  (r.find? name).map (·.handler.arity)

def names (r : Registry) : List String := (r.entries.map (·.1)).mergeSort

def size (r : Registry) : Nat := r.entries.length

def at? (r : Registry) (address : Nat) : Option (Trampoline RemoteFunction) :=
  (r.entries.find? (·.2.address = address)).map (·.2)

/-- The address of the trampoline for a name, which is made at `fresh` if there is none yet. One that
is there already stays as it is, whatever arity is asked for. -/
def createAt (fresh : Nat) (name : String) (arity : Nat) : Action Registry Nat := do
  let r ← Action.get
  match r.find? name with
  | some t =>
    .tell [{ level := .debug, target, message := "Function already exists",
             fields := [("function", name), ("address", Text.hex t.address)] }]
    return t.address
  | none =>
    let d ← Action.ofExcept (Descriptor.ofArity arity)
    if !r.hasRoom r.tried then
      .set { r with tried := r.tried + 1 }
      .fail (.resourceExhausted .noClosure)
    .set { r with entries := (name, ⟨fresh, d.arity, ⟨name, arity⟩⟩) :: r.entries
                  tried := r.tried + 1 }
    .tell [{ level := .info, target, message := "Function created",
             fields := [("function", name), ("arity", toString arity),
               ("address", Text.hex fresh)] }]
    return fresh

def create (name : String) (arity : Nat) : Action Registry Nat := do
  let r ← Action.get
  createAt (stubAddress r.tried) name arity

def free (name : String) : Action Registry Bool := do
  let r ← Action.get
  match r.find? name with
  | some t =>
    .set { r with entries := r.entries.filter (·.1 ≠ name) }
    .tell [{ level := .info, target, message := "Function freed",
             fields := [("function", name), ("address", Text.hex t.address)] }]
    return true
  | none =>
    .tell [{ level := .debug, target, message := "No such function",
             fields := [("function", name)] }]
    return false

end Registry

end RemoteAgent
