import RemoteAgent.Agent.Context

/-! The dispatcher: one reply for every request. A request that fails is answered as failed and ends
nothing. -/

namespace RemoteAgent

open Log

structure Handled where
  response : Option Message
  keepOpen : Bool := true
  deriving DecidableEq, Repr

namespace Context

def dispatchTarget : String := "hands_agent::dispatch"

def addressField (a : UInt64) : String × String := ("address", Text.hex a.toNat)

def sizeField (n : Nat) : String × String := ("size", toString n)

def failed (request : String) (fields : List (String × String)) (e : Error) : Event :=
  { level := .debug, target := dispatchTarget, message := request ++ " failed",
    fields := fields ++ [("error", e.message)] }

def status {α : Type} (request : String) (fields : List (String × String))
    (act : Action Context α) : Action Context Message := do
  match ← act.attempt with
  | .ok _ => return .status true
  | .error e =>
    .tell [failed request fields e]
    return .status false

def readMemory (address : UInt64) (size : UInt32) : Action Context Message := do
  let budget := Message.maxValueLength (← Action.get).config.channel.maxMessageSize
  let fields := [addressField address, sizeField size.toNat]
  if size.toNat > budget then
    .tell [{ level := .warn, target := dispatchTarget,
             message := "ReadMemory reply would exceed the message size limit",
             fields := fields ++ [("max", toString budget)] }]
    return .statusWithValue false []
  match ← (inMemory (Memory.Engine.read address.toNat size.toNat)).attempt with
  | .ok bytes => return .statusWithValue true bytes
  | .error e =>
    .tell [failed "ReadMemory" fields e]
    return .statusWithValue false []

def allocateMemory (size allocationType protect : UInt32) : Action Context Message := do
  match ← (inMemory (Memory.Engine.allocate size.toNat allocationType protect)).attempt with
  | .ok address => return .pointerValue (UInt64.ofNat address)
  | .error e =>
    .tell [failed "AllocateMemory" [sizeField size.toNat] e]
    return .statusWithValue false []

def queryMemory (address : UInt64) : Action Context Message := do
  let protect ← inMemory (Memory.Engine.query address.toNat)
  if protect = 0 then return .statusWithValue false []
  return .statusWithValue true (Wire.leBytes 4 protect.toNat)

def callFunction (address : UInt64) (args : List UInt64) : Action Context Message := do
  match ← (Native.call address.toNat args : Action Context UInt64).attempt with
  | .ok value => return .pointerValue value
  | .error e => return .failureText e.message

def createFunction (name : String) (argCount : UInt32) : Action Context Message := do
  match ← (inFunctions (Registry.create name argCount.toNat)).attempt with
  | .ok 0 => return .failureText "Trampoline has no code address"
  | .ok address => return .pointerValue (UInt64.ofNat address)
  | .error e =>
    .tell [{ level := .warn, target := dispatchTarget, message := "CreateFunction failed",
             fields := [("function", name), ("error", e.message)] }]
    return .failureText e.message

def allocateConsole : Action Context Message := do
  .tell [{ level := .warn, target := "hands_agent::console",
           message := "Console allocation is not supported on this platform" }]
  return .status false

def reply? : Message → Option (Action Context Message)
  | .closeProcess => some do
    .tell [{ level := .debug, target := dispatchTarget,
             message := "Close requested, ending session" }]
    return .status true
  | .isValid => some (pure (.status true))
  | .readMemory address size => some (readMemory address size)
  | .writeMemory address data =>
    some (status "WriteMemory" [addressField address, sizeField data.length]
      (inMemory (Memory.Engine.write address.toNat data)))
  | .allocateMemory size allocationType protect => some (allocateMemory size allocationType protect)
  | .freeMemory address =>
    some (status "FreeMemory" [addressField address] (inMemory (Memory.Engine.free address.toNat)))
  | .queryMemory address => some (queryMemory address)
  | .protectMemory address size protect =>
    some (status "ProtectMemory" [addressField address]
      (inMemory (Memory.Engine.protect address.toNat size.toNat protect)))
  | .callFunction address args => some (callFunction address args)
  | .allocateConsole => some allocateConsole
  | .createFunction name argCount => some (createFunction name argCount)
  | .freeFunction name => some do return .status (← inFunctions (Registry.free name))
  | .remoteCall name _ => some do
    .tell [{ level := .warn, target := dispatchTarget,
             message := "RemoteCall received on command channel", fields := [("function", name)] }]
    return .remoteCallResponse 0 0
  | .status _ | .statusWithValue _ _ | .remoteCallResponse _ _ => none

def handle (m : Message) : Action Context Handled := do
  match reply? m with
  | some act => return { response := some (← act), keepOpen := m ≠ .closeProcess }
  | none =>
    .tell [{ level := .warn, target := dispatchTarget, message := "Ignoring response-only message",
             fields := [("message_type", m.kind.name)] }]
    return { response := none }

end Context

end RemoteAgent
