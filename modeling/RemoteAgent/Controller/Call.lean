import RemoteAgent.Channel.Frame

/-! Calls of a controller over its command channel: a request, and what is read from the message that
comes back. -/

namespace RemoteAgent.Controller

open Channel

structure Call (α : Type) where
  request : Message
  read : Message → Except Error α

inductive Answer where
  | status (success : Bool)
  | bytes (value : Option (List UInt8))
  | address (value : Option UInt64)
  | protection (code : Option UInt32)
  | result (value : UInt64)
  | message (reply : Message)

def readStatus : Message → Except Error Bool
  | .status success => .ok success
  | other => .error (.unexpectedMessage .status other.kind)

def readValue : Message → Except Error (Bool × List UInt8)
  | .statusWithValue success value => .ok (success, value)
  | other => .error (.unexpectedMessage .statusWithValue other.kind)

def decodePointer (value : List UInt8) : Except Error UInt64 :=
  if value.length = 8 then .ok (UInt64.ofNat (Wire.leValue value))
  else .error (.protocol (.badValueLength value.length))

def decodeProtection (value : List UInt8) : Except Error UInt32 :=
  if value.length = 4 then .ok (UInt32.ofNat (Wire.leValue value))
  else .error (.protocol (.badProtectionLength value.length))

def readOptional {α : Type} (decode : List UInt8 → Except Error α) (m : Message) :
    Except Error (Option α) := do
  match ← readValue m with
  | (true, value) => some <$> decode value
  | (false, _) => return none

def readResult (m : Message) : Except Error UInt64 := do
  match ← readValue m with
  | (true, value) => decodePointer value
  | (false, text) => .error (.nativeCall (.reported (Text.Utf8.lossy text)))

namespace Call

def ofMessage (m : Message) : Call Message := ⟨m, .ok⟩

def isValid : Call Bool := ⟨.isValid, readStatus⟩

def closeProcess : Call Bool := ⟨.closeProcess, readStatus⟩

def readMemory (address : UInt64) (size : UInt32) : Call (Option (List UInt8)) :=
  ⟨.readMemory address size, readOptional .ok⟩

def writeMemory (address : UInt64) (data : List UInt8) : Call Bool :=
  ⟨.writeMemory address data, readStatus⟩

def allocateMemory (size allocationType protect : UInt32) : Call (Option UInt64) :=
  ⟨.allocateMemory size allocationType protect, readOptional decodePointer⟩

def freeMemory (address : UInt64) : Call Bool := ⟨.freeMemory address, readStatus⟩

def queryMemory (address : UInt64) : Call (Option UInt32) :=
  ⟨.queryMemory address, readOptional decodeProtection⟩

def protectMemory (address : UInt64) (size protect : UInt32) : Call Bool :=
  ⟨.protectMemory address size protect, readStatus⟩

def callFunction (address : UInt64) (args : List UInt64) : Call UInt64 :=
  ⟨.callFunction address args, readResult⟩

def allocateConsole : Call Bool := ⟨.allocateConsole, readStatus⟩

def createFunction (name : String) (argCount : UInt32) : Call UInt64 :=
  ⟨.createFunction name argCount, readResult⟩

def freeFunction (name : String) : Call Bool := ⟨.freeFunction name, readStatus⟩

def map {α β : Type} (f : α → β) (c : Call α) : Call β :=
  ⟨c.request, fun m => (c.read m).map f⟩

def ofRequest : Message → Call Answer
  | .isValid => isValid.map .status
  | .closeProcess => closeProcess.map .status
  | .readMemory address size => (readMemory address size).map .bytes
  | .writeMemory address data => (writeMemory address data).map .status
  | .allocateMemory size allocationType protect =>
    (allocateMemory size allocationType protect).map .address
  | .freeMemory address => (freeMemory address).map .status
  | .queryMemory address => (queryMemory address).map .protection
  | .protectMemory address size protect => (protectMemory address size protect).map .status
  | .callFunction address args => (callFunction address args).map .result
  | .allocateConsole => allocateConsole.map .status
  | .createFunction name argCount => (createFunction name argCount).map .result
  | .freeFunction name => (freeFunction name).map .status
  | m => (ofMessage m).map .message

def run {α : Type} (c : Call α) : Action Link α := do
  send c.request
  let reply ← receive
  Action.ofExcept (c.read reply)

end Call

def connectedEvent (channel : String) : Log.Event :=
  { level := .debug, target := "hands_client::command", message := "Connected to command channel",
    fields := [("channel", channel)] }

end RemoteAgent.Controller
