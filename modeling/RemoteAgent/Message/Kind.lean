/-! The sixteen kinds of message and their numbers on the wire. -/

namespace RemoteAgent

namespace Message

inductive Kind where
  | status
  | statusWithValue
  | closeProcess
  | isValid
  | readMemory
  | writeMemory
  | allocateMemory
  | freeMemory
  | queryMemory
  | protectMemory
  | callFunction
  | allocateConsole
  | createFunction
  | freeFunction
  | remoteCall
  | remoteCallResponse
  deriving DecidableEq, Repr

namespace Kind

def tag : Kind → UInt32
  | status => 1
  | statusWithValue => 2
  | closeProcess => 3
  | isValid => 4
  | readMemory => 5
  | writeMemory => 6
  | allocateMemory => 7
  | freeMemory => 8
  | queryMemory => 9
  | protectMemory => 10
  | callFunction => 11
  | allocateConsole => 12
  | createFunction => 13
  | freeFunction => 14
  | remoteCall => 15
  | remoteCallResponse => 16

def name : Kind → String
  | status => "Status"
  | statusWithValue => "StatusWithValue"
  | closeProcess => "CloseProcess"
  | isValid => "IsValid"
  | readMemory => "ReadMemory"
  | writeMemory => "WriteMemory"
  | allocateMemory => "AllocateMemory"
  | freeMemory => "FreeMemory"
  | queryMemory => "QueryMemory"
  | protectMemory => "ProtectMemory"
  | callFunction => "CallFunction"
  | allocateConsole => "AllocateConsole"
  | createFunction => "CreateFunction"
  | freeFunction => "FreeFunction"
  | remoteCall => "RemoteCall"
  | remoteCallResponse => "RemoteCallResponse"

def callName (k : Kind) : String :=
  String.ofList ((k.name.toList.flatMap fun c =>
    if c.isUpper then ['_', c.toLower] else [c]).drop 1)

def all : List Kind :=
  [status, statusWithValue, closeProcess, isValid, readMemory, writeMemory, allocateMemory,
    freeMemory, queryMemory, protectMemory, callFunction, allocateConsole, createFunction,
    freeFunction, remoteCall, remoteCallResponse]

def ofTag? (tag : UInt32) : Option Kind := all.find? (·.tag = tag)

def ofName? (name : String) : Option Kind := all.find? (·.name = name)

def ofCallName? (name : String) : Option Kind := all.find? (·.callName = name)

theorem ofTag?_tag (k : Kind) : ofTag? k.tag = some k := by cases k <;> rfl

theorem tag_of_ofTag? {tag : UInt32} {k : Kind} (h : ofTag? tag = some k) : k.tag = tag := by
  simpa using List.find?_some h

theorem ofTag?_eq_some_iff {tag : UInt32} {k : Kind} : ofTag? tag = some k ↔ k.tag = tag :=
  ⟨tag_of_ofTag?, fun h => h ▸ ofTag?_tag k⟩

end Kind

end Message

end RemoteAgent
