import RemoteAgent.Message.Kind
import RemoteAgent.Wire.Field

/-! Messages: what a controller asks of the agent, what the agent asks of a controller, and the
replies. Each is a row of fields. -/

namespace RemoteAgent

inductive Message where
  | status (success : Bool)
  | statusWithValue (success : Bool) (value : List UInt8)
  | closeProcess
  | isValid
  | readMemory (address : UInt64) (size : UInt32)
  | writeMemory (address : UInt64) (data : List UInt8)
  | allocateMemory (size allocationType protect : UInt32)
  | freeMemory (address : UInt64)
  | queryMemory (address : UInt64)
  | protectMemory (address : UInt64) (size protect : UInt32)
  | callFunction (address : UInt64) (arguments : List UInt64)
  | allocateConsole
  | createFunction (name : String) (argCount : UInt32)
  | freeFunction (name : String)
  | remoteCall (name : String) (arguments : List UInt64)
  | remoteCallResponse (returnValue : UInt64) (flags : UInt32)
  deriving DecidableEq, Repr

namespace Message

def kind : Message → Kind
  | status _ => .status
  | statusWithValue _ _ => .statusWithValue
  | closeProcess => .closeProcess
  | isValid => .isValid
  | readMemory _ _ => .readMemory
  | writeMemory _ _ => .writeMemory
  | allocateMemory _ _ _ => .allocateMemory
  | freeMemory _ => .freeMemory
  | queryMemory _ => .queryMemory
  | protectMemory _ _ _ => .protectMemory
  | callFunction _ _ => .callFunction
  | allocateConsole => .allocateConsole
  | createFunction _ _ => .createFunction
  | freeFunction _ => .freeFunction
  | remoteCall _ _ => .remoteCall
  | remoteCallResponse _ _ => .remoteCallResponse

def printStack : UInt32 := 0x1

def wantsStackTrace (flags : UInt32) : Bool := flags &&& printStack ≠ 0

def pointerValue (a : UInt64) : Message := statusWithValue true (Wire.encodePointer a)

def failureText (text : String) : Message := statusWithValue false (Text.Utf8.encode text)

/-- The size of a reply with a value, apart from the value's bytes: tag, success, length. -/
def valueOverhead : Nat := 4 + 1 + 4

def maxValueLength (maxMessageSize : Nat) : Nat := maxMessageSize - valueOverhead

end Message

end RemoteAgent
