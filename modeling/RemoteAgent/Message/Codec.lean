import RemoteAgent.Message.Basic

/-! Messages as bytes: the tag, then the fields, and nothing behind them. -/

namespace RemoteAgent.Message

open Wire

def Kind.layout : Kind → List FieldType
  | .status => [.bool]
  | .statusWithValue => [.bool, .bytes]
  | .closeProcess | .isValid | .allocateConsole => []
  | .readMemory => [.pointer, .u32]
  | .writeMemory => [.pointer, .bytes]
  | .allocateMemory => [.u32, .u32, .u32]
  | .freeMemory | .queryMemory => [.pointer]
  | .protectMemory => [.pointer, .u32, .u32]
  | .callFunction => [.pointer, .pointers]
  | .createFunction => [.text, .u32]
  | .freeFunction => [.text]
  | .remoteCall => [.text, .pointers]
  | .remoteCallResponse => [.pointer, .u32]

def Kind.fieldNames : Kind → List String
  | .status => ["success"]
  | .statusWithValue => ["success", "value"]
  | .closeProcess | .isValid | .allocateConsole => []
  | .readMemory => ["address", "size"]
  | .writeMemory => ["address", "data"]
  | .allocateMemory => ["size", "allocation_type", "protect"]
  | .freeMemory | .queryMemory => ["address"]
  | .protectMemory => ["address", "size", "protect"]
  | .callFunction => ["address", "arguments"]
  | .createFunction => ["name", "arg_count"]
  | .freeFunction => ["name"]
  | .remoteCall => ["name", "arguments"]
  | .remoteCallResponse => ["return_value", "flags"]

def row : (m : Message) → Row m.kind.layout
  | status b => (b, ())
  | statusWithValue b v => (b, v, ())
  | closeProcess | isValid | allocateConsole => ()
  | readMemory a n => (a, n, ())
  | writeMemory a d => (a, d, ())
  | allocateMemory n t p => (n, t, p, ())
  | freeMemory a | queryMemory a => (a, ())
  | protectMemory a n p => (a, n, p, ())
  | callFunction a as => (a, as, ())
  | createFunction s n => (s, n, ())
  | freeFunction s => (s, ())
  | remoteCall s as => (s, as, ())
  | remoteCallResponse a n => (a, n, ())

def ofRow : (k : Kind) → Row k.layout → Message
  | .status, (b, ()) => status b
  | .statusWithValue, (b, v, ()) => statusWithValue b v
  | .closeProcess, () => closeProcess
  | .isValid, () => isValid
  | .readMemory, (a, n, ()) => readMemory a n
  | .writeMemory, (a, d, ()) => writeMemory a d
  | .allocateMemory, (n, t, p, ()) => allocateMemory n t p
  | .freeMemory, (a, ()) => freeMemory a
  | .queryMemory, (a, ()) => queryMemory a
  | .protectMemory, (a, n, p, ()) => protectMemory a n p
  | .callFunction, (a, as, ()) => callFunction a as
  | .allocateConsole, () => allocateConsole
  | .createFunction, (s, n, ()) => createFunction s n
  | .freeFunction, (s, ()) => freeFunction s
  | .remoteCall, (s, as, ()) => remoteCall s as
  | .remoteCallResponse, (a, n, ()) => remoteCallResponse a n

@[simp] theorem ofRow_row (m : Message) : ofRow m.kind m.row = m := by cases m <;> rfl

@[simp] theorem kind_ofRow (k : Kind) (r : Row k.layout) : (ofRow k r).kind = k := by
  cases k <;> rfl

def encode (m : Message) : Except Error (List UInt8) := do
  let fields ← encodeRow m.kind.layout m.row
  return leBytes 4 m.kind.tag.toNat ++ fields

def reader : Action (List UInt8) Message := do
  let tag ← Wire.read .u32
  match Kind.ofTag? tag with
  | none => .fail (.unknownMessageType tag)
  | some k =>
    let m := ofRow k (← readRow k.layout)
    let rest ← Action.get
    if rest = [] then pure m else .fail (.protocol (.trailing rest.length k))

def decode (payload : List UInt8) : Except Error Message := (reader payload).result

end RemoteAgent.Message
