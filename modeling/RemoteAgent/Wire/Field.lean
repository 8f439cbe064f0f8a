import RemoteAgent.Text.Utf8
import RemoteAgent.Wire.Bytes
import RemoteAgent.Wire.Source

/-! The fields that messages are made of. Numbers are little-endian, addresses always take eight
bytes, and the number of elements stands before every field of variable length. -/

namespace RemoteAgent.Wire

inductive FieldType where
  | bool
  | u32
  | i32
  | u64
  | pointer
  | length
  | bytes
  | text
  | pointers
  deriving DecidableEq, Repr

def FieldType.name : FieldType → String
  | bool => "bool"
  | u32 => "u32"
  | i32 => "i32"
  | u64 => "u64"
  | pointer => "pointer"
  | length => "len"
  | bytes => "bytes"
  | text => "string"
  | pointers => "pointers"

def FieldType.ofName? (name : String) : Option FieldType :=
  [bool, u32, i32, u64, pointer, length, bytes, text, pointers].find? (·.name = name)

def FieldType.Value : FieldType → Type
  | bool => Bool
  | u32 => UInt32
  | i32 => Int32
  | u64 | pointer => UInt64
  | length => Nat
  | bytes => List UInt8
  | text => String
  | pointers => List UInt64

def encodeLength (n : Nat) : Except Error (List UInt8) :=
  if n < UInt32.size then .ok (leBytes 4 n) else .error (.protocol (.lengthTooLarge n))

def encodeBlob (bs : List UInt8) : Except Error (List UInt8) := do
  return (← encodeLength bs.length) ++ bs

def encodePointer (a : UInt64) : List UInt8 := leBytes 8 a.toNat

def encodePointers (as : List UInt64) : Except Error (List UInt8) := do
  return (← encodeLength as.length) ++ as.flatMap encodePointer

def encode : (t : FieldType) → t.Value → Except Error (List UInt8)
  | .bool, (b : Bool) => .ok [if b then 1 else 0]
  | .u32, (n : UInt32) => .ok (leBytes 4 n.toNat)
  | .i32, (n : Int32) => .ok (leBytes 4 n.toUInt32.toNat)
  | .u64, a | .pointer, a => .ok (encodePointer a)
  | .length, n => encodeLength n
  | .bytes, bs => encodeBlob bs
  | .text, s => encodeBlob (Text.Utf8.encode s)
  | .pointers, as => encodePointers as

section Read

variable {σ : Type} [Source σ]

def readNat (width : Nat) : Action σ Nat := do
  return leValue (← exactly width)

def readPointer : Action σ UInt64 := do
  return UInt64.ofNat (← readNat 8)

def readBlob : Action σ (List UInt8) := do
  let n ← readNat 4
  let bs ← upTo n
  if bs.length < n then .fail (.channelIo (.truncated n bs.length)) else pure bs

def readText : Action σ String := do
  match Text.Utf8.decode (← readBlob) with
  | .ok s => pure s
  | .error f => .fail (.protocol (.invalidText f))

def readPointerList : Nat → Action σ (List UInt64)
  | 0 => pure []
  | n + 1 => do
    let a ← readPointer
    let r ← readPointerList n
    return a :: r

def read : (t : FieldType) → Action σ t.Value
  | .bool => do return leValue (← exactly 1) != 0
  | .u32 => do return UInt32.ofNat (← readNat 4)
  | .i32 => do return (UInt32.ofNat (← readNat 4)).toInt32
  | .u64 | .pointer => readPointer
  | .length => readNat 4
  | .bytes => readBlob
  | .text => readText
  | .pointers => do readPointerList (← readNat 4)

end Read

section Write

def put (bs : List UInt8) : Action Stream Unit := fun s =>
  match s.writeAll bs with
  | (.ok _, s') => ⟨.ok (), s', []⟩
  | (.error e, s') => ⟨.error (.channelIo e), s', []⟩

def writeLength (n : Nat) : Action Stream Unit := do put (← Action.ofExcept (encodeLength n))

def writeBlob (bs : List UInt8) : Action Stream Unit := do
  writeLength bs.length
  put bs

def writePointer (a : UInt64) : Action Stream Unit := put (encodePointer a)

def writePointers (as : List UInt64) : Action Stream Unit := do
  writeLength as.length
  Action.forEach as writePointer

/-- Puts a field on a stream, its parts one after another; nothing of it if it cannot be encoded. -/
def write : (t : FieldType) → t.Value → Action Stream Unit
  | .bool, (b : Bool) => put [if b then 1 else 0]
  | .u32, (n : UInt32) => put (leBytes 4 n.toNat)
  | .i32, (n : Int32) => put (leBytes 4 n.toUInt32.toNat)
  | .u64, a | .pointer, a => writePointer a
  | .length, n => writeLength n
  | .bytes, bs => writeBlob bs
  | .text, s => writeBlob (Text.Utf8.encode s)
  | .pointers, as => writePointers as

end Write

def Row : List FieldType → Type
  | [] => Unit
  | t :: r => t.Value × Row r

def encodeRow : (ts : List FieldType) → Row ts → Except Error (List UInt8)
  | [], _ => .ok []
  | t :: r, (v, vs) => do
    let bs ← encode t v
    let more ← encodeRow r vs
    return bs ++ more

def writeRow : (ts : List FieldType) → Row ts → Action Stream Unit
  | [], _ => pure ()
  | t :: r, (v, vs) => do
    write t v
    writeRow r vs

def readRow {σ : Type} [Source σ] : (ts : List FieldType) → Action σ (Row ts)
  | [] => pure ()
  | t :: r => do
    let v ← read t
    let vs ← readRow r
    return (v, vs)

end RemoteAgent.Wire
