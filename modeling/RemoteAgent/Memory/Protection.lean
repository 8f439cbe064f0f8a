/-! Page protections: the set of accesses that a page allows, and the numbers that stand for them
and for allocation types. -/

namespace RemoteAgent.Memory

namespace Code

def noAccess : UInt32 := 0x01
def readOnly : UInt32 := 0x02
def readWrite : UInt32 := 0x04
def writeCopy : UInt32 := 0x08
def execute : UInt32 := 0x10
def executeRead : UInt32 := 0x20
def executeReadWrite : UInt32 := 0x40
def executeWriteCopy : UInt32 := 0x80

def commit : UInt32 := 0x1000

def reserve : UInt32 := 0x2000

def accessible : List UInt32 :=
  [executeRead, executeReadWrite, executeWriteCopy, readOnly, readWrite, writeCopy]

def isAccessible (code : UInt32) : Bool := accessible.contains code

def commits (allocationType : UInt32) : Bool := allocationType &&& commit ≠ 0

def reserves (allocationType : UInt32) : Bool := allocationType &&& reserve ≠ 0

end Code

structure Protection where
  read : Bool
  write : Bool
  execute : Bool
  copyOnWrite : Bool := false
  deriving DecidableEq, Repr

namespace Protection

def none : Protection := ⟨false, false, false, false⟩

def ofCode (code : UInt32) : Protection :=
  let low := code &&& 0xFF
  { read := Code.isAccessible low
    write := [Code.readWrite, Code.writeCopy, Code.executeReadWrite,
      Code.executeWriteCopy].contains low
    execute := [Code.execute, Code.executeRead, Code.executeReadWrite,
      Code.executeWriteCopy].contains low
    copyOnWrite := [Code.writeCopy, Code.executeWriteCopy].contains low }

/-- The nearest number; there is none for writing without reading, which becomes both. -/
def toCode (p : Protection) : UInt32 :=
  match p.read || p.write, p.write, p.execute, p.copyOnWrite with
  | false, _, false, _ => Code.noAccess
  | false, _, true, _ => Code.execute
  | true, false, false, _ => Code.readOnly
  | true, false, true, _ => Code.executeRead
  | true, true, false, false => Code.readWrite
  | true, true, false, true => Code.writeCopy
  | true, true, true, false => Code.executeReadWrite
  | true, true, true, true => Code.executeWriteCopy

/-- The protection that pages get under a number: only the eight plain ones are supported. -/
def ofPlainCode? (code : UInt32) : Option Protection :=
  if code = Code.noAccess then some none
  else if code = Code.readOnly then some { none with read := true }
  else if code = Code.readWrite ∨ code = Code.writeCopy then some ⟨true, true, false, false⟩
  else if code = Code.execute then some { none with execute := true }
  else if code = Code.executeRead then some ⟨true, false, true, false⟩
  else if code = Code.executeReadWrite ∨ code = Code.executeWriteCopy then
    some ⟨true, true, true, false⟩
  else Option.none

def bits (p : Protection) : Nat :=
  (if p.read then 1 else 0) + (if p.write then 2 else 0) + (if p.execute then 4 else 0)

end Protection

end RemoteAgent.Memory
