import RemoteAgent.Text.Blank
import RemoteAgent.Text.Hex
import RemoteAgent.Text.Utf8
import RemoteAgent.Memory.Region

/-! Mappings: the lines of a memory map, and the region that a map shows at an address. -/

namespace RemoteAgent.Memory

/-- A stretch of mapped memory of one protection. -/
structure Mapping where
  start : Nat
  stop : Nat
  read : Bool
  write : Bool
  execute : Bool
  path : String := ""
  deriving DecidableEq, Repr

namespace Mapping

def readAddress? (cs : List Char) : Option Nat :=
  let digits := match cs with
    | '+' :: r => r
    | _ => cs
  match Text.readHex digits with
  | some n => if n ≤ top then some n else none
  | none => none

def readRange? (cs : List Char) : Option (Nat × Nat) := do
  let (a, b) ← Text.splitOnce? '-' cs
  return (← readAddress? a, ← readAddress? b)

def parse? (line : String) : Option Mapping := do
  let ws := Text.words line.toList
  let range ← ws[0]?
  let letters := Text.Utf8.encode (String.ofList (← ws[1]?))
  let path := String.ofList (ws[5]?.getD [])
  let (start, stop) ← readRange? range
  match letters with
  | r :: w :: x :: _ =>
    if start < stop then
      some { start, stop, path
             read := r = 'r'.toUInt8
             write := w = 'w'.toUInt8
             execute := x = 'x'.toUInt8 }
    else none
  | _ => none

def protection (m : Mapping) : Protection := ⟨m.read, m.write, m.execute, false⟩

def toRegion (m : Mapping) : Region :=
  let protect := m.protection.toCode
  { base := m.start
    size := m.stop - m.start
    protect
    state := if protect = Code.noAccess then .reserve else .commit
    backing :=
      if m.path.toList.head? = some '/' then if m.execute then .image else .mapped
      else .anonymous }

def contains (m : Mapping) (address : Nat) : Bool := m.start ≤ address && address < m.stop

theorem start_lt_stop_of_parse? {line : String} {m : Mapping} (h : parse? line = some m) :
    m.start < m.stop := by
  simp only [parse?, bind, Option.bind_eq_some_iff] at h
  obtain ⟨range, _, letters, _, ⟨start, stop⟩, _, h⟩ := h
  split at h
  · split at h
    · simp only [Option.some.injEq] at h
      subst h
      assumption
    · simp at h
  · simp at h

end Mapping

def freeRegion (start stop : Nat) : Region :=
  { base := start, size := stop - start, protect := 0, state := .free, backing := .none }

def regionFrom (gap : Nat) : List Mapping → Nat → Region
  | [], _ => freeRegion gap top
  | m :: r, address =>
    if address < m.start then freeRegion gap m.start
    else if address < m.stop then m.toRegion
    else regionFrom m.stop r address

def regionAt (mappings : List Mapping) (address : Nat) : Region := regionFrom 0 mappings address

end RemoteAgent.Memory
