import RemoteAgent.Fault.Guard
import RemoteAgent.Memory.Area
import RemoteAgent.Memory.Engine

/-! The memory of the agent's own process: its areas, the bytes in them, and the table of the
agent's allocations, which are the only ranges it gives back. -/

namespace RemoteAgent.Memory

def pageSize : Nat := 4096

def pageDown (address : Nat) : Nat := address / pageSize * pageSize

def pageUp? (address : Nat) : Option Nat := (add? address (pageSize - 1)).map pageDown

def told (address : Nat) : Nat :=
  if address < 0x800000000000 ∨
      0xffff800000000000 ≤ address ∧ address < 0x10000000000000000 then address
  else 0

theorem told_lt (address : Nat) : told address < 0x10000000000000000 := by
  unfold told
  split <;> omega

structure Space where
  areas : List Area := []
  contents : Nat → UInt8 := fun _ => 0
  allocations : List (Nat × Nat) := []
  nextMap : Nat := 0x300000000000
  mapLimit : Nat := 0x400000000000
  canOpen : Bool := true
  /-- How the system refuses to unmap, if it does. -/
  unmapRefusal : Option OsError := none
  openScopes : Nat := 0
  /-- The bytes of its range that a copy has stored when it traps. -/
  torn : Nat → Bool := fun _ => false

namespace Space

/-- A page at the very top of the map, which is not an area of the process. -/
def gate : Mapping :=
  { start := 0xffffffffff600000, stop := 0xffffffffff601000
    read := false, write := false, execute := true, path := "[vsyscall]" }

def mappings (s : Space) : List Mapping := s.areas.map Area.toMapping ++ [gate]

def trap? (s : Space) (access : Access) (address : Nat) : Option Int :=
  match s.areas.find? (·.contains address) with
  | some a => a.trap? access
  | none => some 11

def firstTrap? (s : Space) (access : Access) : (address length : Nat) → Option (Int × Nat)
  | _, 0 => none
  | a, n + 1 =>
    match s.trap? access a with
    | some signal => some (signal, a)
    | none => firstTrap? s access (a + 1) n

theorem signal_of_trap? {s : Space} {access : Access} {a : Nat} {signal : Int}
    (h : s.trap? access a = some signal) : signal = 11 ∨ signal = 7 := by
  unfold trap? at h
  split at h
  · unfold Area.trap? at h
    split at h
    · cases h
      exact .inl rfl
    · split at h
      · cases h
        exact .inr rfl
      · cases h
  · cases h
    exact .inl rfl

theorem signal_of_firstTrap? {s : Space} {access : Access} {a n b : Nat} {signal : Int}
    (h : s.firstTrap? access a n = some (signal, b)) : signal = 11 ∨ signal = 7 := by
  induction n generalizing a with
  | zero => cases h
  | succ n ih =>
    rw [firstTrap?] at h
    split at h
    · next htrap =>
      cases h
      exact signal_of_trap? htrap
    · exact ih h

def bytesAt (s : Space) : (address length : Nat) → List UInt8
  | _, 0 => []
  | a, n + 1 => s.contents a :: bytesAt s (a + 1) n

def overlay (contents : Nat → UInt8) (address : Nat) (data : Array UInt8) (a : Nat) : UInt8 :=
  if address ≤ a then data.getD (a - address) (contents a) else contents a

def put (s : Space) (address : Nat) (data : List UInt8) : Space :=
  { s with contents := overlay s.contents address data.toArray }

def tear (s : Space) (address : Nat) (data : List UInt8) : Space :=
  { s with contents := fun a =>
      if s.torn a ∧ s.trap? .write a = none then overlay s.contents address data.toArray a
      else s.contents a }

def workedOn (change : Space → Space) (s : Space) : Space :=
  let t := change s
  { s with areas := t.areas, contents := t.contents, nextMap := t.nextMap, mapLimit := t.mapLimit }

instance : Fault.Scopes Space where
  openScopes := openScopes
  setOpenScopes n s := { s with openScopes := n }

def load (address length : Nat) : Action Space (List UInt8) := do
  let s ← Action.get
  match s.firstTrap? .read address length with
  | some (signal, a) => .fail (.fault signal (told a))
  | none => return s.bytesAt address length

def store (address : Nat) (data : List UInt8) : Action Space Unit := do
  let s ← Action.get
  match s.firstTrap? .write address data.length with
  | some (signal, a) =>
    .set (s.tear address data)
    .fail (.fault signal (told a))
  | none => .set (s.put address data)

def mapWarning : Log.Event :=
  { level := .warn, target := Engine.target, message := "Failed to read memory map",
    fields := [("error", OsError.tooManyFiles.message)] }

def look (s : Space) (address : Nat) : Option Region :=
  if s.canOpen then some (regionAt s.mappings address) else none

def looked (addresses : List Nat) : Action Space Unit := do
  let s ← Action.get
  if !s.canOpen then .tell (addresses.map fun _ => mapWarning)

/-- Maps fresh pages of zeros, which touch nothing mapped before. -/
def map (length : Nat) (p : Protection) : Action Space Nat := do
  let s ← Action.get
  let start := s.nextMap
  if start + length ≤ s.mapLimit then
    .set { s with areas := insertArea ⟨start, start + length, p, .anonymous⟩ s.areas
                  contents := fun a => if start ≤ a ∧ a < start + length then 0 else s.contents a
                  nextMap := start + length + pageSize }
    return start
  else .fail (.resourceExhausted (.mapRefused length .outOfMemory))

def allocate (size : Nat) (allocationType protect : UInt32) : Action Space Nat := do
  if size = 0 then .fail (.memoryAccess 0 .emptyAllocation)
  if !(Code.commits allocationType || Code.reserves allocationType) then
    .fail (.memoryAccess 0 (.unsupportedAllocation allocationType))
  match Protection.ofPlainCode? protect, pageUp? size with
  | none, _ => .fail (.memoryAccess 0 (.unsupportedProtection protect))
  | some _, none => .fail (.resourceExhausted (.tooManyBytes size))
  | some p, some length =>
    let address ← map length (if Code.commits allocationType then p else .none)
    .modify fun s => { s with allocations := (address, length) :: s.allocations }
    return address

def release (address : Nat) : Action Space Unit := do
  let s ← Action.get
  match s.allocations.lookup address with
  | none => .fail (.memoryAccess address .notAllocated)
  | some length =>
    let others := s.allocations.filter (·.1 ≠ address)
    match s.unmapRefusal with
    | some e =>
      .set { s with allocations := (address, length) :: others }
      .fail (.memoryAccess address (.unmapRefused e))
    | none =>
      .set { s with areas := unmapAreas address (address + length) s.areas, allocations := others }

def pagesOf? (address size : Nat) : Option (Nat × Nat) := do
  let stop ← pageUp? (← add? address (max size 1))
  return (pageDown address, stop)

def protect (address size : Nat) (code : UInt32) : Action Space UInt32 := do
  match Protection.ofPlainCode? code with
  | none => .fail (.memoryAccess address (.unsupportedProtection code))
  | some p =>
    let s ← Action.get
    looked [address]
    let old := protectionAt s.look address
    match pagesOf? address size with
    | none => .fail (.memoryAccess address .pagesOverflow)
    | some (lo, hi) =>
      let (areas, refusal) := protectAreas p hi lo s.areas
      .set { s with areas := coalesce areas }
      match refusal with
      | some e => .fail (.memoryAccess address (.protectRefused e))
      | none => return old

end Space

instance : AddressSpace Space where
  look := Space.look
  looked := Space.looked
  allocate := Space.allocate
  release := Space.release
  protect := Space.protect
  load address length := Fault.guarded (Space.load address length)
  store address data := Fault.guarded (Space.store address data)

end RemoteAgent.Memory
