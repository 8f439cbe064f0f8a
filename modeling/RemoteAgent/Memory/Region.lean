import RemoteAgent.Memory.Protection

/-! Regions: stretches of the address space of one protection, as a query reports them. -/

namespace RemoteAgent.Memory

def top : Nat := UInt64.size - 1

def add? (a b : Nat) : Option Nat := if a + b ≤ top then some (a + b) else none

inductive Region.State where
  | commit
  | reserve
  | free
  deriving DecidableEq, Repr

def Region.State.name : Region.State → String
  | commit => "Commit"
  | reserve => "Reserve"
  | free => "Free"

def Region.State.ofName? (name : String) : Option Region.State :=
  [commit, reserve, free].find? (·.name = name)

inductive Region.Backing where
  | image
  | mapped
  | anonymous
  | none
  deriving DecidableEq, Repr

def Region.Backing.name : Region.Backing → String
  | image => "Image"
  | mapped => "Mapped"
  | anonymous => "Private"
  | none => "None"

def Region.Backing.ofName? (name : String) : Option Region.Backing :=
  [image, mapped, anonymous, none].find? (·.name = name)

structure Region where
  base : Nat
  size : Nat
  protect : UInt32
  state : Region.State
  backing : Region.Backing
  deriving DecidableEq, Repr

namespace Region

/-- The address behind the region, or the highest one where there is none. -/
def stop (r : Region) : Nat := min (r.base + r.size) top

def contains (r : Region) (address : Nat) : Bool := r.base ≤ address && address < r.stop

def protection (r : Region) : Protection := .ofCode r.protect

def isAccessible (r : Region) : Bool := r.state = .commit && Code.isAccessible r.protect

end Region

end RemoteAgent.Memory
