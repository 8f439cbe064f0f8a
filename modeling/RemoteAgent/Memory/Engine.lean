import RemoteAgent.Action
import RemoteAgent.Memory.Walk

/-! The memory engine: reading, writing, allocating and protecting memory, each after a check of the
range against the memory map of that moment. -/

namespace RemoteAgent.Memory

open Log

/-- The memory that an engine works on. An allocation is released by its first address; to protect pages
tells the protection at their start before that; a copy that traps is a failure. -/
class AddressSpace (σ : Type) where
  look : σ → Nat → Option Region
  /-- What looking at these addresses, one after another, leaves behind. -/
  looked : List Nat → Action σ Unit
  allocate : (size : Nat) → (allocationType protect : UInt32) → Action σ Nat
  release : Nat → Action σ Unit
  protect : (address size : Nat) → UInt32 → Action σ UInt32
  load : (address length : Nat) → Action σ (List UInt8)
  store : (address : Nat) → List UInt8 → Action σ Unit

namespace Engine

variable {σ : Type} [AddressSpace σ]

def target : String := "hands_core::memory"

def validate (address length : Nat) : Action σ Unit := do
  let s ← Action.get
  let (asked, result) := check (AddressSpace.look s) address length
  AddressSpace.looked asked
  Action.ofExcept result

def read (address length : Nat) : Action σ (List UInt8) := do
  validate address length
  let bytes ← if length = 0 then pure [] else AddressSpace.load address length
  .tell [{ level := .trace, target, message := "Read memory",
           fields := [("address", Text.hex address), ("length", toString length)] }]
  return bytes

def write (address : Nat) (data : List UInt8) : Action σ Unit := do
  validate address data.length
  if data ≠ [] then AddressSpace.store address data
  .tell [{ level := .trace, target, message := "Wrote memory",
           fields := [("address", Text.hex address), ("length", toString data.length)] }]

def allocate (size : Nat) (allocationType protect : UInt32) : Action σ Nat := do
  let address ← AddressSpace.allocate size allocationType protect
  .tell [{ level := .debug, target, message := "Allocated memory",
           fields := [("address", Text.hex address), ("size", toString size),
             ("allocation_type", Text.hex allocationType.toNat),
             ("protect", Text.hex protect.toNat)] }]
  return address

/-- Releases an allocation; only addresses that may be touched are tried. -/
def free (address : Nat) : Action σ Unit := do
  validate address 0
  AddressSpace.release address
  .tell [{ level := .debug, target, message := "Released memory",
           fields := [("address", Text.hex address)] }]

def protect (address size : Nat) (code : UInt32) : Action σ UInt32 := do
  validate address size
  let old ← AddressSpace.protect address size code
  .tell [{ level := .debug, target, message := "Changed protection",
           fields := [("address", Text.hex address), ("size", toString size),
             ("old", Text.hex old.toNat), ("new", Text.hex code.toNat)] }]
  return old

def query (address : Nat) : Action σ UInt32 := do
  let s ← Action.get
  AddressSpace.looked [address]
  return protectionAt (AddressSpace.look s) address

def regions : Action σ (List Region) := do
  let s ← Action.get
  AddressSpace.looked ((walkFrom (AddressSpace.look s) 0).map (·.1))
  return Memory.regions (AddressSpace.look s)

def committedRegions : Action σ (List Region) := do
  return (← regions).filter (·.state = .commit)

end Engine

end RemoteAgent.Memory
