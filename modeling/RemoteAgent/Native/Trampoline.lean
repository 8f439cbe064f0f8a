import RemoteAgent.Native.Call

/-! Trampolines: addresses that native code can call and that hand the arguments to a handler. -/

namespace RemoteAgent.Native

def stubBase : Nat := 0x2b0000000000

def stubSize : Nat := 0x40

def stubAddress (n : Nat) : Nat := stubBase + stubSize * n

theorem stubAddress_inj {m n : Nat} (h : stubAddress m = stubAddress n) : m = n := by
  simp only [stubAddress, stubSize] at h
  omega

structure Trampoline (η : Type) where
  address : Nat
  arity : Nat
  handler : η

/-- The arguments that a handler gets: as many as the trampoline has, whatever the caller passed. -/
def received (arity : Nat) (args : List UInt64) : List UInt64 :=
  (args ++ List.replicate arity 0).take arity

theorem received_eq_take {arity : Nat} {args : List UInt64} (h : arity ≤ args.length) :
    received arity args = args.take arity := by
  simp [received, List.take_append_of_le_length h]

end RemoteAgent.Native
