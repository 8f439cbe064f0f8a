import RemoteAgent.Memory.Space

/-! Native code: the functions that are in a process beside the agent. The agent has no say in what they
do; it knows how a call of one can come out, and relies on it that every call comes out so. -/

namespace RemoteAgent.Native

inductive Course where
  | value (v : UInt64)
  | trap (signal : Int) (address : Nat)
  -- works on memory, and goes on by what it found there
  | memory (change : Memory.Space → Memory.Space) (next : Memory.Space → Course)
  -- calls a trampoline, and goes on with what that returns
  | callback (address : Nat) (args : List UInt64) (next : UInt64 → Course)
  -- does not come back: it waits for ever, or it ends its thread or the process
  | away

namespace Course

def ReturnsOrTraps : Course → Prop
  | value _ => True
  | trap signal address => (signal = 11 ∨ signal = 7) ∧ address < 0x10000000000000000
  | memory _ next => ∀ m, (next m).ReturnsOrTraps
  | callback _ _ next => ∀ v, (next v).ReturnsOrTraps
  | away => False

def Changes (kind : (Memory.Space → Memory.Space) → Prop) : Course → Prop
  | memory change next => kind change ∧ ∀ m, (next m).Changes kind
  | callback _ _ next => ∀ v, (next v).Changes kind
  | _ => True

theorem Changes.imp {kind kind' : (Memory.Space → Memory.Space) → Prop}
    (himp : ∀ change, kind change → kind' change) {c : Course} (h : c.Changes kind) :
    c.Changes kind' := by
  induction c with
  | memory change next ih => exact ⟨himp _ h.1, fun m => ih m (h.2 m)⟩
  | callback _ _ next ih => exact fun v => ih v (h v)
  | _ => trivial

theorem changes_of_forall {kind : (Memory.Space → Memory.Space) → Prop} (h : ∀ change, kind change)
    (c : Course) : c.Changes kind := by
  induction c with
  | memory change next ih => exact ⟨h change, fun m => ih m⟩
  | callback _ _ next ih => exact fun v => ih v
  | _ => trivial

end Course

structure Program where
  course : Nat → List UInt64 → Course
  returnsOrTraps : ∀ address args, (course address args).ReturnsOrTraps

def Program.empty : Program where
  course address _ := .trap 11 (Memory.told address)
  returnsOrTraps address _ := ⟨.inl rfl, Memory.told_lt address⟩

end RemoteAgent.Native
