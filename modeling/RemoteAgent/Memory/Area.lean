import RemoteAgent.Memory.Mapping
import RemoteAgent.Error

/-! Areas: the stretches of mapped memory as the system keeps them, in rising order. Protecting
a range goes from area to area and stops at the first one that is missing or refuses. -/

namespace RemoteAgent.Memory

inductive Access where
  | read
  | write
  | execute
  deriving DecidableEq, Repr

inductive Area.Source where
  | anonymous
  | file (path : String) (writable backed : Bool)
  deriving DecidableEq, Repr

structure Area where
  start : Nat
  stop : Nat
  protection : Protection
  source : Area.Source := .anonymous
  deriving DecidableEq, Repr

namespace Area

def contains (a : Area) (address : Nat) : Bool := a.start ≤ address && address < a.stop

def allows (a : Area) : Access → Bool
  | .read => a.protection.read
  | .write => a.protection.write
  | .execute => a.protection.execute

def accepts (a : Area) (p : Protection) : Bool :=
  match a.source with
  | .file _ writable _ => writable || !p.write
  | .anonymous => true

def trap? (a : Area) (access : Access) : Option Int :=
  if !a.allows access then some 11
  else match a.source with
    | .file _ _ false => some 7
    | _ => none

def toMapping (a : Area) : Mapping :=
  { start := a.start
    stop := a.stop
    read := a.protection.read
    write := a.protection.write
    execute := a.protection.execute
    path := match a.source with
      | .anonymous => ""
      | .file path _ _ => path }

def clip (lo hi : Nat) (a : Area) : List Area :=
  if max lo a.start < min hi a.stop then
    [{ a with start := max lo a.start, stop := min hi a.stop }]
  else []

end Area

def coalesce : List Area → List Area
  | [] => []
  | [a] => [a]
  | a :: b :: r =>
    if a.stop = b.start ∧ a.protection = b.protection ∧ a.source = b.source then
      coalesce ({ a with stop := b.stop } :: r)
    else a :: coalesce (b :: r)
  termination_by as => as.length

/-- Protects from `cursor` to `hi`. What is below the area that stops it stays changed. -/
def protectAreas (p : Protection) (hi cursor : Nat) : List Area → List Area × Option OsError
  | [] => ([], if cursor < hi then some .outOfMemory else none)
  | a :: r =>
    if hi ≤ cursor then (a :: r, none)
    else if a.stop ≤ cursor then
      let (r', e) := protectAreas p hi cursor r
      (a :: r', e)
    else if cursor < a.start then (a :: r, some .outOfMemory)
    else if !a.accepts p then (a :: r, some .accessDenied)
    else
      let (r', e) := protectAreas p hi (min hi a.stop) r
      let changed := (a.clip cursor hi).map fun b => { b with protection := p }
      (a.clip 0 cursor ++ changed ++ a.clip hi a.stop ++ r', e)

def unmapAreas (lo hi : Nat) (areas : List Area) : List Area :=
  areas.flatMap fun a => a.clip 0 lo ++ a.clip hi a.stop

def insertArea (a : Area) : List Area → List Area
  | [] => [a]
  | b :: r => if a.start < b.start then a :: b :: r else b :: insertArea a r

end RemoteAgent.Memory
