import RemoteAgent.Error

/-! Walks over a memory map that is only known by queries: whether a range may be touched, and all
regions in turn. A walk tells the addresses it asked about. -/

namespace RemoteAgent.Memory

variable (query : Nat → Option Region)

theorem Region.stop_le_top (r : Region) : r.stop ≤ top := Nat.min_le_right _ _

def checkFrom (stop cursor : Nat) : List Nat × Except Error Unit :=
  match query cursor with
  | none => ([cursor], .error (.memoryAccess cursor .unqueryable))
  | some r =>
    if !r.isAccessible then
      ([cursor], .error (.memoryAccess cursor (.inaccessible r.base r.state r.protect)))
    else if _h : r.stop ≤ cursor then ([cursor], .error (.memoryAccess cursor .noProgress))
    else if stop ≤ r.stop then ([cursor], .ok ())
    else
      let (asked, result) := checkFrom stop r.stop
      (cursor :: asked, result)
  termination_by top - cursor
  decreasing_by have := r.stop_le_top; omega

/-- Whether every page of a range is committed and may be touched. An empty range still asks this
of the page at its address. -/
def check (address length : Nat) : List Nat × Except Error Unit :=
  match add? address length with
  | none => ([], .error (.memoryAccess address (.rangeOverflows length)))
  | some stop => checkFrom query stop address

def walkFrom (cursor : Nat) : List (Nat × Option Region) :=
  match query cursor with
  | none => [(cursor, none)]
  | some r =>
    if _h : r.stop ≤ cursor ∨ r.stop = top then [(cursor, some r)]
    else (cursor, some r) :: walkFrom r.stop
  termination_by top - cursor
  decreasing_by have := r.stop_le_top; omega

def regions : List Region := (walkFrom query 0).filterMap (·.2)

def protectionAt (address : Nat) : UInt32 :=
  match query address with
  | some r => r.protect
  | none => 0

end RemoteAgent.Memory
