import RemoteAgent.Toml.Value

/-! Trees that grow by keys: what may be put where. A table is opened once, by its header; dotted keys
open tables that no header opens again. -/

namespace RemoteAgent.Toml

inductive Origin where
  | header
  | implied
  | dotted
  deriving DecidableEq, Repr

inductive Node where
  | value (v : Value)
  | table (origin : Origin) (entries : List (String × Node))
  | tables (elements : List (List (String × Node)))

abbrev Entries := List (String × Node)

namespace Entries

def set (key : String) (n : Node) (es : Entries) : Entries :=
  es.filter (·.1 ≠ key) ++ [(key, n)]

/-- Works on the table at the end of a path; tables on the way are made if need be. Dotted keys do
not lead into tables with a header. -/
def descend (dotted : Bool) (work : Origin → Entries → Option Entries) :
    (path : List String) → Origin → Entries → Option Entries
  | [], o, es => work o es
  | k :: r, _, es => do
    match es.lookup k with
    | none =>
      let o := if dotted then .dotted else .implied
      return set k (.table o (← descend dotted work r o [])) es
    | some (.table o inner) =>
      if dotted && o = .header then none
      return set k (.table o (← descend dotted work r o inner)) es
    | some (.tables (last :: before)) =>
      return set k (.tables ((← descend dotted work r .header last) :: before)) es
    | some (.tables []) | some (.value _) => none

def insert (path : List String) (key : String) (v : Value) : Entries → Option Entries :=
  descend true (fun o es =>
    if (path = [] || o = .dotted) && (es.lookup key).isNone then some (es ++ [(key, .value v)])
    else none) path .header

def openTable (path : List String) (key : String) : Entries → Option Entries :=
  descend false (fun _ es =>
    match es.lookup key with
    | none => some (set key (.table .header []) es)
    | some (.table .implied inner) => some (set key (.table .header inner) es)
    | some _ => none) path .header

def openElement (path : List String) (key : String) : Entries → Option Entries :=
  descend false (fun _ es =>
    match es.lookup key with
    | none => some (set key (.tables [[]]) es)
    | some (.tables elements) => some (set key (.tables ([] :: elements)) es)
    | some _ => none) path .header

end Entries

mutual

def Node.toValue : Node → Value
  | .value v => v
  | .table _ entries => .table (Entries.toValues entries)
  | .tables elements => .list (Entries.allToValues elements).reverse

def Entries.toValues : List (String × Node) → List (String × Value)
  | [] => []
  | (k, n) :: r => (k, n.toValue) :: Entries.toValues r

def Entries.allToValues : List (List (String × Node)) → List Value
  | [] => []
  | es :: r => .table (Entries.toValues es) :: Entries.allToValues r

end

end RemoteAgent.Toml
