import RemoteAgent.Log.Event
import RemoteAgent.Text.Blank
import RemoteAgent.Text.Decimal

/-! Filters: which events pass. A filter is a list of directives, each with the least level for the
targets that begin with a text. The most specific directive that an event meets decides. -/

namespace RemoteAgent.Log

inductive Bar where
  | off
  | level (l : Level)
  deriving DecidableEq, Repr

namespace Bar

def passes (b : Bar) (l : Level) : Bool :=
  match b with
  | off => false
  | level least => least.weight ≤ l.weight

def ofNumber? : Nat → Option Bar
  | 0 => some off
  | 1 => some (level .error)
  | 2 => some (level .warn)
  | 3 => some (level .info)
  | 4 => some (level .debug)
  | 5 => some (level .trace)
  | _ => none

def lower (s : String) : String := String.ofList (s.toList.map Char.toLower)

def ofName? (s : String) : Option Bar :=
  match lower s with
  | "" | "error" => some (level .error)
  | "warn" => some (level .warn)
  | "info" => some (level .info)
  | "debug" => some (level .debug)
  | "trace" => some (level .trace)
  | "off" => some off
  | _ => none

def ofText? (s : String) : Option Bar := ((Text.decimal? s).bind ofNumber?).or (ofName? s)

end Bar

structure Directive where
  bar : Bar := .level .trace
  target : Option String := none
  inSpan : Bool := false
  fields : List String := []
  hasValues : Bool := false
  deriving DecidableEq, Repr

namespace Directive

/-- Where the reader of a directive stands; parts begin at the places that are kept. -/
inductive Place where
  | start
  | target (first : Nat)
  | span (first : Nat)
  | field (first : Nat)
  | fields
  | spanEnd
  | level (first : Nat)

def addField (d : Directive) (part : String) : Option Directive :=
  match part.splitOn "=" with
  | [] => none
  | name :: values =>
    if part = "" then none
    else some { d with fields := d.fields ++ [name], hasValues := d.hasValues || values ≠ [] }

def isTargetStart (c : Char) : Bool := c ∈ ['-', ':', '_'] || c.isAlphanum || 0x80 ≤ c.toNat

/-- One character at a place. Parts are cut out of the whole text by `part`. -/
def step (part : Nat → Nat → String) (i : Nat) (c : Char) (d : Directive) :
    Place → Option (Directive × Place)
  | .start =>
    if c = '[' then some (d, .span (i + 1))
    else if isTargetStart c then some (d, .target i)
    else none
  | .target first =>
    if c = '=' then some ({ d with target := some (part first i) }, .level (i + 1))
    else if c = '[' then some ({ d with target := some (part first i) }, .span (i + 1))
    else some (d, .target first)
  | .span first =>
    if c = ']' then some ({ d with inSpan := true }, .spanEnd)
    else if c = '\x7b' then some ({ d with inSpan := part first i ≠ "" }, .field (i + 1))
    else some (d, .span first)
  | .field first =>
    if c = '\x7d' then (addField d (part first i)).map (·, .fields) else some (d, .field first)
  | .fields => if c = ']' then some (d, .spanEnd) else none
  | .spanEnd => if c = '=' then some (d, .level (i + 1)) else none
  | .level first => some (d, .level first)

def finish (rest : Nat → String) (d : Directive) : Place → Option Directive
  | .target first =>
    match Bar.ofText? (rest first) with
    | some bar => some { d with bar }
    | none => some { d with target := some (rest first) }
  | .level first =>
    if rest first = "" then some d
    else (Bar.ofText? (rest first)).map fun bar => { d with bar }
  | .spanEnd => some d
  | _ => none

def readFrom (source : List Char) (i : Nat) (d : Directive) (place : Place) :
    List Char → Option Directive
  | [] => finish (fun first => String.ofList (source.drop first)) d place
  | c :: r =>
    let part (first next : Nat) : String := String.ofList ((source.drop first).take (next - first))
    match step part i c d place with
    | some (d, place) => readFrom source (i + 1) d place r
    | none => none

def trimmed (cs : List Char) : List Char :=
  ((cs.dropWhile Text.isBlank).reverse.dropWhile Text.isBlank).reverse

def ofText? (s : String) : Option Directive := readFrom s.toList 0 {} .start (trimmed s.toList)

def isStatic (d : Directive) : Bool := !d.inSpan && !d.hasValues

def isMetBy (d : Directive) (e : Event) : Bool :=
  ((d.target.map fun t => t.toList.isPrefixOf e.target.toList).getD true) &&
    d.fields.all fun f => f = "message" || (e.fields.lookup f).isSome

def isBefore (a b : Directive) : Bool :=
  let size (d : Directive) : Nat := (d.target.map fun t => t.utf8ByteSize + 1).getD 0
  if size a ≠ size b then size b < size a
  else if a.fields.length ≠ b.fields.length then b.fields.length < a.fields.length
  else ¬ a.fields < b.fields

end Directive

abbrev Filter := List Directive

namespace Filter

def add (f : Filter) (d : Directive) : Filter :=
  f.filter (fun o => o.target ≠ d.target || o.fields ≠ d.fields) ++ [d]

def ofDirectives (ds : List Directive) : Filter :=
  if ds = [] then [{ bar := .level .error }]
  else ((ds.filter Directive.isStatic).foldl add []).mergeSort Directive.isBefore

def pieces (text : String) : List String := (text.splitOn ",").filter (· ≠ "")

def ofText? (text : String) : Option Filter := do
  return ofDirectives (← (pieces text).mapM Directive.ofText?)

def ofLevel (l : Level) : Filter := [{ bar := .level l }]

def passes (f : Filter) (e : Event) : Bool :=
  match f.find? (·.isMetBy e) with
  | some d => d.bar.passes e.level
  | none => false

end Filter

end RemoteAgent.Log
