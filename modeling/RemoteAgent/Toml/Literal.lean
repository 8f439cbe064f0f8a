import RemoteAgent.Text.Hex
import RemoteAgent.Toml.Value

/-! Literals without quotes: truth values, numbers, dates and times. Digits may be set apart by single
underscores; whole numbers have 64 bits and a sign. -/

namespace RemoteAgent.Toml.Literal

def grouped (isDigit : Char → Bool) : List Char → Option (List Char)
  | [] => none
  | [c] => if isDigit c then some [c] else none
  | c :: '_' :: r => if isDigit c then (grouped isDigit r).map (c :: ·) else none
  | c :: d :: r => if isDigit c then (grouped isDigit (d :: r)).map (c :: ·) else none

def digits : List Char → Option (List Char) := grouped Char.isDigit

def valueIn (base : Nat) (cs : List Char) : Nat :=
  cs.foldl (fun n c => n * base + (Text.hexValue? c).getD 0) 0

def unsigned : List Char → Bool × List Char
  | '-' :: r => (true, r)
  | '+' :: r => (false, r)
  | cs => (false, cs)

def decimal? (cs : List Char) : Option (List Char) :=
  (digits cs).filter fun ds => ds.length = 1 || ds.head? ≠ some '0'

def inBase? (base : Nat) (cs : List Char) : Option Nat :=
  (grouped (fun c => ((Text.hexValue? c).map fun d => decide (d < base)).getD false) cs).map (valueIn base)

def integer? (cs : List Char) : Option Int :=
  let n : Option Int :=
    match cs with
    | '0' :: 'x' :: r => (inBase? 16 r).map Int.ofNat
    | '0' :: 'o' :: r => (inBase? 8 r).map Int.ofNat
    | '0' :: 'b' :: r => (inBase? 2 r).map Int.ofNat
    | _ =>
      let (negative, r) := unsigned cs
      (decimal? r).map fun ds =>
        let n := Int.ofNat (valueIn 10 ds)
        if negative then -n else n
  n.filter fun n => Int64.minValue.toInt ≤ n ∧ n ≤ Int64.maxValue.toInt

def overflow : Nat := 1 <<< 1024 - 1 <<< 970

def isTooLarge (n : Nat) (exponent : Int) : Bool :=
  let size := Int.ofNat (Nat.toDigits 10 n).length + exponent
  if n = 0 || size < 309 then false
  else if 309 < size then true
  else if 0 ≤ exponent then overflow ≤ n * Nat.pow 10 exponent.toNat
  else overflow * Nat.pow 10 (-exponent).toNat ≤ n

/-- Whether this is a number with a fraction or an exponent, or one that is none. Numbers above all
finite ones have to be written as such. -/
def isFraction (cs : List Char) : Bool :=
  let (negative, r) := unsigned cs
  if r = ['i', 'n', 'f'] || r = ['n', 'a', 'n'] then true
  else
    let (mantissa, power) := r.span fun c => c ≠ 'e' && c ≠ 'E'
    let (whole, fraction) := mantissa.span (· ≠ '.')
    let fractionDigits := if fraction = [] then some [] else digits (fraction.drop 1)
    let (down, powerRest) := unsigned (power.drop 1)
    let powerDigits := if power = [] then some [] else digits powerRest
    match decimal? whole, fractionDigits, powerDigits with
    | some ws, some fs, some ps =>
      let power := Int.ofNat (valueIn 10 ps)
      let exponent := (if down then -power else power) - fs.length
      (fraction ≠ [] || ps ≠ []) && (negative || !isTooLarge (valueIn 10 (ws ++ fs)) exponent)
    | _, _, _ => false

def number? (count : Nat) (cs : List Char) : Option (Nat × List Char) :=
  let ds := cs.take count
  if ds.length = count ∧ ds.all Char.isDigit then some (valueIn 10 ds, cs.drop count) else none

def lastDay (year month : Nat) : Nat :=
  if month = 2 then
    if year % 4 = 0 ∧ (year % 100 ≠ 0 ∨ year % 400 = 0) then 29 else 28
  else if month ∈ [4, 6, 9, 11] then 30 else 31

def date? (cs : List Char) : Option (List Char) := do
  let (year, '-' :: r) ← number? 4 cs | none
  let (month, '-' :: r) ← number? 2 r | none
  let (day, r) ← number? 2 r
  if 1 ≤ month ∧ month ≤ 12 ∧ 1 ≤ day ∧ day ≤ lastDay year month then some r else none

def clock? (cs : List Char) : Option (List Char) := do
  let (hour, ':' :: r) ← number? 2 cs | none
  let (minute, r) ← number? 2 r
  if hour ≤ 23 ∧ minute ≤ 59 then some r else none

/-- What is behind a time of day. A minute may have a leap second. -/
def time? (cs : List Char) : Option (List Char) := do
  let ':' :: r ← clock? cs | none
  let (second, r) ← number? 2 r
  if 60 < second then none
  match r with
  | '.' :: r =>
    let (ds, r) := r.span Char.isDigit
    if ds = [] then none else some r
  | r => some r

def isOffset : List Char → Bool
  | [] | ['Z'] | ['z'] => true
  | '+' :: r | '-' :: r => clock? r = some []
  | _ => false

def isTimeWithOffset (cs : List Char) : Bool := ((time? cs).map isOffset).getD false

def isDate (cs : List Char) : Bool := date? cs = some []

def isMoment (cs : List Char) : Bool :=
  time? cs = some [] ||
    match date? cs with
    | some [] => true
    | some (c :: r) => (c = 'T' || c = 't') && isTimeWithOffset r
    | none => false

def isPart (c : Char) : Bool := c.isAlphanum || c ∈ ['+', '-', '_', '.', ':']

def ofChars? (cs : List Char) : Option Value :=
  if cs = "true".toList then some (.boolean true)
  else if cs = "false".toList then some (.boolean false)
  else match integer? cs with
    | some n => some (.integer n)
    | none =>
      if isMoment cs then some (.moment (String.ofList cs))
      else if isFraction cs then some (.other (String.ofList cs))
      else none

def read? (cs : List Char) : Option (Value × List Char) :=
  let (part, rest) := cs.span isPart
  match rest with
  | ' ' :: r =>
    let (more, behind) := r.span isPart
    if isDate part && isTimeWithOffset more then
      some (.moment (String.ofList (part ++ ' ' :: more)), behind)
    else (ofChars? part).map (·, rest)
  | _ => (ofChars? part).map (·, rest)

end RemoteAgent.Toml.Literal
