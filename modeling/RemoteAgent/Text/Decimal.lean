/-! Decimal numerals as they are read from settings: digits, with a plus in front or not. -/

namespace RemoteAgent.Text

def decimalValue (cs : List Char) : Nat := cs.foldl (fun n c => n * 10 + (c.toNat - '0'.toNat)) 0

def decimal? (s : String) : Option Nat :=
  let digits :=
    match s.toList with
    | '+' :: r => r
    | cs => cs
  if digits ≠ [] ∧ digits.all Char.isDigit then some (decimalValue digits) else none

end RemoteAgent.Text
