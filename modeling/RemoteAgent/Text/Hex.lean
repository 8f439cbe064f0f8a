/-! Hexadecimal numerals: lower case, after `0x`, without leading zeros. -/

namespace RemoteAgent.Text

def hexDigits (n : Nat) : List Char := Nat.toDigits 16 n

def hex (n : Nat) : String := "0x" ++ String.ofList (hexDigits n)

def hexValue? (c : Char) : Option Nat :=
  if '0' ≤ c ∧ c ≤ '9' then some (c.toNat - '0'.toNat)
  else if 'a' ≤ c ∧ c ≤ 'f' then some (c.toNat - 'a'.toNat + 10)
  else if 'A' ≤ c ∧ c ≤ 'F' then some (c.toNat - 'A'.toNat + 10)
  else none

def readHexFrom (acc : Nat) : List Char → Option Nat
  | [] => some acc
  | c :: r =>
    match hexValue? c with
    | some d => readHexFrom (acc * 16 + d) r
    | none => none

/-- Reads a number of one digit or more; there is no upper limit. -/
def readHex : List Char → Option Nat
  | [] => none
  | cs => readHexFrom 0 cs

def hexPairs (bytes : List UInt8) : String :=
  String.ofList (bytes.flatMap fun b =>
    [Nat.digitChar (b.toNat / 16), Nat.digitChar (b.toNat % 16)])

def readHexPairs : List Char → Option (List UInt8)
  | [] => some []
  | a :: b :: r => do
    return UInt8.ofNat (16 * (← hexValue? a) + (← hexValue? b)) :: (← readHexPairs r)
  | [_] => none

theorem readHexFrom_append (acc : Nat) (a b : List Char) :
    readHexFrom acc (a ++ b) = (readHexFrom acc a).bind fun n => readHexFrom n b := by
  induction a generalizing acc with
  | nil => rfl
  | cons c r ih =>
    simp only [List.cons_append, readHexFrom]
    split
    · exact ih _
    · rfl

end RemoteAgent.Text
