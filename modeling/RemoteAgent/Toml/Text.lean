import RemoteAgent.Text.Hex

/-! Texts in quotes: on one line or several, with escapes between double quotes and without them
between single ones. Characters are taken one at a time; where the reader stands decides what the next
one does. -/

namespace RemoteAgent.Toml

def isPrintable (c : Char) : Bool := c = '\t' || (0x20 ≤ c.toNat && c.toNat ≠ 0x7f)

def isBlank (c : Char) : Bool := c = ' ' || c = '\t'

namespace Text

structure Style where
  quote : Char
  escapes : Bool
  multiline : Bool

inductive Place where
  | plain
  | quotes (count : Nat)
  | escape
  | code (left value : Nat)
  | fold (pastLineEnd : Bool)

inductive Step where
  | more (out : List Char) (place : Place)
  | last (out : List Char)
  | over (out : List Char)
  | refused

def scalar? (n : Nat) : Option Char :=
  if n < 0xd800 ∨ (0xe000 ≤ n ∧ n < 0x110000) then some (Char.ofNat n) else none

def escaped? : Char → Option Char
  | 'b' => some '\x08'
  | 't' => some '\t'
  | 'n' => some '\n'
  | 'f' => some '\x0c'
  | 'r' => some '\r'
  | '"' => some '"'
  | '\\' => some '\\'
  | _ => none

def plainStep (s : Style) (before : List Char) (c : Char) : Step :=
  if c = s.quote then if s.multiline then .more before (.quotes 1) else .last before
  else if s.escapes && c = '\\' then .more before .escape
  else if isPrintable c || (s.multiline && c = '\n') then .more (before ++ [c]) .plain
  else .refused

def step (s : Style) : Place → Char → Step
  | .plain, c => plainStep s [] c
  | .quotes n, c =>
    if c = s.quote && n < 5 then .more [] (.quotes (n + 1))
    else if 3 ≤ n then .over (List.replicate (n - 3) s.quote)
    else plainStep s (List.replicate n s.quote) c
  | .escape, c =>
    match escaped? c with
    | some d => .more [d] .plain
    | none =>
      if c = 'u' then .more [] (.code 4 0)
      else if c = 'U' then .more [] (.code 8 0)
      else if s.multiline && c = '\n' then .more [] (.fold true)
      else if s.multiline && isBlank c then .more [] (.fold false)
      else .refused
  | .code left value, c =>
    match RemoteAgent.Text.hexValue? c with
    | none => .refused
    | some d =>
      let value := value * 16 + d
      if 1 < left then .more [] (.code (left - 1) value)
      else match scalar? value with
        | some d => .more [d] .plain
        | none => .refused
  | .fold past, c =>
    if c = '\n' then .more [] (.fold true)
    else if isBlank c then .more [] (.fold past)
    else if past then plainStep s [] c
    else .refused

def finish (s : Style) : Place → Option (List Char)
  | .quotes n => if 3 ≤ n then some (List.replicate (n - 3) s.quote) else none
  | _ => none

def readFrom (s : Style) (place : Place) : List Char → Option (List Char × List Char)
  | [] => (finish s place).map (·, [])
  | c :: r =>
    match step s place c with
    | .more out next => (readFrom s next r).map fun (cs, rest) => (out ++ cs, rest)
    | .last out => some (out, r)
    | .over out => some (out, c :: r)
    | .refused => none

def read (s : Style) (cs : List Char) : Option (String × List Char) :=
  (readFrom s .plain cs).map fun (text, rest) => (String.ofList text, rest)

/-- A line end right behind the opening quotes of a text of several lines is not part of it. -/
def dropLineEnd : List Char → List Char
  | '\n' :: r => r
  | cs => cs

def onLine? : List Char → Option (String × List Char)
  | '"' :: r => read ⟨'"', true, false⟩ r
  | '\'' :: r => read ⟨'\'', false, false⟩ r
  | _ => none

def any? : List Char → Option (String × List Char)
  | '"' :: '"' :: '"' :: r => read ⟨'"', true, true⟩ (dropLineEnd r)
  | '\'' :: '\'' :: '\'' :: r => read ⟨'\'', false, true⟩ (dropLineEnd r)
  | cs => onLine? cs

end Text

end RemoteAgent.Toml
