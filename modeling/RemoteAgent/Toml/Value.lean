/-! Values of settings, as a document gives them: a tree whose leaves are texts, whole numbers, truth
values, times and what else no setting of ours holds. -/

namespace RemoteAgent.Toml

inductive Value where
  | text (s : String)
  | integer (n : Int)
  | boolean (b : Bool)
  | moment (literal : String)
  | other (literal : String)
  | list (items : List Value)
  | table (entries : List (String × Value))
  deriving Inhabited

namespace Value

def text? : Value → Option String
  | text s => some s
  | _ => none

def boolean? : Value → Option Bool
  | boolean b => some b
  | _ => none

def natural? : Value → Option Nat
  | integer (.ofNat n) => some n
  | _ => none

/-- Reads one setting of a group, by its name in a table or by its place in a list. One that is not
there has its default. A moment is a group, of one part that is no setting of ours. -/
def setting {α : Type} (group : Value) (name : String) (place : Nat) (read : Value → Option α)
    (default : α) : Option α :=
  match group with
  | table entries => ((entries.lookup name).map read).getD (some default)
  | list items => ((items[place]?).map read).getD (some default)
  | moment _ => some default
  | _ => none

end Value

end RemoteAgent.Toml
