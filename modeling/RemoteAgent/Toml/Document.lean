import RemoteAgent.Toml.Literal
import RemoteAgent.Toml.Text
import RemoteAgent.Toml.Tree

/-! Documents: lines with headers of tables, with keys and their values, or with comments. -/

namespace RemoteAgent.Toml

def skipBlanks (cs : List Char) : List Char := cs.dropWhile isBlank

def skipLines (inComment : Bool) : List Char → List Char
  | [] => []
  | c :: r =>
    if c = '\n' then skipLines false r
    else if inComment then if isPrintable c then skipLines true r else c :: r
    else if isBlank c then skipLines false r
    else if c = '#' then skipLines true r
    else c :: r

def endLine (cs : List Char) : Option (List Char) :=
  let rest :=
    match skipBlanks cs with
    | '#' :: r => r.dropWhile isPrintable
    | r => r
  match rest with
  | [] => some []
  | '\n' :: r => some r
  | _ => none

def maxDepth : Nat := 79

def isBareKey (c : Char) : Bool := c.isAlphanum || c = '_' || c = '-'

def readKeyPart (cs : List Char) : Option (String × List Char) :=
  match cs.span isBareKey with
  | ([], _) => Text.onLine? cs
  | (bare, rest) => some (String.ofList bare, rest)

def readKeys : (most : Nat) → List Char → Option (List String × List Char)
  | 0, _ => none
  | most + 1, cs => do
    let (k, r) ← readKeyPart (skipBlanks cs)
    match skipBlanks r with
    | '.' :: r =>
      let (ks, r) ← readKeys most r
      return (k :: ks, r)
    | r => return ([k], r)

def readKey (cs : List Char) : Option ((List String × String) × List Char) := do
  let (ks, r) ← readKeys maxDepth cs
  return ((ks.dropLast, ← ks.getLast?), r)

mutual

/-- Reads a value, with at most `depth` brackets inside each other. The fuel bounds the length. -/
def readValue : (fuel depth : Nat) → List Char → Option (Value × List Char)
  | 0, _, _ => none
  | fuel + 1, depth, cs =>
    match cs with
    | '[' :: r => do
      if depth = 0 then none
      let (vs, r) ← readItems fuel (depth - 1) (skipLines false r)
      return (.list vs, r)
    | '{' :: r => do
      if depth = 0 then none
      match skipBlanks r with
      | '}' :: r => return (.table [], r)
      | r =>
        let (es, r) ← readEntries fuel (depth - 1) [] r
        return (.table (Entries.toValues es), r)
    | c :: _ =>
      if c = '"' || c = '\'' then (Text.any? cs).map fun (s, r) => (.text s, r)
      else Literal.read? cs
    | [] => none

def readItems : (fuel depth : Nat) → List Char → Option (List Value × List Char)
  | 0, _, _ => none
  | fuel + 1, depth, cs =>
    match cs with
    | ']' :: r => some ([], r)
    | cs => do
      let (v, r) ← readValue fuel depth cs
      match skipLines false r with
      | ',' :: r =>
        let (vs, r) ← readItems fuel depth (skipLines false r)
        return (v :: vs, r)
      | ']' :: r => return ([v], r)
      | _ => none

def readEntries : (fuel depth : Nat) → Entries → List Char → Option (Entries × List Char)
  | 0, _, _, _ => none
  | fuel + 1, depth, es, cs => do
    let ((path, key), '=' :: r) ← readKey cs | none
    let (v, r) ← readValue fuel depth (skipBlanks r)
    let es ← es.insert path key v
    match skipBlanks r with
    | ',' :: r => readEntries fuel depth es r
    | '}' :: r => return (es, r)
    | _ => none

end

/-- What has been read of a document: the tree, and the table that keys go to. -/
structure Document where
  root : Entries := []
  path : List String := []

namespace Document

def insert (path : List String) (key : String) (v : Value) (d : Document) : Option Document := do
  let root ← Entries.descend false (fun _ es => es.insert path key v) d.path .header d.root
  return { d with root }

def readLine (d : Document) (cs : List Char) : Option (Document × List Char) := do
  match cs with
  | '[' :: '[' :: r =>
    let ((path, key), ']' :: ']' :: r) ← readKey r | none
    let root ← d.root.openElement path key
    return ({ root, path := path ++ [key] }, ← endLine r)
  | '[' :: r =>
    let ((path, key), ']' :: r) ← readKey r | none
    let root ← d.root.openTable path key
    return ({ root, path := path ++ [key] }, ← endLine r)
  | cs =>
    let ((path, key), '=' :: r) ← readKey cs | none
    let (v, r) ← readValue (cs.length + 1) maxDepth (skipBlanks r)
    return (← d.insert path key v, ← endLine r)

def readLines : (fuel : Nat) → Document → List Char → Option Document
  | 0, _, _ => none
  | fuel + 1, d, cs =>
    match skipLines false cs with
    | [] => some d
    | cs => do
      let (d, r) ← readLine d cs
      readLines fuel d r

end Document

def joinLineEnds : List Char → List Char
  | '\r' :: '\n' :: r => '\n' :: joinLineEnds r
  | c :: r => c :: joinLineEnds r
  | [] => []

def dropMark : List Char → List Char
  | '\ufeff' :: r => r
  | cs => cs

def read? (text : String) : Option Value := do
  let cs := joinLineEnds (dropMark text.toList)
  let d ← Document.readLines (cs.length + 1) {} cs
  return .table (Entries.toValues d.root)

end RemoteAgent.Toml
