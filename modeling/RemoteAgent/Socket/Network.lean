import RemoteAgent.Action
import RemoteAgent.Socket.Connection
import RemoteAgent.Text.Path

/-! Networks of one machine: its files, among them the sockets that listen, and the connections that
wait to be accepted or have been. -/

namespace RemoteAgent.Socket

inductive Entry where
  | file (content : List UInt8)
  | directory
  | socket (listener : Nat)
  deriving DecidableEq, Repr

structure Listener where
  isOpen : Bool := true
  queue : List Nat := []

structure Network where
  directories : List (List String)
  entries : List (List String × Entry) := []
  listeners : List Listener := []
  connections : List Connection := []

namespace Network

/-- Follows names from a directory; every name but the last has to be that of a directory. -/
def resolve (directories : List (List String)) (here : List String) :
    List String → Option (List String)
  | [] => some here
  | n :: r =>
    if here ≠ [] ∧ here ∉ directories then none
    else resolve directories (if n = ".." then here.dropLast else here ++ [n]) r

def origin (n : Network) (path : String) : List String :=
  if Text.Path.isAbsolute path then [] else n.directories.headD []

def locate (n : Network) (path : String) : Option (List String) :=
  resolve n.directories (n.origin path) (Text.Path.names path)

def entryAt (n : Network) (path : String) : Option Entry := do
  let place ← n.locate path
  (n.entries.lookup place).or (if place ∈ n.directories then some .directory else none)

def exists? (n : Network) (path : String) : Bool := (n.entryAt path).isSome

def without (n : Network) (place : List String) : List (List String × Entry) :=
  n.entries.filter (·.1 ≠ place)

def put (path : String) (e : Entry) : Action Network Unit :=
  .modify fun n =>
    match n.locate path with
    | some place => { n with entries := (place, e) :: n.without place }
    | none => n

def remove (path : String) (n : Network) : Except OsError Network :=
  match n.entryAt path, n.locate path with
  | some .directory, _ => .error .isDirectory
  | some _, some place => .ok { n with entries := n.without place }
  | _, _ => .error .noEntry

def hasNull (path : String) : Bool := path.toList.contains (Char.ofNat 0)

def readFile (n : Network) (path : String) : Except IoError (List UInt8) :=
  if hasNull path then .error ⟨.invalidInput, "file name contained an unexpected NUL byte"⟩
  else if path = "" then .error OsError.noEntry.toIoError
  else match n.entryAt path with
    | some (.file content) => .ok content
    | some .directory => .error OsError.isDirectory.toIoError
    | some (.socket _) => .error OsError.noDevice.toIoError
    | none => .error OsError.noEntry.toIoError

/-- Writes to the end of a file, which is made if there is none. Nothing happens where that cannot
be; whether it could. -/
def append (path : String) (bytes : List UInt8) (n : Network) : Bool × Network :=
  if hasNull path || path = "" then (false, n)
  else match n.locate path, n.entryAt path with
    | some place, some (.file content) =>
      (true, { n with entries := (place, .file (content ++ bytes)) :: n.without place })
    | some place, none => (true, { n with entries := (place, .file bytes) :: n.entries })
    | _, _ => (false, n)

def list (n : Network) (directory : String) : List (String × Entry) :=
  let here := Text.Path.names directory
  let inside (place : List String) : Option String :=
    if place.length = here.length + 1 ∧ place.dropLast = here then place.getLast? else none
  let found := n.entries.filterMap fun (place, e) => (inside place).map (·, e)
  let dirs := n.directories.filterMap fun place => (inside place).map (·, Entry.directory)
  (found ++ dirs).mergeSort fun a b => a.1 ≤ b.1

def maxPathLength : Nat := 107

def failIo {α : Type} (e : IoError) : Action Network α := .fail (.channelIo e)

def refuse {α : Type} (e : OsError) : Action Network α := failIo e.toIoError

def checkPath (path : String) : Action Network Unit := do
  if hasNull path then
    failIo ⟨.invalidInput, "paths must not contain interior null bytes"⟩
  if path.utf8ByteSize > maxPathLength then
    failIo ⟨.invalidInput, "path must be shorter than SUN_LEN"⟩

def bind (path : String) : Action Network Nat := do
  checkPath path
  let n ← Action.get
  match n.locate path, n.entryAt path with
  | none, _ => refuse .noEntry
  | some _, some _ => refuse .addressInUse
  | some place, none =>
    let i := n.listeners.length
    .set { n with entries := (place, .socket i) :: n.entries, listeners := n.listeners ++ [{}] }
    return i

def connectTo (listener : Nat) : Action Network Nat := do
  let n ← Action.get
  if ((n.listeners[listener]?).map (·.isOpen)).getD false then
    let c := n.connections.length
    .set { n with connections := n.connections ++ [{}]
                  listeners := n.listeners.modify listener fun l => { l with queue := l.queue ++ [c] } }
    return c
  else refuse .connectionRefused

def connect (path : String) : Action Network Nat := do
  checkPath path
  match (← Action.get).entryAt path with
  | none => refuse .noEntry
  | some (.socket i) => connectTo i
  | some _ => refuse .connectionRefused

def accept (listener : Nat) : Action Network (Option Nat) := do
  let n ← Action.get
  match (n.listeners[listener]?).bind (·.queue.head?) with
  | none => return none
  | some c =>
    .set { n with listeners := n.listeners.modify listener fun l => { l with queue := l.queue.tail } }
    return some c

def adjust (c : Nat) (f : Connection → Connection) : Action Network Unit :=
  .modify fun n => { n with connections := n.connections.modify c f }

/-- Stops listening; the connections that still wait are cut. -/
def closeListener (i : Nat) : Action Network Unit := do
  let n ← Action.get
  let cut := ((n.listeners[i]?).map (·.queue)).getD []
  .set { n with listeners := n.listeners.set i { isOpen := false }
                connections := cut.foldl (fun cs c => cs.modify c (·.abandon .server true))
                  n.connections }

def onConnection {α : Type} (c : Nat) (op : Connection → α × Connection) (absent : α) :
    Action Network α := do
  let n ← Action.get
  match n.connections[c]? with
  | none => return absent
  | some k =>
    let (a, k) := op k
    .set { n with connections := n.connections.set c k }
    return a

def read (c : Nat) (side : Side) (max : Nat) : Action Network (Except OsError (List UInt8)) :=
  onConnection c (Connection.read side max) (.ok [])

def write (c : Nat) (side : Side) (data : List UInt8) : Action Network (Except OsError Unit) :=
  onConnection c (Connection.write side data) (.error .brokenPipe)

def probe (c : Nat) (side : Side) : Action Network Bool :=
  onConnection c (Connection.probe side) false

end Network

end RemoteAgent.Socket
