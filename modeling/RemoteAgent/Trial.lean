import RemoteAgent.Channel.Hub
import RemoteAgent.Controller.Visit
import RemoteAgent.Host.Run
import RemoteAgent.Native.Trampoline
import RemoteAgent.Toml.Document

/-! Trial runs: a process whose native code is a handful of routines, memory laid out by hand, channels
one after another of one name, and labels for what differs from run to run. Nothing of the agent rests
on any of it. -/

namespace RemoteAgent.Trial

open Memory Native

/-! ### Native code -/

/-- The functions of the process. All their values have the size of an address and wrap around. -/
inductive Routine where
  | seven
  | identity
  | add
  | sub
  | mul
  | max6
  | weigh10
  | load64
  | store64
  deriving DecidableEq, Repr

namespace Routine

def all : List Routine := [seven, identity, add, sub, mul, max6, weigh10, load64, store64]

def name : Routine → String
  | seven => "seven"
  | identity => "identity"
  | add => "add"
  | sub => "sub"
  | mul => "mul"
  | max6 => "max6"
  | weigh10 => "weigh10"
  | load64 => "load64"
  | store64 => "store64"

def weighFrom (k : UInt64) : List UInt64 → UInt64
  | [] => 0
  | a :: r => k * a + weighFrom (k + 1) r

def loadCourse (address : Nat) : Course :=
  .memory id fun m =>
    match m.firstTrap? .read address 8 with
    | some (signal, a) => .trap signal (told a)
    | none => .value (UInt64.ofNat (Wire.leValue (m.bytesAt address 8)))

def storeCourse (address : Nat) (value : UInt64) : Course :=
  let data := Wire.leBytes 8 value.toNat
  let change (m : Space) : Space :=
    match m.firstTrap? .write address 8 with
    | some _ => m.tear address data
    | none => m.put address data
  .memory change fun m =>
    match m.firstTrap? .write address 8 with
    | some (signal, a) => .trap signal (told a)
    | none => .value value

/-- What a routine does with its arguments; those beyond its own are ignored. -/
def course (r : Routine) (args : List UInt64) : Course :=
  let arg (i : Nat) : UInt64 := args.getD i 0
  match r with
  | seven => .value 7
  | identity => .value (arg 0)
  | add => .value (arg 0 + arg 1)
  | sub => .value (arg 0 - arg 1)
  | mul => .value (arg 0 * arg 1)
  | max6 => .value ((args.take 6).foldl max 0)
  | weigh10 => .value (weighFrom 1 (args.take 10))
  | load64 => loadCourse (arg 0).toNat
  | store64 => storeCourse (arg 0).toNat (arg 1)

theorem returnsOrTraps_course (r : Routine) (args : List UInt64) :
    (r.course args).ReturnsOrTraps := by
  have htrap {m : Space} {access : Access} {a n b : Nat} {signal : Int}
      (h : m.firstTrap? access a n = some (signal, b)) :
      (Course.trap signal (told b)).ReturnsOrTraps :=
    ⟨Space.signal_of_firstTrap? h, told_lt b⟩
  cases r with
  | load64 =>
    intro m
    dsimp only
    split
    · next h => exact htrap h
    · trivial
  | store64 =>
    intro m
    dsimp only
    split
    · next h => exact htrap h
    · trivial
  | _ => trivial

def codeBase : Nat := 0x2a0000000000

def dataBase : Nat := codeBase + pageSize

def offset : Routine → Nat
  | seven => 0x10
  | identity => 0x20
  | add => 0x30
  | sub => 0x40
  | mul => 0x50
  | max6 => 0x60
  | weigh10 => 0x70
  | load64 => 0x80
  | store64 => 0x90

def address (r : Routine) : Nat := codeBase + r.offset

def at? (address : Nat) : Option Routine := all.find? (·.address = address)

def program : Program where
  course address args :=
    match at? address with
    | some r => r.course args
    | none => .trap 11 (told address)
  returnsOrTraps address args := by
    split
    · next r _ => exact r.returnsOrTraps_course args
    · exact ⟨.inl rfl, told_lt address⟩

def areas : List Area :=
  [⟨codeBase, dataBase, ⟨true, false, true, false⟩, .file "/agent" true true⟩,
    ⟨dataBase, dataBase + pageSize, ⟨true, false, false, false⟩, .file "/agent" true true⟩,
    ⟨0x7ffffffde000, 0x7ffffffff000, ⟨true, true, false, false⟩, .anonymous⟩]

end Routine

/-- A handler that is a function of its arguments and of how often it has run, this time included.
It may panic, which gives no value. -/
abbrev Handler : Type := Nat → List UInt64 → Option UInt64

structure Hosted.Stub where
  trampoline : Trampoline Handler
  calls : Nat := 0
  live : Bool := true

structure Hosted where
  memory : Memory.Space
  stubs : List Hosted.Stub := []

namespace Hosted

def panicText : String := "handler failure"

def create (arity : Nat) (handler : Handler) : Action Hosted Nat := do
  let d ← Action.ofExcept (Descriptor.ofArity arity)
  let s ← Action.get
  let address := stubAddress s.stubs.length
  .set { s with stubs := s.stubs ++ [{ trampoline := ⟨address, d.arity, handler⟩ }] }
  return address

def runHandler (i : Nat) (args : List UInt64) : Action Hosted (Option UInt64) := do
  let s ← Action.get
  match s.stubs[i]? with
  | none => return none
  | some stub =>
    let calls := stub.calls + 1
    .set { s with stubs := s.stubs.set i { stub with calls } }
    return stub.trampoline.handler calls args

def callsOf (s : Hosted) (i : Nat) : Nat := ((s.stubs[i]?).map (·.calls)).getD 0

def drop (i : Nat) : Action Hosted Unit :=
  .modify fun s => { s with stubs := s.stubs.modify i fun stub => { stub with live := false } }

def find? (s : Hosted) (address : Nat) : Option Nat :=
  s.stubs.findIdx? fun stub => stub.live && stub.trampoline.address = address

def enter (i : Nat) (args : List UInt64) : Action Hosted UInt64 := do
  let s ← Action.get
  let arity := ((s.stubs[i]?).map (·.trampoline.arity)).getD 0
  return (← runHandler i (received arity args)).getD 0

instance : Machine Hosted where
  memory := memory
  setMemory m s := { s with memory := m }
  program _ := Routine.program
  trampoline? s address := (s.find? address).map enter

end Hosted

namespace Handler

def sum : Handler := fun _ args => some (args.foldl (· + ·) 0)

def product : Handler := fun _ args => some (args.foldl (· * ·) 1)

def weigh : Handler := fun _ args => some (Routine.weighFrom 1 args)

def count : Handler := fun calls _ => some (UInt64.ofNat calls)

def arity : Handler := fun _ args => some (UInt64.ofNat args.length)

def panic : Handler := fun _ _ => none

def ofName? : String → Option Handler
  | "sum" => some sum
  | "product" => some product
  | "weigh" => some weigh
  | "count" => some count
  | "arity" => some arity
  | "panic" => some panic
  | _ => none

end Handler

/-! ### Memory -/

/-! Arenas are laid out by a list of page runs, each with its permissions. -/

namespace Arena

def base : Nat := 0x200000000000

def pages : Nat := 256

def limit : Nat := base + pages * pageSize

/-- The area of a run: letters for the permissions, `none` for pages that cannot be touched, `hole`
for pages that are not mapped, `shared` and `bus` for files that have bytes and that have none. -/
def area? (index start stop : Nat) (permissions : String) : Option Area :=
  let readOnly : Protection := ⟨true, false, false, false⟩
  let path := s!"/arena-{index}"
  match permissions with
  | "hole" => none
  | "none" => some ⟨start, stop, .none, .anonymous⟩
  | "shared" => some ⟨start, stop, readOnly, .file path false true⟩
  | "bus" => some ⟨start, stop, readOnly, .file path false false⟩
  | letters =>
    some ⟨start, stop,
      ⟨letters.contains 'r', letters.contains 'w', letters.contains 'x', false⟩, .anonymous⟩

def areasFrom (index start : Nat) : List (String × Nat) → List Area
  | [] => []
  | (permissions, count) :: r =>
    let stop := start + count * pageSize
    (if start < stop then area? index start stop permissions else none).toList ++
      areasFrom (index + 1) stop r

def space (runs : List (String × Nat)) (above : List Area) (fill : List (Nat × List UInt8)) :
    Space :=
  fill.foldl (fun s (address, data) => s.put address data)
    { areas := coalesce (areasFrom 0 base runs) ++ above }

def contains (r : Region) : Bool := base ≤ r.base && r.base + r.size ≤ limit

end Arena

/-! A table in place of an address space: regions and when they answer, and what the other operations
do. What it is asked is recorded. -/

structure Table.Entry where
  region : Region
  answers : Option (Nat × Nat) := none

inductive Table.Call where
  | allocate (size : Nat) (allocationType protect : UInt32)
  | release (address : Nat)
  | protect (address size : Nat) (protect : UInt32)

structure Table where
  entries : List Table.Entry
  fresh : Option Nat := none
  refuses : Bool := false
  asked : List Nat := []
  calls : List Table.Call := []
  memory : Space

namespace Table

def Entry.covers (e : Entry) (address : Nat) : Bool :=
  match e.answers with
  | some (lo, hi) => lo ≤ address && address < hi
  | none => e.region.contains address

def look (t : Table) (address : Nat) : Option Region :=
  (t.entries.find? (·.covers address)).map (·.region)

def record (call : Call) : Action Table Unit :=
  .modify fun t => { t with calls := t.calls ++ [call] }

def allocate (size : Nat) (allocationType protect : UInt32) : Action Table Nat := do
  record (.allocate size allocationType protect)
  match (← Action.get).fresh with
  | some address => return address
  | none => .fail (.resourceExhausted (.other "fake space is full"))

def release (address : Nat) : Action Table Unit := do
  record (.release address)
  if (← Action.get).refuses then .fail (.memoryAccess address (.other "fake release refused"))

def protect (address size : Nat) (code : UInt32) : Action Table UInt32 := do
  record (.protect address size code)
  let t ← Action.get
  if t.refuses then .fail (.memoryAccess address (.other "fake protect refused"))
  return protectionAt (fun a => (t.entries.map (·.region)).find? (·.contains a)) address

def inMemory {α : Type} (act : Action Space α) : Action Table α :=
  act.on memory fun m t => { t with memory := m }

end Table

instance : AddressSpace Table where
  look := Table.look
  looked addresses := .modify fun t => { t with asked := t.asked ++ addresses }
  allocate := Table.allocate
  release := Table.release
  protect := Table.protect
  load address length := Table.inMemory (AddressSpace.load address length)
  store address data := Table.inMemory (AddressSpace.store address data)

/-! ### Labels -/

structure Labels where
  allocations : List (Nat × Nat) := []
  others : List (Nat × String) := []

namespace Labels

def within? (address i : Nat) : List (Nat × Nat) → Option String
  | [] => none
  | (base, length) :: r =>
    if base ≤ address ∧ address < base + length then
      some (if address = base then s!"a{i}" else s!"a{i}+" ++ Text.hex (address - base))
    else within? address (i + 1) r

def find? (l : Labels) (address : Nat) : Option String :=
  match l.others.find? (·.1 = address) with
  | some (_, label) => some label
  | none => within? address 0 l.allocations

def shown (l : Labels) (address : Nat) : String := (l.find? address).getD (Text.hex address)

def readNumber? : List Char → Option Nat
  | '0' :: 'x' :: digits => Text.readHex digits
  | _ => none

def read? (l : Labels) (text : String) : Option Nat :=
  match l.others.find? (·.2 = text) with
  | some (address, _) => some address
  | none =>
    match text.toList with
    | 'a' :: r => do
      let (digits, rest) := r.span Char.isDigit
      let (base, _) ← l.allocations[← (String.ofList digits).toNat?]?
      match rest with
      | [] => some base
      | '+' :: offset => return base + (← readNumber? offset)
      | _ => none
    | cs => readNumber? cs

def allocate (l : Labels) (allocation : Option (Nat × Nat)) : Labels :=
  { l with allocations := l.allocations ++ allocation.toList }

def name (l : Labels) (address : Nat) (label : String) : Labels :=
  { l with others := l.others ++ [(address, label)] }

end Labels

def replaceHexFrom (f : (before : List Char) → Nat → Option String) (before : List Char) :
    (fuel : Nat) → List Char → List Char
  | 0, cs => before.reverse ++ cs
  | _, [] => before.reverse
  | fuel + 1, '0' :: 'x' :: r =>
    let (digits, rest) := r.span fun c => (Text.hexValue? c).isSome
    match (Text.readHex digits).bind (f before) with
    | some t => replaceHexFrom f (t.toList.reverse ++ before) fuel rest
    | none => replaceHexFrom f (digits.reverse ++ 'x' :: '0' :: before) fuel rest
  | fuel + 1, c :: r => replaceHexFrom f (c :: before) fuel r

def replaceHex (f : (before : List Char) → Nat → Option String) (text : String) : String :=
  String.ofList (replaceHexFrom f [] text.length text.toList)

def endsWith (before : List Char) (text : String) : Bool := text.toList.reverse.isPrefixOf before

def hideRegion (before : List Char) (address : Nat) : Option String :=
  if endsWith before "Region at " && Arena.limit < address && address < 0x800000000000 then
    some "<region>"
  else none

def Labels.apply (l : Labels) (text : String) : String :=
  replaceHex (fun before a => (hideRegion before a).or (l.find? a)) text

def hideAddresses (all : Bool) (text : String) : String :=
  replaceHex (fun before a =>
    (hideRegion before a).or
      (if (0x2a0000000000 ≤ a && a < 0x800000000000) ||
          (all && endsWith before "Access violation at ") then some "<address>" else none)) text

def Routine.labels : Labels :=
  { others := Routine.all.map fun r => (r.address, "fn:" ++ r.name) }

def labelSpace (before after : Space) (l : Labels) : Labels :=
  if after.nextMap ≠ before.nextMap then l.allocate after.allocations.head? else l

def labelContext (before after : Context) (l : Labels) : Labels :=
  let l := labelSpace before.memory after.memory l
  let tried := before.functions.tried
  if after.functions.tried ≠ tried then l.name (stubAddress tried) s!"t{tried}" else l

/-! ### Channels -/

section Meeting

open Channel Socket

/-- One channel after another of one name. The ends of the connections to them are numbered in the order
in which clients connected and in which the channel accepted them. -/
structure Meeting where
  name : Name
  hub : Hub
  channel : Option Nat := none
  clients : List Nat := []
  servers : List Nat := []

namespace Meeting

variable {α : Type}

def inHub (act : Action Hub α) : Action Meeting α := act.on hub fun hub m => { m with hub }

def inNetwork (act : Action Network α) : Action Meeting α := inHub (Hub.inNetwork act)

def inDirectory (name : Name) : Meeting :=
  { name, hub := { network := { directories := [[], Text.Path.names name.dir] } } }

def state (m : Meeting) : Option State := m.channel.map m.hub.stateOf

def hasEndpoint (m : Meeting) : Bool := m.hub.network.exists? m.name.endpointPath

def putEndpoint (e : Entry) : Action Meeting Unit := do
  inNetwork (Network.put (← Action.get).name.endpointPath e)

def drop : Action Meeting Unit := do
  if let some i := (← Action.get).channel then inHub (Hub.drop i)
  .modify fun m => { m with channel := none }

def listen : Action Meeting Unit := do
  let i ← inHub (Hub.listen (← Action.get).name)
  drop
  .modify fun m => { m with channel := some i }

def begin (stale : Option Entry) (listens : Bool) : Action Meeting Unit := do
  if let some e := stale then putEndpoint e
  if listens then listen

def onChannel (act : Nat → Action Hub α) : Action Meeting α := do
  match (← Action.get).channel with
  | some i => inHub (act i)
  | none => .fail .notConnected

def connect : Action Meeting Nat := do
  let c ← inHub (Hub.connect (← Action.get).name)
  let m ← Action.get
  .set { m with clients := m.clients ++ [c] }
  return m.clients.length

def accept : Action Meeting Nat := do
  let c ← onChannel Hub.wait
  let m ← Action.get
  .set { m with servers := m.servers ++ [c] }
  return m.servers.length

def atEnd (side : Side) (i : Nat) (act : Nat → Side → Action Network α) : Action Meeting α := do
  let m ← Action.get
  let cs := match side with
    | .client => m.clients
    | .server => m.servers
  match cs[i]? with
  | some c => inNetwork (act c side)
  | none => .fail .notConnected

def release (side : Side) (i : Nat) : Action Meeting Unit :=
  atEnd side i fun c side => Network.adjust c (·.release side)

def read (side : Side) (i max : Nat) : Action Meeting (Except OsError (List UInt8)) :=
  atEnd side i fun c side => Network.read c side max

def write (side : Side) (i : Nat) (data : List UInt8) : Action Meeting (Except OsError Unit) :=
  atEnd side i fun c side => Network.write c side data

end Meeting

end Meeting

/-! ### Hosts -/

def build : Host.Build :=
  .standard Routine.add.address Routine.dataBase

def hostMemory : Space :=
  ({ areas := Routine.areas } : Space).put build.greeting (Text.Utf8.encode "hands-host ready")

end RemoteAgent.Trial
