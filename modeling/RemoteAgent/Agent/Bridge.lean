import RemoteAgent.Channel.Frame

/-! The bridge: calls of native code on their way to the controller. The active data session carries
them, one round trip at a time; a session whose round trip failed is not used again. -/

namespace RemoteAgent

open Log

/-- A controller's data connection. -/
structure Bridge.Session where
  link : Channel.Link
  failed : Bool := false
  /-- Whether the session still exists; the bridge does not keep it alive. -/
  held : Bool := true
  reply : List UInt8 → List Stream.Piece := fun _ => []

structure Bridge where
  sessions : List Bridge.Session := []
  active : Option Nat := none

namespace Bridge

def target : String := "hands_agent::bridge"

def note (message : String) : Event := { level := .debug, target, message }

def current (b : Bridge) : Option Nat :=
  b.active.filter fun i => ((b.sessions[i]?).map (·.held)).getD false

def isAttached (b : Bridge) : Bool := b.current.isSome

def isFailed (b : Bridge) (i : Nat) : Bool := ((b.sessions[i]?).map (·.failed)).getD false

def sentSince (before after : Bridge) : List (Nat × List UInt8) :=
  let news := after.sessions.zipIdx.map fun (s, i) =>
    let old := ((before.sessions[i]?).map (·.link.stream.sent.length)).getD 0
    (i, s.link.stream.sent.drop old)
  news.filter (·.2 ≠ [])

def adjust (i : Nat) (f : Session → Session) : Action Bridge Unit :=
  .modify fun b => { b with sessions := b.sessions.modify i f }

def add (session : Session) : Action Bridge Nat := do
  let b ← Action.get
  .set { b with sessions := b.sessions ++ [session] }
  return b.sessions.length

def attach (i : Nat) : Action Bridge Unit := do
  .modify fun b => { b with active := some i }
  .tell [note "Data session attached"]

def detach : Action Bridge Unit := do
  let b ← Action.get
  if b.active.isSome then
    .set { b with active := none }
    .tell [note "Data session detached"]

def detachSession (i : Nat) : Action Bridge Unit := do
  let b ← Action.get
  if b.active = some i then
    .set { b with active := none }
    .tell [note "Failed data session detached"]

def release (i : Nat) : Action Bridge Unit := adjust i fun s => { s with held := false }

def deliver (before : Nat) (s : Session) : Session :=
  let fresh := s.link.stream.sent.drop before
  { s with link := { s.link with stream := s.link.stream.feed (s.reply fresh) } }

def Session.roundTrip (name : String) (args : List UInt64) :
    Action Session (UInt64 × UInt32) := do
  let s ← Action.get
  let onLink {α : Type} (act : Action Channel.Link α) : Action Session α :=
    act.on Session.link fun link s => { s with link }
  onLink (Channel.send (.remoteCall name args))
  .modify (deliver s.link.stream.sent.length)
  match ← onLink (Channel.expect .remoteCallResponse) with
  | .remoteCallResponse value flags => return (value, flags)
  | other => .fail (.unexpectedMessage .remoteCallResponse other.kind)

def roundTrip (i : Nat) (name : String) (args : List UInt64) :
    Action Bridge (UInt64 × UInt32) := do
  let b ← Action.get
  match b.sessions[i]? with
  | none => .fail .notConnected
  | some s =>
    (Session.roundTrip name args).on (fun _ => s) fun s b =>
      { b with sessions := b.sessions.set i s }

/-- Hands a call to the controller and gives back its answer; 0 if no controller is there or the
round trip fails, which detaches the session. -/
def forward (name : String) (args : List UInt64) : Action Bridge UInt64 := do
  let b ← Action.get
  let function := ("function", name)
  match b.current with
  | none =>
    .tell [{ level := .debug, target, message := "No controller attached, returning 0",
             fields := [function] }]
    return 0
  | some i =>
    match ← (roundTrip i name args).attempt with
    | .ok (value, flags) =>
      if Message.wantsStackTrace flags then
        .tell [{ level := .info, target, message := "Stack trace requested by controller:",
                 fields := [function] }]
      .tell [{ level := .debug, target, message := "Remote call completed",
               fields := [function, ("return_value", toString value.toNat)] }]
      return value
    | .error e =>
      .tell [{ level := .warn, target, message := "Remote call failed, detaching data session",
               fields := [function, ("error", e.message)] }]
      adjust i fun s => { s with failed := true }
      detachSession i
      return 0

end Bridge

end RemoteAgent
