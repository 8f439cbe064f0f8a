import RemoteAgent.Agent.Context
import RemoteAgent.Channel.Seat

/-! Gates: the channel of a service, at which controllers arrive one after another. Other threads may
get at the channel at any moment. -/

namespace RemoteAgent.Service

inductive Intrusion where
  | disconnect
  | close
  | stop
  deriving DecidableEq, Repr

inductive Probe where
  | alive
  | gone
  | stopping
  | call (name : String) (args : List UInt64)
  | intruded (i : Intrusion)

inductive Arrival.Outcome where
  | failure
  | closed
  | connection (stream : Stream)

/-- One wait for a controller and all that comes of it. The lists of intrusions are what other threads do
before the wait, while it blocks, once a connection is taken, during the session, and after it until the
service hangs up. -/
structure Arrival where
  outcome : Arrival.Outcome
  stopping : Bool := false
  probes : List Probe := []
  refusesTimeout : Bool := false
  notes : List Log.Event := []
  before : List Intrusion := []
  blocked : List Intrusion := []
  taken : List Intrusion := []
  attended : List Intrusion := []
  leaving : List Intrusion := []

inductive Entry where
  | connected
  | failed
  | closed
  | ended
  | probed (alive attached : Bool)
  | stopped
  | forwarded (value : UInt64) (attached : Bool)
  | markedBroken
  | disconnected (before : Channel.State)

structure Served where
  stream : Stream
  timeouts : List (Option Nat) := []

structure Gate where
  name : String
  seat : Channel.Seat := {}
  /-- The number of connections so far; they are the peers, in order. -/
  accepted : Nat := 0
  cut : List Nat := []
  stopping : Bool := false
  entries : List Entry := []
  served : List Served := []

/-- An agent, and the gate of one of its services. -/
structure Desk where
  context : Context
  gate : Gate

namespace Desk

def inContext {α : Type} (act : Action Context α) : Action Desk α :=
  act.on context fun c d => { d with context := c }

def inGate {α : Type} (act : Action Gate α) : Action Desk α :=
  act.on gate fun g d => { d with gate := g }

end Desk

namespace Gate

def record (e : Entry) : Action Gate Unit :=
  .modify fun g => { g with entries := g.entries ++ [e] }

def state (g : Gate) : Channel.State := g.seat.state

def vacate (seat : Channel.Seat) (g : Gate) : Gate :=
  { g with seat, cut := g.cut ++ g.seat.peer.toList }

def intrude (i : Intrusion) (g : Gate) : Gate :=
  match i with
  | .disconnect =>
    match g.seat.leave with
    | .ok seat => g.vacate seat
    | .error _ => g
  | .close => if g.state = .closed then g else g.vacate .close
  | .stop => { g with stopping := true }

def suffer (is : List Intrusion) : Action Gate Unit :=
  .modify fun g => is.foldl (fun g i => g.intrude i) g

def offer : Action Gate Unit := do
  let g ← Action.get
  let seat ← Action.ofExcept g.seat.offer
  .set { g with seat }

/-- The last part of a wait: a connection takes the seat. On a channel that was closed meanwhile it is
cut off. -/
def take : Action Gate Unit := do
  let g ← Action.get
  match g.seat.take g.accepted with
  | .ok seat =>
    record .connected
    .modify fun g => { g with seat, accepted := g.accepted + 1 }
  | .error e =>
    record .closed
    .modify fun g => { g with accepted := g.accepted + 1, cut := g.cut ++ [g.accepted] }
    .fail e

def wait (a : Arrival) : Action Gate Stream := do
  suffer a.before
  offer
  .modify fun g => { g with stopping := g.stopping || a.stopping }
  suffer a.blocked
  match a.outcome with
  | .failure =>
    record .failed
    .fail .notConnected
  | .closed =>
    record .closed
    suffer [.close]
    .fail (.invalidState "accept" .closed)
  | .connection stream =>
    take
    .tell a.notes
    suffer a.taken
    return stream

def waitInVain : Action Gate Unit := do
  record .ended
  .modify fun g => { g with stopping := true }

def markBroken : Action Gate Unit := do
  record .markedBroken
  .modify fun g => { g with seat := g.seat.spoil }

def disconnect : Action Gate Unit := do
  let g ← Action.get
  record (.disconnected g.state)
  let seat ← Action.ofExcept g.seat.leave
  .modify (vacate seat)

def finish (s : Served) : Action Gate Unit :=
  .modify fun g => { g with served := g.served ++ [s] }

end Gate

namespace Desk

def say (target : String) (level : Log.Level) (message : String)
    (fields : List (String × String)) : Action Desk Unit :=
  .tell [{ level, target, message, fields }]

def hangUp (target : String) : Action Desk Unit := do
  match ← (inGate Gate.disconnect).attempt with
  | .ok () => pure ()
  | .error e => say target .debug "Channel already disconnected" [("error", e.message)]

end Desk

structure Manner where
  target : String
  title : String
  attend : Arrival → Stream → Action Desk Unit

namespace Manner

/-- Waits for the controller of an arrival and takes its connection; whether the service goes on. -/
def turn (m : Manner) (a : Arrival) : Action Desk Bool := do
  match ← (Desk.inGate (Gate.wait a)).attempt with
  | .error e =>
    let g := (← Action.get).gate
    if g.stopping || g.state.isTerminal then return false
    Desk.say m.target .error "Accept failed" [("error", e.message)]
    return true
  | .ok stream =>
    if (← Action.get).gate.stopping then
      let _ ← (Desk.inGate Gate.disconnect).attempt
      Desk.inGate (Gate.finish { stream })
      return false
    m.attend a stream
    return true

def loop (m : Manner) : List Arrival → Action Desk Unit
  | [] => do
    if !(← Action.get).gate.stopping then Desk.inGate Gate.waitInVain
  | a :: r => do
    if (← Action.get).gate.stopping then return
    if ← m.turn a then loop m r

def run (m : Manner) (arrivals : List Arrival) : Action Desk Unit := do
  let name := (← Action.get).gate.name
  Desk.say m.target .info (m.title ++ " service started") [("channel", name)]
  m.loop arrivals
  Desk.say m.target .info (m.title ++ " service stopped") []

end Manner

end RemoteAgent.Service
