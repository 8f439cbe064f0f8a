import RemoteAgent.Channel.Name
import RemoteAgent.Channel.Seat
import RemoteAgent.Socket.Network

/-! Hubs: the channels of a process and the network under them. A channel listens at the socket of
its name and has one peer at a time. -/

namespace RemoteAgent.Channel

open Socket Log

structure Listening where
  name : Name
  listener : Nat
  seat : Seat := {}

structure Hub where
  network : Network
  channels : List Listening := []

namespace Hub

def target : String := "hands_core::transport"

def inNetwork {α : Type} (act : Action Network α) : Action Hub α :=
  act.on network fun n h => { h with network := n }

def say (level : Level) (message : String) (fields : List (String × String)) : Action Hub Unit :=
  .tell [{ level, target, message, fields }]

def seatOf (h : Hub) (i : Nat) : Option Seat := (h.channels[i]?).map (·.seat)

def stateOf (h : Hub) (i : Nat) : State := ((h.seatOf i).map (·.state)).getD .closed

def setSeat (i : Nat) (seat : Seat) : Action Hub Unit :=
  .modify fun h => { h with channels := h.channels.modify i fun c => { c with seat } }

/-- Opens a channel. Whatever stood at its path before is of an earlier process and goes. -/
def listen (name : Name) : Action Hub Nat := do
  let path := name.socketPath
  if (← Action.get).network.exists? path then
    say .debug "Removing stale socket" [("path", path)]
    inNetwork (.modify fun n => (n.remove path).toOption.getD n)
  let listener ← inNetwork (Network.bind path)
  say .info "Channel listening" [("channel", name.text), ("path", path)]
  let h ← Action.get
  .set { h with channels := h.channels ++ [{ name, listener }] }
  return h.channels.length

def withChannel {α : Type} (i : Nat) (act : Listening → Action Hub α) : Action Hub α := do
  match (← Action.get).channels[i]? with
  | some c => act c
  | none => .fail .notConnected

def offer (i : Nat) : Action Hub Unit := withChannel i fun c => do
  setSeat i (← Action.ofExcept c.seat.offer)

def welcome (i connection : Nat) : Action Hub Nat := withChannel i fun c => do
  match c.seat.take connection with
  | .ok seat =>
    inNetwork (Network.adjust connection (·.share .server))
    setSeat i seat
    say .debug "Peer connected" [("channel", c.name.text)]
    return connection
  | .error e =>
    inNetwork (Network.adjust connection (·.shutdown.release .server))
    .fail e

/-- Waits for a peer. Where none has come the wait never ends, which counts as not connected. -/
def wait (i : Nat) : Action Hub Nat := withChannel i fun c => do
  offer i
  match ← inNetwork (Network.accept c.listener) with
  | some connection => welcome i connection
  | none => .fail .notConnected

def isConnected (i : Nat) : Action Hub Bool := withChannel i fun c => do
  match c.seat.state, c.seat.peer with
  | .connected, some peer => inNetwork (Network.probe peer .server)
  | _, _ => return false

def expel (s : Seat) : Action Hub Unit :=
  match s.peer with
  | some peer => inNetwork (Network.adjust peer (·.shutdown.release .server))
  | none => pure ()

def disconnect (i : Nat) : Action Hub Unit := withChannel i fun c => do
  let seat ← Action.ofExcept c.seat.leave
  expel c.seat
  setSeat i seat
  say .debug "Peer disconnected" [("channel", c.name.text)]

def markBroken (i : Nat) : Action Hub Unit := withChannel i fun c => setSeat i c.seat.spoil

def close (i : Nat) : Action Hub Unit := withChannel i fun c => do
  if c.seat.state = .closed then return
  expel c.seat
  setSeat i .close
  let path := c.name.endpointPath
  match (← Action.get).network.remove path with
  | .ok network => .modify fun h => { h with network }
  | .error .noEntry => pure ()
  | .error e =>
    say .warn "Failed to remove channel endpoint" [("path", path), ("error", e.message)]
  say .info "Channel closed" [("channel", c.name.text)]

def drop (i : Nat) : Action Hub Unit := withChannel i fun c => do
  close i
  inNetwork (Network.closeListener c.listener)

def connect (name : Name) : Action Hub Nat := inNetwork (Network.connect name.socketPath)

def closeWhileWaiting (i : Nat) : Action Hub (Except Error Unit × Except Error Nat) :=
  withChannel i fun c => do
    offer i
    let closed ← (close i).attempt
    let late ← inNetwork (Network.connectTo c.listener)
    let _ ← inNetwork (Network.accept c.listener)
    let welcomed ← (welcome i late).attempt
    return (closed, welcomed)

end Hub

end RemoteAgent.Channel
