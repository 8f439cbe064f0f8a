import RemoteAgent.Error

/-! Seats: the state of a channel and its peer. The peer is there exactly while the channel is
connected or broken. -/

namespace RemoteAgent.Channel

structure Seat where
  state : State := .waitingToConnect
  peer : Option Nat := none
  deriving DecidableEq, Repr

namespace Seat

def offer (s : Seat) : Except Error Seat :=
  match s.state with
  | .waitingToConnect | .disconnected => .ok { s with state := .waitingToConnect }
  | state => .error (.invalidState "wait for connection" state)

/-- An accepted connection takes the seat, unless the channel was closed meanwhile. -/
def take (peer : Nat) (s : Seat) : Except Error Seat :=
  if s.state = .closed then .error (.invalidState "accept" .closed)
  else .ok { state := .connected, peer := some peer }

def leave (s : Seat) : Except Error Seat :=
  if s.state.holdsPeer then .ok { state := .disconnected, peer := none }
  else .error (.invalidState "disconnect" s.state)

def spoil (s : Seat) : Seat := if s.state = .connected then { s with state := .broken } else s

def close : Seat := { state := .closed, peer := none }

end Seat

end RemoteAgent.Channel
