/-! The states of a channel that controllers connect to, one at a time. -/

namespace RemoteAgent.Channel

inductive State where
  | waitingToConnect
  | connected
  | disconnected
  | broken
  | closed
  deriving DecidableEq, Repr

namespace State

def name : State → String
  | waitingToConnect => "WaitingToConnect"
  | connected => "Connected"
  | disconnected => "Disconnected"
  | broken => "Broken"
  | closed => "Closed"

def all : List State := [waitingToConnect, connected, disconnected, broken, closed]

def ofName? (name : String) : Option State := all.find? (·.name = name)

def isTerminal : State → Bool
  | closed => true
  | _ => false

def holdsPeer : State → Bool
  | connected | broken => true
  | _ => false

end State

end RemoteAgent.Channel
