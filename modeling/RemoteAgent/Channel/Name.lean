import RemoteAgent.Text.Path

/-! Names of channels: a leading text and the id of the process that listens, in a directory. -/

namespace RemoteAgent.Channel

structure Name where
  lead : String
  pid : Nat
  dir : String
  deriving DecidableEq, Repr

namespace Name

def text (n : Name) : String := n.lead ++ toString n.pid

def socketPath (n : Name) : String := Text.Path.join n.dir (n.text ++ ".sock")

def numberPath (n : Name) : String := Text.Path.join n.dir (n.text ++ ".port")

def endpointPath (n : Name) : String := n.socketPath

end Name

end RemoteAgent.Channel
