import RemoteAgent.Channel.Frame
import RemoteAgent.Channel.Name
import RemoteAgent.Log.Config

/-! The configuration of an agent: its channels, its calls to the controller, its log. -/

namespace RemoteAgent

structure Config.Channel where
  commandPrefix : String := "mbam-"
  dataPrefix : String := "mbamd-"
  socketDir : String
  maxMessageSize : Nat := Channel.defaultMaxMessageSize
  probeIntervalMs : Nat := 50
  deriving DecidableEq, Repr

structure Config.Bridge where
  remoteCallTimeoutMs : Option Nat := none
  deriving DecidableEq, Repr

structure Config where
  channel : Config.Channel
  bridge : Config.Bridge := {}
  logging : Log.Config := {}
  deriving DecidableEq, Repr

namespace Config

def standard (tempDir : String) : Config := { channel := { socketDir := tempDir } }

def Channel.commandName (c : Channel) (pid : Nat) : Channel.Name :=
  ⟨c.commandPrefix, pid, c.socketDir⟩

def Channel.dataName (c : Channel) (pid : Nat) : Channel.Name := ⟨c.dataPrefix, pid, c.socketDir⟩

def Channel.probeInterval (c : Channel) : Nat := max c.probeIntervalMs 1

def Bridge.remoteCallTimeout (b : Bridge) : Option Nat := b.remoteCallTimeoutMs.filter (0 < ·)

def leastMessageSize : Nat := 64

/-- Checks what the types of the fields leave open. -/
def validate (c : Config) : Except Error Config :=
  if c.channel.commandPrefix = c.channel.dataPrefix then
    .error (.config (.samePrefix c.channel.commandPrefix))
  else if c.channel.maxMessageSize < leastMessageSize then
    .error (.config (.messageSizeTooSmall c.channel.maxMessageSize))
  else .ok c

end Config

end RemoteAgent
