import RemoteAgent.Channel.Hub
import RemoteAgent.Config.Source
import RemoteAgent.Log.Station

/-! Sites: the processes that agents run in, each with its id, its channels and files, its environment
and its log. -/

namespace RemoteAgent

open Channel

structure Site where
  pid : Nat
  hub : Hub
  readSettings : String → Option Toml.Value
  station : Log.Station := { workDir := "" }
  tempDir : String := ""
  configPath : Option String := none

namespace Site

def inHub {α : Type} (act : Action Hub α) : Action Site α := act.on hub fun hub p => { p with hub }

def inNetwork {α : Type} (act : Action Socket.Network α) : Action Site α := inHub (Hub.inNetwork act)

def place (p : Site) (path : String) : String :=
  if path = "" then "" else Text.Path.join p.station.workDir path

def content (p : Site) (path : String) : Except IoError (List UInt8) :=
  p.hub.network.readFile (p.place path)

/-- The configuration from a file that is named, or else from the environment. -/
def config (p : Site) : Option String → Except Error Config
  | some path => Config.load p.readSettings p.tempDir path (p.content path)
  | none => Config.ofEnvironment p.readSettings p.tempDir p.configPath p.content

def setUpLog (c : Log.Config) : Action Site Unit := .modify fun p =>
  let (station, network) := p.station.setUp c p.hub.network
  { p with station, hub := { p.hub with network } }

def setUpAgentLog : Action Site Unit := do
  let p ← Action.get
  setUpLog (p.station.agentConfig p.pid)

def log (stamp : Log.Stamp) (e : Log.Event) : Action Site Unit := .modify fun p =>
  let (station, network) := p.station.write stamp e p.hub.network
  { p with station, hub := { p.hub with network } }

end Site

end RemoteAgent
