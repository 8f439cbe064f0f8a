import RemoteAgent.Log.Filter
import RemoteAgent.Log.Layout
import RemoteAgent.Socket.Network

/-! Stations: where the events of a process go. The first setting up decides; later ones only make
their files. -/

namespace RemoteAgent.Log

open Socket

structure Sink where
  filter : Filter
  console : Option Layout
  file : Option (String × Layout)

structure Station where
  directives : Option String := none
  sink : Option Sink := none
  taken : Bool := false
  console : String := ""
  workDir : String

namespace Station

def filterOf (s : Station) (c : Config) : Filter :=
  ((s.directives.bind Filter.ofText?)).getD (.ofLevel c.getLevel)

def setUp (c : Config) (s : Station) (n : Network) : Station × Network :=
  let (opened, n) :=
    if c.fileEnabled && c.filePath ≠ "" then n.append (Text.Path.join s.workDir c.filePath) []
    else (false, n)
  if s.taken || s.sink.isSome then (s, n)
  else
    let console := if c.consoleEnabled then some c.consoleLayout else none
    let file := if opened then some (c.filePath, c.fileLayout) else none
    ({ s with sink := some { filter := s.filterOf c, console, file } }, n)

def agentConfig (s : Station) (pid : Nat) : Config :=
  .agent (Text.Path.join s.workDir (agentFileName pid))

def filePath (s : Station) : Option String := s.sink.bind fun k => k.file.map (·.1)

def write (stamp : Stamp) (e : Event) (s : Station) (n : Network) : Station × Network :=
  match s.sink with
  | none => (s, n)
  | some k =>
    if !k.filter.passes e then (s, n)
    else
      let shown := (k.console.map fun l => l.line stamp e).getD ""
      let n :=
        match k.file with
        | some (path, l) =>
          (n.append (Text.Path.join s.workDir path) (Text.Utf8.encode (l.line stamp e))).2
        | none => n
      ({ s with console := s.console ++ shown }, n)

end Station

end RemoteAgent.Log
