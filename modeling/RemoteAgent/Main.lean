import RemoteAgent.Host.Run
import RemoteAgent.Trial

/-! The program: it looks at the machine for the files and directories that its settings name, starts
an agent on memory and sockets of its own, and stops when its input ends. -/

namespace RemoteAgent.Host

open Socket

def look (path : String) : IO (Option Entry) := do
  try return some (.file (← IO.FS.readBinFile path).toList)
  catch
    | .noFileOrDirectory .. => return none
    | _ => return some .directory

def way (path : String) : List (List String) :=
  let names := Text.Path.names path
  (List.range (names.length + 1)).map names.take

def install (site : Site) (path : String) : IO Site := do
  let path := site.place path
  let n := site.hub.network
  let network : Network ← match ← look path with
    | none => pure n
    | some .directory => pure { n with directories := n.directories ++ way path }
    | some e => do
      let names := Text.Path.names path
      pure { n with directories := n.directories ++ way path |>.filter (· ≠ names)
                    entries := (names, e) :: n.entries }
  return { site with hub := { site.hub with network } }

def processId : IO Nat := do
  let stat ← try IO.FS.readFile "/proc/self/stat" catch _ => pure ""
  return ((stat.splitOn " ").head?.bind Text.decimal?).getD 0

def survey (args : List String) : IO Site := do
  let workDir := (← IO.currentDir).toString
  let site : Site :=
    { pid := ← processId
      readSettings := Toml.read?
      hub := { network := { directories := Text.Path.names workDir :: way workDir } }
      station := { workDir }
      tempDir := (← IO.getEnv "TMPDIR").getD "/tmp"
      configPath := ← IO.getEnv "HANDS_CONFIG" }
  match Trial.build.readArguments args with
  | .run o =>
    let site ← (o.config.or site.configPath).toList.foldlM install site
    match configure o site with
    | .ok c => install site c.channel.socketDir
    | .error _ => return site
  | _ => return site

def report (events : List Log.Event) (site : Site) : IO Unit := do
  let time := s!"{← IO.monoMsNow}ms"
  let o := Action.forEach events (Site.log { time, file := "", line := "" }) site
  IO.eprint (o.state.station.console)

partial def drain (input : IO.FS.Stream) : IO Unit := do
  if !(← input.getLine).isEmpty then drain input

end RemoteAgent.Host

open RemoteAgent

def main (args : List String) : IO UInt32 := do
  let o := Host.launch Trial.build args (← Host.survey args)
  Host.report o.events o.state
  match o.result with
  | .error e =>
    IO.eprintln e.message
    return 1
  | .ok l =>
    for line in l.facts.map Host.line ++ l.lines do IO.println line
    if let some complaint := l.complaint then IO.eprintln complaint
    if let some (running, _) := l.running then
      (← IO.getStdout).flush
      Host.drain (← IO.getStdin)
      let stopped := Host.finish running o.state
      Host.report stopped.events stopped.state
    return l.exit.toUInt32
