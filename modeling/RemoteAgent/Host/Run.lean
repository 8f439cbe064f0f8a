import RemoteAgent.Agent.Running
import RemoteAgent.Host.Arguments

/-! The host: an agent in a process of its own, with a function to call and some bytes to read. -/

namespace RemoteAgent.Host

open Agent

def override (o : Options) (c : Config) : Config :=
  { c with
    channel := { c.channel with
      commandPrefix := o.commandPrefix.getD c.channel.commandPrefix
      dataPrefix := o.dataPrefix.getD c.channel.dataPrefix
      socketDir := o.socketDir.getD c.channel.socketDir }
    bridge := { remoteCallTimeoutMs := o.remoteCallTimeoutMs.or c.bridge.remoteCallTimeoutMs } }

structure Failure where
  doing : String
  cause : Error

def causes : Error → List String
  | .channelIo e => [(Error.channelIo e).message, e.text]
  | e => [e.message]

def indented (blanks text : String) : String := ("\n" ++ blanks).intercalate (text.splitOn "\n")

def Failure.report (f : Failure) : String :=
  let lines :=
    match causes f.cause with
    | [c] => ["    " ++ indented "    " c]
    | cs => cs.zipIdx.map fun (c, i) => "    " ++ toString i ++ ": " ++ indented "       " c
  "Error: " ++ f.doing ++ "\n\nCaused by:\n" ++ "\n".intercalate lines

def configure (o : Options) (p : Site) : Except Failure Config :=
  match p.config o.config with
  | .ok c => .ok (override o c)
  | .error e =>
    match o.config with
    | some path => .error ⟨"loading " ++ path, e⟩
    | none => .error ⟨"loading config from environment", e⟩

structure Build where
  readArguments : List String → Request
  add : Nat
  greeting : Nat

def Build.standard (add greeting : Nat) : Build :=
  { readArguments := Request.ofArguments, add, greeting }

def facts (b : Build) (r : Running) (pid : Nat) : List (String × String) :=
  [("command channel", r.commandName.endpointPath), ("data channel", r.dataName.endpointPath),
    ("pid", toString pid), ("add function", Text.hex b.add),
    ("greeting bytes", Text.hex b.greeting)]

/-- A line in which all values begin at one place. -/
def line (fact : String × String) : String :=
  let label := fact.1 ++ ":"
  label ++ String.ofList (List.replicate (17 - label.length) ' ') ++ fact.2

def lastLine : String := "Close stdin to stop."

structure Launch where
  running : Option (Running × Config) := none
  facts : List (String × String) := []
  lines : List String := []
  complaint : Option String := none
  exit : Nat := 0

def Launch.ofFailure (f : Failure) : Launch := { complaint := some f.report, exit := 1 }

def start (b : Build) (o : Options) : Action Site Launch := do
  let p ← Action.get
  match configure o p with
  | .error f => return .ofFailure f
  | .ok c =>
    Site.setUpLog (if o.verbose then Log.Config.debug else c.logging)
    match ← (Agent.start c).attempt with
    | .ok r => return { running := some (r, c), facts := facts b r p.pid, lines := [lastLine] }
    | .error e => return .ofFailure ⟨"starting agent", e⟩

def launch (b : Build) (args : List String) : Action Site Launch := do
  match b.readArguments args with
  | .run o => start b o
  | .help => return { lines := helpText }
  | .version => return { lines := [versionText] }
  | .misuse => return { exit := 2 }

def finish (running : Running) : Action Site Unit := do
  .tell [{ level := .info, target := "hands_host", message := "Stdin closed, shutting down" }]
  Agent.stop running

end RemoteAgent.Host
