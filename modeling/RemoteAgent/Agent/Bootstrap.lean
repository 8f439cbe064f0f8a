import RemoteAgent.Agent.Running

/-! How an agent comes up in a process that is not its own: whatever is wrong with its configuration,
it starts, with defaults if need be, and a panic is logged and not lost. -/

namespace RemoteAgent.Agent

open Log

/-- Starts an agent; it is not there if its channels cannot be opened. -/
def bootstrap : Action Site (Option (Running × Config)) := do
  let p ← Action.get
  let config ← match p.config none with
    | .ok config =>
      if p.configPath.isSome then Site.setUpLog config.logging else Site.setUpAgentLog
      pure config
    | .error e =>
      Site.setUpAgentLog
      .tell [{ level := .warn, target, message := "Invalid agent config, using defaults",
               fields := [("error", e.message)] }]
      pure (Config.standard p.tempDir)
  .tell [{ level := .info, target, message := "Agent thread started",
           fields := [("pid", toString p.pid)] }]
  match ← (start config).attempt with
  | .ok running => return some (running, config)
  | .error e =>
    .tell [{ level := .error, target, message := "Agent initialization failed",
             fields := [("error", e.message)] }]
    return none

inductive Payload where
  | text (s : String)
  | other

def Payload.message : Payload → String
  | text s => s
  | other => "Unknown panic payload"

def panicEvent (p : Payload) (location thread : String) : Event :=
  { level := .error, target := "hands_agent::panic", message := p.message,
    fields := [("location", location), ("thread", thread)] }

end RemoteAgent.Agent
