import RemoteAgent.Agent.Context
import RemoteAgent.Agent.Site

/-! Running agents: the two channels of an agent, from the start of its services to their end. -/

namespace RemoteAgent.Agent

open Channel Log

structure Running where
  command : Nat
  commandName : Name
  data : Nat
  dataName : Name

def target : String := "hands_agent"

/-- Opens both channels. If the second cannot be opened the first one is closed again. -/
def start (config : Config) : Action Site Running := do
  let pid := (← Action.get).pid
  let commandName := config.channel.commandName pid
  let dataName := config.channel.dataName pid
  let command ← Site.inHub (Hub.listen commandName)
  match ← (Site.inHub (Hub.listen dataName)).attempt with
  | .error e =>
    Site.inHub (Hub.drop command)
    .fail e
  | .ok data =>
    .tell [{ level := .info, target, message := "Agent started",
             fields := [("command_channel", commandName.text), ("data_channel", dataName.text)] }]
    return { command, commandName, data, dataName }

def wake (channel : Nat) (name : Name) : Action Site Unit := do
  let _ ← (Site.inHub (Hub.disconnect channel)).attempt
  match ← (Site.inHub (Hub.connect name)).attempt with
  | .ok _ => pure ()
  | .error e =>
    .tell [{ level := .debug, target, message := "Wake-up connect failed",
             fields := [("channel", name.text), ("error", e.message)] }]

def stop (r : Running) : Action Site Unit := do
  wake r.command r.commandName
  wake r.data r.dataName
  Site.inHub (Hub.drop r.command)
  Site.inHub (Hub.drop r.data)
  .tell [{ level := .info, target, message := "Agent stopped" }]

end RemoteAgent.Agent
