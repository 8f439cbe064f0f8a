import RemoteAgent.Service.Gate

/-! The data service: it attaches a controller's data connection to the bridge and watches for it
going away. The calls over the connection are made by others. -/

namespace RemoteAgent.Service.Data

def target : String := "hands_agent::data"

def timeoutRefused : IoError := Stream.scripted .invalidInput

def inBridge {α : Type} (act : Action Bridge α) : Action Desk α :=
  Desk.inContext (Context.inBridge act)

def watch (session : Nat) (probes : List Probe) : Action Desk Unit := do
  let d ← Action.get
  if d.gate.stopping || d.context.bridge.isFailed session then return
  match probes with
  | [] | .gone :: _ => Desk.inGate (Gate.record (.probed false d.context.bridge.isAttached))
  | .alive :: r => do
    let alive := d.gate.state = .connected
    Desk.inGate (Gate.record (.probed alive d.context.bridge.isAttached))
    if alive then watch session r
  | .stopping :: r => do
    Desk.inGate (Gate.record .stopped)
    .modify fun d => { d with gate := { d.gate with stopping := true } }
    watch session r
  | .call name args :: r => do
    let value ← inBridge (Bridge.forward name args)
    let d ← Action.get
    Desk.inGate (Gate.record (.forwarded value d.context.bridge.isAttached))
    watch session r
  | .intruded i :: r => do
    Desk.inGate (Gate.suffer [i])
    watch session r

def takeUp (stream : Stream) : Action Desk Nat := do
  let config := (← Action.get).context.config
  let link : Channel.Link := { stream, maxMessageSize := config.channel.maxMessageSize }
  let session ← inBridge (Bridge.add { link })
  inBridge (Bridge.attach session)
  Desk.say target .info "Controller attached to data channel" []
  return session

def giveUp (a : Arrival) (session : Nat) : Action Desk Unit := do
  inBridge (Bridge.detachSession session)
  Desk.inGate (Gate.suffer a.attended)
  if (← Action.get).context.bridge.isFailed session then Desk.inGate Gate.markBroken
  Desk.inGate (Gate.suffer a.leaving)
  Desk.hangUp target
  inBridge (Bridge.release session)
  Desk.say target .info "Controller detached from data channel" []

def attend (a : Arrival) (stream : Stream) : Action Desk Unit := do
  let timeout := (← Action.get).context.config.bridge.remoteCallTimeout
  if a.refusesTimeout then
    Desk.say target .warn "Failed to set remote call timeout" [("error", timeoutRefused.text)]
  let session ← takeUp stream
  watch session a.probes
  giveUp a session
  let final := ((← Action.get).context.bridge.sessions[session]?).map (·.link.stream)
  Desk.inGate (Gate.finish { stream := final.getD stream, timeouts := [timeout] })

def manner : Manner := { target, title := "Data", attend }

def run (arrivals : List Arrival) : Action Desk Unit := manner.run arrivals

end RemoteAgent.Service.Data
