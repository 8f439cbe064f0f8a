import RemoteAgent.Agent.Dispatch
import RemoteAgent.Service.Gate

/-! The command service: a session takes requests one after another and answers each, until the
controller closes it or the connection fails. -/

namespace RemoteAgent.Service.Command

def target : String := "hands_agent::command"

structure Session where
  context : Context
  link : Channel.Link

namespace Session

def inContext {α : Type} (act : Action Context α) : Action Session α :=
  act.on context fun c s => { s with context := c }

def inLink {α : Type} (act : Action Channel.Link α) : Action Session α :=
  act.on link fun k s => { s with link := k }

def answer (m : Message) : Action Session Bool := do
  .tell [{ level := .debug, target, message := "Request received",
           fields := [("message_type", m.kind.name)] }]
  let h ← inContext (Context.handle m)
  match h.response with
  | some response => inLink (Channel.send response)
  | none => pure ()
  return h.keepOpen

theorem keeps_answer (m : Message) :
    Action.Keeps (fun s : Session => s.link.stream.incoming) (answer m) := by
  refine (Action.keeps_tell _).bind fun _ => ?_
  refine Action.Keeps.bind (fun _ => rfl) fun h => ?_
  cases h.response with
  | none => exact Action.Keeps.bind (Action.keeps_pure _) fun _ => Action.keeps_pure _
  | some response =>
    exact Action.Keeps.bind (fun s => Channel.keeps_send response s.link) fun _ =>
      Action.keeps_pure _

def step : Action Session Bool := do
  let m ← inLink Channel.receive
  answer m

theorem spends_step : Action.Spends (fun s : Session => s.link.weight) 1 step := by
  refine Action.Spends.mono (j := 1) (k := 1 + 0) ?_ (by decide)
  refine Action.Spends.bind (fun s a h => Channel.spends_receive s.link a h) fun m => ?_
  refine Action.Keeps.spends fun s => ?_
  simp only [Channel.Link.weight, keeps_answer m s]

def serve (s : Session) : Outcome Session Unit :=
  match h : step s with
  | ⟨.error e, t, es⟩ => ⟨.error e, t, es⟩
  | ⟨.ok false, t, es⟩ => ⟨.ok (), t, es⟩
  | ⟨.ok true, t, es⟩ =>
    have : t.link.weight < s.link.weight := by
      have := spends_step s true (by rw [h])
      rw [h] at this
      exact this
    let o := serve t
    ⟨o.result, o.state, es ++ o.events⟩
  termination_by s.link.weight

end Session

def attend (a : Arrival) (stream : Stream) : Action Desk Unit := do
  let say := Desk.say target
  say .info "Controller connected" []
  let context := (← Action.get).context
  let link : Channel.Link := { stream, maxMessageSize := context.config.channel.maxMessageSize }
  let o := Session.serve { context, link }
  .tell o.events
  .modify fun d => { d with context := o.state.context }
  Desk.inGate (Gate.suffer a.attended)
  match o.result with
  | .ok () => say .info "Session closed by controller" []
  | .error (.channelIo ⟨.unexpectedEof, _⟩) => say .info "Controller disconnected" []
  | .error e =>
    Desk.inGate Gate.markBroken
    if e.isSessionFatal then say .warn "Session aborted" [("error", e.message)]
    else say .error "Session failed" [("error", e.message)]
  Desk.inGate (Gate.suffer a.leaving)
  Desk.hangUp target
  Desk.inGate (Gate.finish { stream := o.state.link.stream })

def manner : Manner := { target, title := "Command", attend }

def run (arrivals : List Arrival) : Action Desk Unit := manner.run arrivals

end RemoteAgent.Service.Command
