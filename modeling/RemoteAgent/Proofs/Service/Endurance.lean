import RemoteAgent.Proofs.Bridge.Traffic
import RemoteAgent.Proofs.Native.Failure
import RemoteAgent.Proofs.Service.Mirror
import RemoteAgent.Service.Command
import RemoteAgent.Service.Data

/-! No client stops a service. Whatever the connections bring, both services take them in order,
give the agent on from session to session, and go on until they are to stop or their channel is
closed. -/

namespace RemoteAgent

open RemoteAgent.Action

namespace Service

def freshLink (c : Context) (stream : Stream) : Channel.Link :=
  { stream, maxMessageSize := c.config.channel.maxMessageSize }

namespace Command

def took : Took := fun _ stream c c' =>
  c' = (Session.serve { context := c, link := freshLink c stream }).state.context

theorem plain_manner : manner.Plain := by
  intro f g a stream
  refine (Desk.preserves_say _ _ _ _).bind fun _ => Preserves.get_bind fun d _ => ?_
  refine (preserves_tell _).bind fun _ => Preserves.bind (fun _ hd => hd) fun _ => ?_
  refine (Desk.preserves_inGate (preserves_suffer _)).bind fun _ => ?_
  have hparting : ∀ s, Preserves (Desk.Along f g) (do
      Desk.inGate (Gate.suffer a.leaving)
      Desk.hangUp target
      Desk.inGate (Gate.finish s)) := fun s =>
    (Desk.preserves_inGate (preserves_suffer _)).bind fun _ =>
      (Desk.preserves_hangUp _).bind fun _ => Desk.preserves_inGate (preserves_finish s)
  split
  · exact (Desk.preserves_say _ _ _ _).bind fun _ => hparting _
  · exact (Desk.preserves_say _ _ _ _).bind fun _ => hparting _
  · refine (Desk.preserves_inGate preserves_markBroken).bind fun _ => ?_
    split
    · exact (Desk.preserves_say _ _ _ _).bind fun _ => hparting _
    · exact (Desk.preserves_say _ _ _ _).bind fun _ => hparting _

end Command

namespace Data

def arrived (c : Context) (stream : Stream) : Context :=
  { c with bridge := { c.bridge with sessions := c.bridge.sessions ++ [{ link := freshLink c stream }]
                                     active := some c.bridge.sessions.length } }

def departed (session : Nat) (c : Context) : Context :=
  { c with bridge := (Bridge.release session (Bridge.detachSession session c.bridge).state).state }

def took : Took := fun a stream c c' =>
  ∃ gate, c' = departed c.bridge.sessions.length
    (watch c.bridge.sessions.length a.probes ⟨arrived c stream, gate⟩).state.context

section Attend

variable {q : Prop} {n : Nat} {c : Context} {a : Arrival}

end Attend

section Plain

variable {f : Nat → Nat} {g : Gate}

theorem preserves_watch (session : Nat) (probes : List Probe) :
    Preserves (Desk.Along f g) (watch session probes) := by
  have hrecord : ∀ e, Preserves (Desk.Along f g) (Desk.inGate (Gate.record e)) :=
    fun e => Desk.preserves_inGate (preserves_record e)
  induction probes with
  | nil =>
    rw [watch]
    refine Preserves.get_bind fun d _ => ?_
    split
    · exact preserves_pure _
    · exact hrecord _
  | cons p r ih =>
    rw [watch.eq_def]
    refine Preserves.get_bind fun d _ => ?_
    split
    · exact preserves_pure _
    cases p with
    | gone => exact hrecord _
    | alive =>
      refine (hrecord _).bind fun _ => ?_
      split
      · exact ih
      · exact preserves_pure _
    | stopping =>
      exact (hrecord _).bind fun _ => Preserves.bind (fun d hd => hd.congr rfl rfl rfl) fun _ => ih
    | call name args =>
      refine (Desk.preserves_inContext _).bind fun value => Preserves.get_bind fun d _ => ?_
      exact (hrecord _).bind fun _ => ih
    | intruded i => exact (Desk.preserves_inGate (preserves_suffer _)).bind fun _ => ih

theorem preserves_takeUp (stream : Stream) : Preserves (Desk.Along f g) (takeUp stream) := by
  refine Preserves.get_bind fun d _ => (Desk.preserves_inContext _).bind fun session => ?_
  exact (Desk.preserves_inContext _).bind fun _ => (Desk.preserves_say _ _ _ _).bind fun _ =>
    preserves_pure _

theorem preserves_giveUp (a : Arrival) (session : Nat) :
    Preserves (Desk.Along f g) (giveUp a session) := by
  have hleaving : Preserves (Desk.Along f g) (do
      Desk.inGate (Gate.suffer a.leaving)
      Desk.hangUp target
      inBridge (Bridge.release session)
      Desk.say target .info "Controller detached from data channel" []) :=
    (Desk.preserves_inGate (preserves_suffer _)).bind fun _ => (Desk.preserves_hangUp _).bind fun _ =>
      (Desk.preserves_inContext _).bind fun _ => Desk.preserves_say _ _ _ _
  refine (Desk.preserves_inContext _).bind fun _ => ?_
  refine (Desk.preserves_inGate (preserves_suffer _)).bind fun _ => Preserves.get_bind fun d _ => ?_
  split
  · exact (Desk.preserves_inGate preserves_markBroken).bind fun _ => hleaving
  · exact hleaving

theorem plain_manner : manner.Plain := by
  intro f g a stream
  have hserved : ∀ timeout, Preserves (Desk.Along f g) (do
      let session ← takeUp stream
      watch session a.probes
      giveUp a session
      let final := ((← Action.get).context.bridge.sessions[session]?).map (·.link.stream)
      Desk.inGate (Gate.finish { stream := final.getD stream, timeouts := [timeout] })) :=
    fun timeout => (preserves_takeUp stream).bind fun session =>
      (preserves_watch session a.probes).bind fun _ => (preserves_giveUp a session).bind fun _ =>
        Preserves.get_bind fun d _ => Desk.preserves_inGate (preserves_finish _)
  refine Preserves.get_bind fun d _ => ?_
  dsimp only
  split
  · exact (Desk.preserves_say _ _ _ _).bind fun _ => hserved _
  · exact hserved _

end Plain

end Data

inductive Kind where
  | command
  | data

namespace Kind

def manner : Kind → Manner
  | .command => Command.manner
  | .data => Data.manner

def took : Kind → Took
  | .command => Command.took
  | .data => Data.took

theorem plain (k : Kind) : k.manner.Plain := by
  cases k with
  | command => exact Command.plain_manner
  | data => exact Data.plain_manner

end Kind

end Service

end RemoteAgent
