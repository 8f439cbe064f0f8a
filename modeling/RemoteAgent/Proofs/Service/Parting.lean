import RemoteAgent.Proofs.Channel.Reception
import RemoteAgent.Proofs.Channel.Sending
import RemoteAgent.Proofs.Message.Delimiting
import RemoteAgent.Proofs.Service.Endurance
import RemoteAgent.Proofs.Service.Session

/-! How command sessions part, and what the service makes of it. Bytes can be wanting on the stream or
in a payload that came whole; the service takes both for a controller that has hung up. -/

namespace RemoteAgent

open RemoteAgent.Action Channel

namespace Action

variable {σ α : Type} {s t u : σ} {es es' : List Log.Event}

def Leads (act : Action σ Unit) (s t : σ) (es : List Log.Event) : Prop :=
  ∃ more, act s = ⟨.ok (), t, es ++ more⟩

theorem Leads.bind {act : Action σ α} {next : α → Action σ Unit} {a : α}
    (h : act s = ⟨.ok a, u, es⟩) (hn : (next a).Leads u t es') :
    (act >>= next).Leads s t (es ++ es') := by
  obtain ⟨more, hmore⟩ := hn
  refine ⟨more, ?_⟩
  rw [bind_of_ok h, hmore, List.append_assoc]

end Action

namespace Service

namespace Gate

theorem entries_suffer (is : List Intrusion) (g : Gate) :
    (suffer is g).state.entries = g.entries := by
  show (is.foldl _ g).entries = g.entries
  induction is generalizing g with
  | nil => rfl
  | cons i is ih =>
    have hin := intruded_intrude i g
    have hone : (g.intrude i).entries = g.entries := by
      generalize g.intrude i = t at hin
      cases hin <;> rfl
    exact (ih (g.intrude i)).trans hone

theorem entries_disconnect (g : Gate) :
    (disconnect g).state.entries = g.entries ++ [.disconnected g.state] := by
  by_cases hpeer : g.state.holdsPeer = true
  · rw [disconnect_of_holds hpeer]
    rfl
  · rw [disconnect_of_vacant hpeer]

end Gate

namespace Desk

theorem say_apply (target : String) (level : Log.Level) (message : String)
    (fields : List (String × String)) (d : Desk) :
    say target level message fields d = ⟨.ok (), d, [{ level, target, message, fields }]⟩ := rfl

theorem suffer_apply (is : List Intrusion) (d : Desk) : inGate (Gate.suffer is) d =
    ⟨.ok (), { d with gate := (Gate.suffer is d.gate).state }, []⟩ := rfl

theorem markBroken_apply (d : Desk) : inGate Gate.markBroken d =
    ⟨.ok (), { d with gate := (Gate.markBroken d.gate).state }, []⟩ := rfl

theorem leads_hangUp (target : String) (d : Desk) :
    (hangUp target).Leads d { d with gate := (Gate.disconnect d.gate).state } [] := by
  have hcut : (inGate Gate.disconnect).attempt d = ⟨.ok (Gate.disconnect d.gate).result,
      { d with gate := (Gate.disconnect d.gate).state }, (Gate.disconnect d.gate).events⟩ := rfl
  rw [Leads, hangUp, bind_of_ok hcut]
  cases (Gate.disconnect d.gate).result with
  | ok _ => exact ⟨_, rfl⟩
  | error e => exact ⟨_, rfl⟩

end Desk

namespace Command

def endsStream : Error → Bool
  | .channelIo cause => cause.kind = .unexpectedEof
  | _ => false

theorem endsStream_iff {e : Error} : endsStream e = true ↔ Wire.RunsOut e := by
  constructor
  · intro h
    cases e with
    | channelIo cause => exact ⟨cause, rfl, of_decide_eq_true h⟩
    | _ => cases h
  · rintro ⟨cause, rfl, hkind⟩
    exact decide_eq_true hkind

def orderly : Except Error Unit → Bool
  | .ok () => true
  | .error e => endsStream e

def verdict : Except Error Unit → Log.Event
  | .ok () => { level := .info, target, message := "Session closed by controller" }
  | .error e =>
    if endsStream e then { level := .info, target, message := "Controller disconnected" }
    else { level := .warn, target, message := "Session aborted", fields := [("error", e.message)] }

theorem verdict_aborted_iff (r : Except Error Unit) :
    (verdict r).message = "Session aborted" ↔ orderly r = false := by
  have hclosed : "Session closed by controller" ≠ "Session aborted" := by decide
  have hleft : "Controller disconnected" ≠ "Session aborted" := by decide
  cases r with
  | ok _ => exact iff_of_false hclosed Bool.true_eq_false.mp
  | error e =>
    rw [verdict, orderly]
    cases endsStream e with
    | true => exact iff_of_false hleft Bool.true_eq_false.mp
    | false => exact iff_of_true rfl rfl

section Attend

variable (a : Arrival) (stream : Stream) (d : Desk)

def begun : Session := ⟨d.context, freshLink d.context stream⟩

def judged (r : Except Error Unit) (g : Gate) : Gate :=
  if orderly r then g else (Gate.markBroken g).state

def parted (stream : Stream) (g : Gate) : Gate :=
  (Gate.finish { stream } (Gate.disconnect (Gate.suffer a.leaving g).state).state).state

theorem leads_leave : (do
      Desk.inGate (Gate.suffer a.leaving)
      Desk.hangUp target
      Desk.inGate (Gate.finish { stream }) : Action Desk Unit).Leads d
    { d with gate := parted a stream d.gate } [] := by
  obtain ⟨es, hhang⟩ :=
    Desk.leads_hangUp target { d with gate := (Gate.suffer a.leaving d.gate).state }
  rw [Leads, bind_of_ok (Desk.suffer_apply _ d), bind_of_ok hhang]
  exact ⟨_, rfl⟩

theorem leads_attend
    (hfatal : ∀ e, (begun stream d).serve.result = .error e → e.isSessionFatal = true) :
    (attend a stream).Leads d
      { context := (begun stream d).serve.state.context
        gate := parted a (begun stream d).serve.state.link.stream
          (judged (begun stream d).serve.result (Gate.suffer a.attended d.gate).state) }
      ({ level := .info, target, message := "Controller connected" } ::
        ((begun stream d).serve.events ++ [verdict (begun stream d).serve.result])) := by
  -- the events in the order in which the steps tell them
  suffices hall : (attend a stream).Leads d _
      ([{ level := .info, target, message := "Controller connected" }] ++
        ([] ++ ((begun stream d).serve.events ++
          ([] ++ ([] ++ [verdict (begun stream d).serve.result]))))) from hall
  refine Leads.bind (Desk.say_apply _ _ _ _ _) (Leads.bind (get_apply d) ?_)
  dsimp only
  generalize hserve : Session.serve { context := d.context, link :=
    { stream, maxMessageSize := d.context.config.channel.maxMessageSize } } = o
  have hbegun : (begun stream d).serve = o := hserve
  rw [hbegun] at hfatal ⊢
  refine Leads.bind (tell_apply _ _) (Leads.bind (modify_apply _ _) ?_)
  refine Leads.bind (Desk.suffer_apply _ _) ?_
  dsimp only
  generalize (Gate.suffer a.attended d.gate).state = g
  cases hr : o.result with
  | ok _ => exact Leads.bind (Desk.say_apply _ _ _ _ _) (leads_leave _ _ _)
  | error e =>
    by_cases hend : endsStream e = true
    · obtain ⟨⟨_, text⟩, rfl, rfl⟩ := endsStream_iff.1 hend
      exact Leads.bind (Desk.say_apply _ _ _ _ _) (leads_leave _ _ _)
    · have hjudged : judged (.error e) g = (Gate.markBroken g).state := if_neg hend
      have hverdict : verdict (.error e) = { level := .warn, target, message := "Session aborted"
                                             fields := [("error", e.message)] } := if_neg hend
      rw [hjudged, hverdict]
      split
      · next h => cases h
      · next h =>
        cases h
        exact (hend rfl).elim
      · next h =>
        cases h
        rw [if_pos (hfatal e hr)]
        suffices hall : Leads _ (Desk.mk o.state.context g) _ ([] ++ [_]) from hall
        refine Leads.bind (Desk.markBroken_apply _) ?_
        exact Leads.bind (Desk.say_apply _ _ _ _ _) (leads_leave _ _ _)

theorem entries_judged (r : Except Error Unit) (g : Gate) :
    (judged r g).entries = g.entries ++ if orderly r then [] else [.markedBroken] := by
  unfold judged
  split
  · exact (List.append_nil _).symm
  · rfl

theorem state_judged (r : Except Error Unit) {g : Gate} (hg : g.state = .connected) :
    (judged r g).state = if orderly r then .connected else .broken := by
  unfold judged
  split
  · exact hg
  · have hspoil : g.seat.spoil = { g.seat with state := .broken } := if_pos hg
    show g.seat.spoil.state = .broken
    rw [hspoil]

theorem entries_parted (g : Gate) : (parted a stream g).entries =
    g.entries ++ [.disconnected (Gate.suffer a.leaving g).state.state] := by
  rw [← Gate.entries_suffer a.leaving g]
  exact Gate.entries_disconnect _

/-- What the service does at the end of a session, in good order or not. -/
structure Told (good : Bool) : Prop where
  succeeds : (attend a stream d).result = .ok ()
  /-- The channel is marked broken if the end is not good; in any case the service hangs up. -/
  entries : ∃ before, (attend a stream d).state.gate.entries =
    d.gate.entries ++ (if good then [] else [.markedBroken]) ++ [.disconnected before] ∧
      (a.attended = [] → a.leaving = [] → d.gate.state = .connected →
        before = if good then .connected else .broken)
  events : ∃ notice more, (attend a stream d).events =
    { level := .info, target, message := "Controller connected" } ::
      ((begun stream d).serve.events ++ notice :: more) ∧
      (notice.message = "Session aborted" ↔ good = false)

theorem told_attend : Told a stream d (orderly (begun stream d).serve.result) := by
  obtain ⟨ms, hs, hcourse⟩ := Session.exists_course (begun stream d)
  have hfatal : ∀ e, (begun stream d).serve.result = .error e → e.isSessionFatal = true := by
    intro e he
    have hend := hcourse.ending
    rw [he] at hend
    exact hend.fatal
  obtain ⟨more, hattend⟩ := leads_attend a stream d hfatal
  rw [List.cons_append, List.append_assoc, List.singleton_append] at hattend
  refine ⟨by rw [hattend], ?_, verdict (begun stream d).serve.result, more, by rw [hattend],
    verdict_aborted_iff _⟩
  rw [hattend]
  dsimp only
  rw [entries_parted, entries_judged, Gate.entries_suffer]
  refine ⟨_, rfl, fun hattended hleaving hstate => ?_⟩
  rw [hattended, hleaving]
  exact state_judged _ hstate

end Attend

/-- How a session is over: the controller closed it; the stream ended, between two frames or inside one;
it failed; a frame was announced over the limit; a whole frame was that of no message; a reply had no
frame within the limit. -/
inductive Parting where
  | closed
  | hungUp
  | failed (cause : IoError)
  | overlong (size : Nat)
  | malformed (payload : List UInt8) (fault : Error)
  | unsendable (reply : Message) (fault : Error)

namespace Parting

def result (max : Nat) : Parting → Except Error Unit
  | closed => .ok ()
  | hungUp => .error (.channelIo .unexpectedEnd)
  | failed cause => .error (.channelIo cause)
  | overlong size => .error (.frameTooLarge size max)
  | malformed _ fault => .error fault
  | unsendable _ fault => .error fault

def orderly : Parting → Bool
  | closed => true
  | hungUp => true
  | failed cause => cause.kind = .unexpectedEof
  | malformed _ fault => endsStream fault
  | overlong _ => false
  | unsendable _ _ => false

end Parting

namespace Session

structure Waits (c : Link) (ms : List Message) (hs : List Handled) (rest : List UInt8) : Prop where
  stays : .closeProcess ∉ ms
  answered : (Action.forEach (replies hs) send c).result = .ok ()
  carries : Carries c.maxMessageSize c.stream.supply ms rest

structure Owes (c : Link) (hs : List Handled) (front : List Message) (reply : Message) : Prop where
  owed : replies hs = front ++ [reply]
  sent : (Action.forEach front send c).result = .ok ()

/-- How a session over a link parts after these messages and what was done with each. -/
inductive Parts (c : Link) (ms : List Message) (hs : List Handled) : Parting → Prop
  | closed (hlast : ms.getLast? = some .closeProcess)
    (hsent : (Action.forEach (replies hs) send c).result = .ok ()) : Parts c ms hs .closed
  | hungUp {rest : List UInt8} (h : Waits c ms hs rest)
    (hcut : rest.length < reach c.maxMessageSize rest) (hend : c.stream.breach = none) :
    Parts c ms hs .hungUp
  | unread {rest : List UInt8} {k : IoError.Kind} (h : Waits c ms hs rest)
    (hcut : rest.length < reach c.maxMessageSize rest) (hbreach : c.stream.breach = some k) :
    Parts c ms hs (.failed (Stream.scripted k))
  | overlong {rest : List UInt8} (h : Waits c ms hs rest) (hheader : 4 ≤ rest.length)
    (hmax : c.maxMessageSize < announced rest) : Parts c ms hs (.overlong (announced rest))
  | malformed {p more : List UInt8} {fault : Error} (h : Waits c ms hs (frame p ++ more))
    (hp : p.length ≤ c.maxMessageSize) (hlt : p.length < 2 ^ 32)
    (hdecode : Message.decode p = .error fault) : Parts c ms hs (.malformed p fault)
  | unwritten {front : List Message} {reply : Message} {cause : IoError}
    (h : Owes c hs front reply)
    (hsend : (send reply (Action.forEach front send c).state).result = .error (.channelIo cause))
    (hcause : Balks cause (Action.forEach front send c).state.stream) :
    Parts c ms hs (.failed cause)
  | unsendable {front : List Message} {reply : Message} {fault : Error} (h : Owes c hs front reply)
    (hsend : (send reply (Action.forEach front send c).state).result = .error fault)
    (hfault : reply.encode = .error fault ∨ ∃ p, reply.encode = .ok p ∧
      c.maxMessageSize < p.length ∧ fault = .frameTooLarge p.length c.maxMessageSize) :
    Parts c ms hs (.unsendable reply fault)

section Ending

variable {c t : Link} {ms : List Message} {hs : List Handled} {r : Except Error Unit}

theorem Owes.not_answered {front : List Message} {reply : Message} {e : Error}
    (h : Owes c hs front reply)
    (hsend : (send reply (Action.forEach front send c).state).result = .error e) :
    (Action.forEach (replies hs) send c).result ≠ .ok () := by
  rw [h.owed, (forEach_concat h.sent reply).1, hsend]
  exact fun hok => by cases hok

theorem Waits.of_ending {rest : List UInt8} {e : Error} (h : Waits c ms hs rest)
    (he : outcome c.maxMessageSize rest c.stream.lack = .error e) (hend : Ending c ms hs r t) :
    r = .error e := by
  cases hend with
  | closed hlast _ => exact (h.stays (List.mem_of_getLast? hlast)).elim
  | broken e' _ _ hreceive =>
    obtain ⟨-, hrest, hbreach⟩ := h.carries.receives
    have hlack : (receives ms.length c).state.stream.lack = c.stream.lack := by
      rw [Stream.lack, Stream.lack, hbreach]
    rw [result_receive, maxMessageSize_receives, hrest, hlack] at hreceive
    cases hreceive.symm.trans he
    rfl
  | unsent e' front x hx _ hfront hsend =>
    exact (Owes.not_answered ⟨hx, hfront⟩ hsend h.answered).elim

theorem Owes.of_ending {front : List Message} {reply : Message} {e : Error}
    (h : Owes c hs front reply)
    (hsend : (send reply (Action.forEach front send c).state).result = .error e)
    (hend : Ending c ms hs r t) : r = .error e := by
  cases hend with
  | closed _ hall => exact (h.not_answered hsend hall).elim
  | broken _ _ hall _ => exact (h.not_answered hsend hall).elim
  | unsent e' front' x hx _ hfront hsend' =>
    obtain ⟨rfl, hlast⟩ := List.append_inj' (h.owed.symm.trans hx) rfl
    cases hlast
    exact hsend'.symm.trans hsend

theorem Parts.result {f : Parting} (h : Parts c ms hs f) (hend : Ending c ms hs r t) :
    r = f.result c.maxMessageSize := by
  cases h with
  | closed hlast hsent => exact hend.result_eq_ok_iff.2 ⟨hlast, hsent⟩
  | hungUp h hcut hnone =>
    have hlack : c.stream.lack = .unexpectedEnd := by rw [Stream.lack, hnone]
    exact h.of_ending (hlack ▸ outcome_of_lt_reach _ hcut) hend
  | @unread _ k h hcut hbreach =>
    have hlack : c.stream.lack = Stream.scripted k := by rw [Stream.lack, hbreach]
    exact h.of_ending (hlack ▸ outcome_of_lt_reach _ hcut) hend
  | overlong h hheader hmax => exact h.of_ending (outcome_of_overlong _ hheader hmax) hend
  | malformed h hp hlt hdecode =>
    exact h.of_ending ((outcome_frame _ hp hlt _).trans hdecode) hend
  | unwritten h hsend _ => exact h.of_ending hsend hend
  | unsendable h hsend _ => exact h.of_ending hsend hend

theorem Parts.orderly_result {f : Parting} (h : Parts c ms hs f) :
    orderly (f.result c.maxMessageSize) = f.orderly := by
  cases h with
  | @unsendable _ reply _ _ _ hfault =>
    rcases hfault with hencode | ⟨_, _, _, rfl⟩
    · rcases Message.writtenIfFits reply with ⟨_, p, hp⟩ | ⟨n, _, _, hn⟩
      · cases hencode.symm.trans hp
      · cases hencode.symm.trans hn
        rfl
    · rfl
  | _ => rfl

theorem exists_parts (hms : (receives ms.length c).result = .ok ms) (hend : Ending c ms hs r t) :
    ∃ f, Parts c ms hs f := by
  cases hend with
  | closed hlast hsent => exact ⟨_, .closed hlast hsent⟩
  | broken e hopen hsent hreceive =>
    have hwaits : Waits c ms hs _ := ⟨hopen, hsent, carries_of_receives hms⟩
    generalize hrest : (receives ms.length c).state.stream.supply = rest at hwaits
    rcases frame_cases c.maxMessageSize rest with
      hcut | ⟨hheader, hmax⟩ | ⟨p, more, hs, hp, hlt⟩
    · cases hbreach : c.stream.breach with
      | none => exact ⟨_, .hungUp hwaits hcut hbreach⟩
      | some k => exact ⟨_, .unread hwaits hcut hbreach⟩
    · exact ⟨_, .overlong hwaits hheader hmax⟩
    · cases hs
      obtain ⟨hresult, -⟩ := @receive_of_supply (receives ms.length c).state p more
        (by rw [maxMessageSize_receives]; exact hp) hlt hrest
      exact ⟨_, .malformed hwaits hp hlt (hresult.symm.trans hreceive)⟩
  | unsent e front x hx _ hfront hsend =>
    have howes : Owes c hs front x := ⟨hx, hfront⟩
    have hmax : (Action.forEach front send c).state.maxMessageSize = c.maxMessageSize :=
      maxMessageSize_forEach_send front c
    have hsends := sends_send x (Action.forEach front send c).state
    generalize (send x (Action.forEach front send c).state).state = d at hsends
    generalize hr : (send x (Action.forEach front send c).state).result = r at hsends
    have he := hr.symm.trans hsend
    cases hsends with
    | unencoded hencode =>
      cases he
      exact ⟨_, .unsendable howes hsend (.inl hencode)⟩
    | overlong hencode hover =>
      cases he
      rw [hmax] at hsend hover
      exact ⟨_, .unsendable howes hsend (.inr ⟨_, hencode, hover, rfl⟩)⟩
    | torn _ _ _ _ _ hcause =>
      cases he
      exact ⟨_, .unwritten howes hsend (.inl hcause.1)⟩
    | written _ _ hw =>
      obtain ⟨cause, rfl, hcause⟩ := balks_of_flush hw he
      exact ⟨_, .unwritten howes hsend hcause⟩

end Ending

theorem serve_of_receive_eq_error {s : Session} {e : Error}
    (h : (receive s.link).result = .error e) :
    (serve s).result = .error e ∧ (serve s).state = { s with link := (receive s.link).state } := by
  obtain ⟨es, hstep⟩ := step_of_receive_eq_error h
  rw [serve]
  split
  · next hs =>
    cases hs.symm.trans hstep
    exact ⟨rfl, rfl⟩
  · next hs => cases hs.symm.trans hstep
  · next hs => cases hs.symm.trans hstep

theorem course_of_malformed {s : Session} {p more : List UInt8} {fault : Error}
    (hs : s.link.stream.supply = frame p ++ more) (hp : p.length ≤ s.link.maxMessageSize)
    (hlt : p.length < 2 ^ 32) (hdecode : Message.decode p = .error fault) :
    (serve s).result = .error fault ∧ Course s [] [] (serve s).result (serve s).state ∧
      Parts s.link [] [] (.malformed p fault) := by
  obtain ⟨hreceive, -⟩ := receive_of_supply hp hlt hs
  obtain ⟨hresult, hstate⟩ := serve_of_receive_eq_error (hreceive.trans hdecode)
  have hwaits : Waits s.link [] [] (frame p ++ more) := ⟨List.not_mem_nil, rfl, hs ▸ .nothing _⟩
  refine ⟨hresult, ?_, .malformed hwaits hp hlt hdecode⟩
  rw [hresult, hstate]
  exact course_nil (hreceive.trans hdecode)

end Session

/-- Whatever bytes arrive, and in whatever pieces, a session parts in one of these ways, and the service
judges it by that. It takes it for one that ended in good order only if the controller closed it, the
stream ended, the stream reported the end as a failure, or a payload that came whole was too short. After
every other fault of a frame the channel is marked broken and the session given as aborted. -/
theorem told_of_parts (a : Arrival) (stream : Stream) (d : Desk) :
    (∃ ms hs f, Session.Course (begun stream d) ms hs (begun stream d).serve.result
        (begun stream d).serve.state ∧ Session.Parts (freshLink d.context stream) ms hs f) ∧
    ∀ ms hs f, Session.Course (begun stream d) ms hs (begun stream d).serve.result
        (begun stream d).serve.state → Session.Parts (freshLink d.context stream) ms hs f →
      Told a stream d f.orderly := by
  refine ⟨?_, fun ms hs f hcourse hparts => ?_⟩
  · obtain ⟨ms, hs, hcourse⟩ := Session.exists_course (begun stream d)
    obtain ⟨f, hparts⟩ := Session.exists_parts hcourse.received hcourse.ending
    exact ⟨ms, hs, f, hcourse, hparts⟩
  · have htold := told_attend a stream d
    rw [hparts.result hcourse.ending, hparts.orderly_result] at htold
    exact htold

theorem told_of_parts_unknown_type :
    let d : Desk := { context := { config := .standard "/tmp" }
                      gate := { name := "mbam-1", seat := ⟨.connected, some 0⟩, accepted := 1 } }
    let stream : Stream := { incoming := [.bytes [4, 0, 0], .failure .interrupted,
      .bytes [0, 99, 0, 0, 0, 7]], chunk := 2 }
    (attend { outcome := .connection stream } stream d).state.gate.entries =
      [.markedBroken, .disconnected .broken] := by
  intro d stream
  have hsupply : stream.supply = frame [99, 0, 0, 0] ++ [7] := by decide
  have hdecode : Message.decode [99, 0, 0, 0] = .error (.unknownMessageType 99) := by rfl
  obtain ⟨-, hcourse, hparts⟩ :=
    @Session.course_of_malformed (begun stream d) _ _ _ hsupply (by decide) (by decide) hdecode
  obtain ⟨-, htold⟩ := told_of_parts { outcome := .connection stream } stream d
  obtain ⟨-, ⟨before, hentries, hbefore⟩, -⟩ := htold [] [] _ hcourse hparts
  rw [hentries, hbefore rfl rfl rfl]
  rfl

/-- A frame with an empty payload comes whole, and its payload is that of no message, but the service
takes the controller for gone. -/
theorem not_marked_of_empty_payload :
    let d : Desk := { context := { config := .standard "/tmp" }
                      gate := { name := "mbam-1", seat := ⟨.connected, some 0⟩, accepted := 1 } }
    let stream : Stream := .ofBytes (frame [] ++ frame [4, 0, 0, 0])
    (∃ fault, Message.decode [] = .error fault) ∧
      stream.Delivers (frame [] ++ frame [4, 0, 0, 0]) ∧
      (attend { outcome := .connection stream } stream d).state.gate.entries =
        [.disconnected .connected] := by
  intro d stream
  obtain ⟨cause, hdecode, hkind⟩ := @Message.runsOut_of_lt [] (by decide)
  have hdelivers : stream.Delivers (frame [] ++ frame [4, 0, 0, 0]) :=
    Stream.delivers_iff.2 ⟨rfl, rfl⟩
  refine ⟨⟨_, hdecode⟩, hdelivers, ?_⟩
  obtain ⟨hresult, -⟩ := @Session.course_of_malformed (begun stream d) _ _ _
    (Stream.delivers_iff_supply.1 hdelivers).1 (Nat.zero_le _) (by decide) hdecode
  have htold := told_attend { outcome := .connection stream } stream d
  have horderly : orderly (.error (.channelIo cause)) = true := decide_eq_true hkind
  rw [hresult, horderly] at htold
  obtain ⟨-, ⟨before, hentries, hbefore⟩, -⟩ := htold
  rw [hentries, hbefore rfl rfl rfl]
  rfl

end Command

end Service

end RemoteAgent
