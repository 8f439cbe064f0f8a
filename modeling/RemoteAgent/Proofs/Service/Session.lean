import RemoteAgent.Proofs.Agent.Replies
import RemoteAgent.Proofs.Channel.Failure
import RemoteAgent.Proofs.Channel.Sides
import RemoteAgent.Service.Command

/-! A command session as a fold: the dispatcher goes over the messages that are received, and what it
replies is what is sent. -/

namespace RemoteAgent

open RemoteAgent.Action Channel

namespace Service.Command.Session

def replies (hs : List Handled) : List Message := hs.flatMap (·.response.toList)

/-- How a session over a link stops, after these messages and what was done with each: the result, and
the link it leaves. -/
inductive Ending (c : Link) (ms : List Message) (hs : List Handled) :
    Except Error Unit → Link → Prop
  | closed (hlast : ms.getLast? = some .closeProcess)
    (hsent : (Action.forEach (replies hs) send c).result = .ok ()) :
    Ending c ms hs (.ok ())
      ((receives ms.length c).state.onto (Action.forEach (replies hs) send c).state)
  | broken (e : Error) (hopen : .closeProcess ∉ ms)
    (hsent : (Action.forEach (replies hs) send c).result = .ok ())
    (hreceive : (receive (receives ms.length c).state).result = .error e) :
    Ending c ms hs (.error e)
      ((receive (receives ms.length c).state).state.onto
        (Action.forEach (replies hs) send c).state)
  | unsent (e : Error) (front : List Message) (r : Message) (hreplies : replies hs = front ++ [r])
    (hlast : hs.getLast?.bind (·.response) = some r)
    (hfront : (Action.forEach front send c).result = .ok ())
    (hsend : (send r (Action.forEach front send c).state).result = .error e) :
    Ending c ms hs (.error e)
      ((receives ms.length c).state.onto (Action.forEach (replies hs) send c).state)

/-- The course of a session: it receives these messages, the dispatcher does this with them, and so it
ends. -/
structure Course (s : Session) (ms : List Message) (hs : List Handled) (r : Except Error Unit)
    (t : Session) : Prop where
  received : (receives ms.length s.link).result = .ok ms
  handled : (ms.mapM Context.handle s.context).result = .ok hs
  answered : hs.map (·.response.isNone) = ms.map Message.isResponse
  context : t.context = (ms.mapM Context.handle s.context).state
  closes : .closeProcess ∉ ms.dropLast
  ending : Ending s.link ms hs r t.link

theorem handle_isNone {m : Message} {c : Context} {h : Handled}
    (hh : (Context.handle m c).result = .ok h) :
    h.keepOpen = decide (m ≠ .closeProcess) ∧ h.response.isNone = m.isResponse := by
  have hfits := Context.fits_handle m c
  rw [hh] at hfits
  obtain ⟨hopen, hnone, -⟩ := hfits
  refine ⟨hopen, ?_⟩
  rw [Bool.eq_iff_iff, Option.isNone_iff_eq_none]
  exact hnone

theorem exists_handle (m : Message) (c : Context) :
    ∃ h, (Context.handle m c).result = .ok h := by
  have hfits := Context.fits_handle m c
  cases hr : (Context.handle m c).result with
  | ok h => exact ⟨h, rfl⟩
  | error e =>
    rw [hr] at hfits
    exact hfits.elim

theorem step_of_receive_eq_error {s : Session} {e : Error}
    (h : (receive s.link).result = .error e) :
    ∃ es, step s = ⟨.error e, { s with link := (receive s.link).state }, es⟩ := by
  have hin : inLink receive s = ⟨.error e, { s with link := (receive s.link).state },
      (receive s.link).events⟩ := by
    rw [← h]
    rfl
  exact ⟨_, by rw [step, bind_of_error hin]⟩

theorem send_after_receive (r : Message) (c : Link) :
    ∃ es, send r (receive c).state =
      ⟨(send r c).result, (receive c).state.onto (send r c).state, es⟩ := by
  have hmax : c.maxMessageSize = (receive c).state.maxMessageSize := (maxMessageSize_receive c).symm
  -- the link after receiving is the link before it, with another reading side
  obtain ⟨hr, -, -, hs⟩ := agrees_send r (receive c).state c _ ⟨hmax, rfl⟩
  rw [onto_of_receive] at hr hs
  cases hsend : send r (receive c).state with
  | mk result state es =>
    rw [hsend] at hr hs
    cases hr
    cases hs
    exact ⟨es, rfl⟩

theorem step_of_receive_eq_ok {s : Session} {m : Message} {h : Handled}
    (hm : (receive s.link).result = .ok m) (hh : (Context.handle m s.context).result = .ok h) :
    (step s).result =
        (Action.forEach h.response.toList send s.link).result.map (fun _ => h.keepOpen) ∧
      (step s).state = { context := (Context.handle m s.context).state
                         link := (receive s.link).state.onto
                           (Action.forEach h.response.toList send s.link).state } := by
  have hin : inLink receive s = ⟨.ok m, { s with link := (receive s.link).state },
      (receive s.link).events⟩ := by
    rw [← hm]
    rfl
  have hcontext : inContext (Context.handle m) { s with link := (receive s.link).state } =
      ⟨.ok h, { context := (Context.handle m s.context).state, link := (receive s.link).state },
        (Context.handle m s.context).events⟩ := by
    rw [← hh]
    rfl
  rw [step, bind_of_ok hin, answer, bind_of_ok (tell_apply _ _), bind_of_ok hcontext]
  cases h.response with
  | none =>
    refine ⟨rfl, ?_⟩
    rw [Option.toList_none]
    change _ = Session.mk _ ((receive s.link).state.onto s.link)
    rw [onto_of_receive]
    rfl
  | some r =>
    obtain ⟨es, hsend⟩ := send_after_receive r s.link
    have hlink : ∀ c : Context, inLink (send r) ⟨c, (receive s.link).state⟩ =
        ⟨(send r s.link).result, ⟨c, (receive s.link).state.onto (send r s.link).state⟩, es⟩ := by
      intro c
      rw [inLink, Action.on, hsend]
    rw [Option.toList_some, Action.forEach_singleton]
    cases hr : (send r s.link).result with
    | ok _ =>
      rw [hr] at hlink
      dsimp only
      rw [bind_of_ok (hlink _)]
      exact ⟨rfl, rfl⟩
    | error e =>
      rw [hr] at hlink
      dsimp only
      rw [bind_of_error (hlink _)]
      exact ⟨rfl, rfl⟩

theorem mapM_handle_cons {m : Message} {ms : List Message} {h : Handled} {hs : List Handled}
    {c : Context} (hh : (Context.handle m c).result = .ok h)
    (hhs : (ms.mapM Context.handle (Context.handle m c).state).result = .ok hs) :
    ((m :: ms).mapM Context.handle c).result = .ok (h :: hs) ∧
      ((m :: ms).mapM Context.handle c).state =
        (ms.mapM Context.handle (Context.handle m c).state).state := by
  rw [List.mapM_cons]
  obtain ⟨hr, hs⟩ := @Action.bind_of_result _ _ _ (Context.handle m)
    (fun h => ms.mapM Context.handle >>= fun hs => pure (h :: hs)) c h hh
  obtain ⟨hr', hs'⟩ := @Action.bind_of_result _ _ _ (ms.mapM Context.handle)
    (fun hs => pure (h :: hs)) (Context.handle m c).state _ hhs
  exact ⟨hr.trans hr', hs.trans hs'⟩

theorem forEach_replies_cons {h : Handled} {c : Link} (xs : List Message)
    (hsent : (Action.forEach h.response.toList send c).result = .ok ()) :
    (Action.forEach (h.response.toList ++ xs) send c).result =
        (Action.forEach xs send (Action.forEach h.response.toList send c).state).result ∧
      (Action.forEach (h.response.toList ++ xs) send c).state =
        (Action.forEach xs send (Action.forEach h.response.toList send c).state).state := by
  rw [Action.forEach_append]
  exact Action.bind_of_result hsent

theorem Ending.cons {c : Link} {m : Message} {ms : List Message} {h : Handled} {hs : List Handled}
    {r : Except Error Unit} {d : Link} (hm : (receive c).result = .ok m)
    (hms : (receives ms.length (receive c).state).result = .ok ms) (hopen : m ≠ .closeProcess)
    (hsent : (Action.forEach h.response.toList send c).result = .ok ())
    (hend : Ending ((receive c).state.onto (Action.forEach h.response.toList send c).state) ms hs
      r d) : Ending c (m :: ms) (h :: hs) r d := by
  have hmax : (receive c).state.maxMessageSize =
      (Action.forEach h.response.toList send c).state.maxMessageSize := by
    rw [maxMessageSize_receive, maxMessageSize_forEach_send]
  obtain ⟨-, hstate⟩ := receives_cons hm hms
  have hreplies : replies (h :: hs) = h.response.toList ++ replies hs := List.flatMap_cons
  obtain ⟨hresult, hwritten⟩ := forEach_replies_cons (replies hs) hsent
  obtain ⟨-, hread⟩ := receives_onto ms.length hmax
  obtain ⟨hresult', hwritten'⟩ := forEach_send_onto (replies hs) hmax.symm
  rw [← hreplies] at hresult hwritten
  -- the rest went over a link that read on from the first message and wrote on from the first reply
  cases hend with
  | closed hlast hall =>
    rw [hread, hwritten', ← hstate, ← hwritten]
    refine .closed ?_ ?_
    · rw [List.getLast?_cons, hlast]
      rfl
    · rw [hresult, ← hresult']
      exact hall
  | broken e hnone hall hreceive =>
    have hmax' : (receives ms.length (receive c).state).state.maxMessageSize =
        (Action.forEach h.response.toList send c).state.maxMessageSize :=
      (maxMessageSize_receives _ _).trans hmax
    obtain ⟨hlast, hlastState⟩ := receive_onto hmax'
    rw [hread, hlast] at hreceive
    rw [hread, hlastState, hwritten', ← hstate, ← hwritten]
    refine .broken e ?_ ?_ ?_
    · exact fun hmem => (List.mem_cons.1 hmem).elim (fun heq => hopen heq.symm) hnone
    · rw [hresult, ← hresult']
      exact hall
    · rw [List.length_cons, hstate]
      exact hreceive
  | unsent e front x hx hlast hfront hsend =>
    obtain ⟨hfrontResult, hfrontState⟩ := forEach_send_onto front hmax.symm
    obtain ⟨hresultFront, hwrittenFront⟩ := forEach_replies_cons front hsent
    have hmax' : (Action.forEach front send
        (Action.forEach h.response.toList send c).state).state.maxMessageSize =
        (receive c).state.maxMessageSize :=
      (maxMessageSize_forEach_send _ _).trans hmax.symm
    obtain ⟨hsendResult, -⟩ := send_onto x hmax'
    rw [hread, hwritten', ← hstate, ← hwritten]
    refine .unsent e (h.response.toList ++ front) x ?_ ?_ ?_ ?_
    · rw [hreplies, hx, List.append_assoc]
    · obtain ⟨last, hl, hr⟩ := Option.bind_eq_some_iff.1 hlast
      rw [List.getLast?_cons, hl]
      exact hr
    · rw [hresultFront, ← hfrontResult]
      exact hfront
    · rw [hwrittenFront, ← hsendResult, ← hfrontState]
      exact hsend

theorem Course.cons {s t : Session} {m : Message} {ms : List Message} {h : Handled}
    {hs : List Handled} {r : Except Error Unit} (hm : (receive s.link).result = .ok m)
    (hh : (Context.handle m s.context).result = .ok h) (hopen : m ≠ .closeProcess)
    (hsent : (Action.forEach h.response.toList send s.link).result = .ok ())
    (ht : Course { context := (Context.handle m s.context).state
                   link := (receive s.link).state.onto
                     (Action.forEach h.response.toList send s.link).state } ms hs r t) :
    Course s (m :: ms) (h :: hs) r t := by
  have hmax : (receive s.link).state.maxMessageSize =
      (Action.forEach h.response.toList send s.link).state.maxMessageSize := by
    rw [maxMessageSize_receive, maxMessageSize_forEach_send]
  have hms : (receives ms.length (receive s.link).state).result = .ok ms := by
    rw [← (receives_onto ms.length hmax).1]
    exact ht.received
  obtain ⟨hhandled, hcontext⟩ := mapM_handle_cons hh ht.handled
  refine ⟨(receives_cons hm hms).1, hhandled, ?_, ht.context.trans hcontext.symm, ?_,
    ht.ending.cons hm hms hopen hsent⟩
  · rw [List.map_cons, List.map_cons, (handle_isNone hh).2, ht.answered]
  · cases ms with
    | nil => exact List.not_mem_nil
    | cons m' ms =>
      rw [List.dropLast_cons_cons]
      exact fun hmem => (List.mem_cons.1 hmem).elim (fun heq => hopen heq.symm) ht.closes

theorem course_singleton {s t : Session} {m : Message} {h : Handled} {r : Except Error Unit}
    (hm : (receive s.link).result = .ok m) (hh : (Context.handle m s.context).result = .ok h)
    (hcontext : t.context = (Context.handle m s.context).state)
    (hend : Ending s.link [m] [h] r t.link) : Course s [m] [h] r t := by
  obtain ⟨hreceived, -⟩ := receives_cons (n := 0) (m := m) hm rfl
  obtain ⟨hhandled, hstate⟩ := @mapM_handle_cons m [] h [] s.context hh rfl
  refine ⟨hreceived, hhandled, ?_, hcontext.trans hstate.symm, List.not_mem_nil, hend⟩
  rw [List.map_singleton, List.map_singleton, (handle_isNone hh).2]

theorem course_nil {s : Session} {e : Error} (h : (receive s.link).result = .error e) :
    Course s [] [] (.error e) { s with link := (receive s.link).state } := by
  have hend : Ending s.link [] [] (.error e) ((receive s.link).state.onto s.link) :=
    .broken e List.not_mem_nil rfl h
  rw [onto_of_receive] at hend
  exact ⟨rfl, rfl, rfl, rfl, List.not_mem_nil, hend⟩

theorem step_cases (s : Session) :
    (∃ e, (receive s.link).result = .error e ∧ (step s).result = .error e ∧
      (step s).state = { s with link := (receive s.link).state }) ∨
    ∃ m h, (receive s.link).result = .ok m ∧ (Context.handle m s.context).result = .ok h ∧
      (step s).state = { context := (Context.handle m s.context).state
                         link := (receive s.link).state.onto
                           (Action.forEach h.response.toList send s.link).state } ∧
      ((∃ e, (Action.forEach h.response.toList send s.link).result = .error e ∧
          (step s).result = .error e) ∨
        (Action.forEach h.response.toList send s.link).result = .ok () ∧
          (step s).result = .ok (decide (m ≠ .closeProcess))) := by
  cases hm : (receive s.link).result with
  | error e =>
    obtain ⟨es, hes⟩ := step_of_receive_eq_error hm
    rw [hes]
    exact .inl ⟨e, rfl, rfl, rfl⟩
  | ok m =>
    obtain ⟨h, hh⟩ := exists_handle m s.context
    obtain ⟨hr, hs⟩ := step_of_receive_eq_ok hm hh
    refine .inr ⟨m, h, rfl, hh, hs, ?_⟩
    rw [hr, ← (handle_isNone hh).1]
    cases hsent : (Action.forEach h.response.toList send s.link).result with
    | ok _ => exact .inr ⟨rfl, rfl⟩
    | error e => exact .inl ⟨e, rfl, rfl⟩

theorem ending_singleton {c : Link} {m : Message} {h : Handled} {r : Except Error Unit}
    (hm : (receive c).result = .ok m)
    (hr : (Action.forEach h.response.toList send c).result = r)
    (hclose : r = .ok () → m = .closeProcess) :
    Ending c [m] [h] r
      ((receive c).state.onto (Action.forEach h.response.toList send c).state) := by
  obtain ⟨-, hstate⟩ := receives_cons (n := 0) (m := m) hm rfl
  have hstate' : (receives [m].length c).state = (receive c).state := hstate
  have hreplies : replies [h] = h.response.toList := List.flatMap_singleton _ _
  rw [← hstate', ← hreplies]
  cases r with
  | ok _ =>
    refine .closed ?_ ?_
    · rw [hclose rfl]
      rfl
    · rw [hreplies]
      exact hr
  | error e =>
    cases hx : h.response with
    | none =>
      rw [hx] at hr
      cases hr
    | some x =>
      rw [hx, Option.toList_some, Action.forEach_singleton] at hr
      refine .unsent e [] x ?_ ?_ rfl hr
      · rw [hreplies, hx]
        rfl
      · exact hx

theorem exists_course (s : Session) :
    ∃ ms hs, Course s ms hs (serve s).result (serve s).state := by
  -- round by round, as the loop goes: one that fails, one that closes, one before others
  fun_induction serve s with
  | case1 s e t es hstep =>
    rcases step_cases s with ⟨e', hm, hr, hs⟩ | ⟨m, h, hm, hh, hs, ⟨e', hsent, hr⟩ | ⟨_, hr⟩⟩
    · rw [hstep] at hr hs
      cases hr
      cases hs
      exact ⟨[], [], course_nil hm⟩
    · rw [hstep] at hr hs
      cases hr
      cases hs
      have hend := ending_singleton hm hsent fun h => by cases h
      exact ⟨[m], [h], course_singleton hm hh rfl hend⟩
    · rw [hstep] at hr
      cases hr
  | case2 s t es hstep =>
    rcases step_cases s with ⟨e, _, hr, _⟩ | ⟨m, h, hm, hh, hs, ⟨e, _, hr⟩ | ⟨hsent, hr⟩⟩
    · rw [hstep] at hr
      cases hr
    · rw [hstep] at hr
      cases hr
    · rw [hstep] at hr hs
      cases hs
      have hclose : m = .closeProcess :=
        Decidable.not_not.1 (decide_eq_false_iff_not.1 (Except.ok.inj hr).symm)
      have hend := ending_singleton hm hsent fun _ => hclose
      exact ⟨[m], [h], course_singleton hm hh rfl hend⟩
  | case3 s t es hstep hlt o ih =>
    obtain ⟨ms, hs', hcourse⟩ := ih
    rcases step_cases s with ⟨e, _, hr, _⟩ | ⟨m, h, hm, hh, hs, ⟨e, _, hr⟩ | ⟨hsent, hr⟩⟩
    · rw [hstep] at hr
      cases hr
    · rw [hstep] at hr
      cases hr
    · rw [hstep] at hr hs
      cases hs
      have hopen : m ≠ .closeProcess := decide_eq_true_iff.1 (Except.ok.inj hr).symm
      exact ⟨m :: ms, h :: hs', hcourse.cons hm hh hopen hsent⟩

theorem Ending.result_eq_ok_iff {c d : Link} {ms : List Message} {hs : List Handled}
    {r : Except Error Unit} (h : Ending c ms hs r d) : r = .ok () ↔
      ms.getLast? = some .closeProcess ∧ (Action.forEach (replies hs) send c).result = .ok () := by
  cases h with
  | closed hlast hsent => exact iff_of_true rfl ⟨hlast, hsent⟩
  | broken e hopen _ _ =>
    refine iff_of_false (fun h => by cases h) fun h => hopen ?_
    exact List.mem_of_getLast? h.1
  | unsent e front x hx _ hfront hsend =>
    refine iff_of_false (fun h => by cases h) fun h => ?_
    have hall : (Action.forEach (front ++ [x]) send c).result = .ok () := hx ▸ h.2
    rw [Action.forEach_append, (Action.bind_of_result hfront).1, Action.forEach_singleton,
      hsend] at hall
    cases hall

theorem Ending.fatal {c d : Link} {ms : List Message} {hs : List Handled} {e : Error}
    (h : Ending c ms hs (.error e) d) : e.isSessionFatal = true := by
  cases h with
  | broken _ _ _ hreceive =>
    have hfits := ends_receive (receives ms.length c).state
    rw [hreceive] at hfits
    exact hfits
  | unsent _ front x _ _ _ hsend =>
    have hfits := ends_send x (Action.forEach front send c).state
    rw [hsend] at hfits
    exact hfits

theorem Ending.sent {c d : Link} {ms : List Message} {hs : List Handled} {r : Except Error Unit}
    (h : Ending c ms hs r d) :
    d.stream.sent = (Action.forEach (replies hs) send c).state.stream.sent := by
  cases h <;> rfl

/-- A session is the fold of the dispatcher over the messages it receives, up to the first that closes
it, the first failure to receive, or the first reply that cannot be sent. What it writes is the frames
of the replies in order, or a front part of that if one cannot be sent. -/
theorem serve_eq_fold (s : Session) :
    ∃ ms hs part, Course s ms hs (serve s).result (serve s).state ∧
      (serve s).state.link.stream.sent = s.link.stream.sent ++ part ∧
      part <+: (replies hs).flatMap framed ∧
      ((Action.forEach (replies hs) send s.link).result = .ok () →
        part = (replies hs).flatMap framed) ∧
      ((serve s).result = .ok () ↔ ms.getLast? = some .closeProcess ∧
        (Action.forEach (replies hs) send s.link).result = .ok ()) ∧
      ∀ e, (serve s).result = .error e → e.isSessionFatal = true := by
  obtain ⟨ms, hs, hcourse⟩ := exists_course s
  obtain ⟨part, hpart, hsent, hall⟩ := sent_forEach_send (replies hs) s.link
  refine ⟨ms, hs, part, hcourse, hcourse.ending.sent.trans hsent, hpart, hall,
    hcourse.ending.result_eq_ok_iff, fun e he => ?_⟩
  have hend := hcourse.ending
  rw [he] at hend
  exact hend.fatal

end Service.Command.Session

end RemoteAgent
