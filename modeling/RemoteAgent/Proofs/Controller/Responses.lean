import Mathlib.Data.List.Induction
import RemoteAgent.Proofs.Channel.Consumption
import RemoteAgent.Proofs.Controller.Answers

/-! What a function server writes. However the functions change while it serves, it answers the calls it
receives one by one, in their order, and nothing else. -/

namespace RemoteAgent.Controller.Server

open RemoteAgent.Action Channel

section Amid

/-- Serves while functions come and go: `tables k` are those there are at the message after `k` others.
A step looks at the functions once, after a call has come, so that it does not matter when they have
come to be these. -/
def serveAmid (tables : Nat → Functions) (k : Nat) (s : Server) : Outcome Server Unit :=
  match h : step { s with functions := tables k } with
  | ⟨.error e, t, es⟩ => ⟨.error e, t, es⟩
  | ⟨.ok (), t, es⟩ =>
    have : t.link.weight < s.link.weight := @weight_step { s with functions := tables k } t es h
    let o := serveAmid tables (k + 1) t
    ⟨o.result, o.state, es ++ o.events⟩
  termination_by s.link.weight

theorem keeps_functions_step : Keeps Server.functions step := by
  intro s
  rcases step_cases s with ⟨_, _, _, hs⟩ | ⟨_, _, _, _, hs⟩ | ⟨_, _, _, _, _, hs⟩
  all_goals rw [hs]

variable {tables : Nat → Functions} {k : Nat} {s t : Server} {es : List Log.Event}

theorem serveAmid_of_error {e : Error} (h : step { s with functions := tables k } = ⟨.error e, t, es⟩) :
    serveAmid tables k s = ⟨.error e, t, es⟩ := by
  rw [serveAmid]
  split
  · next heq => rw [← heq, h]
  · next heq =>
    rw [h] at heq
    cases heq

theorem serveAmid_of_ok (h : step { s with functions := tables k } = ⟨.ok (), t, es⟩) :
    serveAmid tables k s = ⟨(serveAmid tables (k + 1) t).result, (serveAmid tables (k + 1) t).state,
      es ++ (serveAmid tables (k + 1) t).events⟩ := by
  rw [serveAmid]
  split
  · next heq =>
    rw [h] at heq
    cases heq
  · next heq =>
    rw [h] at heq
    cases heq
    rfl

theorem serve_eq_serveAmid (s : Server) (k : Nat) : serve s = serveAmid (fun _ => s.functions) k s := by
  unfold serve
  fun_induction serveWhile (fun _ => true) s generalizing k with
  | case1 s hready e t es hstep => exact (serveAmid_of_error hstep).symm
  | case2 s hready t es hstep hlt o ih =>
    have hkeeps : (step s).state.functions = s.functions := keeps_functions_step s
    rw [hstep] at hkeeps
    have hrest : o = serveAmid (fun _ => s.functions) (k + 1) t := hkeeps ▸ ih (k + 1)
    rw [serveAmid_of_ok hstep, ← hrest]
  | case3 s hready => exact (hready rfl).elim

end Amid

section Answers

/-- The answers to messages in a row, each by the functions of its moment. -/
def answers (tables : Nat → Functions) (ms : List Message) : List Message :=
  (ms.mapIdx fun k m => (answer? (tables k) m).toList).flatten

variable {functions : Functions} {tables : Nat → Functions}

theorem answers_concat (ms : List Message) (m : Message) : answers tables (ms ++ [m]) =
    answers tables ms ++ (answer? (tables ms.length) m).toList := by
  rw [answers, List.mapIdx_concat, List.flatten_append, List.flatten_singleton, answers]

end Answers

section Course

variable {tables : Nat → Functions} {c l : Link} {ms : List Message} {m r : Message} {e : Error}

structure Answered (tables : Nat → Functions) (c : Link) (ms : List Message) (l : Link) : Prop where
  received : (receives ms.length c).result = .ok ms
  sent : (forEach (answers tables ms) send c).result = .ok ()
  link : l = (receives ms.length c).state.onto (forEach (answers tables ms) send c).state

/-- How serving ends, after these messages and with these bytes written. -/
inductive Ending (tables : Nat → Functions) (c : Link) (ms : List Message) (e : Error) :
    List UInt8 → Prop
  | broken (hsent : (forEach (answers tables ms) send c).result = .ok ())
    (hreceive : (receive (receives ms.length c).state).result = .error e) :
    Ending tables c ms e ((answers tables ms).flatMap framed)
  | unsent (front : List Message) (name : String) (args : List UInt64) (part : List UInt8)
    (hlast : ms = front ++ [.remoteCall name args])
    (hsent : (forEach (answers tables front) send c).result = .ok ())
    (hsend : (send (response (tables front.length) name args)
      (forEach (answers tables front) send c).state).result = .error e)
    (hpart : part <+: framed (response (tables front.length) name args) ∧
      (part = framed (response (tables front.length) name args) →
        (forEach (answers tables front) send c).state.stream.flushFailure ≠ none)) :
    Ending tables c ms e ((answers tables front).flatMap framed ++ part)

theorem Answered.start (tables : Nat → Functions) (c : Link) : Answered tables c [] c :=
  ⟨rfl, rfl, rfl⟩

theorem Answered.sizes (c : Link) (n : Nat) (rs : List Message) :
    (receives n c).state.maxMessageSize = (forEach rs send c).state.maxMessageSize := by
  rw [maxMessageSize_receives, maxMessageSize_forEach_send]

theorem Answered.receive_eq (h : Answered tables c ms l) :
    (receive l).result = (receive (receives ms.length c).state).result ∧
      (receive l).state = (receive (receives ms.length c).state).state.onto
        (forEach (answers tables ms) send c).state := by
  rw [h.link]
  exact receive_onto (Answered.sizes c ms.length (answers tables ms))

theorem Answered.pass (h : Answered tables c ms l) (hm : (receive l).result = .ok m)
    (hnone : answer? (tables ms.length) m = none) :
    Answered tables c (ms ++ [m]) (receive l).state := by
  obtain ⟨hnext, hstate⟩ := h.receive_eq
  obtain ⟨hresult, hafter⟩ := receives_concat h.received (hnext.symm.trans hm)
  have hanswers : answers tables (ms ++ [m]) = answers tables ms := by
    rw [answers_concat, hnone, Option.toList_none, List.append_nil]
  refine ⟨?_, ?_, ?_⟩
  · rw [List.length_append, List.length_singleton]
    exact hresult
  · rw [hanswers]
    exact h.sent
  · rw [List.length_append, List.length_singleton, hafter, hanswers]
    exact hstate

theorem Answered.send_eq (h : Answered tables c ms l) (r : Message) :
    (send r (receive l).state).result = (send r (forEach (answers tables ms) send c).state).result ∧
      (send r (receive l).state).state = (receive (receives ms.length c).state).state.onto
        (send r (forEach (answers tables ms) send c).state).state := by
  have hsizes : (forEach (answers tables ms) send c).state.maxMessageSize =
      (receive (receives ms.length c).state).state.maxMessageSize := by
    rw [maxMessageSize_receive, Answered.sizes c ms.length (answers tables ms)]
  rw [h.receive_eq.2]
  exact send_onto r hsizes

theorem Answered.reply (h : Answered tables c ms l) (hm : (receive l).result = .ok m)
    (hr : answer? (tables ms.length) m = some r)
    (hsend : (send r (receive l).state).result = .ok ()) :
    Answered tables c (ms ++ [m]) (send r (receive l).state).state := by
  obtain ⟨hnext, -⟩ := h.receive_eq
  obtain ⟨hsent, hstate⟩ := h.send_eq r
  obtain ⟨hresult, hafter⟩ := receives_concat h.received (hnext.symm.trans hm)
  obtain ⟨hall, hwritten⟩ := forEach_concat h.sent r
  have hanswers : answers tables (ms ++ [m]) = answers tables ms ++ [r] := by
    rw [answers_concat, hr, Option.toList_some]
  refine ⟨?_, ?_, ?_⟩
  · rw [List.length_append, List.length_singleton]
    exact hresult
  · rw [hanswers, hall, ← hsent]
    exact hsend
  · rw [List.length_append, List.length_singleton, hafter, hanswers, hwritten]
    exact hstate

theorem Answered.sent_eq (h : Answered tables c ms l) :
    l.stream.sent = c.stream.sent ++ (answers tables ms).flatMap framed := by
  obtain ⟨part, -, hsent, hall⟩ := sent_forEach_send (answers tables ms) c
  rw [h.link, ← hall h.sent]
  exact hsent

theorem Answered.flushFailure_eq (h : Answered tables c ms l) :
    l.stream.flushFailure = (forEach (answers tables ms) send c).state.stream.flushFailure := by
  rw [h.link]
  rfl

theorem Answered.broken (h : Answered tables c ms l) (he : (receive l).result = .error e) :
    ∃ part, Ending tables c ms e part ∧
      (receive l).state.stream.sent = c.stream.sent ++ part := by
  refine ⟨_, .broken h.sent (h.receive_eq.1.symm.trans he), ?_⟩
  rw [sent_receive, h.sent_eq]

theorem Answered.unsent (h : Answered tables c ms l) (hr : answer? (tables ms.length) m = some r)
    (he : (send r (receive l).state).result = .error e) :
    ∃ part, Ending tables c (ms ++ [m]) e part ∧
      (send r (receive l).state).state.stream.sent = c.stream.sent ++ part := by
  cases m with
  | remoteCall name args =>
    cases hr
    obtain ⟨hsend, -⟩ := h.send_eq (response (tables ms.length) name args)
    obtain ⟨p, hp⟩ := exists_encode_response (tables ms.length) name args
    obtain ⟨part, hfront, hwhole, hsent⟩ := sent_of_send_eq_error hp he
    rw [flushFailure_receive, h.flushFailure_eq] at hwhole
    refine ⟨_, .unsent ms name args part rfl h.sent (hsend.symm.trans he) ⟨hfront, hwhole⟩, ?_⟩
    rw [hsent, sent_receive, h.sent_eq, List.append_assoc]
  | _ => cases hr

theorem exists_ending (tables : Nat → Functions) (c : Link) (k : Nat) (s : Server) :
    ∀ ms, ms.length = k → Answered tables c ms s.link →
    ∃ ms' e part, (serveAmid tables k s).result = .error e ∧
      (receives ms'.length c).result = .ok ms' ∧ Ending tables c ms' e part ∧
      (serveAmid tables k s).state.link.stream.sent = c.stream.sent ++ part := by
  -- step by step, as the loop goes; each adds one to the messages answered so far
  fun_induction serveAmid tables k s with
  | case1 k s e t es hstep =>
    rintro ms rfl h
    rcases step_cases { s with functions := tables ms.length } with
      ⟨e', he, hr, hs⟩ | ⟨m, hm, hnone, hr, hs⟩ | ⟨m, r, hm, hsome, hr, hs⟩
    · rw [hstep] at hr hs
      cases hr
      cases hs
      obtain ⟨part, hend, hsent⟩ := h.broken he
      exact ⟨ms, e, part, rfl, h.received, hend, hsent⟩
    · rw [hstep] at hr
      cases hr
    · rw [hstep] at hr hs
      cases hs
      obtain ⟨part, hend, hsent⟩ := h.unsent hsome hr.symm
      obtain ⟨hall, -⟩ := receives_concat h.received (h.receive_eq.1.symm.trans hm)
      refine ⟨ms ++ [m], e, part, rfl, ?_, hend, hsent⟩
      rw [List.length_append, List.length_singleton]
      exact hall
  | case2 k s t es hstep hlt o ih =>
    rintro ms rfl h
    have hlength : ∀ m, (ms ++ [m]).length = ms.length + 1 :=
      fun m => by rw [List.length_append, List.length_singleton]
    rcases step_cases { s with functions := tables ms.length } with
      ⟨e', he, hr, hs⟩ | ⟨m, hm, hnone, hr, hs⟩ | ⟨m, r, hm, hsome, hr, hs⟩
    · rw [hstep] at hr
      cases hr
    · rw [hstep] at hs
      cases hs
      exact ih _ (hlength m) (h.pass hm hnone)
    · rw [hstep] at hr hs
      cases hs
      exact ih _ (hlength m) (h.reply hm hsome hr.symm)

end Course

theorem length_answers (tables : Nat → Functions) (ms : List Message) :
    (answers tables ms).length = ms.countP fun m => m.kind = .remoteCall := by
  induction ms using List.reverseRecOn with
  | nil => rfl
  | append_singleton ms m ih =>
    rw [answers_concat, List.length_append, ih, List.countP_append, List.countP_singleton]
    cases m <;> rfl

/-- A function server answers one for one. Whatever its functions are from message to message, it ends by
a failure, and until then it has written the frames of its answers to the messages it has received, in
their order, one for each call; of the response that could not be sent, if that is the failure, it has
written less than a frame, unless it was the flush that failed. The messages are those that stand first on its stream. -/
theorem serveAmid_one_for_one (tables : Nat → Functions) (s : Server) :
    serve s = serveAmid (fun _ => s.functions) 0 s ∧
    (∀ ms, (answers tables ms).length = ms.countP fun m => m.kind = .remoteCall) ∧
    ∃ ms e part, (serveAmid tables 0 s).result = .error e ∧
      (receives ms.length s.link).result = .ok ms ∧
      ((payloads s.link.stream.unread).take ms.length).mapM Message.decode = .ok ms ∧
      Ending tables s.link ms e part ∧
      (serveAmid tables 0 s).state.link.stream.sent = s.link.stream.sent ++ part := by
  obtain ⟨ms, e, part, hresult, hms, hend, hsent⟩ :=
    exists_ending tables s.link 0 s [] rfl (Answered.start tables s.link)
  exact ⟨serve_eq_serveAmid s 0, length_answers tables, ms, e, part, hresult, hms,
    decode_payloads_of_receives hms, hend, hsent⟩

end RemoteAgent.Controller.Server
