import RemoteAgent.Controller.Server
import RemoteAgent.Proofs.Channel.Idle

/-! A function server between two calls. A call that arrives is answered with what its function
gives, or with zeros, and the server is between two calls again. -/

namespace RemoteAgent.Controller.Server

open RemoteAgent.Action Channel

section Answer

/-- The response to a call: what its function gives for the arguments, and zeros if there is no such
function or it panics. -/
def response (functions : Functions) (name : String) (args : List UInt64) : Message :=
  match (functions.lookup name).bind fun f => f args with
  | some r => .remoteCallResponse r.value (if r.printStack then 1 else 0)
  | none => .remoteCallResponse 0 0

def answer? (functions : Functions) : Message → Option Message
  | .remoteCall name args => some (response functions name args)
  | _ => none

variable {functions : Functions} {name : String} {args : List UInt64}

theorem value_answer : (answer functions name args).1.value =
    (((functions.lookup name).bind fun f => f args).map Response.value).getD 0 := by
  unfold answer
  cases functions.lookup name with
  | none => rfl
  | some f =>
    dsimp only [Option.bind_some]
    cases f args <;> rfl

theorem message_answer (functions : Functions) (name : String) (args : List UInt64) :
    (answer functions name args).1.message = response functions name args := by
  unfold response answer
  cases functions.lookup name with
  | none => rfl
  | some f =>
    dsimp only [Option.bind_some]
    cases f args <;> rfl

theorem exists_encode_response (functions : Functions) (name : String) (args : List UInt64) :
    ∃ p, (response functions name args).encode = .ok p := by
  unfold response
  split
  · exact ⟨_, rfl⟩
  · exact ⟨_, rfl⟩

end Answer

variable {s : Server} {name : String} {args : List UInt64}

theorem step_of_receive_eq_error {e : Error} (h : (receive s.link).result = .error e) :
    ∃ es, step s = ⟨.error e, { s with link := (receive s.link).state }, es⟩ := by
  have hin : (inLink receive).attempt s = ⟨.ok (.error e),
      { s with link := (receive s.link).state }, (receive s.link).events⟩ := by
    rw [← h]
    rfl
  rw [step, bind_of_ok hin]
  dsimp only
  split
  · exact ⟨_, rfl⟩
  · exact ⟨_, rfl⟩

theorem step_of_other {m : Message} (h : (receive s.link).result = .ok m)
    (hm : answer? s.functions m = none) :
    ∃ es, step s = ⟨.ok (), { s with link := (receive s.link).state }, es⟩ := by
  have hin : (inLink receive).attempt s = ⟨.ok (.ok m),
      { s with link := (receive s.link).state }, (receive s.link).events⟩ := by
    rw [← h]
    rfl
  rw [step, bind_of_ok hin]
  dsimp only
  cases m with
  | remoteCall => cases hm
  | _ => exact ⟨_, rfl⟩

theorem step_of_answer {m r : Message} (h : (receive s.link).result = .ok m)
    (hm : answer? s.functions m = some r) :
    (step s).result = (send r (receive s.link).state).result ∧
      (step s).state = { s with link := (send r (receive s.link).state).state } := by
  have hin : (inLink receive).attempt s = ⟨.ok (.ok m),
      { s with link := (receive s.link).state }, (receive s.link).events⟩ := by
    rw [← h]
    rfl
  rw [step, bind_of_ok hin]
  dsimp only
  cases m with
  | remoteCall name args =>
    cases hm
    rw [respond, bind_of_ok (get_apply _)]
    dsimp only
    rw [bind_of_ok (tell_apply _ _), message_answer]
    have hout : (inLink (send (response s.functions name args))).attempt
        { s with link := (receive s.link).state } =
        ⟨.ok (send (response s.functions name args) (receive s.link).state).result, { s with
          link := (send (response s.functions name args) (receive s.link).state).state },
          (send (response s.functions name args) (receive s.link).state).events⟩ := rfl
    rw [bind_of_ok hout]
    cases (send (response s.functions name args) (receive s.link).state).result with
    | ok u => exact ⟨rfl, rfl⟩
    | error e => exact ⟨rfl, rfl⟩
  | _ => cases hm

/-- A step fails to receive, passes a message over, or sends the response to a call. -/
theorem step_cases (s : Server) :
    (∃ e, (receive s.link).result = .error e ∧ (step s).result = .error e ∧
      (step s).state = { s with link := (receive s.link).state }) ∨
    (∃ m, (receive s.link).result = .ok m ∧ answer? s.functions m = none ∧
      (step s).result = .ok () ∧ (step s).state = { s with link := (receive s.link).state }) ∨
    ∃ m r, (receive s.link).result = .ok m ∧ answer? s.functions m = some r ∧
      (step s).result = (send r (receive s.link).state).result ∧
      (step s).state = { s with link := (send r (receive s.link).state).state } := by
  cases hm : (receive s.link).result with
  | error e =>
    obtain ⟨es, hstep⟩ := step_of_receive_eq_error hm
    rw [hstep]
    exact .inl ⟨e, rfl, rfl, rfl⟩
  | ok m =>
    cases hr : answer? s.functions m with
    | none =>
      obtain ⟨es, hstep⟩ := step_of_other hm hr
      rw [hstep]
      exact .inr (.inl ⟨m, rfl, hr, rfl, rfl⟩)
    | some r => exact .inr (.inr ⟨m, r, rfl, hr, step_of_answer hm hr⟩)

theorem step_of_call (hread : s.link.stream.Delivers (framed (.remoteCall name args)))
    (hconveys : ∀ n, s.link.stream.Conveys n)
    (hcall : (Message.remoteCall name args).FitsIn s.link.maxMessageSize)
    (hheader : (Message.remoteCall name args).FitsIn (2 ^ 32 - 1))
    (hanswer : (answer s.functions name args).1.message.FitsIn s.link.maxMessageSize) :
    ∃ link es, step s = ⟨.ok (), { s with link }, es⟩ ∧ link.Idle ∧
      link.maxMessageSize = s.link.maxMessageSize ∧
      link.stream.sent = s.link.stream.sent ++ framed (answer s.functions name args).1.message := by
  obtain ⟨hrec, hsent, hsize, hidle⟩ := receive_of_framed hread hconveys hcall hheader
  obtain ⟨hsend, hsent', hsize', hidle'⟩ := send_of_idle hidle (hsize.symm ▸ hanswer)
  obtain ⟨hresult, hstate⟩ := step_of_answer hrec (congrArg some (message_answer _ name args).symm)
  rw [hsend] at hresult
  cases hstep : step s with
  | mk r t es =>
    rw [hstep] at hresult hstate
    cases hresult
    cases hstate
    exact ⟨_, es, rfl, hidle', hsize'.trans hsize, hsent'.trans (by rw [hsent])⟩

theorem step_of_nothing (hread : s.link.stream.Delivers []) :
    ∃ e t es, step s = ⟨.error e, t, es⟩ ∧ t.link.stream.sent = s.link.stream.sent := by
  obtain ⟨hrec, hsent⟩ := receive_of_nothing hread
  obtain ⟨es, hstep⟩ := step_of_receive_eq_error hrec
  exact ⟨_, _, es, hstep, hsent⟩

section Serve

variable {ready : Link → Bool} {t : Server} {es : List Log.Event}

theorem serveWhile_of_not_ready (h : ready s.link = false) : serveWhile ready s = ⟨.ok (), s, []⟩ := by
  rw [serveWhile, if_neg (by rw [h]; exact Bool.false_ne_true)]

theorem serveWhile_of_ok (hready : ready s.link = true) (h : step s = ⟨.ok (), t, es⟩) :
    (serveWhile ready s).result = (serveWhile ready t).result ∧
      (serveWhile ready s).state = (serveWhile ready t).state := by
  rw [serveWhile, if_pos hready]
  split
  · next heq =>
    rw [h] at heq
    cases heq
  · next heq =>
    rw [h] at heq
    cases heq
    exact ⟨rfl, rfl⟩

theorem serveWhile_of_error {e : Error} (hready : ready s.link = true)
    (h : step s = ⟨.error e, t, es⟩) : serveWhile ready s = ⟨.error e, t, es⟩ := by
  rw [serveWhile, if_pos hready]
  split
  · next heq => rw [← heq, h]
  · next heq =>
    rw [h] at heq
    cases heq

end Serve

theorem reply_of_call {functions : Functions}
    (hcall : (Message.remoteCall name args).FitsIn defaultMaxMessageSize)
    (hanswer : (answer functions name args).1.message.FitsIn defaultMaxMessageSize) :
    reply functions (framed (.remoteCall name args)) =
      framed (answer functions name args).1.message := by
  have hread : (Stream.ofBytes (framed (.remoteCall name args))).Delivers
      (framed (.remoteCall name args)) := by
    have hpiece := Stream.Holds.bytes (framed (.remoteCall name args)) .ended
    rw [List.append_nil] at hpiece
    exact hpiece
  obtain ⟨link, es, hstep, hidle, -, hsent⟩ :=
    @step_of_call ⟨functions, { stream := .ofBytes (framed (.remoteCall name args)) }, false⟩ name
      args hread (fun n => Stream.conveys_ofBytes _ n) hcall
      (hcall.mono (by decide)) hanswer
  obtain ⟨e, t, es', hend, hkept⟩ := @step_of_nothing ⟨functions, link, false⟩ hidle.read
  rw [reply, serve, (serveWhile_of_ok rfl hstep).2, serveWhile_of_error rfl hend, hkept, hsent]
  exact List.nil_append _

theorem hasFrame_of_framed {c : Link} {m : Message} (hread : c.stream.Delivers (framed m))
    (hm : m.FitsIn (2 ^ 32 - 1)) : hasFrame c = true := by
  obtain ⟨p, hp, hle⟩ := hm
  have hbytes : c.stream.unread = frame p := framed_of_encode hp ▸ (Stream.delivers_iff.1 hread).2
  have hsize : Wire.leValue ((frame p).take 4) = p.length := by
    have hhead : (frame p).take 4 = header p := List.take_left' (Wire.length_leBytes 4 _)
    rw [hhead, header, Wire.leValue_leBytes]
    exact Nat.mod_eq_of_lt (by omega)
  have hlen : (frame p).length = 4 + p.length := by
    rw [frame, List.length_append, header, Wire.length_leBytes]
  rw [hasFrame, hbytes, hsize, hlen]
  simp

theorem hasFrame_of_nothing {c : Link} (hread : c.stream.Delivers []) : hasFrame c = false := by
  rw [hasFrame, (Stream.delivers_iff.1 hread).2]
  rfl

theorem exchange_of_call (hidle : s.link.Idle) (hopen : s.ended = false)
    (hcall : (Message.remoteCall name args).FitsIn s.link.maxMessageSize)
    (hheader : (Message.remoteCall name args).FitsIn (2 ^ 32 - 1))
    (hanswer : (answer s.functions name args).1.message.FitsIn s.link.maxMessageSize) :
    (exchange [.bytes (framed (.remoteCall name args))] s).result =
        .ok (framed (answer s.functions name args).1.message) ∧
      ∃ link, (exchange [.bytes (framed (.remoteCall name args))] s).state = { s with link } ∧
        link.Idle ∧ link.maxMessageSize = s.link.maxMessageSize := by
  let fed : Link :=
    { s.link with stream := s.link.stream.feed [.bytes (framed (.remoteCall name args))] }
  have hfed : (inLink (.modify fun l => { l with
      stream := l.stream.feed [.bytes (framed (.remoteCall name args))] })) s =
      ⟨.ok (), { s with link := fed }, []⟩ := rfl
  have hread : fed.stream.Delivers (framed (.remoteCall name args)) := hidle.read.feed _
  obtain ⟨link, es, hstep, hidle', hsize, hsent⟩ := @step_of_call { s with link := fed } name args
    hread (fun n => ⟨⟨(hidle.conveys n).turns, (hidle.conveys n).room⟩, (hidle.conveys n).flushes⟩) hcall hheader hanswer
  obtain ⟨hresult, hstate⟩ := serveWhile_of_ok (hasFrame_of_framed hread hheader) hstep
  rw [@serveWhile_of_not_ready { s with link } _ (hasFrame_of_nothing hidle'.read)] at hresult hstate
  have hserve : Action.attempt serveArrived { s with link := fed } =
      ⟨.ok (.ok ()), { s with link }, (serveArrived { s with link := fed }).events⟩ := by
    rw [attempt_apply, serveArrived, hresult, hstate]
  have hserves : (!s.ended) = true := by
    rw [hopen]
    rfl
  have hexchange : ∃ es, exchange [.bytes (framed (.remoteCall name args))] s =
      ⟨.ok (link.stream.sent.drop s.link.stream.sent.length), { s with link }, es⟩ := by
    rw [exchange, bind_of_ok (get_apply s)]
    dsimp only
    rw [bind_of_ok hfed, bind_of_ok (get_apply _)]
    dsimp only
    rw [if_pos hserves, bind_of_ok hserve]
    exact ⟨_, rfl⟩
  obtain ⟨es, hexchange⟩ := hexchange
  rw [hexchange, hsent]
  refine ⟨?_, link, rfl, hidle', hsize⟩
  exact congrArg Except.ok List.drop_left

end RemoteAgent.Controller.Server
