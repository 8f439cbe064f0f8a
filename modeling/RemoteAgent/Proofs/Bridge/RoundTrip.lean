import RemoteAgent.Proofs.Bridge.Traffic
import RemoteAgent.Proofs.Channel.Idle

/-! Round trips on a session whose link is between two messages: the request goes out, what the far
end answers arrives, and the link is between two messages again. -/

namespace RemoteAgent.Bridge

open RemoteAgent.Action Channel

section Session

variable {s : Session} {name : String} {args : List UInt64} {bytes : List UInt8} {value : UInt64}
  {flags : UInt32}

theorem Session.ask_of_idle (hidle : s.link.Idle)
    (hcall : (Message.remoteCall name args).FitsIn s.link.maxMessageSize)
    (hreply : s.reply (framed (.remoteCall name args)) = [.bytes bytes]) :
    ∃ link es, Session.ask name args s = ⟨.ok (), { s with link }, es⟩ ∧
      link.stream.sent = s.link.stream.sent ++ framed (.remoteCall name args) ∧
      link.maxMessageSize = s.link.maxMessageSize ∧ link.stream.Delivers bytes ∧
      ∀ n, link.stream.Conveys n := by
  obtain ⟨hsend, hsent, hsize, hidle'⟩ := send_of_idle hidle hcall
  have hout : ((send (.remoteCall name args)).on Session.link fun link s => { s with link }) s =
      ⟨.ok (), { s with link := (send (.remoteCall name args) s.link).state },
        (send (.remoteCall name args) s.link).events⟩ := by
    rw [← hsend]
    rfl
  have hfed : deliver s.link.stream.sent.length
      { s with link := (send (.remoteCall name args) s.link).state } =
      { s with link := { (send (.remoteCall name args) s.link).state with
          stream := (send (.remoteCall name args) s.link).state.stream.feed [.bytes bytes] } } := by
    rw [deliver]
    dsimp only
    rw [hsent, List.drop_left, hreply]
  have hask : ∃ es, Session.ask name args s =
      ⟨.ok (), deliver s.link.stream.sent.length
        { s with link := (send (.remoteCall name args) s.link).state }, es⟩ := by
    rw [Session.ask, bind_of_ok (get_apply s), bind_of_ok hout]
    exact ⟨_, rfl⟩
  obtain ⟨es, hask⟩ := hask
  rw [hfed] at hask
  exact ⟨_, es, hask, hsent, hsize, hidle'.read.feed bytes,
    fun n => ⟨⟨(hidle'.conveys n).turns, (hidle'.conveys n).room⟩, (hidle'.conveys n).flushes⟩⟩

theorem Session.await_of_framed
    (hread : s.link.stream.Delivers (framed (.remoteCallResponse value flags)))
    (hconveys : ∀ n, s.link.stream.Conveys n)
    (hresponse : (Message.remoteCallResponse value flags).FitsIn s.link.maxMessageSize)
    (hheader : (Message.remoteCallResponse value flags).FitsIn (2 ^ 32 - 1)) :
    ∃ link es, Session.await s = ⟨.ok (value, flags), { s with link }, es⟩ ∧
      link.stream.sent = s.link.stream.sent ∧ link.maxMessageSize = s.link.maxMessageSize ∧
      link.Idle := by
  obtain ⟨hrec, hsent, hsize, hidle⟩ := receive_of_framed hread hconveys hresponse hheader
  have hrec : receive s.link =
      ⟨.ok (.remoteCallResponse value flags), (receive s.link).state, (receive s.link).events⟩ := by
    rw [← hrec]
  have hexpect : ∃ es, expect .remoteCallResponse s.link =
      ⟨.ok (.remoteCallResponse value flags), (receive s.link).state, es⟩ := by
    rw [expect, bind_of_ok hrec]
    exact ⟨_, rfl⟩
  obtain ⟨es, hexpect⟩ := hexpect
  have hin : ((expect .remoteCallResponse).on Session.link fun link s => { s with link }) s =
      ⟨.ok (.remoteCallResponse value flags), { s with link := (receive s.link).state }, es⟩ := by
    rw [Action.on, hexpect]
  have hawait : ∃ es, Session.await s =
      ⟨.ok (value, flags), { s with link := (receive s.link).state }, es⟩ := by
    rw [Session.await, bind_of_ok hin]
    exact ⟨_, rfl⟩
  obtain ⟨es, hawait⟩ := hawait
  exact ⟨_, es, hawait, hsent, hsize, hidle⟩

theorem Session.roundTrip_of_idle (hidle : s.link.Idle)
    (hcall : (Message.remoteCall name args).FitsIn s.link.maxMessageSize)
    (hreply : s.reply (framed (.remoteCall name args)) =
      [.bytes (framed (.remoteCallResponse value flags))])
    (hresponse : (Message.remoteCallResponse value flags).FitsIn s.link.maxMessageSize)
    (hheader : (Message.remoteCallResponse value flags).FitsIn (2 ^ 32 - 1)) :
    ∃ link es, Session.roundTrip name args s = ⟨.ok (value, flags), { s with link }, es⟩ ∧
      link.stream.sent = s.link.stream.sent ++ framed (.remoteCall name args) ∧
      link.maxMessageSize = s.link.maxMessageSize ∧ link.Idle := by
  obtain ⟨asked, es, hask, hsent, hsize, hread, hconveys⟩ := ask_of_idle hidle hcall hreply
  obtain ⟨link, es', hawait, hsent', hsize', hidle'⟩ :=
    @await_of_framed { s with link := asked } value flags hread hconveys (hsize.symm ▸ hresponse)
      hheader
  rw [Session.roundTrip_eq, bind_of_ok hask, hawait]
  exact ⟨link, _, rfl, hsent'.trans hsent, hsize'.trans hsize, hidle'⟩

end Session

variable {b : Bridge} {i : Nat} {s : Session} {name : String} {args : List UInt64} {value : UInt64}
  {flags : UInt32}

/-- A call over such a session returns the value of the response, and changes nothing but its link. -/
theorem forward_of_idle (hcurrent : b.current = some i) (hs : b.sessions[i]? = some s)
    (hidle : s.link.Idle) (hcall : (Message.remoteCall name args).FitsIn s.link.maxMessageSize)
    (hreply : s.reply (framed (.remoteCall name args)) =
      [.bytes (framed (.remoteCallResponse value flags))])
    (hresponse : (Message.remoteCallResponse value flags).FitsIn s.link.maxMessageSize)
    (hheader : (Message.remoteCallResponse value flags).FitsIn (2 ^ 32 - 1)) :
    ∃ link : Link, (forward name args b).result = .ok value ∧
      (forward name args b).state = { b with sessions := b.sessions.set i { s with link } } ∧
      link.stream.sent = s.link.stream.sent ++ framed (.remoteCall name args) ∧
      link.maxMessageSize = s.link.maxMessageSize ∧ link.Idle := by
  obtain ⟨link, es, htrip, hlink⟩ :=
    Session.roundTrip_of_idle hidle hcall hreply hresponse hheader
  have hsettle : settle i (roundTrip i name args b) =
      ({ b with sessions := b.sessions.set i { s with link } }, value) := by
    have hon : roundTrip i name args b = onSession i (Session.roundTrip name args) b := rfl
    rw [hon, onSession_of_some hs, htrip]
    rfl
  obtain ⟨hresult, hstate⟩ := forward_of_some hcurrent name args
  rw [hresult, hstate, hsettle]
  exact ⟨link, rfl, rfl, hlink⟩

end RemoteAgent.Bridge
