import RemoteAgent.Controller.Visit
import RemoteAgent.Proofs.Channel.Idle
import RemoteAgent.Proofs.Controller.Calls
import RemoteAgent.Proofs.Service.Session

/-! Calls of a controller on a line to the agent. Between two calls the line is idle; a call whose
request and reply are within the limits of both ends has the result of the operation that it stands
for, leaves the agent as that operation does, and leaves the line idle. -/

namespace RemoteAgent

open RemoteAgent.Action Channel

namespace Service.Command.Session

theorem step_of_framed {s : Session} {m r : Message} {h : Handled}
    (hread : s.link.stream.Delivers (framed m)) (hconveys : ∀ n, s.link.stream.Conveys n)
    (hm : m.FitsIn s.link.maxMessageSize) (hheader : m.FitsIn (2 ^ 32 - 1))
    (hh : (Context.handle m s.context).result = .ok h) (hr : h.response = some r)
    (hfits : r.FitsIn s.link.maxMessageSize) :
    (step s).result = .ok h.keepOpen ∧
      (step s).state.context = (Context.handle m s.context).state ∧
      (step s).state.link.stream.sent = s.link.stream.sent ++ framed r ∧
      (step s).state.link.maxMessageSize = s.link.maxMessageSize ∧ (step s).state.link.Idle := by
  obtain ⟨hrec, hsent, hsize, hidle⟩ := receive_of_framed hread hconveys hm hheader
  obtain ⟨es, hafter⟩ := send_after_receive r s.link
  obtain ⟨hok, hsent', hsize', hidle'⟩ := send_of_idle hidle (hsize.symm ▸ hfits)
  obtain ⟨hresult, hstate⟩ := step_of_receive_eq_ok hrec hh
  rw [hr, Option.toList_some, Action.forEach_singleton] at hresult hstate
  rw [hafter] at hok hsent' hsize' hidle'
  rw [hresult, hstate, hok]
  exact ⟨rfl, rfl, hsent'.trans (by rw [hsent]), hsize'.trans hsize, hidle'⟩

end Service.Command.Session

namespace Controller

def limit (c : Context) : Nat := min c.config.channel.maxMessageSize defaultMaxMessageSize

structure Fitting (request : Message) (c : Context) : Prop where
  asked : request.FitsIn (limit c)
  replied : ∀ h r, (Context.handle request c).result = .ok h → h.response = some r →
    r.FitsIn (limit c)

namespace Visit

structure Between (v : Visit) (line : Line) : Prop where
  here : v.line = some line
  uncut : line.cut = false
  near : line.near.Idle
  far : line.far.Idle
  nearLimit : line.near.maxMessageSize = defaultMaxMessageSize
  farLimit : line.far.maxMessageSize = v.context.config.channel.maxMessageSize

def Ready (v : Visit) : Prop := ∃ line, v.Between line

theorem ready_connect (v : Visit) : (connect v).state.Ready := by
  exact ⟨_, rfl, rfl, idle_fresh _, idle_fresh _, rfl, rfl⟩

section Parts

variable {α : Type} {v : Visit} {line : Line}

theorem onNear_of_ok {act : Action Link α} {a : α} (h : (act line.near).result = .ok a) :
    (onNear line act v).result = .ok ({ line with near := (act line.near).state }, a) ∧
      (onNear line act v).state =
        { v with line := some { line with near := (act line.near).state } } := by
  have hrun : act.run line.near = ⟨.ok a, (act line.near).state, (act line.near).events⟩ := by
    rw [← h]
    rfl
  rw [onNear, hrun]
  exact ⟨rfl, rfl⟩

theorem call_of_uncut (call : Call α) (hline : v.line = some line) (huncut : line.cut = false) :
    (Visit.call call v).result = ((do
        let (sent, ()) ← onNear line (send call.request)
        let answered ← attend sent (sentSince line.near sent.near)
        let (_, reply) ← onNear answered receive
        Action.ofExcept (call.read reply) : Action Visit α) v).result ∧
      (Visit.call call v).state = ((do
        let (sent, ()) ← onNear line (send call.request)
        let answered ← attend sent (sentSince line.near sent.near)
        let (_, reply) ← onNear answered receive
        Action.ofExcept (call.read reply) : Action Visit α) v).state := by
  rw [Visit.call, bind_of_ok (get_apply v), hline]
  dsimp only
  rw [if_neg (by rw [huncut]; exact Bool.false_ne_true)]
  exact ⟨rfl, rfl⟩

theorem sentSince_append {before after : Link} {bytes : List UInt8}
    (h : after.stream.sent = before.stream.sent ++ bytes) : sentSince before after = bytes := by
  rw [sentSince, h, List.drop_left]

theorem attend_of_idle {m r : Message} {h : Handled} (hidle : line.far.Idle)
    (hm : m.FitsIn line.far.maxMessageSize) (hheader : m.FitsIn (2 ^ 32 - 1))
    (hh : (Context.handle m v.context).result = .ok h) (hr : h.response = some r)
    (hfits : r.FitsIn line.far.maxMessageSize) :
    ∃ far : Link, far.Idle ∧ far.maxMessageSize = line.far.maxMessageSize ∧
      attend line (framed m) v =
        ⟨.ok { near := Line.feedNear (framed r) line.near, far, cut := !h.keepOpen },
          { v with context := (Context.handle m v.context).state }, []⟩ := by
  have hread : (Line.feedNear (framed m) line.far).stream.Delivers (framed m) :=
    hidle.read.feed (framed m)
  have hconveys : ∀ n, (Line.feedNear (framed m) line.far).stream.Conveys n :=
    fun n => ⟨⟨(hidle.conveys n).turns, (hidle.conveys n).room⟩, (hidle.conveys n).flushes⟩
  obtain ⟨hresult, hcontext, hsent, hsize, hfar⟩ :=
    @Service.Command.Session.step_of_framed ⟨v.context, Line.feedNear (framed m) line.far⟩ m r h
      hread hconveys hm hheader hh hr hfits
  refine ⟨_, hfar, hsize, ?_⟩
  rw [attend, bind_of_ok (get_apply v), bind_of_ok (set_apply v _), sentSince_append hsent, hresult,
    hcontext]
  rfl

theorem limit_le_header (c : Context) : limit c ≤ 2 ^ 32 - 1 :=
  Nat.le_trans (Nat.min_le_right _ _) (by decide)

theorem call_of_between {call : Call α} {r : Message} {h : Handled} (hline : v.Between line)
    (hfits : Fitting call.request v.context)
    (hh : (Context.handle call.request v.context).result = .ok h) (hr : h.response = some r) :
    (Visit.call call v).result = call.read r ∧
      (Visit.call call v).state.context = (Context.handle call.request v.context).state ∧
      ∃ line', (Visit.call call v).state.line = some line' ∧ line'.cut = !h.keepOpen ∧
        line'.near.Idle ∧ line'.far.Idle ∧
        line'.near.maxMessageSize = line.near.maxMessageSize ∧
        line'.far.maxMessageSize = line.far.maxMessageSize := by
  have hnear : limit v.context ≤ line.near.maxMessageSize :=
    hline.nearLimit ▸ Nat.min_le_right _ _
  have hfar : limit v.context ≤ line.far.maxMessageSize := hline.farLimit ▸ Nat.min_le_left _ _
  have hheader := limit_le_header v.context
  have hreply : r.FitsIn (limit v.context) := hfits.replied h r hh hr
  obtain ⟨hresult, hstate⟩ := call_of_uncut call hline.here hline.uncut
  rw [hresult, hstate]
  obtain ⟨hsend, hsent, hsize, hidle⟩ := send_of_idle hline.near (hfits.asked.mono hnear)
  obtain ⟨hsend, hsendState⟩ := @onNear_of_ok _ v _ _ _ hsend
  obtain ⟨hresult, hstate⟩ := bind_of_result hsend
  rw [hresult, hstate, hsendState]
  dsimp only
  rw [sentSince_append hsent]
  obtain ⟨far, hfarIdle, hfarSize, hattend⟩ := @attend_of_idle
    { v with line := some { line with near := (send call.request line.near).state } }
    { line with near := (send call.request line.near).state } _ _ _ hline.far
    (hfits.asked.mono hfar) (hfits.asked.mono hheader) hh hr (hreply.mono hfar)
  rw [bind_of_ok hattend]
  have hread : (Line.feedNear (framed r) (send call.request line.near).state).stream.Delivers
      (framed r) := hidle.read.feed (framed r)
  obtain ⟨hrec, -, hsize', hidle'⟩ := receive_of_framed hread
    (fun n => ⟨⟨(hidle.conveys n).turns, (hidle.conveys n).room⟩, (hidle.conveys n).flushes⟩)
    (hreply.mono (Nat.le_trans hnear (Nat.le_of_eq hsize.symm))) (hreply.mono hheader)
  obtain ⟨hrec, hrecState⟩ := @onNear_of_ok Message
    { v with line := some { line with near := (send call.request line.near).state }
             context := (Context.handle call.request v.context).state }
    { near := Line.feedNear (framed r) (send call.request line.near).state, far, cut := !h.keepOpen }
    receive r hrec
  obtain ⟨hresult, hstate⟩ := bind_of_result hrec
  dsimp only
  rw [hresult, hstate, hrecState, ofExcept_apply]
  exact ⟨rfl, rfl, _, rfl, rfl, hidle', hfarIdle, hsize'.trans hsize, hfarSize⟩

end Parts

section Calls

variable {α : Type} {v : Visit} {call : Call α} {direct : Action Context α}

theorem call_of_ready (h : StandsFor call direct) (hready : v.Ready)
    (hfits : Fitting call.request v.context) :
    (Visit.call call v).result = (direct v.context).result ∧
      (Visit.call call v).state.context = (direct v.context).state := by
  obtain ⟨line, hline⟩ := hready
  obtain ⟨act, r, hreply, hr, hstate, hread⟩ := h.agreed v.context
  obtain ⟨hresult, hcontext, -⟩ :=
    call_of_between hline hfits (Context.handle_of_reply? hreply hr) rfl
  refine ⟨hresult.trans hread, hcontext.trans ?_⟩
  rw [Context.state_handle_of_reply? hreply hr, hstate]

theorem ready_call (h : StandsFor call direct) (hready : v.Ready)
    (hfits : Fitting call.request v.context) (hopen : call.request ≠ .closeProcess) :
    (Visit.call call v).state.Ready := by
  obtain ⟨line, hline⟩ := hready
  obtain ⟨act, r, hreply, hr, -, -⟩ := h.agreed v.context
  obtain ⟨-, hcontext, line', hhere, hcut, hnear, hfar, hnearLimit, hfarLimit⟩ :=
    call_of_between hline hfits (Context.handle_of_reply? hreply hr) rfl
  refine ⟨line', hhere, ?_, hnear, hfar, hnearLimit.trans hline.nearLimit, ?_⟩
  · rw [hcut, decide_eq_true hopen]
    rfl
  · rw [hfarLimit, hline.farLimit, hcontext]
    exact congrArg (·.channel.maxMessageSize) (Context.keeps_handle call.request v.context).symm

/-- A call whose request and reply are within the limits gives what the operation gives that it
stands for, and leaves the agent as this does; it fails with nothing but the text of the agent's own
failure. -/
theorem call_eq_direct (h : StandsFor call direct) (hready : v.Ready)
    (hfits : Fitting call.request v.context) :
    (Visit.call call v).result = (direct v.context).result ∧
      (Visit.call call v).state.context = (direct v.context).state ∧
      (∀ e, (Visit.call call v).result = .error e → ∃ text, e = .nativeCall (.reported text)) ∧
      (call.request ≠ .closeProcess → (Visit.call call v).state.Ready) := by
  obtain ⟨hresult, hcontext⟩ := call_of_ready h hready hfits
  refine ⟨hresult, hcontext, fun e he => ?_, ready_call h hready hfits⟩
  have hfails := h.failsOnly v.context
  rw [hresult] at he
  rw [he] at hfails
  exact hfails

theorem call_eq_direct_createFunction :
    let v : Visit := (connect { context := { config := .standard "/tmp" } }).state
    v.Ready ∧ (Visit.call (Call.createFunction "f" 2) v).result = .ok 0x2b0000000000 ∧
      (Visit.call (Call.createFunction "f" 2) v).state.context.functions.addressOf? "f" =
        some 0x2b0000000000 := by
  intro v
  have hready : v.Ready := ready_connect _
  have hhandle : (Context.handle (.createFunction "f" 2) v.context).result =
      .ok { response := some (.pointerValue 0x2b0000000000) } := rfl
  have hfits : Fitting (.createFunction "f" 2) v.context := by
    refine ⟨⟨_, rfl, by decide⟩, fun h r hh hr => ?_⟩
    cases hhandle.symm.trans hh
    cases hr
    exact ⟨_, rfl, by decide⟩
  obtain ⟨hresult, hcontext, -⟩ := call_eq_direct (.createFunction "f" 2) hready hfits
  rw [hresult, hcontext]
  exact ⟨hready, rfl, rfl⟩

inductive Alongside (v₀ : Visit) : Visit → Context → Prop
  | start : Alongside v₀ v₀ v₀.context
  | step {v : Visit} {c : Context} {α : Type} {call : Call α} {direct : Action Context α}
    (h : Alongside v₀ v c) (hcall : StandsFor call direct) (hopen : call.request ≠ .closeProcess)
    (hfits : Fitting call.request c) : Alongside v₀ (Visit.call call v).state (direct c).state

theorem Alongside.context_eq {v₀ v : Visit} {c : Context} (hready : v₀.Ready)
    (h : Alongside v₀ v c) : v.Ready ∧ v.context = c := by
  induction h with
  | start => exact ⟨hready, rfl⟩
  | step _ hcall hopen hfits ih =>
    obtain ⟨hready, rfl⟩ := ih
    exact ⟨ready_call hcall hready hfits hopen, (call_of_ready hcall hready hfits).2⟩

end Calls

end Visit

end Controller

end RemoteAgent
