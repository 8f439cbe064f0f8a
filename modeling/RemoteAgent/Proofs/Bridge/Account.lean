import Mathlib.Data.List.Forall2
import RemoteAgent.Proofs.Bridge.Traffic
import RemoteAgent.Proofs.Channel.Consumption

/-! The account of a session: the calls that went to it against the bytes in both directions. All
calls but the last are answered, by one frame each; the last may be on its way or have failed. -/

namespace RemoteAgent.Bridge

open Channel

namespace Call

def Spelled (c : Call) : Prop := ∃ q, c.request.encode = .ok q

def Answered (c : Call) (p : List UInt8) : Prop :=
  c.Spelled ∧ ∃ value flags, c.outcome = some (.ok (value, flags)) ∧ p.length < 2 ^ 32 ∧
    Message.decode p = .ok (.remoteCallResponse value flags)

def Failed (c : Call) : Prop := ∃ e, c.outcome = some (.error e)

theorem Failed.outcome_ne_none {c : Call} (h : c.Failed) : c.outcome ≠ none := by
  obtain ⟨e, he⟩ := h
  rw [he]
  exact Option.some_ne_none _

theorem Failed.outcome_ne_ok {c : Call} (h : c.Failed) (r : UInt64 × UInt32) :
    c.outcome ≠ some (.ok r) := by
  obtain ⟨e, he⟩ := h
  rw [he]
  intro hr
  cases hr

theorem Answered.not_failed {c : Call} {p : List UInt8} (h : c.Answered p) : ¬ c.Failed := by
  intro hfailed
  obtain ⟨-, value, flags, hout, -⟩ := h
  exact hfailed.outcome_ne_ok _ hout

theorem Answered.outcome_ne_none {c : Call} {p : List UInt8} (h : c.Answered p) :
    c.outcome ≠ none := by
  obtain ⟨-, value, flags, ho, -⟩ := h
  rw [ho]
  exact Option.some_ne_none _

end Call

/-- What the last call on a session has written, if it is not answered. -/
inductive Last : Option Call → List UInt8 → Prop
  | settled : Last none []
  | found {c : Call} (hsent : c.sent = false) (hout : c.outcome = none) : Last (some c) []
  | asked {c : Call} (hsent : c.sent = true) (hout : c.outcome = none) (hspelled : c.Spelled) :
    Last (some c) (framed c.request)
  | failed {c : Call} {part : List UInt8} (hfailed : c.Failed) (hpart : part <+: framed c.request)
    (hsent : c.sent = true → c.Spelled ∧ part = framed c.request) : Last (some c) part

/-- The calls on a session, what it sent and still has unread, and what the controller sent: the calls
`front` are answered by the payloads `ps`, and `rest` came behind these. -/
structure Ledger (cs : List Call) (s : Session) (arrived : List Stream.Piece) (front : List Call)
    (last : Option Call) (part : List UInt8) (ps : List (List UInt8)) (rest : List UInt8) : Prop where
  calls : cs = front ++ last.toList
  answered : List.Forall₂ Call.Answered front ps
  sent : s.link.stream.sent = front.flatMap (fun c => framed c.request) ++ part
  wrote : Last last part
  came : arrived.flatMap Stream.Piece.toBytes = ps.flatMap frame ++ rest
  unread : (∀ c, last = some c → c.outcome = none) → s.link.stream.unread = rest

def Account (cs : List Call) (s : Session) (arrived : List Stream.Piece) : Prop :=
  ∃ front last part ps rest, Ledger cs s arrived front last part ps rest

variable {cs : List Call} {c : Call} {s t : Session} {arrived : List Stream.Piece}
  {front : List Call} {last : Option Call} {part rest : List UInt8} {ps : List (List UInt8)}

theorem Ledger.exists_answered (h : Ledger cs s arrived front last part ps rest) (hc : c ∈ front) :
    ∃ p, c.Answered p := by
  obtain ⟨k, hk, rfl⟩ := List.getElem_of_mem hc
  have hk' : k < ps.length := h.answered.length_eq ▸ hk
  exact ⟨ps[k], h.answered.get hk hk'⟩

theorem Ledger.eq_last (h : Ledger cs s arrived front last part ps rest) (hc : c ∈ cs)
    (hno : ∀ p, ¬ c.Answered p) : last = some c := by
  rw [h.calls] at hc
  rcases List.mem_append.1 hc with hc | hc
  · obtain ⟨p, hp⟩ := h.exists_answered hc
    exact (hno p hp).elim
  · exact Option.mem_toList.1 hc

theorem Ledger.eq_none (h : Ledger cs s arrived front last part ps rest)
    (hall : ∀ c ∈ cs, c.outcome ≠ none ∧ ¬ c.Failed) : last = none ∧ part = [] := by
  have hw := h.wrote
  cases hw with
  | settled => exact ⟨rfl, rfl⟩
  | @found c _ hout =>
    exact ((hall c (by rw [h.calls]; simp)).1 hout).elim
  | @asked c _ hout _ =>
    exact ((hall c (by rw [h.calls]; simp)).1 hout).elim
  | @failed c _ hfailed =>
    exact ((hall c (by rw [h.calls]; simp)).2 hfailed).elim

theorem Ledger.append_singleton (h : Ledger (cs ++ [c]) s arrived front last part ps rest)
    (hno : ∀ p, ¬ c.Answered p) : front = cs ∧ last = some c := by
  have hlast := h.eq_last (List.mem_append_right cs (List.mem_singleton_self c)) hno
  have hcalls := h.calls
  rw [hlast] at hcalls
  exact ⟨(List.append_cancel_right hcalls).symm, hlast⟩

theorem account_nil {link : Link} : Account [] { link := { link with stream :=
    { link.stream with sent := [] } } } link.stream.incoming :=
  ⟨[], none, [], [], link.stream.unread, rfl, .nil, rfl, .settled, rfl, fun _ => rfl⟩

theorem Account.found (h : Account cs s arrived)
    (hall : ∀ c ∈ cs, c.outcome ≠ none ∧ ¬ c.Failed) (hsent : c.sent = false)
    (hout : c.outcome = none) : Account (cs ++ [c]) s arrived := by
  obtain ⟨front, last, part, ps, rest, h⟩ := h
  obtain ⟨rfl, rfl⟩ := h.eq_none hall
  have hcalls : cs = front := by rw [h.calls, Option.toList_none, List.append_nil]
  refine ⟨front, some c, [], ps, rest, ?_, h.answered, h.sent, .found hsent hout, h.came, fun _ => ?_⟩
  · rw [hcalls]
    rfl
  · exact h.unread fun c hc => by cases hc

theorem Account.last_eq (h : Account (cs ++ [c]) s arrived) (hout : c.outcome = none) :
    ∃ part ps rest, Ledger (cs ++ [c]) s arrived cs (some c) part ps rest ∧
      s.link.stream.unread = rest ∧ Last (some c) part := by
  obtain ⟨front, last, part, ps, rest, h⟩ := h
  obtain ⟨rfl, rfl⟩ := h.append_singleton fun p hp => hp.outcome_ne_none hout
  have hunread := h.unread fun d hd => by
    cases hd
    exact hout
  exact ⟨part, ps, rest, h, hunread, h.wrote⟩

theorem Last.part_eq_nil {part : List UInt8} (h : Last (some c) part) (hsent : c.sent = false)
    (hout : c.outcome = none) : part = [] := by
  cases h with
  | found => rfl
  | asked hs =>
    rw [hsent] at hs
    cases hs
  | failed hfailed => exact (hfailed.outcome_ne_none hout).elim

theorem Last.part_eq_framed {part : List UInt8} (h : Last (some c) part) (hsent : c.sent = true) :
    c.Spelled ∧ part = framed c.request := by
  cases h with
  | found hs =>
    rw [hsent] at hs
    cases hs
  | asked _ _ hspelled => exact ⟨hspelled, rfl⟩
  | failed _ _ hs => exact hs hsent

theorem Account.asked (h : Account (cs ++ [c]) s arrived) (hunsent : c.sent = false)
    (hout : c.outcome = none) (hspelled : c.Spelled)
    (hsent : t.link.stream.sent = s.link.stream.sent ++ framed c.request)
    (hin : t.link.stream.incoming = s.link.stream.incoming) :
    Account (cs ++ [{ c with sent := true }]) t arrived := by
  obtain ⟨part, ps, rest, h, hunread, hlast⟩ := h.last_eq hout
  have hpart := hlast.part_eq_nil hunsent hout
  refine ⟨cs, some { c with sent := true }, framed c.request, ps, rest, rfl, h.answered, ?_,
    .asked rfl hout hspelled, h.came, fun _ => ?_⟩
  · rw [hsent, h.sent, hpart, List.append_nil]
  · rw [Stream.unread, hin]
    exact hunread

theorem Account.unasked (h : Account (cs ++ [c]) s arrived) (hunsent : c.sent = false)
    (hout : c.outcome = none) {part : List UInt8} (hpart : part <+: framed c.request)
    (hsent : t.link.stream.sent = s.link.stream.sent ++ part) (e : Error) :
    Account (cs ++ [{ c with outcome := some (.error e) }]) t arrived := by
  obtain ⟨part', ps, rest, h, _, hlast⟩ := h.last_eq hout
  have hpart' := hlast.part_eq_nil hunsent hout
  refine ⟨cs, some { c with outcome := some (.error e) }, part, ps, rest, rfl, h.answered, ?_,
    .failed ⟨e, rfl⟩ hpart fun hs => ?_, h.came, fun hall => ?_⟩
  · rw [hsent, h.sent, hpart', List.append_nil]
  · rw [hunsent] at hs
    cases hs
  · cases hall _ rfl

theorem Account.answered (h : Account (cs ++ [c]) s arrived) (hasked : c.sent = true)
    (hout : c.outcome = none) {p : List UInt8} {value : UInt64} {flags : UInt32}
    (hp : p.length < 2 ^ 32) (hdecode : Message.decode p = .ok (.remoteCallResponse value flags))
    (hcut : s.link.stream.unread = frame p ++ t.link.stream.unread)
    (hsent : t.link.stream.sent = s.link.stream.sent) :
    Account (cs ++ [{ c with outcome := some (.ok (value, flags)) }]) t arrived := by
  obtain ⟨part, ps, rest, h, hunread, hlast⟩ := h.last_eq hout
  obtain ⟨hspelled, hpart⟩ := hlast.part_eq_framed hasked
  -- what was unread begins with the frame after those that answered the calls before
  have hthis : Call.Answered { c with outcome := some (.ok (value, flags)) } p :=
    ⟨hspelled, value, flags, rfl, hp, hdecode⟩
  refine ⟨cs ++ [{ c with outcome := some (.ok (value, flags)) }], none, [], ps ++ [p],
    t.link.stream.unread, (List.append_nil _).symm, ?_, ?_, .settled, ?_, fun _ => rfl⟩
  · exact List.rel_append h.answered (.cons hthis .nil)
  · rw [hsent, h.sent, hpart, List.append_nil, List.flatMap_append, List.flatMap_singleton]
    rfl
  · rw [h.came, List.flatMap_append, List.flatMap_singleton, List.append_assoc, ← hcut, hunread]

theorem Account.unanswered (h : Account (cs ++ [c]) s arrived) (hasked : c.sent = true)
    (hout : c.outcome = none) (hsent : t.link.stream.sent = s.link.stream.sent) (e : Error) :
    Account (cs ++ [{ c with outcome := some (.error e) }]) t arrived := by
  obtain ⟨part, ps, rest, h, _, hlast⟩ := h.last_eq hout
  obtain ⟨hspelled, hpart⟩ := hlast.part_eq_framed hasked
  refine ⟨cs, some { c with outcome := some (.error e) }, part, ps, rest, rfl, h.answered, ?_,
    .failed ⟨e, rfl⟩ ?_ fun _ => ⟨hspelled, hpart⟩, h.came, fun hall => ?_⟩
  · rw [hsent, h.sent]
  · rw [hpart]
    exact List.prefix_rfl
  · cases hall _ rfl

theorem Account.arrive (h : Account cs s arrived) {pieces : List Stream.Piece}
    (hsent : t.link.stream.sent = s.link.stream.sent)
    (hin : t.link.stream.incoming = s.link.stream.incoming ++ pieces) :
    Account cs t (arrived ++ pieces) := by
  obtain ⟨front, last, part, ps, rest, h⟩ := h
  refine ⟨front, last, part, ps, rest ++ pieces.flatMap Stream.Piece.toBytes, h.calls, h.answered,
    hsent.trans h.sent, h.wrote, ?_, fun hall => ?_⟩
  · rw [List.flatMap_append, h.came, List.append_assoc]
  · rw [Stream.unread, hin, List.flatMap_append, ← h.unread hall]
    rfl

theorem Account.congr (h : Account cs s arrived) (hsent : t.link.stream.sent = s.link.stream.sent)
    (hin : t.link.stream.incoming = s.link.stream.incoming) : Account cs t arrived := by
  have happend : t.link.stream.incoming = s.link.stream.incoming ++ [] := by
    rw [hin, List.append_nil]
  have hacc := h.arrive hsent happend
  rw [List.append_nil] at hacc
  exact hacc

namespace Session

theorem ask_spec (name : String) (args : List UInt64) (s : Session)
    (hreply : s.reply = fun _ => []) : ∃ part, part <+: framed (.remoteCall name args) ∧
      (ask name args s).state.link.stream.sent = s.link.stream.sent ++ part ∧
      (ask name args s).state.link.stream.incoming = s.link.stream.incoming ∧
      (ask name args s).state.reply = s.reply ∧
      ((ask name args s).result = .ok () →
        (∃ q, Message.encode (.remoteCall name args) = .ok q) ∧
          part = framed (.remoteCall name args)) := by
  obtain ⟨part, hpart, hsent, hall⟩ := sent_send (.remoteCall name args) s.link
  have hin := keeps_send (.remoteCall name args) s.link
  refine ⟨part, hpart, ?_⟩
  cases hs : send (.remoteCall name args) s.link with
  | mk r link es =>
    have hon : (send (.remoteCall name args)).on Session.link (fun link s => { s with link }) s =
        ⟨r, { s with link }, es⟩ := by rw [Action.on, hs]
    rw [hs] at hsent hall hin
    rw [ask, Action.bind_of_ok (Action.get_apply s)]
    cases r with
    | error e =>
      rw [Action.bind_of_error hon]
      exact ⟨hsent, hin, rfl, fun h => by cases h⟩
    | ok _ =>
      obtain ⟨q, hq, -⟩ := exists_frame_of_send (congrArg Outcome.result hs)
      rw [Action.bind_of_ok hon]
      refine ⟨hsent, ?_, rfl, fun _ => ⟨⟨q, hq⟩, hall rfl⟩⟩
      change link.stream.incoming ++ s.reply _ = _
      rw [hreply, List.append_nil]
      exact hin

theorem state_await (s : Session) :
    (await s).state = { s with link := (expect .remoteCallResponse s.link).state } := by
  cases he : expect .remoteCallResponse s.link with
  | mk r link es =>
    have hon : (expect .remoteCallResponse).on Session.link (fun link s => { s with link }) s =
        ⟨r, { s with link }, es⟩ := by rw [Action.on, he]
    cases r with
    | error e => rw [await, Action.bind_of_error hon]
    | ok m =>
      rw [await, Action.bind_of_ok hon]
      cases m <;> rfl

theorem await_eq_ok {s : Session} {value : UInt64} {flags : UInt32}
    (h : (await s).result = .ok (value, flags)) : ∃ p, p.length < 2 ^ 32 ∧
      Message.decode p = .ok (.remoteCallResponse value flags) ∧
      s.link.stream.unread = frame p ++ (await s).state.link.stream.unread := by
  rw [state_await, state_expect]
  rw [await] at h
  obtain ⟨m, hm, hrest, -⟩ := Action.exists_of_bind h
  obtain ⟨hreceive, hkind⟩ := expect_eq_ok hm
  obtain ⟨p, hcut, hp, hdecode⟩ := receive_eq_ok hreceive
  cases m with
  | remoteCallResponse value' flags' =>
    cases hrest
    exact ⟨p, hp, hdecode, hcut⟩
  | _ => cases hkind

theorem sent_await (s : Session) : (await s).state.link.stream.sent = s.link.stream.sent := by
  rw [state_await, state_expect]
  exact sent_receive s.link

theorem reply_await (s : Session) : (await s).state.reply = s.reply := by rw [state_await]

end Session

end RemoteAgent.Bridge
