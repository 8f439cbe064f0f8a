import RemoteAgent.Proofs.Bridge.Exclusion

/-! Calls and answers are paired by their order: on each session the requests go out whole and in the
order of the calls, the answers are the frames that the controller sends, in that order, and after a
failed call nobody uses the session any more. -/

namespace RemoteAgent.Bridge

open Channel

variable {w w' w'' : Traffic} {t i : Nat} {front : List Call} {c : Call} {todo : Todo}

def Untouched (i : Nat) (w w' : Traffic) : Prop :=
  callsOn i w'.calls = callsOn i w.calls ∧
    ∀ s, w.bridge.sessions[i]? = some s → ∃ s' more, w'.bridge.sessions[i]? = some s' ∧
      s'.link.stream.sent = s.link.stream.sent ∧
      s'.link.stream.incoming = s.link.stream.incoming ++ more ∧
      w'.arrived i = w.arrived i ++ more

theorem Untouched.trans (h : Untouched i w w') (h' : Untouched i w' w'') : Untouched i w w'' := by
  obtain ⟨hcalls, hsession⟩ := h
  obtain ⟨hcalls', hsession'⟩ := h'
  refine ⟨hcalls'.trans hcalls, fun s hs => ?_⟩
  obtain ⟨s', more, hs', hsent, hin, harrived⟩ := hsession s hs
  obtain ⟨s'', more', hs'', hsent', hin', harrived'⟩ := hsession' s' hs'
  refine ⟨s'', more ++ more', hs'', hsent'.trans hsent, ?_, ?_⟩
  · rw [hin', hin, List.append_assoc]
  · rw [harrived', harrived, List.append_assoc]

theorem untouched_of_same (hcalls : callsOn i w'.calls = callsOn i w.calls)
    (hsession : w'.bridge.sessions[i]? = w.bridge.sessions[i]?)
    (harrived : w'.arrived i = w.arrived i) : Untouched i w w' :=
  ⟨hcalls, fun s hs => ⟨s, [], hsession.trans hs, rfl, (List.append_nil _).symm,
    by rw [harrived, List.append_nil]⟩⟩

theorem getElem?_modify_self {ss : List Session} {s : Session} {j : Nat} (f : Session → Session)
    (hs : ss[j]? = some s) : (ss.modify j f)[j]? = some (f s) := by
  rw [List.getElem?_modify_eq, hs]
  rfl

theorem untouched_of_modify {j : Nat} {f : Session → Session} (hcalls : w'.calls = w.calls)
    (hsessions : w'.bridge.sessions = w.bridge.sessions.modify j f)
    (harrived : w'.arrived = w.arrived)
    (hf : ∀ s, (f s).link.stream.sent = s.link.stream.sent ∧
      (f s).link.stream.incoming = s.link.stream.incoming) : Untouched i w w' := by
  refine ⟨by rw [hcalls], fun s hs => ?_⟩
  rw [hsessions, harrived]
  obtain ⟨hsent, hin⟩ := hf s
  by_cases hji : j = i
  · subst hji
    refine ⟨f s, [], getElem?_modify_self f hs, hsent, ?_, (List.append_nil _).symm⟩
    rw [hin, List.append_nil]
  · exact ⟨s, [], (List.getElem?_modify_ne f _ hji).trans hs, rfl, (List.append_nil _).symm,
      (List.append_nil _).symm⟩

theorem Account.outcome_ne_none {cs : List Call} {s : Session} {arrived : List Stream.Piece}
    (h : Account cs s arrived) {d : Call} (hd : d ∈ cs) (hfailed : d.Failed) (hc : c ∈ cs) :
    c.outcome ≠ none := by
  obtain ⟨front, last, part, ps, rest, h⟩ := h
  intro hout
  -- each of them would have to be the last call
  have hlast := h.eq_last hd fun p hp => hp.not_failed hfailed
  have hlast' := h.eq_last hc fun p hp => hp.outcome_ne_none hout
  rw [hlast] at hlast'
  cases hlast'
  exact hfailed.outcome_ne_none hout

theorem Held.ne_of_failed (h : Held w t front c todo) (hb : Books w.bridge w.calls w.arrived)
    {j : Nat} (hc : c.session = some j) (hout : c.outcome = none)
    (hfailed : ∃ d ∈ callsOn i w.calls, d.Failed) : j ≠ i := by
  rintro rfl
  obtain ⟨d, hd, hd'⟩ := hfailed
  obtain ⟨s, hs⟩ := h.exists_session hb hc
  have hmem : c ∈ callsOn j w.calls := by
    rw [h.calls, mem_callsOn]
    exact ⟨List.mem_append_right front (List.mem_singleton_self c), hc⟩
  exact (hb.accounts j s hs).outcome_ne_none hd hd' hmem hout

theorem Held.untouched_trip (h : Held w t front c todo) {j : Nat} {f : Call → Call} (hji : j ≠ i)
    (hc : c.session ≠ some i) (hc' : (f c).session = some j)
    (hcalls : w'.calls = w.calls.modify front.length f)
    (hsession : w'.bridge.sessions[i]? = w.bridge.sessions[i]?)
    (harrived : w'.arrived = w.arrived) : Untouched i w w' := by
  refine untouched_of_same ?_ hsession (by rw [harrived])
  rw [hcalls, h.calls, modify_last, callsOn_append_other (Call.session_ne hc' hji),
    callsOn_append_other hc]

theorem Held.untouched_look {name : String} {args : List UInt64}
    (h : Held w t front c (.look name args)) (hfailed : ∃ d ∈ callsOn i w.calls, d.Failed) :
    Untouched i w (w.proceed t front.length (.look name args)) := by
  have hbegun : c = Call.begun name args := h.suits
  have hsession : c.session = none := by rw [hbegun]; rfl
  have hother : c.session ≠ some i := by
    rw [hsession]
    exact (Option.some_ne_none i).symm
  rw [Traffic.proceed]
  cases hcurrent : w.bridge.current with
  | none => exact untouched_of_same rfl rfl rfl
  | some j =>
    obtain ⟨hactive, -⟩ := current_eq_some hcurrent
    have hready := h.ready hsession hactive fun hd => hd
    -- the session that was found is active, and so none of the calls on it has failed
    have hji : j ≠ i := by
      rintro rfl
      obtain ⟨d, hd, hd'⟩ := hfailed
      rw [h.calls, callsOn_append_other hother] at hd
      exact (hready d hd).2 hd'
    exact @Held.untouched_trip w _ t i front c _ h j (fun c => { c with session := some j }) hji
      hother rfl rfl rfl rfl

theorem Held.untouched_ask {j : Nat} {name : String} {args : List UInt64}
    (h : Held w t front c (.ask j name args)) (hb : Books w.bridge w.calls w.arrived)
    (hfailed : ∃ d ∈ callsOn i w.calls, d.Failed) :
    Untouched i w (w.proceed t front.length (.ask j name args)) := by
  have hfound : c = { Call.begun name args with session := some j } := h.suits
  have hsession : c.session = some j := by rw [hfound]
  have hji := h.ne_of_failed hb hsession (by rw [hfound]; rfl) hfailed
  have hother := Call.session_ne hsession hji
  obtain ⟨s, hs⟩ := h.exists_session hb hsession
  rw [Traffic.proceed, onSession_of_some hs]
  dsimp only
  cases (Session.ask name args s).result with
  | ok _ => exact h.untouched_trip hji hother hsession rfl (List.getElem?_set_ne hji) rfl
  | error e => exact h.untouched_trip hji hother hsession rfl (List.getElem?_set_ne hji) rfl

theorem Held.untouched_await {j : Nat} (h : Held w t front c (.await j))
    (hb : Books w.bridge w.calls w.arrived) (hfailed : ∃ d ∈ callsOn i w.calls, d.Failed) :
    Untouched i w (w.proceed t front.length (.await j)) := by
  obtain ⟨hsession, -, hout⟩ := h.suits
  have hji := h.ne_of_failed hb hsession hout hfailed
  have hother := Call.session_ne hsession hji
  obtain ⟨s, hs⟩ := h.exists_session hb hsession
  rw [Traffic.proceed, onSession_of_some hs]
  dsimp only
  cases (Session.await s).result with
  | ok r => exact h.untouched_trip hji hother hsession rfl (List.getElem?_set_ne hji) rfl
  | error e => exact h.untouched_trip hji hother hsession rfl (List.getElem?_set_ne hji) rfl

theorem Held.untouched_proceed (h : Held w t front c todo) (hb : Books w.bridge w.calls w.arrived)
    (hfailed : ∃ d ∈ callsOn i w.calls, d.Failed) :
    Untouched i w (w.proceed t front.length todo) := by
  cases todo with
  | look name args => exact h.untouched_look hfailed
  | ask j name args => exact h.untouched_ask hb hfailed
  | await j => exact h.untouched_await hb hfailed
  | mark j => exact untouched_of_modify rfl rfl rfl fun _ => ⟨rfl, rfl⟩
  | drop j =>
    obtain ⟨hsessions, -⟩ := detachSession_state j w.bridge
    exact untouched_of_same rfl (congrArg (·[i]?) hsessions) rfl
  | leave value => exact untouched_of_same rfl rfl rfl

theorem untouched_advance (h : w.Inv) (hfailed : ∃ d ∈ callsOn i w.calls, d.Failed) (t : Nat) :
    Untouched i w (w.advance t) := by
  rw [Traffic.advance]
  cases hstage : w.stages t with
  | idle => exact untouched_of_same rfl rfl rfl
  | waiting name args =>
    cases w.lock with
    | some _ => exact untouched_of_same rfl rfl rfl
    | none => exact untouched_of_same (callsOn_append_other (Option.some_ne_none i).symm) rfl rfl
  | holding k todo =>
    obtain ⟨front, c, hheld, rfl⟩ := h.held hstage
    exact hheld.untouched_proceed h.books hfailed

theorem untouched_arrive (j : Nat) (pieces : List Stream.Piece) :
    Untouched i w (w.step (.arrive j pieces)) := by
  refine ⟨rfl, fun s hs => ?_⟩
  by_cases hji : j = i
  · subst hji
    exact ⟨_, pieces, getElem?_modify_self _ hs, rfl, rfl, if_pos rfl⟩
  · refine ⟨s, [], (List.getElem?_modify_ne _ _ hji).trans hs, rfl, (List.append_nil _).symm, ?_⟩
    rw [List.append_nil]
    exact if_neg fun hij => hji hij.symm

theorem untouched_connect (link : Link) : Untouched i w (w.connect link) := by
  refine ⟨rfl, fun s hs => ?_⟩
  have hlt : i < w.bridge.sessions.length := (List.getElem?_eq_some_iff.1 hs).1
  refine ⟨s, [], (List.getElem?_append_left hlt).trans hs, rfl, (List.append_nil _).symm, ?_⟩
  rw [List.append_nil]
  exact if_neg (Nat.ne_of_lt hlt)

theorem untouched_step (h : w.Inv) (hfailed : ∃ d ∈ callsOn i w.calls, d.Failed) (m : Move) :
    Untouched i w (w.step m) := by
  cases m with
  | call t name args =>
    rw [Traffic.step]
    cases w.stages t <;> exact untouched_of_same rfl rfl rfl
  | advance t => exact untouched_advance h hfailed t
  | connect link => exact untouched_connect link
  | detachSession j =>
    obtain ⟨hsessions, -⟩ := detachSession_state j w.bridge
    exact untouched_of_same rfl (congrArg (·[i]?) hsessions) rfl
  | detach =>
    obtain ⟨hsessions, -⟩ := detach_state w.bridge
    exact untouched_of_same rfl (congrArg (·[i]?) hsessions) rfl
  | release j => exact untouched_of_modify rfl rfl rfl fun _ => ⟨rfl, rfl⟩
  | arrive j pieces => exact untouched_arrive j pieces
  | retune j turns room => exact untouched_of_modify rfl rfl rfl fun _ => ⟨rfl, rfl⟩

theorem untouched_run (h : w.Inv) (hfailed : ∃ d ∈ callsOn i w.calls, d.Failed)
    (moves : List Move) : Untouched i w (Traffic.run moves w) := by
  induction moves generalizing w with
  | nil => exact untouched_of_same rfl rfl rfl
  | cons m moves ih =>
    have hstep := untouched_step h hfailed m
    -- the failed call stays on record, which bars the next move too
    have hfailed' : ∃ d ∈ callsOn i (w.step m).calls, d.Failed := by
      rw [hstep.1]
      exact hfailed
    exact hstep.trans (ih (h.step m) hfailed')

namespace Call

def succeeded (c : Call) : Bool :=
  match c.outcome with
  | some (.ok _) => true
  | _ => false

theorem Answered.succeeded {p : List UInt8} (h : c.Answered p) : c.succeeded = true := by
  obtain ⟨-, value, flags, hout, -⟩ := h
  rw [Call.succeeded, hout]

theorem Answered.decode_eq {p : List UInt8} (h : c.Answered p) :
    ∃ flags, Message.decode p = .ok (.remoteCallResponse c.value flags) := by
  obtain ⟨-, value, flags, hout, -, hdecode⟩ := h
  refine ⟨flags, ?_⟩
  rw [Call.value, hout]
  exact hdecode

end Call

theorem Last.filter_succeeded {last : Option Call} {part : List UInt8} (h : Last last part) :
    last.toList.filter Call.succeeded = [] := by
  cases h with
  | settled => rfl
  | found _ hout => simp [Call.succeeded, hout]
  | asked _ hout => simp [Call.succeeded, hout]
  | failed hfailed =>
    obtain ⟨e, he⟩ := hfailed
    simp [Call.succeeded, he]

section Ledger

variable {cs : List Call} {s : Session} {arrived : List Stream.Piece} {last : Option Call}
  {part rest : List UInt8} {ps : List (List UInt8)}

theorem Ledger.succeeded (h : Ledger cs s arrived front last part ps rest) (hc : c ∈ front) :
    c.succeeded = true ∧ c.Spelled := by
  obtain ⟨p, hp⟩ := h.exists_answered hc
  exact ⟨hp.succeeded, hp.1⟩

/-- The calls that succeeded are those in front, and each has the payload of its own place. -/
theorem Ledger.payload (h : Ledger cs s arrived front last part ps rest) {k : Nat}
    (hk : (cs.filter Call.succeeded)[k]? = some c) :
    ∃ p, (payloads (arrived.flatMap Stream.Piece.toBytes))[k]? = some p ∧ c.Answered p := by
  have hfront : front.filter Call.succeeded = front := by
    rw [List.filter_eq_self]
    intro d hd
    exact (h.succeeded hd).1
  have hshort : ∀ p ∈ ps, p.length < 2 ^ 32 := by
    intro p hp
    obtain ⟨j, hj, rfl⟩ := List.getElem_of_mem hp
    have hj' : j < front.length := h.answered.length_eq ▸ hj
    obtain ⟨-, -, -, -, hlt, -⟩ := h.answered.get hj' hj
    exact hlt
  rw [h.calls, List.filter_append, hfront, h.wrote.filter_succeeded, List.append_nil] at hk
  obtain ⟨hlt, rfl⟩ := List.getElem?_eq_some_iff.1 hk
  have hlt' : k < ps.length := h.answered.length_eq ▸ hlt
  refine ⟨ps[k], ?_, h.answered.get hlt hlt'⟩
  rw [h.came, payloads_flatMap hshort, List.getElem?_append_left hlt']
  exact List.getElem?_eq_getElem hlt'

end Ledger

/-- Every call has its own answer. -/
structure Traffic.Paired (w : Traffic) : Prop where
  -- a call that nobody comes between is forwarded
  forwarded : ∀ t name args, w.stages t = .waiting name args → w.lock = none →
    ∃ value, (forward name args w.bridge).result = .ok value ∧
      w.Returns t (forward name args w.bridge).state value
  -- at most one thread has the lock,
  alone : ∀ t u, (w.stages t).Inside → (w.stages u).Inside → t = u
  -- so that at most one call, the last one, has found its session and has no outcome yet
  settled : ∀ c ∈ w.calls.dropLast, c.Settled
  -- the calls return what their round trips came to
  returned : w.returned <+: w.calls.map Call.value
  -- a session sends whole requests in the order of the calls, up to the last one
  written : ∀ i s, w.bridge.sessions[i]? = some s → ∃ front last part,
    callsOn i w.calls = front ++ last.toList ∧
      (∀ c ∈ front, c.succeeded = true ∧ c.Spelled) ∧
      s.link.stream.sent = front.flatMap (fun c => framed c.request) ++ part ∧ Last last part
  -- the `k`-th success on a session is the `k`-th frame of its controller
  answered : ∀ (i k : Nat) (c : Call), ((callsOn i w.calls).filter Call.succeeded)[k]? = some c →
    ∃ p flags, (payloads ((w.arrived i).flatMap Stream.Piece.toBytes))[k]? = some p ∧
      Message.decode p = .ok (.remoteCallResponse c.value flags)
  -- a session on which a call has failed is left alone from then on
  barred : ∀ i, (∃ c ∈ callsOn i w.calls, c.Failed) → ∀ more, Untouched i w (Traffic.run more w)

theorem Traffic.Inv.settled (h : w.Inv) : ∀ c ∈ w.calls.dropLast, c.Settled := by
  intro c hc
  rcases h.phase with hfree | ⟨t, front, d, todo, hheld⟩
  · exact hfree.settled c (List.dropLast_subset _ hc)
  · rw [hheld.calls, List.dropLast_concat] at hc
    exact hheld.settled c hc

theorem Traffic.Inv.alone (h : w.Inv) {t u : Nat} (ht : (w.stages t).Inside)
    (hu : (w.stages u).Inside) : t = u := by
  rcases h.phase with hfree | ⟨v, front, d, todo, hheld⟩
  · exact (hfree.outside t ht).elim
  · have htv : t = v := by_contra fun hne => hheld.outside t hne ht
    have huv : u = v := by_contra fun hne => hheld.outside u hne hu
    exact htv.trans huv.symm

theorem Traffic.Inv.returned (h : w.Inv) : w.returned <+: w.calls.map Call.value := by
  rcases h.phase with hfree | ⟨t, front, d, todo, hheld⟩
  · exact hfree.returned ▸ List.prefix_rfl
  · rw [hheld.returned, hheld.calls, List.map_append]
    exact List.prefix_append _ _

/-- Whatever threads, service and controllers do, and in whatever order, no call gets the answer to
another one. -/
theorem run_paired (moves : List Move) : (Traffic.run moves {}).Paired := by
  have hinv : (Traffic.run moves {}).Inv := inv_start.run moves
  refine ⟨fun t name args => returns_forward, fun t u => hinv.alone, hinv.settled, hinv.returned,
    fun i s hs => ?_, fun i k c hk => ?_, fun i hfailed more => untouched_run hinv hfailed more⟩
  · obtain ⟨front, last, part, ps, rest, hledger⟩ := hinv.books.accounts i s hs
    exact ⟨front, last, part, hledger.calls, fun c hc => hledger.succeeded hc, hledger.sent,
      hledger.wrote⟩
  · have hmem := (List.mem_filter.1 (List.mem_of_getElem? hk)).1
    obtain ⟨hc, hi⟩ := mem_callsOn.1 hmem
    have hs := List.getElem?_eq_getElem (hinv.books.known c hc i hi)
    obtain ⟨front, last, part, ps, rest, hledger⟩ := hinv.books.accounts i _ hs
    obtain ⟨p, hp, hanswered⟩ := hledger.payload hk
    obtain ⟨flags, hdecode⟩ := hanswered.decode_eq
    exact ⟨p, flags, hp, hdecode⟩

end RemoteAgent.Bridge
