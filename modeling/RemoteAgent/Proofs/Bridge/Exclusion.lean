import RemoteAgent.Proofs.Bridge.Account

/-! One call at a time. Whatever the order of the moves, at most one thread holds the call lock, its
call is the last one, and the accounts of all sessions are in order. -/

namespace RemoteAgent.Bridge

open Channel

def callsOn (i : Nat) (cs : List Call) : List Call := cs.filter (·.session = some i)

theorem callsOn_append_self {i : Nat} {cs : List Call} {c : Call} (h : c.session = some i) :
    callsOn i (cs ++ [c]) = callsOn i cs ++ [c] := by
  simp [callsOn, List.filter_append, h]

theorem callsOn_append_other {i : Nat} {cs : List Call} {c : Call} (h : c.session ≠ some i) :
    callsOn i (cs ++ [c]) = callsOn i cs := by
  simp [callsOn, List.filter_append, h]

theorem mem_callsOn {i : Nat} {cs : List Call} {c : Call} :
    c ∈ callsOn i cs ↔ c ∈ cs ∧ c.session = some i := by
  rw [callsOn, List.mem_filter, decide_eq_true_iff]

theorem Call.session_ne {c : Call} {i j : Nat} (h : c.session = some i) (hij : i ≠ j) :
    c.session ≠ some j := by
  rw [h]
  exact fun hsome => hij (Option.some.inj hsome)

def Call.Settled (c : Call) : Prop := c.session = none ∨ c.outcome ≠ none

def Todo.Suits : Todo → Call → Prop
  | .look name args, c => c = Call.begun name args
  | .ask i name args, c => c = { Call.begun name args with session := some i }
  | .await i, c => c.session = some i ∧ c.sent = true ∧ c.outcome = none
  | .mark i, c => c.session = some i ∧ c.Failed
  | .drop i, c => c.session = some i ∧ c.Failed
  | .leave value, c => c.Settled ∧ c.value = value

def Todo.Doubts (i : Nat) : Todo → Prop
  | .mark j => j = i
  | .drop j => j = i
  | _ => False

def Stage.Inside : Stage → Prop
  | .holding _ _ => True
  | _ => False

def Sure (b : Bridge) (cs : List Call) : Prop :=
  ∀ i, b.active = some i → ∀ c ∈ callsOn i cs, ¬ c.Failed

structure Free (w : Traffic) : Prop where
  lock : w.lock = none
  outside : ∀ t, ¬ (w.stages t).Inside
  settled : ∀ c ∈ w.calls, c.Settled
  returned : w.returned = w.calls.map Call.value
  sure : Sure w.bridge w.calls

structure Held (w : Traffic) (t : Nat) (front : List Call) (c : Call) (todo : Todo) : Prop where
  lock : w.lock = some t
  stage : w.stages t = .holding front.length todo
  outside : ∀ u, u ≠ t → ¬ (w.stages u).Inside
  calls : w.calls = front ++ [c]
  settled : ∀ d ∈ front, d.Settled
  returned : w.returned = front.map Call.value
  suits : todo.Suits c
  sure : ∀ i, w.bridge.active = some i → todo.Doubts i ∨ ∀ d ∈ callsOn i w.calls, ¬ d.Failed

structure Books (b : Bridge) (cs : List Call) (arrived : Nat → List Stream.Piece) : Prop where
  known : ∀ c ∈ cs, ∀ i, c.session = some i → i < b.sessions.length
  silent : ∀ (i : Nat) (s : Session), b.sessions[i]? = some s → s.reply = fun _ => []
  accounts : ∀ (i : Nat) (s : Session), b.sessions[i]? = some s → Account (callsOn i cs) s (arrived i)

/-- What holds between any two moves. -/
structure Traffic.Inv (w : Traffic) : Prop where
  phase : Free w ∨ ∃ t front c todo, Held w t front c todo
  books : Books w.bridge w.calls w.arrived

theorem inv_start : Traffic.Inv {} := by
  have hfree : Free {} :=
    ⟨rfl, fun _ h => h, fun _ h => (List.not_mem_nil h).elim, rfl, fun _ h => by cases h⟩
  have hbooks : Books {} [] fun _ => [] :=
    ⟨fun _ h => (List.not_mem_nil h).elim, fun _ _ h => (by cases h), fun _ _ h => (by cases h)⟩
  exact ⟨.inl hfree, hbooks⟩

variable {w w' : Traffic} {t : Nat} {front : List Call} {c c' : Call} {todo todo' : Todo}

theorem modify_last (front : List Call) (c : Call) (f : Call → Call) :
    (front ++ [c]).modify front.length f = front ++ [f c] := by
  induction front with
  | nil => rfl
  | cons d front ih => exact congrArg (d :: ·) ih

theorem Held.next (h : Held w t front c todo) (hlock : w'.lock = w.lock)
    (hstages : w'.stages = (w.place t (.holding front.length todo')).stages)
    (hcalls : w'.calls = front ++ [c']) (hreturned : w'.returned = w.returned)
    (hsuits : todo'.Suits c')
    (hsure : ∀ i, w'.bridge.active = some i →
      todo'.Doubts i ∨ ∀ d ∈ callsOn i w'.calls, ¬ d.Failed) :
    Held w' t front c' todo' := by
  refine ⟨hlock.trans h.lock, ?_, fun u hu => ?_, hcalls, h.settled,
    hreturned.trans h.returned, hsuits, hsure⟩
  · rw [hstages, Traffic.stages_place_self]
  · rw [hstages, Traffic.stages_place_ne hu]
    exact h.outside u hu

theorem Books.replace {b : Bridge} {arrived : Nat → List Stream.Piece} {i : Nat} {s s' : Session}
    (h : Books b (front ++ [c]) arrived) (hs : b.sessions[i]? = some s)
    (hc : ∀ j, i ≠ j → c.session ≠ some j) (hc' : c'.session = some i) (hreply : s'.reply = s.reply)
    (hacc : Account (callsOn i (front ++ [c])) s (arrived i) →
      Account (callsOn i (front ++ [c'])) s' (arrived i)) :
    Books { b with sessions := b.sessions.set i s' } (front ++ [c']) arrived := by
  have hlt : i < b.sessions.length := (List.getElem?_eq_some_iff.1 hs).1
  refine ⟨fun d hd j hj => ?_, fun j s₁ hs₁ => ?_, fun j s₁ hs₁ => ?_⟩
  · rw [List.length_set]
    rcases List.mem_append.1 hd with hd | hd
    · exact h.known d (List.mem_append_left _ hd) j hj
    · rw [List.mem_singleton.1 hd, hc'] at hj
      cases hj
      exact hlt
  · by_cases hij : i = j
    · subst hij
      rw [List.getElem?_set_self hlt] at hs₁
      cases hs₁
      rw [hreply]
      exact h.silent i s hs
    · rw [List.getElem?_set_ne hij] at hs₁
      exact h.silent j s₁ hs₁
  · by_cases hij : i = j
    · subst hij
      rw [List.getElem?_set_self hlt] at hs₁
      cases hs₁
      exact hacc (h.accounts i s hs)
    · rw [List.getElem?_set_ne hij] at hs₁
      rw [callsOn_append_other (Call.session_ne hc' hij), ← callsOn_append_other (hc j hij)]
      exact h.accounts j s₁ hs₁

theorem not_failed_callsOn {i : Nat} (h : ∀ d ∈ callsOn i (front ++ [c]), ¬ d.Failed)
    (hc' : ¬ c'.Failed) : ∀ d ∈ callsOn i (front ++ [c']), ¬ d.Failed := by
  intro d hd
  obtain ⟨hmem, hi⟩ := mem_callsOn.1 hd
  rcases List.mem_append.1 hmem with hmem | hmem
  · exact h d (mem_callsOn.2 ⟨List.mem_append_left _ hmem, hi⟩)
  · rw [List.mem_singleton.1 hmem]
    exact hc'

theorem Held.trip (h : Held w t front c todo) (hb : Books w.bridge w.calls w.arrived) {i : Nat}
    {s s' : Session} {f : Call → Call} (hs : w.bridge.sessions[i]? = some s)
    (hc : ∀ j, i ≠ j → c.session ≠ some j) (hc' : (f c).session = some i)
    (hreply : s'.reply = s.reply)
    (hacc : Account (callsOn i (front ++ [c])) s (w.arrived i) →
      Account (callsOn i (front ++ [f c])) s' (w.arrived i))
    (hsuits : todo'.Suits (f c)) (hdoubt : ∀ j, ¬ todo.Doubts j)
    (hfailed : (f c).Failed → todo'.Doubts i) :
    ((({ w with bridge := { w.bridge with sessions := w.bridge.sessions.set i s' } } :
        Traffic).revise front.length f).place t (.holding front.length todo')).Inv := by
  have hcalls : w.calls.modify front.length f = front ++ [f c] := by rw [h.calls, modify_last]
  refine ⟨.inr ⟨t, front, f c, todo', h.next rfl rfl hcalls rfl hsuits fun j hj => ?_⟩, ?_⟩
  · have hsure := (h.sure j hj).resolve_left (hdoubt j)
    change todo'.Doubts j ∨ ∀ d ∈ callsOn j (w.calls.modify front.length f), ¬ d.Failed
    rw [hcalls]
    rw [h.calls] at hsure
    -- a failure comes with the doubt about its session; on the others the calls are the same ones
    by_cases hf : (f c).Failed
    · by_cases hij : i = j
      · subst hij
        exact .inl (hfailed hf)
      · rw [callsOn_append_other (hc j hij)] at hsure
        rw [callsOn_append_other (Call.session_ne hc' hij)]
        exact .inr hsure
    · exact .inr (not_failed_callsOn hsure hf)
  · rw [h.calls] at hb
    change Books _ (w.calls.modify front.length f) w.arrived
    rw [hcalls]
    exact hb.replace hs hc hc' hreply hacc

theorem Held.onward (h : Held w t front c todo) (hb : Books w.bridge w.calls w.arrived) {i : Nat}
    {s s' : Session} {f : Call → Call} (hs : w.bridge.sessions[i]? = some s)
    (hc : c.session = some i) (hc' : (f c).session = some i) (hreply : s'.reply = s.reply)
    (hacc : Account (callsOn i front ++ [c]) s (w.arrived i) →
      Account (callsOn i front ++ [f c]) s' (w.arrived i))
    (hsuits : todo'.Suits (f c)) (hdoubt : ∀ j, ¬ todo.Doubts j)
    (hfailed : (f c).Failed → todo'.Doubts i) :
    ((({ w with bridge := { w.bridge with sessions := w.bridge.sessions.set i s' } } :
        Traffic).revise front.length f).place t (.holding front.length todo')).Inv := by
  have hother : ∀ j, i ≠ j → c.session ≠ some j := fun j => Call.session_ne hc
  refine h.trip hb hs hother hc' hreply (fun hacc' => ?_) hsuits hdoubt hfailed
  rw [callsOn_append_self hc] at hacc'
  rw [callsOn_append_self hc']
  exact hacc hacc'

theorem Held.exists_session (h : Held w t front c todo) (hb : Books w.bridge w.calls w.arrived)
    {i : Nat} (hc : c.session = some i) : ∃ s, w.bridge.sessions[i]? = some s := by
  have hmem : c ∈ w.calls := by
    rw [h.calls]
    exact List.mem_append_right front (List.mem_singleton_self c)
  exact ⟨_, List.getElem?_eq_getElem (hb.known c hmem i hc)⟩

theorem current_eq_some {b : Bridge} {i : Nat} (h : b.current = some i) :
    b.active = some i ∧ ∃ s, b.sessions[i]? = some s := by
  rw [current, Option.filter_eq_some_iff] at h
  obtain ⟨hactive, hheld⟩ := h
  refine ⟨hactive, ?_⟩
  cases hs : b.sessions[i]? with
  | some s => exact ⟨s, rfl⟩
  | none =>
    rw [hs] at hheld
    cases hheld

theorem Held.ready (h : Held w t front c todo) (hbegun : c.session = none) {i : Nat}
    (hactive : w.bridge.active = some i) (hdoubt : ¬ todo.Doubts i) :
    ∀ d ∈ callsOn i front, d.outcome ≠ none ∧ ¬ d.Failed := by
  intro d hd
  obtain ⟨hfront, hsession⟩ := mem_callsOn.1 hd
  have hne : c.session ≠ some i := by
    rw [hbegun]
    exact Option.some_ne_none i |>.symm
  rcases h.settled d hfront with hnone | hout
  · rw [hsession] at hnone
    cases hnone
  · refine ⟨hout, ?_⟩
    rcases h.sure i hactive with hd' | hall
    · exact (hdoubt hd').elim
    · apply hall d
      rw [h.calls, callsOn_append_other hne]
      exact hd

theorem Held.look {name : String} {args : List UInt64} (h : Held w t front c (.look name args))
    (hb : Books w.bridge w.calls w.arrived) :
    (w.proceed t front.length (.look name args)).Inv := by
  have hbegun : c = Call.begun name args := h.suits
  have hsession : c.session = none := by rw [hbegun]; rfl
  have hout : c.outcome = none := by rw [hbegun]; rfl
  rw [Traffic.proceed]
  cases hcurrent : w.bridge.current with
  | none =>
    have hvalue : c.value = 0 := by rw [hbegun]; rfl
    refine ⟨.inr ⟨t, front, c, .leave 0, h.next rfl rfl h.calls rfl ⟨.inl hsession, hvalue⟩
      fun i hi => ?_⟩, hb⟩
    exact .inr ((h.sure i hi).resolve_left fun hd => hd)
  | some i =>
    obtain ⟨hactive, s, hs⟩ := current_eq_some hcurrent
    have hready := h.ready hsession hactive fun hd => hd
    have hsame : w.bridge.sessions.set i s = w.bridge.sessions := by
      obtain ⟨hlt, rfl⟩ := List.getElem?_eq_some_iff.1 hs
      exact List.set_getElem_self hlt
    have hother : ∀ j, c.session ≠ some j := by
      intro j
      rw [hsession]
      exact (Option.some_ne_none j).symm
    -- to find the session is a step on it that leaves it as it is
    have hacc : Account (callsOn i (front ++ [c])) s (w.arrived i) →
        Account (callsOn i (front ++ [{ c with session := some i }])) s (w.arrived i) := by
      intro hacc
      rw [callsOn_append_other (hother i)] at hacc
      rw [callsOn_append_self rfl]
      exact hacc.found hready (by rw [hbegun]; rfl) hout
    have htrip := @Held.trip w t front c _ (.ask i name args) h hb i s s
      (fun c => { c with session := some i }) hs (fun j _ => hother j) rfl rfl hacc
      (by rw [hbegun]; rfl) (fun _ hd => hd) fun hfailed => (hfailed.outcome_ne_none hout).elim
    rw [hsame] at htrip
    exact htrip

theorem Held.ask {i : Nat} {name : String} {args : List UInt64}
    (h : Held w t front c (.ask i name args)) (hb : Books w.bridge w.calls w.arrived) :
    (w.proceed t front.length (.ask i name args)).Inv := by
  have hfound : c = { Call.begun name args with session := some i } := h.suits
  have hsession : c.session = some i := by rw [hfound]
  have hsent : c.sent = false := by rw [hfound]; rfl
  have hout : c.outcome = none := by rw [hfound]; rfl
  have hrequest : c.request = .remoteCall name args := by rw [hfound]; rfl
  obtain ⟨s, hs⟩ := h.exists_session hb hsession
  obtain ⟨part, hpart, hwritten, hin, hreply, hall⟩ :=
    Session.ask_spec name args s (hb.silent i s hs)
  rw [← hrequest] at hpart hall
  rw [Traffic.proceed, onSession_of_some hs]
  dsimp only
  cases hr : (Session.ask name args s).result with
  | ok _ =>
    obtain ⟨hspelled, hwhole⟩ := hall hr
    rw [hwhole] at hwritten
    exact h.onward hb hs hsession hsession hreply
      (fun hacc => hacc.asked hsent hout hspelled hwritten hin) ⟨hsession, rfl, hout⟩
      (fun _ hd => hd) fun hfailed => (hfailed.outcome_ne_none hout).elim
  | error e =>
    exact h.onward hb hs hsession hsession hreply
      (fun hacc => hacc.unasked hsent hout hpart hwritten e) ⟨hsession, e, rfl⟩
      (fun _ hd => hd) fun _ => rfl

theorem Held.await {i : Nat} (h : Held w t front c (.await i))
    (hb : Books w.bridge w.calls w.arrived) : (w.proceed t front.length (.await i)).Inv := by
  obtain ⟨hsession, hsent, hout⟩ := h.suits
  obtain ⟨s, hs⟩ := h.exists_session hb hsession
  have hwritten := Session.sent_await s
  rw [Traffic.proceed, onSession_of_some hs]
  dsimp only
  cases hr : (Session.await s).result with
  | ok r =>
    obtain ⟨value, flags⟩ := r
    obtain ⟨p, hp, hdecode, hcut⟩ := Session.await_eq_ok hr
    exact h.onward hb hs hsession hsession (Session.reply_await s)
      (fun hacc => hacc.answered hsent hout hp hdecode hcut hwritten)
      ⟨.inr (Option.some_ne_none _), rfl⟩ (fun _ hd => hd)
      fun hfailed => (hfailed.outcome_ne_ok _ rfl).elim
  | error e =>
    exact h.onward hb hs hsession hsession (Session.reply_await s)
      (fun hacc => hacc.unanswered hsent hout hwritten e) ⟨hsession, e, rfl⟩
      (fun _ hd => hd) fun _ => rfl

theorem Books.of_sessions {b b' : Bridge} {cs : List Call} {arrived : Nat → List Stream.Piece}
    (h : Books b cs arrived) (hsessions : b'.sessions = b.sessions) : Books b' cs arrived :=
  ⟨fun c hc i hi => hsessions ▸ h.known c hc i hi, fun i s hs => h.silent i s (hsessions ▸ hs),
    fun i s hs => h.accounts i s (hsessions ▸ hs)⟩

theorem Books.modify {b : Bridge} {cs : List Call} {arrived arrived' : Nat → List Stream.Piece}
    (h : Books b cs arrived) (i : Nat) {f : Session → Session}
    (hreply : ∀ s, (f s).reply = s.reply)
    (hacc : ∀ s, Account (callsOn i cs) s (arrived i) → Account (callsOn i cs) (f s) (arrived' i))
    (harrived : ∀ j, i ≠ j → arrived' j = arrived j) :
    Books { b with sessions := b.sessions.modify i f } cs arrived' := by
  refine ⟨fun c hc j hj => ?_, fun j s hs => ?_, fun j s hs => ?_⟩
  · rw [List.length_modify]
    exact h.known c hc j hj
  · rw [List.getElem?_modify] at hs
    obtain ⟨s₀, hs₀, rfl⟩ := Option.map_eq_some_iff.1 hs
    have hsilent := h.silent j s₀ hs₀
    split
    · rw [hreply]
      exact hsilent
    · exact hsilent
  · rw [List.getElem?_modify] at hs
    obtain ⟨s₀, hs₀, rfl⟩ := Option.map_eq_some_iff.1 hs
    have hacc₀ := h.accounts j s₀ hs₀
    by_cases hij : i = j
    · subst hij
      rw [if_pos rfl]
      exact hacc s₀ hacc₀
    · rw [if_neg hij, harrived j hij]
      exact hacc₀

theorem detachSession_state (i : Nat) (b : Bridge) :
    (detachSession i b).state.sessions = b.sessions ∧
      ∀ j, (detachSession i b).state.active = some j → b.active = some j ∧ i ≠ j := by
  obtain ⟨es, hdetach⟩ := detachSession_eq i b
  rw [hdetach]
  refine ⟨rfl, fun j hj => ?_⟩
  by_cases hactive : b.active = some i
  · rw [if_pos hactive] at hj
    cases hj
  · rw [if_neg hactive] at hj
    refine ⟨hj, fun hij => hactive ?_⟩
    rw [hij]
    exact hj

theorem detach_state (b : Bridge) :
    (Bridge.detach b).state.sessions = b.sessions ∧
      ∀ j, (Bridge.detach b).state.active = some j → b.active = some j := by
  rw [Bridge.detach, Action.bind_of_ok (Action.get_apply b)]
  split
  · exact ⟨rfl, fun j hj => by cases hj⟩
  · exact ⟨rfl, fun j hj => hj⟩

theorem Held.mark {i : Nat} (h : Held w t front c (.mark i))
    (hb : Books w.bridge w.calls w.arrived) : (w.proceed t front.length (.mark i)).Inv := by
  refine ⟨.inr ⟨t, front, c, .drop i, h.next rfl rfl h.calls rfl h.suits h.sure⟩, ?_⟩
  exact hb.modify i (fun _ => rfl) (fun s hacc => hacc.congr rfl rfl) fun _ _ => rfl

theorem Held.drop {i : Nat} (h : Held w t front c (.drop i))
    (hb : Books w.bridge w.calls w.arrived) : (w.proceed t front.length (.drop i)).Inv := by
  obtain ⟨-, hfailed⟩ := h.suits
  obtain ⟨hsessions, hactive⟩ := detachSession_state i w.bridge
  have hvalue : c.value = 0 := by
    obtain ⟨e, he⟩ := hfailed
    rw [Call.value, he]
  have hsettled : c.Settled := .inr hfailed.outcome_ne_none
  refine ⟨.inr ⟨t, front, c, .leave 0, h.next rfl rfl h.calls rfl ⟨hsettled, hvalue⟩
    fun j hj => ?_⟩, ?_⟩
  · obtain ⟨hj', hij⟩ := hactive j hj
    exact .inr ((h.sure j hj').resolve_left hij)
  · exact hb.of_sessions hsessions

theorem Held.leave {value : UInt64} (h : Held w t front c (.leave value))
    (hb : Books w.bridge w.calls w.arrived) : (w.proceed t front.length (.leave value)).Inv := by
  obtain ⟨hsettled, hvalue⟩ := h.suits
  refine ⟨.inl ⟨rfl, fun u => ?_, fun d hd => ?_, ?_, fun i hi => ?_⟩, hb⟩
  · rw [Traffic.proceed]
    by_cases hu : u = t
    · rw [hu, Traffic.stages_place_self]
      exact fun h => h
    · rw [Traffic.stages_place_ne hu]
      exact h.outside u hu
  · have hd' : d ∈ front ++ [c] := h.calls ▸ hd
    rcases List.mem_append.1 hd' with hd | hd
    · exact h.settled d hd
    · rw [List.mem_singleton.1 hd]
      exact hsettled
  · change w.returned ++ [value] = w.calls.map Call.value
    rw [h.returned, h.calls, List.map_append, List.map_singleton, hvalue]
  · exact (h.sure i hi).resolve_left fun hd => hd

theorem Held.proceed (h : Held w t front c todo) (hb : Books w.bridge w.calls w.arrived) :
    (w.proceed t front.length todo).Inv := by
  cases todo with
  | look name args => exact h.look hb
  | ask i name args => exact h.ask hb
  | await i => exact h.await hb
  | mark i => exact h.mark hb
  | drop i => exact h.drop hb
  | leave value => exact h.leave hb

theorem Free.enter (h : Free w) (hb : Books w.bridge w.calls w.arrived) (t : Nat) (name : String)
    (args : List UInt64) :
    (({ w with lock := some t, calls := w.calls ++ [Call.begun name args] } : Traffic).place t
      (.holding w.calls.length (.look name args))).Inv := by
  have hother : ∀ i, callsOn i (w.calls ++ [Call.begun name args]) = callsOn i w.calls :=
    fun i => callsOn_append_other (Option.some_ne_none i).symm
  refine ⟨.inr ⟨t, w.calls, Call.begun name args, .look name args, rfl, w.stages_place_self t _,
    fun u hu => ?_, rfl, h.settled, h.returned, rfl, fun i hi => .inr ?_⟩, ?_⟩
  · rw [Traffic.stages_place_ne hu]
    exact h.outside u
  · change ∀ d ∈ callsOn i (w.calls ++ [Call.begun name args]), ¬ d.Failed
    rw [hother]
    exact h.sure i hi
  · refine ⟨fun d hd i hi => ?_, hb.silent, fun i s hs => ?_⟩
    · rcases List.mem_append.1 hd with hd | hd
      · exact hb.known d hd i hi
      · rw [List.mem_singleton.1 hd] at hi
        cases hi
    · change Account (callsOn i (w.calls ++ [Call.begun name args])) s (w.arrived i)
      rw [hother]
      exact hb.accounts i s hs

theorem Traffic.Inv.held (h : w.Inv) {k : Nat} (hstage : w.stages t = .holding k todo) :
    ∃ front c, Held w t front c todo ∧ k = front.length := by
  have hinside : (w.stages t).Inside := by
    rw [hstage]
    trivial
  rcases h.phase with hfree | ⟨u, front, c, todo', hheld⟩
  · exact (hfree.outside t hinside).elim
  · by_cases htu : t = u
    · subst htu
      have hsame := hheld.stage
      rw [hstage] at hsame
      cases hsame
      exact ⟨front, c, hheld, rfl⟩
    · exact (hheld.outside t htu hinside).elim

theorem Traffic.Inv.advance (h : w.Inv) (t : Nat) : (w.advance t).Inv := by
  rw [Traffic.advance]
  cases hstage : w.stages t with
  | idle => exact h
  | waiting name args =>
    rcases h.phase with hfree | ⟨u, front, c, todo, hheld⟩
    · rw [hfree.lock]
      exact hfree.enter h.books t name args
    · rw [hheld.lock]
      exact h
  | holding k todo =>
    obtain ⟨front, c, hheld, rfl⟩ := h.held hstage
    exact hheld.proceed h.books

theorem Traffic.Inv.call (h : w.Inv) {t : Nat} (hidle : w.stages t = .idle) (name : String)
    (args : List UInt64) : (w.place t (.waiting name args)).Inv := by
  have houtside : ∀ u, ¬ (w.stages u).Inside →
      ¬ ((w.place t (.waiting name args)).stages u).Inside := by
    intro u hu
    by_cases hut : u = t
    · rw [hut, Traffic.stages_place_self]
      exact fun h => h
    · rw [Traffic.stages_place_ne hut]
      exact hu
  rcases h.phase with hfree | ⟨u, front, c, todo, hheld⟩
  · exact ⟨.inl ⟨hfree.lock, fun u => houtside u (hfree.outside u), hfree.settled, hfree.returned,
      hfree.sure⟩, h.books⟩
  · have hut : u ≠ t := by
      rintro rfl
      rw [hheld.stage] at hidle
      cases hidle
    have hstage : (w.place t (.waiting name args)).stages u = .holding front.length todo := by
      rw [Traffic.stages_place_ne hut, hheld.stage]
    exact ⟨.inr ⟨u, front, c, todo, hheld.lock, hstage,
      fun v hv => houtside v (hheld.outside v hv), hheld.calls, hheld.settled, hheld.returned,
      hheld.suits, hheld.sure⟩, h.books⟩

theorem Traffic.Inv.surroundings (h : w.Inv) {b : Bridge} {arrived : Nat → List Stream.Piece}
    (hbooks : Books b w.calls arrived)
    (hactive : ∀ i, b.active = some i → w.bridge.active = some i ∨ callsOn i w.calls = []) :
    Traffic.Inv { w with bridge := b, arrived := arrived } := by
  refine ⟨?_, hbooks⟩
  rcases h.phase with hfree | ⟨u, front, c, todo, hheld⟩
  · refine .inl ⟨hfree.lock, hfree.outside, hfree.settled, hfree.returned, fun i hi => ?_⟩
    rcases hactive i hi with hi' | hnone
    · exact hfree.sure i hi'
    · change ∀ d ∈ callsOn i w.calls, ¬ d.Failed
      rw [hnone]
      exact fun d hd => (List.not_mem_nil hd).elim
  · refine .inr ⟨u, front, c, todo, hheld.lock, hheld.stage, hheld.outside, hheld.calls,
      hheld.settled, hheld.returned, hheld.suits, fun i hi => ?_⟩
    rcases hactive i hi with hi' | hnone
    · exact hheld.sure i hi'
    · refine .inr ?_
      change ∀ d ∈ callsOn i w.calls, ¬ d.Failed
      rw [hnone]
      exact fun d hd => (List.not_mem_nil hd).elim

theorem getElem?_append_singleton {ss : List Session} {fresh s : Session} {i : Nat}
    (h : (ss ++ [fresh])[i]? = some s) :
    ss[i]? = some s ∧ i ≠ ss.length ∨ i = ss.length ∧ s = fresh := by
  rw [List.getElem?_append] at h
  split at h
  · next hlt => exact .inl ⟨h, Nat.ne_of_lt hlt⟩
  · next hle =>
    rw [List.getElem?_singleton] at h
    split at h
    · next hzero =>
      cases h
      exact .inr ⟨by omega, rfl⟩
    · cases h

theorem Traffic.Inv.connect (h : w.Inv) (link : Link) : (w.connect link).Inv := by
  -- no call can have gone to the number that the new session gets
  have hnone : callsOn w.bridge.sessions.length w.calls = [] := by
    rw [callsOn, List.filter_eq_nil_iff]
    intro c hc hi
    have hlt := h.books.known c hc _ (decide_eq_true_iff.1 hi)
    exact Nat.lt_irrefl _ hlt
  refine h.surroundings ⟨fun c hc i hi => ?_, fun i s hs => ?_, fun i s hs => ?_⟩ fun i hi => ?_
  · have hlt := h.books.known c hc i hi
    change i < (w.bridge.sessions ++ [_]).length
    rw [List.length_append]
    exact Nat.lt_add_right _ hlt
  · rcases getElem?_append_singleton hs with ⟨hs, -⟩ | ⟨-, rfl⟩
    · exact h.books.silent i s hs
    · rfl
  · rcases getElem?_append_singleton hs with ⟨hs, hi⟩ | ⟨rfl, rfl⟩
    · rw [if_neg hi]
      exact h.books.accounts i s hs
    · rw [if_pos rfl, hnone]
      exact account_nil
  · cases hi
    exact .inr hnone

theorem Traffic.Inv.arrive (h : w.Inv) (i : Nat) (pieces : List Stream.Piece) :
    (w.step (.arrive i pieces)).Inv := by
  refine h.surroundings (h.books.modify i (fun _ => rfl) (fun s hacc => ?_) fun j hij => ?_)
    fun j hj => .inl hj
  · rw [if_pos rfl]
    exact hacc.arrive rfl rfl
  · exact if_neg fun hji => hij hji.symm

theorem Traffic.Inv.step (h : w.Inv) (m : Move) : (w.step m).Inv := by
  cases m with
  | call t name args =>
    rw [Traffic.step]
    split
    · next hidle => exact h.call hidle name args
    · exact h
  | advance t => exact h.advance t
  | connect link => exact h.connect link
  | detachSession i =>
    obtain ⟨hsessions, hactive⟩ := detachSession_state i w.bridge
    exact h.surroundings (h.books.of_sessions hsessions) fun j hj => .inl (hactive j hj).1
  | detach =>
    obtain ⟨hsessions, hactive⟩ := detach_state w.bridge
    exact h.surroundings (h.books.of_sessions hsessions) fun j hj => .inl (hactive j hj)
  | release i =>
    exact h.surroundings (h.books.modify i (fun _ => rfl) (fun s hacc => hacc.congr rfl rfl)
      fun _ _ => rfl) fun j hj => .inl hj
  | arrive i pieces => exact h.arrive i pieces
  | retune i turns room =>
    exact h.surroundings (h.books.modify i (fun _ => rfl) (fun s hacc => hacc.congr rfl rfl)
      fun _ _ => rfl) fun j hj => .inl hj

theorem Traffic.Inv.run (h : w.Inv) (moves : List Move) : (Traffic.run moves w).Inv := by
  induction moves generalizing w with
  | nil => exact h
  | cons m moves ih => exact ih (h.step m)

end RemoteAgent.Bridge
