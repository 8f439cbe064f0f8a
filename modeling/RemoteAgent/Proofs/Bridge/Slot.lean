import RemoteAgent.Proofs.Bridge.Exclusion

/-! The slot of the bridge: what each move does to the session in it, to the sessions that somebody has
in his hands, and to the calls that have failed. -/

namespace RemoteAgent.Bridge

open RemoteAgent.Action

def Holds (b : Bridge) (s : Nat) : Prop :=
  ∃ session, b.sessions[s]? = some session ∧ session.held = true

def Todo.session : Todo → Option Nat
  | .ask i _ _ => some i
  | .await i => some i
  | .mark i => some i
  | .drop i => some i
  | _ => none

def Stage.session : Stage → Option Nat
  | .holding _ todo => todo.session
  | _ => none

/-- The session whose stream a call is to write to or read from next. -/
def Stage.stream : Stage → Option Nat
  | .holding _ (.ask i _ _) => some i
  | .holding _ (.await i) => some i
  | _ => none

def Traffic.carried (w : Traffic) : Option Nat := w.lock.bind fun t => (w.stages t).session

def Stage.Hushed : Stage → Prop
  | .idle => True
  | .waiting _ _ => True
  | .holding _ (.look _ _) => True
  | .holding _ (.leave value) => value = 0
  | _ => False

def Stage.Looks : Stage → Prop
  | .holding _ (.look _ _) => True
  | _ => False

def Move.Of (t : Nat) : Move → Prop
  | .call u _ _ => u = t
  | .advance u => u = t
  | _ => False

variable {b b' : Bridge} {i s : Nat}

section Holds

theorem current_of_holds (hactive : b.active = some s) (h : b.Holds s) : b.current = some s := by
  obtain ⟨session, hsession, hheld⟩ := h
  rw [current, hactive, Option.filter_some, hsession, Option.map_some, Option.getD_some, hheld]
  rfl

theorem Holds.of_sessions (h : b.Holds s) (hsessions : b'.sessions = b.sessions) : b'.Holds s := by
  rw [Holds, hsessions]
  exact h

theorem Holds.modify (h : b.Holds s) {f : Session → Session}
    (hf : i = s → ∀ x, (f x).held = x.held) :
    ({ b with sessions := b.sessions.modify i f } : Bridge).Holds s := by
  obtain ⟨session, hsession, hheld⟩ := h
  refine ⟨_, by rw [List.getElem?_modify, hsession]; rfl, ?_⟩
  split
  · next his =>
    rw [hf his]
    exact hheld
  · exact hheld

theorem Holds.onSession {α : Type} (h : b.Holds s) {act : Action Session α}
    (hact : Keeps Session.held act) : (onSession i act b).state.Holds s := by
  obtain ⟨session, hsession, hheld⟩ := h
  cases hi : b.sessions[i]? with
  | none =>
    rw [onSession_of_none hi]
    exact ⟨session, hsession, hheld⟩
  | some x =>
    rw [onSession_of_some hi]
    by_cases his : i = s
    · subst his
      rw [hi] at hsession
      cases hsession
      exact ⟨_, List.getElem?_set_self (List.getElem?_eq_some_iff.1 hi).1, (hact _).trans hheld⟩
    · exact ⟨session, (List.getElem?_set_ne his).trans hsession, hheld⟩

theorem keeps_held_ask (name : String) (args : List UInt64) :
    Keeps Session.held (Session.ask name args) :=
  keeps_get.bind fun _ => Keeps.bind (fun _ => rfl) fun _ _ => rfl

theorem keeps_held_await : Keeps Session.held Session.await := fun x => by rw [Session.state_await]

end Holds

namespace Traffic

variable {w : Traffic} {t k : Nat} {todo : Todo} {m : Move}

theorem active_onSession {α : Type} (act : Action Session α) (b : Bridge) :
    (onSession i act b).state.active = b.active := by
  cases hs : b.sessions[i]? with
  | none => rw [onSession_of_none hs]
  | some session => rw [onSession_of_some hs]

theorem active_proceed (hdrop : ∀ i, todo ≠ .drop i) :
    (w.proceed t k todo).bridge.active = w.bridge.active := by
  cases todo with
  | look name args =>
    rw [proceed]
    split
    · rfl
    · rfl
  | ask i name args =>
    rw [proceed]
    split
    · exact active_onSession _ _
    · exact active_onSession _ _
  | await i =>
    rw [proceed]
    split
    · exact active_onSession _ _
    · exact active_onSession _ _
  | drop i => exact (hdrop i rfl).elim
  | _ => rfl

theorem active_advance (t : Nat) : (w.advance t).bridge.active = w.bridge.active ∨
    ∃ k i, w.stages t = .holding k (.drop i) ∧
      (w.advance t).bridge = (Bridge.detachSession i w.bridge).state := by
  rw [advance]
  cases hstage : w.stages t with
  | idle => exact .inl rfl
  | waiting name args =>
    dsimp only
    split
    · exact .inl rfl
    · exact .inl rfl
  | holding k todo =>
    cases todo with
    | drop i => exact .inr ⟨k, i, rfl, rfl⟩
    | _ => exact .inl (active_proceed fun i => Todo.noConfusion)

theorem active_step (hm : ∀ link, m ≠ .connect link) (h : (w.step m).bridge.active = some s) :
    w.bridge.active = some s := by
  cases m with
  | call t name args =>
    rw [step] at h
    split at h
    · exact h
    · exact h
  | advance t =>
    rcases active_advance t with hsame | ⟨k, i, -, hdetached⟩
    · exact hsame ▸ h
    · rw [step, hdetached] at h
      exact ((detachSession_state i w.bridge).2 s h).1
  | connect link => exact (hm link rfl).elim
  | detachSession i => exact ((detachSession_state i w.bridge).2 s h).1
  | detach => exact (detach_state w.bridge).2 s h
  | _ => exact h

theorem active_step_cases (hconnect : ∀ link, m ≠ .connect link) (hone : ∀ i, m ≠ .detachSession i)
    (hany : m ≠ .detach) (h : w.bridge.active = some s) : (w.step m).bridge.active = some s ∨
      ∃ t k, m = .advance t ∧ w.stages t = .holding k (.drop s) := by
  cases m with
  | call t name args =>
    rw [step]
    split
    · exact .inl h
    · exact .inl h
  | advance t =>
    rcases active_advance t with hsame | ⟨k, i, hstage, hdetached⟩
    · exact .inl (hsame.trans h)
    · by_cases his : i = s
      · subst his
        exact .inr ⟨t, k, rfl, hstage⟩
      · obtain ⟨es, hdetach⟩ := detachSession_eq i w.bridge
        have hother : w.bridge.active ≠ some i := by
          rw [h]
          exact fun hsome => his (Option.some.inj hsome).symm
        rw [step, hdetached, hdetach, if_neg hother]
        exact .inl h
  | connect link => exact (hconnect link rfl).elim
  | detachSession i => exact (hone i rfl).elim
  | detach => exact (hany rfl).elim
  | _ => exact .inl h

theorem holds_proceed (h : w.bridge.Holds s) : (w.proceed t k todo).bridge.Holds s := by
  cases todo with
  | look name args =>
    rw [proceed]
    split
    · exact h
    · exact h
  | ask i name args =>
    rw [proceed]
    split
    · exact h.onSession (keeps_held_ask name args)
    · exact h.onSession (keeps_held_ask name args)
  | await i =>
    rw [proceed]
    split
    · exact h.onSession keeps_held_await
    · exact h.onSession keeps_held_await
  | mark i => exact h.modify fun _ _ => rfl
  | drop i => exact h.of_sessions (detachSession_state i w.bridge).1
  | leave value => exact h

theorem holds_step (hm : m ≠ .release s) (h : w.bridge.Holds s) : (w.step m).bridge.Holds s := by
  cases m with
  | call t name args =>
    rw [step]
    split
    · exact h
    · exact h
  | advance t =>
    rw [step, advance]
    split
    · exact h
    · split
      · exact h
      · exact h
    · exact holds_proceed h
  | connect link =>
    obtain ⟨session, hsession, hheld⟩ := h
    have hlt := (List.getElem?_eq_some_iff.1 hsession).1
    exact ⟨session, (List.getElem?_append_left hlt).trans hsession, hheld⟩
  | detachSession i => exact h.of_sessions (detachSession_state i w.bridge).1
  | detach => exact h.of_sessions (detach_state w.bridge).1
  | release i => exact h.modify fun his => (hm (congrArg Move.release his)).elim
  | arrive i pieces => exact h.modify fun _ _ => rfl
  | retune i turns room => exact h.modify fun _ _ => rfl

theorem length_onSession {α : Type} (act : Action Session α) (b : Bridge) :
    (onSession i act b).state.sessions.length = b.sessions.length := by
  cases hs : b.sessions[i]? with
  | none => rw [onSession_of_none hs]
  | some session =>
    rw [onSession_of_some hs]
    exact List.length_set

theorem length_detachSession (i : Nat) (b : Bridge) :
    (Bridge.detachSession i b).state.sessions.length = b.sessions.length := by
  obtain ⟨es, hdetach⟩ := detachSession_eq i b
  rw [hdetach]

theorem length_proceed : (w.proceed t k todo).bridge.sessions.length = w.bridge.sessions.length := by
  cases todo with
  | look name args =>
    rw [proceed]
    split
    · rfl
    · rfl
  | ask i name args =>
    rw [proceed]
    split
    · exact length_onSession _ _
    · exact length_onSession _ _
  | await i =>
    rw [proceed]
    split
    · exact length_onSession _ _
    · exact length_onSession _ _
  | mark i => exact List.length_modify ..
  | drop i => exact length_detachSession i _
  | leave value => rfl

theorem length_step (hm : ∀ link, m ≠ .connect link) :
    (w.step m).bridge.sessions.length = w.bridge.sessions.length := by
  cases m with
  | call t name args =>
    rw [step]
    split
    · rfl
    · rfl
  | advance t =>
    rw [step, advance]
    split
    · rfl
    · split
      · rfl
      · rfl
    · exact length_proceed
  | connect link => exact (hm link rfl).elim
  | detachSession i => exact length_detachSession i _
  | detach =>
    rw [step, Bridge.detach, bind_of_ok (get_apply w.bridge)]
    split
    · rfl
    · rfl
  | release i => exact List.length_modify ..
  | arrive i pieces => exact List.length_modify ..
  | retune i turns room => exact List.length_modify ..

theorem carried_place {stage : Stage} (h : (w.place t stage).carried = some s) :
    w.carried = some s ∨ w.lock = some t ∧ stage.session = some s := by
  obtain ⟨u, hlock, hsession⟩ := Option.bind_eq_some_iff.1 h
  by_cases hut : u = t
  · subst hut
    rw [stages_place_self] at hsession
    exact .inr ⟨hlock, hsession⟩
  · rw [stages_place_ne hut] at hsession
    exact .inl (Option.bind_eq_some_iff.2 ⟨u, hlock, hsession⟩)

/-- A call goes on with its session, or with the one in the slot as it looks there. -/
theorem carried_proceed (hstage : w.stages t = .holding k todo)
    (h : (w.proceed t k todo).carried = some s) :
    w.carried = some s ∨ w.bridge.active = some s := by
  have hown : ∀ {j : Nat}, todo.session = some j → some j = some s → w.lock = some t →
      w.carried = some s := by
    intro j hj hs hlock
    refine Option.bind_eq_some_iff.2 ⟨t, hlock, ?_⟩
    rw [hstage, ← hs]
    exact hj
  cases todo with
  | look name args =>
    rw [proceed] at h
    split at h
    · rcases carried_place h with hcarried | ⟨-, hs⟩
      · exact .inl hcarried
      · cases hs
    · next i hcurrent =>
      rcases carried_place h with hcarried | ⟨-, hs⟩
      · exact .inl hcarried
      · exact .inr ((current_eq_some hcurrent).1.trans hs)
  | ask i name args =>
    rw [proceed] at h
    split at h
    · rcases carried_place h with hcarried | ⟨hlock, hs⟩
      · exact .inl hcarried
      · exact .inl (hown rfl hs hlock)
    · rcases carried_place h with hcarried | ⟨hlock, hs⟩
      · exact .inl hcarried
      · exact .inl (hown rfl hs hlock)
  | await i =>
    rw [proceed] at h
    split at h
    · rcases carried_place h with hcarried | ⟨-, hs⟩
      · exact .inl hcarried
      · cases hs
    · rcases carried_place h with hcarried | ⟨hlock, hs⟩
      · exact .inl hcarried
      · exact .inl (hown rfl hs hlock)
  | mark i =>
    rcases carried_place h with hcarried | ⟨hlock, hs⟩
    · exact .inl hcarried
    · exact .inl (hown rfl hs hlock)
  | drop i =>
    rcases carried_place h with hcarried | ⟨-, hs⟩
    · exact .inl hcarried
    · cases hs
  | leave value =>
    rcases carried_place h with hcarried | ⟨-, hs⟩
    · cases hcarried
    · cases hs

theorem carried_step (h : (w.step m).carried = some s) :
    w.carried = some s ∨ w.bridge.active = some s := by
  cases m with
  | call t name args =>
    rw [step] at h
    split at h
    · rcases carried_place h with hcarried | ⟨-, hs⟩
      · exact .inl hcarried
      · cases hs
    · exact .inl h
  | advance t =>
    rw [step, advance] at h
    split at h
    · exact .inl h
    · split at h
      · exact .inl h
      · next hlock =>
        -- who has just taken the lock has no session yet
        have hself : ((w.stages t).session : Option Nat) = none := by
          rename_i hwaiting _
          rw [hwaiting]
          rfl
        rcases carried_place h with hcarried | ⟨-, hs⟩
        · obtain ⟨u, hu, hsession⟩ := Option.bind_eq_some_iff.1 hcarried
          cases hu
          exact (Option.some_ne_none s (hsession.symm.trans hself)).elim
        · cases hs
    · next k todo hstage => exact carried_proceed hstage h
  | _ => exact .inl h

theorem stages_proceed_ne {u : Nat} (h : u ≠ t) : (w.proceed t k todo).stages u = w.stages u := by
  cases todo with
  | look name args =>
    rw [proceed]
    split
    · exact stages_place_ne h _ _
    · exact stages_place_ne h _ _
  | ask i name args =>
    rw [proceed]
    split
    · exact stages_place_ne h _ _
    · exact stages_place_ne h _ _
  | await i =>
    rw [proceed]
    split
    · exact stages_place_ne h _ _
    · exact stages_place_ne h _ _
  | _ => exact stages_place_ne h _ _

theorem stages_step_of_other (hm : ¬ m.Of t) : (w.step m).stages t = w.stages t := by
  cases m with
  | call u name args =>
    rw [step]
    split
    · exact stages_place_ne (Ne.symm hm) _ _
    · rfl
  | advance u =>
    rw [step, advance]
    split
    · rfl
    · split
      · rfl
      · exact stages_place_ne (Ne.symm hm) _ _
    · exact stages_proceed_ne (Ne.symm hm)
  | _ => rfl

theorem call_of_hushed {name : String} {args : List UInt64} (h : (w.stages t).Hushed) :
    ((w.step (.call t name args)).stages t).Hushed ∧ (w.step (.call t name args)).bridge = w.bridge ∧
      (w.step (.call t name args)).returned = w.returned := by
  rw [step]
  split
  · refine ⟨?_, rfl, rfl⟩
    rw [stages_place_self]
    trivial
  · exact ⟨h, rfl, rfl⟩

theorem advance_of_hushed (h : (w.stages t).Hushed)
    (hlooks : (w.stages t).Looks → w.bridge.current = none) :
    ((w.advance t).stages t).Hushed ∧ (w.advance t).bridge = w.bridge ∧
      ((w.advance t).returned = w.returned ∨ (w.advance t).returned = w.returned ++ [0]) := by
  rw [advance]
  cases hstage : w.stages t with
  | idle =>
    dsimp only
    rw [hstage]
    exact ⟨trivial, rfl, .inl rfl⟩
  | waiting name args =>
    dsimp only
    split
    · rw [hstage]
      exact ⟨trivial, rfl, .inl rfl⟩
    · rw [stages_place_self]
      exact ⟨trivial, rfl, .inl rfl⟩
  | holding k todo =>
    rw [hstage] at h hlooks
    cases todo with
    | look name args =>
      dsimp only
      rw [proceed, hlooks trivial]
      dsimp only
      rw [stages_place_self]
      exact ⟨rfl, rfl, .inl rfl⟩
    | leave value =>
      have hzero : value = 0 := h
      rw [hzero]
      refine ⟨?_, rfl, .inr rfl⟩
      show (Stage.Hushed (place t .idle _ |>.stages t))
      rw [stages_place_self]
      trivial
    | _ => exact h.elim

end Traffic

section Failed

variable {w : Traffic} {t : Nat} {front : List Call} {c d : Call} {todo : Todo}

theorem Held.failed_proceed (h : Held w t front c todo) (hd : d ∈ w.calls) (hfailed : d.Failed) :
    d ∈ (w.proceed t front.length todo).calls := by
  -- only the last call is revised, and only before it has come to anything
  have hrevised : ¬ c.Failed → ∀ f : Call → Call, d ∈ w.calls.modify front.length f := by
    intro hc f
    rw [h.calls] at hd ⊢
    rw [modify_last]
    rcases List.mem_append.1 hd with hd | hd
    · exact List.mem_append_left _ hd
    · rw [List.mem_singleton.1 hd] at hfailed
      exact (hc hfailed).elim
  cases todo with
  | look name args =>
    have hc : ¬ c.Failed := by
      rw [show c = Call.begun name args from h.suits]
      exact fun hfailed => hfailed.outcome_ne_none rfl
    rw [Traffic.proceed]
    split
    · exact hd
    · exact hrevised hc _
  | ask i name args =>
    have hc : ¬ c.Failed := by
      rw [show c = { Call.begun name args with session := some i } from h.suits]
      exact fun hfailed => hfailed.outcome_ne_none rfl
    rw [Traffic.proceed]
    split
    · exact hrevised hc _
    · exact hrevised hc _
  | await i =>
    have hc : ¬ c.Failed := fun hfailed => hfailed.outcome_ne_none h.suits.2.2
    rw [Traffic.proceed]
    split
    · exact hrevised hc _
    · exact hrevised hc _
  | _ => exact hd

theorem Traffic.Inv.failed_step (h : w.Inv) (hd : d ∈ w.calls) (hfailed : d.Failed) (m : Move) :
    d ∈ (w.step m).calls := by
  cases m with
  | call t name args =>
    rw [Traffic.step]
    split
    · exact hd
    · exact hd
  | advance t =>
    rw [Traffic.step, Traffic.advance]
    cases hstage : w.stages t with
    | idle => exact hd
    | waiting name args =>
      dsimp only
      split
      · exact hd
      · exact List.mem_append_left _ hd
    | holding k todo =>
      obtain ⟨front, c, hheld, rfl⟩ := h.held hstage
      exact hheld.failed_proceed hd hfailed
  | _ => exact hd

end Failed

end RemoteAgent.Bridge
