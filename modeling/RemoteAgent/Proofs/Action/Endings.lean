import RemoteAgent.Fault.Guard

/-! How actions can end: with which values, and with which failures, from whatever state. -/

namespace RemoteAgent.Action

variable {σ τ α β : Type} {good good' : α → Prop} {good₂ : β → Prop} {bad bad' : Error → Prop}

theorem ofExcept_apply (r : Except Error α) (s : σ) :
    (ofExcept r : Action σ α) s = ⟨r, s, []⟩ := by
  cases r <;> rfl

theorem bind_of_result {act : Action σ α} {next : α → Action σ β} {s : σ} {a : α}
    (h : (act s).result = .ok a) :
    ((act >>= next) s).result = (next a (act s).state).result ∧
      ((act >>= next) s).state = (next a (act s).state).state := by
  have hact : act s = ⟨.ok a, (act s).state, (act s).events⟩ := by rw [← h]
  rw [bind_of_ok hact]
  exact ⟨rfl, rfl⟩

theorem bind_of_failure {act : Action σ α} {next : α → Action σ β} {s : σ} {e : Error}
    (h : (act s).result = .error e) :
    ((act >>= next) s).result = .error e ∧ ((act >>= next) s).state = (act s).state := by
  have hact : act s = ⟨.error e, (act s).state, (act s).events⟩ := by rw [← h]
  rw [bind_of_error hact]
  exact ⟨rfl, rfl⟩

theorem map_apply (f : α → β) (act : Action σ α) (s : σ) :
    (f <$> act) s = ⟨(act s).result.map f, (act s).state, (act s).events⟩ := by
  rw [map_eq_pure_bind]
  cases h : act s with
  | mk r t es =>
    cases r with
    | ok a =>
      rw [bind_of_ok h]
      simp [Except.map]
    | error e =>
      rw [bind_of_error h]
      rfl

theorem told_apply (act : Action σ α) (events : α → List Log.Event) (s : σ) :
    ((act >>= fun a => tell (events a) >>= fun _ => pure a) s).result = (act s).result ∧
      ((act >>= fun a => tell (events a) >>= fun _ => pure a) s).state = (act s).state := by
  cases hr : (act s).result with
  | ok a => exact bind_of_result hr
  | error e => exact bind_of_failure hr

theorem forEach_append (xs ys : List α) (step : α → Action σ Unit) :
    forEach (xs ++ ys) step = (forEach xs step >>= fun _ => forEach ys step) := by
  induction xs with
  | nil => rfl
  | cons x xs ih =>
    change (step x >>= fun _ => forEach (xs ++ ys) step) = _
    rw [ih]
    exact (bind_assoc (step x) _ _).symm

theorem forEach_singleton (x : α) (step : α → Action σ Unit) : forEach [x] step = step x := by
  change (step x >>= fun _ => pure ()) = step x
  exact bind_pure_unit

theorem forEach_concat {xs : List α} {step : α → Action σ Unit} {s : σ}
    (h : (forEach xs step s).result = .ok ()) (x : α) :
    (forEach (xs ++ [x]) step s).result = (step x (forEach xs step s).state).result ∧
      (forEach (xs ++ [x]) step s).state = (step x (forEach xs step s).state).state := by
  rw [forEach_append, forEach_singleton]
  exact bind_of_result h

/-- If a sequence succeeds, its first step did, and the rest from where that led. -/
theorem exists_of_bind {act : Action σ α} {next : α → Action σ β} {s : σ} {b : β}
    (h : ((act >>= next) s).result = .ok b) : ∃ a, (act s).result = .ok a ∧
      (next a (act s).state).result = .ok b ∧
      ((act >>= next) s).state = (next a (act s).state).state := by
  cases ha : act s with
  | mk r t es =>
    cases r with
    | error e =>
      rw [bind_of_error ha] at h
      cases h
    | ok a =>
      rw [bind_of_ok ha] at h ⊢
      exact ⟨a, rfl, h, rfl⟩

def Fits (good : α → Prop) (bad : Error → Prop) : Except Error α → Prop
  | .ok a => good a
  | .error e => bad e

def Ends (good : α → Prop) (bad : Error → Prop) (act : Action σ α) : Prop :=
  ∀ s, Fits good bad (act s).result

theorem Fits.mono {r : Except Error α} (h : Fits good bad r) (hg : ∀ a, good a → good' a)
    (hb : ∀ e, bad e → bad' e) : Fits good' bad' r := by
  cases r with
  | ok a => exact hg a h
  | error e => exact hb e h

theorem Ends.mono {act : Action σ α} (h : Ends good bad act) (hg : ∀ a, good a → good' a)
    (hb : ∀ e, bad e → bad' e) : Ends good' bad' act := fun s => (h s).mono hg hb

theorem ends_pure {a : α} (h : good a) : Ends good bad (pure a : Action σ α) := fun _ => h

theorem ends_fail {e : Error} (h : bad e) : Ends good bad (fail e : Action σ α) := fun _ => h

theorem ends_get : Ends (fun _ => True) bad (get : Action σ σ) := fun _ => trivial

theorem ends_tell (es : List Log.Event) : Ends (fun _ => True) bad (tell es : Action σ Unit) :=
  fun _ => trivial

theorem ends_modify (f : σ → σ) : Ends (fun _ => True) bad (modify f) := fun _ => trivial

theorem ends_set (s : σ) : Ends (fun _ => True) bad (set s) := fun _ => trivial

theorem ends_any (act : Action σ α) : Ends (fun _ => True) (fun _ => True) act := by
  intro s
  cases (act s).result <;> trivial

theorem ends_ofExcept {r : Except Error α} (h : Fits good bad r) :
    Ends good bad (ofExcept r : Action σ α) := by
  cases r with
  | ok a => exact ends_pure h
  | error e => exact ends_fail h

theorem Fits.bind {act : Action σ α} {next : α → Action σ β} {s : σ}
    (h : Fits good bad (act s).result) (hn : ∀ a, good a → Ends good₂ bad (next a)) :
    Fits good₂ bad ((act >>= next) s).result := by
  cases ha : act s with
  | mk r t es =>
    rw [ha] at h
    cases r with
    | ok a =>
      rw [bind_of_ok ha]
      exact hn a h t
    | error e =>
      rw [bind_of_error ha]
      exact h

theorem Ends.bind {act : Action σ α} {next : α → Action σ β} (h : Ends good bad act)
    (hn : ∀ a, good a → Ends good₂ bad (next a)) : Ends good₂ bad (act >>= next) :=
  fun s => (h s).bind hn

theorem Ends.andThen {act : Action σ α} {next : α → Action σ β} (h : Ends (fun _ => True) bad act)
    (hn : ∀ a, Ends good₂ bad (next a)) : Ends good₂ bad (act >>= next) :=
  h.bind fun a _ => hn a

theorem ends_unless {c : Prop} [Decidable c] {e : Error} {next : Unit → Action σ β} (hc : c → bad e)
    (hn : ¬ c → Ends good₂ bad (next ())) :
    Ends good₂ bad (if c then (fail e : Action σ Unit) >>= next else next ()) := by
  split
  · next h => exact fun _ => hc h
  · next h => exact hn h

theorem Ends.attempt {act : Action σ α} (h : Ends good bad act) :
    Ends (Fits good bad) bad' act.attempt := h

theorem Ends.on {act : Action σ α} (h : Ends good bad act) (part : τ → σ) (put : σ → τ → τ) :
    Ends good bad (act.on part put) := fun t => h (part t)

abbrev FailsOnly (bad : Error → Prop) (act : Action σ α) : Prop := Ends (fun _ => True) bad act

abbrev Succeeds (good : α → Prop) (act : Action σ α) : Prop := Ends good (fun _ => False) act

theorem Succeeds.exists_eq_ok {act : Action σ α} (h : Succeeds good act) (s : σ) :
    ∃ a, (act s).result = .ok a ∧ good a := by
  have hs := h s
  cases hr : (act s).result with
  | ok a =>
    rw [hr] at hs
    exact ⟨a, rfl, hs⟩
  | error e =>
    rw [hr] at hs
    exact hs.elim

theorem failure_of_bind {act : Action σ α} {next : α → Action σ β} {s : σ} {e : Error}
    (hn : ∀ a, Succeeds (fun _ => True) (next a)) (h : ((act >>= next) s).result = .error e) :
    (act s).result = .error e ∧ ((act >>= next) s).state = (act s).state := by
  cases ha : (act s).result with
  | error e' =>
    obtain ⟨hresult, hstate⟩ := @bind_of_failure _ _ _ act next s e' ha
    rw [hresult] at h
    cases h
    exact ⟨rfl, hstate⟩
  | ok a =>
    obtain ⟨b, hb, -⟩ := (hn a).exists_eq_ok (act s).state
    rw [(bind_of_result ha).1, hb] at h
    cases h

def Yields (pre : σ → Prop) (act : Action σ α) (post : α → σ → Prop) : Prop :=
  ∀ s, pre s → ∃ a, (act s).result = .ok a ∧ post a (act s).state

section Yields

variable {pre : σ → Prop} {mid : α → σ → Prop} {post : β → σ → Prop}

theorem Yields.bind {act : Action σ α} {next : α → Action σ β} (h : Yields pre act mid)
    (hn : ∀ a, Yields (mid a) (next a) post) : Yields pre (act >>= next) post := by
  intro s hs
  obtain ⟨a, ha, hmid⟩ := h s hs
  obtain ⟨hresult, hstate⟩ := @bind_of_result _ _ _ act next s a ha
  obtain ⟨b, hb, hpost⟩ := hn a _ hmid
  rw [hresult, hstate]
  exact ⟨b, hb, hpost⟩

theorem Yields.get_bind {next : σ → Action σ β} (h : ∀ s, pre s → Yields pre (next s) post) :
    Yields pre (get >>= next) post := by
  intro s hs
  rw [bind_of_ok (get_apply s)]
  exact h s hs s hs

end Yields

/-- From states with a property the action leads to such states, however it ends. -/
def Preserves (P : σ → Prop) (act : Action σ α) : Prop := ∀ s, P s → P (act s).state

section Preserves

variable {P : σ → Prop} {act : Action σ α}

theorem Preserves.bind {next : α → Action σ β} (h : Preserves P act)
    (hn : ∀ a, Preserves P (next a)) : Preserves P (act >>= next) := by
  intro s hs
  have ha := h s hs
  cases hr : (act s).result with
  | ok a => rw [(bind_of_result hr).2]; exact hn a _ ha
  | error e => rw [(@bind_of_failure _ _ _ act next s e hr).2]; exact ha

theorem Preserves.get_bind {next : σ → Action σ β} (h : ∀ s, P s → Preserves P (next s)) :
    Preserves P (get >>= next) := by
  intro s hs
  rw [bind_of_ok (get_apply s)]
  exact h s hs s hs

theorem Preserves.attempt (h : Preserves P act) : Preserves P act.attempt := h

theorem preserves_pure (a : α) : Preserves P (pure a : Action σ α) := fun _ hs => hs

theorem preserves_fail (e : Error) : Preserves P (fail e : Action σ α) := fun _ hs => hs

theorem preserves_tell (es : List Log.Event) : Preserves P (tell es : Action σ Unit) := fun _ hs => hs

theorem preserves_ofExcept (r : Except Error α) : Preserves P (ofExcept r : Action σ α) := by
  cases r <;> exact fun _ hs => hs

theorem preserves_unless {c : Prop} [Decidable c] {e : Error} {next : Unit → Action σ β}
    (h : Preserves P (next ())) :
    Preserves P (if c then (fail e : Action σ Unit) >>= next else next ()) := by
  split
  · exact fun _ hs => hs
  · exact h

end Preserves

end RemoteAgent.Action

namespace RemoteAgent.Fault

open RemoteAgent.Action

variable {σ α : Type} [Scopes σ] {good : α → Prop} {bad : Error → Prop}

theorem ends_enter : Ends (fun _ => True) bad (enter : Action σ Unit) := by
  unfold enter
  refine ends_get.andThen fun s => ?_
  dsimp only
  split
  · exact (ends_tell _).andThen fun _ => ends_modify _
  · exact ends_modify _

theorem ends_leave : Ends (fun _ => True) bad (leave : Action σ Unit) := by
  unfold leave
  refine ends_get.andThen fun s => (ends_modify _).andThen fun _ => ?_
  split
  · exact ends_tell _
  · exact ends_pure trivial

theorem enter_apply (s : σ) : ∃ es,
    enter s = ⟨.ok (), Scopes.setOpenScopes (Scopes.openScopes s + 1) s, es⟩ := by
  rw [enter, bind_of_ok (get_apply s)]
  dsimp only
  split
  · exact ⟨_, rfl⟩
  · exact ⟨_, rfl⟩

theorem leave_apply (s : σ) : ∃ es,
    leave s = ⟨.ok (), Scopes.setOpenScopes (Scopes.openScopes s - 1) s, es⟩ := by
  rw [leave, bind_of_ok (get_apply s), bind_of_ok (modify_apply _ s)]
  dsimp only
  split
  · exact ⟨_, rfl⟩
  · exact ⟨_, rfl⟩

/-- A guarded action is the action inside one scope more, and then some number of scopes is open. -/
theorem guarded_apply (act : Action σ α) (s : σ) : ∃ n,
    (guarded act s).result = (act (Scopes.setOpenScopes (Scopes.openScopes s + 1) s)).result ∧
      (guarded act s).state =
        Scopes.setOpenScopes n (act (Scopes.setOpenScopes (Scopes.openScopes s + 1) s)).state := by
  obtain ⟨_, henter⟩ := enter_apply s
  obtain ⟨_, hleave⟩ :=
    leave_apply (act (Scopes.setOpenScopes (Scopes.openScopes s + 1) s)).state
  rw [guarded, bind_of_ok henter, bind_of_ok (attempt_apply act _), bind_of_ok hleave,
    ofExcept_apply]
  exact ⟨_, rfl, rfl⟩

theorem ends_guarded {act : Action σ α} (h : Ends good bad act) :
    Ends good bad (guarded act) := by
  unfold guarded
  refine ends_enter.andThen fun _ => ?_
  refine h.attempt.bind fun r hr => ?_
  exact ends_leave.andThen fun _ => ends_ofExcept hr

theorem keeps_guarded {β : Type} {view : σ → β} {act : Action σ α}
    (hscopes : ∀ n s, view (Scopes.setOpenScopes n s) = view s) (h : Keeps view act) :
    Keeps view (guarded act) := by
  intro s
  obtain ⟨n, -, hstate⟩ := guarded_apply act s
  rw [hstate, hscopes, h, hscopes]

theorem preserves_guarded {P : σ → Prop} {act : Action σ α}
    (hscopes : ∀ n s, P s → P (Scopes.setOpenScopes n s)) (h : Preserves P act) :
    Preserves P (guarded act) := by
  intro s hs
  obtain ⟨n, -, hstate⟩ := guarded_apply act s
  rw [hstate]
  exact hscopes n _ (h _ (hscopes _ s hs))

end RemoteAgent.Fault
