import RemoteAgent.Error
import RemoteAgent.Log.Event

/-! Actions: steps over a state that may fail, that keep the state they reached when they fail, and
that tell events. The laws say how the three parts of an outcome pass through a sequence. -/

namespace RemoteAgent

structure Outcome (σ α : Type) where
  result : Except Error α
  state : σ
  events : List Log.Event := []

def Action (σ α : Type) : Type := σ → Outcome σ α

namespace Action

variable {σ τ α β : Type}

def run (act : Action σ α) (s : σ) : Outcome σ α := act s

protected def pure (a : α) : Action σ α := fun s => ⟨.ok a, s, []⟩

protected def bind (act : Action σ α) (next : α → Action σ β) : Action σ β := fun s =>
  match act s with
  | ⟨.ok a, t, es⟩ => let o := next a t; ⟨o.result, o.state, es ++ o.events⟩
  | ⟨.error e, t, es⟩ => ⟨.error e, t, es⟩

instance : Monad (Action σ) where
  pure := Action.pure
  bind := Action.bind

def fail (e : Error) : Action σ α := fun s => ⟨.error e, s, []⟩

def get : Action σ σ := fun s => ⟨.ok s, s, []⟩

def set (s : σ) : Action σ Unit := fun _ => ⟨.ok (), s, []⟩

def modify (f : σ → σ) : Action σ Unit := fun s => ⟨.ok (), f s, []⟩

def ofExcept : Except Error α → Action σ α
  | .ok a => Action.pure a
  | .error e => fail e

def tell (es : List Log.Event) : Action σ Unit := fun s => ⟨.ok (), s, es⟩

def attempt (act : Action σ α) : Action σ (Except Error α) := fun s =>
  let o := act s
  ⟨.ok o.result, o.state, o.events⟩

def on (part : τ → σ) (put : σ → τ → τ) (act : Action σ α) : Action τ α := fun t =>
  let o := act (part t)
  ⟨o.result, put o.state t, o.events⟩

def forEach (xs : List α) (step : α → Action σ Unit) : Action σ Unit :=
  match xs with
  | [] => Action.pure ()
  | x :: r => Action.bind (step x) fun _ => forEach r step

@[simp] theorem pure_apply (a : α) (s : σ) : (pure a : Action σ α) s = ⟨.ok a, s, []⟩ := rfl

@[simp] theorem fail_apply (e : Error) (s : σ) : (fail e : Action σ α) s = ⟨.error e, s, []⟩ := rfl

@[simp] theorem get_apply (s : σ) : (get : Action σ σ) s = ⟨.ok s, s, []⟩ := rfl

@[simp] theorem set_apply (s t : σ) : set t s = ⟨.ok (), t, []⟩ := rfl

@[simp] theorem modify_apply (f : σ → σ) (s : σ) : modify f s = ⟨.ok (), f s, []⟩ := rfl

@[simp] theorem tell_apply (es : List Log.Event) (s : σ) : tell es s = ⟨.ok (), s, es⟩ := rfl

@[simp] theorem ofExcept_ok (a : α) : (ofExcept (.ok a) : Action σ α) = pure a := rfl

@[simp] theorem ofExcept_error (e : Error) : (ofExcept (.error e) : Action σ α) = fail e := rfl

@[simp] theorem attempt_apply (act : Action σ α) (s : σ) :
    act.attempt s = ⟨.ok (act s).result, (act s).state, (act s).events⟩ := rfl

theorem bind_of_ok {act : Action σ α} {next : α → Action σ β} {s t : σ} {a : α}
    {es : List Log.Event} (h : act s = ⟨.ok a, t, es⟩) :
    (act >>= next) s = ⟨(next a t).result, (next a t).state, es ++ (next a t).events⟩ := by
  change Action.bind act next s = _
  simp only [Action.bind, h]

theorem bind_of_error {act : Action σ α} {next : α → Action σ β} {s t : σ} {e : Error}
    {es : List Log.Event} (h : act s = ⟨.error e, t, es⟩) :
    (act >>= next) s = ⟨.error e, t, es⟩ := by
  change Action.bind act next s = _
  simp only [Action.bind, h]

instance : LawfulMonad (Action σ) := LawfulMonad.mk' _
  (fun x => by
    funext s
    change Action.bind x (fun a => Action.pure a) s = x s
    unfold Action.bind Action.pure
    split <;> simp_all)
  (fun a f => by
    funext s
    rfl)
  (fun x f g => by
    funext s
    change Action.bind (Action.bind x f) g s = Action.bind x (fun a => Action.bind (f a) g) s
    unfold Action.bind
    cases h : x s with
    | mk r t es =>
      cases r with
      | error e => rfl
      | ok a =>
        dsimp only
        cases h' : f a t with
        | mk r' t' es' => cases r' <;> simp)

/-- The action leaves a view of the state as it was, however it ends. -/
def Keeps (view : σ → β) (act : Action σ α) : Prop := ∀ s, view (act s).state = view s

/-- The action takes at least `k` from a measure of the state if it succeeds. -/
def Spends (measure : σ → Nat) (k : Nat) (act : Action σ α) : Prop :=
  ∀ s a, (act s).result = .ok a → measure (act s).state + k ≤ measure s

section Views

variable {γ : Type} {view : σ → β} {measure : σ → Nat}

theorem keeps_pure (a : α) : Keeps view (pure a : Action σ α) := fun _ => rfl

theorem keeps_fail (e : Error) : Keeps view (fail e : Action σ α) := fun _ => rfl

theorem keeps_get : Keeps view (get : Action σ σ) := fun _ => rfl

theorem keeps_tell (es : List Log.Event) : Keeps view (tell es : Action σ Unit) := fun _ => rfl

theorem keeps_ofExcept (r : Except Error α) : Keeps view (ofExcept r : Action σ α) := by
  cases r <;> exact fun _ => rfl

theorem Keeps.bind {act : Action σ α} {next : α → Action σ γ} (h : Keeps view act)
    (hn : ∀ a, Keeps view (next a)) : Keeps view (act >>= next) := by
  intro s
  have ha := h s
  cases hr : act s with
  | mk r t es =>
    rw [hr] at ha
    cases r with
    | ok a => rw [bind_of_ok hr]; exact (hn a t).trans ha
    | error e => rw [bind_of_error hr]; exact ha

theorem Keeps.attempt {act : Action σ α} (h : Keeps view act) : Keeps view act.attempt := h

theorem Keeps.spends {act : Action σ α} (h : Keeps measure act) : Spends measure 0 act :=
  fun s _ _ => Nat.le_of_eq (h s)

theorem Spends.bind {act : Action σ α} {next : α → Action σ γ} {j k : Nat}
    (h : Spends measure j act) (hn : ∀ a, Spends measure k (next a)) :
    Spends measure (j + k) (act >>= next) := by
  intro s b hb
  cases hr : act s with
  | mk r t es =>
    cases r with
    | ok a =>
      rw [bind_of_ok hr] at hb ⊢
      have h1 := h s a (by rw [hr])
      have h2 := hn a t b hb
      rw [hr] at h1
      dsimp only at h1 h2 ⊢
      omega
    | error e => rw [bind_of_error hr] at hb; cases hb

theorem Spends.mono {act : Action σ α} {j k : Nat} (h : Spends measure k act) (hj : j ≤ k) :
    Spends measure j act := by
  intro s a ha
  have := h s a ha
  omega

end Views

end Action

end RemoteAgent
