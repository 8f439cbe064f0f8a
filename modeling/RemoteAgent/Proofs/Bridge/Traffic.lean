import RemoteAgent.Agent.Bridge

/-! Traffic over the bridge: threads with calls, the data service with sessions that come and go, and
controllers, each of which moves whenever it likes. A call moves as `Bridge.forward` does, one lock or
one look at shared state at a time. That its request goes out is one move, and that its response is
awaited another: nobody else sends on the session meanwhile, and what the controller sends during the
wait may as well have been there before it. -/

namespace RemoteAgent.Bridge

open RemoteAgent.Action

def Session.ask (name : String) (args : List UInt64) : Action Session Unit := do
  let s ← Action.get
  (Channel.send (.remoteCall name args)).on Session.link fun link s => { s with link }
  .modify (deliver s.link.stream.sent.length)

def Session.await : Action Session (UInt64 × UInt32) := do
  match ← (Channel.expect .remoteCallResponse).on Session.link fun link s => { s with link } with
  | .remoteCallResponse value flags => return (value, flags)
  | other => .fail (.unexpectedMessage .remoteCallResponse other.kind)

def onSession {α : Type} (i : Nat) (act : Action Session α) : Action Bridge α := do
  let b ← Action.get
  match b.sessions[i]? with
  | none => .fail .notConnected
  | some s => act.on (fun _ => s) fun s b => { b with sessions := b.sessions.set i s }

/-- What a call does next, once it has the lock. -/
inductive Todo where
  | look (name : String) (args : List UInt64)
  | ask (i : Nat) (name : String) (args : List UInt64)
  | await (i : Nat)
  | mark (i : Nat)
  | drop (i : Nat)
  | leave (value : UInt64)

inductive Stage where
  | idle
  | waiting (name : String) (args : List UInt64)
  -- it holds the lock for the `k`-th call
  | holding (k : Nat) (todo : Todo)

structure Call where
  name : String
  args : List UInt64
  session : Option Nat := none
  sent : Bool := false
  outcome : Option (Except Error (UInt64 × UInt32)) := none

namespace Call

def begun (name : String) (args : List UInt64) : Call := { name, args }

def request (c : Call) : Message := .remoteCall c.name c.args

def value (c : Call) : UInt64 :=
  match c.outcome with
  | some (.ok (value, _)) => value
  | _ => 0

end Call

structure Traffic where
  bridge : Bridge := {}
  -- the thread that holds the call lock
  lock : Option Nat := none
  stages : Nat → Stage := fun _ => .idle
  -- the calls that took the lock, in that order
  calls : List Call := []
  -- what the calls returned that gave the lock back, in that order
  returned : List UInt64 := []
  -- what the controller of each session has sent so far
  arrived : Nat → List Stream.Piece := fun _ => []

inductive Move where
  | call (t : Nat) (name : String) (args : List UInt64)
  -- a thread goes on with its call, unless it waits for the lock and another one holds it
  | advance (t : Nat)
  | connect (link : Channel.Link)
  | detachSession (i : Nat)
  | detach
  | release (i : Nat)
  -- a controller sends or hangs up, or a wait for it comes to its bound
  | arrive (i : Nat) (pieces : List Stream.Piece)
  | retune (i : Nat) (turns : List Stream.Turn) (room : Option Nat)

namespace Traffic

def place (t : Nat) (stage : Stage) (w : Traffic) : Traffic :=
  { w with stages := fun u => if u = t then stage else w.stages u }

@[simp] theorem stages_place_self (t : Nat) (stage : Stage) (w : Traffic) :
    (w.place t stage).stages t = stage := if_pos rfl

theorem stages_place_ne {t u : Nat} (h : u ≠ t) (stage : Stage) (w : Traffic) :
    (w.place t stage).stages u = w.stages u := if_neg h

def revise (k : Nat) (f : Call → Call) (w : Traffic) : Traffic :=
  { w with calls := w.calls.modify k f }

def proceed (t k : Nat) (todo : Todo) (w : Traffic) : Traffic :=
  match todo with
  | .look name args =>
    match w.bridge.current with
    | none => w.place t (.holding k (.leave 0))
    | some i =>
      (w.revise k fun c => { c with session := some i }).place t (.holding k (.ask i name args))
  | .ask i name args =>
    let o := onSession i (Session.ask name args) w.bridge
    let w := { w with bridge := o.state }
    match o.result with
    | .ok () => (w.revise k fun c => { c with sent := true }).place t (.holding k (.await i))
    | .error e =>
      (w.revise k fun c => { c with outcome := some (.error e) }).place t (.holding k (.mark i))
  | .await i =>
    let o := onSession i Session.await w.bridge
    let w := { w with bridge := o.state }
    match o.result with
    | .ok r =>
      (w.revise k fun c => { c with outcome := some (.ok r) }).place t (.holding k (.leave r.1))
    | .error e =>
      (w.revise k fun c => { c with outcome := some (.error e) }).place t (.holding k (.mark i))
  | .mark i =>
    let marked := (adjust i fun s => { s with failed := true }) w.bridge
    { w with bridge := marked.state }.place t (.holding k (.drop i))
  | .drop i =>
    { w with bridge := (Bridge.detachSession i w.bridge).state }.place t (.holding k (.leave 0))
  | .leave value => { w with lock := none, returned := w.returned ++ [value] }.place t .idle

def advance (t : Nat) (w : Traffic) : Traffic :=
  match w.stages t with
  | .idle => w
  | .waiting name args =>
    match w.lock with
    | some _ => w
    | none =>
      { w with lock := some t, calls := w.calls ++ [Call.begun name args] }.place t
        (.holding w.calls.length (.look name args))
  | .holding k todo => w.proceed t k todo

def connect (link : Channel.Link) (w : Traffic) : Traffic :=
  let fresh : Session := { link := { link with stream := { link.stream with sent := [] } } }
  let i := w.bridge.sessions.length
  let added := (do attach (← add fresh)) w.bridge
  { w with bridge := added.state
           arrived := fun j => if j = i then link.stream.incoming else w.arrived j }

def tune (i : Nat) (f : Stream → Stream) (w : Traffic) : Traffic :=
  let adjusted := (adjust i fun s => { s with link := { s.link with stream := f s.link.stream } })
    w.bridge
  { w with bridge := adjusted.state }

def step (m : Move) (w : Traffic) : Traffic :=
  match m with
  | .call t name args =>
    match w.stages t with
    | .idle => w.place t (.waiting name args)
    | _ => w
  | .advance t => w.advance t
  | .connect link => w.connect link
  | .detachSession i => { w with bridge := (Bridge.detachSession i w.bridge).state }
  | .detach => { w with bridge := (Bridge.detach w.bridge).state }
  | .release i => { w with bridge := (Bridge.release i w.bridge).state }
  | .arrive i pieces =>
    { w.tune i (Stream.feed pieces) with
      arrived := fun j => if j = i then w.arrived j ++ pieces else w.arrived j }
  | .retune i turns room => w.tune i fun s => { s with turns, room }

def run (moves : List Move) (w : Traffic) : Traffic := moves.foldl (fun w m => w.step m) w

end Traffic

theorem Session.roundTrip_eq (name : String) (args : List UInt64) :
    Session.roundTrip name args = (do Session.ask name args; Session.await) := by
  symm
  unfold Session.ask
  rw [bind_assoc]
  apply congrArg (Action.get >>= ·)
  funext s
  rw [bind_assoc]
  rfl

theorem onSession_of_none {α : Type} {i : Nat} {b : Bridge} (h : b.sessions[i]? = none)
    (act : Action Session α) : onSession i act b = ⟨.error .notConnected, b, []⟩ := by
  rw [onSession, bind_of_ok (get_apply b), h]
  rfl

theorem onSession_of_some {α : Type} {i : Nat} {b : Bridge} {s : Session}
    (h : b.sessions[i]? = some s) (act : Action Session α) :
    onSession i act b =
      ⟨(act s).result, { b with sessions := b.sessions.set i (act s).state }, (act s).events⟩ := by
  rw [onSession, bind_of_ok (get_apply b), h]
  rfl

theorem onSession_bind {α β : Type} (i : Nat) (act : Action Session α)
    (next : α → Action Session β) :
    onSession i (act >>= next) = (onSession i act >>= fun a => onSession i (next a)) := by
  funext b
  cases hs : b.sessions[i]? with
  | none => rw [onSession_of_none hs, bind_of_error (onSession_of_none hs act)]
  | some s =>
    have hlt : i < b.sessions.length := (List.getElem?_eq_some_iff.1 hs).1
    rw [onSession_of_some hs]
    cases hact : act s with
    | mk r t es =>
      have hfirst := onSession_of_some hs act
      rw [hact] at hfirst
      cases r with
      | error e => rw [bind_of_error hact, bind_of_error hfirst]
      | ok a =>
        have hthere : ({ b with sessions := b.sessions.set i t } : Bridge).sessions[i]? = some t :=
          List.getElem?_set_self hlt
        rw [bind_of_ok hact, bind_of_ok hfirst, onSession_of_some hthere, List.set_set]

theorem roundTrip_eq (i : Nat) (name : String) (args : List UInt64) :
    roundTrip i name args =
      (do onSession i (Session.ask name args); onSession i Session.await) := by
  rw [← onSession_bind, ← Session.roundTrip_eq]
  rfl

def giveUp (i : Nat) (b : Bridge) : Bridge :=
  (Bridge.detachSession i ((adjust i fun s => { s with failed := true }) b).state).state

def settle (i : Nat) (o : Outcome Bridge (UInt64 × UInt32)) : Bridge × UInt64 :=
  match o.result with
  | .ok (value, _) => (o.state, value)
  | .error _ => (giveUp i o.state, 0)

theorem detachSession_eq (i : Nat) (b : Bridge) :
    ∃ es, Bridge.detachSession i b =
      ⟨.ok (), { b with active := if b.active = some i then none else b.active }, es⟩ := by
  rw [Bridge.detachSession, bind_of_ok (get_apply b)]
  by_cases hactive : b.active = some i
  · rw [if_pos hactive, if_pos hactive]
    exact ⟨_, rfl⟩
  · rw [if_neg hactive, if_neg hactive]
    exact ⟨_, rfl⟩

theorem forward_of_none {b : Bridge} (h : b.current = none) (name : String) (args : List UInt64) :
    (forward name args b).result = .ok 0 ∧ (forward name args b).state = b := by
  rw [forward, bind_of_ok (get_apply b), h]
  exact ⟨rfl, rfl⟩

theorem forward_of_some {b : Bridge} {i : Nat} (h : b.current = some i) (name : String)
    (args : List UInt64) :
    (forward name args b).result = .ok (settle i (roundTrip i name args b)).2 ∧
      (forward name args b).state = (settle i (roundTrip i name args b)).1 := by
  rw [forward, bind_of_ok (get_apply b), h]
  dsimp only
  rw [bind_of_ok (attempt_apply _ b)]
  cases roundTrip i name args b with
  | mk r b' es =>
    cases r with
    | ok r =>
      dsimp only
      split
      · exact ⟨rfl, rfl⟩
      · exact ⟨rfl, rfl⟩
    | error e =>
      have hmark : (adjust i fun s => { s with failed := true }) b' =
          ⟨.ok (), ((adjust i fun s => { s with failed := true }) b').state, []⟩ := rfl
      obtain ⟨es', hdetach⟩ :=
        detachSession_eq i ((adjust i fun s => { s with failed := true }) b').state
      dsimp only
      rw [bind_of_ok (tell_apply _ b'), bind_of_ok hmark, bind_of_ok hdetach, settle, giveUp, hdetach]
      exact ⟨rfl, rfl⟩

/-- The call of a thread, left to itself, returns a value and leaves the bridge in a certain state. -/
def Traffic.Returns (t : Nat) (w : Traffic) (b : Bridge) (value : UInt64) : Prop :=
  ∃ n w', Traffic.run (List.replicate n (.advance t)) w = w' ∧ w'.stages t = .idle ∧
    w'.lock = none ∧ w'.bridge = b ∧ w'.returned = w.returned ++ [value]

section Alone

open Traffic

variable {w w' : Traffic} {t k i : Nat} {b : Bridge} {value : UInt64} {todo : Todo}
  {name : String} {args : List UInt64}

theorem advance_of_holding (h : w.stages t = .holding k todo) :
    w.advance t = w.proceed t k todo := by
  rw [Traffic.advance, h]

theorem Traffic.Returns.of_advance (hw : w.advance t = w') (hreturned : w'.returned = w.returned)
    (h : Returns t w' b value) : Returns t w b value := by
  obtain ⟨n, last, hrun, hstage, hlock, hbridge, hvalue⟩ := h
  refine ⟨n + 1, last, ?_, hstage, hlock, hbridge, ?_⟩
  · rw [← hrun, ← hw]
    rfl
  · rw [hvalue, hreturned]

theorem returns_of_leave (h : w.stages t = .holding k (.leave value)) :
    w.Returns t w.bridge value := by
  exact ⟨1, _, advance_of_holding h, stages_place_self t _ _, rfl, rfl, rfl⟩

theorem returns_of_mark (h : w.stages t = .holding k (.mark i)) :
    w.Returns t (giveUp i w.bridge) 0 := by
  apply Traffic.Returns.of_advance (advance_of_holding h) rfl
  apply Traffic.Returns.of_advance (advance_of_holding (stages_place_self t _ _)) rfl
  exact returns_of_leave (stages_place_self t _ _)

theorem returns_of_await (h : w.stages t = .holding k (.await i)) :
    w.Returns t (settle i (onSession i Session.await w.bridge)).1
      (settle i (onSession i Session.await w.bridge)).2 := by
  have hadvance := advance_of_holding h
  rw [Traffic.proceed] at hadvance
  cases hawait : onSession i Session.await w.bridge with
  | mk r b es =>
    rw [hawait] at hadvance
    cases r with
    | ok r =>
      apply Traffic.Returns.of_advance hadvance rfl
      exact returns_of_leave (stages_place_self t _ _)
    | error e =>
      apply Traffic.Returns.of_advance hadvance rfl
      exact returns_of_mark (stages_place_self t _ _)

theorem returns_of_ask (h : w.stages t = .holding k (.ask i name args)) :
    w.Returns t (settle i (roundTrip i name args w.bridge)).1
      (settle i (roundTrip i name args w.bridge)).2 := by
  have hadvance := advance_of_holding h
  rw [Traffic.proceed] at hadvance
  rw [roundTrip_eq]
  cases hask : onSession i (Session.ask name args) w.bridge with
  | mk r b es =>
    rw [hask] at hadvance
    cases r with
    | ok u =>
      rw [bind_of_ok hask]
      apply Traffic.Returns.of_advance hadvance rfl
      exact returns_of_await (stages_place_self t _ _)
    | error e =>
      rw [bind_of_error hask]
      apply Traffic.Returns.of_advance hadvance rfl
      exact returns_of_mark (stages_place_self t _ _)

theorem returns_of_look (h : w.stages t = .holding k (.look name args)) :
    ∃ value, (forward name args w.bridge).result = .ok value ∧
      w.Returns t (forward name args w.bridge).state value := by
  have hadvance := advance_of_holding h
  rw [Traffic.proceed] at hadvance
  cases hcurrent : w.bridge.current with
  | none =>
    rw [hcurrent] at hadvance
    obtain ⟨hresult, hstate⟩ := forward_of_none hcurrent name args
    rw [hstate]
    refine ⟨0, hresult, ?_⟩
    apply Traffic.Returns.of_advance hadvance rfl
    exact returns_of_leave (stages_place_self t _ _)
  | some i =>
    rw [hcurrent] at hadvance
    obtain ⟨hresult, hstate⟩ := forward_of_some hcurrent name args
    rw [hstate]
    refine ⟨_, hresult, ?_⟩
    apply Traffic.Returns.of_advance hadvance rfl
    exact returns_of_ask (stages_place_self t _ _)

theorem returns_forward (h : w.stages t = .waiting name args) (hlock : w.lock = none) :
    ∃ value, (forward name args w.bridge).result = .ok value ∧
      w.Returns t (forward name args w.bridge).state value := by
  have hadvance : w.advance t = ({ w with
      lock := some t, calls := w.calls ++ [Call.begun name args] } : Traffic).place t
        (.holding w.calls.length (.look name args)) := by
    rw [Traffic.advance, h, hlock]
  obtain ⟨value, hresult, hreturns⟩ := returns_of_look (w := ({ w with
    lock := some t, calls := w.calls ++ [Call.begun name args] } : Traffic).place t
      (.holding w.calls.length (.look name args))) (stages_place_self t _ _)
  exact ⟨value, hresult, hreturns.of_advance hadvance rfl⟩

end Alone

end RemoteAgent.Bridge
