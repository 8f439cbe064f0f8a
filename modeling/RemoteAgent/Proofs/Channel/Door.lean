import RemoteAgent.Proofs.Channel.Hub

/-! A channel as a door. One thread waits at it for peers, and its wait has parts: it checks that
nobody holds the seat, it blocks until a connection is there, and it gives the connection the seat.
Between any two of these parts other threads disconnect, spoil, look at or close the channel, and
connections come, are used and go. -/

namespace RemoteAgent.Channel

open RemoteAgent.Action Socket

inductive Door.Stage where
  | outside
  | blocked
  | taken (connection : Nat)

structure Door where
  hub : Hub
  stage : Door.Stage := .outside
  -- the streams that the waits have given out, in that order
  handed : List Nat := []

namespace Door

inductive Move where
  | check
  | accept
  | acceptFails (e : IoError)
  | cloneFails (e : IoError)
  | commit
  | disconnect
  | markBroken
  | isConnected
  | close
  | drop
  | elsewhere (deed : Deed)

def onHub {α : Type} (act : Action Hub α) (d : Door) : Except Error Unit × Door :=
  ((act d.hub).result.map fun _ => (), { d with hub := (act d.hub).state })

def check (i : Nat) (d : Door) : Except Error Unit × Door :=
  match d.stage with
  | .outside =>
    match Hub.offer i d.hub with
    | ⟨.ok (), hub, _⟩ => (.ok (), { d with hub, stage := .blocked })
    | ⟨.error e, hub, _⟩ => (.error e, { d with hub })
  | _ => (.ok (), d)

def accept (i : Nat) (d : Door) : Except Error Unit × Door :=
  match d.stage with
  | .blocked =>
    match Hub.accept i d.hub with
    | ⟨.ok (some x), hub, _⟩ => (.ok (), { d with hub, stage := .taken x })
    | _ => (.ok (), d)
  | _ => (.ok (), d)

def acceptFails (e : IoError) (d : Door) : Except Error Unit × Door :=
  match d.stage with
  | .blocked => (.error (.channelIo e), { d with stage := .outside })
  | _ => (.ok (), d)

def cloneFails (e : IoError) (d : Door) : Except Error Unit × Door :=
  match d.stage with
  | .taken x =>
    let network := (Network.adjust x (·.release .server) d.hub.network).state
    (.error (.channelIo e), { d with hub := d.hub.renet network, stage := .outside })
  | _ => (.ok (), d)

def commit (i : Nat) (d : Door) : Except Error Unit × Door :=
  match d.stage with
  | .taken x =>
    match Hub.welcome i x d.hub with
    | ⟨.ok y, hub, _⟩ => (.ok (), { hub, stage := .outside, handed := d.handed ++ [y] })
    | ⟨.error e, hub, _⟩ => (.error e, { d with hub, stage := .outside })
  | _ => (.ok (), d)

def drop (i : Nat) (d : Door) : Except Error Unit × Door :=
  match d.stage with
  | .outside => d.onHub (Hub.drop i)
  | _ => (.ok (), d)

/-- What a move returns, and where it leads. A part of a wait that is not the next one does not
happen. -/
def move (i : Nat) (m : Move) (d : Door) : Except Error Unit × Door :=
  match m with
  | .check => d.check i
  | .accept => d.accept i
  | .acceptFails e => d.acceptFails e
  | .cloneFails e => d.cloneFails e
  | .commit => d.commit i
  | .disconnect => d.onHub (Hub.disconnect i)
  | .markBroken => d.onHub (Hub.markBroken i)
  | .isConnected => d.onHub (Hub.isConnected i)
  | .close => d.onHub (Hub.close i)
  | .drop => d.drop i
  | .elsewhere deed => (.ok (), { d with hub := d.hub.renet (deed.onNetwork d.hub.network) })

def run (i : Nat) (ms : List Move) (d : Door) : Door := ms.foldl (fun d m => (d.move i m).2) d

theorem accept_of_channel {i : Nat} {d : Door} {c : Listening} (hc : d.hub.channels[i]? = some c)
    (hstage : d.stage = .blocked) : d.accept i =
    match d.hub.network.queueAt c.listener with
    | [] => (.ok (), d)
    | x :: _ => (.ok (),
        { d with hub := d.hub.renet (d.hub.network.served c.listener), stage := .taken x }) := by
  rw [accept, hstage]
  dsimp only
  rw [Hub.accept_of_channel hc]
  cases d.hub.network.queueAt c.listener with
  | nil => rfl
  | cons x queue => rfl

theorem stage_check {i : Nat} {d : Door} (hstage : d.stage = .outside) :
    (d.check i).2.stage = if (d.check i).1.isOk then .blocked else .outside := by
  rw [check, hstage]
  dsimp only
  split
  · rfl
  · rfl

theorem stage_commit {i x : Nat} {d : Door} (hstage : d.stage = .taken x) :
    (d.commit i).2.stage = .outside ∧ ((d.commit i).1.isOk → x ∈ (d.commit i).2.handed) := by
  rw [commit, hstage]
  dsimp only
  cases hwelcome : Hub.welcome i x d.hub with
  | mk result hub es =>
    cases result with
    | ok y =>
      have hy : y = x := Hub.eq_of_welcome (i := i) (h := d.hub) (by rw [hwelcome])
      refine ⟨rfl, fun _ => ?_⟩
      rw [hy]
      exact List.mem_append_right _ (List.mem_singleton_self x)
    | error e => exact ⟨rfl, fun hok => by cases hok⟩

theorem drop_of_outside {i : Nat} {d : Door} (hstage : d.stage = .outside) :
    d.drop i = d.onHub (Hub.drop i) := by
  rw [drop, hstage]

section Wait

variable {i : Nat} {h : Hub} {c : Listening} {handed : List Nat}

theorem run_of_offer_error {e : Error} {es : List Log.Event}
    (hoffer : Hub.offer i h = ⟨.error e, h, es⟩) :
    run i [.check, .accept, .commit] { hub := h, handed } = { hub := h, handed } := by
  have hcheck : (move i .check { hub := h, handed }).2 = { hub := h, handed } := by
    simp only [move, check, hoffer]
  simp only [run, List.foldl, hcheck]
  rfl

theorem run_wait (i : Nat) (h : Hub) (handed : List Nat) :
    (run i [.check, .accept, .commit] { hub := h, handed }).hub = (Hub.wait i h).state ∧
      (run i [.check, .accept, .commit] { hub := h, handed }).handed =
        handed ++ (Hub.wait i h).result.toOption.toList := by
  cases hc : h.channels[i]? with
  | none =>
    have habsent : ∀ {α : Type} (act : Listening → Action Hub α),
        Hub.withChannel i act h = ⟨.error .notConnected, h, []⟩ := by
      intro α act
      rw [Hub.withChannel, bind_of_ok (get_apply h), hc]
      rfl
    rw [run_of_offer_error (habsent _), Hub.wait, habsent]
    exact ⟨rfl, (List.append_nil _).symm⟩
  | some c =>
    have hoffer := Hub.offer_apply hc
    rw [Hub.wait, Hub.withChannel_of_some hc]
    cases hseat : c.seat.offer with
    | error e =>
      rw [hseat] at hoffer
      rw [run_of_offer_error hoffer, bind_of_error hoffer]
      exact ⟨rfl, (List.append_nil _).symm⟩
    | ok seat =>
      have hopen : seat.state ≠ .closed := by
        rw [Seat.offer] at hseat
        split at hseat <;> cases hseat <;> exact State.noConfusion
      obtain ⟨h₁, hoffer, hc₁⟩ : ∃ h₁, Hub.offer i h = ⟨.ok (), h₁, []⟩ ∧
          h₁.channels[i]? = some { c with seat } :=
        ⟨h.reseat i seat h.network, by rw [hoffer, hseat], Hub.channel_reseat hc⟩
      have hinner : Hub.inNetwork (Network.accept c.listener) h₁ = Hub.accept i h₁ := by
        rw [Hub.accept, Hub.withChannel_of_some hc₁]
      have haccept := Hub.accept_of_channel hc₁
      rw [bind_of_ok hoffer]
      cases hqueue : h₁.network.queueAt c.listener with
      | nil =>
        rw [hqueue] at haccept
        have hend : run i [.check, .accept, .commit] { hub := h, handed } =
            { hub := h₁, stage := .blocked, handed } := by
          simp only [run, List.foldl, move, check, hoffer, accept, haccept, commit]
        rw [hend, bind_of_ok (hinner.trans haccept)]
        exact ⟨rfl, (List.append_nil _).symm⟩
      | cons x queue =>
        rw [hqueue] at haccept
        obtain ⟨h₂, es, hwelcome⟩ : ∃ h₂ es,
            Hub.welcome i x (h₁.renet (h₁.network.served c.listener)) = ⟨.ok x, h₂, es⟩ :=
          ⟨_, _, Hub.welcome_of_open (h := h₁.renet (h₁.network.served c.listener)) hc₁ hopen x⟩
        have hend : run i [.check, .accept, .commit] { hub := h, handed } =
            { hub := h₂, handed := handed ++ [x] } := by
          simp only [run, List.foldl, move, check, hoffer, accept, haccept, commit, hwelcome]
        rw [hend, bind_of_ok (hinner.trans haccept)]
        dsimp only
        rw [hwelcome]
        exact ⟨rfl, rfl⟩

end Wait

end Door

inductive State.Passes : State → State → Prop
  | stays (s : State) : Passes s s
  | offered : Passes .disconnected .waitingToConnect
  | spoiled : Passes .connected .broken
  | left {s : State} (hs : s = .connected ∨ s = .broken) : Passes s .disconnected
  | closed (s : State) : Passes s .closed

theorem State.Passes.eq_closed {s t : State} (h : s.Passes t) (hs : s = .closed) : t = .closed := by
  cases h with
  | stays => exact hs
  | closed => rfl
  | left hleft =>
    subst hs
    rcases hleft with hleft | hleft <;> cases hleft
  | _ => cases hs

def Hub.peerOf (h : Hub) (i : Nat) : Option Nat := (h.seatOf i).bind (·.peer)

namespace Door

/-- What holds of a channel and of the next move there: the seat has a peer as its state says, every
stream given out but that of the peer is shut down, and states change only in the allowed ways. -/
structure Lawful (i : Nat) (d : Door) (m : Move) : Prop where
  holds : (d.hub.peerOf i).isSome ↔ d.hub.stateOf i = .connected ∨ d.hub.stateOf i = .broken
  distinct : d.handed.Nodup
  shut : ∀ x ∈ d.handed, d.hub.peerOf i ≠ some x → d.hub.network.isShut x = true
  changes : (d.hub.stateOf i).Passes ((d.move i m).2.hub.stateOf i) ∧
      (d.move i m).2.handed = d.handed ∨
    d.hub.stateOf i = .waitingToConnect ∧ (d.move i m).2.hub.stateOf i = .connected ∧
      ∃ x, (d.move i m).2.hub.peerOf i = some x ∧ (d.move i m).2.handed = d.handed ++ [x]
  refused : ∀ operation state, (d.move i m).1 = .error (.invalidState operation state) →
    (d.move i m).2.hub.seatOf i = d.hub.seatOf i ∧ (d.move i m).2.handed = d.handed ∧
      ((d.move i m).2.hub = d.hub ∨ ∃ x, d.stage = .taken x ∧ x ∉ d.handed ∧
        (d.move i m).2.hub = d.hub.renet (d.hub.network.cut (some x)))
  final : d.hub.stateOf i = .closed →
    (d.move i m).2.hub.stateOf i = .closed ∧ (d.move i m).2.handed = d.handed

/-- The seat and the stage fit, and the streams given out are there, apart from what still waits,
and shut down but for that of the peer. -/
structure Inv (i : Nat) (c : Listening) (d : Door) : Prop where
  channel : d.hub.channels[i]? = some c
  holds : c.seat.peer.isSome = c.seat.state.holdsPeer
  waits : d.stage = .outside ∨ c.seat.state = .waitingToConnect ∨ c.seat.state = .closed
  queued : d.hub.network.Queued c.listener
  known : ∀ x, x ∈ d.handed ∨ d.stage = .taken x →
    x < d.hub.network.connections.length ∧ x ∉ d.hub.network.queueAt c.listener
  distinct : d.handed.Nodup
  apart : ∀ x, d.stage = .taken x → x ∉ d.handed
  peer : ∀ x, c.seat.peer = some x → x ∈ d.handed
  shut : ∀ x ∈ d.handed, c.seat.peer = some x ∨ d.hub.network.isShut x = true

def Move.Mild : Move → Prop
  | accept => False
  | close => False
  | drop => False
  | _ => True

structure Leads (mild : Prop) (i : Nat) (c : Listening) (d : Door) (c' : Listening)
    (r : Except Error Unit × Door) : Prop where
  inv : r.2.Inv i c'
  same : c' = { c with seat := c'.seat }
  spares : d.hub.Spares i r.2.hub
  lasts : mild → d.hub.network.Lasts r.2.hub.network
  opens : mild → c.seat.state ≠ .closed → c'.seat.state ≠ .closed
  changes : c.seat.state.Passes c'.seat.state ∧ r.2.handed = d.handed ∨
    c.seat.state = .waitingToConnect ∧ c'.seat.state = .connected ∧
      ∃ x, c'.seat.peer = some x ∧ r.2.handed = d.handed ++ [x]
  refused : ∀ operation state, r.1 = .error (.invalidState operation state) →
    c' = c ∧ r.2.handed = d.handed ∧ (r.2.hub = d.hub ∨
      ∃ x, d.stage = .taken x ∧ r.2.hub = d.hub.renet (d.hub.network.cut (some x)))

section Step

variable {mild : Prop} {i : Nat} {c c' : Listening} {d d' : Door} {h' : Hub} {n : Network}

namespace Inv

theorem stateOf (h : d.Inv i c) : d.hub.stateOf i = c.seat.state := by
  rw [Hub.stateOf, Hub.seatOf_of_channel h.channel]
  rfl

theorem peerOf (h : d.Inv i c) : d.hub.peerOf i = c.seat.peer := by
  rw [Hub.peerOf, Hub.seatOf_of_channel h.channel]
  rfl

theorem peer_known (h : d.Inv i c) {x : Nat} (hx : c.seat.peer = some x) :
    x < d.hub.network.connections.length := (h.known x (.inl (h.peer x hx))).1

theorem known_of_grows (h : d.Inv i c) (hn : d.hub.network.Grows n) (x : Nat)
    (hx : x ∈ d.handed ∨ d.stage = .taken x) :
    x < n.connections.length ∧ x ∉ n.queueAt c.listener := by
  obtain ⟨hlt, hqueue⟩ := h.known x hx
  refine ⟨Nat.lt_of_lt_of_le hlt hn.length, fun hnew => ?_⟩
  rcases hn.fresh c.listener x hnew with hold | hge
  · exact hqueue hold
  · omega

theorem carry (h : d.Inv i c) (hchannel : h'.channels[i]? = d.hub.channels[i]?)
    (hn : d.hub.network.Grows h'.network) : ({ d with hub := h' } : Door).Inv i c := by
  refine ⟨hchannel.trans h.channel, h.holds, h.waits, hn.queued _ h.queued, h.known_of_grows hn,
    h.distinct, h.apart, h.peer, fun x hx => ?_⟩
  rcases h.shut x hx with hpeer | hshut
  · exact .inl hpeer
  · exact .inr (hn.shut x hshut)

theorem renet (h : d.Inv i c) (hn : d.hub.network.Grows n) :
    ({ d with hub := d.hub.renet n } : Door).Inv i c := h.carry rfl hn

theorem reseat (h : d.Inv i c) (hn : d.hub.network.Grows n) {seat : Seat}
    (hholds : seat.peer.isSome = seat.state.holdsPeer)
    (hwaits : d.stage = .outside ∨ seat.state = .waitingToConnect ∨ seat.state = .closed)
    (hpeer : ∀ x, seat.peer = some x → c.seat.peer = some x)
    (hcut : ∀ x, c.seat.peer = some x → seat.peer = some x ∨ n.isShut x = true) :
    ({ d with hub := d.hub.reseat i seat n } : Door).Inv i { c with seat } := by
  refine ⟨Hub.channel_reseat h.channel, hholds, hwaits, hn.queued _ h.queued, h.known_of_grows hn,
    h.distinct, h.apart, fun x hx => h.peer x (hpeer x hx), fun x hx => ?_⟩
  rcases h.shut x hx with hheld | hshut
  · exact hcut x hheld
  · exact .inr (hn.shut x hshut)

theorem restage (h : d.Inv i c) {stage : Stage} (hnone : ∀ x, stage ≠ .taken x)
    (hwaits : stage = .outside ∨ c.seat.state = .waitingToConnect ∨ c.seat.state = .closed) :
    ({ d with stage } : Door).Inv i c := by
  refine ⟨h.channel, h.holds, hwaits, h.queued, fun x hx => ?_, h.distinct, fun x hx => ?_,
    h.peer, h.shut⟩
  · rcases hx with hx | hx
    · exact h.known x (.inl hx)
    · exact (hnone x hx).elim
  · exact (hnone x hx).elim

theorem leave (h : d.Inv i c) : ({ d with stage := .outside } : Door).Inv i c :=
  h.restage (fun _ hx => by cases hx) (.inl rfl)

end Inv

theorem Leads.stays (h : d.Inv i c) (r : Except Error Unit) : Leads mild i c d c (r, d) :=
  ⟨h, rfl, Hub.Spares.refl i d.hub, fun _ => Network.Lasts.refl _, fun _ hopen => hopen,
    .inl ⟨.stays _, rfl⟩, fun _ _ _ => ⟨rfl, rfl, .inl rfl⟩⟩

theorem Leads.of_renet {stage : Stage} {r : Except Error Unit} (hn : d.hub.network.Grows n)
    (hl : mild → d.hub.network.Lasts n) (hinv : Inv i c { d with hub := d.hub.renet n, stage })
    (hr : ∀ operation state, r ≠ .error (.invalidState operation state)) :
    Leads mild i c d c (r, { d with hub := d.hub.renet n, stage }) :=
  ⟨hinv, rfl, Hub.spares_renet i hn, hl, fun _ hopen => hopen, .inl ⟨.stays _, rfl⟩,
    fun operation state herror => (hr operation state herror).elim⟩

theorem Leads.of_reseat {seat : Seat} {stage : Stage} (hn : d.hub.network.Grows n)
    (hl : mild → d.hub.network.Lasts n)
    (hinv : Inv i { c with seat } { d with hub := d.hub.reseat i seat n, stage })
    (hopens : mild → c.seat.state ≠ .closed → seat.state ≠ .closed)
    (hpasses : c.seat.state.Passes seat.state) :
    Leads mild i c d { c with seat } (.ok (), { d with hub := d.hub.reseat i seat n, stage }) :=
  ⟨hinv, rfl, Hub.spares_reseat hn, hl, hopens, .inl ⟨hpasses, rfl⟩, fun _ _ hr => by cases hr⟩

theorem Inv.leads_renet (h : d.Inv i c) (hn : d.hub.network.Grows n)
    (hl : mild → d.hub.network.Lasts n) :
    Leads mild i c d c (.ok (), { d with hub := d.hub.renet n }) :=
  Leads.of_renet hn hl (h.renet hn) fun _ _ hr => by cases hr

theorem Inv.leads_check (h : d.Inv i c) : ∃ c', Leads mild i c d c' (d.check i) := by
  rw [check]
  cases hstage : d.stage with
  | outside =>
    rw [Hub.offer_apply h.channel, Seat.offer]
    have hfree : c.seat.state.holdsPeer = false → c.seat.state.Passes .waitingToConnect →
        Leads mild i c d { c with seat := { c.seat with state := .waitingToConnect } } (.ok (), { d with
          hub := d.hub.reseat i { c.seat with state := .waitingToConnect } d.hub.network
          stage := .blocked }) := by
      intro hvacant hpasses
      have hholds : ({ c.seat with state := .waitingToConnect } : Seat).peer.isSome =
          State.waitingToConnect.holdsPeer := h.holds.trans hvacant
      have hseated := h.reseat (Network.Grows.refl _) hholds (.inr (.inl rfl)) (fun _ hx => hx)
        fun _ hx => .inl hx
      exact Leads.of_reseat (Network.Grows.refl _) (fun _ => Network.Lasts.refl _)
        (hseated.restage (fun _ hx => by cases hx) (.inr (.inl rfl)))
        (fun _ _ => State.noConfusion) hpasses
    have hstay : Leads mild i c d c (.error (.invalidState "wait for connection" c.seat.state),
        { hub := d.hub, stage := .outside, handed := d.handed }) := by
      rw [← hstage]
      exact Leads.stays h _
    cases hstate : c.seat.state with
    | waitingToConnect =>
      rw [hstate] at hfree
      exact ⟨_, hfree rfl (.stays _)⟩
    | disconnected =>
      rw [hstate] at hfree
      exact ⟨_, hfree rfl .offered⟩
    | _ =>
      rw [hstate] at hstay
      exact ⟨c, hstay⟩
  | _ => exact ⟨c, Leads.stays h _⟩

theorem Inv.leads_accept (h : d.Inv i c) : ∃ c', Leads False i c d c' (d.accept i) := by
  cases hstage : d.stage with
  | blocked =>
    rw [accept_of_channel h.channel hstage]
    cases hqueue : d.hub.network.queueAt c.listener with
    | nil => exact ⟨c, Leads.stays h _⟩
    | cons x queue =>
      have hgrows := Network.grows_served d.hub.network c.listener
      have hserved := h.renet hgrows
      have hfirst : x ∈ d.hub.network.queueAt c.listener := hqueue ▸ List.mem_cons_self
      have honce := h.queued.once
      rw [hqueue] at honce
      have hnew : x ∉ d.handed := fun hx => (h.known x (.inl hx)).2 hfirst
      have hwaits := h.waits.resolve_left (by rw [hstage]; exact Stage.noConfusion)
      refine ⟨c, Leads.of_renet hgrows False.elim ⟨h.channel, h.holds, .inr hwaits,
        hserved.queued, fun y hy => ?_, h.distinct, fun y hy => ?_, h.peer, hserved.shut⟩
          fun _ _ hr => by cases hr⟩
      · rcases hy with hy | hy
        · exact hserved.known y (.inl hy)
        · cases hy
          refine ⟨h.queued.known x hfirst, fun hx => ?_⟩
          rw [Hub.network_renet, Network.queueAt_served, if_pos rfl, hqueue] at hx
          exact (List.nodup_cons.1 honce).1 hx
      · cases hy
        exact hnew
  | _ =>
    rw [accept, hstage]
    exact ⟨c, Leads.stays h _⟩

theorem Inv.leads_acceptFails (h : d.Inv i c) (e : IoError) :
    ∃ c', Leads mild i c d c' (d.acceptFails e) := by
  rw [acceptFails]
  cases d.stage with
  | blocked =>
    exact ⟨c, Leads.of_renet (n := d.hub.network) (Network.Grows.refl _)
      (fun _ => Network.Lasts.refl _) h.leave fun _ _ hr => by cases hr⟩
  | _ => exact ⟨c, Leads.stays h _⟩

theorem Inv.leads_cloneFails (h : d.Inv i c) (e : IoError) :
    ∃ c', Leads mild i c d c' (d.cloneFails e) := by
  rw [cloneFails]
  cases d.stage with
  | taken x =>
    have hgrows : d.hub.network.Grows
        (Network.adjust x (·.release .server) d.hub.network).state :=
      Network.grows_adjust x fun _ hk => Connection.shut_release _ hk
    exact ⟨c, Leads.of_renet hgrows (fun _ => Network.lasts_adjust x _ _) (h.renet hgrows).leave
      fun _ _ hr => by cases hr⟩
  | _ => exact ⟨c, Leads.stays h _⟩

theorem Inv.seated (h : d.Inv i c) {x : Nat} (hstage : d.stage = .taken x)
    (hstate : c.seat.state = .waitingToConnect) (hn : d.hub.network.Grows n) :
    ({ hub := d.hub.reseat i ⟨.connected, some x⟩ n, handed := d.handed ++ [x] } : Door).Inv i
      { c with seat := ⟨.connected, some x⟩ } := by
  have hvacant : c.seat.peer = none := by
    have hholds := h.holds
    rw [hstate] at hholds
    exact Option.not_isSome_iff_eq_none.1 fun hsome => by rw [hsome] at hholds; cases hholds
  have hknown := h.known_of_grows hn
  refine ⟨Hub.channel_reseat h.channel, rfl, .inl rfl, hn.queued _ h.queued, fun y hy => ?_, ?_,
    fun y hy => (by cases hy), fun y hy => ?_, fun y hy => ?_⟩
  · rcases hy with hy | hy
    · rcases List.mem_append.1 hy with hy | hy
      · exact hknown y (.inl hy)
      · exact List.mem_singleton.1 hy ▸ hknown x (.inr hstage)
    · cases hy
  · refine List.nodup_append.2 ⟨h.distinct, List.nodup_singleton x, fun y hy z hz heq => ?_⟩
    rw [List.mem_singleton.1 hz] at heq
    exact h.apart x hstage (heq ▸ hy)
  · cases hy
    exact List.mem_append_right _ (List.mem_singleton_self x)
  · rcases List.mem_append.1 hy with hy | hy
    · rcases h.shut y hy with hpeer | hshut
      · rw [hvacant] at hpeer
        cases hpeer
      · exact .inr (hn.shut y hshut)
    · exact .inl (congrArg some (List.mem_singleton.1 hy).symm)

theorem Inv.leads_commit (h : d.Inv i c) : ∃ c', Leads mild i c d c' (d.commit i) := by
  rw [commit]
  cases hstage : d.stage with
  | taken x =>
    have hwaits := h.waits.resolve_left (by rw [hstage]; exact Stage.noConfusion)
    dsimp only
    rcases hwaits with hstate | hclosed
    · have hgrows : d.hub.network.Grows
          (Network.adjust x (·.share .server) d.hub.network).state :=
        Network.grows_adjust x fun _ hk => Connection.shut_share _ hk
      rw [Hub.welcome_of_open h.channel (by rw [hstate]; exact State.noConfusion)]
      exact ⟨_, h.seated hstage hstate hgrows, rfl, Hub.spares_reseat hgrows,
        fun _ => Network.lasts_adjust x _ _, fun _ _ => State.noConfusion,
        .inr ⟨hstate, rfl, x, rfl, rfl⟩, fun _ _ hr => by cases hr⟩
    · rw [Hub.welcome_of_closed h.channel hclosed]
      have hgrows := Network.grows_cut (some x) d.hub.network
      exact ⟨c, (h.renet hgrows).leave, rfl, Hub.spares_renet i hgrows,
        fun _ => Network.lasts_cut (some x) _, fun _ hopen => hopen, .inl ⟨.stays _, rfl⟩,
        fun _ _ _ => ⟨rfl, rfl, .inr ⟨x, hstage, rfl⟩⟩⟩
  | _ => exact ⟨c, Leads.stays h _⟩

theorem Inv.vacated (h : d.Inv i c) {state : State} (hvacant : state.holdsPeer = false)
    (hn : (d.hub.network.cut c.seat.peer).Grows n)
    (hwaits : d.stage = .outside ∨ state = .waitingToConnect ∨ state = .closed) :
    ({ d with hub := d.hub.reseat i ⟨state, none⟩ n } : Door).Inv i
      { c with seat := ⟨state, none⟩ } := by
  refine h.reseat ((Network.grows_cut _ _).trans hn) hvacant.symm hwaits (fun x hx => by cases hx)
    fun x hx => .inr (hn.shut x ?_)
  rw [hx]
  exact Network.isShut_cut (h.peer_known hx)

theorem Inv.stage_of_holds (h : d.Inv i c) (hpeer : c.seat.state.holdsPeer = true) :
    d.stage = .outside := by
  rcases h.waits with hstage | hstate | hstate
  · exact hstage
  · rw [hstate] at hpeer
    cases hpeer
  · rw [hstate] at hpeer
    cases hpeer

theorem holdsPeer_iff {s : State} : s.holdsPeer = true ↔ s = .connected ∨ s = .broken := by
  cases s <;> simp [State.holdsPeer]

theorem Inv.leads_disconnect (h : d.Inv i c) :
    ∃ c', Leads mild i c d c' (d.onHub (Hub.disconnect i)) := by
  rw [onHub]
  by_cases hpeer : c.seat.state.holdsPeer = true
  · rw [Hub.disconnect_of_holds h.channel hpeer]
    exact ⟨_, Leads.of_reseat (Network.grows_cut _ _) (fun _ => Network.lasts_cut _ _)
      (h.vacated rfl (Network.Grows.refl _) (.inl (h.stage_of_holds hpeer)))
      (fun _ _ => State.noConfusion) (.left (holdsPeer_iff.1 hpeer))⟩
  · rw [Hub.disconnect_of_vacant h.channel hpeer]
    exact ⟨c, Leads.stays h _⟩

theorem Inv.shut_disconnect (h : d.Inv i c) {x : Nat} (hx : x ∈ d.handed) :
    (d.onHub (Hub.disconnect i)).2.hub.network.isShut x = true := by
  rw [onHub]
  by_cases hpeer : c.seat.state.holdsPeer = true
  · rw [Hub.disconnect_of_holds h.channel hpeer]
    rcases h.shut x hx with hheld | hshut
    · rw [hheld]
      exact Network.isShut_cut (h.known x (.inl hx)).1
    · exact (Network.grows_cut c.seat.peer d.hub.network).shut x hshut
  · rw [Hub.disconnect_of_vacant h.channel hpeer]
    refine (h.shut x hx).resolve_left fun hheld => hpeer ?_
    rw [← h.holds, hheld]
    rfl

theorem Inv.leads_markBroken (h : d.Inv i c) :
    ∃ c', Leads mild i c d c' (d.onHub (Hub.markBroken i)) := by
  have hgrows := Network.Grows.refl d.hub.network
  have hlasts : mild → d.hub.network.Lasts d.hub.network := fun _ => Network.Lasts.refl _
  rw [onHub, Hub.markBroken_apply h.channel, Seat.spoil]
  by_cases hstate : c.seat.state = .connected
  · rw [if_pos hstate]
    have hholds := h.holds
    rw [hstate] at hholds
    have hstage := h.stage_of_holds (by rw [hstate]; rfl)
    refine ⟨_, Leads.of_reseat hgrows hlasts
      (h.reseat hgrows hholds (.inl hstage) (fun _ hx => hx) fun _ hx => .inl hx)
      (fun _ _ => State.noConfusion) ?_⟩
    rw [hstate]
    exact .spoiled
  · rw [if_neg hstate]
    exact ⟨_, Leads.of_reseat hgrows hlasts
      (h.reseat hgrows h.holds h.waits (fun _ hx => hx) fun _ hx => .inl hx)
      (fun _ hopen => hopen) (.stays _)⟩

theorem Inv.leads_isConnected (h : d.Inv i c) :
    ∃ c', Leads mild i c d c' (d.onHub (Hub.isConnected i)) := by
  obtain ⟨found, n, happly, hgrows, hlasts⟩ := Hub.isConnected_apply h.channel
  rw [onHub, happly]
  exact ⟨c, h.leads_renet hgrows fun _ => hlasts⟩

theorem Inv.leads_close (h : d.Inv i c) :
    ∃ c', Leads False i c d c' (d.onHub (Hub.close i)) := by
  rw [onHub]
  by_cases hclosed : c.seat.state = .closed
  · rw [Hub.close_of_closed h.channel hclosed]
    exact ⟨c, Leads.stays h _⟩
  · obtain ⟨es, hclose⟩ := Hub.close_of_open h.channel hclosed
    have hgrows := Network.grows_cleared c.name.endpointPath (d.hub.network.cut c.seat.peer)
    rw [hclose]
    exact ⟨_, Leads.of_reseat ((Network.grows_cut _ _).trans hgrows) False.elim
      (h.vacated rfl hgrows (.inr (.inr rfl))) False.elim (.closed _)⟩

theorem Leads.renet (h : Leads False i c d c' (.ok (), d')) (hn : d'.hub.network.Grows n) :
    Leads False i c d c' (.ok (), { d' with hub := d'.hub.renet n }) :=
  ⟨h.inv.renet hn, h.same, ⟨h.spares.others, h.spares.grows.trans hn⟩, False.elim, False.elim,
    h.changes, fun _ _ hr => by cases hr⟩

theorem Inv.leads_drop (h : d.Inv i c) : ∃ c', Leads False i c d c' (d.drop i) := by
  rw [drop]
  cases d.stage with
  | outside =>
    obtain ⟨hresult, hstate⟩ := Hub.drop_apply h.channel
    obtain ⟨c', hleads⟩ := h.leads_close
    rw [onHub, Hub.close_result h.channel] at hleads
    refine ⟨c', ?_⟩
    dsimp only
    rw [onHub, hresult, hstate]
    exact hleads.renet (Network.grows_closeListener c.listener _)
  | _ => exact ⟨c, Leads.stays h _⟩

theorem Inv.leads (h : d.Inv i c) (m : Move) : ∃ c', Leads m.Mild i c d c' (d.move i m) := by
  cases m with
  | check => exact h.leads_check
  | accept => exact h.leads_accept
  | acceptFails e => exact h.leads_acceptFails e
  | cloneFails e => exact h.leads_cloneFails e
  | commit => exact h.leads_commit
  | disconnect => exact h.leads_disconnect
  | markBroken => exact h.leads_markBroken
  | isConnected => exact h.leads_isConnected
  | close => exact h.leads_close
  | drop => exact h.leads_drop
  | elsewhere deed =>
    exact ⟨c, h.leads_renet (deed.grows d.hub.network) fun _ => deed.lasts d.hub.network⟩

theorem Inv.run (h : d.Inv i c) (ms : List Move) : ∃ c', (d.run i ms).Inv i c' := by
  induction ms generalizing d c with
  | nil => exact ⟨c, h⟩
  | cons m ms ih =>
    obtain ⟨c', hleads⟩ := h.leads m
    exact ih hleads.inv

theorem Inv.lawful (h : d.Inv i c) (m : Move) : d.Lawful i m := by
  obtain ⟨c', hleads⟩ := h.leads m
  have hafter := hleads.inv
  refine ⟨?_, h.distinct, fun x hx hpeer => ?_, ?_, fun operation state hr => ?_, fun hclosed => ?_⟩
  · rw [h.peerOf, h.stateOf, h.holds, holdsPeer_iff]
  · rw [h.peerOf] at hpeer
    exact (h.shut x hx).resolve_left hpeer
  · rw [h.stateOf, hafter.stateOf, hafter.peerOf]
    exact hleads.changes
  · obtain ⟨rfl, hhanded, hhub⟩ := hleads.refused operation state hr
    rw [Hub.seatOf_of_channel hafter.channel, Hub.seatOf_of_channel h.channel]
    refine ⟨rfl, hhanded, hhub.imp_right fun hcut => ?_⟩
    obtain ⟨x, hstage, hcut⟩ := hcut
    exact ⟨x, hstage, h.apart x hstage, hcut⟩
  · rw [h.stateOf] at hclosed
    rw [hafter.stateOf]
    rcases hleads.changes with ⟨hpasses, hhanded⟩ | ⟨hstate, -⟩
    · rw [hclosed] at hpasses
      exact ⟨hpasses.eq_closed rfl, hhanded⟩
    · rw [hclosed] at hstate
      cases hstate

theorem Inv.closed_iff (h : d.Inv i c) {m : Move} (hm : m.Mild) :
    (d.move i m).2.hub.stateOf i = .closed ↔ d.hub.stateOf i = .closed := by
  obtain ⟨c', hleads⟩ := h.leads m
  rw [hleads.inv.stateOf]
  refine ⟨fun hclosed => ?_, fun hclosed => ?_⟩
  · by_contra hopen
    rw [h.stateOf] at hopen
    exact hleads.opens hm hopen hclosed
  · have hfinal := ((h.lawful m).final hclosed).1
    rw [hleads.inv.stateOf] at hfinal
    exact hfinal

end Step

theorem inv_of_opened {h : Hub} {i : Nat} {c : Listening} (hopen : h.Opened i c) :
    ({ hub := h } : Door).Inv i c := by
  have hpeer : c.seat.peer = none := by rw [hopen.vacant]
  have hholds : c.seat.peer.isSome = c.seat.state.holdsPeer := by
    rw [hopen.vacant]
    rfl
  refine ⟨hopen.channel, hholds, .inl rfl, hopen.queued, fun x hx => ?_, List.nodup_nil,
    fun x hx => (by cases hx), fun x hx => ?_, fun x hx => (by cases hx)⟩
  · rcases hx with hx | hx
    · cases hx
    · cases hx
  · rw [hpeer] at hx
    cases hx

/-- Whatever is done at a channel that was opened, in whatever order, all of it is lawful. -/
theorem lawful_of_opened {h : Hub} {i : Nat} {c : Listening} (hopen : h.Opened i c)
    (ms : List Move) (m : Move) : (run i ms { hub := h }).Lawful i m := by
  obtain ⟨c', hrun⟩ := (inv_of_opened hopen).run ms
  exact hrun.lawful m

theorem lawful_of_opened_second :
    let h : Hub := { network := { directories := [], listeners := [{}] },
                     channels := [{ name := ⟨"mbam-", 1, ""⟩, listener := 0 }] }
    let ms : List Move := [.check, .elsewhere (.connectTo 0), .accept, .commit, .disconnect,
      .check, .elsewhere (.connectTo 0), .accept]
    let d := run 0 ms { hub := h }
    d.Lawful 0 .commit ∧ d.handed = [0] ∧ d.hub.network.isShut 0 = true ∧
      (d.move 0 .commit).2.handed = [0, 1] := by
  intro h ms d
  have hopen : h.Opened 0 { name := ⟨"mbam-", 1, ""⟩, listener := 0 } :=
    ⟨rfl, rfl, ⟨fun x hx => (List.not_mem_nil hx).elim, List.nodup_nil⟩⟩
  have hlawful : d.Lawful 0 .commit := lawful_of_opened hopen ms .commit
  have hhanded : d.handed = [0] := by decide
  have hmember : 0 ∈ d.handed := hhanded ▸ List.mem_singleton_self 0
  exact ⟨hlawful, hhanded, hlawful.shut 0 hmember (by decide), by decide⟩

end Door

end RemoteAgent.Channel
