import RemoteAgent.Channel.Hub
import RemoteAgent.Proofs.Socket.Endpoint

/-! What each operation does to a channel: the seat that it leaves there and the network that it
leaves under all channels. The other channels stay as they are. -/

namespace RemoteAgent

open RemoteAgent.Action Socket

namespace Socket.Network

variable {n : Network}

def cut (peer : Option Nat) (n : Network) : Network :=
  match peer with
  | some x => (adjust x (·.shutdown.release .server) n).state
  | none => n

theorem onward_cut (peer : Option Nat) (n : Network) : n.Onward (n.cut peer) := by
  cases peer with
  | none => exact onward_of_connections rfl
  | some x => exact onward_adjust x fun _ _ => Connection.shut_release _ rfl

theorem grows_cut (peer : Option Nat) (n : Network) : n.Grows (n.cut peer) := by
  cases peer with
  | none => exact Grows.refl n
  | some x => exact grows_adjust x fun _ _ => Connection.shut_release _ rfl

theorem lasts_cut (peer : Option Nat) (n : Network) : n.Lasts (n.cut peer) := by
  cases peer with
  | none => exact Lasts.refl n
  | some x => exact lasts_adjust x _ n

theorem isShut_cut {x : Nat} (hx : x < n.connections.length) :
    (n.cut (some x)).isShut x = true :=
  isShut_adjust x hx fun _ => Connection.shut_release _ rfl

theorem listeners_cut (peer : Option Nat) (n : Network) : (n.cut peer).listeners = n.listeners := by
  cases peer with
  | none => rfl
  | some x => rfl

def razed (peer : Option Nat) (path : String) (l : Nat) (n : Network) : Network :=
  (closeListener l ((n.cut peer).cleared path)).state

theorem Owns.cut {path : String} {l : Nat} (h : n.Owns path l) (peer : Option Nat) :
    (n.cut peer).Owns path l := h.congr (lasts_cut peer n).directories (lasts_cut peer n).entries

theorem entryAt_razed {path : String} {l : Nat} (h : n.Owns path l) (peer : Option Nat) :
    (n.razed peer path l).entryAt path = none :=
  (entryAt_congr rfl rfl path).trans (entryAt_cleared (h.cut peer))

theorem shelters_razed {path' : String} {l m : Nat} (h : n.Owns path' m) (hne : m ≠ l)
    (peer : Option Nat) (path : String) : Shelters path l n (n.razed peer path' m) :=
  (((lasts_cut peer n).shelters (grows_cut peer n) path l).trans
    (shelters_cleared (h.cut peer) hne path)).trans (shelters_closeListener _ path hne)

end Socket.Network

namespace Channel.Hub

def reseat (i : Nat) (seat : Seat) (n : Network) (h : Hub) : Hub :=
  { network := n, channels := h.channels.modify i fun c => { c with seat } }

def renet (n : Network) (h : Hub) : Hub := { h with network := n }

def accept (i : Nat) : Action Hub (Option Nat) :=
  withChannel i fun c => inNetwork (Network.accept c.listener)

variable {h : Hub} {i j x : Nat} {c : Listening} {seat : Seat} {n : Network}

@[simp] theorem network_reseat : (h.reseat i seat n).network = n := rfl

@[simp] theorem network_renet : (h.renet n).network = n := rfl

theorem channel_reseat (hc : h.channels[i]? = some c) :
    (h.reseat i seat n).channels[i]? = some { c with seat } := by
  rw [reseat, List.getElem?_modify_eq, hc]
  rfl

theorem channel_reseat_ne (hij : i ≠ j) :
    (h.reseat i seat n).channels[j]? = h.channels[j]? := List.getElem?_modify_ne _ _ hij

/-- What is done at a channel, or outside of the channels, spares the other channels. -/
structure Spares (i : Nat) (h h' : Hub) : Prop where
  others : ∀ j, j ≠ i → h'.channels[j]? = h.channels[j]?
  grows : h.network.Grows h'.network

theorem Spares.refl (i : Nat) (h : Hub) : Spares i h h := ⟨fun _ _ => rfl, Network.Grows.refl _⟩

theorem spares_renet (i : Nat) (hn : h.network.Grows n) : Spares i h (h.renet n) :=
  ⟨fun _ _ => rfl, hn⟩

theorem spares_reseat (hn : h.network.Grows n) : Spares i h (h.reseat i seat n) :=
  ⟨fun _ hj => channel_reseat_ne fun hij => hj hij.symm, hn⟩

theorem seatOf_of_channel (hc : h.channels[i]? = some c) : h.seatOf i = some c.seat := by
  rw [seatOf, hc]
  rfl

theorem withChannel_of_some {α : Type} (hc : h.channels[i]? = some c)
    (act : Listening → Action Hub α) : withChannel i act h = act c h := by
  rw [withChannel, bind_of_ok (get_apply h), hc]
  rfl

theorem withChannel_of_none {α : Type} (hc : h.channels[i]? = none) (act : Listening → Action Hub α) :
    withChannel i act h = ⟨.error .notConnected, h, []⟩ := by
  rw [withChannel, bind_of_ok (get_apply h), hc]
  rfl

theorem inNetwork_apply {α : Type} (act : Action Network α) (h : Hub) :
    inNetwork act h = ⟨(act h.network).result, h.renet (act h.network).state,
      (act h.network).events⟩ := rfl

theorem offer_apply (hc : h.channels[i]? = some c) : offer i h =
    match c.seat.offer with
    | .ok seat => ⟨.ok (), h.reseat i seat h.network, []⟩
    | .error e => ⟨.error e, h, []⟩ := by
  rw [offer, withChannel_of_some hc]
  cases c.seat.offer with
  | ok seat => rfl
  | error e => rfl

theorem accept_of_channel (hc : h.channels[i]? = some c) : accept i h =
    match h.network.queueAt c.listener with
    | [] => ⟨.ok none, h, []⟩
    | x :: _ => ⟨.ok (some x), h.renet (h.network.served c.listener), []⟩ := by
  rw [accept, withChannel_of_some hc, inNetwork_apply, Network.accept_apply]
  cases h.network.queueAt c.listener with
  | nil => rfl
  | cons x r => rfl

theorem welcome_of_closed (hc : h.channels[i]? = some c) (hclosed : c.seat.state = .closed)
    (x : Nat) : welcome i x h =
      ⟨.error (.invalidState "accept" .closed), h.renet (h.network.cut (some x)), []⟩ := by
  have htake : c.seat.take x = .error (.invalidState "accept" .closed) := if_pos hclosed
  rw [welcome, withChannel_of_some hc, htake]
  rfl

theorem welcome_of_open (hc : h.channels[i]? = some c) (hopen : c.seat.state ≠ .closed) (x : Nat) :
    welcome i x h = ⟨.ok x,
      h.reseat i ⟨.connected, some x⟩ (Network.adjust x (·.share .server) h.network).state,
      [⟨.debug, target, "Peer connected", [("channel", c.name.text)]⟩]⟩ := by
  have htake : c.seat.take x = .ok ⟨.connected, some x⟩ := if_neg hopen
  rw [welcome, withChannel_of_some hc, htake]
  rfl

theorem eq_of_welcome {y : Nat} (h' : (welcome i x h).result = .ok y) : y = x := by
  cases hc : h.channels[i]? with
  | none =>
    rw [welcome, withChannel, bind_of_ok (get_apply h), hc] at h'
    cases h'
  | some c =>
    by_cases hclosed : c.seat.state = .closed
    · rw [welcome_of_closed hc hclosed] at h'
      cases h'
    · rw [welcome_of_open hc hclosed] at h'
      cases h'
      rfl

theorem expel_apply (s : Seat) (h : Hub) :
    expel s h = ⟨.ok (), h.renet (h.network.cut s.peer), []⟩ := by
  rw [expel]
  cases s.peer with
  | none => rfl
  | some x => rfl

theorem disconnect_of_holds (hc : h.channels[i]? = some c) (hpeer : c.seat.state.holdsPeer = true) :
    disconnect i h = ⟨.ok (), h.reseat i ⟨.disconnected, none⟩ (h.network.cut c.seat.peer),
      [⟨.debug, target, "Peer disconnected", [("channel", c.name.text)]⟩]⟩ := by
  rw [disconnect, withChannel_of_some hc, Seat.leave, if_pos hpeer, ofExcept_ok, pure_bind,
    bind_of_ok (expel_apply c.seat h)]
  rfl

theorem disconnect_of_vacant (hc : h.channels[i]? = some c)
    (hpeer : ¬ c.seat.state.holdsPeer = true) :
    disconnect i h = ⟨.error (.invalidState "disconnect" c.seat.state), h, []⟩ := by
  rw [disconnect, withChannel_of_some hc, Seat.leave, if_neg hpeer]
  rfl

theorem markBroken_apply (hc : h.channels[i]? = some c) :
    markBroken i h = ⟨.ok (), h.reseat i c.seat.spoil h.network, []⟩ := by
  rw [markBroken, withChannel_of_some hc]
  rfl

theorem isConnected_apply (hc : h.channels[i]? = some c) :
    ∃ found n, isConnected i h = ⟨.ok found, h.renet n, []⟩ ∧
      h.network.Grows n ∧ h.network.Lasts n := by
  have hrest : ∃ found n, (pure false : Action Hub Bool) h = ⟨.ok found, h.renet n, []⟩ ∧
      h.network.Grows n ∧ h.network.Lasts n :=
    ⟨false, h.network, rfl, Network.Grows.refl _, Network.Lasts.refl _⟩
  rw [isConnected, withChannel_of_some hc]
  cases c.seat.state with
  | connected =>
    cases c.seat.peer with
    | none => exact hrest
    | some x =>
      have hprobe := inNetwork_apply (Network.probe x .server) h
      rw [Network.probe, Network.onConnection_apply] at hprobe
      exact ⟨_, _, hprobe, Network.grows_adjust x fun k hk => (k.shut_probe .server).trans hk,
        Network.lasts_adjust x _ h.network⟩
  | _ => exact hrest

theorem close_of_closed (hc : h.channels[i]? = some c) (hclosed : c.seat.state = .closed) :
    close i h = ⟨.ok (), h, []⟩ := by
  rw [close, withChannel_of_some hc, if_pos hclosed]
  rfl

theorem close_of_open (hc : h.channels[i]? = some c) (hopen : c.seat.state ≠ .closed) :
    ∃ es, close i h = ⟨.ok (),
      h.reseat i .close ((h.network.cut c.seat.peer).cleared c.name.endpointPath), es⟩ := by
  have hset : setSeat i .close (h.renet (h.network.cut c.seat.peer)) =
      ⟨.ok (), h.reseat i .close (h.network.cut c.seat.peer), []⟩ := rfl
  rw [close, withChannel_of_some hc, if_neg hopen, bind_of_ok (expel_apply c.seat h),
    bind_of_ok hset, bind_of_ok (get_apply _), network_reseat, Network.cleared]
  cases (h.network.cut c.seat.peer).remove c.name.endpointPath with
  | ok n => exact ⟨_, rfl⟩
  | error e =>
    cases e with
    | noEntry => exact ⟨_, rfl⟩
    | _ => exact ⟨_, rfl⟩

theorem close_result (hc : h.channels[i]? = some c) : (close i h).result = .ok () := by
  by_cases hclosed : c.seat.state = .closed
  · rw [close_of_closed hc hclosed]
  · obtain ⟨es, hclose⟩ := close_of_open hc hclosed
    rw [hclose]

theorem drop_apply (hc : h.channels[i]? = some c) :
    (drop i h).result = .ok () ∧ (drop i h).state = (close i h).state.renet
      (Network.closeListener c.listener (close i h).state.network).state := by
  obtain ⟨hresult, hstate⟩ := @bind_of_result _ _ _ (close i)
    (fun _ => inNetwork (Network.closeListener c.listener)) h () (close_result hc)
  rw [drop, withChannel_of_some hc, hresult, hstate]
  exact ⟨rfl, rfl⟩

theorem drop_of_open (hc : h.channels[i]? = some c) (hopen : c.seat.state ≠ .closed) :
    (drop i h).state = h.reseat i .close
      (h.network.razed c.seat.peer c.name.endpointPath c.listener) := by
  obtain ⟨es, hclose⟩ := close_of_open hc hopen
  rw [(drop_apply hc).2, hclose]
  rfl

def settle (name : Name) : Action Hub Nat := do
  let listener ← inNetwork (Network.bind name.socketPath)
  say .info "Channel listening" [("channel", name.text), ("path", name.socketPath)]
  let h ← Action.get
  .set { h with channels := h.channels ++ [{ name, listener }] }
  return h.channels.length

theorem listen_eq_settle (name : Name) (h : Hub) :
    (listen name h).result = (settle name (h.renet (h.network.cleared name.socketPath))).result ∧
      (listen name h).state =
        (settle name (h.renet (h.network.cleared name.socketPath))).state := by
  have hsay : ∀ fields, say .debug "Removing stale socket" fields h =
      ⟨.ok (), h, [⟨.debug, target, "Removing stale socket", fields⟩]⟩ := fun _ => rfl
  have hremove := inNetwork_apply
    (.modify fun n => (n.remove name.socketPath).toOption.getD n) h
  rw [modify_apply] at hremove
  rw [listen, bind_of_ok (get_apply h)]
  dsimp only
  split
  · rw [bind_of_ok (hsay _), bind_of_ok hremove]
    exact ⟨rfl, rfl⟩
  · next hnobody =>
    rw [Network.exists?, Bool.not_eq_true, Option.isSome_eq_false_iff, Option.isNone_iff_eq_none]
      at hnobody
    have hsame : h.network.cleared name.socketPath = h.network := by
      rw [Network.cleared, Network.remove, hnobody]
      rfl
    rw [hsame]
    exact ⟨rfl, rfl⟩

def founded (name : Name) (place : List String) (h : Hub) : Hub :=
  { network := h.network.bound place
    channels := h.channels ++ [{ name, listener := h.network.listeners.length }] }

/-- What stood at the path of a new channel has gone, whether or not the channel could be opened. -/
theorem listen_cases (name : Name) (h : Hub) :
    (∃ e, (listen name h).result = .error e ∧
      (listen name h).state = h.renet (h.network.cleared name.socketPath)) ∨
    ∃ place, (∀ m, Network.checkPath name.socketPath m = ⟨.ok (), m, []⟩) ∧
      h.network.locate name.socketPath = some place ∧
      (h.network.cleared name.socketPath).entryAt name.socketPath = none ∧
      (listen name h).result = .ok h.channels.length ∧
      (listen name h).state = (h.renet (h.network.cleared name.socketPath)).founded name place := by
  obtain ⟨hresult, hstate⟩ := listen_eq_settle name h
  rw [hresult, hstate]
  have hbind := inNetwork_apply (Network.bind name.socketPath)
    (h.renet (h.network.cleared name.socketPath))
  rcases Network.bind_cases name.socketPath (h.network.cleared name.socketPath) with
    ⟨e, herror⟩ | ⟨place, hfit, hplace, hfree, hok⟩
  · rw [network_renet, herror] at hbind
    refine .inl ⟨e, ?_⟩
    rw [settle, bind_of_error hbind]
    exact ⟨rfl, rfl⟩
  · rw [network_renet, hok] at hbind
    refine .inr ⟨place, hfit, ?_, hfree, ?_⟩
    · rw [← hplace]
      exact (Network.locate_congr (Network.cleared_fields _ _).1 _).symm
    · rw [settle, bind_of_ok hbind]
      exact ⟨rfl, rfl⟩

theorem listen_of_free {name : Name} {place : List String}
    (hfit : ∀ m, Network.checkPath name.socketPath m = ⟨.ok (), m, []⟩)
    (hplace : h.network.locate name.socketPath = some place)
    (hfree : h.network.entryAt name.socketPath = none) :
    (listen name h).result = .ok h.channels.length ∧
      (listen name h).state = h.founded name place := by
  have hnobody : ¬ h.network.exists? name.socketPath = true := by
    rw [Network.exists?, hfree]
    exact Bool.false_ne_true
  have hbind := inNetwork_apply (Network.bind name.socketPath) h
  rw [Network.bind_of_free hfit hplace hfree] at hbind
  rw [listen, bind_of_ok (get_apply h)]
  dsimp only
  rw [if_neg hnobody]
  exact ⟨congrArg Outcome.result (bind_of_ok hbind), congrArg Outcome.state (bind_of_ok hbind)⟩

/-- A channel that was just opened: nobody has the seat. -/
structure Opened (h : Hub) (i : Nat) (c : Listening) : Prop where
  channel : h.channels[i]? = some c
  vacant : c.seat = {}
  queued : h.network.Queued c.listener

/-- A channel that was opened comes after the others. It owns its socket, and nobody has come yet. -/
theorem listen_of_ok {name : Name} (hopen : (listen name h).result = .ok i) :
    i = h.channels.length ∧ ∃ l n,
      (listen name h).state = { network := n, channels := h.channels ++ [{ name, listener := l }] } ∧
      (n.Owns name.socketPath l ∧ n.listens l = true ∧ n.queueAt l = []) ∧
        Network.Beside l h.network n := by
  let n := h.network.cleared name.socketPath
  obtain ⟨hresult, hstate⟩ := listen_eq_settle name h
  obtain ⟨hdirectories, hlisteners⟩ := Network.cleared_fields name.socketPath h.network
  rw [hresult] at hopen
  rw [hstate]
  have hbind := inNetwork_apply (Network.bind name.socketPath) (h.renet n)
  cases hl : (Network.bind name.socketPath (h.renet n).network).result with
  | error e =>
    rw [hl] at hbind
    rw [settle, bind_of_error hbind] at hopen
    cases hopen
  | ok l =>
    have howns := Network.owns_of_bind hl
    have hbeside := Network.beside_of_bind hl hdirectories hlisteners
    rw [hl] at hbind
    rw [settle, bind_of_ok hbind] at hopen ⊢
    cases hopen
    exact ⟨rfl, l, _, rfl, howns, hbeside⟩

theorem opened_of_listen {name : Name} (hopen : (listen name h).result = .ok i) :
    ∃ l, (listen name h).state.Opened i { name, listener := l } := by
  obtain ⟨rfl, l, n, hstate, ⟨-, -, hqueue⟩, -⟩ := listen_of_ok hopen
  rw [hstate]
  exact ⟨l, List.getElem?_concat_length, rfl, Network.queued_of_nil hqueue⟩

end Channel.Hub

end RemoteAgent
