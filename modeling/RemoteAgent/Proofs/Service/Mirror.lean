import RemoteAgent.Proofs.Channel.Hub
import RemoteAgent.Proofs.Service.Loop

/-! A gate is a channel of a hub. Whatever is done to both, they are in the same state with the same
peer, the operations succeed or fail alike, and the connections that the gate has cut off are shut
down. -/

namespace RemoteAgent

open RemoteAgent.Action

namespace Channel.Seat

variable {f : Nat → Option Nat} {s : Seat}

def via (f : Nat → Option Nat) (s : Seat) : Seat := ⟨s.state, s.peer.bind f⟩

theorem offer_via : (s.via f).offer = s.offer.map (·.via f) := by
  obtain ⟨state, peer⟩ := s
  cases state <;> rfl

theorem leave_via : (s.via f).leave = s.leave.map (·.via f) := by
  rw [leave, leave]
  by_cases hpeer : s.state.holdsPeer = true
  · rw [if_pos hpeer]
    exact if_pos hpeer
  · rw [if_neg hpeer]
    exact if_neg hpeer

theorem spoil_via : (s.via f).spoil = s.spoil.via f := by
  rw [spoil, spoil]
  by_cases hconnected : s.state = .connected
  · rw [if_pos hconnected]
    exact if_pos hconnected
  · rw [if_neg hconnected]
    exact if_neg hconnected

theorem peer_of_offer {s' : Seat} (h : s.offer = .ok s') : s'.peer = s.peer := by
  rw [offer] at h
  split at h
  · cases h
    rfl
  · cases h
    rfl
  · cases h

theorem peer_spoil : s.spoil.peer = s.peer := by
  rw [spoil]
  split
  · rfl
  · rfl

end Channel.Seat

namespace Service

open Channel Socket

inductive Use where
  | offer
  | take (connection : Nat)
  | disconnect
  | markBroken
  | close

namespace Use

def onGate : Use → Action Gate Unit
  | offer => Gate.offer
  | take _ => Gate.take
  | disconnect => Gate.disconnect
  | markBroken => Gate.markBroken
  | close => Gate.suffer [.close]

def onHub (i : Nat) : Use → Action Hub Unit
  | offer => Hub.offer i
  | take connection => do let _ ← Hub.welcome i connection
  | disconnect => Hub.disconnect i
  | markBroken => Hub.markBroken i
  | close => Hub.close i

def peers (ps : List Nat) : Use → List Nat
  | take connection => ps ++ [connection]
  | _ => ps

def Within (count : Nat) : Use → Prop
  | take connection => connection < count
  | _ => True

def inTurn {σ : Type} (act : Use → Action σ Unit) : List Use → Action σ (List (Except Error Unit))
  | [] => pure []
  | u :: r => do
    let given ← (act u).attempt
    let later ← inTurn act r
    return given :: later

theorem inTurn_cons {σ : Type} (act : Use → Action σ Unit) (u : Use) (us : List Use) (s : σ) :
    (inTurn act (u :: us) s).result =
        (inTurn act us (act u s).state).result.map ((act u s).result :: ·) ∧
      (inTurn act (u :: us) s).state = (inTurn act us (act u s).state).state := by
  rw [inTurn, bind_of_ok (attempt_apply (act u) s)]
  cases hlater : inTurn act us (act u s).state with
  | mk r t es =>
    cases r with
    | ok later =>
      rw [bind_of_ok hlater]
      exact ⟨rfl, rfl⟩
    | error e =>
      rw [bind_of_error hlater]
      exact ⟨rfl, rfl⟩

end Use

/-- The channel is where the gate is; `ps` are the connections behind the peers of the gate. -/
structure Mirrors (ps : List Nat) (h : Hub) (i : Nat) (g : Gate) : Prop where
  seat : h.seatOf i = some (g.seat.via (ps[·]?))
  held : ∀ k, g.seat.peer = some k → k < ps.length
  count : ps.length = g.accepted
  there : ∀ x ∈ ps, x < h.network.connections.length
  cut : ∀ k ∈ g.cut, ∃ x, ps[k]? = some x ∧ h.network.isShut x = true

/-- The seat of a channel was given up; the connection that held it is shut down. -/
structure Emptied (h h' : Hub) (i : Nat) (state : State) (peer : Option Nat) : Prop where
  seat : h'.seatOf i = some ⟨state, none⟩
  onward : h.network.Onward h'.network
  shut : ∀ x, peer = some x → x < h.network.connections.length → h'.network.isShut x = true

section Hub

variable {h h' h'' : Hub} {i : Nat} {c : Listening} {state : State} {peer : Option Nat}

theorem seatOf_setSeat (hc : h.channels[i]? = some c) (seat : Seat) :
    (Hub.setSeat i seat h).state.seatOf i = some seat := by
  show ((h.channels.modify i fun c => { c with seat })[i]?).map _ = some seat
  rw [List.getElem?_modify_eq, hc]
  rfl

theorem emptied_reseat {n : Network} (hc : h.channels[i]? = some c)
    (hn : (h.network.cut c.seat.peer).Onward n) (state : State) :
    Emptied h (h.reseat i ⟨state, none⟩ n) i state c.seat.peer := by
  refine ⟨Hub.seatOf_of_channel (Hub.channel_reseat hc),
    (Network.onward_cut c.seat.peer h.network).trans hn, fun x hx hlt => hn.shut x ?_⟩
  rw [hx]
  exact Network.isShut_cut hlt

theorem hub_disconnect_of_holds (hc : h.channels[i]? = some c)
    (hpeer : c.seat.state.holdsPeer = true) :
    (Hub.disconnect i h).result = .ok () ∧
      Emptied h (Hub.disconnect i h).state i .disconnected c.seat.peer := by
  rw [Hub.disconnect_of_holds hc hpeer]
  exact ⟨rfl, emptied_reseat hc (Network.onward_of_connections rfl) _⟩

theorem hub_close_of_open (hc : h.channels[i]? = some c) (hopen : c.seat.state ≠ .closed) :
    (Hub.close i h).result = .ok () ∧ Emptied h (Hub.close i h).state i .closed c.seat.peer := by
  obtain ⟨es, hclose⟩ := Hub.close_of_open hc hopen
  rw [hclose]
  exact ⟨rfl, emptied_reseat hc (Network.onward_cleared _ _) _⟩

end Hub

structure Agree (u : Use) (ps : List Nat) (h : Hub) (i : Nat) (g : Gate) : Prop where
  result : (u.onHub i h).result = (u.onGate g).result
  onward : h.network.Onward (u.onHub i h).state.network
  mirrors : Mirrors (u.peers ps) (u.onHub i h).state i (u.onGate g).state

section Mirrors

variable {ps : List Nat} {h h' : Hub} {i x : Nat} {g : Gate} {u : Use} {us : List Use}

theorem Mirrors.exists_channel (hm : Mirrors ps h i g) :
    ∃ c, h.channels[i]? = some c ∧ c.seat = g.seat.via (ps[·]?) := Option.map_eq_some_iff.1 hm.seat

theorem Mirrors.reseat {seat : Seat} (hm : Mirrors ps h i g) (hpeer : seat.peer = g.seat.peer) :
    Mirrors ps (Hub.setSeat i (seat.via (ps[·]?)) h).state i { g with seat } := by
  obtain ⟨c, hc, -⟩ := hm.exists_channel
  exact ⟨seatOf_setSeat hc _, fun k hk => hm.held k (hpeer ▸ hk), hm.count, hm.there, hm.cut⟩

theorem Mirrors.via_concat (hm : Mirrors ps h i g) :
    g.seat.via ((ps ++ [x])[·]?) = g.seat.via (ps[·]?) := by
  rw [Seat.via, Seat.via]
  cases hpeer : g.seat.peer with
  | none => rfl
  | some k => exact congrArg (Seat.mk g.seat.state) (List.getElem?_append_left (hm.held k hpeer))

theorem Mirrors.congr {g' : Gate} (hm : Mirrors ps h i g) (hseat : g'.seat = g.seat)
    (haccepted : g'.accepted = g.accepted) (hcut : g'.cut = g.cut) : Mirrors ps h i g' :=
  ⟨hseat ▸ hm.seat, hseat ▸ hm.held, haccepted ▸ hm.count, hm.there, hcut ▸ hm.cut⟩

theorem Mirrors.record {entries : List Entry} (hm : Mirrors ps h i g) :
    Mirrors ps h i { g with entries } := hm.congr rfl rfl rfl

theorem Mirrors.vacate {state : State} (hm : Mirrors ps h i g)
    (he : Emptied h h' i state (g.seat.peer.bind (ps[·]?))) :
    Mirrors ps h' i (g.vacate ⟨state, none⟩) := by
  refine ⟨he.seat, fun k hk => (by cases hk), hm.count,
    fun x hx => he.onward.length ▸ hm.there x hx, fun k hk => ?_⟩
  rcases List.mem_append.1 hk with hk | hk
  · obtain ⟨x, hx, hshut⟩ := hm.cut k hk
    exact ⟨x, hx, he.onward.shut x hshut⟩
  · have hpeer : g.seat.peer = some k := Option.mem_toList.1 hk
    obtain ⟨x, hx⟩ : ∃ x, ps[k]? = some x := ⟨_, List.getElem?_eq_getElem (hm.held k hpeer)⟩
    refine ⟨x, hx, he.shut x ?_ (hm.there x (List.mem_of_getElem? hx))⟩
    rw [hpeer]
    exact hx

theorem agree_of_eq {r : Except Error Unit} {es es' : List Log.Event} {g' : Gate}
    (hhub : u.onHub i h = ⟨r, h', es⟩) (hgate : u.onGate g = ⟨r, g', es'⟩)
    (honward : h.network.Onward h'.network) (hm : Mirrors (u.peers ps) h' i g') :
    Agree u ps h i g := by
  refine ⟨?_, ?_, ?_⟩
  · rw [hhub, hgate]
  · rw [hhub]
    exact honward
  · rw [hhub, hgate]
    exact hm

theorem agree_disconnect (hm : Mirrors ps h i g) : Agree .disconnect ps h i g := by
  obtain ⟨c, hc, hseat⟩ := hm.exists_channel
  by_cases hpeer : g.state.holdsPeer = true
  · obtain ⟨hresult, hemptied⟩ := hub_disconnect_of_holds hc (by rw [hseat]; exact hpeer)
    rw [hseat] at hemptied
    have hgate := Gate.disconnect_of_holds hpeer
    exact ⟨hresult.trans (congrArg Outcome.result hgate).symm, hemptied.onward,
      congrArg Outcome.state hgate ▸ hm.record.vacate hemptied⟩
  · have hhub : Hub.disconnect i h = ⟨.error (.invalidState "disconnect" g.state), h, []⟩ := by
      have hleave : g.seat.leave = .error (.invalidState "disconnect" g.state) := if_neg hpeer
      rw [Hub.disconnect, Hub.withChannel_of_some hc, hseat, Seat.leave_via, hleave]
      rfl
    have hgate := Gate.disconnect_of_vacant hpeer
    exact agree_of_eq hhub hgate (Network.onward_of_connections rfl) hm.record

theorem agree_close (hm : Mirrors ps h i g) : Agree .close ps h i g := by
  obtain ⟨c, hc, hseat⟩ := hm.exists_channel
  have hgate : Gate.suffer [.close] g = ⟨.ok (), g.intrude .close, []⟩ := rfl
  rw [Gate.intrude] at hgate
  by_cases hclosed : g.state = .closed
  · have hhub : Hub.close i h = ⟨.ok (), h, []⟩ := by
      rw [Hub.close, Hub.withChannel_of_some hc, if_pos (by rw [hseat]; exact hclosed)]
      rfl
    rw [if_pos hclosed] at hgate
    exact agree_of_eq hhub hgate (Network.onward_of_connections rfl) hm
  · obtain ⟨hresult, hemptied⟩ := hub_close_of_open hc (by rw [hseat]; exact hclosed)
    rw [hseat] at hemptied
    rw [if_neg hclosed] at hgate
    exact ⟨hresult.trans (congrArg Outcome.result hgate).symm, hemptied.onward,
      congrArg Outcome.state hgate ▸ hm.vacate hemptied⟩

theorem agree_markBroken (hm : Mirrors ps h i g) : Agree .markBroken ps h i g := by
  obtain ⟨c, hc, hseat⟩ := hm.exists_channel
  have hgate : Gate.markBroken g =
      ⟨.ok (), { g with seat := g.seat.spoil, entries := g.entries ++ [.markedBroken] }, []⟩ := rfl
  have hhub : Hub.markBroken i h =
      ⟨.ok (), (Hub.setSeat i (g.seat.spoil.via (ps[·]?)) h).state, []⟩ := by
    rw [Hub.markBroken, Hub.withChannel_of_some hc, hseat, Seat.spoil_via]
    rfl
  exact agree_of_eq hhub hgate (Network.onward_of_connections rfl) (hm.reseat Seat.peer_spoil).record

theorem agree_offer (hm : Mirrors ps h i g) : Agree .offer ps h i g := by
  obtain ⟨c, hc, hseat⟩ := hm.exists_channel
  have hhub : Hub.offer i h = (Action.ofExcept (g.seat.offer.map (·.via (ps[·]?))) >>=
      fun seat => Hub.setSeat i seat) h := by
    rw [Hub.offer, Hub.withChannel_of_some hc, hseat, Seat.offer_via]
  have hgate : Gate.offer g =
      (Action.ofExcept g.seat.offer >>= fun seat => Action.set { g with seat }) g := by
    rw [Gate.offer, bind_of_ok (get_apply g)]
    rfl
  cases hoffer : g.seat.offer with
  | error e =>
    rw [hoffer] at hhub hgate
    exact agree_of_eq hhub hgate (Network.onward_of_connections rfl) hm
  | ok seat =>
    rw [hoffer] at hhub hgate
    exact agree_of_eq hhub hgate (Network.onward_of_connections rfl)
      (hm.reseat (Seat.peer_of_offer hoffer))

theorem Mirrors.concat (hm : Mirrors ps h i g) (hx : x < h.network.connections.length)
    (honward : h.network.Onward h'.network) {seat : Seat} {cut : List Nat}
    (hseat : h'.seatOf i = some (seat.via ((ps ++ [x])[·]?)))
    (hheld : ∀ k, seat.peer = some k → k = g.accepted ∨ g.seat.peer = some k)
    (hcut : ∀ k ∈ cut, k ∈ g.cut ∨ k = g.accepted ∧ h'.network.isShut x = true) :
    Mirrors (ps ++ [x]) h' i { g with seat, cut, accepted := g.accepted + 1 } := by
  have hlength : (ps ++ [x]).length = g.accepted + 1 := by rw [List.length_append, hm.count]; rfl
  refine ⟨hseat, fun k hk => ?_, hlength, fun y hy => ?_, fun k hk => ?_⟩
  · rw [hlength]
    rcases hheld k hk with hk | hk
    · exact hk ▸ Nat.lt_succ_self _
    · exact Nat.lt_succ_of_lt (hm.count ▸ hm.held k hk)
  · rw [honward.length]
    rcases List.mem_append.1 hy with hy | hy
    · exact hm.there y hy
    · exact List.mem_singleton.1 hy ▸ hx
  · rcases hcut k hk with hk | ⟨rfl, hshut⟩
    · obtain ⟨y, hy, hshut⟩ := hm.cut k hk
      have hlt : k < ps.length := (List.getElem?_eq_some_iff.1 hy).1
      exact ⟨y, (List.getElem?_append_left hlt).trans hy, honward.shut y hshut⟩
    · exact ⟨x, hm.count ▸ List.getElem?_concat_length, hshut⟩

theorem agree_take_of_closed (hm : Mirrors ps h i g) (hx : x < h.network.connections.length)
    (hclosed : g.state = .closed) : Agree (.take x) ps h i g := by
  obtain ⟨c, hc, hseat⟩ := hm.exists_channel
  have hstate : c.seat.state = g.state := by rw [hseat]; rfl
  have hhub : (Use.take x).onHub i h = _ :=
    bind_of_error (Hub.welcome_of_closed hc (hstate.trans hclosed) x)
  have honward : h.network.Onward (Network.adjust x (·.shutdown.release .server) h.network).state :=
    Network.onward_adjust x fun c _ => Connection.shut_release _ rfl
  have hshut : (Network.adjust x (·.shutdown.release .server) h.network).state.isShut x = true :=
    Network.isShut_adjust x hx fun c => Connection.shut_release _ rfl
  refine agree_of_eq hhub (Gate.take_of_closed hclosed) honward
    (hm.concat hx honward ?_ (fun k hk => .inr hk) fun k hk => ?_).record
  · exact hm.seat.trans (congrArg some hm.via_concat.symm)
  · rcases List.mem_append.1 hk with hk | hk
    · exact .inl hk
    · exact .inr ⟨List.mem_singleton.1 hk, hshut⟩

theorem agree_take_of_open (hm : Mirrors ps h i g) (hx : x < h.network.connections.length)
    (hopen : g.state ≠ .closed) : Agree (.take x) ps h i g := by
  obtain ⟨c, hc, hseat⟩ := hm.exists_channel
  have hstate : c.seat.state = g.state := by rw [hseat]; rfl
  have hhub : (Use.take x).onHub i h = _ :=
    bind_of_ok (Hub.welcome_of_open hc (fun h => hopen (hstate.symm.trans h)) x)
  have honward : h.network.Onward (Network.adjust x (·.share .server) h.network).state :=
    Network.onward_adjust x fun c hc => Connection.shut_share _ hc
  refine agree_of_eq hhub (Gate.take_of_open hopen) honward
    (hm.concat hx honward ?_ (fun k hk => ?_) fun k hk => .inl hk).record
  · have hlast : (ps ++ [x])[g.accepted]? = some x := hm.count ▸ List.getElem?_concat_length
    refine (@seatOf_setSeat { h with network := _ } i c hc _).trans ?_
    exact congrArg (fun peer => some (Seat.mk .connected peer)) hlast.symm
  · cases hk
    exact .inl rfl

theorem Mirrors.agree (hm : Mirrors ps h i g) (hu : u.Within h.network.connections.length) :
    Agree u ps h i g := by
  cases u with
  | offer => exact agree_offer hm
  | take x =>
    by_cases hclosed : g.state = .closed
    · exact agree_take_of_closed hm hu hclosed
    · exact agree_take_of_open hm hu hclosed
  | disconnect => exact agree_disconnect hm
  | markBroken => exact agree_markBroken hm
  | close => exact agree_close hm

theorem Mirrors.inTurn (hm : Mirrors ps h i g)
    (hus : ∀ u ∈ us, u.Within h.network.connections.length) :
    (Use.inTurn (Use.onHub i) us h).result = (Use.inTurn Use.onGate us g).result ∧
      Mirrors (us.foldl Use.peers ps) (Use.inTurn (Use.onHub i) us h).state i
        (Use.inTurn Use.onGate us g).state := by
  -- on the uses; every use leaves as many connections as there were
  induction us generalizing ps h g with
  | nil => exact ⟨rfl, hm⟩
  | cons u us ih =>
    obtain ⟨hresult, honward, hmirrors⟩ := hm.agree (hus u (List.mem_cons_self ..))
    obtain ⟨hresults, hend⟩ := ih hmirrors fun v hv =>
      honward.length ▸ hus v (List.mem_cons_of_mem _ hv)
    obtain ⟨hhub, hhub'⟩ := Use.inTurn_cons (Use.onHub i) u us h
    obtain ⟨hgate, hgate'⟩ := Use.inTurn_cons Use.onGate u us g
    rw [hhub, hhub', hgate, hgate', hresult, hresults]
    exact ⟨rfl, hend⟩

theorem mirrors_of_fresh (hseat : h.seatOf i = some {}) (name : String) :
    Mirrors [] h i { name } :=
  ⟨hseat, fun _ hk => (by cases hk), rfl, fun _ hx => (by cases hx), fun _ hk => (by cases hk)⟩

theorem Mirrors.stateOf (hm : Mirrors ps h i g) : h.stateOf i = g.state := by
  rw [Hub.stateOf, hm.seat]
  rfl

theorem inTurn_of_fresh (hseat : h.seatOf i = some {}) (name : String)
    (hus : ∀ u ∈ us, u.Within h.network.connections.length) :
    (Use.inTurn (Use.onHub i) us h).result = (Use.inTurn Use.onGate us { name }).result ∧
      (Use.inTurn (Use.onHub i) us h).state.stateOf i =
        (Use.inTurn Use.onGate us { name }).state.state := by
  obtain ⟨hresult, hmirrors⟩ := (mirrors_of_fresh hseat name).inTurn hus
  exact ⟨hresult, hmirrors.stateOf⟩

end Mirrors

section Brings

variable {f : Nat → Nat} {us : List Use} {ps : List Nat} {h : Hub} {i : Nat} {g g₁ g' : Gate}

theorem Use.inTurn_concat {σ : Type} (act : Use → Action σ Unit) (us : List Use) (u : Use) (s : σ) :
    (inTurn act (us ++ [u]) s).state = (act u (inTurn act us s).state).state := by
  induction us generalizing s with
  | nil => exact (inTurn_cons act u [] s).2
  | cons v us ih =>
    rw [List.cons_append, (inTurn_cons act v (us ++ [u]) s).2, (inTurn_cons act v us s).2]
    exact ih _

/-- These uses bring the channel of a hub to where a gate is. The connections that it takes
meanwhile are the next ones of `f`. -/
structure Tracks (f : Nat → Nat) (us : List Use) (ps : List Nat) (h : Hub) (i : Nat) (g : Gate) :
    Prop where
  within : ∀ u ∈ us, u.Within h.network.connections.length
  taken : ∃ n, us.foldl Use.peers ps = ps ++ (List.range' ps.length n).map f
  onward : h.network.Onward (Use.inTurn (Use.onHub i) us h).state.network
  mirrors : Mirrors (us.foldl Use.peers ps) (Use.inTurn (Use.onHub i) us h).state i g

theorem Tracks.use {u : Use} (ht : Tracks f us ps h i g)
    (hf : ∀ k, f k < h.network.connections.length) (hu : ∀ x, u = .take x → x = f g.accepted) :
    Tracks f (us ++ [u]) ps h i (u.onGate g).state := by
  have hwithin : u.Within h.network.connections.length := by
    cases u with
    | take x => exact hu x rfl ▸ hf _
    | _ => trivial
  obtain ⟨-, honward, hmirrors⟩ := ht.mirrors.agree (ht.onward.length.symm ▸ hwithin)
  refine ⟨?_, ?_, ?_, ?_⟩
  · exact List.forall_mem_append.2 ⟨ht.within, List.forall_mem_singleton.2 hwithin⟩
  · obtain ⟨n, htaken⟩ := ht.taken
    rw [List.foldl_concat, htaken]
    cases u with
    | take x =>
      have hcount : g.accepted = ps.length + n := by
        rw [← ht.mirrors.count, htaken, List.length_append, List.length_map, List.length_range']
      refine ⟨n + 1, ?_⟩
      rw [List.range'_1_concat, List.map_append, ← List.append_assoc, Use.peers, hu x rfl, hcount]
      rfl
    | _ => exact ⟨n, rfl⟩
  · rw [Use.inTurn_concat]
    exact ht.onward.trans honward
  · rw [Use.inTurn_concat, List.foldl_concat]
    exact hmirrors

/-- Uses of the channel of a hub lead from where the gate `g` is to where the vacant gate `g'` is. Each
of them comes out as it does at `g`, and every connection that the channel has had is shut down. -/
structure Vacated (f : Nat → Nat) (us : List Use) (ps : List Nat) (h : Hub) (i : Nat)
    (g g' : Gate) : Prop where
  result : (Use.inTurn (Use.onHub i) us h).result = (Use.inTurn Use.onGate us g).result
  state : (Use.inTurn (Use.onHub i) us h).state.stateOf i = g'.state
  taken : us.foldl Use.peers ps =
    ps ++ (List.range' ps.length (g'.accepted - g.accepted)).map f
  shut : ∀ x ∈ us.foldl Use.peers ps,
    (Use.inTurn (Use.onHub i) us h).state.network.isShut x = true

theorem Tracks.vacated (ht : Tracks f us ps h i g') (hm : Mirrors ps h i g)
    (hcut : ∀ k < g'.accepted, k ∈ g'.cut) : Vacated f us ps h i g g' := by
  obtain ⟨hwithin, ⟨n, htaken⟩, honward, hmirrors⟩ := ht
  refine ⟨(hm.inTurn hwithin).1, hmirrors.stateOf, ?_, fun x hx => ?_⟩
  · have hcount : ps.length + n = g'.accepted := by
      rw [← hmirrors.count, htaken, List.length_append, List.length_map, List.length_range']
    rw [htaken, ← hcount, hm.count, Nat.add_sub_cancel_left]
  · obtain ⟨k, hk⟩ := List.mem_iff_getElem?.1 hx
    have hlt : k < g'.accepted := hmirrors.count ▸ (List.getElem?_eq_some_iff.1 hk).1
    obtain ⟨y, hy, hshut⟩ := hmirrors.cut k (hcut k hlt)
    rw [hk] at hy
    cases hy
    exact hshut

def Brings (f : Nat → Nat) (g g' : Gate) : Prop :=
  ∃ us, ∀ ps h i, Mirrors ps h i g → (∀ k, f k < h.network.connections.length) →
    Tracks f us ps h i g'

theorem Brings.refl (f : Nat → Nat) (g : Gate) : Brings f g g :=
  ⟨[], fun _ _ _ hm _ => ⟨fun _ hu => (List.not_mem_nil hu).elim, ⟨0, (List.append_nil _).symm⟩,
    Network.onward_of_connections rfl, hm⟩⟩

theorem Brings.congr (hl : Brings f g g₁) (hseat : g'.seat = g₁.seat)
    (haccepted : g'.accepted = g₁.accepted) (hcut : g'.cut = g₁.cut) : Brings f g g' := by
  obtain ⟨us, hus⟩ := hl
  refine ⟨us, fun ps h i hm hf => ?_⟩
  obtain ⟨hwithin, htaken, honward, hmirrors⟩ := hus ps h i hm hf
  exact ⟨hwithin, htaken, honward, hmirrors.congr hseat haccepted hcut⟩

theorem Brings.use (hl : Brings f g g₁) {u : Use} (hu : ∀ x, u = .take x → x = f g₁.accepted) :
    Brings f g (u.onGate g₁).state := by
  obtain ⟨us, hus⟩ := hl
  exact ⟨us ++ [u], fun ps h i hm hf => (hus ps h i hm hf).use hf hu⟩

theorem Brings.intrude (hl : Brings f g g₁) (j : Intrusion) : Brings f g (g₁.intrude j) := by
  cases j with
  | disconnect =>
    have hdisconnect : Brings f g (Gate.disconnect g₁).state :=
      hl.use (u := .disconnect) fun x hx => by cases hx
    rw [Gate.intrude, Channel.Seat.leave]
    by_cases hpeer : g₁.seat.state.holdsPeer = true
    · rw [Gate.disconnect_of_holds hpeer] at hdisconnect
      rw [if_pos hpeer]
      exact hdisconnect.congr rfl rfl rfl
    · rw [if_neg hpeer]
      exact hl
  | close => exact hl.use (u := .close) fun x hx => by cases hx
  | stop => exact hl.congr rfl rfl rfl

theorem preserves_suffer (is : List Intrusion) : Preserves (Brings f g) (Gate.suffer is) := by
  intro g₁ hl
  show Brings f g (is.foldl _ g₁)
  induction is generalizing g₁ with
  | nil => exact hl
  | cons j is ih => exact ih _ (hl.intrude j)

theorem preserves_record (e : Entry) : Preserves (Brings f g) (Gate.record e) :=
  fun _ hl => hl.congr rfl rfl rfl

theorem preserves_finish (s : Served) : Preserves (Brings f g) (Gate.finish s) :=
  fun _ hl => hl.congr rfl rfl rfl

theorem preserves_markBroken : Preserves (Brings f g) Gate.markBroken :=
  fun _ hl => hl.use (u := .markBroken) fun _ hx => by cases hx

theorem preserves_disconnect : Preserves (Brings f g) Gate.disconnect :=
  fun _ hl => hl.use (u := .disconnect) fun _ hx => by cases hx

theorem preserves_wait (a : Arrival) : Preserves (Brings f g) (Gate.wait a) := by
  refine (preserves_suffer a.before).bind fun _ => ?_
  refine Preserves.bind (fun _ hl => hl.use (u := .offer) fun _ hx => by cases hx) fun _ => ?_
  refine Preserves.bind (fun _ hl => hl.congr rfl rfl rfl) fun _ => ?_
  refine (preserves_suffer a.blocked).bind fun _ => ?_
  split
  · exact (preserves_record .failed).bind fun _ => preserves_fail _
  · exact (preserves_record .closed).bind fun _ => (preserves_suffer _).bind fun _ => preserves_fail _
  · refine Preserves.bind (fun g₁ hl => hl.use (u := .take (f g₁.accepted)) fun x hx => ?_) fun _ => ?_
    · cases hx
      rfl
    · exact (preserves_tell _).bind fun _ => (preserves_suffer _).bind fun _ => preserves_pure _

def Desk.Along (f : Nat → Nat) (g : Gate) (d : Desk) : Prop := Brings f g d.gate

theorem Desk.preserves_inGate {α : Type} {act : Action Gate α} (h : Preserves (Brings f g) act) :
    Preserves (Along f g) (inGate act) := fun d hd => h d.gate hd

theorem Desk.preserves_inContext {α : Type} (act : Action Context α) :
    Preserves (Along f g) (inContext act) := fun _ hd => hd

theorem Desk.preserves_say (target : String) (level : Log.Level) (message : String)
    (fields : List (String × String)) : Preserves (Along f g) (say target level message fields) :=
  preserves_tell _

theorem Desk.preserves_hangUp (target : String) : Preserves (Along f g) (hangUp target) := by
  refine (preserves_inGate preserves_disconnect).attempt.bind fun r => ?_
  cases r with
  | ok _ => exact preserves_pure _
  | error e => exact preserves_say _ _ _ _

def Manner.Plain (m : Manner) : Prop :=
  ∀ f g a stream, Preserves (Desk.Along f g) (m.attend a stream)

variable {m : Manner} {d d' : Desk} {r : List Arrival}

theorem Manner.Plain.turn (hplain : m.Plain) (a : Arrival) :
    Preserves (Desk.Along f g) (m.turn a) := by
  refine (Desk.preserves_inGate (preserves_wait a)).attempt.bind fun given => ?_
  cases given with
  | error e =>
    refine Preserves.get_bind fun d _ => ?_
    dsimp only
    split
    · exact preserves_pure _
    · exact (Desk.preserves_say _ _ _ _).bind fun _ => preserves_pure _
  | ok stream =>
    refine Preserves.get_bind fun d _ => ?_
    split
    · refine (Desk.preserves_inGate preserves_disconnect).attempt.bind fun _ => ?_
      exact (Desk.preserves_inGate (preserves_finish _)).bind fun _ => preserves_pure _
    · exact (hplain f g a stream).bind fun _ => preserves_pure _

end Brings

end Service

end RemoteAgent
