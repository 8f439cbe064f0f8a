import RemoteAgent.Proofs.Channel.Hub
import RemoteAgent.Proofs.Socket.Places

/-! Whom a name reaches. The channels of a process are opened, closed and dropped in any order, and
names may come again. Who connects by the name of a channel gets there until something else is done
at its place: a channel is opened there, or another one that has been opened there goes. -/

namespace RemoteAgent

open RemoteAgent.Action Socket

namespace Channel.Hub

variable {h : Hub} {i j : Nat} {c d : Listening} {name : Name} {place : List String}

/-- What is done to the channels of a process, and by those who connect. -/
inductive Turn where
  | listen (name : Name)
  | close (i : Nat)
  | drop (i : Nat)
  | elsewhere (deed : Deed)

def turn (h : Hub) : Turn → Hub
  | .listen name => (listen name h).state
  | .close i => (close i h).state
  | .drop i => (drop i h).state
  | .elsewhere deed => h.renet (deed.onNetwork h.network)

def turns (ts : List Turn) (h : Hub) : Hub := ts.foldl turn h

/-- Who connects by the name of a channel comes to wait at that channel. -/
def Reached (h : Hub) (i : Nat) : Prop :=
  ∃ c x, h.channels[i]? = some c ∧ (connect c.name h).result = .ok x ∧
    (connect c.name h).state.network.queueAt c.listener = h.network.queueAt c.listener ++ [x]

def placeOf (h : Hub) (i : Nat) : Option (List String) :=
  (h.channels[i]?).bind fun c => h.network.locate c.name.endpointPath

def Intrudes (i : Nat) (h : Hub) : Turn → Prop
  | .listen name => h.network.locate name.socketPath = h.placeOf i
  | .close j => j ≠ i ∧ h.stateOf j ≠ .closed ∧ h.placeOf j = h.placeOf i
  | .drop j => j ≠ i ∧ h.stateOf j ≠ .closed ∧ h.placeOf j = h.placeOf i
  | .elsewhere _ => False

def Spared (i : Nat) : List Turn → Hub → Prop
  | [], _ => True
  | t :: ts, h => ¬ h.Intrudes i t ∧ Spared i ts (h.turn t)

structure Vacates (h : Hub) (i : Nat) (t : Turn) : Prop where
  others : ∀ path, h.network.locate path ≠ h.placeOf i →
    (h.turn t).network.entryAt path = h.network.entryAt path
  own : h.Reached i → ∃ c, h.channels[i]? = some c ∧
    ∀ path, h.network.locate path = h.placeOf i →
      h.network.entryAt path = some (.socket c.listener) ∧
        (h.turn t).network.entryAt path = none

section Turns

variable {n : Network}

structure Stands (h : Hub) (i : Nat) (c : Listening) (place : List String) : Prop where
  channel : h.channels[i]? = some c
  live : c.seat.state ≠ .closed
  alone : ∀ j d, h.channels[j]? = some d → d.listener = c.listener → j = i
  fit : ∀ m, Network.checkPath c.name.socketPath m = ⟨.ok (), m, []⟩
  placed : h.network.locate c.name.socketPath = some place
  free : place ∉ h.network.directories
  listens : h.network.listens c.listener = true

def HasSocket (h : Hub) (place : List String) (l : Nat) : Prop :=
  h.network.entries.lookup place = some (.socket l)

theorem Stands.placeOf (hs : h.Stands i c place) : h.placeOf i = some place := by
  rw [Hub.placeOf, hs.channel]
  exact hs.placed

theorem Stands.reached_iff (hs : h.Stands i c place) :
    h.Reached i ↔ h.HasSocket place c.listener := by
  rw [HasSocket, Network.owns_iff_connect hs.fit hs.placed hs.free hs.listens]
  refine ⟨fun ⟨c', x, hc, hreached⟩ => ?_, fun ⟨x, hreached⟩ => ⟨c, x, hs.channel, hreached⟩⟩
  cases hs.channel.symm.trans hc
  exact ⟨x, hreached⟩

theorem Stands.renet (hs : h.Stands i c place) (hd : n.directories = h.network.directories)
    (hl : n.listens c.listener = h.network.listens c.listener) : (h.renet n).Stands i c place :=
  ⟨hs.channel, hs.live, hs.alone, hs.fit, (Network.locate_congr hd _).trans hs.placed, hd ▸ hs.free,
    hl.trans hs.listens⟩

theorem listener_of_reseat {seat : Seat} (hd : (h.reseat j seat n).channels[i]? = some d) :
    ∃ d', h.channels[i]? = some d' ∧ d'.listener = d.listener := by
  by_cases hij : j = i
  · subst hij
    rw [reseat, List.getElem?_modify_eq] at hd
    obtain ⟨d', hd', rfl⟩ := Option.map_eq_some_iff.1 hd
    exact ⟨d', hd', rfl⟩
  · rw [channel_reseat_ne hij] at hd
    exact ⟨d, hd, rfl⟩

theorem Stands.reseat {seat : Seat} (hs : h.Stands i c place) (hj : j ≠ i)
    (hd : n.directories = h.network.directories)
    (hl : n.listens c.listener = h.network.listens c.listener) :
    (h.reseat j seat n).Stands i c place := by
  obtain ⟨-, -, -, -, hplaced, hfree, hlistens⟩ := hs.renet hd hl
  refine ⟨(channel_reseat_ne hj).trans hs.channel, hs.live, fun k d hk hsame => ?_, hs.fit, hplaced,
    hfree, hlistens⟩
  obtain ⟨d', hd', hlistener⟩ := listener_of_reseat hk
  exact hs.alone k d' hd' (hlistener.trans hsame)

theorem Stands.founded (hs : h.Stands i c place) (name : Name) (place' : List String) :
    (h.founded name place').Stands i c place ∧
      ((h.founded name place').HasSocket place c.listener ↔
        h.HasSocket place c.listener ∧ place ≠ place') := by
  have hlt := Network.lt_of_listens hs.listens
  have hi := (List.getElem?_eq_some_iff.1 hs.channel).1
  refine ⟨⟨(List.getElem?_append_left hi).trans hs.channel, hs.live, fun k d hk hsame => ?_, hs.fit,
    hs.placed, hs.free, ?_⟩, ?_⟩
  · rw [Hub.founded, List.getElem?_append] at hk
    split at hk
    · exact hs.alone k d hk hsame
    · rw [List.getElem?_singleton, Option.ite_none_right_eq_some, Option.some_inj] at hk
      rw [← hk.2] at hsame
      exact (Nat.ne_of_gt hlt hsame).elim
  · have hsame : (h.founded name place').network.listeners[c.listener]? =
        h.network.listeners[c.listener]? := List.getElem?_append_left hlt
    rw [Network.listens, hsame]
    exact hs.listens
  · rw [HasSocket, Hub.founded, Network.bound, lookup_cons_ite]
    split
    · next heq =>
      rw [Option.some_inj, Entry.socket.injEq]
      exact ⟨fun hl => (Nat.ne_of_gt hlt hl).elim, fun h => (h.2 heq).elim⟩
    · next hne => exact ⟨fun h => ⟨h, hne⟩, fun h => h.1⟩

theorem Stands.listen (hs : h.Stands i c place) (name : Name) :
    (listen name h).state.Stands i c place ∧
      ((listen name h).state.HasSocket place c.listener ↔
        h.HasSocket place c.listener ∧ h.network.locate name.socketPath ≠ some place) := by
  have hfields := Network.cleared_fields name.socketPath h.network
  have hcleared := hs.renet hfields.1 (n := h.network.cleared name.socketPath)
    (by rw [Network.listens, hfields.2, Network.listens])
  have hiff : (h.renet (h.network.cleared name.socketPath)).HasSocket place c.listener ↔ _ :=
    Network.lookup_cleared_iff name.socketPath c.listener hs.free
  rcases listen_cases name h with ⟨e, -, hstate⟩ | ⟨place', -, hplace', -, -, hstate⟩
  · rw [hstate]
    exact ⟨hcleared, hiff⟩
  · obtain ⟨hstands, hsocket⟩ := hcleared.founded name place'
    rw [hstate, hsocket, hiff, hplace']
    exact ⟨hstands, fun h => h.1, fun h => ⟨h, fun heq => h.2 (congrArg some heq.symm)⟩⟩

theorem Stands.close (hs : h.Stands i c place) (hj : j ≠ i) :
    (close j h).state.Stands i c place ∧
      ((close j h).state.HasSocket place c.listener ↔
        h.HasSocket place c.listener ∧ ¬ (h.stateOf j ≠ .closed ∧ h.placeOf j = some place)) := by
  cases hd : h.channels[j]? with
  | none =>
    have hclosed : h.stateOf j = .closed := by
      rw [stateOf, seatOf, hd]
      rfl
    rw [Hub.close, withChannel_of_none hd, hclosed]
    exact ⟨hs, fun h => ⟨h, fun h' => h'.1 rfl⟩, fun h => h.1⟩
  | some d =>
    have hstateOf : h.stateOf j = d.seat.state := by
      rw [stateOf, seatOf_of_channel hd]
      rfl
    by_cases hclosed : d.seat.state = .closed
    · rw [close_of_closed hd hclosed, hstateOf]
      exact ⟨hs, fun h => ⟨h, fun h' => h'.1 hclosed⟩, fun h => h.1⟩
    · obtain ⟨es, hclose⟩ := close_of_open hd hclosed
      have hlasts := Network.lasts_cut d.seat.peer h.network
      have hfields := Network.cleared_fields d.name.endpointPath (h.network.cut d.seat.peer)
      have hfree : place ∉ (h.network.cut d.seat.peer).directories := hlasts.directories ▸ hs.free
      have hiff := Network.lookup_cleared_iff d.name.endpointPath c.listener hfree
      rw [Network.locate_congr hlasts.directories, hlasts.entries] at hiff
      rw [hclose, hstateOf, Hub.placeOf, hd]
      refine ⟨hs.reseat hj (hfields.1.trans hlasts.directories) ?_, hiff.trans ?_⟩
      · rw [Network.listens, hfields.2, ← Network.listens]
        exact hlasts.listens c.listener
      · exact ⟨fun h => ⟨h.1, fun h' => h.2 h'.2⟩, fun h => ⟨h.1, fun h' => h.2 ⟨hclosed, h'⟩⟩⟩

theorem Stands.drop (hs : h.Stands i c place) (hj : j ≠ i) :
    (drop j h).state.Stands i c place ∧
      ((drop j h).state.HasSocket place c.listener ↔
        h.HasSocket place c.listener ∧ ¬ (h.stateOf j ≠ .closed ∧ h.placeOf j = some place)) := by
  cases hd : h.channels[j]? with
  | none =>
    have hsame : (Hub.drop j h).state = (Hub.close j h).state := by
      rw [Hub.drop, Hub.close, withChannel_of_none hd, withChannel_of_none hd]
    rw [hsame]
    exact hs.close hj
  | some d =>
    have hapart : d.listener ≠ c.listener := fun hsame => hj (hs.alone j d hd hsame)
    obtain ⟨hstands, hiff⟩ := hs.close hj
    rw [(drop_apply hd).2]
    exact ⟨hstands.renet rfl (Network.shelters_closeListener _ "" hapart).listens, hiff⟩

theorem stateOf_close (hc : h.channels[i]? = some c) : (close i h).state.stateOf i = .closed := by
  by_cases hclosed : c.seat.state = .closed
  · rw [close_of_closed hc hclosed, stateOf, seatOf_of_channel hc]
    exact hclosed
  · obtain ⟨es, hclose⟩ := close_of_open hc hclosed
    rw [hclose, stateOf, seatOf_of_channel (channel_reseat hc)]
    rfl

theorem stateOf_drop (hc : h.channels[i]? = some c) : (drop i h).state.stateOf i = .closed := by
  rw [(drop_apply hc).2]
  exact stateOf_close hc

theorem Stands.turn (hs : h.Stands i c place) (t : Turn) (hlive : (h.turn t).stateOf i ≠ .closed) :
    (h.turn t).Stands i c place ∧
      ((h.turn t).HasSocket place c.listener ↔
        h.HasSocket place c.listener ∧ ¬ h.Intrudes i t) := by
  cases t with
  | listen name =>
    obtain ⟨hstands, hiff⟩ := hs.listen name
    rw [Intrudes, hs.placeOf]
    exact ⟨hstands, hiff⟩
  | close j =>
    have hj : j ≠ i := by
      rintro rfl
      exact hlive (stateOf_close hs.channel)
    obtain ⟨hstands, hiff⟩ := hs.close hj
    rw [Intrudes, hs.placeOf]
    exact ⟨hstands, hiff.trans (and_congr_right' (not_congr (and_iff_right hj).symm))⟩
  | drop j =>
    have hj : j ≠ i := by
      rintro rfl
      exact hlive (stateOf_drop hs.channel)
    obtain ⟨hstands, hiff⟩ := hs.drop hj
    rw [Intrudes, hs.placeOf]
    exact ⟨hstands, hiff.trans (and_congr_right' (not_congr (and_iff_right hj).symm))⟩
  | elsewhere deed =>
    have hlasts := deed.lasts h.network
    refine ⟨hs.renet hlasts.directories (hlasts.listens c.listener), ?_⟩
    have hsame : (h.turn (.elsewhere deed)).HasSocket place c.listener ↔
        h.HasSocket place c.listener := by
      rw [HasSocket, Hub.turn, network_renet, hlasts.entries, HasSocket]
    exact hsame.trans ⟨fun h => ⟨h, False.elim⟩, fun h => h.1⟩

theorem channel_turn (t : Turn) (hc : h.channels[i]? = some c) :
    ∃ d, (h.turn t).channels[i]? = some d ∧ d.listener = c.listener ∧
      (c.seat.state = .closed → d.seat.state = .closed) := by
  have hstay : ∃ d, h.channels[i]? = some d ∧ d.listener = c.listener ∧
      (c.seat.state = .closed → d.seat.state = .closed) := ⟨c, hc, rfl, id⟩
  have hreseat : ∀ (j : Nat) (n : Network), ∃ d, (h.reseat j .close n).channels[i]? = some d ∧
      d.listener = c.listener ∧ (c.seat.state = .closed → d.seat.state = .closed) := by
    intro j n
    by_cases hj : j = i
    · subst hj
      exact ⟨_, channel_reseat hc, rfl, fun _ => rfl⟩
    · exact ⟨c, (channel_reseat_ne hj).trans hc, rfl, id⟩
  have hclose : ∀ j, ∃ d, (close j h).state.channels[i]? = some d ∧ d.listener = c.listener ∧
      (c.seat.state = .closed → d.seat.state = .closed) := by
    intro j
    cases hd : h.channels[j]? with
    | none =>
      rw [close, withChannel_of_none hd]
      exact hstay
    | some d =>
      by_cases hclosed : d.seat.state = .closed
      · rw [close_of_closed hd hclosed]
        exact hstay
      · obtain ⟨es, hclose⟩ := close_of_open hd hclosed
        rw [hclose]
        exact hreseat j _
  cases t with
  | listen name =>
    rw [turn]
    rcases listen_cases name h with ⟨e, -, hstate⟩ | ⟨place, -, -, -, -, hstate⟩
    · rw [hstate]
      exact hstay
    · rw [hstate]
      exact ⟨c, (List.getElem?_append_left (List.getElem?_eq_some_iff.1 hc).1).trans hc, rfl, id⟩
  | close j => exact hclose j
  | drop j =>
    rw [turn]
    cases hd : h.channels[j]? with
    | none =>
      rw [drop, withChannel_of_none hd]
      exact hstay
    | some d =>
      rw [(drop_apply hd).2]
      exact hclose j
  | elsewhere deed => exact hstay

theorem closed_turns (ts : List Turn) (hc : h.channels[i]? = some c)
    (hclosed : c.seat.state = .closed) : (turns ts h).stateOf i = .closed := by
  induction ts generalizing h c with
  | nil =>
    rw [turns, List.foldl_nil, stateOf, seatOf_of_channel hc]
    exact hclosed
  | cons t ts ih =>
    obtain ⟨d, hd, -, hstill⟩ := channel_turn t hc
    exact ih hd (hstill hclosed)

theorem Stands.turns (hs : h.Stands i c place) (ts : List Turn)
    (hlive : (turns ts h).stateOf i ≠ .closed) : (turns ts h).Stands i c place ∧
      ((turns ts h).HasSocket place c.listener ↔ h.HasSocket place c.listener ∧ Spared i ts h) := by
  induction ts generalizing h with
  | nil => exact ⟨hs, (and_iff_left trivial).symm⟩
  | cons t ts ih =>
    obtain ⟨d, hd, -, -⟩ := channel_turn t hs.channel
    have hnext : (h.turn t).stateOf i ≠ .closed := by
      intro hclosed
      rw [stateOf, seatOf_of_channel hd] at hclosed
      exact hlive (closed_turns ts hd hclosed)
    obtain ⟨hstands, hiff⟩ := hs.turn t hnext
    obtain ⟨hstands', hiff'⟩ := ih hstands hlive
    exact ⟨hstands', hiff'.trans ((and_congr_left' hiff).trans and_assoc)⟩

def Known (h : Hub) : Prop :=
  ∀ (j : Nat) (d : Listening), h.channels[j]? = some d → d.listener < h.network.listeners.length

theorem Known.renet (hk : h.Known) (hn : h.network.listeners.length ≤ n.listeners.length) :
    (h.renet n).Known := fun j d hd => Nat.lt_of_lt_of_le (hk j d hd) hn

theorem Known.founded (hk : h.Known) (name : Name) (place : List String) :
    (h.founded name place).Known := by
  intro j d hd
  have hlength : (h.founded name place).network.listeners.length =
      h.network.listeners.length + 1 := List.length_append ..
  rw [hlength]
  rw [Hub.founded, List.getElem?_append] at hd
  split at hd
  · exact Nat.lt_succ_of_lt (hk j d hd)
  · rw [List.getElem?_singleton, Option.ite_none_right_eq_some, Option.some_inj] at hd
    rw [← hd.2]
    exact Nat.lt_succ_self _

theorem Known.close (hk : h.Known) (i : Nat) : (close i h).state.Known := by
  cases hc : h.channels[i]? with
  | none =>
    rw [Hub.close, withChannel_of_none hc]
    exact hk
  | some c =>
    by_cases hclosed : c.seat.state = .closed
    · rw [close_of_closed hc hclosed]
      exact hk
    · obtain ⟨es, hclose⟩ := close_of_open hc hclosed
      rw [hclose]
      intro j d hd
      obtain ⟨d', hd', hlistener⟩ := listener_of_reseat hd
      have hsame : ((h.network.cut c.seat.peer).cleared c.name.endpointPath).listeners =
          h.network.listeners := by
        rw [(Network.cleared_fields _ _).2, Network.listeners_cut]
      rw [network_reseat, hsame, ← hlistener]
      exact hk j d' hd'

theorem Known.turn (hk : h.Known) (t : Turn) : (h.turn t).Known := by
  cases t with
  | listen name =>
    have hcleared := hk.renet (n := h.network.cleared name.socketPath)
      (by rw [(Network.cleared_fields _ _).2])
    rw [Hub.turn]
    rcases listen_cases name h with ⟨e, -, hstate⟩ | ⟨place, -, -, -, -, hstate⟩
    · rw [hstate]
      exact hcleared
    · rw [hstate]
      exact hcleared.founded name place
  | close i => exact hk.close i
  | drop i =>
    rw [Hub.turn]
    cases hc : h.channels[i]? with
    | none =>
      rw [Hub.drop, withChannel_of_none hc]
      exact hk
    | some c =>
      rw [(drop_apply hc).2]
      exact (hk.close i).renet (Nat.le_of_eq (List.length_set ..).symm)
  | elsewhere deed => exact hk.renet (Nat.le_of_eq (deed.length_listeners h.network).symm)

theorem known_turns (ts : List Turn) (hk : h.Known) : (turns ts h).Known := by
  induction ts generalizing h with
  | nil => exact hk
  | cons t ts ih => exact ih (hk.turn t)

theorem stands_of_listen (hk : h.Known) (hopen : (listen name h).result = .ok i) :
    ∃ c place, c.name = name ∧ (listen name h).state.Stands i c place ∧
      (listen name h).state.HasSocket place c.listener := by
  rcases listen_cases name h with ⟨e, herror, -⟩ | ⟨place, hfit, hplace, hnone, hresult, hstate⟩
  · rw [herror] at hopen
    cases hopen
  · rw [hresult] at hopen
    cases hopen
    rw [hstate]
    have hfields := Network.cleared_fields name.socketPath h.network
    have hplace' : (h.network.cleared name.socketPath).locate name.socketPath = some place :=
      (Network.locate_congr hfields.1 _).trans hplace
    obtain ⟨⟨-, place', hplaced, hfree, hsocket⟩, hlistens, -⟩ := Network.owns_of_bind
      (congrArg Outcome.result (Network.bind_of_free hfit hplace' hnone))
    rw [Network.bind_of_free hfit hplace' hnone] at hplaced hfree hsocket hlistens
    refine ⟨{ name, listener := (h.network.cleared name.socketPath).listeners.length }, place', rfl,
      ⟨List.getElem?_concat_length, State.noConfusion, fun j d hd hsame => ?_, hfit, hplaced, hfree,
        hlistens⟩, hsocket⟩
    rw [founded, List.getElem?_append] at hd
    split at hd
    · have hlt := hk j d hd
      rw [← hfields.2] at hlt
      exact (Nat.ne_of_lt hlt hsame).elim
    · next hge =>
      rw [List.getElem?_singleton, Option.ite_none_right_eq_some] at hd
      exact Nat.le_antisymm (Nat.le_of_sub_eq_zero hd.1) (Nat.le_of_not_lt hge)

theorem Stands.vacates_close (hs : h.Stands i c place) : h.Vacates i (.close i) := by
  obtain ⟨es, hclose⟩ := close_of_open hs.channel hs.live
  have hlasts := Network.lasts_cut c.seat.peer h.network
  have hplace : ∀ path, (h.network.cut c.seat.peer).locate path = h.network.locate path :=
    Network.locate_congr hlasts.directories
  have hentry : ∀ path, (h.network.cut c.seat.peer).entryAt path = h.network.entryAt path :=
    Network.entryAt_congr hlasts.directories hlasts.entries
  refine ⟨fun path hne => ?_, fun hreached => ⟨c, hs.channel, fun path heq => ?_⟩⟩
  · rw [hs.placeOf, ← hs.placed, ← hplace, ← hplace] at hne
    rw [Hub.turn, hclose, network_reseat, ← hentry]
    exact Network.entryAt_cleared_of_ne hne
  · have howns : h.network.Owns c.name.socketPath c.listener :=
      ⟨hs.fit, place, hs.placed, hs.free, hs.reached_iff.1 hreached⟩
    rw [hs.placeOf, ← hs.placed] at heq
    have hfields := Network.cleared_fields c.name.socketPath (h.network.cut c.seat.peer)
    have heq' : ((h.network.cut c.seat.peer).cleared c.name.socketPath).locate path =
        ((h.network.cut c.seat.peer).cleared c.name.socketPath).locate c.name.socketPath := by
      rw [Network.locate_congr hfields.1, Network.locate_congr hfields.1, hplace, hplace, heq]
    rw [Hub.turn, hclose, network_reseat, Network.entryAt_of_locate heq]
    exact ⟨howns.entryAt, (Network.entryAt_of_locate heq').trans
      (Network.entryAt_cleared (howns.cut c.seat.peer))⟩

theorem Stands.vacates_drop (hs : h.Stands i c place) : h.Vacates i (.drop i) := by
  have hclose := hs.vacates_close
  have hentry : ∀ path, (h.turn (.drop i)).network.entryAt path =
      (h.turn (.close i)).network.entryAt path := by
    intro path
    rw [Hub.turn, Hub.turn, (drop_apply hs.channel).2]
    exact Network.entryAt_congr rfl rfl path
  refine ⟨fun path hne => (hentry path).trans (hclose.others path hne), fun hreached => ?_⟩
  obtain ⟨c', hc', hown⟩ := hclose.own hreached
  exact ⟨c', hc', fun path heq => (hown path heq).imp_right (hentry path).trans⟩

theorem listen_of_owns {l : Nat} (h' : h.network.Owns name.socketPath l) :
    (listen name h).result = .ok h.channels.length := by
  obtain ⟨place, hplace, -⟩ := h'.place
  have hfields := Network.cleared_fields name.socketPath h.network
  have hplace' := (Network.locate_congr hfields.1 name.socketPath).trans hplace
  have hbind := inNetwork_apply (Network.bind name.socketPath)
    (h.renet (h.network.cleared name.socketPath))
  rw [network_renet, Network.bind_of_free h'.fit hplace' (Network.entryAt_cleared h')] at hbind
  rw [(listen_eq_settle name h).1, settle, bind_of_ok hbind]
  rfl

/-- A channel that was opened and is not closed is reached by its name exactly if nobody has intruded
on its place since. What goes with it when it is closed or dropped is what stands there. -/
theorem reached_iff_spared {n : Network} {before after : List Turn} {name : Name} {i : Nat}
    (hopen : (listen name (turns before { network := n })).result = .ok i)
    (hlive : (turns after (listen name (turns before { network := n })).state).stateOf i ≠ .closed) :
    let opened := (listen name (turns before { network := n })).state
    let h := turns after opened
    (h.Reached i ↔ opened.Spared i after) ∧ h.Vacates i (.close i) ∧ h.Vacates i (.drop i) := by
  intro opened h
  have hknown : (turns before { network := n }).Known :=
    known_turns before fun j d hd => (by cases hd)
  obtain ⟨c, place, -, hopened, hsocket⟩ := stands_of_listen hknown hopen
  obtain ⟨hstands, hiff⟩ := hopened.turns after hlive
  exact ⟨hstands.reached_iff.trans (hiff.trans (and_iff_right hsocket)), hstands.vacates_close,
    hstands.vacates_drop⟩

theorem Stands.stateOf (hs : h.Stands i c place) : h.stateOf i ≠ .closed := by
  rw [Hub.stateOf, seatOf_of_channel hs.channel]
  exact hs.live

theorem reached_iff_spared_other :
    let command : Name := ⟨"mbam-", 1, ""⟩
    let data : Name := ⟨"mbamd-", 1, ""⟩
    let before : Hub := turns [.listen command] { network := { directories := [] } }
    let h := turns [.close 0] (listen data before).state
    (listen data before).result = .ok 1 ∧ h.stateOf 1 ≠ .closed ∧ h.stateOf 0 = .closed ∧
      h.Reached 1 := by
  intro command data before h
  have hcommand : command.socketPath = "mbam-1.sock" := by decide
  have hdata : data.socketPath = "mbamd-1.sock" := by decide
  have hlocate : ∀ n : Network, n.directories = [] →
      n.locate command.socketPath = some ["mbam-1.sock"] ∧
        n.locate data.socketPath = some ["mbamd-1.sock"] := by
    intro n hn
    rw [hcommand, hdata]
    exact ⟨Network.locate_of_plain (by decide) (by rw [hn]; rfl),
      Network.locate_of_plain (by decide) (by rw [hn]; rfl)⟩
  obtain ⟨-, hbefore⟩ := listen_of_free (h := { network := { directories := [] } })
    (Network.checkPath_of_fit (by decide) (by decide)) (hlocate _ rfl).1
    (by rw [Network.entryAt_of_place (hlocate _ rfl).1]; decide)
  obtain ⟨hopen, hopened⟩ := @listen_of_free before data _
    (Network.checkPath_of_fit (by decide) (by decide))
    (by rw [show before = _ from hbefore]; exact (hlocate _ rfl).2)
    (by rw [show before = _ from hbefore, Network.entryAt_of_place (hlocate _ rfl).2]; decide)
  have hbefore : before = founded command ["mbam-1.sock"] { network := { directories := [] } } := hbefore
  have hresult : (listen data before).result = .ok 1 := by rw [hopen, hbefore]; rfl
  have hstate : (listen data before).state = founded data ["mbamd-1.sock"] before := hopened
  have hchannels : (listen data before).state.channels =
      [{ name := command, listener := 0 }, { name := data, listener := 1 }] := by
    rw [hstate, hbefore]
    rfl
  have hdirectories : (listen data before).state.network.directories = [] := by
    rw [hstate, hbefore]
    rfl
  have hknown : before.Known := known_turns _ fun j d hd => (by cases hd)
  obtain ⟨c, place, -, hstands, -⟩ := stands_of_listen hknown hresult
  have hlive : h.stateOf 1 ≠ .closed := (hstands.close Nat.zero_ne_one).1.stateOf
  have hclosed : h.stateOf 0 = .closed :=
    stateOf_close (c := { name := command, listener := 0 }) (by rw [hchannels]; rfl)
  have hiff := (reached_iff_spared hresult hlive).1
  refine ⟨hresult, hlive, hclosed, hiff.2 ⟨fun hintrudes => ?_, trivial⟩⟩
  obtain ⟨-, -, hsame⟩ := hintrudes
  rw [placeOf, placeOf, hchannels] at hsame
  have hsame : (listen data before).state.network.locate command.socketPath =
    (listen data before).state.network.locate data.socketPath := hsame
  rw [(hlocate _ hdirectories).1, (hlocate _ hdirectories).2] at hsame
  exact absurd hsame (by decide)

/-- A channel is opened where another one listens, which nobody reaches from then on. When that one is
dropped, nobody reaches the new one either. -/
theorem not_reached_of_listen_twice :
    let name : Name := ⟨"mbam-", 1, ""⟩
    let h : Hub := turns [.listen name, .listen name] { network := { directories := [] } }
    (h.stateOf 0 ≠ .closed ∧ ¬ h.Reached 0) ∧ (h.stateOf 1 ≠ .closed ∧ h.Reached 1) ∧
      (h.turn (.drop 0)).stateOf 1 ≠ .closed ∧ ¬ (h.turn (.drop 0)).Reached 1 := by
  intro name h
  have hpath : name.socketPath = "mbam-1.sock" := by decide
  let start : Hub := { network := { directories := [] } }
  have hlocate : start.network.locate name.socketPath = some ["mbam-1.sock"] := by
    rw [hpath]
    exact Network.locate_of_plain (by decide) rfl
  obtain ⟨hopen, hfounded⟩ := listen_of_free (Network.checkPath_of_fit (by decide) (by decide))
    hlocate (by rw [Network.entryAt_of_place hlocate]; decide)
  have hknown : start.Known := fun j d hd => by cases hd
  obtain ⟨c, place, hname, hfirst, hsocket⟩ := stands_of_listen hknown hopen
  let before := (listen name start).state
  have howns : before.network.Owns name.socketPath c.listener :=
    hname ▸ ⟨hfirst.fit, place, hfirst.placed, hfirst.free, hsocket⟩
  have hagain : (listen name before).result = .ok 1 := by
    rw [listen_of_owns howns, show before = _ from hfounded]
    rfl
  obtain ⟨c', place', hname', hsecond, hsocket'⟩ := stands_of_listen (hknown.turn (.listen name)) hagain
  obtain ⟨hstill, hlost⟩ := hfirst.listen name
  obtain ⟨hthird, hgone⟩ := hsecond.drop Nat.zero_ne_one
  have hsame : place = place' := by
    have hplaced := hstill.placed
    have hplaced' := hsecond.placed
    rw [hname] at hplaced
    rw [hname'] at hplaced'
    exact Option.some.inj (hplaced.symm.trans hplaced')
  refine ⟨⟨hstill.stateOf, fun hreached => ?_⟩, ⟨hsecond.stateOf, hsecond.reached_iff.2 hsocket'⟩,
    hthird.stateOf, fun hreached => ?_⟩
  · have hplaced := hfirst.placed
    rw [hname] at hplaced
    exact (hlost.1 (hstill.reached_iff.1 hreached)).2 hplaced
  · exact (hgone.1 (hthird.reached_iff.1 hreached)).2 ⟨hstill.stateOf, hsame ▸ hstill.placeOf⟩

end Turns

end Channel.Hub

end RemoteAgent
