import RemoteAgent.Agent.Running
import RemoteAgent.Proofs.Channel.Door
import RemoteAgent.Proofs.Service.Endurance

/-! The start of an agent, which opens one channel after the other: when it can start, and what its
channels are like then. -/

namespace RemoteAgent.Agent

open RemoteAgent.Action Channel Socket Service

deriving instance DecidableEq for Service.Kind

namespace Running

def channel (r : Running) : Kind → Nat
  | .command => r.command
  | .data => r.data

def name (r : Running) : Kind → Name
  | .command => r.commandName
  | .data => r.dataName

/-- The two channels as they are opened, with these listeners. -/
def opened (r : Running) (l l' : Nat) : Kind → Listening
  | .command => { name := r.commandName, listener := l }
  | .data => { name := r.dataName, listener := l' }

end Running

structure Apart (r : Running) (c : Kind → Listening) : Prop where
  names : ∀ k, (c k).name = r.name k
  channels : ∀ j k, j ≠ k → r.channel j ≠ r.channel k
  listeners : ∀ j k, j ≠ k → (c j).listener ≠ (c k).listener

variable {r : Running} {config : Config} {site : Site}

def OwnsEndpoint (h : Hub) (i : Nat) : Prop :=
  ∃ c, h.channels[i]? = some c ∧ h.network.entryAt c.name.socketPath = some (.socket c.listener)

/-- The channels of an agent whose services have not begun to wait. -/
structure Ready (r : Running) (c : Kind → Listening) (h : Hub) : Prop where
  apart : Apart r c
  opened : ∀ k, h.Opened (r.channel k) (c k)
  endpoint : ∀ k, h.network.Owns (c k).name.socketPath (c k).listener ∧
    h.network.listens (c k).listener = true

theorem listen_of_start (hstart : (start config site).result = .ok r) :
    (Hub.listen r.commandName site.hub).result = .ok r.command ∧
      (Hub.listen r.dataName (Hub.listen r.commandName site.hub).state).result = .ok r.data ∧
        (start config site).state.hub =
          (Hub.listen r.dataName (Hub.listen r.commandName site.hub).state).state := by
  obtain ⟨_, hget, hrest, hfirst⟩ := exists_of_bind hstart
  cases hget
  obtain ⟨command, hcommand, hrest, hsecond⟩ := exists_of_bind hrest
  obtain ⟨data, hdata, hrest, hthird⟩ := exists_of_bind hrest
  have hdata : (Site.inHub (Hub.listen (config.channel.dataName site.pid))
      (Site.inHub (Hub.listen (config.channel.commandName site.pid)) site).state).result = data :=
    Except.ok.inj hdata
  cases data with
  | error e =>
    obtain ⟨_, -, hfail, -⟩ := exists_of_bind hrest
    cases hfail
  | ok data =>
    obtain ⟨_, -, hlast, hfourth⟩ := exists_of_bind hrest
    cases hlast
    refine ⟨hcommand, hdata, ?_⟩
    have hstate := hfirst.trans (hsecond.trans (hthird.trans hfourth))
    exact congrArg Site.hub hstate

theorem start_of_listen {i i' : Nat}
    (hcommand : (Hub.listen (config.channel.commandName site.pid) site.hub).result = .ok i)
    (hdata : (Hub.listen (config.channel.dataName site.pid)
      (Hub.listen (config.channel.commandName site.pid) site.hub).state).result = .ok i') :
    (start config site).result = .ok ⟨i, config.channel.commandName site.pid, i',
        config.channel.dataName site.pid⟩ ∧
      (start config site).state.hub = (Hub.listen (config.channel.dataName site.pid)
        (Hub.listen (config.channel.commandName site.pid) site.hub).state).state := by
  cases hfirst : Hub.listen (config.channel.commandName site.pid) site.hub with
  | mk result h es =>
    rw [hfirst] at hcommand hdata
    dsimp only at hcommand hdata ⊢
    cases hsecond : Hub.listen (config.channel.dataName site.pid) h with
    | mk result' h' es' =>
      rw [hsecond] at hdata
      subst hcommand
      cases hdata
      have hsite : Site.inHub (Hub.listen (config.channel.commandName site.pid)) site =
          ⟨.ok i, { site with hub := h }, es⟩ := by rw [Site.inHub, Action.on, hfirst]
      have hsite' : (Site.inHub (Hub.listen (config.channel.dataName site.pid))).attempt
          { site with hub := h } = ⟨.ok (.ok i'), { site with hub := h' }, es'⟩ := by
        rw [attempt_apply, Site.inHub, Action.on]
        dsimp only
        rw [hsecond]
      rw [start, bind_of_ok (get_apply site)]
      dsimp only
      rw [bind_of_ok hsite, bind_of_ok hsite']
      exact ⟨rfl, rfl⟩

theorem start_of_free {command data : Name} {place place' : List String}
    (hnames : config.channel.commandName site.pid = command ∧ config.channel.dataName site.pid = data)
    (hfit : ∀ m, Network.checkPath command.socketPath m = ⟨.ok (), m, []⟩)
    (hplace : site.hub.network.locate command.socketPath = some place)
    (hfree : site.hub.network.entryAt command.socketPath = none)
    (hfit' : ∀ m, Network.checkPath data.socketPath m = ⟨.ok (), m, []⟩)
    (hplace' : site.hub.network.locate data.socketPath = some place')
    (hfree' : site.hub.network.entryAt data.socketPath = none) (hne : place ≠ place') :
    (start config site).result = .ok
        ⟨site.hub.channels.length, command, site.hub.channels.length + 1, data⟩ ∧
      (start config site).state.hub = (site.hub.founded command place).founded data place' := by
  obtain ⟨rfl, rfl⟩ := hnames
  obtain ⟨hresult, hstate⟩ := Hub.listen_of_free hfit hplace hfree
  have helsewhere : site.hub.network.locate (config.channel.dataName site.pid).socketPath ≠
      some place := fun heq => hne (Option.some.inj (heq.symm.trans hplace'))
  have hsecond := Hub.listen_of_free
    (h := site.hub.founded (config.channel.commandName site.pid) place) hfit' hplace'
    ((Network.entryAt_bound helsewhere).trans hfree')
  rw [← hstate] at hsecond
  obtain ⟨hresult', hstate'⟩ := hsecond
  obtain ⟨hstart, hhub⟩ := start_of_listen hresult hresult'
  rw [hstate'] at hhub
  refine ⟨?_, ?_⟩
  · rw [hstart, hstate, Hub.founded, List.length_append]
    rfl
  · rw [hhub, hstate]

theorem names_of_start (hstart : (start config site).result = .ok r) :
    r.commandName = config.channel.commandName site.pid ∧
      r.dataName = config.channel.dataName site.pid := by
  obtain ⟨_, hget, hrest, -⟩ := exists_of_bind hstart
  cases hget
  obtain ⟨command, -, hrest, -⟩ := exists_of_bind hrest
  obtain ⟨data, -, hrest, -⟩ := exists_of_bind hrest
  cases data with
  | error e =>
    obtain ⟨_, -, hfail, -⟩ := exists_of_bind hrest
    cases hfail
  | ok data =>
    obtain ⟨_, -, hlast, -⟩ := exists_of_bind hrest
    cases hlast
    exact ⟨rfl, rfl⟩

theorem exists_place_of_listen {h : Hub} {name : Name} {i : Nat}
    (hopen : (Hub.listen name h).result = .ok i) :
    ∃ place, h.network.locate name.socketPath = some place := by
  obtain ⟨-, l, n, -, ⟨howns, -⟩, hbeside⟩ := Hub.listen_of_ok hopen
  obtain ⟨place, hplace, -⟩ := howns.place
  exact ⟨place, (Network.locate_congr hbeside.directories _).symm.trans hplace⟩

theorem ownsEndpoint_of_listen {h : Hub} {name : Name} {i : Nat}
    (hopen : (Hub.listen name h).result = .ok i) : OwnsEndpoint (Hub.listen name h).state i := by
  obtain ⟨rfl, l, n, hstate, ⟨howns, -⟩, -⟩ := Hub.listen_of_ok hopen
  rw [hstate]
  exact ⟨{ name, listener := l }, List.getElem?_concat_length, howns.entryAt⟩

theorem ownsEndpoint_listen_iff {h : Hub} {name : Name} {i j : Nat} {c : Listening}
    (hc : h.channels[i]? = some c) (hlt : c.listener < h.network.listeners.length)
    (hown : h.network.entryAt c.name.socketPath = some (.socket c.listener))
    (hopen : (Hub.listen name h).result = .ok j) : OwnsEndpoint (Hub.listen name h).state i ↔
      h.network.locate c.name.socketPath ≠ h.network.locate name.socketPath := by
  rcases Hub.listen_cases name h with ⟨e, herror, -⟩ | ⟨place, hfit, hplace, hfree, -, hstate⟩
  · rw [herror] at hopen
    cases hopen
  · let n := h.network.cleared name.socketPath
    obtain ⟨hdirectories, hlisteners⟩ := Network.cleared_fields name.socketPath h.network
    have hlocate : ∀ path, n.locate path = h.network.locate path :=
      Network.locate_congr hdirectories
    have hstill : (Hub.listen name h).state.channels[i]? = some c := by
      rw [hstate]
      exact (List.getElem?_append_left (List.getElem?_eq_some_iff.1 hc).1).trans hc
    have hnetwork : (Hub.listen name h).state.network = n.bound place := congrArg Hub.network hstate
    have hiff : OwnsEndpoint (Hub.listen name h).state i ↔
        (n.bound place).entryAt c.name.socketPath = some (.socket c.listener) := by
      rw [← hnetwork]
      refine ⟨fun ⟨d, hd, hentry⟩ => ?_, fun hentry => ⟨c, hstill, hentry⟩⟩
      cases hstill.symm.trans hd
      exact hentry
    rw [hiff]
    refine ⟨fun hentry hsame => ?_, fun hne => ?_⟩
    · -- The new socket stands where the old one was, and its listener has another number.
      rw [Network.entryAt_bound_self ((hlocate _).trans (hsame.trans hplace)), Option.some_inj,
        Entry.socket.injEq, hlisteners] at hentry
      exact Nat.ne_of_lt hlt hentry.symm
    · have helsewhere : n.locate c.name.socketPath ≠ some place := by
        rw [hlocate, ← hplace]
        exact hne
      rw [Network.entryAt_bound helsewhere, Network.entryAt_cleared_of_ne hne, hown]

theorem endpoints_of_channels (hstart : (start config site).result = .ok r) :
    (∃ place, site.hub.network.locate r.commandName.socketPath = some place) ∧
      (∃ place, site.hub.network.locate r.dataName.socketPath = some place) ∧
      OwnsEndpoint (start config site).state.hub r.data ∧
      (OwnsEndpoint (start config site).state.hub r.command ↔
        site.hub.network.locate r.commandName.socketPath ≠
          site.hub.network.locate r.dataName.socketPath) := by
  obtain ⟨hcommand, hdata, hhub⟩ := listen_of_start hstart
  obtain ⟨hfirst, l, n, hstate, ⟨howns, hlistens, -⟩, hbeside⟩ := Hub.listen_of_ok hcommand
  have hlocate : ∀ path, n.locate path = site.hub.network.locate path :=
    Network.locate_congr hbeside.directories
  have hplace' := exists_place_of_listen hdata
  rw [hhub]
  refine ⟨exists_place_of_listen hcommand, ?_, ownsEndpoint_of_listen hdata, ?_⟩
  · rw [hstate, hlocate] at hplace'
    exact hplace'
  · rw [hstate] at hdata ⊢
    have hchannel : (site.hub.channels ++ [{ name := r.commandName, listener := l }])[r.command]? =
        some { name := r.commandName, listener := l } := by
      rw [hfirst]
      exact List.getElem?_concat_length
    rw [ownsEndpoint_listen_iff hchannel (Network.lt_of_listens hlistens) howns.entryAt hdata,
      hlocate, hlocate]

theorem ready_of_start (hstart : (start config site).result = .ok r)
    (hown : OwnsEndpoint (start config site).state.hub r.command) :
    ∃ c, Ready r c (start config site).state.hub := by
  obtain ⟨hcommand, hdata, hhub⟩ := listen_of_start hstart
  obtain ⟨hfirst, l, n, hstate, ⟨howns, hlistens, hqueue⟩, -⟩ := Hub.listen_of_ok hcommand
  rw [hhub] at hown ⊢
  rw [hstate] at hdata hown ⊢
  obtain ⟨hsecond, l', n', hstate', ⟨howns', hlistens', hqueue'⟩, hbeside⟩ := Hub.listen_of_ok hdata
  rw [hstate'] at hown ⊢
  have hlength : r.data = r.command + 1 := by
    rw [hsecond, hfirst, List.length_append]
    rfl
  obtain ⟨hne, hstill, hsame⟩ := hbeside.others l hlistens
  have hchannel : ∀ k, (site.hub.channels ++ [r.opened l l' .command] ++
      [r.opened l l' .data])[r.channel k]? = some (r.opened l l' k) := by
    intro k
    cases k with
    | command =>
      show (_ ++ [r.opened l l' .command] ++ [r.opened l l' .data])[r.command]? = _
      rw [hfirst, List.append_assoc, List.getElem?_append_right (Nat.le_refl _), Nat.sub_self]
      rfl
    | data =>
      show (_ ++ [r.opened l l' .data])[r.data]? = _
      rw [hsecond]
      exact List.getElem?_concat_length
  obtain ⟨c₀, hc₀, hentry⟩ := hown
  have hc : c₀ = r.opened l l' .command := Option.some.inj (hc₀.symm.trans (hchannel .command))
  rw [hc] at hentry
  have hcommand' : n'.Owns r.commandName.socketPath l :=
    howns.of_entryAt hbeside.directories hentry
  refine ⟨r.opened l l', ⟨fun k => ?_, fun j k hjk => ?_, fun j k hjk => ?_⟩,
    fun k => ⟨hchannel k, ?_, ?_⟩,
    fun k => ?_⟩
  · cases k <;> rfl
  · have hapart : r.command ≠ r.data := by omega
    cases j <;> cases k
    · exact (hjk rfl).elim
    · exact hapart
    · exact hapart.symm
    · exact (hjk rfl).elim
  · cases j <;> cases k
    · exact (hjk rfl).elim
    · exact hne
    · exact hne.symm
    · exact (hjk rfl).elim
  · cases k <;> rfl
  · cases k with
    | command => exact Network.queued_of_nil (hsame.trans hqueue)
    | data => exact Network.queued_of_nil hqueue'
  · cases k with
    | command => exact ⟨hcommand', hstill⟩
    | data => exact ⟨howns', hlistens'⟩

end RemoteAgent.Agent
