import RemoteAgent.Host.Run
import RemoteAgent.Proofs.Agent.Start
import RemoteAgent.Proofs.Channel.Reach
import RemoteAgent.Proofs.Config.Checks
import RemoteAgent.Toml.Document

/-! What the host starts. The configuration that it loads has passed its checks. The one that it starts
an agent with has settings of the command line in it, and nobody looks whether the names of the channels
still differ. -/

namespace RemoteAgent

open RemoteAgent.Action Channel Socket

theorem Socket.Network.directories_append (path : String) (bytes : List UInt8) (n : Network) :
    (n.append path bytes).2.directories = n.directories := by
  rw [append]
  split
  · rfl
  · split <;> rfl

theorem Log.Station.directories_setUp (c : Log.Config) (s : Log.Station) (n : Network) :
    (s.setUp c n).2.directories = n.directories := by
  have hopened : (if c.fileEnabled && c.filePath ≠ "" then
      n.append (Text.Path.join s.workDir c.filePath) [] else (false, n)).2.directories =
      n.directories := by
    split
    · exact n.directories_append _ _
    · rfl
  rw [setUp]
  dsimp only
  split
  · exact hopened
  · exact hopened

theorem Socket.Network.entryAt_empty (path : String) :
    ({ directories := [] } : Network).entryAt path = none := by
  rw [entryAt]
  cases ({ directories := [] } : Network).locate path <;> rfl

namespace Host

open Agent

variable {build : Build} {args : List String} {p : Site} {o : Options} {c : Config} {r : Running}

/-- The host gets as far as starting an agent with a configuration. -/
structure Begins (build : Build) (args : List String) (p : Site) (o : Options) (c : Config) : Prop where
  asked : build.readArguments args = .run o
  configured : configure o p = .ok c

def logged (o : Options) (c : Config) (p : Site) : Site :=
  (Site.setUpLog (if o.verbose then Log.Config.debug else c.logging) p).state

theorem locate_logged (o : Options) (c : Config) (p : Site) (path : String) :
    (logged o c p).hub.network.locate path = p.hub.network.locate path :=
  Network.locate_congr (Log.Station.directories_setUp ..) path

theorem Begins.exists_loaded (h : Begins build args p o c) :
    ∃ b, p.config o.config = .ok b ∧ b.validate = .ok b ∧ c = override o b := by
  have hconfigured := h.configured
  rw [configure] at hconfigured
  split at hconfigured
  · next b hb =>
    cases hconfigured
    exact ⟨b, hb, Site.validate_of_config hb, rfl⟩
  · split at hconfigured
    · cases hconfigured
    · cases hconfigured

def outcome (build : Build) (c : Config) (pid : Nat) : Except Error Running → Launch
  | .ok r => { running := some (r, c), facts := facts build r pid, lines := [lastLine] }
  | .error e => .ofFailure ⟨"starting agent", e⟩

theorem Begins.launch_eq (h : Begins build args p o c) :
    (launch build args p).result = .ok (outcome build c p.pid (Agent.start c (logged o c p)).result) ∧
      (launch build args p).state = (Agent.start c (logged o c p)).state := by
  have hlog : Site.setUpLog (if o.verbose then Log.Config.debug else c.logging) p =
      ⟨.ok (), logged o c p, []⟩ := rfl
  rw [launch, h.asked]
  dsimp only
  rw [start, bind_of_ok (get_apply p), h.configured]
  dsimp only
  rw [bind_of_ok hlog, bind_of_ok (attempt_apply (Agent.start c) _)]
  cases (Agent.start c (logged o c p)).result with
  | ok r => exact ⟨rfl, rfl⟩
  | error e => exact ⟨rfl, rfl⟩

theorem launch_of_not_begins (h : ∀ o c, ¬ Begins build args p o c) :
    (launch build args p).state = p ∧ ∃ l, (launch build args p).result = .ok l ∧ l.running = none := by
  rw [launch]
  cases hasked : build.readArguments args with
  | run o =>
    dsimp only
    rw [start, bind_of_ok (get_apply p)]
    cases hconfigured : configure o p with
    | ok c => exact (h o c ⟨hasked, hconfigured⟩).elim
    | error f => exact ⟨rfl, _, rfl, rfl⟩
  | _ => exact ⟨rfl, _, rfl, rfl⟩

/-- A configuration that an agent is started with. What was loaded has passed the checks. One of them
still holds; the other one, that the names of the channels begin differently, is up to the command line
if it says how one of them begins. -/
structure Effective (o : Options) (b c : Config) : Prop where
  loaded : b.validate = .ok b
  overridden : c = override o b
  fits : Config.leastMessageSize ≤ c.channel.maxMessageSize
  validate_eq : c.validate = if c.channel.commandPrefix = c.channel.dataPrefix then
    .error (.config (.samePrefix c.channel.commandPrefix)) else .ok c
  kept : o.commandPrefix = none → o.dataPrefix = none → c.validate = .ok c

theorem effective_override {b : Config} (o : Options) (h : b.validate = .ok b) :
    Effective o b (override o b) := by
  obtain ⟨⟨hne, hfits⟩, -⟩ := Config.validate_eq_ok_iff.1 h
  have hfits : Config.leastMessageSize ≤ (override o b).channel.maxMessageSize := hfits
  refine ⟨h, rfl, hfits, ?_, fun hcommand hdata => ?_⟩
  · rw [Config.validate, if_neg (Nat.not_lt.2 hfits)]
  · refine Config.validate_eq_ok_iff.2 ⟨⟨?_, hfits⟩, rfl⟩
    rw [override, hcommand, hdata]
    exact hne

/-- The endpoints of an agent that was started at a site. That of the data channel is there. That of
the command channel is there unless both have one place, as they have if their names begin alike. -/
structure Endpoints (p : Site) (c : Config) (r : Running) (h : Hub) : Prop where
  commandName : r.commandName = c.channel.commandName p.pid
  dataName : r.dataName = c.channel.dataName p.pid
  data : OwnsEndpoint h r.data
  command : OwnsEndpoint h r.command ↔
    p.hub.network.locate r.commandName.socketPath ≠ p.hub.network.locate r.dataName.socketPath
  valid : OwnsEndpoint h r.command → c.validate = .ok c
  plain : '/' ∉ c.channel.commandPrefix.toList → '/' ∉ c.channel.dataPrefix.toList →
    c.validate = .ok c → OwnsEndpoint h r.command

theorem endpoints_of_start (hfits : Config.leastMessageSize ≤ c.channel.maxMessageSize)
    (hstart : (Agent.start c (logged o c p)).result = .ok r) :
    Endpoints p c r (Agent.start c (logged o c p)).state.hub := by
  have hpid : (logged o c p).pid = p.pid := rfl
  have hnames := names_of_start hstart
  rw [hpid] at hnames
  obtain ⟨⟨place, hplace⟩, ⟨place', hplace'⟩, hdata, hcommand⟩ := endpoints_of_channels hstart
  rw [locate_logged] at hplace hplace'
  rw [locate_logged, locate_logged] at hcommand
  refine ⟨hnames.1, hnames.2, hdata, hcommand, fun hown => ?_, fun hplain hplain' hvalid => ?_⟩
  · refine Config.validate_eq_ok_iff.2 ⟨⟨fun hsame => hcommand.1 hown ?_, hfits⟩, rfl⟩
    rw [hnames.1, hnames.2, Config.Channel.commandName, hsame, Config.Channel.dataName]
  · obtain ⟨⟨hne, -⟩, -⟩ := Config.validate_eq_ok_iff.1 hvalid
    have hdir : (c.channel.commandName p.pid).dir = (c.channel.dataName p.pid).dir := rfl
    have hpid' : (c.channel.commandName p.pid).pid = (c.channel.dataName p.pid).pid := rfl
    rw [hnames.1] at hplace hcommand
    rw [hnames.2] at hplace' hcommand
    rw [hcommand, ne_eq, Name.locate_socketPath_eq_iff hdir hpid' hplain hplain' hplace hplace']
    exact hne

/-- The host starts an agent with a configuration of which only one check is sure; where the names of
the channels begin alike, or lead to one place otherwise, the command channel loses its endpoint. -/
theorem endpoints_of_begins (h : Begins build args p o c) :
    (∃ b, p.config o.config = .ok b ∧ Effective o b c) ∧
      ∀ l r d, (launch build args p).result = .ok l → l.running = some (r, d) →
        d = c ∧ Endpoints p c r (launch build args p).state.hub := by
  obtain ⟨b, hb, hvalid, rfl⟩ := h.exists_loaded
  have heffective := effective_override o hvalid
  refine ⟨⟨b, hb, heffective⟩, fun l r d hl hrunning => ?_⟩
  obtain ⟨hresult, hstate⟩ := h.launch_eq
  rw [hresult] at hl
  cases hl
  cases hstart : (Agent.start (override o b) (logged o (override o b) p)).result with
  | error e =>
    rw [hstart] at hrunning
    cases hrunning
  | ok r' =>
    rw [hstart] at hrunning
    cases hrunning
    rw [hstate]
    exact ⟨rfl, endpoints_of_start heffective.fits hstart⟩

theorem endpoints_of_begins_apart :
    let build := Build.standard 0x1000 0x2000
    let args := ["--command-prefix", "cmd-", "--data-prefix=dat-"]
    let site : Site := { pid := 7, readSettings := Toml.read?, hub := { network := { directories := [] } } }
    ∃ o c l r, Begins build args site o c ∧ (launch build args site).result = .ok l ∧
      l.running = some (r, c) ∧ c.validate = .ok c ∧
      OwnsEndpoint (launch build args site).state.hub r.command := by
  intro build args site
  let o : Options := { commandPrefix := some "cmd-", dataPrefix := some "dat-" }
  let c := override o (.standard "")
  have hbegins : Begins build args site o c := ⟨by decide, rfl⟩
  have hlocate : (logged o c site).hub.network.locate "cmd-7.sock" = some ["cmd-7.sock"] ∧
      (logged o c site).hub.network.locate "dat-7.sock" = some ["dat-7.sock"] :=
    ⟨Network.locate_of_plain (by decide) rfl, Network.locate_of_plain (by decide) rfl⟩
  have hcommand : (c.channel.commandName 7).socketPath = "cmd-7.sock" := by decide
  have hdata : (c.channel.dataName 7).socketPath = "dat-7.sock" := by decide
  have hstart : (Agent.start c (logged o c site)).result = .ok _ :=
    (start_of_free ⟨rfl, rfl⟩ (Network.checkPath_of_fit (by decide) (by decide))
      (hcommand ▸ hlocate.1) (Network.entryAt_empty _)
      (Network.checkPath_of_fit (by decide) (by decide)) (hdata ▸ hlocate.2)
      (Network.entryAt_empty _) (by decide)).1
  have hlaunch := hbegins.launch_eq.1
  rw [hstart] at hlaunch
  obtain ⟨-, hrun⟩ := endpoints_of_begins hbegins
  obtain ⟨-, hendpoints⟩ := hrun _ _ _ hlaunch rfl
  have hvalid : c.validate = .ok c := by decide
  exact ⟨o, c, _, _, hbegins, hlaunch, rfl, hvalid, hendpoints.plain (by decide) (by decide) hvalid⟩

theorem exists_start_of_alike {i : Nat} (hsame : c.channel.commandPrefix = c.channel.dataPrefix)
    (hcommand : (Hub.listen (c.channel.commandName p.pid) p.hub).result = .ok i) :
    ∃ r, (Agent.start c p).result = .ok r := by
  have hname : c.channel.dataName p.pid = c.channel.commandName p.pid := by
    rw [Config.Channel.dataName, ← hsame, Config.Channel.commandName]
  -- The socket of the first channel is in the way, but it counts as one that was left behind.
  obtain ⟨-, l, n, hstate, ⟨howns, -⟩, -⟩ := Hub.listen_of_ok hcommand
  let h := (Hub.listen (c.channel.commandName p.pid) p.hub).state
  have howns : h.network.Owns (c.channel.dataName p.pid).socketPath l := by
    rw [show h = _ from hstate, hname]
    exact howns
  exact ⟨_, (start_of_listen hcommand (Hub.listen_of_owns howns)).1⟩

theorem Begins.running_of_alike {i : Nat} (h : Begins build args p o c)
    (hsame : c.channel.commandPrefix = c.channel.dataPrefix)
    (hcommand : (Hub.listen (c.channel.commandName p.pid) (logged o c p).hub).result = .ok i) :
    ∃ l r, (launch build args p).result = .ok l ∧ l.running = some (r, c) ∧ r.commandName = r.dataName ∧
      ¬ OwnsEndpoint (launch build args p).state.hub r.command := by
  obtain ⟨r, hstart⟩ := exists_start_of_alike (p := logged o c p) hsame hcommand
  obtain ⟨hresult, hstate⟩ := h.launch_eq
  obtain ⟨-, -, -, hown⟩ := endpoints_of_channels hstart
  have hnames : r.commandName = r.dataName := by
    rw [(names_of_start hstart).1, (names_of_start hstart).2, Config.Channel.commandName, hsame,
      Config.Channel.dataName]
  rw [hstart] at hresult
  refine ⟨_, r, hresult, rfl, hnames, fun howns => ?_⟩
  rw [hstate] at howns
  exact hown.1 howns (by rw [hnames])

theorem Begins.failure_of_nowhere (h : Begins build args p o c)
    (hplace : p.hub.network.locate (c.channel.commandName p.pid).socketPath = none) :
    ∃ e, (launch build args p).result = .ok (.ofFailure ⟨"starting agent", e⟩) := by
  obtain ⟨hresult, -⟩ := h.launch_eq
  cases hstart : (Agent.start c (logged o c p)).result with
  | error e =>
    rw [hstart] at hresult
    exact ⟨e, hresult⟩
  | ok r =>
    have hpid : (logged o c p).pid = p.pid := rfl
    obtain ⟨⟨place, hplaced⟩, -⟩ := endpoints_of_channels hstart
    rw [(names_of_start hstart).1, locate_logged, hpid, hplace] at hplaced
    cases hplaced

/-- Both names are from the command line, and they begin alike. The host does not look: the agent is
started, with a command channel that nobody reaches, or fails to start for another reason. -/
theorem not_validate_of_begins_alike :
    let build := Build.standard 0x1000 0x2000
    let args := ["--command-prefix", "x-", "--data-prefix", "x-"]
    let args' := args ++ ["--socket-dir", "missing"]
    let site : Site := { pid := 7, readSettings := Toml.read?, hub := { network := { directories := [] } } }
    (∃ o c, Begins build args site o c ∧ c.validate = .error (.config (.samePrefix "x-")) ∧
      ∃ l r, (launch build args site).result = .ok l ∧ l.running = some (r, c) ∧
        r.commandName = r.dataName ∧ ¬ OwnsEndpoint (launch build args site).state.hub r.command) ∧
    ∃ o c, Begins build args' site o c ∧ c.validate = .error (.config (.samePrefix "x-")) ∧
      ∃ e, (launch build args' site).result = .ok (.ofFailure ⟨"starting agent", e⟩) := by
  intro build args args' site
  refine ⟨?_, ?_⟩
  · let o : Options := { commandPrefix := some "x-", dataPrefix := some "x-" }
    let c := override o (.standard "")
    have hbegins : Begins build args site o c := ⟨by decide, rfl⟩
    have hpath : (c.channel.commandName 7).socketPath = "x-7.sock" := by decide
    have hlocate : (logged o c site).hub.network.locate "x-7.sock" = some ["x-7.sock"] :=
      Network.locate_of_plain (by decide) rfl
    have hopen := (Hub.listen_of_free (Network.checkPath_of_fit (by decide) (by decide))
      (hpath ▸ hlocate) (Network.entryAt_empty _)).1
    exact ⟨o, c, hbegins, by decide, hbegins.running_of_alike rfl hopen⟩
  · let o : Options :=
      { commandPrefix := some "x-", dataPrefix := some "x-", socketDir := some "missing" }
    let c := override o (.standard "")
    have hbegins : Begins build args' site o c := ⟨by decide, rfl⟩
    have hpath : (c.channel.commandName 7).socketPath = Text.Path.join "missing" "x-7.sock" := by
      decide
    have hplace : site.hub.network.locate (c.channel.commandName 7).socketPath = none := by
      have hmissing : site.hub.network.locate "missing" = some ["missing"] :=
        Network.locate_of_plain (by decide) rfl
      rw [hpath, Network.locate_join (by decide), hmissing]
      exact Network.resolve_of_plain (by decide) [] ["missing"]
    exact ⟨o, c, hbegins, by decide, hbegins.failure_of_nowhere hplace⟩

end Host

end RemoteAgent
