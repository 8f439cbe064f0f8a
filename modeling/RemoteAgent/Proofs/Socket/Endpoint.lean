import RemoteAgent.Proofs.Lookup
import RemoteAgent.Proofs.Socket.Growth

/-! The endpoint of a listener: the socket that stands at its path. Whoever connects there comes to wait
at the listener, until the endpoint is removed. -/

namespace RemoteAgent.Socket.Network

open RemoteAgent.Action

variable {n n' n'' : Network} {path : String} {l m : Nat} {place : List String}

structure Owns (n : Network) (path : String) (l : Nat) : Prop where
  fit : ∀ m : Network, checkPath path m = ⟨.ok (), m, []⟩
  place : ∃ place, n.locate path = some place ∧ place ∉ n.directories ∧
    n.entries.lookup place = some (.socket l)

theorem entryAt_of_nowhere (h : n.locate path = none) : n.entryAt path = none := by
  rw [entryAt, h]
  rfl

theorem entryAt_of_locate {path' : String} (h : n.locate path = n.locate path') :
    n.entryAt path = n.entryAt path' := by
  rw [entryAt, h, entryAt]

theorem entryAt_of_place (hplace : n.locate path = some place) :
    n.entryAt path = (n.entries.lookup place).or
      (if place ∈ n.directories then some .directory else none) := by
  rw [entryAt, hplace]
  rfl

theorem Owns.entryAt (h : n.Owns path l) : n.entryAt path = some (.socket l) := by
  obtain ⟨place, hplace, -, hentry⟩ := h.place
  rw [entryAt_of_place hplace, hentry]
  rfl

theorem checkPath_of_fit (hnull : hasNull path = false) (hlength : path.utf8ByteSize ≤ maxPathLength)
    (m : Network) : checkPath path m = ⟨.ok (), m, []⟩ := by
  rw [checkPath, hnull, if_neg (Nat.not_lt.2 hlength)]
  rfl

theorem connect_of_owns (h : n.Owns path l) (hl : n.listens l = true) :
    connect path n = ⟨.ok n.connections.length, n.joined l, []⟩ := by
  rw [connect, bind_of_ok (h.fit n), bind_of_ok (get_apply n), h.entryAt]
  dsimp only
  rw [connectTo_of_listens hl]
  rfl

theorem owns_iff_connect (hfit : ∀ m : Network, checkPath path m = ⟨.ok (), m, []⟩)
    (hplace : n.locate path = some place) (hfree : place ∉ n.directories)
    (hl : n.listens l = true) : n.entries.lookup place = some (.socket l) ↔
      ∃ x, (connect path n).result = .ok x ∧
        (connect path n).state.queueAt l = n.queueAt l ++ [x] := by
  refine ⟨fun hsocket => ?_, fun ⟨x, hresult, hqueue⟩ => ?_⟩
  · have hlt := lt_of_listens hl
    rw [connect_of_owns ⟨hfit, place, hplace, hfree, hsocket⟩ hl, queueAt_joined, if_pos ⟨rfl, hlt⟩]
    exact ⟨n.connections.length, rfl, rfl⟩
  · have hentry := entryAt_of_place hplace
    rw [if_neg hfree, Option.or_none] at hentry
    rw [connect, bind_of_ok (hfit n), bind_of_ok (get_apply n)] at hresult hqueue
    dsimp only at hresult hqueue
    rw [hentry] at hresult hqueue
    cases hsocket : n.entries.lookup place with
    | none =>
      rw [hsocket] at hresult
      cases hresult
    | some entry =>
      cases entry with
      | socket m =>
        rw [hsocket] at hresult hqueue
        dsimp only at hresult hqueue
        cases hm : n.listens m with
        | false =>
          rw [connectTo_of_deaf hm] at hqueue
          cases List.self_eq_append_right.1 hqueue
        | true =>
          rw [connectTo_of_listens hm, queueAt_joined] at hqueue
          by_cases hml : m = l
          · rw [hml]
          · rw [if_neg fun h => hml h.1] at hqueue
            cases List.self_eq_append_right.1 hqueue
      | _ =>
        rw [hsocket] at hresult
        cases hresult

def bound (n : Network) (place : List String) : Network :=
  { n with
    entries := (place, .socket n.listeners.length) :: n.entries
    listeners := n.listeners ++ [{}] }

theorem bind_of_free (hfit : ∀ m, checkPath path m = ⟨.ok (), m, []⟩)
    (hplace : n.locate path = some place) (hfree : n.entryAt path = none) :
    bind path n = ⟨.ok n.listeners.length, n.bound place, []⟩ := by
  rw [bind, bind_of_ok (hfit n), bind_of_ok (get_apply n)]
  dsimp only
  rw [hplace, hfree]
  rfl

theorem bind_cases (path : String) (n : Network) : (∃ e, bind path n = ⟨.error e, n, []⟩) ∨
    ∃ place, (∀ m, checkPath path m = ⟨.ok (), m, []⟩) ∧ n.locate path = some place ∧
      n.entryAt path = none ∧ bind path n = ⟨.ok n.listeners.length, n.bound place, []⟩ := by
  obtain ⟨r, hcheck⟩ := checkPath_apply path
  cases r with
  | error e =>
    refine .inl ⟨e, ?_⟩
    rw [bind, bind_of_error (hcheck n)]
  | ok u =>
    cases hplace : n.locate path with
    | none =>
      refine .inl ⟨.channelIo OsError.noEntry.toIoError, ?_⟩
      rw [bind, bind_of_ok (hcheck n), bind_of_ok (get_apply n), hplace]
      rfl
    | some place =>
      cases hentry : n.entryAt path with
      | some entry =>
        refine .inl ⟨.channelIo OsError.addressInUse.toIoError, ?_⟩
        rw [bind, bind_of_ok (hcheck n), bind_of_ok (get_apply n), hplace, hentry]
        rfl
      | none => exact .inr ⟨place, hcheck, rfl, rfl, bind_of_free hcheck hplace hentry⟩

theorem bind_of_result_ok (h : (bind path n).result = .ok l) :
    (∀ m, checkPath path m = ⟨.ok (), m, []⟩) ∧ ∃ place, n.locate path = some place ∧
      n.entryAt path = none ∧ l = n.listeners.length ∧ (bind path n).state = n.bound place := by
  rcases bind_cases path n with ⟨e, herror⟩ | ⟨place, hfit, hplace, hfree, hok⟩
  · rw [herror] at h
    cases h
  · rw [hok] at h
    cases h
    rw [hok]
    exact ⟨hfit, place, hplace, hfree, rfl, rfl⟩

theorem owns_of_bind (h : (bind path n).result = .ok l) :
    (bind path n).state.Owns path l ∧ (bind path n).state.listens l = true ∧
      (bind path n).state.queueAt l = [] := by
  obtain ⟨hfit, place, hplace, hentry, rfl, hstate⟩ := bind_of_result_ok h
  have hlast : (n.bound place).listeners[n.listeners.length]? = some {} :=
    List.getElem?_concat_length
  rw [hstate, listens, queueAt, hlast]
  refine ⟨⟨hfit, place, hplace, fun hdir => ?_, ?_⟩, rfl, rfl⟩
  · have hdir : place ∈ n.directories := hdir
    rw [entryAt_of_place hplace, if_pos hdir, Option.or_eq_none_iff] at hentry
    cases hentry.2
  · rw [bound, List.lookup_cons, beq_self_eq_true]

structure Beside (l : Nat) (n n' : Network) : Prop where
  directories : n'.directories = n.directories
  others : ∀ m, n.listens m = true →
    m ≠ l ∧ n'.listens m = true ∧ n'.queueAt m = n.queueAt m

theorem beside_of_bind (h : (bind path n).result = .ok l) (hd : n.directories = n''.directories)
    (hl : n.listeners = n''.listeners) : Beside l n'' (bind path n).state := by
  obtain ⟨-, place, -, -, rfl, hstate⟩ := bind_of_result_ok h
  rw [hstate]
  refine ⟨hd, fun m hm => ?_⟩
  have hlt : m < n.listeners.length := hl ▸ lt_of_listens hm
  have hsame : (n.bound place).listeners[m]? = n''.listeners[m]? := by
    rw [← hl]
    exact List.getElem?_append_left hlt
  rw [listens, queueAt, hsame]
  exact ⟨Nat.ne_of_lt hlt, hm, rfl⟩

def cleared (path : String) (n : Network) : Network := (n.remove path).toOption.getD n

theorem grows_cleared (path : String) (n : Network) : n.Grows (n.cleared path) := by
  rw [cleared]
  cases hremove : n.remove path with
  | ok n' => exact grows_remove hremove
  | error e => exact Grows.refl n

theorem onward_cleared (path : String) (n : Network) : n.Onward (n.cleared path) := by
  rw [cleared]
  cases hremove : n.remove path with
  | ok n' => exact onward_remove hremove
  | error e => exact onward_of_connections rfl

theorem cleared_fields (path : String) (n : Network) :
    (n.cleared path).directories = n.directories ∧ (n.cleared path).listeners = n.listeners := by
  rw [cleared, remove]
  split
  · exact ⟨rfl, rfl⟩
  · exact ⟨rfl, rfl⟩
  · exact ⟨rfl, rfl⟩

/-- An endpoint outlasts what happens between two networks, and so do those who wait there. Where
nothing stands, nothing comes to stand. -/
structure Shelters (path : String) (l : Nat) (n n' : Network) : Prop where
  grows : n.Grows n'
  owns : n.Owns path l → n'.Owns path l
  listens : n'.listens l = n.listens l
  queue : n.queueAt l ≠ [] → n'.queueAt l ≠ []
  gone : n.entryAt path = none → n'.entryAt path = none

theorem Shelters.trans (h : Shelters path l n n') (h' : Shelters path l n' n'') :
    Shelters path l n n'' :=
  ⟨h.grows.trans h'.grows, fun ho => h'.owns (h.owns ho), h'.listens.trans h.listens,
    fun hq => h'.queue (h.queue hq), fun hg => h'.gone (h.gone hg)⟩

theorem locate_congr (h : n'.directories = n.directories) (path : String) :
    n'.locate path = n.locate path := by
  rw [locate, origin, h, locate, origin]

theorem entryAt_congr (hd : n'.directories = n.directories) (he : n'.entries = n.entries)
    (path : String) : n'.entryAt path = n.entryAt path := by
  rw [entryAt, locate_congr hd, he, hd, entryAt]

theorem entryAt_bound (h : n.locate path ≠ some place) :
    (n.bound place).entryAt path = n.entryAt path := by
  have hlocate : (n.bound place).locate path = n.locate path := rfl
  cases hplace : n.locate path with
  | none => rw [entryAt_of_nowhere hplace, entryAt_of_nowhere (hlocate.trans hplace)]
  | some place' =>
    have hne : place' ≠ place := fun heq => h (hplace.trans (congrArg some heq))
    rw [entryAt_of_place hplace, entryAt_of_place (hlocate.trans hplace), bound, List.lookup_cons,
      beq_false_of_ne hne]

theorem entryAt_bound_self (h : n.locate path = some place) :
    (n.bound place).entryAt path = some (.socket n.listeners.length) := by
  have hplace : (n.bound place).locate path = some place := h
  rw [entryAt_of_place hplace, bound, List.lookup_cons, beq_self_eq_true]
  rfl

theorem Owns.congr (h : n.Owns path l) (hd : n'.directories = n.directories)
    (he : n'.entries = n.entries) : n'.Owns path l := by
  obtain ⟨place, hplace, hdirectory, hentry⟩ := h.place
  exact ⟨h.fit, place, (locate_congr hd path).trans hplace, hd ▸ hdirectory, he ▸ hentry⟩

theorem Owns.of_entryAt (h : n.Owns path l) (hd : n'.directories = n.directories)
    (hentry : n'.entryAt path = some (.socket l)) : n'.Owns path l := by
  obtain ⟨place, hplace, hdirectory, -⟩ := h.place
  have hplace' := (locate_congr hd path).trans hplace
  rw [← hd] at hdirectory
  rw [entryAt_of_place hplace', if_neg hdirectory, Option.or_none] at hentry
  exact ⟨h.fit, place, hplace', hdirectory, hentry⟩

theorem Lasts.shelters (h : n.Lasts n') (hg : n.Grows n') (path : String) (l : Nat) :
    Shelters path l n n' :=
  ⟨hg, fun ho => ho.congr h.directories h.entries, h.listens l, h.queue l,
    fun hnone => (entryAt_congr h.directories h.entries path).trans hnone⟩

theorem cleared_cases (path : String) (n : Network) : (n.cleared path = n ∧
      ∀ place, n.locate path = some place → place ∉ n.directories →
        ∀ l, n.entries.lookup place ≠ some (.socket l)) ∨
    ∃ place, n.locate path = some place ∧ n.cleared path = { n with entries := n.without place } := by
  cases hplace : n.locate path with
  | none =>
    refine .inl ⟨?_, fun place h => by cases h⟩
    rw [cleared, remove, entryAt_of_nowhere hplace]
    rfl
  | some place =>
    have hentry := entryAt_of_place hplace
    cases hat : n.entryAt path with
    | none =>
      rw [hat] at hentry
      have hlookup := (Option.or_eq_none_iff.1 hentry.symm).1
      refine .inl ⟨?_, fun p hp _ l hl => ?_⟩
      · rw [cleared, remove, hat]
        rfl
      · cases hp
        rw [hlookup] at hl
        cases hl
    | some entry =>
      cases entry with
      | directory =>
        refine .inl ⟨?_, fun p hp _ l hl => ?_⟩
        · rw [cleared, remove, hat]
          rfl
        · cases hp
          rw [hat, hl] at hentry
          cases hentry
      | _ =>
        refine .inr ⟨place, rfl, ?_⟩
        rw [cleared, remove, hat, hplace]
        rfl

theorem lookup_cleared_iff (path : String) (l : Nat) (hfree : place ∉ n.directories) :
    (n.cleared path).entries.lookup place = some (.socket l) ↔
      n.entries.lookup place = some (.socket l) ∧ n.locate path ≠ some place := by
  rcases cleared_cases path n with ⟨hsame, hnone⟩ | ⟨place', hplace', hcleared⟩
  · rw [hsame]
    exact ⟨fun h => ⟨h, fun hplace => hnone place hplace hfree l h⟩, fun h => h.1⟩
  · rw [hcleared, without, lookup_filter_ne, hplace']
    by_cases heq : place = place'
    · rw [if_pos heq, heq]
      exact ⟨fun h => (by cases h), fun h => (h.2 rfl).elim⟩
    · rw [if_neg heq]
      exact ⟨fun h => ⟨h, fun h' => heq (Option.some.inj h').symm⟩, fun h => h.1⟩

theorem entryAt_cleared_of_ne {path' : String} (h : n.locate path' ≠ n.locate path) :
    (n.cleared path).entryAt path' = n.entryAt path' := by
  rcases cleared_cases path n with ⟨hsame, -⟩ | ⟨place, hplace, hcleared⟩
  · rw [hsame]
  · have hlocate : (n.cleared path).locate path' = n.locate path' :=
      locate_congr (cleared_fields path n).1 path'
    cases hplace' : n.locate path' with
    | none => rw [entryAt_of_nowhere hplace', entryAt_of_nowhere (hlocate.trans hplace')]
    | some place' =>
      have hapart : place' ≠ place := fun heq => h (by rw [hplace', hplace, heq])
      rw [entryAt_of_place hplace', entryAt_of_place (hlocate.trans hplace'), hcleared, without,
        lookup_filter_ne, if_neg hapart]

/-- What one listener does to a network: the endpoints stay, and nobody who waits at another listener
is sent away. -/
structure Tends (l : Nat) (n n' : Network) : Prop where
  endpoint : ∀ path m, n.Owns path m → n'.Owns path m
  listens : ∀ m, n'.listens m = n.listens m
  shelters : ∀ path m, m ≠ l → Shelters path m n n'

theorem Lasts.tends (h : n.Lasts n') (hg : n.Grows n') (l : Nat) : Tends l n n' :=
  ⟨fun _ _ ho => ho.congr h.directories h.entries, h.listens, fun path m _ => h.shelters hg path m⟩

theorem listens_served (n : Network) (l m : Nat) : (n.served l).listens m = n.listens m := by
  rw [listens, listens]
  show (((n.listeners.modify l _)[m]?).map _).getD false = _
  rw [List.getElem?_modify]
  cases n.listeners[m]? with
  | none => rfl
  | some k => by_cases hl : l = m <;> simp [hl]

theorem shelters_served (n : Network) (path : String) (h : m ≠ l) :
    Shelters path l n (n.served m) := by
  refine ⟨grows_served n m, fun ho => ho.congr rfl rfl, listens_served n m l, fun hq => ?_,
    fun hnone => (entryAt_congr rfl rfl path).trans hnone⟩
  rw [queueAt_served, if_neg h]
  exact hq

theorem tends_served (n : Network) (l : Nat) : Tends l n (n.served l) :=
  ⟨fun _ _ ho => ho.congr rfl rfl, listens_served n l,
    fun path _ hm => shelters_served n path fun heq => hm heq.symm⟩

theorem shelters_closeListener (n : Network) (path : String) (h : m ≠ l) :
    Shelters path l n (closeListener m n).state := by
  refine ⟨grows_closeListener m n, fun ho => ho.congr rfl rfl, ?_, fun hq => ?_,
    fun hnone => (entryAt_congr rfl rfl path).trans hnone⟩
  · rw [listens, listens]
    show (((n.listeners.set m _)[l]?).map _).getD false = _
    rw [List.getElem?_set_ne h]
  · rw [queueAt_closeListener, if_neg h]
    exact hq

theorem Owns.cleared (h : n.Owns path l) : ∃ place, n.locate path = some place ∧
    place ∉ n.directories ∧ n.entries.lookup place = some (.socket l) ∧
      n.cleared path = { n with entries := n.without place } := by
  obtain ⟨place, hplace, hdirectory, hentry⟩ := h.place
  refine ⟨place, hplace, hdirectory, hentry, ?_⟩
  rw [Network.cleared, remove, h.entryAt, hplace]
  rfl

theorem entryAt_cleared (h : n.Owns path l) : (n.cleared path).entryAt path = none := by
  obtain ⟨place, hplace, hdirectory, -, hcleared⟩ := h.cleared
  have hplace' : (n.cleared path).locate path = some place := by
    rw [hcleared]
    exact hplace
  rw [entryAt_of_place hplace', hcleared, if_neg hdirectory, without, lookup_filter_ne, if_pos rfl]
  rfl

theorem shelters_cleared {path' : String} (h : n.Owns path' m) (hne : m ≠ l) (path : String) :
    Shelters path l n (n.cleared path') := by
  obtain ⟨place', hplace', hdirectory', hentry', hcleared⟩ := h.cleared
  refine ⟨grows_cleared path' n, fun ho => ?_, ?_, ?_, fun hnone => ?_⟩
  · obtain ⟨place, hplace, hdirectory, hentry⟩ := ho.place
    have hapart : place ≠ place' := by
      intro heq
      rw [heq, hentry', Option.some_inj, Entry.socket.injEq] at hentry
      exact hne hentry
    rw [hcleared]
    refine ⟨ho.fit, place, hplace, hdirectory, ?_⟩
    rw [without, lookup_filter_ne, if_neg hapart]
    exact hentry
  · rw [hcleared]
    rfl
  · rw [hcleared]
    exact fun hq => hq
  · have hlocate : (n.cleared path').locate path = n.locate path := by
      rw [hcleared]
      rfl
    cases hplace : n.locate path with
    | none =>
      rw [entryAt, hlocate, hplace]
      rfl
    | some place =>
      rw [entryAt_of_place hplace, Option.or_eq_none_iff] at hnone
      rw [entryAt_of_place (hlocate.trans hplace), Option.or_eq_none_iff, hcleared, without,
        lookup_filter_ne, hnone.1, ite_self]
      exact ⟨rfl, hnone.2⟩

end RemoteAgent.Socket.Network
