import RemoteAgent.Proofs.Agent.Closing

/-! A service and its channel, while an agent ends: what holds of them at every moment, what they keep
while others move, and what each move of the service does to them. -/

namespace RemoteAgent.Agent

open RemoteAgent.Action Channel Socket Service

namespace Post

theorem host_of_inside {p : Post} {g : Guest} (h : p.inside = some g) : p.host = some g := by
  cases p with
  | _ => first | exact h | cases h

theorem guest_of_host {p : Post} {g : Guest} (h : p.host = some g) : p.guest = some g := by
  cases p with
  | _ => first | exact h | cases h

theorem stage_of_host {p : Post} {g : Guest} (h : p.host = some g) : p.stage = .outside := by
  cases p with
  | blocked => cases h
  | taken g => cases h
  | _ => rfl

theorem ne_done_of_inside {p : Post} {g : Guest} (h : p.inside = some g) : p ≠ done := by
  rintro rfl
  cases h

theorem not_waits_of_inside {p : Post} {g : Guest} (h : p.inside = some g) : ¬ p.Waits := by
  cases p with
  | offering => cases h
  | blocked => cases h
  | _ => exact id

end Post

structure Ward (r : Running) (c : Kind → Listening) (k : Kind) (w : World) : Prop where
  door : ∃ seat, (w.door k).Inv (r.channel k) { c k with seat }
  handed : ∀ g, (w.posts k).host = some g → g.connection ∈ w.handed k
  late : ∀ g, (w.posts k).guest = some g → g.late = true → w.stopping = true
  inside : ∀ g, (w.posts k).inside = some g → g.late = false
  served : ∀ g ∈ w.served k, g.late = false ∧ g.connection ∈ w.handed k
  cut : w.closer.Past (.disconnecting k) → ∀ g, (w.posts k).inside = some g ∨ g ∈ w.served k →
    w.hub.network.isShut g.connection = true
  woken : w.closer.Past (.waking k) → (w.posts k).Waits →
    w.hub.network.queueAt (c k).listener ≠ []
  joined : w.closer.Past (.joining k) → w.posts k = .done
  endpoint : ¬ w.closer.Past (.closing k) →
    w.hub.network.Owns (c k).name.socketPath (c k).listener ∧
      w.hub.network.listens (c k).listener = true ∧ w.hub.stateOf (r.channel k) ≠ .closed
  closed : w.closer.Past (.closing k) → w.hub.stateOf (r.channel k) = .closed ∧
    w.hub.network.entryAt (c k).name.socketPath = none

structure Steady (r : Running) (c : Kind → Listening) (k : Kind) (w w' : World) : Prop where
  posts : w'.posts k = w.posts k
  lists : w'.handed k = w.handed k ∧ w'.served k = w.served k
  stopping : w.stopping = true → w'.stopping = true
  door : ∃ seat, (w'.door k).Inv (r.channel k) { c k with seat }
  state : w'.hub.stateOf (r.channel k) = .closed ↔ w.hub.stateOf (r.channel k) = .closed
  shelters : Network.Shelters (c k).name.socketPath (c k).listener w.hub.network w'.hub.network
  cut : w'.closer.Past (.disconnecting k) →
    w.closer.Past (.disconnecting k) ∨ ∀ x ∈ w.handed k, w'.hub.network.isShut x = true
  woken : w'.closer.Past (.waking k) →
    w.closer.Past (.waking k) ∨ w'.hub.network.queueAt (c k).listener ≠ []
  joined : w'.closer.Past (.joining k) → w.closer.Past (.joining k) ∨ w.posts k = .done
  closing : w'.closer.Past (.closing k) ↔ w.closer.Past (.closing k)

/-- A service and its channel stay as they are, while others move. -/
structure Untouched (r : Running) (c : Kind → Listening) (k : Kind) (w w' : World) : Prop where
  posts : w'.posts k = w.posts k
  lists : w'.handed k = w.handed k ∧ w'.served k = w.served k
  stopping : w.stopping = true → w'.stopping = true
  channel : w'.hub.channels[r.channel k]? = w.hub.channels[r.channel k]?
  shelters : Network.Shelters (c k).name.socketPath (c k).listener w.hub.network w'.hub.network

/-- A service has moved on, which other services and their channels do not notice. -/
structure Tended (r : Running) (c : Kind → Listening) (k : Kind) (w w' : World) : Prop where
  busy : w.posts k ≠ .done
  closer : w'.closer = w.closer
  stopping : w'.stopping = w.stopping
  posts : ∀ j, j ≠ k → w'.posts j = w.posts j
  lists : ∀ j, j ≠ k → w'.handed j = w.handed j ∧ w'.served j = w.served j
  spares : w.hub.Spares (r.channel k) w'.hub
  network : Network.Tends (c k).listener w.hub.network w'.hub.network
  opens : w.hub.stateOf (r.channel k) ≠ .closed → w'.hub.stateOf (r.channel k) ≠ .closed
  door : ∃ seat, (w'.door k).Inv (r.channel k) { c k with seat }
  handed : ∀ x ∈ w.handed k, x ∈ w'.handed k
  host : ∀ g, (w'.posts k).host = some g → g.connection ∈ w'.handed k
  late : ∀ g, (w'.posts k).guest = some g → (w.posts k).guest = some g ∨ g.late = w.stopping
  inside : ∀ g, (w'.posts k).inside = some g → (w.posts k).inside = some g ∨ w.stopping = false
  served : ∀ g ∈ w'.served k, g ∈ w.served k ∨ (w.posts k).inside = some g
  waits : (w'.posts k).Waits → w.stopping = false ∨ (w.posts k).Waits ∧
    (w.hub.network.queueAt (c k).listener ≠ [] → w'.hub.network.queueAt (c k).listener ≠ [])

variable {r : Running} {c : Kind → Listening} {j k : Kind} {w w' : World}

theorem stateOf_congr {h h' : Hub} {i : Nat} (hchannel : h'.channels[i]? = h.channels[i]?) :
    h'.stateOf i = h.stateOf i := by
  rw [Hub.stateOf, Hub.seatOf, hchannel, Hub.stateOf, Hub.seatOf]

theorem Ward.steady (h : Ward r c k w) (hs : Steady r c k w w') : Ward r c k w' := by
  refine ⟨hs.door, ?_, ?_, ?_, ?_, ?_, ?_, ?_, ?_, ?_⟩
  · rw [hs.posts, hs.lists.1]
    exact h.handed
  · rw [hs.posts]
    exact fun g hg hlate => hs.stopping (h.late g hg hlate)
  · rw [hs.posts]
    exact h.inside
  · rw [hs.lists.1, hs.lists.2]
    exact h.served
  · rw [hs.posts, hs.lists.2]
    intro hpast g hg
    rcases hs.cut hpast with hold | hnew
    · exact hs.shelters.grows.shut _ (h.cut hold g hg)
    · rcases hg with hg | hg
      · exact hnew _ (h.handed g (Post.host_of_inside hg))
      · exact hnew _ (h.served g hg).2
  · rw [hs.posts]
    intro hpast hwaits
    rcases hs.woken hpast with hold | hnew
    · exact hs.shelters.queue (h.woken hold hwaits)
    · exact hnew
  · rw [hs.posts]
    exact fun hpast => (hs.joined hpast).elim h.joined id
  · rw [hs.closing, hs.shelters.listens, ne_eq, hs.state]
    intro hpast
    obtain ⟨howns, hlistens, hopen⟩ := h.endpoint hpast
    exact ⟨hs.shelters.owns howns, hlistens, hopen⟩
  · rw [hs.closing, hs.state]
    intro hpast
    obtain ⟨hclosed, hgone⟩ := h.closed hpast
    exact ⟨hclosed, hs.shelters.gone hgone⟩

theorem Untouched.steady (hu : Untouched r c k w w') (h : Ward r c k w)
    (hcut : w'.closer.Past (.disconnecting k) → w.closer.Past (.disconnecting k))
    (hwoken : w'.closer.Past (.waking k) →
      w.closer.Past (.waking k) ∨ w'.hub.network.queueAt (c k).listener ≠ [])
    (hjoined : w'.closer.Past (.joining k) → w.closer.Past (.joining k) ∨ w.posts k = .done)
    (hclosing : w'.closer.Past (.closing k) ↔ w.closer.Past (.closing k)) :
    Steady r c k w w' := by
  obtain ⟨seat, hdoor⟩ := h.door
  have hcarried := hdoor.carry hu.channel hu.shelters.grows
  refine ⟨hu.posts, hu.lists, hu.stopping, ⟨seat, ?_⟩, ?_, hu.shelters,
    fun hpast => .inl (hcut hpast), hwoken, hjoined, hclosing⟩
  · rw [World.door, hu.posts, hu.lists.1]
    exact hcarried
  · rw [stateOf_congr hu.channel]

theorem Ward.untouched (h : Ward r c k w) (hu : Untouched r c k w w')
    (hcloser : ∀ s : Closer, s.kind = some k → (w'.closer.Past s ↔ w.closer.Past s)) :
    Ward r c k w' :=
  h.steady (hu.steady h (hcloser _ rfl).1 (fun hpast => .inl ((hcloser _ rfl).1 hpast))
    (fun hpast => .inl ((hcloser _ rfl).1 hpast)) (hcloser _ rfl))

theorem Ward.tended (h : Ward r c k w) (hasked : w.closer ≠ .resting → w.stopping = true)
    (ht : Tended r c k w w') : Ward r c k w' := by
  -- a service that still moves was not waited for yet, so its channel is not closed either
  have hjoined : ¬ w.closer.Past (.joining k) := fun hpast => ht.busy (h.joined hpast)
  have hclosing : ¬ w.closer.Past (.closing k) := fun hpast =>
    hjoined (Closer.past_joining_of_past_closing hpast)
  have hlate : ∀ g, (w'.posts k).guest = some g → g.late = true → w.stopping = true := by
    intro g hg hlate
    rcases ht.late g hg with hold | hnew
    · exact h.late g hold hlate
    · exact hnew.symm.trans hlate
  refine ⟨ht.door, ht.host, ?_, fun g hg => ?_, fun g hg => ?_, ?_, ?_, ?_, ?_, ?_⟩
  · rw [ht.stopping]
    exact hlate
  · rcases ht.inside g hg with hold | hgo
    · exact h.inside g hold
    · have hstop := hlate g (Post.guest_of_host (Post.host_of_inside hg))
      rw [hgo] at hstop
      exact Bool.eq_false_iff.2 fun hlate => by cases hstop hlate
  · rcases ht.served g hg with hold | hold
    · exact ⟨(h.served g hold).1, ht.handed _ (h.served g hold).2⟩
    · exact ⟨h.inside g hold, ht.handed _ (h.handed g (Post.host_of_inside hold))⟩
  · rw [ht.closer]
    intro hpast g hg
    -- nobody is let in any more, so whoever is inside was there when the streams were cut
    have hstop := hasked (Closer.ne_resting_of_past hpast)
    refine ht.spares.grows.shut _ (h.cut hpast g ?_)
    rcases hg with hg | hg
    · refine .inl ((ht.inside g hg).resolve_right fun hgo => ?_)
      rw [hstop] at hgo
      cases hgo
    · exact (ht.served g hg).symm
  · rw [ht.closer]
    intro hpast hwaits
    -- no new wait begins, and one that goes on has taken nothing from the queue
    have hstop := hasked (Closer.ne_resting_of_past hpast)
    rcases ht.waits hwaits with hgo | ⟨hold, hqueue⟩
    · rw [hstop] at hgo
      cases hgo
    · exact hqueue (h.woken hpast hold)
  · rw [ht.closer]
    exact fun hpast => (hjoined hpast).elim
  · intro _
    obtain ⟨howns, hlistens, hopen⟩ := h.endpoint hclosing
    exact ⟨ht.network.endpoint _ _ howns, (ht.network.listens _).trans hlistens, ht.opens hopen⟩
  · rw [ht.closer]
    exact fun hpast => (hclosing hpast).elim

theorem Tended.untouched (ht : Tended r c k w w') (ha : Apart r c) (hj : j ≠ k) :
    Untouched r c j w w' := by
  refine ⟨ht.posts j hj, ht.lists j hj, fun hstop => ?_, ht.spares.others _ (ha.channels j k hj),
    ht.network.shelters _ _ (ha.listeners j k hj)⟩
  rw [ht.stopping, hstop]

section Place

variable {p : Post} {d : Door}

theorem place_self (p : Post) (w : World) : (w.place k p).posts k = p := Function.update_self ..

theorem place_ne (hj : j ≠ k) (p : Post) (w : World) : (w.place k p).posts j = w.posts j :=
  Function.update_of_ne hj ..

theorem through_self (d : Door) (w : World) : (w.through k d).handed k = d.handed :=
  Function.update_self ..

theorem through_ne (hj : j ≠ k) (d : Door) (w : World) : (w.through k d).handed j = w.handed j :=
  Function.update_of_ne hj ..

theorem Post.guest_of_outside (hp : p.stage = .outside) : p.guest = p.host := by
  cases p with
  | taken g => cases hp
  | _ => rfl

end Place

theorem Ward.tended_of_still (h : Ward r c k w) (hbusy : w.posts k ≠ .done)
    (hhub : w'.hub = w.hub) (hhanded : w'.handed = w.handed) (hcloser : w'.closer = w.closer)
    (hstopping : w'.stopping = w.stopping) (hposts : ∀ j, j ≠ k → w'.posts j = w.posts j)
    (hserved : ∀ j, j ≠ k → w'.served j = w.served j) (hstage : (w'.posts k).stage = .outside)
    (hhost : ∀ g, (w'.posts k).host = some g → (w.posts k).host = some g)
    (hinside : ∀ g, (w'.posts k).inside = some g → (w.posts k).inside = some g ∨ w.stopping = false)
    (hgain : ∀ g ∈ w'.served k, g ∈ w.served k ∨ (w.posts k).inside = some g)
    (hwaits : (w'.posts k).Waits → w.stopping = false) : Tended r c k w w' := by
  obtain ⟨seat, hdoor⟩ := h.door
  have hleft := hdoor.leave
  refine ⟨hbusy, hcloser, hstopping, hposts, fun j hj => ⟨by rw [hhanded], hserved j hj⟩, ?_, ?_, ?_,
    ⟨seat, ?_⟩, ?_, fun g hg => ?_, fun g hg => .inl ?_, hinside, hgain, fun hw => .inl (hwaits hw)⟩
  · rw [hhub]
    exact Hub.Spares.refl _ _
  · rw [hhub]
    exact (Network.Lasts.refl _).tends (Network.Grows.refl _) _
  · rw [hhub]
    exact fun hopen => hopen
  · rw [World.door, hhub, hstage, hhanded]
    exact hleft
  · rw [hhanded]
    exact fun x hx => hx
  · rw [hhanded]
    exact h.handed g (hhost g hg)
  · rw [Post.guest_of_outside hstage] at hg
    exact Post.guest_of_host (hhost g hg)

theorem Ward.tended_through (h : Ward r c k w) (hbusy : w.posts k ≠ .done) {mild : Prop} {d : Door}
    {seat : Seat} {c' : Listening} {result : Except Error Unit} {p : Post}
    (hdoor : (w.door k).Inv (r.channel k) { c k with seat })
    (hleads : Door.Leads mild (r.channel k) { c k with seat } (w.door k) c' (result, d))
    (hnetwork : Network.Tends (c k).listener w.hub.network d.hub.network)
    (hopens : seat.state ≠ .closed → c'.seat.state ≠ .closed) (hstage : p.stage = d.stage)
    (hhost : ∀ g, p.host = some g → (w.posts k).host = some g ∨ g.connection ∈ d.handed)
    (hlate : ∀ g, p.guest = some g → (w.posts k).guest = some g ∨ g.late = w.stopping)
    (hinside : ∀ g, p.inside = some g → (w.posts k).inside = some g)
    (hwaits : p.Waits → (w.posts k).Waits ∧
      (w.hub.network.queueAt (c k).listener ≠ [] → d.hub.network.queueAt (c k).listener ≠ [])) :
    Tended r c k w ((w.through k d).place k p) := by
  have hgrown : ∀ x ∈ w.handed k, x ∈ d.handed := by
    intro x hx
    rcases hleads.changes with ⟨-, hsame⟩ | ⟨-, -, y, -, hmore⟩
    · exact hsame ▸ hx
    · exact hmore ▸ List.mem_append_left [y] hx
  have hposts : ((w.through k d).place k p).posts k = p := place_self _ _
  have hhanded : ((w.through k d).place k p).handed k = d.handed := through_self d w
  refine ⟨hbusy, rfl, rfl, fun j hj => place_ne hj _ _, fun j hj => ⟨through_ne hj d w, rfl⟩,
    hleads.spares, hnetwork, ?_, ⟨c'.seat, ?_⟩, ?_, fun g hg => ?_, ?_, ?_, fun g hg => .inl hg,
    fun hw => .inr (hwaits (hposts ▸ hw))⟩
  · rw [show w.hub.stateOf (r.channel k) = seat.state from hdoor.stateOf,
      show ((w.through k d).place k p).hub.stateOf (r.channel k) = c'.seat.state from
        hleads.inv.stateOf]
    exact hopens
  · have hsame : ({ c k with seat := c'.seat } : Listening) = c' := hleads.same.symm
    rw [World.door, hposts, hhanded, hstage, hsame]
    exact hleads.inv
  · rw [hhanded]
    exact hgrown
  · rw [hposts] at hg
    rw [hhanded]
    rcases hhost g hg with hold | hnew
    · exact hgrown _ (h.handed g hold)
    · exact hnew
  · rw [hposts]
    exact hlate
  · rw [hposts]
    exact fun g hg => .inl (hinside g hg)

section Serve

theorem Ward.tended_place (h : Ward r c k w) (hbusy : w.posts k ≠ .done) {p : Post}
    (t : Bridge.Traffic)
    (hstage : p.stage = .outside) (hhost : ∀ g, p.host = some g → (w.posts k).host = some g)
    (hinside : ∀ g, p.inside = some g → (w.posts k).inside = some g ∨ w.stopping = false)
    (hwaits : p.Waits → w.stopping = false) :
    Tended r c k w ({ w with traffic := t }.place k p) := by
  have hposts : ({ w with traffic := t }.place k p).posts k = p := place_self p _
  refine h.tended_of_still hbusy rfl rfl rfl rfl (fun j hj => place_ne hj p _) (fun _ _ => rfl)
    ?_ ?_ ?_ (fun g hg => .inl hg) ?_
  · rw [hposts]
    exact hstage
  · rw [hposts]
    exact hhost
  · rw [hposts]
    exact hinside
  · rw [hposts]
    exact hwaits

theorem Ward.tended_alone (h : Ward r c k w) (hbusy : w.posts k ≠ .done) {p : Post}
    (hstage : p.stage = .outside) (hhost : p.host = none) (hwaits : p.Waits → w.stopping = false) :
    Tended r c k w (w.place k p) := by
  have hnone : ∀ g, p.host ≠ some g := by
    rw [hhost]
    exact fun g hg => by cases hg
  exact h.tended_place hbusy w.traffic hstage (fun g hg => (hnone g hg).elim)
    (fun g hg => (hnone g (Post.host_of_inside hg)).elim) hwaits

theorem Ward.tended_sitting (h : Ward r c k w) {g : Guest} (hg : (w.posts k).inside = some g)
    {p : Post} (hp : p.stage = .outside ∧ p.inside = some g) (t : Bridge.Traffic) :
    Tended r c k w ({ w with traffic := t }.place k p) := by
  have hsame : ∀ g', p.host = some g' → (w.posts k).inside = some g' := by
    intro g' hg'
    rw [Post.host_of_inside hp.2] at hg'
    rw [hg, hg']
  exact h.tended_place (Post.ne_done_of_inside hg) t hp.1
    (fun g' hg' => Post.host_of_inside (hsame g' hg'))
    (fun g' hg' => .inl (hsame g' (Post.host_of_inside hg'))) fun hw => by
      exact (Post.not_waits_of_inside hp.2 hw).elim

theorem Ward.tended_of_mild (h : Ward r c k w) (hbusy : w.posts k ≠ .done) (m : Door.Move)
    (hm : m.Mild) {p : Post} (hstage : p.stage = ((w.door k).move (r.channel k) m).2.stage)
    (hhost : ∀ g, p.host = some g →
      (w.posts k).host = some g ∨ g.connection ∈ ((w.door k).move (r.channel k) m).2.handed)
    (hlate : ∀ g, p.guest = some g → (w.posts k).guest = some g)
    (hinside : ∀ g, p.inside = some g → (w.posts k).inside = some g)
    (hwaits : p.Waits → (w.posts k).Waits) :
    Tended r c k w ((w.act r k m).place k p) := by
  obtain ⟨seat, hdoor⟩ := h.door
  obtain ⟨c', hleads⟩ := hdoor.leads m
  have hlasts := hleads.lasts hm
  exact h.tended_through hbusy hdoor hleads (hlasts.tends hleads.spares.grows _) (hleads.opens hm)
    hstage hhost (fun g hg => .inl (hlate g hg)) hinside
    fun hw => ⟨hwaits hw, hlasts.queue (c k).listener⟩

theorem wait_eq (m : Door.Move) (p : Door.Stage → Post) (w : World) :
    w.wait r k m p = (w.act r k m).place k
      (if ((w.door k).move (r.channel k) m).1.isOk then p ((w.door k).move (r.channel k) m).2.stage
        else .refused) := by
  rw [World.wait, World.act]
  cases (w.door k).move (r.channel k) m with
  | mk result d =>
    cases result with
    | ok u => rfl
    | error e => rfl

theorem Ward.tended_offering (h : Ward r c k w) (hpost : w.posts k = .offering) :
    Tended r c k w (w.wait r k .check fun _ => .blocked) := by
  have hoffered := Door.stage_check (i := r.channel k) (d := w.door k) (by rw [World.door, hpost]; rfl)
  have hbusy : w.posts k ≠ .done := by
    rw [hpost]
    exact Post.noConfusion
  rw [wait_eq]
  by_cases hok : ((w.door k).move (r.channel k) .check).1.isOk = true
  · rw [if_pos hok]
    refine h.tended_of_mild hbusy .check trivial ?_ (fun g hg => by cases hg) (fun g hg => by cases hg)
      (fun g hg => by cases hg) fun _ => hpost ▸ trivial
    exact (hoffered.trans (if_pos hok)).symm
  · rw [if_neg hok]
    refine h.tended_of_mild hbusy .check trivial ?_ (fun g hg => by cases hg) (fun g hg => by cases hg)
      (fun g hg => by cases hg) fun hw => hw.elim
    exact (hoffered.trans (if_neg hok)).symm

theorem Ward.tended_taken (h : Ward r c k w) {g : Guest} (hpost : w.posts k = .taken g) :
    Tended r c k w (w.wait r k .commit fun _ => .greeted g) := by
  obtain ⟨hstage, hhanded⟩ := Door.stage_commit (i := r.channel k) (d := w.door k)
    (x := g.connection) (by rw [World.door, hpost]; rfl)
  have hbusy : w.posts k ≠ .done := by
    rw [hpost]
    exact Post.noConfusion
  rw [wait_eq]
  by_cases hok : ((w.door k).move (r.channel k) .commit).1.isOk = true
  · rw [if_pos hok]
    refine h.tended_of_mild hbusy .commit trivial hstage.symm ?_ ?_ (fun g hg => by cases hg)
      fun hw => hw.elim
    · intro g' hg
      cases hg
      exact .inr (hhanded hok)
    · intro g' hg
      cases hg
      rw [hpost]
      rfl
  · rw [if_neg hok]
    exact h.tended_of_mild hbusy .commit trivial hstage.symm (fun g hg => by cases hg)
      (fun g hg => by cases hg) (fun g hg => by cases hg) fun hw => hw.elim

theorem Ward.tended_blocked (h : Ward r c k w) (hpost : w.posts k = .blocked) :
    Tended r c k w (w.wait r k .accept fun
      | .taken x => .taken ⟨x, w.stopping⟩
      | _ => .blocked) := by
  obtain ⟨seat, hdoor⟩ := h.door
  have hstage : (w.door k).stage = .blocked := by
    rw [World.door, hpost]
    rfl
  have haccept : (w.door k).move (r.channel k) .accept = _ :=
    Door.accept_of_channel hdoor.channel hstage
  have hbusy : w.posts k ≠ .done := by
    rw [hpost]
    exact Post.noConfusion
  have hwaits : (w.posts k).Waits := by
    rw [hpost]
    exact trivial
  obtain ⟨c', hleads⟩ := hdoor.leads_accept
  rw [World.wait, haccept]
  rw [Door.accept_of_channel hdoor.channel hstage] at hleads
  cases hqueue : (w.door k).hub.network.queueAt (c k).listener with
  | nil =>
    -- nobody has come: it goes on waiting, and the queue is as it was
    dsimp only
    rw [hstage]
    exact h.tended_through hbusy hdoor (.stays hdoor (.ok ()) : Door.Leads False _ _ _ _ _)
      ((Network.Lasts.refl _).tends (Network.Grows.refl _) _) (fun hopen => hopen) hstage.symm
      (fun g hg => by cases hg) (fun g hg => by cases hg) (fun g hg => by cases hg)
      fun _ => ⟨hwaits, fun hq => hq⟩
  | cons x queue =>
    rw [hqueue] at hleads
    have hsame : some c' = some { c k with seat } := hleads.inv.channel.symm.trans hdoor.channel
    cases hsame
    refine h.tended_through hbusy hdoor hleads (Network.tends_served _ _) (fun hopen => hopen) rfl
      (fun g hg => by cases hg) ?_ (fun g hg => by cases hg) fun hw => hw.elim
    intro g hg
    cases hg
    exact .inr rfl

theorem Ward.tended_onHub (h : Ward r c k w) {g : Guest} (hpost : (w.posts k).host = some g)
    {m : Door.Move} (hm : m.Mild)
    (hmove : ((w.door k).move (r.channel k) m).2.stage = (w.posts k).stage) {p : Post}
    (hp : p.stage = .outside ∧ (p.host = none ∨ p.inside = some g ∧ (w.posts k).inside = some g))
    (hwaits : ¬ p.Waits) : Tended r c k w ((w.act r k m).place k p) := by
  have hbusy : w.posts k ≠ .done := by
    intro hdone
    rw [hdone] at hpost
    cases hpost
  have houtside : (w.posts k).stage = .outside := Post.stage_of_host hpost
  have hkeeps : ∀ g', p.host = some g' → (w.posts k).inside = some g' := by
    intro g' hg'
    rcases hp.2 with hnone | ⟨hin, hsame⟩
    · rw [hnone] at hg'
      cases hg'
    · rw [Post.host_of_inside hin] at hg'
      rw [hsame, hg']
  refine h.tended_of_mild hbusy m hm (by rw [hmove, houtside, hp.1])
    (fun g' hg' => .inl (Post.host_of_inside (hkeeps g' hg'))) (fun g' hg' => ?_)
    (fun g' hg' => hkeeps g' (Post.host_of_inside hg')) fun hw => (hwaits hw).elim
  rw [Post.guest_of_outside hp.1] at hg'
  exact Post.guest_of_host (Post.host_of_inside (hkeeps g' hg'))

theorem Ward.tended_begin (h : Ward r c k w) {g : Guest} (hpost : w.posts k = .admitted g) :
    Tended r c k w (w.begin k g) := by
  have hin : (w.posts k).inside = some g := by
    rw [hpost]
    rfl
  have hposts : ∃ s, (w.begin k g).posts = Function.update w.posts k (.serving g s) := by
    cases k with
    | command => exact ⟨none, rfl⟩
    | data => exact ⟨_, rfl⟩
  have hserved : (w.begin k g).served = Function.update w.served k (w.served k ++ [g]) := by
    cases k with
    | command => rfl
    | data => rfl
  obtain ⟨s, hposts⟩ := hposts
  have hpost' : (w.begin k g).posts k = .serving g s := by rw [hposts, Function.update_self]
  have hkeeps : ∀ g', (Post.serving g s).inside = some g' → (w.posts k).inside = some g' := by
    intro g' hg'
    cases hg'
    exact hin
  have hrest : (w.begin k g).hub = w.hub ∧ (w.begin k g).handed = w.handed ∧
      (w.begin k g).closer = w.closer ∧ (w.begin k g).stopping = w.stopping := by
    cases k with
    | command => exact ⟨rfl, rfl, rfl, rfl⟩
    | data => exact ⟨rfl, rfl, rfl, rfl⟩
  obtain ⟨hhub, hhanded, hcloser, hstopping⟩ := hrest
  refine h.tended_of_still (Post.ne_done_of_inside hin) hhub hhanded hcloser hstopping
    (fun j hj => by rw [hposts, Function.update_of_ne hj])
    (fun j hj => by rw [hserved, Function.update_of_ne hj]) ?_ ?_ ?_ ?_ ?_
  · rw [hpost']
    rfl
  · rw [hpost']
    exact fun g' hg' => Post.host_of_inside (hkeeps g' hg')
  · rw [hpost']
    exact fun g' hg' => .inl (hkeeps g' hg')
  · rw [hserved, Function.update_self]
    intro g' hg'
    rcases List.mem_append.1 hg' with hg' | hg'
    · exact .inl hg'
    · exact .inr (List.mem_singleton.1 hg' ▸ hin)
  · rw [hpost']
    exact fun hw => hw.elim

theorem Ward.tended_serve (h : Ward r c k w) (hbusy : w.posts k ≠ .done)
    (hcalling : (w.posts k).isCalling = false) (amiss : Bool) :
    Tended r c k w (w.serve r k amiss) := by
  have hgo : ¬ w.stopping = true → w.stopping = false := Bool.eq_false_iff.2
  have hinside : ∀ {p : Post} {g : Guest}, w.posts k = p → p.inside = some g →
      (w.posts k).inside = some g := fun hpost hg => hpost ▸ hg
  rw [World.serve]
  cases hpost : w.posts k with
  | testing =>
    dsimp only
    split
    · exact h.tended_alone hbusy rfl rfl fun hw => hw.elim
    · next hasked => exact h.tended_alone hbusy rfl rfl fun _ => hgo hasked
  | offering => exact h.tended_offering hpost
  | blocked =>
    dsimp only
    split
    · exact h.tended_alone hbusy rfl rfl fun hw => hw.elim
    · exact h.tended_blocked hpost
  | taken g =>
    dsimp only
    split
    · refine h.tended_of_mild hbusy (.cloneFails OsError.tooManyFiles.toIoError) trivial ?_
        (fun g hg => by cases hg) (fun g hg => by cases hg) (fun g hg => by cases hg) fun hw => hw.elim
      rw [World.door, hpost]
      rfl
    · exact h.tended_taken hpost
  | refused =>
    dsimp only
    split
    · exact h.tended_alone hbusy rfl rfl fun hw => hw.elim
    · exact h.tended_alone hbusy rfl rfl fun hw => hw.elim
  | doubting =>
    dsimp only
    split
    · exact h.tended_alone hbusy rfl rfl fun hw => hw.elim
    · exact h.tended_alone hbusy rfl rfl fun hw => hw.elim
  | greeted g =>
    have hhost : ∀ g', some g = some g' → (w.posts k).host = some g' := by
      rw [hpost]
      exact fun g' hg' => hg'
    dsimp only
    split
    · exact h.tended_place hbusy w.traffic rfl hhost (fun g hg => by cases hg) fun hw => hw.elim
    · next hasked =>
      exact h.tended_place hbusy w.traffic rfl hhost (fun _ _ => .inr (hgo hasked)) fun hw => hw.elim
  | dismissing g =>
    exact h.tended_onHub (m := .disconnect) (by rw [hpost]; rfl) trivial rfl ⟨rfl, .inl rfl⟩ id
  | admitted g => exact h.tended_begin hpost
  | serving g session =>
    have hin := hinside hpost (g := g) rfl
    cases session with
    | none => exact h.tended_sitting hin ⟨rfl, rfl⟩ w.traffic
    | some s =>
      dsimp only
      split
      · exact h.tended_sitting hin ⟨rfl, rfl⟩ w.traffic
      · exact h.tended_sitting hin ⟨rfl, rfl⟩ w.traffic
  | watching g s =>
    have hin := hinside hpost (g := g) rfl
    dsimp only
    split
    · exact h.tended_sitting hin ⟨rfl, rfl⟩ w.traffic
    · exact h.tended_sitting hin ⟨rfl, rfl⟩ w.traffic
  | probing g s =>
    have hin := hinside hpost (g := g) rfl
    have hhost := Post.host_of_inside hin
    dsimp only
    split
    · exact h.tended_onHub (m := .isConnected) hhost trivial rfl ⟨rfl, .inr ⟨rfl, hin⟩⟩ id
    · exact h.tended_onHub (m := .isConnected) hhost trivial rfl ⟨rfl, .inr ⟨rfl, hin⟩⟩ id
  | ending g s => exact h.tended_sitting (hinside hpost (g := g) rfl) ⟨rfl, rfl⟩ _
  | detached g s => exact h.tended_sitting (hinside hpost (g := g) rfl) ⟨rfl, rfl⟩ w.traffic
  | parting g broken =>
    have hin := hinside hpost (g := g) rfl
    cases broken with
    | true =>
      exact h.tended_onHub (m := .markBroken) (Post.host_of_inside hin) trivial rfl
        ⟨rfl, .inr ⟨rfl, hin⟩⟩ id
    | false => exact h.tended_sitting hin ⟨rfl, rfl⟩ w.traffic
  | leaving g =>
    exact h.tended_onHub (m := .disconnect) (by rw [hpost]; rfl) trivial rfl ⟨rfl, .inl rfl⟩ id
  | calling g =>
    rw [hpost] at hcalling
    cases hcalling
  | done => exact (hbusy hpost).elim

end Serve

end RemoteAgent.Agent
