import RemoteAgent.Proofs.Agent.Ward
import RemoteAgent.Proofs.Bridge.Slot
import RemoteAgent.Proofs.Socket.Places

/-! The end of an agent leaves no service stuck. Once its peer was cut off and a connection made to its
channel, a service neither waits in vain nor uses a stream that is open, whoever moves in between; nobody
is served who came after the services were asked to stop; and in the end both channels are closed. -/

namespace RemoteAgent

open RemoteAgent.Action Channel Socket Service

namespace Agent

variable {r : Running} {c : Kind → Listening} {j k : Kind} {w w' : World} {s : Nat}

section Bridge

def World.Attended (w : World) : Prop :=
  ∀ s, w.traffic.bridge.active = some s → (w.posts .data).session = some s

theorem traffic_wait (m : Door.Move) (p : Door.Stage → Post) (w : World) :
    (w.wait r k m p).traffic = w.traffic := by
  rw [wait_eq]
  rfl

theorem traffic_serve (hadmitted : ∀ g, w.posts k ≠ .admitted g)
    (hending : ∀ g s, w.posts k ≠ .ending g s) (amiss : Bool) :
    (w.serve r k amiss).traffic = w.traffic := by
  rw [World.serve]
  cases hpost : w.posts k with
  | admitted g => exact (hadmitted g hpost).elim
  | ending g s => exact (hending g s hpost).elim
  | offering => exact traffic_wait ..
  | blocked =>
    cases amiss with
    | true => rfl
    | false =>
      dsimp only
      rw [if_neg Bool.false_ne_true, traffic_wait]
  | taken g =>
    cases amiss with
    | true => rfl
    | false =>
      dsimp only
      rw [if_neg Bool.false_ne_true, traffic_wait]
  | serving g session =>
    cases session with
    | none => rfl
    | some s => rfl
  | parting g broken =>
    cases broken with
    | true => rfl
    | false => rfl
  | _ => rfl

theorem served_serve (hadmitted : ∀ g, w.posts k ≠ .admitted g) (amiss : Bool) :
    (w.serve r k amiss).served = w.served := by
  have hwait : ∀ (m : Door.Move) (p : Door.Stage → Post), (w.wait r k m p).served = w.served := by
    intro m p
    rw [wait_eq]
    rfl
  rw [World.serve]
  cases hpost : w.posts k with
  | admitted g => exact (hadmitted g hpost).elim
  | offering => exact hwait ..
  | blocked =>
    dsimp only
    split
    · rfl
    · exact hwait ..
  | taken g =>
    dsimp only
    split
    · rfl
    · exact hwait ..
  | serving g session =>
    cases session with
    | none => rfl
    | some s => rfl
  | parting g broken =>
    cases broken with
    | true => rfl
    | false => rfl
  | _ => rfl

theorem session_serve (hadmitted : ∀ g, w.posts k ≠ .admitted g)
    (hending : ∀ g s, w.posts k ≠ .ending g s) (amiss : Bool) :
    ((w.serve r k amiss).posts k).session = (w.posts k).session := by
  have hlook : ∀ {b : Prop} [Decidable b] {p q : Post} {session : Option Nat},
      p.session = session → q.session = session → (if b then p else q).session = session := by
    intro b _ p q session hp hq
    split
    · exact hp
    · exact hq
  have hwait : ∀ {m : Door.Move} {p : Door.Stage → Post}, (∀ stage, (p stage).session = none) →
      ((w.wait r k m p).posts k).session = none := by
    intro m p hp
    rw [wait_eq, place_self]
    exact hlook (hp _) rfl
  rw [World.serve]
  cases hpost : w.posts k with
  | admitted g => exact (hadmitted g hpost).elim
  | ending g s => exact (hending g s hpost).elim
  | offering => exact hwait fun _ => rfl
  | blocked =>
    dsimp only
    split
    · rw [place_self]
      rfl
    · refine hwait fun stage => ?_
      cases stage with
      | taken x => rfl
      | _ => rfl
  | taken g =>
    dsimp only
    split
    · rw [place_self]
      rfl
    · exact hwait fun _ => rfl
  | serving g session =>
    cases session with
    | none =>
      dsimp only
      rw [place_self]
      rfl
    | some s =>
      dsimp only
      rw [place_self]
      exact hlook rfl rfl
  | calling g =>
    dsimp only
    rw [hpost]
  | done =>
    dsimp only
    rw [hpost]
  | _ =>
    dsimp only
    rw [place_self]
    first | exact hlook rfl rfl | rfl

theorem World.Attended.serve (h : w.Attended) (amiss : Bool) :
    (w.serve r .data amiss).Attended := by
  intro s hactive
  by_cases hadmitted : ∃ g, w.posts .data = .admitted g
  · obtain ⟨g, hpost⟩ := hadmitted
    rw [World.serve, hpost] at hactive ⊢
    dsimp only at hactive ⊢
    cases hactive
    exact congrArg Post.session (place_self _ _)
  by_cases hending : ∃ g s', w.posts .data = .ending g s'
  · obtain ⟨g, s', hpost⟩ := hending
    rw [World.serve, hpost] at hactive
    obtain ⟨hold, hother⟩ := (Bridge.detachSession_state s' w.traffic.bridge).2 s hactive
    have hsession := h s hold
    rw [hpost] at hsession
    cases hsession
    exact (hother rfl).elim
  · have hadmitted : ∀ g, w.posts .data ≠ .admitted g := fun g hg => hadmitted ⟨g, hg⟩
    have hending : ∀ g s', w.posts .data ≠ .ending g s' := fun g s' hg => hending ⟨g, s', hg⟩
    rw [traffic_serve hadmitted hending] at hactive
    rw [session_serve hadmitted hending]
    exact h s hactive

theorem active_serve_command {amiss : Bool}
    (h : (w.serve r .command amiss).traffic.bridge.active = some s) :
    w.traffic.bridge.active = some s := by
  by_cases hadmitted : ∃ g, w.posts .command = .admitted g
  · obtain ⟨g, hpost⟩ := hadmitted
    rw [World.serve, hpost] at h
    exact h
  by_cases hending : ∃ g s', w.posts .command = .ending g s'
  · obtain ⟨g, s', hpost⟩ := hending
    rw [World.serve, hpost] at h
    exact ((Bridge.detachSession_state s' w.traffic.bridge).2 s h).1
  · rw [traffic_serve (fun g hg => hadmitted ⟨g, hg⟩) fun g s' hg => hending ⟨g, s', hg⟩] at h
    exact h

/-- Each session of the bridge is that of a guest of the data service. -/
def World.Paired (w : World) : Prop := w.traffic.bridge.sessions.length = (w.served .data).length

theorem World.Paired.begin (h : w.Paired) (k : Kind) (g : Guest) : (w.begin k g).Paired := by
  cases k with
  | command =>
    have hserved : (w.begin .command g).served .data = w.served .data := by
      show Function.update w.served .command (w.served .command ++ [g]) .data = _
      exact Function.update_of_ne Kind.noConfusion ..
    rw [World.Paired, hserved]
    exact h
  | data =>
    have hserved : (w.begin .data g).served .data = w.served .data ++ [g] := by
      show Function.update w.served .data (w.served .data ++ [g]) .data = _
      exact Function.update_self ..
    obtain ⟨s, hsessions⟩ : ∃ s, (w.begin .data g).traffic.bridge.sessions =
      w.traffic.bridge.sessions ++ [s] := ⟨_, rfl⟩
    rw [World.Paired, hserved, hsessions, List.length_append, List.length_append, h]
    rfl

theorem World.Paired.serve (h : w.Paired) (k : Kind) (amiss : Bool) :
    (w.serve r k amiss).Paired := by
  by_cases hadmitted : ∃ g, w.posts k = .admitted g
  · obtain ⟨g, hpost⟩ := hadmitted
    rw [World.serve, hpost]
    exact h.begin k g
  · have hadmitted : ∀ g, w.posts k ≠ .admitted g := fun g hg => hadmitted ⟨g, hg⟩
    rw [World.Paired, served_serve hadmitted, ← h]
    by_cases hending : ∃ g s, w.posts k = .ending g s
    · obtain ⟨g, s, hpost⟩ := hending
      rw [World.serve, hpost]
      exact Bridge.Traffic.length_detachSession s _
    · rw [traffic_serve hadmitted fun g s hg => hending ⟨g, s, hg⟩]

end Bridge

structure World.Inv (r : Running) (c : Kind → Listening) (w : World) : Prop where
  wards : ∀ k, Ward r c k w
  asked : w.closer ≠ .resting → w.stopping = true
  attended : w.Attended
  paired : w.Paired

theorem isCalling_eq_false {p : Post} (h : ∀ g, p ≠ .calling g) : p.isCalling = false := by
  cases p with
  | calling g => exact (h g rfl).elim
  | _ => rfl

theorem World.Inv.serve (h : w.Inv r c) (ha : Apart r c) (k : Kind) (amiss : Bool) :
    (w.serve r k amiss).Inv r c := by
  by_cases hdone : w.posts k = .done
  · have hstays : w.serve r k amiss = w := by rw [World.serve, hdone]
    rw [hstays]
    exact h
  by_cases hcalling : ∃ g, w.posts k = .calling g
  · obtain ⟨g, hpost⟩ := hcalling
    have hstays : w.serve r k amiss = w := by rw [World.serve, hpost]
    rw [hstays]
    exact h
  · have ht := (h.wards k).tended_serve hdone
      (isCalling_eq_false fun g hpost => hcalling ⟨g, hpost⟩) amiss
    refine ⟨fun j => ?_, ?_, ?_, h.paired.serve k amiss⟩
    · by_cases hj : j = k
      · rw [hj]
        exact (h.wards k).tended h.asked ht
      · refine (h.wards j).untouched (ht.untouched ha hj) fun s _ => ?_
        rw [ht.closer]
    · rw [ht.closer, ht.stopping]
      exact h.asked
    · cases k with
      | data => exact h.attended.serve amiss
      | command =>
        intro s hactive
        rw [ht.posts .data Kind.noConfusion]
        exact h.attended s (active_serve_command hactive)

theorem World.Inv.close_of_steady (h : w.Inv r c) (hcloser : w'.closer = w.closer.next)
    (hstopping : w'.stopping = true) (htraffic : w'.traffic = w.traffic) (hposts : w'.posts = w.posts)
    (hserved : w'.served = w.served)
    (hown : ∀ k, w.closer.kind = some k → Ward r c k w')
    (hothers : ∀ j, w.closer.kind ≠ some j → Untouched r c j w w') : w'.Inv r c := by
  refine ⟨fun j => ?_, fun _ => hstopping, fun s hactive => ?_, ?_⟩
  · by_cases hj : w.closer.kind = some j
    · exact hown j hj
    · -- going on from the one channel passes no stage of the other
      refine (h.wards j).untouched (hothers j hj) fun s hs => ?_
      rw [hcloser]
      refine Closer.past_next fun heq => hj ?_
      rw [heq, hs]
  · rw [htraffic] at hactive
    rw [hposts]
    exact h.attended s hactive
  · rw [World.Paired, htraffic, hserved]
    exact h.paired

theorem close_of_closing (hcloser : w.closer = .closing k) (hdone : w.posts k = .done) :
    w.close r = { w.through k ((w.door k).onHub (Hub.drop (r.channel k))).2 with
      closer := w.closer.next } := by
  have hstage : (w.door k).stage = .outside := by
    rw [World.door, hdone]
    rfl
  rw [World.close, hcloser, ← Door.drop_of_outside hstage]
  rfl

section Close

variable (h : w.Inv r c)
include h

theorem World.Inv.close_resting (hcloser : w.closer = .resting) : (w.close r).Inv r c := by
  rw [World.close, hcloser]
  refine h.close_of_steady (by rw [hcloser]) rfl rfl rfl rfl (fun k hk => ?_) fun j _ =>
    ⟨rfl, ⟨rfl, rfl⟩, fun _ => rfl, rfl, (Network.Lasts.refl _).shelters (Network.Grows.refl _) _ _⟩
  rw [hcloser] at hk
  cases hk

theorem World.Inv.close_disconnecting (ha : Apart r c) (hcloser : w.closer = .disconnecting k) :
    (w.close r).Inv r c := by
  have hstop := h.asked (by rw [hcloser]; exact Closer.noConfusion)
  obtain ⟨seat, hdoor⟩ := (h.wards k).door
  obtain ⟨c', hleads⟩ := hdoor.leads .disconnect
  have hlasts := hleads.lasts trivial
  have hhanded : (w.act r k .disconnect).handed k = w.handed k := through_self _ w
  have hpast : ∀ {s : Closer}, w.closer ≠ s → w.closer.next.Past s → w.closer.Past s :=
    fun hne => (Closer.past_next hne).1
  have hne : w.closer ≠ .waking k ∧ w.closer ≠ .joining k ∧ w.closer ≠ .closing k := by
    rw [hcloser]
    exact ⟨Closer.noConfusion, Closer.noConfusion, Closer.noConfusion⟩
  have hclose : w.close r = { w.act r k .disconnect with closer := w.closer.next } := by
    rw [World.close, hcloser]
  rw [hclose]
  refine h.close_of_steady rfl hstop rfl rfl rfl (fun j hj => ?_) fun j hj => ?_
  · rw [hcloser] at hj
    cases hj
    refine (h.wards k).steady ⟨rfl, ⟨hhanded, rfl⟩, id, ⟨c'.seat, ?_⟩, hdoor.closed_iff trivial,
      hlasts.shelters hleads.spares.grows _ _, fun _ => .inr fun x hx => hdoor.shut_disconnect hx,
      fun h' => .inl (hpast hne.1 h'), fun h' => .inl (hpast hne.2.1 h'),
      Closer.past_next hne.2.2⟩
    have hsame : ({ c k with seat := c'.seat } : Listening) = c' := hleads.same.symm
    rw [hsame, World.door]
    dsimp only
    rw [hhanded]
    exact hleads.inv
  · have hjk : j ≠ k := by
      rintro rfl
      rw [hcloser] at hj
      exact hj rfl
    exact ⟨rfl, ⟨through_ne hjk _ w, rfl⟩, id, hleads.spares.others _ (ha.channels j k hjk),
      hlasts.shelters hleads.spares.grows _ _⟩

theorem World.Inv.close_waking (ha : Apart r c) (hcloser : w.closer = .waking k) :
    (w.close r).Inv r c := by
  have hstop := h.asked (by rw [hcloser]; exact Closer.noConfusion)
  have hopen : ¬ w.closer.Past (.closing k) := by
    rw [hcloser]
    cases k <;> decide
  let deed := Deed.connect (r.name k).socketPath
  have huntouched : ∀ j, Untouched r c j w
      { w with hub := (Hub.connect (r.name k) w.hub).state, closer := w.closer.next } := fun j =>
    ⟨rfl, ⟨rfl, rfl⟩, id, rfl, (deed.lasts w.hub.network).shelters (deed.grows w.hub.network) _ _⟩
  have hclose : w.close r =
      { w with hub := (Hub.connect (r.name k) w.hub).state, closer := w.closer.next } := by
    rw [World.close, hcloser]
  rw [hclose]
  refine h.close_of_steady rfl hstop rfl rfl rfl (fun j hj => ?_) fun j _ => huntouched j
  rw [hcloser] at hj
  cases hj
  have hne : w.closer ≠ .disconnecting k ∧ w.closer ≠ .joining k ∧ w.closer ≠ .closing k := by
    rw [hcloser]
    exact ⟨Closer.noConfusion, Closer.noConfusion, Closer.noConfusion⟩
  refine (h.wards k).steady ((huntouched k).steady (h.wards k) (Closer.past_next hne.1).1
    (fun _ => .inr ?_) (fun h' => .inl ((Closer.past_next hne.2.1).1 h'))
    (Closer.past_next hne.2.2))
  obtain ⟨howns, hlistens, -⟩ := (h.wards k).endpoint hopen
  rw [ha.names] at howns
  have hjoined : (Hub.connect (r.name k) w.hub).state =
      w.hub.renet (w.hub.network.joined (c k).listener) := by
    rw [Hub.connect, Hub.inNetwork_apply, Network.connect_of_owns howns hlistens]
  dsimp only
  rw [hjoined]
  exact Network.queueAt_joined_ne_nil hlistens

theorem World.Inv.close_joining (hcloser : w.closer = .joining k) : (w.close r).Inv r c := by
  have hstop := h.asked (by rw [hcloser]; exact Closer.noConfusion)
  have hclose : w.close r =
      if w.posts k = .done then { w with closer := w.closer.next } else w := by
    rw [World.close, hcloser]
  rw [hclose]
  split
  · next hdone =>
    have huntouched : ∀ j, Untouched r c j w { w with closer := w.closer.next } := fun j =>
      ⟨rfl, ⟨rfl, rfl⟩, id, rfl, (Network.Lasts.refl _).shelters (Network.Grows.refl _) _ _⟩
    refine h.close_of_steady rfl hstop rfl rfl rfl (fun j hj => ?_) fun j _ => huntouched j
    rw [hcloser] at hj
    cases hj
    have hne : w.closer ≠ .disconnecting k ∧ w.closer ≠ .waking k ∧ w.closer ≠ .closing k := by
      rw [hcloser]
      exact ⟨Closer.noConfusion, Closer.noConfusion, Closer.noConfusion⟩
    exact (h.wards k).steady ((huntouched k).steady (h.wards k) (Closer.past_next hne.1).1
      (fun h' => .inl ((Closer.past_next hne.2.1).1 h')) (fun _ => .inr hdone)
      (Closer.past_next hne.2.2))
  · exact h

theorem World.Inv.drop_closing (hcloser : w.closer = .closing k) : ∃ seat,
    (w.door k).Inv (r.channel k) { c k with seat } ∧
      (Hub.drop (r.channel k) w.hub).state = w.hub.reseat (r.channel k) .close
        (w.hub.network.razed seat.peer (c k).name.socketPath (c k).listener) ∧
      w.hub.network.Owns (c k).name.socketPath (c k).listener := by
  obtain ⟨howns, -, hopen⟩ := (h.wards k).endpoint (by rw [hcloser]; exact Closer.not_past_self _)
  obtain ⟨seat, hdoor⟩ := (h.wards k).door
  have hseat : seat.state ≠ .closed := by
    rw [← show w.hub.stateOf (r.channel k) = seat.state from hdoor.stateOf]
    exact hopen
  exact ⟨seat, hdoor, Hub.drop_of_open hdoor.channel hseat, howns⟩

theorem World.Inv.ward_closing (hcloser : w.closer = .closing k) (hdone : w.posts k = .done) :
    Ward r c k (w.close r) := by
  have hward := h.wards k
  have hpast : w.closer.next.Past (.closing k) := by
    rw [hcloser]
    exact Closer.past_next_self Closer.noConfusion
  obtain ⟨seat, hdoor, hhub, howns⟩ := h.drop_closing hcloser
  obtain ⟨c', hleads⟩ := hdoor.leads_drop
  rw [Door.drop_of_outside (by rw [World.door, hdone]; rfl)] at hleads
  have hsame : ({ c k with seat := c'.seat } : Listening) = c' := hleads.same.symm
  have hhanded : (w.through k ((w.door k).onHub (Hub.drop (r.channel k))).2).handed k = w.handed k :=
    through_self _ w
  have hnobody : ∀ g, (w.posts k).guest ≠ some g := by
    intro g hg
    rw [hdone] at hg
    cases hg
  rw [close_of_closing hcloser hdone]
  refine ⟨⟨c'.seat, ?_⟩, fun g hg => (hnobody g (Post.guest_of_host hg)).elim,
    fun g hg => (hnobody g hg).elim, hward.inside, ?_, fun _ g hg => ?_, fun _ hw => ?_,
    fun _ => hdone, fun hno => (hno hpast).elim, fun _ => ⟨?_, ?_⟩⟩
  · rw [hsame, World.door]
    dsimp only
    rw [hhanded]
    exact hleads.inv
  · dsimp only
    rw [hhanded]
    exact hward.served
  · refine hleads.spares.grows.shut _ (hward.cut ?_ g hg)
    rw [hcloser]
    cases k <;> decide
  · dsimp only [World.through] at hw
    rw [hdone] at hw
    exact hw.elim
  · show (Hub.drop (r.channel k) w.hub).state.stateOf (r.channel k) = .closed
    have hchannel : w.hub.channels[r.channel k]? = some { c k with seat } := hdoor.channel
    rw [hhub, Hub.stateOf, Hub.seatOf_of_channel (Hub.channel_reseat hchannel)]
    rfl
  · show (Hub.drop (r.channel k) w.hub).state.network.entryAt (c k).name.socketPath = none
    rw [hhub]
    exact Network.entryAt_razed howns _

theorem World.Inv.close_closing (ha : Apart r c) (hcloser : w.closer = .closing k) :
    (w.close r).Inv r c := by
  have hstop := h.asked (by rw [hcloser]; exact Closer.noConfusion)
  have hdone : w.posts k = .done := (h.wards k).joined (by rw [hcloser]; cases k <;> decide)
  have hward := h.ward_closing hcloser hdone
  obtain ⟨seat, hdoor, hhub, howns⟩ := h.drop_closing hcloser
  obtain ⟨c', hleads⟩ := hdoor.leads_drop
  rw [Door.drop_of_outside (by rw [World.door, hdone]; rfl)] at hleads
  rw [close_of_closing hcloser hdone] at hward ⊢
  refine h.close_of_steady rfl hstop rfl rfl rfl (fun j hj => ?_) fun j hj => ?_
  · rw [hcloser] at hj
    cases hj
    exact hward
  · have hjk : j ≠ k := by
      rintro rfl
      rw [hcloser] at hj
      exact hj rfl
    refine ⟨rfl, ⟨through_ne hjk _ w, rfl⟩, id, hleads.spares.others _ (ha.channels j k hjk), ?_⟩
    show Network.Shelters _ _ w.hub.network (Hub.drop (r.channel k) w.hub).state.network
    rw [hhub]
    exact Network.shelters_razed howns (ha.listeners k j hjk.symm) _ _

end Close

theorem World.Inv.close (h : w.Inv r c) (ha : Apart r c) : (w.close r).Inv r c := by
  cases hcloser : w.closer with
  | resting => exact h.close_resting hcloser
  | disconnecting k => exact h.close_disconnecting ha hcloser
  | waking k => exact h.close_waking ha hcloser
  | joining k => exact h.close_joining hcloser
  | closing k => exact h.close_closing ha hcloser
  | returned =>
    rw [World.close, hcloser]
    exact h

theorem World.Inv.of_untouched (h : w.Inv r c) (hcloser : w'.closer = w.closer)
    (hstopping : w.stopping = true → w'.stopping = true) (hposts : w'.posts = w.posts)
    (hactive : ∀ s, w'.traffic.bridge.active = some s → w.traffic.bridge.active = some s)
    (hsessions : w'.traffic.bridge.sessions.length = w.traffic.bridge.sessions.length)
    (huntouched : ∀ k, Untouched r c k w w') : w'.Inv r c := by
  refine ⟨fun k => (h.wards k).untouched (huntouched k) fun s _ => ?_, ?_, fun s hs => ?_, ?_⟩
  · rw [hcloser]
  · rw [hcloser]
    exact fun hbegun => hstopping (h.asked hbegun)
  · rw [hposts]
    exact h.attended s (hactive s hs)
  · rw [World.Paired, hsessions, (huntouched .data).lists.2]
    exact h.paired

theorem World.Inv.turn (h : w.Inv r c) (ha : Apart r c) {g : Guest} {p : Post}
    (hin : (w.posts .command).inside = some g) (hp : p.stage = .outside ∧ p.inside = some g) :
    (w.place .command p).Inv r c := by
  have ht : Tended r c .command w (w.place .command p) :=
    (h.wards .command).tended_sitting hin hp w.traffic
  refine ⟨fun j => ?_, h.asked, fun s hactive => ?_, h.paired⟩
  · by_cases hj : j = .command
    · rw [hj]
      exact (h.wards .command).tended h.asked ht
    · exact (h.wards j).untouched (ht.untouched ha hj) fun _ _ => Iff.rfl
  · rw [place_ne Kind.noConfusion]
    exact h.attended s hactive

theorem World.Inv.step (h : w.Inv r c) (ha : Apart r c) (m : Move) : (w.step r m).Inv r c := by
  have hstill : ∀ k, Network.Shelters (c k).name.socketPath (c k).listener w.hub.network
      w.hub.network := fun k => (Network.Lasts.refl _).shelters (Network.Grows.refl _) _ _
  cases m with
  | service k amiss => exact h.serve ha k amiss
  | closer => exact h.close ha
  | ask =>
    exact h.of_untouched rfl (fun _ => rfl) rfl (fun _ hs => hs) rfl fun k =>
      ⟨rfl, ⟨rfl, rfl⟩, fun _ => rfl, rfl, hstill k⟩
  | enter =>
    rw [World.step]
    split
    · next g session hpost => exact h.turn ha (by rw [hpost]; rfl) ⟨rfl, rfl⟩
    · exact h
  | leave =>
    rw [World.step, World.comeBack]
    split
    · next g hpost _ => exact h.turn ha (by rw [hpost]; rfl) ⟨rfl, rfl⟩
    · exact h
  | traffic m =>
    have hmove : (∀ link, m ≠ .connect link) →
        ({ w with traffic := w.traffic.step m } : World).Inv r c := fun hm =>
      h.of_untouched rfl id rfl (fun _ hs => Bridge.Traffic.active_step hm hs)
        (Bridge.Traffic.length_step hm) fun k => ⟨rfl, ⟨rfl, rfl⟩, id, rfl, hstill k⟩
    cases m with
    | connect link => exact h
    | call t name args =>
      rw [World.step]
      split
      · exact h
      · exact hmove fun _ heq => by cases heq
    | _ => exact hmove fun _ heq => by cases heq
  | deed d =>
    exact h.of_untouched rfl id rfl (fun _ hs => hs) rfl fun k => ⟨rfl, ⟨rfl, rfl⟩, id, rfl,
      (d.lasts w.hub.network).shelters (d.grows w.hub.network) _ _⟩

theorem World.Inv.run (h : w.Inv r c) (ha : Apart r c) (ms : List Move) : (w.run r ms).Inv r c := by
  induction ms generalizing w with
  | nil => exact h
  | cons m ms ih => exact ih (h.step ha m)

theorem World.inv_of_ready {h : Hub} (hready : Ready r c h) (line : Link) :
    ({ hub := h, line } : World).Inv r c := by
  refine ⟨fun k => ?_, fun hbegun => (hbegun rfl).elim, fun s hs => (by cases hs), rfl⟩
  have hno : ∀ s : Closer, ¬ Closer.resting.Past s := fun s => Nat.not_lt_zero _
  have hdoor := Door.inv_of_opened (hready.opened k)
  refine ⟨⟨(c k).seat, hdoor⟩, fun g hg => (by cases hg), fun g hg => (by cases hg),
    fun g hg => (by cases hg), fun g hg => (by cases hg), fun hpast => (hno _ hpast).elim,
    fun hpast => (hno _ hpast).elim, fun hpast => (hno _ hpast).elim, fun _ => ?_,
    fun hpast => (hno _ hpast).elim⟩
  obtain ⟨howns, hlistens⟩ := hready.endpoint k
  refine ⟨howns, hlistens, ?_⟩
  rw [Hub.stateOf, Hub.seatOf_of_channel (hready.opened k).channel, (hready.opened k).vacant]
  exact State.noConfusion

section Stop

variable {h : Hub} {e : Closer}

theorem wake_apply (i : Nat) (name : Name) (site : Site) :
    (wake i name site).result = .ok () ∧
      (wake i name site).state.hub = (Hub.connect name (Hub.disconnect i site.hub).state).state := by
  rw [wake, bind_of_ok (attempt_apply _ _), bind_of_ok (attempt_apply _ _)]
  dsimp only
  cases (Site.inHub (Hub.connect name) (Site.inHub (Hub.disconnect i) site).state).result with
  | ok x => exact ⟨rfl, rfl⟩
  | error e => exact ⟨rfl, rfl⟩

def Closer.onHub (r : Running) (h : Hub) : Closer → Hub
  | disconnecting k => (Hub.disconnect (r.channel k) h).state
  | waking k => (Hub.connect (r.name k) h).state
  | closing k => (Hub.drop (r.channel k) h).state
  | _ => h

structure World.Left (h : Hub) (e : Closer) (w : World) : Prop where
  hub : w.hub = h
  closer : w.closer = e
  done : ∀ k, w.posts k = .done

theorem World.Left.close (hw : w.Left h e) : (w.close r).Left (e.onHub r h) e.next := by
  obtain ⟨rfl, rfl, hdone⟩ := hw
  cases hcloser : w.closer with
  | joining k =>
    have hclose : w.close r = { w with closer := w.closer.next } := by
      rw [World.close, hcloser]
      exact if_pos (hdone k)
    rw [hclose, hcloser]
    exact ⟨rfl, rfl, hdone⟩
  | closing k =>
    rw [close_of_closing hcloser (hdone k), hcloser]
    exact ⟨rfl, rfl, hdone⟩
  | _ =>
    rw [World.close, hcloser]
    first | exact ⟨rfl, rfl, hdone⟩ | exact ⟨rfl, hcloser, hdone⟩

theorem World.Inv.drop_result (h : w.Inv r c) (k : Kind) :
    (Hub.drop (r.channel k) w.hub).result = .ok () := by
  obtain ⟨seat, hdoor⟩ := (h.wards k).door
  exact (Hub.drop_apply hdoor.channel).1

theorem World.Inv.run_closer (h : w.Inv r c) (ha : Apart r c) {site : Site}
    (hleft : w.Left site.hub .resting) :
    (w.run r (List.replicate 9 .closer)).hub = (stop r site).state.hub := by
  obtain ⟨hwoken, hhub⟩ := wake_apply r.command r.commandName site
  obtain ⟨hwoken', hhub'⟩ := wake_apply r.data r.dataName (wake r.command r.commandName site).state
  generalize hlast : (wake r.data r.dataName (wake r.command r.commandName site).state).state = last
    at hhub'
  rw [hhub] at hhub'
  have h₁ : (w.run r [.closer]).Left _ (.disconnecting .command) := hleft.close
  have h₂ : (w.run r (.replicate 2 .closer)).Left (Hub.disconnect r.command site.hub).state
    (.waking .command) := h₁.close
  have h₃ : (w.run r (.replicate 3 .closer)).Left
    (Hub.connect r.commandName (Hub.disconnect r.command site.hub).state).state
    (.disconnecting .data) := h₂.close
  generalize (Hub.connect r.commandName (Hub.disconnect r.command site.hub).state).state = woken
    at h₃ hhub'
  have h₄ : (w.run r (.replicate 4 .closer)).Left (Hub.disconnect r.data woken).state
    (.waking .data) := h₃.close
  have h₅ : (w.run r (.replicate 5 .closer)).Left
    (Hub.connect r.dataName (Hub.disconnect r.data woken).state).state
    (.joining .command) := h₄.close
  rw [← hhub'] at h₅
  have h₇ : (w.run r (.replicate 7 .closer)).Left last.hub (.closing .command) := h₅.close.close
  have h₈ : (w.run r (.replicate 8 .closer)).Left (Hub.drop r.command last.hub).state
    (.closing .data) := h₇.close
  have h₉ : (w.run r (.replicate 9 .closer)).Left
    (Hub.drop r.data (Hub.drop r.command last.hub).state).state .returned := h₈.close
  have hdrop : (Site.inHub (Hub.drop r.command) last).result = .ok () := by
    show (Hub.drop r.command last.hub).result = _
    rw [← h₇.hub]
    exact (h.run ha (.replicate 7 .closer)).drop_result .command
  have hdrop' : (Site.inHub (Hub.drop r.data) (Site.inHub (Hub.drop r.command) last).state).result =
      .ok () := by
    show (Hub.drop r.data (Hub.drop r.command last.hub).state).result = _
    rw [← h₈.hub]
    exact (h.run ha (.replicate 8 .closer)).drop_result .data
  rw [stop, (bind_of_result hwoken).2, (bind_of_result hwoken').2, hlast, (bind_of_result hdrop).2,
    (bind_of_result hdrop').2]
  exact h₉.hub

end Stop

section Ahead

theorem ahead_wait {m : Door.Move} {p : Door.Stage → Post} {n : Nat} (hn : Post.refused.ahead < n)
    (hp : (p ((w.door k).move (r.channel k) m).2.stage).ahead < n) :
    ((w.wait r k m p).posts k).ahead < n := by
  rw [wait_eq, place_self]
  split
  · exact hp
  · exact hn

theorem ahead_accept (h : Ward r c k w) (hpost : w.posts k = .blocked)
    (hqueue : w.hub.network.queueAt (c k).listener ≠ []) (late : Bool) :
    ((w.wait r k .accept fun
      | .taken x => .taken ⟨x, late⟩
      | _ => .blocked).posts k).ahead < Post.blocked.ahead := by
  obtain ⟨seat, hdoor⟩ := h.door
  have hstage : (w.door k).stage = .blocked := by
    rw [World.door, hpost]
    rfl
  have haccept : (w.door k).move (r.channel k) .accept = _ :=
    Door.accept_of_channel hdoor.channel hstage
  refine ahead_wait (by decide) ?_
  rw [haccept]
  cases hq : (w.door k).hub.network.queueAt (c k).listener with
  | nil => exact (hqueue hq).elim
  | cons x queue => simp [Post.ahead]

theorem ahead_serve (h : Ward r c k w) (hstop : w.stopping = true) (hbusy : w.posts k ≠ .done)
    (hcalling : (w.posts k).isCalling = false)
    (hqueue : w.posts k = .blocked → w.hub.network.queueAt (c k).listener ≠ []) (amiss : Bool) :
    ((w.serve r k amiss).posts k).ahead < (w.posts k).ahead := by
  have hlook : ∀ {b : Prop} [Decidable b] {p q : Post} {n : Nat}, p.ahead < n → q.ahead < n →
      (if b then p else q).ahead < n := by
    intro b _ p q n hp hq
    split
    · exact hp
    · exact hq
  rw [World.serve]
  cases hpost : w.posts k with
  | testing =>
    dsimp only
    rw [place_self, if_pos hstop]
    decide
  | offering => exact ahead_wait (by decide) (by decide)
  | blocked =>
    dsimp only
    split
    · rw [place_self]
      decide
    · exact ahead_accept h hpost (hqueue hpost) w.stopping
  | taken g =>
    dsimp only
    split
    · rw [place_self]
      simp [Post.ahead]
    · exact ahead_wait (by simp [Post.ahead]) (by simp [Post.ahead])
  | refused =>
    dsimp only
    rw [place_self, if_pos hstop]
    decide
  | doubting =>
    dsimp only
    rw [place_self]
    exact hlook (by decide) (by decide)
  | greeted g =>
    dsimp only
    rw [place_self, if_pos hstop]
    simp [Post.ahead]
  | admitted g =>
    cases k with
    | command =>
      show ((World.place _ _ _).posts .command).ahead < _
      rw [place_self]
      simp [Post.ahead]
    | data =>
      show ((World.place _ _ _).posts .data).ahead < _
      rw [place_self]
      simp [Post.ahead]
  | serving g session =>
    cases session with
    | none =>
      dsimp only
      rw [place_self]
      simp [Post.ahead]
    | some s =>
      dsimp only
      rw [place_self, if_pos hstop]
      simp [Post.ahead]
  | watching g s =>
    dsimp only
    rw [place_self]
    exact hlook (by simp [Post.ahead]) (by simp [Post.ahead])
  | probing g s =>
    dsimp only
    rw [place_self]
    exact hlook (by simp [Post.ahead]) (by simp [Post.ahead])
  | calling g =>
    rw [hpost] at hcalling
    cases hcalling
  | done => exact (hbusy hpost).elim
  | _ =>
    dsimp only
    rw [place_self]
    simp [Post.ahead]

end Ahead

def queueOf (h : Hub) (i : Nat) : List Nat :=
  ((h.channels[i]?).map fun c => h.network.queueAt c.listener).getD []

def Post.reads : Post → Option Guest
  | serving g none => some g
  | probing g _ => some g
  | _ => none

def World.Uses (k : Kind) (x : Nat) (w : World) : Prop :=
  (∃ g, (w.posts k).reads = some g ∧ g.connection = x) ∨
    (w.posts k).isCalling = true ∧ ∃ s g, (w.traffic.stages caller).stream = some s ∧
      (w.served .data)[s]? = some g ∧ g.connection = x

/-- Once its channel was woken, a service does not wait where nobody has come and uses no stream that is
not shut down, and each of its moves brings it nearer to its end. -/
structure World.Unstuck (r : Running) (w : World) : Prop where
  waits : ∀ k, w.closer.Past (.waking k) → w.posts k = .blocked → queueOf w.hub (r.channel k) ≠ []
  streams : ∀ k, w.closer.Past (.waking k) → ∀ g, (w.posts k).inside = some g ∨ g ∈ w.served k →
    w.hub.network.isShut g.connection = true
  -- native code may use the stream of a data session for as long as that is not cut off as well
  uses : ∀ k, w.closer.Past (.waking k) → ∀ x, w.Uses k x → w.hub.network.isShut x = true ∨
    (w.posts k).isCalling = true ∧ ¬ w.closer.Past (.disconnecting .data)
  sessions : w.traffic.bridge.sessions.length = (w.served .data).length
  nearer : ∀ k, w.closer.Past (.waking k) → w.posts k ≠ .done → (w.posts k).isCalling = false →
    ∀ amiss, ((w.serve r k amiss).posts k).ahead < (w.posts k).ahead
  prompt : ∀ k, ∀ g ∈ w.served k, g.late = false
  returned : w.closer = .returned → w.traffic.bridge.isAttached = false ∧
    ∀ k, w.posts k = .done ∧ w.hub.stateOf (r.channel k) = .closed ∧
      w.hub.network.entryAt (r.name k).socketPath = none

theorem Post.inside_of_reads {p : Post} {g : Guest} (h : p.reads = some g) : p.inside = some g := by
  cases p with
  | serving g' session =>
    cases session with
    | none => exact h
    | some s => cases h
  | probing g' s => exact h
  | _ => cases h

theorem World.Inv.uses (h : w.Inv r c) (hpast : w.closer.Past (.waking k)) {x : Nat}
    (hx : w.Uses k x) : w.hub.network.isShut x = true ∨
      (w.posts k).isCalling = true ∧ ¬ w.closer.Past (.disconnecting .data) := by
  obtain ⟨g, hreads, rfl⟩ | ⟨hcalling, s, g, -, hserved, rfl⟩ := hx
  · have hcut : w.closer.Past (.disconnecting k) := Nat.lt_trans (by cases k <;> decide) hpast
    exact .inl ((h.wards k).cut hcut g (.inl (Post.inside_of_reads hreads)))
  · by_cases hdata : w.closer.Past (.disconnecting .data)
    · exact .inl ((h.wards .data).cut hdata g (.inr (List.mem_of_getElem? hserved)))
    · exact .inr ⟨hcalling, hdata⟩

theorem World.Inv.unstuck (h : w.Inv r c) (ha : Apart r c) : w.Unstuck r := by
  have hwaits : ∀ k, w.closer.Past (.waking k) → w.posts k = .blocked →
      w.hub.network.queueAt (c k).listener ≠ [] := fun k hpast hpost =>
    (h.wards k).woken hpast (by rw [hpost]; trivial)
  refine ⟨fun k hpast hpost => ?_, fun k hpast => ?_, fun k hpast x hx => h.uses hpast hx,
    h.paired, fun k hpast hbusy hcalling amiss => ?_, fun k g hg => ((h.wards k).served g hg).1,
    fun hreturned => ?_⟩
  · obtain ⟨seat, hdoor⟩ := (h.wards k).door
    have hchannel : w.hub.channels[r.channel k]? = some { c k with seat } := hdoor.channel
    rw [queueOf, hchannel]
    exact hwaits k hpast hpost
  · refine (h.wards k).cut (Nat.lt_trans ?_ hpast)
    cases k <;> decide
  · exact ahead_serve (h.wards k) (h.asked (Closer.ne_resting_of_past hpast)) hbusy hcalling
      (hwaits k hpast) amiss
  · have hpast : ∀ k, w.closer.Past (.joining k) ∧ w.closer.Past (.closing k) := by
      rw [hreturned]
      intro k
      cases k <;> decide
    have hdone : ∀ k, w.posts k = .done := fun k => (h.wards k).joined (hpast k).1
    refine ⟨?_, fun k => ⟨hdone k, ?_⟩⟩
    · have hactive : w.traffic.bridge.active = none := by
        by_contra hsome
        obtain ⟨s, hs⟩ := Option.ne_none_iff_exists'.1 hsome
        have hsession := h.attended s hs
        rw [hdone] at hsession
        cases hsession
      rw [Bridge.isAttached, Bridge.current, hactive]
      rfl
    · obtain ⟨hclosed, hgone⟩ := (h.wards k).closed (hpast k).2
      rw [ha.names] at hgone
      exact ⟨hclosed, hgone⟩

/-- However the end of an agent that has started comes about, it leaves no service stuck. -/
theorem unstuck_of_start {config : Config} {site : Site} (hstart : (start config site).result = .ok r)
    (hown : OwnsEndpoint (start config site).state.hub r.command) (line : Link) (ms : List Move) :
    (World.run r ms { hub := (start config site).state.hub, line }).Unstuck r := by
  obtain ⟨c, hready⟩ := ready_of_start hstart hown
  exact ((World.inv_of_ready hready line).run hready.apart ms).unstuck hready.apart

section Served

/-- A site where nothing is yet, and an agent that has started there. -/
def site : Site :=
  { pid := 7, readSettings := fun _ => none, hub := { network := { directories := [] } } }

def running : Running := ⟨0, ⟨"mbam-", 7, ""⟩, 1, ⟨"mbamd-", 7, ""⟩⟩

theorem start_site : (start (.standard "") site).result = .ok running ∧
    (start (.standard "") site).state.hub =
      (site.hub.founded running.commandName ["mbam-7.sock"]).founded running.dataName
        ["mbamd-7.sock"] ∧
    OwnsEndpoint (start (.standard "") site).state.hub running.command := by
  have hlocate : site.hub.network.locate running.commandName.socketPath = some ["mbam-7.sock"] :=
    Network.locate_of_plain (by decide) rfl
  have hlocate' : site.hub.network.locate running.dataName.socketPath = some ["mbamd-7.sock"] :=
    Network.locate_of_plain (by decide) rfl
  have hfree : site.hub.network.entryAt running.commandName.socketPath = none := by
    rw [Network.entryAt_of_place hlocate]
    decide
  have hfree' : site.hub.network.entryAt running.dataName.socketPath = none := by
    rw [Network.entryAt_of_place hlocate']
    decide
  obtain ⟨hstart, hhub⟩ : (start (.standard "") site).result = .ok running ∧ _ := start_of_free ⟨rfl, rfl⟩
    (Network.checkPath_of_fit (by decide) (by decide)) hlocate hfree
    (Network.checkPath_of_fit (by decide) (by decide)) hlocate' hfree' (by decide)
  refine ⟨hstart, hhub, ?_⟩
  let n := (site.hub.network.bound ["mbam-7.sock"]).bound ["mbamd-7.sock"]
  have hplace : n.locate running.commandName.socketPath = some ["mbam-7.sock"] := hlocate
  have hentry : n.entryAt running.commandName.socketPath = some (.socket 0) := by
    rw [Network.entryAt_of_place hplace]
    decide
  rw [hhub]
  exact ⟨{ name := running.commandName, listener := 0 }, rfl, hentry⟩

def comes (k : Kind) : List Move :=
  let goOn : Move := .service k false
  [goOn, goOn, .deed (.connectTo (running.channel k)), goOn, goOn, goOn, goOn]

def began (ms : List Move) : World :=
  World.run running ms { hub := (start (.standard "") site).state.hub,
                         line := { stream := { incoming := [] } } }

theorem unstuck_of_start_session :
    let w := began (comes .command ++ [.closer, .closer, .closer])
    (start (.standard "") site).result = .ok running ∧
      OwnsEndpoint (start (.standard "") site).state.hub running.command ∧ w.Unstuck running ∧
        w.closer.Past (.waking .command) ∧ w.Uses .command 0 ∧ w.hub.network.isShut 0 = true := by
  intro w
  obtain ⟨hstart, hhub, hown⟩ := start_site
  have hunstuck : w.Unstuck running := unstuck_of_start hstart hown { stream := { incoming := [] } } _
  have hends : w.closer.Past (.waking .command) ∧ w.posts .command = .serving ⟨0, false⟩ none := by
    show (began _).closer.Past _ ∧ (began _).posts _ = _
    rw [began, hhub]
    decide
  refine ⟨hstart, hown, hunstuck, hends.1, .inl ⟨⟨0, false⟩, by rw [hends.2]; rfl, rfl⟩, ?_⟩
  exact hunstuck.streams .command hends.1 ⟨0, false⟩ (.inl (by rw [hends.2]; rfl))

theorem isShut_close_of_waking (hcloser : w.closer = .waking k) (x : Nat) :
    (w.close r).hub.network.isShut x = w.hub.network.isShut x := by
  rw [World.close, hcloser]
  show (Hub.connect (r.name k) w.hub).state.network.isShut x = _
  rw [Hub.connect, Hub.inNetwork_apply]
  show ((w.hub.network.connect (r.name k).socketPath).state).isShut x = _
  rcases Network.connect_state (r.name k).socketPath w.hub.network with hsame | ⟨l, hjoined⟩
  · rw [hsame]
  · rw [hjoined, Network.isShut_joined]

/-- The end begins while the controller of the command service has it call a function of its own: the
command service waits for the data session, whose stream is not cut off yet. -/
theorem not_shut_of_calling :
    let w := (began (comes .command ++ comes .data ++ [.enter, .traffic (.call 0 "f" []),
      .traffic (.advance 0), .traffic (.advance 0), .traffic (.advance 0), .closer, .closer])).close
        running
    w.closer.Past (.waking .command) ∧ w.Uses .command 1 ∧ w.hub.network.isShut 1 = false := by
  intro w
  obtain ⟨-, hhub, -⟩ := start_site
  refine ⟨?_, .inr ⟨?_, 0, ⟨1, false⟩, ?_, ?_, rfl⟩, ?_⟩
  · show ((began _).close _).closer.Past _
    rw [began, hhub]
    decide
  · show (((began _).close _).posts _).isCalling = _
    rw [began, hhub]
    decide
  · show (((began _).close _).traffic.stages _).stream = _
    rw [began, hhub]
    decide
  · show (((began _).close _).served _)[_]? = _
    rw [began, hhub]
    decide
  · refine (isShut_close_of_waking (k := .command) ?_ 1).trans ?_
    · rw [began, hhub]
      decide
    · rw [began, hhub]
      decide

end Served

end Agent

end RemoteAgent
