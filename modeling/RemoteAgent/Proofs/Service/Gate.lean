import RemoteAgent.Proofs.Action.Endings
import RemoteAgent.Service.Gate

/-! Gates keep their peers in order: the seat holds the connection that was taken last, or none, and
every other one has been shut down. This holds through whatever other threads do to the channel. -/

namespace RemoteAgent

namespace Channel.State

inductive Drifts : State → State → Prop
  | stays (s : State) : Drifts s s
  | closes (s : State) : Drifts s .closed
  | loses {s : State} (h : s.holdsPeer = true) : Drifts s .disconnected

variable {s s' s'' : State}

theorem Drifts.trans (h : Drifts s s') (h' : Drifts s' s'') : Drifts s s'' := by
  cases h' with
  | stays => exact h
  | closes => exact .closes s
  | loses hpeer =>
    cases h with
    | stays => exact .loses hpeer
    | closes => cases hpeer
    | loses => cases hpeer

theorem Drifts.vacant (h : Drifts s s') (hs : s.holdsPeer = false) : s'.holdsPeer = false := by
  cases h with
  | stays => exact hs
  | closes => rfl
  | loses hpeer =>
    rw [hs] at hpeer
    cases hpeer

theorem Drifts.ne_waitingToConnect (h : Drifts s s') (hs : s ≠ .waitingToConnect) :
    s' ≠ .waitingToConnect := by
  cases h with
  | stays => exact hs
  | closes => exact fun h => by cases h
  | loses => exact fun h => by cases h

theorem eq_of_vacant (hs : s.holdsPeer = false) :
    s = .waitingToConnect ∨ s = .disconnected ∨ s = .closed := by
  cases s with
  | waitingToConnect => exact .inl rfl
  | connected => cases hs
  | disconnected => exact .inr (.inl rfl)
  | broken => cases hs
  | closed => exact .inr (.inr rfl)

end Channel.State

namespace Service

open RemoteAgent.Action

namespace Gate

variable {q : Prop} {g : Gate} {n : Nat} {i : Intrusion} {is : List Intrusion} {a : Arrival}

/-- Every connection was shut down but the one that holds the seat. In a quiet course, which is what
`q` says, the agent goes on and the channel is open. -/
structure Sound (q : Prop) (g : Gate) : Prop where
  held : g.seat.peer.isSome = g.state.holdsPeer
  shut : ∀ k < g.accepted, k ∈ g.cut ∨ g.seat.peer = some k
  quiet : q → g.stopping = false ∧ g.state ≠ .closed

structure Engaged (q : Prop) (n : Nat) (g : Gate) : Prop extends Sound q g where
  accepted : g.accepted = n
  begun : g.state ≠ .waitingToConnect

structure Gone (q : Prop) (n : Nat) (g : Gate) : Prop extends Sound q g where
  accepted : g.accepted = n
  ended : g.state = .disconnected ∨ g.state = .closed

theorem Sound.vacant (h : g.Sound q) (hv : g.state.holdsPeer = false) :
    g.seat.peer = none ∧ ∀ k < g.accepted, k ∈ g.cut := by
  have hnone : g.seat.peer = none := Option.not_isSome_iff_eq_none.1 (by rw [h.held, hv]; decide)
  refine ⟨hnone, fun k hk => (h.shut k hk).resolve_right fun hsome => ?_⟩
  rw [hnone] at hsome
  cases hsome

theorem Gone.vacant (h : g.Gone q n) : g.state.holdsPeer = false := by
  rcases h.ended with hs | hs
  · rw [hs]
    rfl
  · rw [hs]
    rfl

theorem Sound.vacate {seat : Channel.Seat} (h : g.Sound q) (hpeer : seat.peer = none)
    (hstate : seat.state.holdsPeer = false) (hq : q → seat.state ≠ .closed) :
    (g.vacate seat).Sound q := by
  refine ⟨?_, fun k hk => .inl ?_, fun hall => ⟨(h.quiet hall).1, hq hall⟩⟩
  · show seat.peer.isSome = seat.state.holdsPeer
    rw [hpeer, hstate]
    rfl
  · rcases h.shut k hk with hcut | hsome
    · exact List.mem_append_left _ hcut
    · exact List.mem_append_right _ (Option.mem_toList.2 hsome)

section Operations

theorem disconnect_of_holds (hpeer : g.state.holdsPeer = true) : Gate.disconnect g =
    ⟨.ok (), Gate.vacate ⟨.disconnected, none⟩
      { g with entries := g.entries ++ [.disconnected g.state] }, []⟩ := by
  have hseat : g.seat.leave = .ok ⟨.disconnected, none⟩ := if_pos hpeer
  rw [Gate.disconnect, bind_of_ok (get_apply g), hseat]
  rfl

theorem disconnect_of_vacant (hpeer : ¬ g.state.holdsPeer = true) : Gate.disconnect g =
    ⟨.error (.invalidState "disconnect" g.state),
      { g with entries := g.entries ++ [.disconnected g.state] }, []⟩ := by
  have hseat : g.seat.leave = .error (.invalidState "disconnect" g.state) := if_neg hpeer
  rw [Gate.disconnect, bind_of_ok (get_apply g), hseat]
  rfl

theorem take_of_closed (hclosed : g.state = .closed) : Gate.take g =
    ⟨.error (.invalidState "accept" .closed), { g with
      entries := g.entries ++ [.closed]
      accepted := g.accepted + 1
      cut := g.cut ++ [g.accepted] }, []⟩ := by
  have htake : g.seat.take g.accepted = .error (.invalidState "accept" .closed) := if_pos hclosed
  rw [Gate.take, bind_of_ok (get_apply g), htake]
  rfl

theorem take_of_open (hopen : g.state ≠ .closed) : Gate.take g =
    ⟨.ok (), { g with
      entries := g.entries ++ [.connected]
      seat := ⟨.connected, some g.accepted⟩
      accepted := g.accepted + 1 }, []⟩ := by
  have htake : g.seat.take g.accepted = .ok ⟨.connected, some g.accepted⟩ := if_neg hopen
  rw [Gate.take, bind_of_ok (get_apply g), htake]
  rfl

end Operations

section Intrusion

inductive Intruded (g : Gate) : Intrusion → Gate → Prop
  | spared (i : Intrusion) : Intruded g i g
  | lost (hpeer : g.state.holdsPeer = true) :
    Intruded g .disconnect (g.vacate ⟨.disconnected, none⟩)
  | shut : Intruded g .close (g.vacate .close)
  | stop : Intruded g .stop { g with stopping := true }

theorem intruded_intrude (i : Intrusion) (g : Gate) : g.Intruded i (g.intrude i) := by
  cases i with
  | disconnect =>
    rw [Gate.intrude, Channel.Seat.leave]
    by_cases hpeer : g.seat.state.holdsPeer = true
    · rw [if_pos hpeer]
      exact .lost hpeer
    · rw [if_neg hpeer]
      exact .spared _
  | close =>
    rw [Gate.intrude]
    split
    · exact .spared _
    · exact .shut
  | stop => exact .stop

theorem Intruded.sound {t : Gate} (hin : g.Intruded i t) (h : g.Sound q)
    (hi : q → i = .disconnect) : t.Sound q := by
  cases hin with
  | spared => exact h
  | lost => exact h.vacate rfl rfl fun _ hd => by cases hd
  | shut => exact h.vacate rfl rfl fun hall => by cases hi hall
  | stop => exact ⟨h.held, h.shut, fun hall => by cases hi hall⟩

theorem Intruded.drifts {t : Gate} (hin : g.Intruded i t) :
    g.state.Drifts t.state ∧ t.accepted = g.accepted := by
  cases hin with
  | spared => exact ⟨.stays _, rfl⟩
  | lost hpeer => exact ⟨.loses hpeer, rfl⟩
  | shut => exact ⟨.closes _, rfl⟩
  | stop => exact ⟨.stays _, rfl⟩

theorem Sound.suffer (h : g.Sound q) (his : q → ∀ i ∈ is, i = .disconnect) :
    (Gate.suffer is g).state.Sound q ∧ g.state.Drifts (Gate.suffer is g).state.state ∧
      (Gate.suffer is g).state.accepted = g.accepted := by
  show Sound q (is.foldl _ g) ∧ g.state.Drifts (is.foldl _ g).state ∧ (is.foldl _ g).accepted = _
  induction is generalizing g with
  | nil => exact ⟨h, .stays _, rfl⟩
  | cons i is ih =>
    have hin := intruded_intrude i g
    obtain ⟨hdrift, hcount⟩ := hin.drifts
    obtain ⟨hsound, hdrifts, haccepted⟩ := ih (hin.sound h fun hall => his hall i List.mem_cons_self)
      fun hall j hj => his hall j (List.mem_cons_of_mem i hj)
    exact ⟨hsound, hdrift.trans hdrifts, haccepted.trans hcount⟩

end Intrusion

section Session

theorem Engaged.suffer (h : g.Engaged q n) (his : q → ∀ i ∈ is, i = .disconnect) :
    (Gate.suffer is g).state.Engaged q n := by
  obtain ⟨hsound, hdrifts, haccepted⟩ := h.toSound.suffer his
  exact ⟨hsound, haccepted.trans h.accepted, hdrifts.ne_waitingToConnect h.begun⟩

theorem Engaged.markBroken (h : g.Engaged q n) : (Gate.markBroken g).state.Engaged q n := by
  have hstate : (Gate.markBroken g).state = { g with
      entries := g.entries ++ [.markedBroken], seat := g.seat.spoil } := rfl
  rw [hstate, Channel.Seat.spoil]
  by_cases hs : g.seat.state = .connected
  · rw [if_pos hs]
    refine ⟨⟨?_, h.shut, fun hall => ⟨(h.quiet hall).1, fun hd => by cases hd⟩⟩, h.accepted,
      fun hd => by cases hd⟩
    exact h.held.trans (by rw [Gate.state, hs]; rfl)
  · rw [if_neg hs]
    exact ⟨⟨h.held, h.shut, h.quiet⟩, h.accepted, h.begun⟩

theorem Engaged.disconnect (h : g.Engaged q n) : (Gate.disconnect g).state.Gone q n := by
  by_cases hpeer : g.state.holdsPeer = true
  · rw [disconnect_of_holds hpeer]
    have hgone : (g.vacate ⟨.disconnected, none⟩).Sound q :=
      h.toSound.vacate rfl rfl fun _ hd => by cases hd
    exact ⟨⟨hgone.held, hgone.shut, hgone.quiet⟩, h.accepted, .inl rfl⟩
  · rw [disconnect_of_vacant hpeer]
    refine ⟨⟨h.held, h.shut, h.quiet⟩, h.accepted, ?_⟩
    exact (Channel.State.eq_of_vacant (Bool.eq_false_iff.2 hpeer)).resolve_left h.begun

end Session

section Wait

theorem Sound.record (h : g.Sound q) (e : Entry) : (Gate.record e g).state.Sound q :=
  ⟨h.held, h.shut, h.quiet⟩

theorem Sound.offer (h : g.Sound q) (hv : g.state.holdsPeer = false) :
    (∃ t, Gate.offer g = ⟨.ok (), t, []⟩ ∧ t.Sound q ∧ t.state = .waitingToConnect ∧
        t.accepted = g.accepted) ∨
      g.state = .closed ∧
        Gate.offer g = ⟨.error (.invalidState "wait for connection" .closed), g, []⟩ := by
  rw [Gate.offer, bind_of_ok (get_apply g), Channel.Seat.offer]
  have hoffered : Gate.Sound q { g with seat := { g.seat with state := .waitingToConnect } } :=
    ⟨h.held.trans hv, h.shut, fun hall => ⟨(h.quiet hall).1, fun hd => by cases hd⟩⟩
  rcases Channel.State.eq_of_vacant hv with hs | hs | hs
  · rw [show g.seat.state = .waitingToConnect from hs]
    exact .inl ⟨_, rfl, hoffered, rfl, rfl⟩
  · rw [show g.seat.state = .disconnected from hs]
    exact .inl ⟨_, rfl, hoffered, rfl, rfl⟩
  · rw [show g.seat.state = .closed from hs]
    exact .inr ⟨hs, rfl⟩

/-- A connection takes the seat; one that comes after the channel was closed is cut off. -/
theorem Sound.take (h : g.Sound q) (hv : g.state.holdsPeer = false) :
    (∃ t, Gate.take g = ⟨.ok (), t, []⟩ ∧ t.Engaged q (g.accepted + 1)) ∨
      ∃ t, Gate.take g = ⟨.error (.invalidState "accept" .closed), t, []⟩ ∧ t.Sound q ∧
        t.state = .closed := by
  obtain ⟨-, hcut⟩ := h.vacant hv
  by_cases hclosed : g.state = .closed
  · rw [take_of_closed hclosed]
    refine .inr ⟨_, rfl, ⟨h.held, fun k hk => .inl ?_, h.quiet⟩, hclosed⟩
    rcases Nat.lt_succ_iff_lt_or_eq.1 hk with hlt | rfl
    · exact List.mem_append_left _ (hcut k hlt)
    · exact List.mem_append_right _ List.mem_cons_self
  · rw [take_of_open hclosed]
    refine .inl ⟨_, rfl, ⟨rfl, fun k hk => ?_, fun hall => ⟨(h.quiet hall).1, fun hd => by cases hd⟩⟩,
      rfl, fun hd => by cases hd⟩
    rcases Nat.lt_succ_iff_lt_or_eq.1 hk with hlt | rfl
    · exact .inl (hcut k hlt)
    · exact .inr rfl

end Wait

end Gate

end Service

end RemoteAgent
