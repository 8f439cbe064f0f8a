import RemoteAgent.Proofs.Agent.Unstuck

/-! Sessions do not get in each other's way at the bridge. Nobody but the data service attaches and
detaches; a session lasts while somebody refers to it, and a new one may come to stand where one stood
that nobody refers to any more. -/

namespace RemoteAgent

open RemoteAgent.Action Channel Socket Service

def Bridge.detachAt (address : Nat → Nat) (s : Nat) : Action Bridge Unit := do
  let b ← Action.get
  if b.active.map address = some (address s) then
    .set { b with active := none }
    .tell [note "Failed data session detached"]

namespace Agent

def Move.Of (t : Nat) : Move → Prop
  | .traffic m => m.Of t
  | _ => False

def Post.attaches : Post → Bool
  | admitted _ => true
  | _ => false

namespace World

def referred (w : World) : List Nat :=
  w.traffic.bridge.active.toList ++ (w.posts .data).session.toList ++ w.traffic.carried.toList

def permits (address : Nat → Nat) (w : World) : Move → Bool
  | .traffic (.detachSession _) => false
  | .traffic .detach => false
  | .traffic (.release s) => (w.posts .data).session ≠ some s
  | .service .data _ => (w.posts .data).attaches →
      address w.traffic.bridge.sessions.length ∉ w.referred.map address
  | _ => true

def move (r : Running) (address : Nat → Nat) (m : Move) (w : World) : World :=
  if w.permits address m then w.step r m else w

def moves (r : Running) (address : Nat → Nat) (ms : List Move) (w : World) : World :=
  ms.foldl (fun w m => w.move r address m) w

/-- A move that takes a session out of the slot: that of a call of its own that failed, or of the data
service that is done with it. -/
inductive Parts (w : World) (s : Nat) : Move → Prop where
  | failed {t k : Nat} {c : Bridge.Call} (hstage : w.traffic.stages t = .holding k (.drop s))
    (hcall : w.traffic.calls[k]? = some c) (hsession : c.session = some s) (hfailed : c.Failed) :
    Parts w s (.traffic (.advance t))
  | ended {g : Guest} {amiss : Bool} (hpost : w.posts .data = .ending g s) :
    Parts w s (.service .data amiss)

def Mute (w w' : World) : Prop :=
  w'.traffic.bridge = w.traffic.bridge ∧
    (w'.traffic.returned = w.traffic.returned ∨ w'.traffic.returned = w.traffic.returned ++ [0])

structure Sound (address : Nat → Nat) (w : World) : Prop where
  inv : w.traffic.Inv
  attended : w.Attended
  command : (w.posts .command).session = none
  held : ∀ s, (w.posts .data).session = some s → w.traffic.bridge.Holds s
  kept : ∀ s, (w.posts .data).session = some s → w.traffic.bridge.active = some s ∨
    ∃ c ∈ w.traffic.calls, c.session = some s ∧ c.Failed
  apart : ∀ s ∈ w.referred, ∀ s' ∈ w.referred, address s = address s' → s = s'

end World

variable {r : Running} {address : Nat → Nat} {j k : Kind} {w w' : World} {s t : Nat} {m : Move}

theorem World.mem_referred : s ∈ w.referred ↔ w.traffic.bridge.active = some s ∨
    (w.posts .data).session = some s ∨ w.traffic.carried = some s := by
  rw [World.referred, List.mem_append, List.mem_append, Option.mem_toList, Option.mem_toList,
    Option.mem_toList, or_assoc]

theorem Post.session_of_waits {p : Post} (h : p.Waits) : p.session = none := by
  cases p with
  | offering => rfl
  | blocked => rfl
  | _ => exact h.elim

section Serve

theorem posts_wait_ne (hj : j ≠ k) (m : Door.Move) (p : Door.Stage → Post) (w : World) :
    (w.wait r k m p).posts j = w.posts j := by
  rw [wait_eq]
  exact place_ne hj _ _

theorem posts_serve_ne (hj : j ≠ k) (amiss : Bool) : (w.serve r k amiss).posts j = w.posts j := by
  rw [World.serve]
  cases hpost : w.posts k with
  | offering => exact posts_wait_ne hj ..
  | blocked =>
    dsimp only
    split
    · exact place_ne hj _ _
    · exact posts_wait_ne hj ..
  | taken g =>
    dsimp only
    split
    · exact place_ne hj _ _
    · exact posts_wait_ne hj ..
  | admitted g =>
    cases k with
    | command => exact place_ne hj _ _
    | data => exact place_ne hj _ _
  | serving g session =>
    cases session with
    | none => exact place_ne hj _ _
    | some s => exact place_ne hj _ _
  | parting g broken =>
    cases broken with
    | true => exact place_ne hj _ _
    | false => exact place_ne hj _ _
  | calling g => rfl
  | done => rfl
  | _ => exact place_ne hj _ _

theorem serve_command (h : (w.posts .command).session = none) (amiss : Bool) :
    (w.serve r .command amiss).traffic = w.traffic ∧
      ((w.serve r .command amiss).posts .command).session = none := by
  have hending : ∀ g s, w.posts .command ≠ .ending g s := by
    intro g s hpost
    rw [hpost] at h
    cases h
  by_cases hadmitted : ∃ g, w.posts .command = .admitted g
  · obtain ⟨g, hpost⟩ := hadmitted
    rw [World.serve, hpost]
    exact ⟨rfl, congrArg Post.session (place_self _ _)⟩
  · have hadmitted : ∀ g, w.posts .command ≠ .admitted g := fun g hg => hadmitted ⟨g, hg⟩
    exact ⟨traffic_serve hadmitted hending amiss, (session_serve hadmitted hending amiss).trans h⟩

theorem close_bridge (w : World) : (w.close r).traffic = w.traffic ∧ (w.close r).posts = w.posts := by
  rw [World.close]
  cases w.closer with
  | joining k =>
    dsimp only
    split
    · exact ⟨rfl, rfl⟩
    · exact ⟨rfl, rfl⟩
  | _ => exact ⟨rfl, rfl⟩

theorem turn_bridge (hm : m = .enter ∨ m = .leave) : (w.step r m).traffic = w.traffic ∧
    (w.step r m).posts .data = w.posts .data ∧
      ((w.posts .command).session = none → ((w.step r m).posts .command).session = none) := by
  have hplace : ∀ p : Post, p.session = none → (w.place .command p).traffic = w.traffic ∧
      (w.place .command p).posts .data = w.posts .data ∧
        ((w.posts .command).session = none → ((w.place .command p).posts .command).session = none) :=
    fun p hp => ⟨rfl, place_ne Kind.noConfusion _ _, fun _ => (congrArg _ (place_self ..)).trans hp⟩
  rcases hm with rfl | rfl
  · rw [World.step]
    split
    · exact hplace _ rfl
    · exact ⟨rfl, rfl, id⟩
  · rw [World.step, World.comeBack]
    split
    · exact hplace _ rfl
    · exact ⟨rfl, rfl, id⟩

theorem step_call (t : Nat) (name : String) (args : List UInt64) (w : World) :
    w.step r (.traffic (.call t name args)) = w ∨ w.step r (.traffic (.call t name args)) =
      { w with traffic := w.traffic.step (.call t name args) } := by
  rw [World.step]
  exact ite_eq_or_eq ..

end Serve

section Sound

theorem World.Sound.of_same (h : w.Sound address) (htraffic : w'.traffic = w.traffic)
    (hdata : (w'.posts .data).session = (w.posts .data).session)
    (hcommand : (w'.posts .command).session = none) : w'.Sound address := by
  have hreferred : w'.referred = w.referred := by
    rw [World.referred, World.referred, htraffic, hdata]
  refine ⟨htraffic ▸ h.inv, fun s hs => ?_, hcommand, ?_, ?_, ?_⟩
  · rw [htraffic] at hs
    exact hdata.trans (h.attended s hs)
  · rw [htraffic, hdata]
    exact h.held
  · rw [htraffic, hdata]
    exact h.kept
  · rw [hreferred]
    exact h.apart

theorem World.Sound.failed_of_drop (h : w.Sound address) {k : Nat}
    (hstage : w.traffic.stages t = .holding k (.drop s)) :
    ∃ c, w.traffic.calls[k]? = some c ∧ c.session = some s ∧ c.Failed := by
  obtain ⟨front, c, hheld, rfl⟩ := h.inv.held hstage
  exact ⟨c, by rw [hheld.calls, List.getElem?_concat_length], hheld.suits⟩

theorem World.Sound.traffic (h : w.Sound address) {m : Bridge.Move} (hconnect : ∀ link, m ≠ .connect link)
    (hone : ∀ i, m ≠ .detachSession i) (hany : m ≠ .detach)
    (hrelease : ∀ s, (w.posts .data).session = some s → m ≠ .release s) :
    ({ w with traffic := w.traffic.step m } : World).Sound address := by
  have hactive : ∀ s, (w.traffic.step m).bridge.active = some s → w.traffic.bridge.active = some s :=
    fun s => Bridge.Traffic.active_step hconnect
  refine ⟨h.inv.step m, fun s hs => h.attended s (hactive s hs), h.command,
    fun s hs => Bridge.Traffic.holds_step (hrelease s hs) (h.held s hs), fun s hs => ?_, ?_⟩
  · have hcalls : (∃ c ∈ w.traffic.calls, c.session = some s ∧ c.Failed) →
        ∃ c ∈ (w.traffic.step m).calls, c.session = some s ∧ c.Failed := by
      rintro ⟨c, hc, hsession, hfailed⟩
      exact ⟨c, h.inv.failed_step hc hfailed m, hsession, hfailed⟩
    rcases h.kept s hs with hs' | hfailed
    · rcases Bridge.Traffic.active_step_cases hconnect hone hany hs' with hstays | ⟨t, k, -, hstage⟩
      · exact .inl hstays
      · obtain ⟨c, hc, hsession, hfailed⟩ := h.failed_of_drop hstage
        exact .inr (hcalls ⟨c, List.mem_of_getElem? hc, hsession, hfailed⟩)
    · exact .inr (hcalls hfailed)
  · have hsub : ∀ s ∈ ({ w with traffic := w.traffic.step m } : World).referred, s ∈ w.referred := by
      intro s hs
      rw [World.mem_referred] at hs ⊢
      rcases hs with hs | hs | hs
      · exact .inl (hactive s hs)
      · exact .inr (.inl hs)
      · rcases Bridge.Traffic.carried_step hs with hs | hs
        · exact .inr (.inr hs)
        · exact .inl hs
    exact fun s hs s' hs' => h.apart s (hsub s hs) s' (hsub s' hs')

theorem World.Sound.begin (h : w.Sound address) {g : Guest}
    (hfresh : address w.traffic.bridge.sessions.length ∉ w.referred.map address) :
    (w.begin .data g).Sound address := by
  have hposts : (w.begin .data g).posts .data =
      .serving g (some w.traffic.bridge.sessions.length) := place_self _ _
  have hsession := congrArg Post.session hposts
  refine ⟨h.inv.connect w.line, fun s hs => ?_, ?_, fun s hs => ?_, fun s hs => ?_, ?_⟩
  · exact hsession.trans hs
  · exact (congrArg Post.session (place_ne Kind.noConfusion _ _)).trans h.command
  · rw [hsession] at hs
    cases hs
    exact ⟨_, List.getElem?_concat_length .., rfl⟩
  · rw [hsession] at hs
    exact .inl hs
  · have hmem : ∀ s ∈ (w.begin .data g).referred,
        s = w.traffic.bridge.sessions.length ∨ s ∈ w.referred := by
      intro s hs
      rw [World.mem_referred, hsession] at hs
      rcases hs with hs | hs | hs
      · exact .inl (Option.some.inj hs).symm
      · exact .inl (Option.some.inj hs).symm
      · exact .inr (World.mem_referred.2 (.inr (.inr hs)))
    intro s hs s' hs' heq
    rcases hmem s hs with rfl | hs
    · rcases hmem s' hs' with rfl | hs'
      · rfl
      · exact (hfresh (List.mem_map.2 ⟨s', hs', heq.symm⟩)).elim
    · rcases hmem s' hs' with rfl | hs'
      · exact (hfresh (List.mem_map.2 ⟨s, hs, heq⟩)).elim
      · exact h.apart s hs s' hs' heq

theorem World.Sound.ending (h : w.Sound address) {g : Guest} (hpost : w.posts .data = .ending g s) :
    ({ w with traffic := w.traffic.step (.detachSession s) }.place .data
      (.detached g s) : World).Sound address := by
  have hsession : (({ w with traffic := w.traffic.step (.detachSession s) }.place .data
      (.detached g s) : World).posts .data).session = none := congrArg Post.session (place_self _ _)
  have hactive := (Bridge.detachSession_state s w.traffic.bridge).2
  refine ⟨h.inv.step (.detachSession s), fun s' hs => ?_, ?_, fun s' hs => ?_, fun s' hs => ?_, ?_⟩
  · obtain ⟨hold, hne⟩ := hactive s' hs
    have hattended := h.attended s' hold
    rw [hpost] at hattended
    exact (hne (Option.some.inj hattended)).elim
  · exact (congrArg Post.session (place_ne Kind.noConfusion _ _)).trans h.command
  · rw [hsession] at hs
    cases hs
  · rw [hsession] at hs
    cases hs
  · have hsub : ∀ s' ∈ ({ w with traffic := w.traffic.step (.detachSession s) }.place .data
        (.detached g s) : World).referred, s' ∈ w.referred := by
      intro s' hs
      rw [World.mem_referred, hsession] at hs
      rcases hs with hs | hs | hs
      · exact World.mem_referred.2 (.inl (hactive s' hs).1)
      · cases hs
      · exact World.mem_referred.2 (.inr (.inr hs))
    exact fun s hs s' hs' => h.apart s (hsub s hs) s' (hsub s' hs')

theorem World.Sound.serve (h : w.Sound address) {amiss : Bool}
    (hm : w.permits address (.service .data amiss) = true) :
    (w.serve r .data amiss).Sound address := by
  by_cases hadmitted : ∃ g, w.posts .data = .admitted g
  · obtain ⟨g, hpost⟩ := hadmitted
    rw [World.permits, hpost] at hm
    rw [World.serve, hpost]
    exact h.begin (of_decide_eq_true hm rfl)
  by_cases hending : ∃ g s, w.posts .data = .ending g s
  · obtain ⟨g, s, hpost⟩ := hending
    rw [World.serve, hpost]
    exact h.ending hpost
  · have hadmitted : ∀ g, w.posts .data ≠ .admitted g := fun g hg => hadmitted ⟨g, hg⟩
    have hending : ∀ g s, w.posts .data ≠ .ending g s := fun g s hg => hending ⟨g, s, hg⟩
    refine h.of_same (traffic_serve hadmitted hending amiss) (session_serve hadmitted hending amiss) ?_
    rw [posts_serve_ne Kind.noConfusion]
    exact h.command

theorem World.Sound.step (h : w.Sound address) (hm : w.permits address m = true) :
    (w.step r m).Sound address := by
  cases m with
  | service k amiss =>
    cases k with
    | data => exact h.serve hm
    | command =>
      obtain ⟨htraffic, hsession⟩ := @serve_command r w h.command amiss
      refine h.of_same htraffic ?_ hsession
      rw [World.step, posts_serve_ne Kind.noConfusion]
  | closer =>
    obtain ⟨htraffic, hposts⟩ := @close_bridge r w
    refine h.of_same htraffic ?_ ?_
    · rw [World.step, hposts]
    · rw [World.step, hposts]
      exact h.command
  | ask => exact h.of_same rfl rfl h.command
  | enter =>
    obtain ⟨htraffic, hdata, hcommand⟩ := @turn_bridge r w .enter (.inl rfl)
    exact h.of_same htraffic (congrArg Post.session hdata) (hcommand h.command)
  | leave =>
    obtain ⟨htraffic, hdata, hcommand⟩ := @turn_bridge r w .leave (.inr rfl)
    exact h.of_same htraffic (congrArg Post.session hdata) (hcommand h.command)
  | deed d => exact h.of_same rfl rfl h.command
  | traffic m =>
    cases m with
    | connect link => exact h
    | detachSession i => cases hm
    | detach => cases hm
    | release i =>
      refine h.traffic (fun _ => Bridge.Move.noConfusion) (fun _ => Bridge.Move.noConfusion)
        Bridge.Move.noConfusion fun s hs heq => ?_
      cases heq
      exact of_decide_eq_true hm hs
    | call t name args =>
      rcases step_call (r := r) t name args w with hsame | hcall
      · rw [hsame]
        exact h
      · rw [hcall]
        exact h.traffic (fun _ => Bridge.Move.noConfusion) (fun _ => Bridge.Move.noConfusion)
          Bridge.Move.noConfusion fun _ _ => Bridge.Move.noConfusion
    | _ =>
      exact h.traffic (fun _ => Bridge.Move.noConfusion) (fun _ => Bridge.Move.noConfusion)
        Bridge.Move.noConfusion fun _ _ => Bridge.Move.noConfusion

theorem World.Sound.move (h : w.Sound address) (m : Move) : (w.move r address m).Sound address := by
  rw [World.move]
  split
  · next hm => exact h.step hm
  · exact h

theorem World.Sound.moves (h : w.Sound address) (ms : List Move) :
    (w.moves r address ms).Sound address := by
  induction ms generalizing w with
  | nil => exact h
  | cons m ms ih => exact ih (h.move m)

theorem World.sound_start (hub : Hub) (line : Link) : ({ hub, line } : World).Sound address :=
  ⟨Bridge.inv_start, fun s hs => (by cases hs), rfl, fun s hs => (by cases hs),
    fun s hs => (by cases hs), fun s hs => (by cases hs)⟩

end Sound

section Stays

theorem World.Sound.stays_or_parts (h : w.Sound address) (hactive : w.traffic.bridge.active = some s)
    (m : Move) :
    (w.move r address m).traffic.bridge.active = some s ∨ w.Parts s m := by
  rw [World.move]
  split
  · next hm =>
    cases m with
    | service k amiss =>
      cases k with
      | command =>
        rw [World.step, (serve_command h.command amiss).1]
        exact .inl hactive
      | data =>
        have hattended := h.attended s hactive
        by_cases hending : ∃ g s', w.posts .data = .ending g s'
        · obtain ⟨g, s', hpost⟩ := hending
          rw [hpost] at hattended
          cases hattended
          exact .inr (.ended hpost)
        · have hadmitted : ∀ g, w.posts .data ≠ .admitted g := by
            intro g hpost
            rw [hpost] at hattended
            cases hattended
          rw [World.step, traffic_serve hadmitted fun g s' hg => hending ⟨g, s', hg⟩]
          exact .inl hactive
    | closer =>
      rw [World.step, (close_bridge w).1]
      exact .inl hactive
    | ask => exact .inl hactive
    | enter =>
      rw [(turn_bridge (.inl rfl)).1]
      exact .inl hactive
    | leave =>
      rw [(turn_bridge (.inr rfl)).1]
      exact .inl hactive
    | deed d => exact .inl hactive
    | traffic m =>
      have hmove : (∀ link, m ≠ .connect link) → (∀ i, m ≠ .detachSession i) → m ≠ .detach →
          (w.traffic.step m).bridge.active = some s ∨ w.Parts s (.traffic m) := by
        intro hconnect hone hany
        rcases Bridge.Traffic.active_step_cases hconnect hone hany hactive with
          hstays | ⟨t, k, rfl, hstage⟩
        · exact .inl hstays
        · obtain ⟨c, hcall, hsession, hfailed⟩ := h.failed_of_drop hstage
          exact .inr (.failed hstage hcall hsession hfailed)
      cases m with
      | connect link => exact .inl hactive
      | detachSession i => cases hm
      | detach => cases hm
      | call t name args =>
        rcases step_call (r := r) t name args w with hsame | hcall
        · rw [hsame]
          exact .inl hactive
        · rw [hcall]
          exact hmove (fun _ => Bridge.Move.noConfusion) (fun _ => Bridge.Move.noConfusion)
            Bridge.Move.noConfusion
      | _ =>
        exact hmove (fun _ => Bridge.Move.noConfusion) (fun _ => Bridge.Move.noConfusion)
          Bridge.Move.noConfusion
  · exact .inl hactive

theorem World.Sound.stays (h : w.Sound address) (hactive : w.traffic.bridge.active = some s)
    (ms : List Move) : (w.moves r address ms).traffic.bridge.active = some s ∨
      ∃ pre m post, ms = pre ++ m :: post ∧
        (w.moves r address pre).traffic.bridge.active = some s ∧
        (w.moves r address pre).Parts s m := by
  induction ms generalizing w with
  | nil => exact .inl hactive
  | cons m ms ih =>
    rcases @World.Sound.stays_or_parts r _ _ _ h hactive m with hstays | hparts
    · rcases ih (h.move m) hstays with hlast | ⟨pre, m', post, rfl, hthere, hparts⟩
      · exact .inl hlast
      · exact .inr ⟨m :: pre, m', post, rfl, hthere, hparts⟩
    · exact .inr ⟨[], m, ms, rfl, hactive, hparts⟩

end Stays

section Silent

theorem stages_serve (amiss : Bool) :
    (w.serve r k amiss).traffic.stages = w.traffic.stages := by
  by_cases hadmitted : ∃ g, w.posts k = .admitted g
  · obtain ⟨g, hpost⟩ := hadmitted
    rw [World.serve, hpost]
    cases k with
    | command => rfl
    | data => rfl
  by_cases hending : ∃ g s, w.posts k = .ending g s
  · obtain ⟨g, s, hpost⟩ := hending
    rw [World.serve, hpost]
    rfl
  · rw [traffic_serve (fun g hg => hadmitted ⟨g, hg⟩) fun g s hg => hending ⟨g, s, hg⟩]

theorem World.stages_move (hm : ¬ m.Of t) :
    (w.move r address m).traffic.stages t = w.traffic.stages t := by
  rw [World.move]
  split
  · cases m with
    | service k amiss => rw [World.step, stages_serve]
    | closer => rw [World.step, (close_bridge w).1]
    | ask => rfl
    | enter => rw [(turn_bridge (.inl rfl)).1]
    | leave => rw [(turn_bridge (.inr rfl)).1]
    | deed d => rfl
    | traffic m =>
      have hmove : (w.traffic.step m).stages t = w.traffic.stages t :=
        Bridge.Traffic.stages_step_of_other hm
      cases m with
      | connect link => rfl
      | call u name args =>
        rcases step_call (r := r) u name args w with hsame | hcall
        · rw [hsame]
        · rw [hcall]
          exact hmove
      | _ => exact hmove
  · rfl

theorem World.stages_moves {ms : List Move} (hms : ∀ m ∈ ms, ¬ m.Of t) :
    (w.moves r address ms).traffic.stages t = w.traffic.stages t := by
  induction ms generalizing w with
  | nil => rfl
  | cons m ms ih =>
    obtain ⟨hm, hms⟩ := List.forall_mem_cons.1 hms
    exact (ih hms).trans (World.stages_move hm)

theorem World.move_call (t : Nat) (name : String) (args : List UInt64) (w : World) :
    w.move r address (.traffic (.call t name args)) = w.step r (.traffic (.call t name args)) :=
  if_pos rfl

theorem World.move_advance (t : Nat) (w : World) :
    w.move r address (.traffic (.advance t)) = { w with traffic := w.traffic.advance t } := if_pos rfl

theorem World.Attended.vacant (h : w.Attended) (hwaits : (w.posts .data).Waits) :
    w.traffic.bridge.active = none := by
  cases hactive : w.traffic.bridge.active with
  | none => rfl
  | some s => exact ((h s hactive).symm.trans (Post.session_of_waits hwaits))

theorem World.Attended.current (h : w.Attended) (hwaits : (w.posts .data).Waits) :
    w.traffic.bridge.current = none := by
  rw [Bridge.current, h.vacant hwaits]
  rfl

theorem World.Attended.mute (h : w.Attended) (hhushed : (w.traffic.stages t).Hushed) (hm : m.Of t)
    (hlooks : m = .traffic (.advance t) → (w.traffic.stages t).Looks → (w.posts .data).Waits) :
    ((w.move r address m).traffic.stages t).Hushed ∧ w.Mute (w.move r address m) := by
  cases m with
  | traffic m =>
    cases m with
    | call u name args =>
      cases hm
      rw [World.move_call]
      rcases step_call (r := r) t name args w with hsame | hcall
      · rw [hsame]
        exact ⟨hhushed, rfl, .inl rfl⟩
      · rw [hcall]
        obtain ⟨hstill, hbridge, hreturned⟩ := Bridge.Traffic.call_of_hushed hhushed
        exact ⟨hstill, hbridge, .inl hreturned⟩
    | advance u =>
      cases hm
      rw [World.move_advance]
      exact Bridge.Traffic.advance_of_hushed hhushed fun hlook => h.current (hlooks rfl hlook)
    | _ => exact hm.elim
  | _ => exact hm.elim

theorem World.Sound.silent (h : w.Sound address) {ms : List Move}
    (hhushed : (w.traffic.stages t).Hushed)
    (hlooks : ∀ pre post, ms = pre ++ .traffic (.advance t) :: post →
      ((w.moves r address pre).traffic.stages t).Looks →
      ((w.moves r address pre).posts .data).Waits) :
    ∀ pre m post, ms = pre ++ m :: post → m.Of t →
      (w.moves r address pre).Mute ((w.moves r address pre).move r address m) := by
  induction ms generalizing w with
  | nil =>
    intro pre m post hms
    cases pre with
    | nil => cases hms
    | cons m' pre => cases hms
  | cons m₀ ms ih =>
    have hfirst : m₀.Of t → ((w.move r address m₀).traffic.stages t).Hushed ∧
        w.Mute (w.move r address m₀) := fun hm =>
      h.attended.mute hhushed hm fun heq => hlooks [] ms (by rw [heq]; rfl)
    have hstill : ((w.move r address m₀).traffic.stages t).Hushed := by
      by_cases hm : m₀.Of t
      · exact (hfirst hm).1
      · rw [World.stages_move hm]
        exact hhushed
    intro pre m post hms hm
    cases pre with
    | nil =>
      cases hms
      exact (hfirst hm).2
    | cons m' pre =>
      cases hms
      exact ih (h.move m₀) hstill (fun pre' post' heq => hlooks (m₀ :: pre') post'
        (by rw [heq]; rfl)) pre m post rfl hm

/-- A call that looks into the slot while the data service waits returns 0, whoever moves meanwhile. -/
theorem World.Attended.answers (h : w.Attended) (hwaits : (w.posts .data).Waits) {k : Nat}
    {name : String} {args : List UInt64} (hstage : w.traffic.stages t = .holding k (.look name args))
    {ms : List Move} (hms : ∀ m ∈ ms, ¬ m.Of t) :
    let v := w.move r address (.traffic (.advance t))
    let v' := v.moves r address ms
    let v'' := v'.move r address (.traffic (.advance t))
    v.traffic.bridge = w.traffic.bridge ∧ v''.traffic.bridge = v'.traffic.bridge ∧
      v''.traffic.stages t = .idle ∧ v''.traffic.returned = v'.traffic.returned ++ [0] := by
  intro v v' v''
  have hlook : v = { w with traffic := w.traffic.place t (.holding k (.leave 0)) } := by
    show w.move r address (.traffic (.advance t)) = _
    rw [World.move_advance, Bridge.advance_of_holding hstage, Bridge.Traffic.proceed, h.current hwaits]
  have hleave : v'.traffic.stages t = .holding k (.leave 0) := by
    refine (World.stages_moves hms).trans ?_
    rw [hlook]
    exact Bridge.Traffic.stages_place_self t _ _
  have hlast : v'' = { v' with traffic := v'.traffic.proceed t k (.leave 0) } := by
    show v'.move r address (.traffic (.advance t)) = _
    rw [World.move_advance, Bridge.advance_of_holding hleave]
  refine ⟨?_, ?_, ?_, ?_⟩
  · rw [hlook]
    rfl
  · rw [hlast]
    rfl
  · rw [hlast]
    exact Bridge.Traffic.stages_place_self t _ _
  · rw [hlast]
    rfl

end Silent

section Later

variable {n : Nat}

def World.Recent (n : Nat) (w : World) : Prop :=
  n ≤ w.traffic.bridge.sessions.length ∧ ∀ s, w.traffic.bridge.active = some s → n ≤ s

theorem World.Recent.begin (h : w.Recent n) (k : Kind) (g : Guest) : (w.begin k g).Recent n := by
  cases k with
  | command => exact h
  | data =>
    obtain ⟨s, hsessions⟩ : ∃ s, (w.begin .data g).traffic.bridge.sessions =
      w.traffic.bridge.sessions ++ [s] := ⟨_, rfl⟩
    refine ⟨?_, fun s hs => ?_⟩
    · rw [hsessions, List.length_append]
      exact Nat.le_add_right_of_le h.1
    · cases hs
      exact h.1

theorem World.Recent.serve (h : w.Recent n) (k : Kind) (amiss : Bool) :
    (w.serve r k amiss).Recent n := by
  by_cases hadmitted : ∃ g, w.posts k = .admitted g
  · obtain ⟨g, hpost⟩ := hadmitted
    rw [World.serve, hpost]
    exact h.begin k g
  · by_cases hending : ∃ g s, w.posts k = .ending g s
    · obtain ⟨g, s, hpost⟩ := hending
      rw [World.serve, hpost]
      refine ⟨h.1.trans (Bridge.Traffic.length_detachSession s _).ge, fun s' hs => h.2 s' ?_⟩
      exact ((Bridge.detachSession_state s w.traffic.bridge).2 s' hs).1
    · rw [World.Recent, traffic_serve (fun g hg => hadmitted ⟨g, hg⟩) fun g s hg => hending ⟨g, s, hg⟩]
      exact h

theorem World.Recent.step (h : w.Recent n) (m : Move) : (w.step r m).Recent n := by
  have htraffic : ∀ {m}, (∀ link, m ≠ .connect link) →
      ({ w with traffic := w.traffic.step m } : World).Recent n := fun hm =>
    ⟨h.1.trans (Bridge.Traffic.length_step hm).ge, fun s hs =>
      h.2 s (Bridge.Traffic.active_step hm hs)⟩
  cases m with
  | service k amiss => exact h.serve k amiss
  | closer =>
    rw [World.Recent, World.step, (close_bridge w).1]
    exact h
  | ask => exact h
  | enter =>
    rw [World.Recent, (turn_bridge (.inl rfl)).1]
    exact h
  | leave =>
    rw [World.Recent, (turn_bridge (.inr rfl)).1]
    exact h
  | deed d => exact h
  | traffic m =>
    cases m with
    | connect link => exact h
    | call t name args =>
      rcases step_call (r := r) t name args w with hsame | hcall
      · rw [hsame]
        exact h
      · rw [hcall]
        exact htraffic fun _ => Bridge.Move.noConfusion
    | _ => exact htraffic fun _ => Bridge.Move.noConfusion

theorem World.Recent.move (h : w.Recent n) (m : Move) : (w.move r address m).Recent n := by
  rw [World.move]
  split
  · exact h.step m
  · exact h

theorem World.Recent.moves (h : w.Recent n) (ms : List Move) : (w.moves r address ms).Recent n := by
  induction ms generalizing w with
  | nil => exact h
  | cons m ms ih => exact ih (h.move m)

end Later

theorem World.Sound.told (h : w.Sound address) (hs : s ∈ w.referred) :
    Bridge.detachAt address s w.traffic.bridge = Bridge.detachSession s w.traffic.bridge := by
  have hsame : w.traffic.bridge.active.map address = some (address s) ↔
      w.traffic.bridge.active = some s := by
    refine ⟨fun heq => ?_, fun heq => by rw [heq]; rfl⟩
    obtain ⟨s', hactive, haddress⟩ := Option.map_eq_some_iff.1 heq
    rw [hactive, h.apart s' (World.mem_referred.2 (.inl hactive)) s hs haddress]
  rw [Bridge.detachAt, Bridge.detachSession, bind_of_ok (get_apply _), bind_of_ok (get_apply _)]
  by_cases hactive : w.traffic.bridge.active = some s
  · rw [if_pos hactive, if_pos (hsame.2 hactive)]
  · rw [if_neg hactive, if_neg (mt hsame.1 hactive)]

/-- Sessions are isolated at the bridge, now and whatever is done next. -/
structure World.Isolated (r : Running) (address : Nat → Nat) (w : World) : Prop where
  live : ∀ s, w.traffic.bridge.active = some s →
    w.traffic.bridge.current = some s ∧ (w.posts .data).session = some s
  kept : ∀ s, (w.posts .data).session = some s → w.traffic.bridge.active = some s ∨
    ∃ c ∈ w.traffic.calls, c.session = some s ∧ c.Failed
  stays : ∀ s, w.traffic.bridge.active = some s → ∀ ms,
    (w.moves r address ms).traffic.bridge.active = some s ∨
      ∃ pre m post, ms = pre ++ m :: post ∧
        (w.moves r address pre).traffic.bridge.active = some s ∧ (w.moves r address pre).Parts s m
  told : ∀ s ∈ w.referred,
    Bridge.detachAt address s w.traffic.bridge = Bridge.detachSession s w.traffic.bridge
  empty : (w.posts .data).Waits → w.traffic.bridge.active = none ∧ ∀ name args,
    (Bridge.forward name args w.traffic.bridge).result = .ok 0 ∧
      (Bridge.forward name args w.traffic.bridge).state = w.traffic.bridge
  answers : (w.posts .data).Waits → ∀ t k name args,
    w.traffic.stages t = .holding k (.look name args) → ∀ ms, (∀ m ∈ ms, ¬ m.Of t) →
      let v := w.move r address (.traffic (.advance t))
      let v' := v.moves r address ms
      let v'' := v'.move r address (.traffic (.advance t))
      v.traffic.bridge = w.traffic.bridge ∧ v''.traffic.bridge = v'.traffic.bridge ∧
        v''.traffic.stages t = .idle ∧ v''.traffic.returned = v'.traffic.returned ++ [0]
  -- a call that looks later can only find a session that was attached in the meantime
  later : (w.posts .data).Waits → ∀ ms s, (w.moves r address ms).traffic.bridge.active = some s →
    w.traffic.bridge.sessions.length ≤ s
  silent : ∀ t, (w.traffic.stages t).Hushed → ∀ ms,
    (∀ pre post, ms = pre ++ .traffic (.advance t) :: post →
      ((w.moves r address pre).traffic.stages t).Looks →
      ((w.moves r address pre).posts .data).Waits) →
    ∀ pre m post, ms = pre ++ m :: post → m.Of t →
      (w.moves r address pre).Mute ((w.moves r address pre).move r address m)

theorem World.Sound.isolated (h : w.Sound address) : w.Isolated r address where
  live s hs := by
    have hsession := h.attended s hs
    exact ⟨Bridge.current_of_holds hs (h.held s hsession), hsession⟩
  kept := h.kept
  stays s hs ms := h.stays hs ms
  told s hs := h.told hs
  empty hwaits := ⟨h.attended.vacant hwaits, Bridge.forward_of_none (h.attended.current hwaits)⟩
  answers hwaits t k name args hstage ms hms := h.attended.answers hwaits hstage hms
  later hwaits ms s hs := by
    refine (World.Recent.moves ⟨Nat.le_refl _, fun s hs => ?_⟩ ms).2 s hs
    cases (h.attended.vacant hwaits).symm.trans hs
  silent t hhushed ms hlooks := h.silent hhushed hlooks

/-- Sessions come and go, calls fail early and late, and none is in the way of another. -/
theorem isolated_of_moves (r : Running) (address : Nat → Nat) (hub : Hub) (line : Link)
    (ms : List Move) : (World.moves r address ms { hub, line }).Isolated r address :=
  ((World.sound_start hub line).moves ms).isolated

section Courses

def course (ms : List Move) : World :=
  World.moves ⟨1, ⟨"mbam-", 7, ""⟩, 0, ⟨"mbamd-", 7, ""⟩⟩ id ms
    { hub := { network := { directories := [], listeners := [{}] },
               channels := [{ name := ⟨"mbamd-", 7, ""⟩, listener := 0 }] },
      line := { stream := { incoming := [] } } }

def goOn : Move := .service .data false

def thread : Move := .traffic (.advance 1)

def attaches : List Move := [.deed (.connectTo 0), goOn, goOn, goOn, goOn]

/-- A call begins while the data service waits, and takes the lock only after a controller was attached:
it writes to that controller's stream and returns what it answers. -/
theorem not_silent_of_late_look :
    let begins := [goOn, goOn, .traffic (.call 1 "f" [])]
    let response := .bytes [16, 0, 0, 0, 16, 0, 0, 0, 7, 0, 0, 0, 0, 0, 0, 0, 0, 0, 0, 0]
    let w := course (begins ++ attaches ++ [.traffic (.arrive 0 [response]), thread, thread, thread,
      thread, thread])
    (course begins).posts .data = .blocked ∧ w.traffic.returned = [7] := by
  decide +kernel

example :
    let calls := [.traffic (.call 1 "f" []), thread, thread, thread]
    let goes := [goOn, goOn, .deed (.shutdown 0), goOn, goOn, goOn, goOn, goOn, goOn, goOn]
    let w := course ([goOn, goOn] ++ attaches ++ calls ++ goes ++ attaches ++ [thread, thread, thread])
    w.traffic.bridge.isFailed 0 = true ∧ w.traffic.bridge.active = some 1 := by
  decide +kernel

end Courses

end Agent

end RemoteAgent
