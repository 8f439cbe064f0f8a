import RemoteAgent.Memory.Space
import RemoteAgent.Proofs.Memory.Map

/-! Checks of ranges. Over a memory map the check of a range finds the least address that may not be
touched, and accepts the range exactly if there is none. -/

namespace RemoteAgent.Memory

/-- The addresses of a range, and its first one also where the range is empty. -/
def Touches (address stop a : Nat) : Prop := address ≤ a ∧ (a < stop ∨ a = address)

structure Tells (query : Nat → Option Region) (usable : Nat → Prop) : Prop where
  answered : ∀ a, usable a → query a ≠ none
  accessible : ∀ a r, query a = some r → (usable a ↔ r.isAccessible = true)
  upward : ∀ a r, query a = some r → usable a →
    a < r.stop ∧ ∀ b, a ≤ b → b < r.stop → usable b

def Accepted (usable : Nat → Prop) (address stop : Nat) : Prop :=
  ∀ a, Touches address stop a → usable a

/-- The failure names the least address of the range that may not be touched. -/
def Refused (usable : Nat → Prop) (address stop : Nat) (e : Error) : Prop :=
  ∃ a cause, e = .memoryAccess a cause ∧ Touches address stop a ∧ ¬ usable a ∧
    ∀ b, Touches address stop b → ¬ usable b → a ≤ b

section Walk

variable {query : Nat → Option Region} {usable : Nat → Prop}

theorem touches_self (address stop : Nat) : Touches address stop address :=
  ⟨Nat.le_refl address, .inr rfl⟩

theorem refused_first {address : Nat} (h : ¬ usable address) (stop : Nat) (cause : MemoryFault) :
    Refused usable address stop (.memoryAccess address cause) :=
  ⟨address, cause, rfl, touches_self address stop, h, fun _ hb _ => hb.1⟩

theorem Refused.of_le {address next stop : Nat} {e : Error} (h : Refused usable next stop e)
    (hlt : address < next) (hnext : next < stop) (hbetween : ∀ b, address ≤ b → b < next → usable b) :
    Refused usable address stop e := by
  obtain ⟨a, cause, rfl, ha, hout, hleast⟩ := h
  refine ⟨a, cause, rfl, ?_, hout, ?_⟩
  · unfold Touches at ha ⊢
    omega
  · intro b hb hbout
    have hge : next ≤ b := by
      rcases Nat.lt_or_ge b next with hlow | hge
      · exact (hbout (hbetween b hb.1 hlow)).elim
      · exact hge
    apply hleast b _ hbout
    unfold Touches at hb ⊢
    omega

theorem checkFrom_of_tells (hq : Tells query usable) (stop cursor : Nat) :
    ((checkFrom query stop cursor).2 = .ok () ∧ Accepted usable cursor stop) ∨
      ∃ e, (checkFrom query stop cursor).2 = .error e ∧ Refused usable cursor stop e := by
  -- The walk goes on only behind memory that may be touched, so it meets the least address first.
  fun_induction checkFrom query stop cursor with
  | case1 cursor hnone =>
    have hout : ¬ usable cursor := fun h => hq.answered cursor h hnone
    exact .inr ⟨_, rfl, refused_first hout stop .unqueryable⟩
  | case2 cursor r hr hacc =>
    have hout : ¬ usable cursor := by
      intro h
      rw [(hq.accessible cursor r hr).1 h] at hacc
      cases hacc
    exact .inr ⟨_, rfl, refused_first hout stop _⟩
  | case3 cursor r hr hacc hstuck =>
    have hout : ¬ usable cursor := fun h => Nat.not_lt.2 hstuck (hq.upward cursor r hr h).1
    exact .inr ⟨_, rfl, refused_first hout stop .noProgress⟩
  | case4 cursor r hr hacc hmove hend =>
    have hin : usable cursor := (hq.accessible cursor r hr).2 (by simpa using hacc)
    refine .inl ⟨rfl, ?_⟩
    intro a ha
    apply (hq.upward cursor r hr hin).2 a ha.1
    unfold Touches at ha
    omega
  | case5 cursor r hr hacc hmove hend asked result heq ih =>
    have hin : usable cursor := (hq.accessible cursor r hr).2 (by simpa using hacc)
    have hup : ∀ b, cursor ≤ b → b < r.stop → usable b := (hq.upward cursor r hr hin).2
    rw [heq] at ih
    rcases ih with ⟨hok, hall⟩ | ⟨e, he, href⟩
    · refine .inl ⟨hok, ?_⟩
      intro a ha
      rcases Nat.lt_or_ge a r.stop with hlt | hge
      · exact hup a ha.1 hlt
      · apply hall a
        unfold Touches at ha ⊢
        omega
    · exact .inr ⟨e, he, href.of_le (Nat.not_le.1 hmove) (Nat.not_le.1 hend) hup⟩

theorem not_accepted_of_refused {address stop : Nat} {e : Error}
    (h : Refused usable address stop e) : ¬ Accepted usable address stop := by
  obtain ⟨a, _, _, ha, hout, _⟩ := h
  exact fun hall => hout (hall a ha)

theorem check_of_overflow {address length : Nat} (h : top < address + length) :
    check query address length = ([], .error (.memoryAccess address (.rangeOverflows length))) := by
  rw [check, add?, if_neg (Nat.not_le.2 h)]

theorem check_of_le {address length : Nat} (h : address + length ≤ top) :
    check query address length = checkFrom query (address + length) address := by
  rw [check, add?, if_pos h]

end Walk

theorem tells_regionAt {ms : List Mapping} (hs : Mapping.Sorted ms) (hd : Mapping.Disjoint ms)
    (ht : ∀ m ∈ ms, m.stop ≤ top) : Tells (fun a => some (regionAt ms a)) (Usable ms) where
  answered := fun _ _ h => nomatch h
  accessible := by
    intro a r hr
    cases hr
    exact usable_iff_isAccessible_regionAt hs hd
  upward := by
    intro a r hr h
    cases hr
    exact stop_regionAt_of_usable hs hd ht h

theorem Space.looked_apply (asked : List Nat) (s : Space) :
    ∃ es, Space.looked asked s = ⟨.ok (), s, es⟩ := by
  rw [Space.looked, Action.bind_of_ok (Action.get_apply s)]
  cases s.canOpen with
  | true => exact ⟨_, rfl⟩
  | false => exact ⟨_, rfl⟩

theorem Space.validate_apply (address length : Nat) (s : Space) :
    ∃ es, Engine.validate address length s = ⟨(check s.look address length).2, s, es⟩ := by
  obtain ⟨es, hes⟩ := Space.looked_apply (check s.look address length).1 s
  have hlooked : AddressSpace.looked (check s.look address length).1 s = ⟨.ok (), s, es⟩ := hes
  rw [Engine.validate, Action.bind_of_ok (Action.get_apply s)]
  show ∃ es', (AddressSpace.looked (check s.look address length).1 >>= fun _ =>
    Action.ofExcept (check s.look address length).2) s = _
  rw [Action.bind_of_ok hlooked]
  cases (check s.look address length).2 with
  | ok _ => exact ⟨_, rfl⟩
  | error e => exact ⟨_, rfl⟩

/-- A range of a memory map is accepted exactly if its end is an address and each of its addresses,
the first one in any case, lies in a mapping that may be read or written. Otherwise, unless its end
is none, the failure tells the least address that does not. A process checks its own map so. -/
theorem check_regionAt {ms : List Mapping} (hs : Mapping.Sorted ms) (hd : Mapping.Disjoint ms)
    (ht : ∀ m ∈ ms, m.stop ≤ top) (address length : Nat) :
    ((check (fun a => some (regionAt ms a)) address length).2 = .ok () ↔
      address + length ≤ top ∧ Accepted (Usable ms) address (address + length)) ∧
    (∀ e, (check (fun a => some (regionAt ms a)) address length).2 = .error e →
      address + length ≤ top → Refused (Usable ms) address (address + length) e) ∧
    ∀ s : Space, s.canOpen = true → s.mappings = ms →
      (Engine.validate address length s).result =
        (check (fun a => some (regionAt ms a)) address length).2 := by
  have hprocess : ∀ s : Space, s.canOpen = true → s.mappings = ms →
      (Engine.validate address length s).result =
        (check (fun a => some (regionAt ms a)) address length).2 := by
    intro s hopen hmap
    have hlook : s.look = fun a => some (regionAt ms a) := by
      funext a
      rw [Space.look, if_pos hopen, hmap]
    obtain ⟨es, hval⟩ := Space.validate_apply address length s
    rw [hval, hlook]
  rcases Nat.lt_or_ge top (address + length) with hover | hle
  · rw [check_of_overflow hover] at hprocess ⊢
    refine ⟨⟨fun h => (nomatch h), fun h => ?_⟩, fun e _ h => ?_, hprocess⟩
    · exact (Nat.not_le.2 hover h.1).elim
    · exact (Nat.not_le.2 hover h).elim
  · rw [check_of_le hle] at hprocess ⊢
    rcases checkFrom_of_tells (tells_regionAt hs hd ht) (address + length) address with
      ⟨hok, hall⟩ | ⟨e, he, href⟩
    · refine ⟨⟨fun _ => ⟨hle, hall⟩, fun _ => hok⟩, fun e h => ?_, hprocess⟩
      rw [hok] at h
      cases h
    · refine ⟨⟨fun h => ?_, fun h => ?_⟩, fun e' h _ => ?_, hprocess⟩
      · rw [he] at h
        cases h
      · exact (not_accepted_of_refused href h.2).elim
      · rw [he] at h
        cases h
        exact href

theorem check_regionAt_into_code :
    let ms : List Mapping := [⟨0x1000, 0x2000, true, false, false, ""⟩,
      ⟨0x2000, 0x3000, false, true, false, ""⟩, ⟨0x3000, 0x4000, false, false, true, "/agent"⟩]
    (Mapping.Sorted ms ∧ Mapping.Disjoint ms ∧ ∀ m ∈ ms, m.stop ≤ top) ∧
      (check (fun a => some (regionAt ms a)) 0x1800 0x1800).2 = .ok () ∧
      ∃ cause, (check (fun a => some (regionAt ms a)) 0x1800 0x1801).2 =
        .error (.memoryAccess 0x3000 cause) := by
  intro ms
  have hs : Mapping.Sorted ms := by
    unfold Mapping.Sorted
    decide
  have hd : Mapping.Disjoint ms := by
    simp only [ms, Mapping.Disjoint, Mapping.contains_iff, List.pairwise_cons, List.mem_cons,
      List.not_mem_nil, or_false, forall_eq_or_imp, forall_eq]
    refine ⟨⟨?_, ?_⟩, ?_, ?_⟩
    all_goals simp <;> omega
  have ht : ∀ m ∈ ms, m.stop ≤ top := by decide
  have husable : ∀ a, Usable ms a ↔ 0x1000 ≤ a ∧ a < 0x3000 := by
    intro a
    simp only [ms, Usable, Mapping.contains_iff, List.mem_cons, List.not_mem_nil, or_false,
      exists_eq_or_imp, exists_eq_left]
    simp
    omega
  obtain ⟨hin, _⟩ := check_regionAt hs hd ht 0x1800 0x1800
  obtain ⟨hout, herr, _⟩ := check_regionAt hs hd ht 0x1800 0x1801
  refine ⟨⟨hs, hd, ht⟩, ?_, ?_⟩
  · apply hin.2
    refine ⟨by decide, ?_⟩
    intro a ha
    unfold Touches at ha
    exact (husable a).2 (by omega)
  · have hbad : ¬ Usable ms 0x3000 := fun h => absurd ((husable 0x3000).1 h).2 (by decide)
    have hend : Touches 0x1800 (0x1800 + 0x1801) 0x3000 := ⟨by decide, .inl (by decide)⟩
    cases hr : (check (fun a => some (regionAt ms a)) 0x1800 0x1801).2 with
    | ok _ => exact (hbad ((hout.1 hr).2 0x3000 hend)).elim
    | error e =>
      obtain ⟨a, cause, rfl, ha, hau, hleast⟩ := herr e hr (by decide)
      have hle : a ≤ 0x3000 := hleast 0x3000 hend hbad
      have hge : 0x3000 ≤ a := by
        rw [husable] at hau
        unfold Touches at ha
        omega
      exact ⟨cause, by rw [Nat.le_antisymm hle hge]⟩

end RemoteAgent.Memory
