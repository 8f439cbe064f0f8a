import RemoteAgent.Proofs.Memory.Partition
import RemoteAgent.Proofs.Memory.Protecting

/-! Walks as loops. Whatever a query answers, each round of a walk that is not the last one leaves the
cursor at a higher address, so that a walk has no more rounds than there are addresses above its start. -/

namespace RemoteAgent.Memory

/-- Runs a loop for at most so many rounds. A round leaves a state for the next one or is the last. -/
def rounds {σ α : Type} (round : σ → σ ⊕ α) : Nat → σ → Option α
  | 0, _ => none
  | n + 1, s => (round s).elim (rounds round n) some

theorem rounds_eq_some {σ α : Type} {round : σ → σ ⊕ α} {value : σ → α} (measure : σ → Nat)
    (hvalue : ∀ s, value s = (round s).elim value id)
    (hless : ∀ s s', round s = .inl s' → measure s' < measure s) {n : Nat} {s : σ}
    (h : measure s < n) : rounds round n s = some (value s) := by
  induction n generalizing s with
  | zero => exact (Nat.not_lt_zero _ h).elim
  | succ n ih =>
    rw [rounds, hvalue s]
    cases hs : round s with
    | inl s' =>
      have hs' : measure s' < measure s := hless s s' hs
      exact ih (by omega)
    | inr a => rfl

section Walks

/-- One round of the check of a range that ends at `stop`, with the address at the cursor. -/
def checkRound (query : Nat → Option Region) (stop cursor : Nat) : Nat ⊕ Except Error Unit :=
  match query cursor with
  | none => .inr (.error (.memoryAccess cursor .unqueryable))
  | some r =>
    if !r.isAccessible then
      .inr (.error (.memoryAccess cursor (.inaccessible r.base r.state r.protect)))
    else if r.stop ≤ cursor then .inr (.error (.memoryAccess cursor .noProgress))
    else if stop ≤ r.stop then .inr (.ok ())
    else .inl r.stop

/-- One round of the walk over all regions, with the cursor and the regions met so far. -/
def regionsRound (query : Nat → Option Region) (s : Nat × List Region) :
    (Nat × List Region) ⊕ List Region :=
  match query s.1 with
  | none => .inr s.2
  | some r =>
    if r.stop ≤ s.1 ∨ r.stop = top then .inr (s.2 ++ [r]) else .inl (r.stop, s.2 ++ [r])

variable {query : Nat → Option Region} {stop cursor next : Nat} {s s' : Nat × List Region}

theorem lt_of_checkRound (h : checkRound query stop cursor = .inl next) :
    cursor < next ∧ next < stop ∧ next ≤ top := by
  unfold checkRound at h
  split at h
  · cases h
  · next r _ =>
    split at h
    · cases h
    · split at h
      · cases h
      · next hmove =>
        split at h
        · cases h
        · next hmore =>
          cases h
          exact ⟨Nat.not_le.1 hmove, Nat.not_le.1 hmore, r.stop_le_top⟩

theorem lt_of_regionsRound (h : regionsRound query s = .inl s') : s.1 < s'.1 ∧ s'.1 < top := by
  unfold regionsRound at h
  split at h
  · cases h
  · next r _ =>
    split at h
    · cases h
    · next hmore =>
      cases h
      have hle : r.stop ≤ top := r.stop_le_top
      exact ⟨Nat.not_le.1 fun hstuck => hmore (.inl hstuck),
        Nat.lt_of_le_of_ne hle fun htop => hmore (.inr htop)⟩

theorem checkFrom_eq_checkRound (query : Nat → Option Region) (stop cursor : Nat) :
    (checkFrom query stop cursor).2 =
      (checkRound query stop cursor).elim (fun next => (checkFrom query stop next).2) id := by
  rw [checkFrom, checkRound]
  cases query cursor with
  | none => rfl
  | some r =>
    dsimp only
    split
    · rfl
    · split
      · rfl
      · split
        · rfl
        · rfl

theorem regionsFrom_eq_regionsRound (query : Nat → Option Region) (s : Nat × List Region) :
    s.2 ++ regionsFrom query s.1 =
      (regionsRound query s).elim (fun s' => s'.2 ++ regionsFrom query s'.1) id := by
  rw [regionsFrom, walkFrom, regionsRound]
  cases query s.1 with
  | none => exact List.append_nil s.2
  | some r =>
    dsimp only
    split
    · rfl
    · exact List.append_cons s.2 r (regionsFrom query r.stop)

/-- Both walks end, whatever a query answers. Run as a loop, the check of a range whose end is an address
and the walk over all regions have their result within as many rounds as there are addresses from their
start on; each round but the last one raises the cursor to an address. If accessible regions hold the
address that was asked about, then a range that was accepted, its first address in any case, lies in
accessible regions that were answers. -/
theorem walks_end (query : Nat → Option Region) :
    (∀ address length, address + length ≤ top → ∀ n, top - address < n →
      rounds (checkRound query (address + length)) n address =
        some (check query address length).2) ∧
    (∀ address length, top < address + length → check query address length =
      ([], .error (.memoryAccess address (.rangeOverflows length)))) ∧
    (∀ n, top < n → rounds (regionsRound query) n (0, []) = some (regions query)) ∧
    (∀ stop cursor next, checkRound query stop cursor = .inl next → cursor < next ∧ next ≤ top) ∧
    (∀ s s', regionsRound query s = .inl s' → s.1 < s'.1 ∧ s'.1 ≤ top) ∧
    ((∀ a r, query a = some r → r.isAccessible = true → r.contains a = true) →
      ∀ address length, (check query address length).2 = .ok () →
        ∀ a, Touches address (address + length) a →
          ∃ b ∈ (check query address length).1, ∃ r, query b = some r ∧ r.isAccessible = true ∧
            r.contains a = true) := by
  refine ⟨fun address length hle n hn => ?_, fun address length => check_of_overflow,
    fun n hn => ?_, fun stop cursor next h => ?_, fun s s' h => ?_,
    fun hq address length hok a ha => ?_⟩
  · rw [check_of_le hle]
    refine rounds_eq_some (fun cursor => top - cursor) (checkFrom_eq_checkRound query _)
      (fun cursor next h => ?_) hn
    have hup := lt_of_checkRound h
    omega
  · refine rounds_eq_some (fun s => top - s.1) (regionsFrom_eq_regionsRound query)
      (fun s s' h => ?_) hn
    have hup := lt_of_regionsRound h
    omega
  · have hup := lt_of_checkRound h
    exact ⟨hup.1, hup.2.2⟩
  · have hup := lt_of_regionsRound h
    exact ⟨hup.1, Nat.le_of_lt hup.2⟩
  · rcases Nat.lt_or_ge top (address + length) with hover | hle
    · rw [check_of_overflow hover] at hok
      cases hok
    · rw [check_of_le hle] at hok ⊢
      exact exists_asked_of_touches hq hok ha

theorem walks_end_inconsistent :
    let empty : Nat → Option Region := fun a => some ⟨a + 1, 0, 0, .free, .none⟩
    let endless : Nat → Option Region := fun a =>
      if a < top then some ⟨a / 4096 * 4096, top, Code.readWrite, .commit, .anonymous⟩ else none
    rounds (regionsRound empty) (top + 1) (0, []) = some (regions empty) ∧
      (∀ a r, endless a = some r → r.isAccessible = true → r.contains a = true) ∧
      rounds (checkRound endless 0x6234) (top + 1) 0x1234 = some (.ok ()) ∧
      ∃ b ∈ (check endless 0x1234 0x5000).1, ∃ r, endless b = some r ∧ r.isAccessible = true ∧
        r.contains 0x6233 = true := by
  intro empty endless
  have hin : ∀ a r, endless a = some r → r.isAccessible = true → r.contains a = true := by
    intro a r hr _
    simp only [endless, Option.ite_none_right_eq_some, Option.some.injEq] at hr
    obtain ⟨hlow, rfl⟩ := hr
    refine Region.contains_iff.2 ⟨Nat.div_mul_le_self a 4096, ?_⟩
    exact Nat.lt_of_lt_of_le hlow (Nat.le_min.2 ⟨Nat.le_add_left _ _, Nat.le_refl _⟩)
  have hok : (check endless 0x1234 0x5000).2 = .ok () := by
    rw [check_of_le (by decide), checkFrom_eq_checkRound]
    rfl
  obtain ⟨-, -, hregions, -⟩ := walks_end empty
  obtain ⟨hcheck, -, -, -, -, hcover⟩ := walks_end endless
  refine ⟨hregions (top + 1) (Nat.lt_succ_self top), hin, ?_, ?_⟩
  · rw [← hok]
    exact hcheck 0x1234 0x5000 (by decide) (top + 1) (by decide)
  · exact hcover hin 0x1234 0x5000 hok 0x6233 ⟨by decide, .inl (by decide)⟩

end Walks

end RemoteAgent.Memory
