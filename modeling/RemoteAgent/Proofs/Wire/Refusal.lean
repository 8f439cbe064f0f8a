import RemoteAgent.Proofs.Wire.Intake

/-! Streams that take no more. Writing a buffer fails only with what the stream itself gives as a
failure: one that stands in its course, that its room is used up, or that a write takes nothing. -/

namespace RemoteAgent.Stream

/-- The failures that writes to the stream can meet. -/
inductive Refuses (s : Stream) : IoError → Prop
  | failure {k : IoError.Kind} (h : .failure k ∈ s.turns) : Refuses s (scripted k)
  | full (h : s.room.isSome = true) : Refuses s full
  | stalled (h : .takes 0 ∈ s.turns) : Refuses s .writeZero

variable {data : List UInt8} {s t : Stream} {e : IoError}

theorem accepted_eq_error {turn : Option Turn} {room : Option Nat} {n : Nat}
    (h : accepted turn room n = .error e) : ∃ k, turn = some (.failure k) ∧ e = scripted k := by
  unfold accepted at h
  split at h
  · cases h
    exact ⟨_, rfl, rfl⟩
  · cases h
  · cases h

theorem accepted_eq_zero {turn : Option Turn} {room : Option Nat} {n : Nat} (hn : 0 < n)
    (hroom : room ≠ some 0) (h : accepted turn room n = .ok 0) : turn = some (.takes 0) := by
  have hlimited : 0 < accepted.limited room n := by
    cases room with
    | none => exact hn
    | some r =>
      have hr : r ≠ 0 := fun hzero => hroom (congrArg some hzero)
      exact Nat.lt_min.2 ⟨hn, Nat.pos_of_ne_zero hr⟩
  unfold accepted at h
  split at h
  · cases h
  · next most =>
    have hmin : min most (accepted.limited room n) = 0 := Except.ok.inj h
    have hmost : most = 0 := by omega
    rw [hmost]
  · have hzero : accepted.limited room n = 0 := Except.ok.inj h
    omega

theorem turns_of_write {r : Except IoError Nat} (h : write data s = (r, t)) :
    t.turns = s.turns.tail ∧ t.room.isSome = s.room.isSome := by
  unfold write at h
  dsimp only at h
  split at h
  · cases h
    exact ⟨rfl, rfl⟩
  · split at h
    · cases h
      exact ⟨rfl, rfl⟩
    · cases h
      exact ⟨rfl, Option.isSome_map⟩

theorem length_turns_of_write {r : Except IoError Nat} (h : write data s = (r, t)) :
    t.turns.length = s.turns.length - 1 := by
  rw [(turns_of_write h).1, List.length_tail]

theorem refuses_of_write_eq_error {r : IoError} (h : write data s = (.error r, t)) : s.Refuses r := by
  unfold write at h
  dsimp only at h
  split at h
  · next hroom =>
    cases h
    exact .full (by rw [hroom]; rfl)
  · split at h
    · next heq =>
      cases h
      obtain ⟨k, hturn, rfl⟩ := accepted_eq_error heq
      exact .failure (List.mem_of_mem_head? hturn)
    · cases h

theorem refuses_of_write_eq_zero (hdata : 0 < data.length) (h : write data s = (.ok 0, t)) :
    s.Refuses .writeZero := by
  unfold write at h
  dsimp only at h
  split at h
  · cases h
  · next hroom =>
    split at h
    · cases h
    · next k heq =>
      have hk : k = 0 := Except.ok.inj (congrArg Prod.fst h)
      rw [hk] at heq
      exact .stalled (List.mem_of_mem_head? (accepted_eq_zero hdata hroom heq))

theorem Refuses.of_write {r : Except IoError Nat} (h : t.Refuses e) (hw : write data s = (r, t)) :
    s.Refuses e := by
  obtain ⟨hturns, hroom⟩ := turns_of_write hw
  cases h with
  | failure h => exact .failure (List.mem_of_mem_tail (hturns ▸ h))
  | full h => exact .full (hroom ▸ h)
  | stalled h => exact .stalled (List.mem_of_mem_tail (hturns ▸ h))

theorem Refuses.turns_ne_nil (h : s.Refuses e) (hk : e.kind = .interrupted) : s.turns ≠ [] := by
  cases h with
  | failure h => exact List.ne_nil_of_mem h
  | full h => cases hk
  | stalled h => cases hk

theorem refuses_of_writeAllFrom {fuel : Nat} (hfuel : data.length + s.turns.length ≤ fuel)
    (h : (writeAllFrom fuel data s).1 = .error e) : s.Refuses e ∧ e.kind ≠ .interrupted := by
  -- Each round takes a byte or uses up a turn, so that the fuel is not what ends it.
  fun_induction writeAllFrom fuel data s with
  | case1 => cases h
  | case2 b d s =>
    rw [List.length_cons] at hfuel
    omega
  | case3 fuel b d s t hw =>
    have hpos : 0 < (b :: d).length := Nat.succ_pos d.length
    cases h
    exact ⟨refuses_of_write_eq_zero hpos hw, fun hk => by cases hk⟩
  | case4 fuel b d s k t hw ih =>
    have hturns : t.turns.length = s.turns.length - 1 := length_turns_of_write hw
    rw [List.length_cons] at hfuel
    have hrest : (d.drop k).length + t.turns.length ≤ fuel := by
      rw [List.length_drop]
      omega
    obtain ⟨href, hk⟩ := ih hrest h
    exact ⟨href.of_write hw, hk⟩
  | case5 fuel b d s r t hw hr ih =>
    have hturns : t.turns.length = s.turns.length - 1 := length_turns_of_write hw
    have hpos : 0 < s.turns.length :=
      List.length_pos_iff.2 ((refuses_of_write_eq_error hw).turns_ne_nil hr)
    obtain ⟨href, hk⟩ := ih (by omega) h
    exact ⟨href.of_write hw, hk⟩
  | case6 fuel b d s r t hw hr =>
    cases h
    exact ⟨refuses_of_write_eq_error hw, hr⟩

theorem refuses_of_writeAll (h : writeAll data s = (.error e, t)) :
    s.Refuses e ∧ e.kind ≠ .interrupted :=
  refuses_of_writeAllFrom (Nat.le_refl _) (congrArg Prod.fst h)

theorem flushes_writeAll {r : Except IoError Unit} (h : writeAll data s = (r, t)) :
    t.flushes = s.flushes := by
  have hflushes := @view_writeAllFrom _ flushes (fun _ _ _ _ _ => rfl)
    (data.length + s.turns.length) data s
  rw [writeAll] at h
  rwa [h] at hflushes

end RemoteAgent.Stream
