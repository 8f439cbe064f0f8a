import RemoteAgent.Stream

/-! Streams that take bytes. What a stream was given of a buffer is a front part of it, and all of
it if the writing succeeds; writing succeeds if each write takes something or is interrupted. -/

namespace RemoteAgent.Stream

theorem limited_le (room : Option Nat) (n : Nat) : accepted.limited room n ≤ n := by
  cases room with
  | none => exact Nat.le_refl n
  | some r => exact Nat.min_le_left n r

theorem accepted_le {turn : Option Turn} {room : Option Nat} {n k : Nat}
    (h : accepted turn room n = .ok k) : k ≤ n := by
  unfold accepted at h
  split at h
  · cases h
  · cases h
    exact Nat.le_trans (Nat.min_le_right _ _) (limited_le room n)
  · cases h
    exact limited_le room n

theorem sent_of_write_eq_ok {data : List UInt8} {s t : Stream} {k : Nat}
    (h : write data s = (.ok k, t)) : k ≤ data.length ∧ t.sent = s.sent ++ data.take k := by
  unfold write at h
  dsimp only at h
  split at h
  · cases h
  · split at h
    · cases h
    · next hk =>
      cases h
      exact ⟨accepted_le hk, rfl⟩

theorem sent_of_write_eq_error {data : List UInt8} {s t : Stream} {e : IoError}
    (h : write data s = (.error e, t)) : t.sent = s.sent := by
  unfold write at h
  dsimp only at h
  split at h
  · cases h
    rfl
  · split at h
    · cases h
      rfl
    · cases h

theorem sent_writeAllFrom (fuel : Nat) (data : List UInt8) (s : Stream) :
    ∃ k, (writeAllFrom fuel data s).2.sent = s.sent ++ data.take k ∧
      ((writeAllFrom fuel data s).1 = .ok () → data.length ≤ k) := by
  fun_induction writeAllFrom fuel data s with
  | case1 fuel s => exact ⟨0, (List.append_nil _).symm, fun _ => Nat.le_refl 0⟩
  | case2 b d s => exact ⟨0, (List.append_nil _).symm, fun h => by cases h⟩
  | case3 fuel b d s t h =>
    exact ⟨0, (sent_of_write_eq_ok h).2, fun h => by cases h⟩
  | case4 fuel b d s k t h ih =>
    obtain ⟨hk, hsent⟩ := sent_of_write_eq_ok h
    obtain ⟨j, hj, hall⟩ := ih
    refine ⟨k + 1 + j, ?_, fun hok => ?_⟩
    · rw [hj, hsent, List.append_assoc, List.take_add, List.drop_succ_cons]
    · have hlen := hall hok
      rw [List.length_drop] at hlen
      rw [List.length_cons] at hk ⊢
      omega
  | case5 fuel b d s e t h _ ih =>
    obtain ⟨j, hj, hall⟩ := ih
    exact ⟨j, by rw [hj, sent_of_write_eq_error h], hall⟩
  | case6 fuel b d s e t h _ =>
    exact ⟨0, by rw [sent_of_write_eq_error h, List.take_zero, List.append_nil], fun h => by cases h⟩

theorem sent_of_writeAllFrom_eq_error {fuel : Nat} {data : List UInt8} {s : Stream} {e : IoError}
    (h : (writeAllFrom fuel data s).1 = .error e) :
    ∃ k < data.length, (writeAllFrom fuel data s).2.sent = s.sent ++ data.take k := by
  fun_induction writeAllFrom fuel data s with
  | case1 => cases h
  | case2 b d s => exact ⟨0, Nat.succ_pos _, (List.append_nil _).symm⟩
  | case3 fuel b d s t hw => exact ⟨0, Nat.succ_pos _, (sent_of_write_eq_ok hw).2⟩
  | case4 fuel b d s k t hw ih =>
    obtain ⟨hk, hsent⟩ := sent_of_write_eq_ok hw
    obtain ⟨j, hj, hrest⟩ := ih h
    refine ⟨k + 1 + j, ?_, ?_⟩
    · rw [List.length_drop] at hj
      rw [List.length_cons] at hk ⊢
      omega
    · rw [hrest, hsent, List.append_assoc, List.take_add, List.drop_succ_cons]
  | case5 fuel b d s e' t hw _ ih =>
    obtain ⟨j, hj, hrest⟩ := ih h
    exact ⟨j, hj, by rw [hrest, sent_of_write_eq_error hw]⟩
  | case6 fuel b d s e' t hw _ =>
    refine ⟨0, Nat.succ_pos _, ?_⟩
    rw [sent_of_write_eq_error hw, List.take_zero, List.append_nil]

theorem sent_of_writeAll_eq_ok {data : List UInt8} {s t : Stream}
    (h : writeAll data s = (.ok (), t)) : t.sent = s.sent ++ data := by
  obtain ⟨k, hk, hall⟩ := sent_writeAllFrom (data.length + s.turns.length) data s
  rw [writeAll] at h
  rw [h] at hk hall
  rw [hk, List.take_of_length_le (hall rfl)]

/-- The stream takes `n` bytes more, in any portions and with any interruptions. -/
structure Takes (n : Nat) (s : Stream) : Prop where
  turns : ∀ t ∈ s.turns, t = .failure .interrupted ∨ ∃ k, t = .takes (k + 1)
  room : ∀ r, s.room = some r → n ≤ r

theorem limited_of_takes {n k : Nat} {s : Stream} (h : s.Takes n) (hk : k ≤ n) :
    accepted.limited s.room k = k := by
  cases hr : s.room with
  | none => rfl
  | some r => exact Nat.min_eq_left (Nat.le_trans hk (h.room r hr))

theorem accepted_of_takes {n k : Nat} {s : Stream} (h : s.Takes n) (hpos : 0 < k) (hk : k ≤ n) :
    (accepted s.turns.head? s.room k = .error (scripted .interrupted) ∧ s.turns ≠ []) ∨
      ∃ j, accepted s.turns.head? s.room k = .ok (j + 1) := by
  have hlim : accepted.limited s.room k = k := limited_of_takes h hk
  cases ht : s.turns with
  | nil => exact .inr ⟨k - 1, by simp only [List.head?_nil, accepted, hlim, Nat.sub_add_cancel hpos]⟩
  | cons t r =>
    rcases h.turns t (ht ▸ List.mem_cons_self) with rfl | ⟨j, rfl⟩
    · exact .inl ⟨rfl, List.cons_ne_nil _ _⟩
    · refine .inr ⟨min (j + 1) k - 1, ?_⟩
      simp only [List.head?_cons, accepted, hlim, Except.ok.injEq]
      omega

theorem write_of_takes {data : List UInt8} {n : Nat} {s : Stream} (h : s.Takes n)
    (hpos : 0 < data.length) (hn : data.length ≤ n) :
    (∃ e t, write data s = (.error e, t) ∧ e.kind = .interrupted ∧ t.Takes n ∧
      t.turns.length < s.turns.length) ∨
    ∃ k t, write data s = (.ok (k + 1), t) ∧ t.Takes (n - (k + 1)) ∧
      t.turns.length ≤ s.turns.length := by
  have hroom : s.room ≠ some 0 := fun h0 => by
    have := h.room 0 h0
    omega
  have htail : ∀ t ∈ s.turns.tail, t = .failure .interrupted ∨ ∃ k, t = .takes (k + 1) :=
    fun t ht => h.turns t (List.mem_of_mem_tail ht)
  unfold write
  dsimp only
  rw [if_neg hroom]
  rcases accepted_of_takes h hpos hn with ⟨he, hne⟩ | ⟨k, hk⟩
  · rw [he]
    refine .inl ⟨_, _, rfl, rfl, ⟨htail, h.room⟩, ?_⟩
    have hlen : 0 < s.turns.length := List.length_pos_iff.2 hne
    simp only [List.length_tail]
    omega
  · rw [hk]
    refine .inr ⟨k, _, rfl, ⟨htail, fun r hr => ?_⟩, ?_⟩
    · obtain ⟨r', hr', rfl⟩ := Option.map_eq_some_iff.1 hr
      exact Nat.sub_le_sub_right (h.room r' hr') (k + 1)
    · simp only [List.length_tail]
      exact Nat.sub_le _ _

theorem writeAllFrom_of_takes {fuel n : Nat} {data : List UInt8} {s : Stream} (h : s.Takes n)
    (hn : data.length ≤ n) (hfuel : data.length + s.turns.length ≤ fuel) :
    (writeAllFrom fuel data s).1 = .ok () ∧
      (writeAllFrom fuel data s).2.Takes (n - data.length) := by
  -- The fuel lasts, as each write takes a byte or uses up a turn.
  induction fuel generalizing n data s with
  | zero =>
    have hd : data = [] := List.eq_nil_of_length_eq_zero (by omega)
    subst hd
    exact ⟨rfl, h⟩
  | succ fuel ih =>
    cases data with
    | nil => exact ⟨rfl, h⟩
    | cons b d =>
      have hpos : 0 < (b :: d).length := Nat.succ_pos d.length
      rcases write_of_takes h hpos hn with
        ⟨e, t, hw, hk, ht, hturns⟩ | ⟨k, t, hw, ht, hturns⟩
      · rw [writeAllFrom, hw]
        dsimp only
        rw [if_pos hk]
        exact ih ht hn (by omega)
      · have hle : k + 1 ≤ (b :: d).length := (sent_of_write_eq_ok hw).1
        have hlen : (d.drop k).length = (b :: d).length - (k + 1) := by
          rw [List.length_drop, List.length_cons]
          omega
        have hrest := @ih (n - (k + 1)) (d.drop k) t ht (by omega) (by omega)
        have hleft : n - (k + 1) - (d.drop k).length = n - (b :: d).length := by omega
        rw [hleft] at hrest
        rw [writeAllFrom, hw]
        exact hrest

theorem writeAll_of_takes {n : Nat} {data : List UInt8} {s : Stream}
    (h : s.Takes (data.length + n)) :
    ∃ t, writeAll data s = (.ok (), t) ∧ t.sent = s.sent ++ data ∧ t.Takes n := by
  obtain ⟨hok, ht⟩ := writeAllFrom_of_takes h (Nat.le_add_right _ n) (Nat.le_refl _)
  rw [Nat.add_sub_cancel_left] at ht
  have hw : writeAll data s = (.ok (), (writeAll data s).2) := Prod.ext hok rfl
  exact ⟨_, hw, sent_of_writeAll_eq_ok hw, ht⟩

theorem takes_ofBytes (bs : List UInt8) (n : Nat) : (ofBytes bs).Takes n :=
  ⟨fun _ ht => (List.not_mem_nil ht).elim, fun _ hr => (by cases hr)⟩

/-- The stream takes `n` bytes more and flushes without fail. -/
structure Conveys (n : Nat) (s : Stream) : Prop extends Takes n s where
  flushes : s.flushFailure = none

theorem flush_of_conveys {n : Nat} {s : Stream} (h : s.Conveys n) :
    s.flush = (.ok (), { s with flushes := s.flushes + 1 }) ∧
      ({ s with flushes := s.flushes + 1 } : Stream).Conveys n := by
  refine ⟨?_, ⟨h.turns, h.room⟩, h.flushes⟩
  rw [flush, h.flushes]
  rfl

theorem flushFailure_writeAll {data : List UInt8} {s t : Stream} {r : Except IoError Unit}
    (h : writeAll data s = (r, t)) : t.flushFailure = s.flushFailure := by
  have hflush := @view_writeAllFrom _ flushFailure (fun _ _ _ _ _ => rfl)
    (data.length + s.turns.length) data s
  rw [writeAll] at h
  rwa [h] at hflush

theorem writeAll_of_conveys {n : Nat} {data : List UInt8} {s : Stream}
    (h : s.Conveys (data.length + n)) :
    ∃ t, writeAll data s = (.ok (), t) ∧ t.sent = s.sent ++ data ∧ t.Conveys n := by
  obtain ⟨t, hw, hsent, ht⟩ := writeAll_of_takes h.toTakes
  exact ⟨t, hw, hsent, ht, (flushFailure_writeAll hw).trans h.flushes⟩

theorem conveys_ofBytes (bs : List UInt8) (n : Nat) : (ofBytes bs).Conveys n :=
  ⟨takes_ofBytes bs n, rfl⟩

end RemoteAgent.Stream
