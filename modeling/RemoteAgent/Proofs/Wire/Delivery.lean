import RemoteAgent.Proofs.Wire.Reading

/-! Streams that deliver bytes. Whatever the pieces are and wherever reads are interrupted, a
reader of fields does on such a stream what it does on the bytes. -/

namespace RemoteAgent

namespace Stream

/-- Pieces with these bytes in all, and no failure but interruptions. -/
inductive Holds : List Piece → List UInt8 → Prop
  | ended : Holds [] []
  | interrupted {ps : List Piece} {bs : List UInt8} (h : Holds ps bs) :
    Holds (.failure .interrupted :: ps) bs
  | bytes {ps : List Piece} {bs : List UInt8} (d : List UInt8) (h : Holds ps bs) :
    Holds (.bytes d :: ps) (d ++ bs)

theorem Holds.eq_flatMap {ps : List Piece} {bs : List UInt8} (h : Holds ps bs) :
    ps.flatMap Piece.toBytes = bs := by
  induction h with
  | ended => rfl
  | interrupted _ ih => exact ih
  | bytes d _ ih => exact congrArg (d ++ ·) ih

theorem holds_of_all {ps : List Piece}
    (h : ps.all (fun p => p = .failure .interrupted || p matches .bytes _) = true) :
    Holds ps (ps.flatMap Piece.toBytes) := by
  induction ps with
  | nil => exact .ended
  | cons p ps ih =>
    rw [List.all_cons, Bool.and_eq_true] at h
    cases p with
    | bytes d => exact .bytes d (ih h.2)
    | failure k =>
      have hk : k = .interrupted := by simpa using h.1
      exact hk ▸ .interrupted (ih h.2)

theorem Holds.all {ps : List Piece} {bs : List UInt8} (h : Holds ps bs) :
    ps.all (fun p => p = .failure .interrupted || p matches .bytes _) = true := by
  induction h with
  | ended => rfl
  | interrupted _ ih => simpa using ih
  | bytes d _ ih => simpa using ih

theorem Holds.append {ps qs : List Piece} {bs cs : List UInt8} (h : Holds ps bs)
    (h' : Holds qs cs) : Holds (ps ++ qs) (bs ++ cs) := by
  induction h with
  | ended => exact h'
  | interrupted _ ih => exact .interrupted ih
  | bytes d _ ih =>
    rw [List.append_assoc]
    exact .bytes d ih

/-- One read is interrupted and leaves the bytes, or takes some of them, none only at the end. -/
theorem readPieces_of_holds {n : Nat} (hn : 0 < n) {ps : List Piece} {bs : List UInt8}
    (h : Holds ps bs) :
    (∃ e r, readPieces n ps = (.error e, r) ∧ e.kind = .interrupted ∧ Holds r bs) ∨
      ∃ d back r, readPieces n ps = (.ok d, r) ∧ bs = d ++ back ∧ d.length ≤ n ∧
        (d = [] → back = []) ∧ Holds r back := by
  induction h with
  | ended => exact .inr ⟨[], [], [], rfl, rfl, Nat.zero_le n, fun _ => rfl, .ended⟩
  | @interrupted ps bs h _ => exact .inl ⟨scripted .interrupted, ps, rfl, rfl, h⟩
  | @bytes ps bs d h ih =>
    cases d with
    | nil => exact ih
    | cons b d =>
      refine .inr ⟨(b :: d).take n, (b :: d).drop n ++ bs, _, rfl, ?_, ?_, ?_, .bytes _ h⟩
      · rw [← List.append_assoc, List.take_append_drop]
      · exact List.length_take_le n _
      · intro hd
        rcases List.take_eq_nil_iff.1 hd with h0 | hnil
        · omega
        · cases hnil

theorem portion_le (chunk n : Nat) : portion chunk n ≤ n := by
  unfold portion
  split
  · exact Nat.le_refl n
  · exact Nat.min_le_right chunk n

theorem readPieces_eq_ok_of_holds {n : Nat} (hn : 0 < n) {ps r : List Piece} {bs d : List UInt8}
    (h : Holds ps bs) (hr : readPieces n ps = (.ok d, r)) :
    ∃ back, bs = d ++ back ∧ d.length ≤ n ∧ (d = [] → back = []) ∧ Holds r back := by
  rcases readPieces_of_holds hn h with ⟨e, r', he, _⟩ | ⟨d', back, r', hd, hcut, hrest⟩
  · rw [hr] at he
    cases he
  · rw [hr] at hd
    cases hd
    exact ⟨back, hcut, hrest⟩

theorem readPieces_eq_error_of_holds {n : Nat} (hn : 0 < n) {ps r : List Piece} {bs : List UInt8}
    {e : IoError} (h : Holds ps bs) (hr : readPieces n ps = (.error e, r)) :
    e.kind = .interrupted ∧ Holds r bs := by
  rcases readPieces_of_holds hn h with ⟨e', r', he, hk, hrest⟩ | ⟨d, back, r', hd, _⟩
  · rw [hr] at he
    cases he
    exact ⟨hk, hrest⟩
  · rw [hr] at hd
    cases hd

theorem drawPieces_of_holds {chunk n : Nat} {ps : List Piece} {bs : List UInt8}
    (h : Holds ps bs) :
    ∃ r, drawPieces chunk n ps = (.ok (bs.take n), r) ∧ Holds r (bs.drop n) := by
  have hpos : ∀ {n}, ¬ n = 0 → 0 < portion chunk n := fun hn => portion_pos (Nat.pos_of_ne_zero hn)
  -- The recursion is that of `drawPieces`: each case reads once, then goes on with the rest.
  fun_induction drawPieces chunk n ps generalizing bs with
  | case1 ps => exact ⟨ps, rfl, h⟩
  | case2 n ps hn r hr =>
    obtain ⟨back, rfl, _, hend, hback⟩ := readPieces_eq_ok_of_holds (hpos hn) h hr
    cases hend rfl
    exact ⟨r, by rw [List.take_nil], by rwa [List.drop_nil]⟩
  | case3 n ps hn b d r hr _ more r' hrec ih =>
    obtain ⟨back, rfl, hlen, _, hback⟩ := readPieces_eq_ok_of_holds (hpos hn) h hr
    have hle : (b :: d).length ≤ n := Nat.le_trans hlen (portion_le chunk n)
    obtain ⟨r'', heq, hrest⟩ := ih hback
    rw [hrec] at heq
    cases heq
    refine ⟨r', ?_, ?_⟩
    · rw [List.take_append, List.take_of_length_le hle]
    · rwa [List.drop_append, List.drop_of_length_le hle, List.nil_append]
  | case4 n ps hn b d r hr _ e r' hrec ih =>
    obtain ⟨back, rfl, _, _, hback⟩ := readPieces_eq_ok_of_holds (hpos hn) h hr
    obtain ⟨r'', heq, _⟩ := ih hback
    rw [hrec] at heq
    cases heq
  | case5 n ps hn e r hr _ _ ih => exact ih (readPieces_eq_error_of_holds (hpos hn) h hr).2
  | case6 n ps hn e r hr _ hk => exact (hk (readPieces_eq_error_of_holds (hpos hn) h hr).1).elim

/-- The stream still delivers these bytes. -/
def Delivers (s : Stream) (bs : List UInt8) : Prop := Holds s.incoming bs

theorem delivers_iff {s : Stream} {bs : List UInt8} :
    s.Delivers bs ↔ s.steady = true ∧ s.unread = bs :=
  ⟨fun h => ⟨h.all, h.eq_flatMap⟩, fun h => h.2 ▸ holds_of_all h.1⟩

theorem delivers_ofBytes (bs : List UInt8) : (ofBytes bs).Delivers bs :=
  delivers_iff.2 ⟨rfl, List.append_nil bs⟩

theorem Delivers.feed {s : Stream} {bs : List UInt8} (h : s.Delivers bs) (data : List UInt8) :
    (s.feed [.bytes data]).Delivers (bs ++ data) := by
  have hdata : Holds [.bytes data] (data ++ []) := .bytes data .ended
  rw [List.append_nil] at hdata
  exact Holds.append h hdata

theorem draw_of_delivers {s : Stream} {bs : List UInt8} (h : s.Delivers bs) (n : Nat) :
    (s.draw n).1 = .ok (bs.take n) ∧ (s.draw n).2.Delivers (bs.drop n) := by
  obtain ⟨r, hr, hrest⟩ := @drawPieces_of_holds s.chunk n s.incoming bs h
  unfold draw
  rw [hr]
  exact ⟨rfl, hrest⟩

end Stream

namespace Action

variable {σ τ α β : Type} {R : σ → τ → Prop}

def Agrees (R : σ → τ → Prop) (act : Action σ α) (act' : Action τ α) : Prop :=
  ∀ s t, R s t → (act s).result = (act' t).result ∧ (act s).events = (act' t).events ∧
    R (act s).state (act' t).state

theorem agrees_pure (a : α) : Agrees R (pure a) (pure a) := fun _ _ h => ⟨rfl, rfl, h⟩

theorem agrees_fail (e : Error) : Agrees R (fail e : Action σ α) (fail e) :=
  fun _ _ h => ⟨rfl, rfl, h⟩

theorem Agrees.bind {act : Action σ α} {act' : Action τ α} {next : α → Action σ β}
    {next' : α → Action τ β} (h : Agrees R act act') (hn : ∀ a, Agrees R (next a) (next' a)) :
    Agrees R (act >>= next) (act' >>= next') := by
  intro s t hR
  obtain ⟨hr, he, hs⟩ := h s t hR
  cases ha : act s with
  | mk r s' es =>
    cases ha' : act' t with
    | mk r' t' es' =>
      rw [ha, ha'] at hr he hs
      dsimp only at hr he hs
      subst hr he
      cases r with
      | error e =>
        rw [bind_of_error ha, bind_of_error ha']
        exact ⟨rfl, rfl, hs⟩
      | ok a =>
        rw [bind_of_ok ha, bind_of_ok ha']
        obtain ⟨hr, he, hs⟩ := hn a s' t' hs
        exact ⟨hr, congrArg (es ++ ·) he, hs⟩

end Action

namespace Wire

open RemoteAgent.Action RemoteAgent.Stream

theorem Reads.of_delivers {α : Type} {act : Action Stream α} {act' : Action (List UInt8) α}
    {spells : α → List UInt8 → Prop} (h : Reads act' spells) (ha : Agrees Delivers act act')
    {s : Stream} {a : α} {front rest : List UInt8} (hs : s.Delivers (front ++ rest))
    (hf : spells a front) : ∃ t, act s = ⟨.ok a, t, []⟩ ∧ t.Delivers rest := by
  obtain ⟨hr, he, ht⟩ := ha s (front ++ rest) hs
  rw [h.complete a front rest hf] at hr he ht
  cases hact : act s with
  | mk r t es =>
    rw [hact] at hr he ht
    dsimp only at hr he ht
    subst hr he
    exact ⟨t, rfl, ht⟩

theorem agrees_upTo (n : Nat) : Agrees Delivers (upTo n) (upTo n) := by
  intro s bs h
  obtain ⟨hr, hrest⟩ := draw_of_delivers h n
  simp only [upTo, Source.draw]
  cases hd : s.draw n with
  | mk r t =>
    rw [hd] at hr hrest
    dsimp only at hr hrest
    subst hr
    exact ⟨rfl, rfl, hrest⟩

theorem agrees_counted (n : Nat) (short : List UInt8 → Error) :
    Agrees Delivers
      (do
        let bs ← upTo n
        if bs.length < n then Action.fail (short bs) else pure bs)
      (do
        let bs ← upTo n
        if bs.length < n then Action.fail (short bs) else pure bs) := by
  refine (agrees_upTo n).bind fun bs => ?_
  split
  · exact agrees_fail _
  · exact agrees_pure _

theorem agrees_exactly (n : Nat) : Agrees Delivers (exactly n) (exactly n) := agrees_counted n _

theorem agrees_readNat (width : Nat) : Agrees Delivers (readNat width) (readNat width) :=
  (agrees_exactly width).bind fun _ => agrees_pure _

theorem agrees_readPointer : Agrees Delivers readPointer readPointer :=
  (agrees_readNat 8).bind fun _ => agrees_pure _

theorem agrees_readBlob : Agrees Delivers readBlob readBlob :=
  (agrees_readNat 4).bind fun n => agrees_counted n _

theorem agrees_readText : Agrees Delivers readText readText := by
  refine agrees_readBlob.bind fun bs => ?_
  split
  · exact agrees_pure _
  · exact agrees_fail _

theorem agrees_readPointerList (n : Nat) :
    Agrees Delivers (readPointerList n) (readPointerList n) := by
  induction n with
  | zero => exact agrees_pure _
  | succ n ih => exact agrees_readPointer.bind fun a => ih.bind fun r => agrees_pure _

theorem agrees_read (t : FieldType) : Agrees Delivers (read t) (read t) := by
  cases t with
  | bool => exact (agrees_exactly 1).bind fun _ => agrees_pure _
  | u32 | i32 => exact (agrees_readNat 4).bind fun _ => agrees_pure _
  | u64 | pointer => exact agrees_readPointer
  | length => exact agrees_readNat 4
  | bytes => exact agrees_readBlob
  | text => exact agrees_readText
  | pointers => exact (agrees_readNat 4).bind agrees_readPointerList

theorem agrees_readRow (ts : List FieldType) : Agrees Delivers (readRow ts) (readRow ts) := by
  induction ts with
  | nil => exact agrees_pure _
  | cons t r ih => exact (agrees_read t).bind fun _ => ih.bind fun _ => agrees_pure _

end Wire

end RemoteAgent
