import RemoteAgent.Proofs.Wire.Delivery

/-! What reading finds on a stream, whatever the stream is. A stream supplies bytes up to its end or to
the first failure that is no interruption; a reader gets what it asks for if there is as much, and
otherwise learns what came in the way. -/

namespace RemoteAgent

namespace Stream

def supplied : List Piece → List UInt8
  | [] => []
  | .bytes d :: r => d ++ supplied r
  | .failure k :: r => if k = .interrupted then supplied r else []

def breach? : List Piece → Option IoError.Kind
  | [] => none
  | .bytes _ :: r => breach? r
  | .failure k :: r => if k = .interrupted then breach? r else some k

def supply (s : Stream) : List UInt8 := supplied s.incoming

def breach (s : Stream) : Option IoError.Kind := breach? s.incoming

def lack (s : Stream) : IoError :=
  match s.breach with
  | none => .unexpectedEnd
  | some k => scripted k

theorem supplied_of_holds {ps : List Piece} {bs : List UInt8} (h : Holds ps bs) :
    supplied ps = bs ∧ breach? ps = none := by
  induction h with
  | ended => exact ⟨rfl, rfl⟩
  | interrupted _ ih => exact ih
  | bytes d _ ih => exact ⟨congrArg (d ++ ·) ih.1, ih.2⟩

theorem holds_supplied {ps : List Piece} (h : breach? ps = none) : Holds ps (supplied ps) := by
  induction ps with
  | nil => exact .ended
  | cons p ps ih =>
    cases p with
    | bytes d => exact .bytes d (ih h)
    | failure k =>
      rw [breach?] at h
      by_cases hk : k = .interrupted
      · rw [if_pos hk] at h
        rw [supplied, if_pos hk, hk]
        exact .interrupted (ih h)
      · rw [if_neg hk] at h
        cases h

theorem delivers_iff_supply {s : Stream} {bs : List UInt8} :
    s.Delivers bs ↔ s.supply = bs ∧ s.breach = none :=
  ⟨supplied_of_holds, fun h => h.1 ▸ holds_supplied h.2⟩

theorem Delivers.lack {s : Stream} {bs : List UInt8} (h : s.Delivers bs) : s.lack = .unexpectedEnd := by
  rw [Stream.lack, (delivers_iff_supply.1 h).2]

theorem supplied_of_readPieces_eq_ok {n : Nat} (hn : 0 < n) {ps r : List Piece} {d : List UInt8}
    (h : readPieces n ps = (.ok d, r)) :
    supplied ps = d ++ supplied r ∧ breach? ps = breach? r ∧ d.length ≤ n ∧ (d = [] → r = []) := by
  fun_induction readPieces n ps with
  | case1 =>
    cases h
    exact ⟨rfl, rfl, Nat.zero_le n, fun _ => rfl⟩
  | case2 k ps => cases h
  | case3 ps ih => exact ih h
  | case4 b d ps =>
    cases h
    refine ⟨?_, rfl, List.length_take_le n _, fun hnil => ?_⟩
    · rw [supplied, supplied, ← List.append_assoc, List.take_append_drop]
    · rcases List.take_eq_nil_iff.1 hnil with hzero | hcons
      · omega
      · cases hcons

theorem supplied_of_readPieces_eq_error {n : Nat} {ps r : List Piece} {e : IoError}
    (h : readPieces n ps = (.error e, r)) :
    (e.kind = .interrupted → supplied ps = supplied r ∧ breach? ps = breach? r) ∧
      (e.kind ≠ .interrupted → supplied ps = [] ∧ breach? ps = some e.kind ∧ e = scripted e.kind) := by
  fun_induction readPieces n ps with
  | case1 => cases h
  | case2 k ps =>
    cases h
    constructor
    · intro hk
      have hk : k = .interrupted := hk
      rw [supplied, breach?, if_pos hk, if_pos hk]
      exact ⟨rfl, rfl⟩
    · intro hk
      have hk : k ≠ .interrupted := hk
      rw [supplied, breach?, if_neg hk, if_neg hk]
      exact ⟨rfl, rfl, rfl⟩
  | case3 ps ih => exact ih h
  | case4 b d ps => cases h

/-- How drawing `n` bytes ends where these bytes are supplied and this is the breach behind them. -/
inductive Drawn (n : Nat) (bs : List UInt8) (b : Option IoError.Kind) :
    Except IoError (List UInt8) × List Piece → Prop
  | enough {r : List Piece} (hn : n ≤ bs.length) (hr : supplied r = bs.drop n) (hb : breach? r = b) :
    Drawn n bs b (.ok (bs.take n), r)
  | ended (hn : bs.length < n) (hb : b = none) : Drawn n bs b (.ok bs, [])
  | failed {k : IoError.Kind} {r : List Piece} (hn : bs.length < n) (hb : b = some k) :
    Drawn n bs b (.error (scripted k), r)

section Drawn

variable {n : Nat} {d bs : List UInt8} {b : Option IoError.Kind} {r : List Piece}

theorem Drawn.prepend {more : List UInt8} (hle : d.length ≤ n)
    (h : Drawn (n - d.length) bs b (.ok more, r)) : Drawn n (d ++ bs) b (.ok (d ++ more), r) := by
  have hlength : (d ++ bs).length = d.length + bs.length := List.length_append
  cases h with
  | enough hn hr hb =>
    have htake : d ++ bs.take (n - d.length) = (d ++ bs).take n := by
      rw [List.take_append, List.take_of_length_le hle]
    have hdrop : bs.drop (n - d.length) = (d ++ bs).drop n := by
      rw [List.drop_append, List.drop_of_length_le hle, List.nil_append]
    rw [htake]
    exact .enough (by omega) (hr.trans hdrop) hb
  | ended hn hb => exact .ended (by omega) hb

theorem Drawn.prepend_error {e : IoError} (hle : d.length ≤ n)
    (h : Drawn (n - d.length) bs b (.error e, r)) : Drawn n (d ++ bs) b (.error e, r) := by
  have hlength : (d ++ bs).length = d.length + bs.length := List.length_append
  cases h with
  | failed hn hb => exact .failed (by omega) hb

theorem drawn_drawPieces (chunk n : Nat) (ps : List Piece) :
    Drawn n (supplied ps) (breach? ps) (drawPieces chunk n ps) := by
  have hpos : ∀ {n}, ¬ n = 0 → 0 < portion chunk n := fun hn => portion_pos (Nat.pos_of_ne_zero hn)
  -- The recursion is that of `drawPieces`: one read, then the rest.
  fun_induction drawPieces chunk n ps with
  | case1 ps => exact .enough (Nat.zero_le _) rfl rfl
  | case2 n ps hn r hr =>
    obtain ⟨hfront, hb, -, hend⟩ := supplied_of_readPieces_eq_ok (hpos hn) hr
    cases hend rfl
    rw [hfront, hb]
    exact .ended (Nat.pos_of_ne_zero hn) rfl
  | case3 n ps hn b d r hr _ more r' hrec ih =>
    obtain ⟨hfront, hb, hle, -⟩ := supplied_of_readPieces_eq_ok (hpos hn) hr
    rw [hrec] at ih
    rw [hfront, hb]
    exact ih.prepend (Nat.le_trans hle (portion_le chunk n))
  | case4 n ps hn b d r hr _ e r' hrec ih =>
    obtain ⟨hfront, hb, hle, -⟩ := supplied_of_readPieces_eq_ok (hpos hn) hr
    rw [hrec] at ih
    rw [hfront, hb]
    exact ih.prepend_error (Nat.le_trans hle (portion_le chunk n))
  | case5 n ps hn e r hr _ hk ih =>
    obtain ⟨hfront, hb⟩ := (supplied_of_readPieces_eq_error hr).1 hk
    rw [hfront, hb]
    exact ih
  | case6 n ps hn e r hr _ hk =>
    obtain ⟨hfront, hb, he⟩ := (supplied_of_readPieces_eq_error hr).2 hk
    rw [he, hfront, hb]
    exact .failed (Nat.pos_of_ne_zero hn) rfl

end Drawn

end Stream

namespace Wire

open RemoteAgent.Action

variable {n : Nat} {s : Stream} {r : List Stream.Piece}

theorem upTo_of_drawPieces_eq_ok {d : List UInt8}
    (h : Stream.drawPieces s.chunk n s.incoming = (.ok d, r)) :
    upTo n s = ⟨.ok d, { s with incoming := r }, []⟩ := by
  have hdraw : Source.draw n s = (.ok d, { s with incoming := r }) := by
    change Stream.draw n s = _
    rw [Stream.draw, h]
  rw [upTo, hdraw]

theorem upTo_of_drawPieces_eq_error {e : IoError}
    (h : Stream.drawPieces s.chunk n s.incoming = (.error e, r)) :
    upTo n s = ⟨.error (.channelIo e), { s with incoming := r }, []⟩ := by
  have hdraw : Source.draw n s = (.error e, { s with incoming := r }) := by
    change Stream.draw n s = _
    rw [Stream.draw, h]
  rw [upTo, hdraw]

theorem exactly_of_le (h : n ≤ s.supply.length) :
    ∃ t, exactly n s = ⟨.ok (s.supply.take n), t, []⟩ ∧ t.supply = s.supply.drop n ∧
      t.breach = s.breach := by
  have hdrawn : Stream.Drawn n s.supply s.breach (Stream.drawPieces s.chunk n s.incoming) :=
    Stream.drawn_drawPieces s.chunk n s.incoming
  generalize ho : Stream.drawPieces s.chunk n s.incoming = o at hdrawn
  cases hdrawn with
  | @enough r hn hr hb =>
    refine ⟨{ s with incoming := r }, ?_, hr, hb⟩
    rw [exactly, bind_of_ok (upTo_of_drawPieces_eq_ok ho), List.length_take_of_le hn,
      if_neg (Nat.lt_irrefl n)]
    rfl
  | ended hn => exact (Nat.not_lt.2 h hn).elim
  | failed hn => exact (Nat.not_lt.2 h hn).elim

theorem exactly_of_lt (h : s.supply.length < n) :
    (exactly n s).result = .error (.channelIo s.lack) ∧
      (s.breach = none → (exactly n s).state.Delivers []) := by
  have hdrawn : Stream.Drawn n s.supply s.breach (Stream.drawPieces s.chunk n s.incoming) :=
    Stream.drawn_drawPieces s.chunk n s.incoming
  generalize ho : Stream.drawPieces s.chunk n s.incoming = o at hdrawn
  cases hdrawn with
  | enough hn => exact (Nat.not_lt.2 hn h).elim
  | ended hn hb =>
    have hlack : s.lack = .unexpectedEnd := by rw [Stream.lack, hb]
    rw [exactly, bind_of_ok (upTo_of_drawPieces_eq_ok ho), if_pos hn, hlack]
    exact ⟨rfl, fun _ => .ended⟩
  | @failed k r hn hb =>
    have hlack : s.lack = Stream.scripted k := by rw [Stream.lack, hb]
    rw [exactly, bind_of_error (upTo_of_drawPieces_eq_error ho), hlack]
    refine ⟨rfl, fun hnone => ?_⟩
    rw [hb] at hnone
    cases hnone

end Wire

end RemoteAgent
