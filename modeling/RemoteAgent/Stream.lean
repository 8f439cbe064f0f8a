import RemoteAgent.Error

/-! Byte streams: what their far end still sends, in pieces and with failures in between, and what
they take. Reading and writing whole buffers does not show the pieces. -/

namespace RemoteAgent

inductive Stream.Piece where
  | bytes (data : List UInt8)
  | failure (kind : IoError.Kind)
  deriving DecidableEq, Repr

inductive Stream.Turn where
  | takes (most : Nat)
  | failure (kind : IoError.Kind)
  deriving DecidableEq, Repr

/-- What comes in is read in pieces, at most `chunk` bytes at once unless that is 0; what goes out is
taken as `turns` says, as long as there is `room`. -/
structure Stream where
  incoming : List Stream.Piece
  chunk : Nat := 0
  turns : List Stream.Turn := []
  room : Option Nat := none
  flushFailure : Option IoError.Kind := none
  sent : List UInt8 := []
  writes : Nat := 0
  flushes : Nat := 0
  deriving DecidableEq, Repr

namespace Stream

def ofBytes (data : List UInt8) : Stream := { incoming := [.bytes data] }

def scripted (kind : IoError.Kind) : IoError := ⟨kind, "scripted " ++ kind.name⟩

def Piece.toBytes : Piece → List UInt8
  | .bytes d => d
  | .failure _ => []

def unread (s : Stream) : List UInt8 := s.incoming.flatMap Piece.toBytes

def steady (s : Stream) : Bool :=
  s.incoming.all fun p => p = .failure .interrupted || p matches .bytes _

/-- One read of at most `n` bytes from the pieces: the bytes, or a failure. None at all means that
the stream has ended. -/
def readPieces (n : Nat) : List Piece → Except IoError (List UInt8) × List Piece
  | [] => (.ok [], [])
  | .failure k :: r => (.error (scripted k), r)
  | .bytes [] :: r => readPieces n r
  | .bytes (b :: d) :: r => (.ok ((b :: d).take n), .bytes ((b :: d).drop n) :: r)

def weight : List Piece → Nat
  | [] => 0
  | p :: r => p.toBytes.length + 1 + weight r

theorem weight_readPieces_lt {n : Nat} (hn : 0 < n) {ps : List Piece}
    (h : (readPieces n ps).1 ≠ .ok []) : weight (readPieces n ps).2 < weight ps := by
  fun_induction readPieces n ps with
  | case1 => simp at h
  | case2 k r => simp [weight, Piece.toBytes]
  | case3 r ih => exact Nat.lt_of_lt_of_le (ih h) (by simp [weight])
  | case4 b d r => simp [weight, Piece.toBytes]; omega

def portion (chunk n : Nat) : Nat := if chunk = 0 then n else min chunk n

theorem portion_pos {chunk n : Nat} (hn : 0 < n) : 0 < portion chunk n := by
  unfold portion; split <;> omega

def drawPieces (chunk n : Nat) (ps : List Piece) : Except IoError (List UInt8) × List Piece :=
  if hn : n = 0 then (.ok [], ps)
  else
    match h : readPieces (portion chunk n) ps with
    | (.ok [], r) => (.ok [], r)
    | (.ok (b :: d), r) =>
      have : weight r < weight ps := by
        have hp : 0 < portion chunk n := portion_pos (by omega)
        have := @weight_readPieces_lt _ hp ps
        simp_all
      match drawPieces chunk (n - (b :: d).length) r with
      | (.ok more, r') => (.ok (b :: d ++ more), r')
      | (.error e, r') => (.error e, r')
    | (.error e, r) =>
      have : weight r < weight ps := by
        have hp : 0 < portion chunk n := portion_pos (by omega)
        have := @weight_readPieces_lt _ hp ps
        simp_all
      if e.kind = .interrupted then drawPieces chunk n r else (.error e, r)
  termination_by weight ps

theorem weight_readPieces_bytes {n : Nat} {ps : List Piece} {d : List UInt8}
    (h : (readPieces n ps).1 = .ok d) : weight (readPieces n ps).2 + d.length ≤ weight ps := by
  fun_induction readPieces n ps with
  | case1 => simp_all [weight]
  | case2 k r => simp at h
  | case3 r ih => exact Nat.le_trans (ih h) (by simp [weight])
  | case4 b e r =>
    simp only [Except.ok.injEq] at h
    subst h
    simp only [weight, Piece.toBytes, List.length_drop, List.length_take]
    omega

theorem weight_drawPieces {chunk n : Nat} {ps : List Piece} {d : List UInt8}
    (h : (drawPieces chunk n ps).1 = .ok d) :
    weight (drawPieces chunk n ps).2 + d.length ≤ weight ps := by
  fun_induction drawPieces chunk n ps generalizing d with
  | case1 => simp_all
  | case2 n ps hn r hr =>
    have := @weight_readPieces_bytes (portion chunk n) ps [] (by rw [hr])
    simp_all
  | case3 n ps hn b e r hr hlt more r' hrec ih =>
    have hfirst := @weight_readPieces_bytes (portion chunk n) ps (b :: e) (by rw [hr])
    have hrest := @ih more (by rw [hrec])
    simp only [Except.ok.injEq] at h
    subst h
    simp only [hrec, hr, List.length_append] at hfirst hrest ⊢
    omega
  | case4 => simp_all
  | case5 n ps hn e r hr hlt hk ih => exact Nat.le_trans (ih h) (Nat.le_of_lt hlt)
  | case6 => simp_all

def draw (n : Nat) (s : Stream) : Except IoError (List UInt8) × Stream :=
  let (result, rest) := drawPieces s.chunk n s.incoming
  (result, { s with incoming := rest })

def accepted (turn : Option Turn) (room : Option Nat) (n : Nat) : Except IoError Nat :=
  match turn with
  | some (.failure k) => .error (scripted k)
  | some (.takes most) => .ok (min most (limited room n))
  | none => .ok (limited room n)
where
  limited (room : Option Nat) (n : Nat) : Nat := (room.map (min n)).getD n

def full : IoError := ⟨.brokenPipe, "write limit reached"⟩

def write (data : List UInt8) (s : Stream) : Except IoError Nat × Stream :=
  let counted := { s with writes := s.writes + 1, turns := s.turns.tail }
  if s.room = some 0 then (.error full, counted)
  else
    match accepted s.turns.head? s.room data.length with
    | .error e => (.error e, counted)
    | .ok k =>
      (.ok k, { counted with sent := s.sent ++ data.take k, room := s.room.map (· - k) })

/-- Writes until all is taken. An interrupted write is tried again; any other failure, and a write
that takes nothing, ends the writing. The fuel counts bytes and turns. -/
def writeAllFrom : Nat → List UInt8 → Stream → Except IoError Unit × Stream
  | _, [], s => (.ok (), s)
  | 0, _ :: _, s => (.error .writeZero, s)
  | fuel + 1, b :: d, s =>
    match write (b :: d) s with
    | (.ok 0, s') => (.error .writeZero, s')
    | (.ok (k + 1), s') => writeAllFrom fuel (d.drop k) s'
    | (.error e, s') => if e.kind = .interrupted then writeAllFrom fuel (b :: d) s' else (.error e, s')

def writeAll (data : List UInt8) (s : Stream) : Except IoError Unit × Stream :=
  writeAllFrom (data.length + s.turns.length) data s

section View

variable {β : Type} {view : Stream → β}

theorem view_of_write (hview : ∀ (s : Stream) writes turns room sent,
      view { s with writes, turns, room, sent } = view s)
    {data : List UInt8} {s t : Stream} {r : Except IoError Nat} (h : write data s = (r, t)) :
    view t = view s := by
  unfold write at h
  dsimp only at h
  split at h
  · cases h
    exact hview ..
  · split at h
    · cases h
      exact hview ..
    · cases h
      exact hview ..

theorem view_writeAllFrom (hview : ∀ (s : Stream) writes turns room sent,
      view { s with writes, turns, room, sent } = view s)
    (fuel : Nat) (data : List UInt8) (s : Stream) :
    view (writeAllFrom fuel data s).2 = view s := by
  fun_induction writeAllFrom fuel data s with
  | case1 => rfl
  | case2 => rfl
  | case3 _ _ _ _ _ h => exact view_of_write hview h
  | case4 _ _ _ _ _ _ h ih => exact ih.trans (view_of_write hview h)
  | case5 _ _ _ _ _ _ h _ ih => exact ih.trans (view_of_write hview h)
  | case6 _ _ _ _ _ _ h _ => exact view_of_write hview h

end View

theorem incoming_writeAll (data : List UInt8) (s : Stream) :
    (writeAll data s).2.incoming = s.incoming :=
  @view_writeAllFrom _ incoming (fun _ _ _ _ _ => rfl) _ _ _

def flush (s : Stream) : Except IoError Unit × Stream :=
  ((s.flushFailure.map fun k => Except.error (scripted k)).getD (.ok ()),
    { s with flushes := s.flushes + 1 })

def feed (pieces : List Piece) (s : Stream) : Stream := { s with incoming := s.incoming ++ pieces }

end Stream

end RemoteAgent
