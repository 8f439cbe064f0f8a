import RemoteAgent.Proofs.Action.Endings
import RemoteAgent.Proofs.Wire.Delivery
import RemoteAgent.Proofs.Wire.Intake
import RemoteAgent.Proofs.Wire.Writing

/-! Rows of fields from one stream to another. What the writers put on a stream, a part at a time, are
the bytes of the row, and the readers take exactly these off a stream that goes on behind them. -/

namespace RemoteAgent.Wire

open RemoteAgent.Action

inductive Gives (bs : List UInt8) (s : Stream) : Except Error Unit → Stream → Prop
  | whole {t : Stream} (hsent : t.sent = s.sent ++ bs) : Gives bs s (.ok ()) t
  | torn {k : Nat} {e : Error} {t : Stream} (hk : k < bs.length)
    (hsent : t.sent = s.sent ++ bs.take k) : Gives bs s (.error e) t

section Gives

variable {front back bs : List UInt8} {s t u : Stream} {r : Except Error Unit} {e : Error}

theorem Gives.sent_of_ok (h : Gives bs s (.ok ()) t) : t.sent = s.sent ++ bs := by
  cases h with
  | whole hsent => exact hsent

theorem Gives.append (h : t.sent = s.sent ++ front) (hn : Gives back t r u) :
    Gives (front ++ back) s r u := by
  cases hn with
  | whole hsent => exact .whole (by rw [hsent, h, List.append_assoc])
  | @torn k _ _ hk hsent =>
    have hlt : front.length + k < (front ++ back).length := by
      rw [List.length_append]
      omega
    refine .torn hlt ?_
    rw [hsent, h, List.append_assoc, List.take_length_add_append]

theorem Gives.append_error (h : Gives front s (.error e) t) : Gives (front ++ back) s (.error e) t := by
  cases h with
  | @torn k _ _ hk hsent =>
    have hlt : k < (front ++ back).length := by
      rw [List.length_append]
      omega
    exact .torn hlt (by rw [hsent, List.take_append_of_le_length (Nat.le_of_lt hk)])

theorem Gives.exists_part (h : Gives bs s r t) :
    ∃ part, part <+: bs ∧ t.sent = s.sent ++ part ∧ (r = .ok () ↔ part = bs) := by
  cases h with
  | whole hsent => exact ⟨bs, List.prefix_rfl, hsent, fun _ => rfl, fun _ => rfl⟩
  | @torn k _ _ hk hsent =>
    have hne : bs.take k ≠ bs := by
      intro heq
      have hlength := congrArg List.length heq
      rw [List.length_take] at hlength
      omega
    exact ⟨bs.take k, List.take_prefix k bs, hsent, fun he => (by cases he), fun heq => (hne heq).elim⟩

end Gives

/-- A writer of these bytes, which succeeds on a stream that takes them. -/
structure Writes (act : Action Stream Unit) (bs : List UInt8) : Prop where
  gives : ∀ s : Stream, Gives bs s (act s).result (act s).state
  succeeds : ∀ (s : Stream) (n : Nat), s.Takes (bs.length + n) →
    (act s).result = .ok () ∧ (act s).state.Takes n

theorem writes_nothing : Writes (pure ()) [] where
  gives s := .whole (List.append_nil _).symm
  succeeds s n hs := ⟨rfl, by rwa [List.length_nil, Nat.zero_add] at hs⟩

theorem Writes.andThen {act next : Action Stream Unit} {front back : List UInt8}
    (h : Writes act front) (hn : Writes next back) : Writes (act >>= fun _ => next) (front ++ back) where
  gives s := by
    have hfront : Gives front s (act s).result (act s).state := h.gives s
    -- Where the first one fails, the stream is short of its bytes, and so of both.
    cases hr : (act s).result with
    | ok _ =>
      obtain ⟨hresult, hstate⟩ := @bind_of_result _ _ _ act (fun _ => next) s () hr
      rw [hr] at hfront
      rw [hresult, hstate]
      exact (hn.gives (act s).state).append hfront.sent_of_ok
    | error e =>
      obtain ⟨hresult, hstate⟩ := @bind_of_failure _ _ _ act (fun _ => next) s e hr
      rw [hr] at hfront
      rw [hresult, hstate]
      exact hfront.append_error
  succeeds s n hs := by
    rw [List.length_append, Nat.add_assoc] at hs
    obtain ⟨hr, hs'⟩ := h.succeeds s (back.length + n) hs
    obtain ⟨hresult, hstate⟩ := @bind_of_result _ _ _ act (fun _ => next) s () hr
    rw [hresult, hstate]
    exact hn.succeeds (act s).state n hs'

theorem put_of_writeAll {bs : List UInt8} {s t : Stream} {r : Except IoError Unit}
    (h : s.writeAll bs = (r, t)) : put bs s = ⟨r.mapError .channelIo, t, []⟩ := by
  rw [put, h]
  cases r <;> rfl

theorem writes_put (bs : List UInt8) : Writes (put bs) bs where
  gives s := by
    cases hw : s.writeAll bs with
    | mk r t =>
      rw [put_of_writeAll hw]
      cases r with
      | ok _ => exact .whole (Stream.sent_of_writeAll_eq_ok hw)
      | error e =>
        rw [Stream.writeAll] at hw
        obtain ⟨k, hk, hsent⟩ := Stream.sent_of_writeAllFrom_eq_error (congrArg Prod.fst hw)
        rw [hw] at hsent
        exact .torn hk hsent
  succeeds s n hs := by
    obtain ⟨t, hw, -, ht⟩ := Stream.writeAll_of_takes hs
    rw [put_of_writeAll hw]
    exact ⟨rfl, ht⟩

theorem writes_length {n : Nat} {bs : List UInt8} (h : encodeLength n = .ok bs) :
    Writes (writeLength n) bs := by
  rw [writeLength, h, ofExcept_ok, pure_bind]
  exact writes_put bs

theorem writes_blob {v bs : List UInt8} (h : encodeBlob v = .ok bs) : Writes (writeBlob v) bs := by
  obtain ⟨front, hfront, rfl⟩ := counted_eq_ok_iff.1 h
  exact (writes_length hfront).andThen (writes_put v)

theorem writes_forEach {α : Type} {step : α → Action Stream Unit} {spell : α → List UInt8}
    (h : ∀ a, Writes (step a) (spell a)) (as : List α) :
    Writes (forEach as step) (as.flatMap spell) := by
  induction as with
  | nil => exact writes_nothing
  | cons a as ih => exact (h a).andThen ih

theorem writes_pointers {as : List UInt64} {bs : List UInt8} (h : encodePointers as = .ok bs) :
    Writes (writePointers as) bs := by
  obtain ⟨front, hfront, rfl⟩ := counted_eq_ok_iff.1 h
  exact (writes_length hfront).andThen (writes_forEach (fun a => writes_put (encodePointer a)) as)

theorem writes_field {t : FieldType} {v : t.Value} {bs : List UInt8} (h : encode t v = .ok bs) :
    Writes (write t v) bs := by
  cases t with
  | bool | u32 | i32 | u64 | pointer =>
    cases h
    exact writes_put _
  | length => exact writes_length h
  | bytes | text => exact writes_blob h
  | pointers => exact writes_pointers h

theorem writes_row {ts : List FieldType} {vs : Row ts} {bs : List UInt8}
    (h : encodeRow ts vs = .ok bs) : Writes (writeRow ts vs) bs := by
  induction ts generalizing bs with
  | nil =>
    cases h
    exact writes_nothing
  | cons t r ih =>
    obtain ⟨v, vs⟩ := vs
    obtain ⟨front, back, rfl, hfront, hback⟩ := encodeRow_cons_eq_ok_iff.1 h
    exact (writes_field hfront).andThen (ih hback)

/-- A row whose counts have 32 bits has bytes that its writers put on every stream that takes them, in
whatever portions; a stream on which they fail has a front part of them. In these bytes the readers of
the same fields find the same values, whatever follows and however a stream delivers it, and what
follows is left. -/
theorem readRow_of_writeRow {ts : List FieldType} {vs : Row ts}
    (hfit : ∀ n ∈ Row.counts ts vs, n < 2 ^ 32) :
    ∃ bs, encodeRow ts vs = .ok bs ∧
      (∀ sink : Stream, sink.Takes bs.length → (writeRow ts vs sink).result = .ok ()) ∧
      (∀ sink : Stream, ∃ part, part <+: bs ∧
        (writeRow ts vs sink).state.sent = sink.sent ++ part ∧
        ((writeRow ts vs sink).result = .ok () ↔ part = bs)) ∧
      (∀ rest, readRow ts (bs ++ rest) = ⟨.ok vs, rest, []⟩) ∧
      ∀ (source : Stream) (rest : List UInt8), source.steady = true →
        source.unread = bs ++ rest → (readRow ts source).result = .ok vs ∧
          (readRow ts source).state.steady = true ∧ (readRow ts source).state.unread = rest := by
  obtain ⟨bs, hbs⟩ := (writtenIfFits_encodeRow ts vs).exists_of_fits hfit
  have hwrites : Writes (writeRow ts vs) bs := writes_row hbs
  have hspells : SpellsRow ts vs bs := spellsRow_of_encodeRow hbs
  refine ⟨bs, hbs, fun sink hsink => (hwrites.succeeds sink 0 hsink).1,
    fun sink => (hwrites.gives sink).exists_part,
    fun rest => (reads_row ts).complete vs bs rest hspells, fun source rest hsteady hunread => ?_⟩
  obtain ⟨t, hread, ht⟩ := (reads_row ts).of_delivers (agrees_readRow ts)
    (Stream.delivers_iff.2 ⟨hsteady, hunread⟩) hspells
  rw [hread]
  exact ⟨rfl, Stream.delivers_iff.1 ht⟩

theorem readRow_of_writeRow_in_pieces :
    let ts : List FieldType := [.bool, .text, .i32, .pointers, .u32, .bytes, .length, .u64, .pointer]
    let vs : Row ts := (true, "é", (-2 : Int32), [(258 : UInt64), 7], (9 : UInt32),
      ([] : List UInt8), (65536 : Nat), (1 : UInt64), (515 : UInt64), ())
    let bs : List UInt8 := [1, 2, 0, 0, 0, 0xc3, 0xa9, 0xfe, 0xff, 0xff, 0xff, 2, 0, 0, 0,
      2, 1, 0, 0, 0, 0, 0, 0, 7, 0, 0, 0, 0, 0, 0, 0, 9, 0, 0, 0, 0, 0, 0, 0, 0, 0, 1, 0,
      1, 0, 0, 0, 0, 0, 0, 0, 3, 2, 0, 0, 0, 0, 0, 0]
    let sink : Stream := { incoming := [], room := some 60, turns := [.takes 2, .takes 3,
      .failure .interrupted, .takes 1, .takes 9, .takes 2, .failure .interrupted] }
    let source : Stream := { chunk := 7, incoming := [.bytes [1, 2, 0], .failure .interrupted,
      .bytes [0, 0, 0xc3], .failure .interrupted, .bytes (bs.drop 6 ++ [4]), .bytes [], .bytes [5]] }
    (∀ n ∈ Row.counts ts vs, n < 2 ^ 32) ∧ sink.Takes bs.length ∧
      (writeRow ts vs sink).result = .ok () ∧ (writeRow ts vs sink).state.sent = bs ∧
      (readRow ts source).result = .ok vs ∧ (readRow ts source).state.unread = [4, 5] := by
  intro ts vs bs sink source
  have hfit : ∀ n ∈ Row.counts ts vs, n < 2 ^ 32 := by decide
  have hsink : sink.Takes bs.length := by
    refine ⟨fun t ht => ?_, fun r hr => ?_⟩
    · simp only [sink, List.mem_cons, List.not_mem_nil, or_false] at ht
      rcases ht with rfl | rfl | rfl | rfl | rfl | rfl | rfl
      · exact .inr ⟨1, rfl⟩
      · exact .inr ⟨2, rfl⟩
      · exact .inl rfl
      · exact .inr ⟨0, rfl⟩
      · exact .inr ⟨8, rfl⟩
      · exact .inr ⟨1, rfl⟩
      · exact .inl rfl
    · cases hr
      decide
  obtain ⟨bs', hbs', hwrite, hgives, -, hread⟩ := readRow_of_writeRow hfit
  have hbytes : bs' = bs := Except.ok.inj (hbs'.symm.trans (by rfl))
  subst hbytes
  have hok : (writeRow ts vs sink).result = .ok () := hwrite sink hsink
  obtain ⟨part, -, hsent, hpart⟩ := hgives sink
  obtain ⟨hvs, -, hrest⟩ := hread source [4, 5] rfl rfl
  exact ⟨hfit, hsink, hok, by rw [hsent, hpart.1 hok]; rfl, hvs, hrest⟩

end RemoteAgent.Wire
