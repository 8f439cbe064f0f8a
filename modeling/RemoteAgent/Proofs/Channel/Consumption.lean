import RemoteAgent.Proofs.Channel.Sides

/-! What receiving takes off a stream. A message that is received is a whole frame off the front of
the bytes to come, whatever failures lie behind it. -/

namespace RemoteAgent

open RemoteAgent.Action

namespace Stream

theorem readPieces_eq_ok {n : Nat} {ps r : List Piece} {d : List UInt8}
    (h : readPieces n ps = (.ok d, r)) :
    ps.flatMap Piece.toBytes = d ++ r.flatMap Piece.toBytes ∧ d.length ≤ n := by
  fun_induction readPieces n ps with
  | case1 =>
    cases h
    exact ⟨rfl, Nat.zero_le n⟩
  | case2 k ps => cases h
  | case3 ps ih => exact ih h
  | case4 b d ps =>
    cases h
    rw [List.flatMap_cons, List.flatMap_cons, ← List.append_assoc]
    exact ⟨congrArg (· ++ _) (List.take_append_drop n (b :: d)).symm, List.length_take_le n _⟩

theorem readPieces_eq_error {n : Nat} {ps r : List Piece} {e : IoError}
    (h : readPieces n ps = (.error e, r)) :
    ps.flatMap Piece.toBytes = r.flatMap Piece.toBytes := by
  fun_induction readPieces n ps with
  | case1 => cases h
  | case2 k ps =>
    cases h
    rfl
  | case3 ps ih => exact ih h
  | case4 b d ps => cases h

theorem drawPieces_eq_ok {chunk n : Nat} {ps r : List Piece} {d : List UInt8}
    (h : drawPieces chunk n ps = (.ok d, r)) :
    ps.flatMap Piece.toBytes = d ++ r.flatMap Piece.toBytes ∧ d.length ≤ n := by
  fun_induction drawPieces chunk n ps generalizing d r with
  | case1 ps =>
    cases h
    exact ⟨rfl, Nat.le_refl 0⟩
  | case2 n ps hn t hr =>
    cases h
    exact ⟨(readPieces_eq_ok hr).1, Nat.zero_le n⟩
  | case3 n ps hn b e t hr _ more r' hrec ih =>
    cases h
    obtain ⟨hfront, hlen⟩ := readPieces_eq_ok hr
    obtain ⟨hback, hlen'⟩ := ih hrec
    have hle : (b :: e).length ≤ n := Nat.le_trans hlen (portion_le chunk n)
    rw [hfront, hback, List.append_assoc, List.length_append]
    exact ⟨rfl, by omega⟩
  | case4 => cases h
  | case5 n ps hn e t hr _ _ ih =>
    rw [readPieces_eq_error hr]
    exact ih h
  | case6 => cases h

end Stream

namespace Wire

theorem upTo_eq_ok {n : Nat} {s : Stream} {d : List UInt8} (h : (upTo n s).result = .ok d) :
    s.unread = d ++ (upTo n s).state.unread ∧ d.length ≤ n := by
  cases hd : Stream.drawPieces s.chunk n s.incoming with
  | mk result r =>
    have hdraw : Source.draw n s = (result, { s with incoming := r }) := by
      change Stream.draw n s = _
      rw [Stream.draw, hd]
    rw [upTo, hdraw] at h ⊢
    cases result with
    | error e => cases h
    | ok bs =>
      cases h
      exact Stream.drawPieces_eq_ok hd

theorem exactly_eq_ok {n : Nat} {s : Stream} {d : List UInt8} (h : (exactly n s).result = .ok d) :
    s.unread = d ++ (exactly n s).state.unread ∧ d.length = n := by
  rw [exactly] at h ⊢
  obtain ⟨bs, hbs, hrest, hstate⟩ := exists_of_bind h
  obtain ⟨hunread, hle⟩ := upTo_eq_ok hbs
  rw [hstate]
  by_cases hlt : bs.length < n
  · rw [if_pos hlt] at hrest
    cases hrest
  · rw [if_neg hlt] at hrest ⊢
    cases hrest
    exact ⟨hunread, Nat.le_antisymm hle (Nat.not_lt.1 hlt)⟩

theorem readNat_eq_ok {width n : Nat} {s : Stream} (h : (readNat width s).result = .ok n) :
    ∃ bs, s.unread = bs ++ (readNat width s).state.unread ∧ bs.length = width ∧ n = leValue bs := by
  rw [readNat] at h ⊢
  obtain ⟨bs, hbs, hrest, hstate⟩ := exists_of_bind h
  obtain ⟨hunread, hlen⟩ := exactly_eq_ok hbs
  cases hrest
  rw [hstate]
  exact ⟨bs, hunread, hlen, rfl⟩

end Wire

namespace Channel

open Wire

theorem header_of_leValue {bs p : List UInt8} (hbs : bs.length = 4) (hp : p.length = leValue bs) :
    header p = bs := by
  have h := leBytes_leValue bs
  rw [hbs, ← hp] at h
  exact h

theorem receive_eq_ok {c : Link} {m : Message} (h : (receive c).result = .ok m) :
    ∃ p, c.stream.unread = frame p ++ (receive c).state.stream.unread ∧ p.length < 2 ^ 32 ∧
      Message.decode p = .ok m := by
  rw [receive, bind_of_ok (get_apply c)] at h ⊢
  obtain ⟨size, hsize, hrest, hstate⟩ := exists_of_bind h
  obtain ⟨bs, hheader, hbs, rfl⟩ := readNat_eq_ok hsize
  dsimp only at hrest hstate ⊢
  rw [hstate]
  by_cases hmax : leValue bs > c.maxMessageSize
  · rw [if_pos hmax] at hrest
    cases hrest
  · rw [if_neg hmax] at hrest ⊢
    obtain ⟨p, hp, hdecode, hstate'⟩ := exists_of_bind hrest
    obtain ⟨hpayload, hlength⟩ := exactly_eq_ok hp
    have hcut : c.stream.unread = frame p ++
        (exactly (leValue bs) (ofSource (readNat 4) c).state.stream).state.unread := by
      have hheaderEq : header p = bs := header_of_leValue hbs hlength
      rw [frame, hheaderEq, List.append_assoc, ← hpayload]
      exact hheader
    rw [hstate']
    cases hm : Message.decode p with
    | error e =>
      rw [hm] at hdecode
      cases hdecode
    | ok m' =>
      rw [hm] at hdecode
      cases hdecode
      have hlt : p.length < 2 ^ 32 := by
        have := leValue_lt bs
        rw [hbs] at this
        omega
      exact ⟨p, hcut, hlt, hm⟩

/-- The payloads of the frames that a byte string begins with. -/
def payloads (bs : List UInt8) : List (List UInt8) :=
  if 4 + leValue (bs.take 4) ≤ bs.length then
    (bs.drop 4).take (leValue (bs.take 4)) :: payloads (bs.drop (4 + leValue (bs.take 4)))
  else []
  termination_by bs.length
  decreasing_by
    rw [List.length_drop]
    omega

theorem payloads_frame {p : List UInt8} (hp : p.length < 2 ^ 32) (rest : List UInt8) :
    payloads (frame p ++ rest) = p :: payloads rest := by
  have hlen : (header p).length = 4 := length_leBytes 4 p.length
  have hvalue : leValue (header p) = p.length := by
    rw [leValue_header, Nat.mod_eq_of_lt hp]
  have htake : (frame p ++ rest).take 4 = header p := by
    rw [frame, List.append_assoc, List.take_append_of_le_length (by omega), ← hlen, List.take_length]
  have hdrop : (frame p ++ rest).drop 4 = p ++ rest := by
    rw [frame, List.append_assoc, ← hlen, List.drop_left]
  rw [payloads, htake, hvalue, ← List.drop_drop, hdrop, List.take_left, List.drop_left, if_pos]
  rw [frame, List.length_append, List.length_append]
  omega

theorem payloads_flatMap {ps : List (List UInt8)} (h : ∀ p ∈ ps, p.length < 2 ^ 32)
    (rest : List UInt8) : payloads (ps.flatMap frame ++ rest) = ps ++ payloads rest := by
  induction ps with
  | nil => rfl
  | cons p ps ih =>
    rw [List.flatMap_cons, List.append_assoc, payloads_frame (h p List.mem_cons_self),
      ih fun q hq => h q (List.mem_cons_of_mem p hq)]
    rfl

theorem exists_of_receives {n : Nat} {c : Link} {ms : List Message}
    (h : (receives (n + 1) c).result = .ok ms) : ∃ m ms', ms = m :: ms' ∧
      (receive c).result = .ok m ∧ (receives n (receive c).state).result = .ok ms' ∧
      (receives (n + 1) c).state = (receives n (receive c).state).state := by
  obtain ⟨m, hm, hrest, hstate⟩ := exists_of_bind h
  obtain ⟨ms', hms', hpure, hstate'⟩ := exists_of_bind hrest
  cases hpure
  exact ⟨m, ms', rfl, hm, hms', hstate.trans hstate'⟩

theorem receives_concat {n : Nat} {c : Link} {ms : List Message} {m : Message}
    (hms : (receives n c).result = .ok ms) (hm : (receive (receives n c).state).result = .ok m) :
    (receives (n + 1) c).result = .ok (ms ++ [m]) ∧
      (receives (n + 1) c).state = (receive (receives n c).state).state := by
  induction n generalizing c ms with
  | zero =>
    cases hms
    exact receives_cons hm rfl
  | succ n ih =>
    obtain ⟨m', ms', rfl, hm', hms', hstate⟩ := exists_of_receives hms
    rw [hstate] at hm ⊢
    obtain ⟨hresult, hafter⟩ := ih hms' hm
    obtain ⟨hresult', hafter'⟩ := receives_cons hm' hresult
    exact ⟨hresult', hafter'.trans hafter⟩

/-- What is received in a row were the payloads of the first frames to come. -/
theorem exists_payloads_of_receives {n : Nat} {c : Link} {ms : List Message}
    (h : (receives n c).result = .ok ms) : ∃ ps : List (List UInt8),
      c.stream.unread = ps.flatMap frame ++ (receives n c).state.stream.unread ∧
      (∀ p ∈ ps, p.length < 2 ^ 32) ∧ ps.length = ms.length ∧ ps.mapM Message.decode = .ok ms := by
  induction n generalizing c ms with
  | zero =>
    cases h
    exact ⟨[], rfl, nofun, rfl, rfl⟩
  | succ n ih =>
    obtain ⟨m, ms', rfl, hm, hms, hstate⟩ := exists_of_receives h
    obtain ⟨p, hfront, hlt, hdecode⟩ := receive_eq_ok hm
    obtain ⟨ps, hrest, hshort, hlength, hall⟩ := ih hms
    refine ⟨p :: ps, ?_, List.forall_mem_cons.2 ⟨hlt, hshort⟩, congrArg (· + 1) hlength, ?_⟩
    · rw [hstate, hfront, hrest, List.flatMap_cons, List.append_assoc]
    · rw [List.mapM_cons, hdecode, hall]
      rfl

theorem decode_payloads_of_receives {n : Nat} {c : Link} {ms : List Message}
    (h : (receives n c).result = .ok ms) :
    ((payloads c.stream.unread).take ms.length).mapM Message.decode = .ok ms := by
  obtain ⟨ps, hunread, hshort, hlength, hall⟩ := exists_payloads_of_receives h
  rw [hunread, payloads_flatMap hshort, ← hlength, List.take_left]
  exact hall

theorem state_expect (kind : Message.Kind) (c : Link) :
    (expect kind c).state = (receive c).state := by
  cases hr : receive c with
  | mk r d es =>
    cases r with
    | error e => rw [expect, bind_of_error hr]
    | ok m =>
      rw [expect, bind_of_ok hr]
      by_cases hkind : m.kind = kind
      · rw [if_pos hkind]
        rfl
      · rw [if_neg hkind]
        rfl

theorem expect_eq_ok {c : Link} {kind : Message.Kind} {m : Message}
    (h : (expect kind c).result = .ok m) : (receive c).result = .ok m ∧ m.kind = kind := by
  rw [expect] at h
  obtain ⟨m', hm, hrest, -⟩ := exists_of_bind h
  by_cases hkind : m'.kind = kind
  · rw [if_pos hkind] at hrest
    cases hrest
    exact ⟨hm, hkind⟩
  · rw [if_neg hkind] at hrest
    cases hrest

end Channel

end RemoteAgent
