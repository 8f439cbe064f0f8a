import RemoteAgent.Proofs.Action.Endings
import RemoteAgent.Proofs.Channel.Consumption
import RemoteAgent.Proofs.Channel.Framing
import RemoteAgent.Proofs.Wire.Supply

/-! What receiving makes of a stream. The bytes alone decide what is received and how many of them are
gone after it; the pieces in which they come do not show. -/

namespace RemoteAgent.Channel

open RemoteAgent.Action Wire

/-- The length that the first four bytes announce. -/
def announced (bs : List UInt8) : Nat := leValue (bs.take 4)

def outcome (max : Nat) (bs : List UInt8) (lack : IoError) : Except Error Message :=
  if bs.length < 4 then .error (.channelIo lack)
  else if max < announced bs then .error (.frameTooLarge (announced bs) max)
  else if bs.length < 4 + announced bs then .error (.channelIo lack)
  else Message.decode ((bs.drop 4).take (announced bs))

def reach (max : Nat) (bs : List UInt8) : Nat :=
  if max < announced bs then 4 else 4 + announced bs

variable {c d : Link}

theorem four_le_reach (max : Nat) (bs : List UInt8) : 4 ≤ reach max bs := by
  unfold reach
  split <;> omega

theorem reach_le (max : Nat) (bs : List UInt8) : reach max bs ≤ 4 + max := by
  unfold reach
  split <;> omega

theorem readNat_of_le (h : 4 ≤ c.stream.supply.length) :
    ∃ s, ofSource (readNat 4) c = ⟨.ok (announced c.stream.supply), { c with stream := s }, []⟩ ∧
      s.supply = c.stream.supply.drop 4 ∧ s.supply.length + 4 = c.stream.supply.length ∧
      s.breach = c.stream.breach := by
  obtain ⟨s, hread, hsupply, hbreach⟩ := exactly_of_le h
  refine ⟨s, ofSource_apply ?_, hsupply, ?_, hbreach⟩
  · rw [readNat, bind_of_ok hread]
    rfl
  · rw [hsupply, List.length_drop, Nat.sub_add_cancel h]

theorem receive_of_headless (h : c.stream.supply.length < 4) :
    (receive c).result = .error (.channelIo c.stream.lack) ∧
      (c.stream.breach = none → (receive c).state.stream.Delivers []) := by
  obtain ⟨hresult, hgone⟩ := exactly_of_lt h
  have hread : (ofSource (readNat 4) c).result = .error (.channelIo c.stream.lack) :=
    (bind_of_failure hresult).1
  have hstate : (ofSource (readNat 4) c).state.stream = (exactly 4 c.stream).state :=
    (bind_of_failure hresult).2
  rw [receive, bind_of_ok (get_apply c)]
  obtain ⟨hresult', hstate'⟩ := bind_of_failure hread
  refine ⟨hresult', fun hnone => ?_⟩
  rw [hstate', hstate]
  exact hgone hnone

theorem receive_of_overreaching (h : 4 ≤ c.stream.supply.length)
    (hmax : c.maxMessageSize < announced c.stream.supply) :
    (receive c).result =
        .error (.frameTooLarge (announced c.stream.supply) c.maxMessageSize) ∧
      (receive c).state.stream.supply = c.stream.supply.drop 4 ∧
      (receive c).state.stream.breach = c.stream.breach := by
  obtain ⟨s, hread, hsupply, -, hbreach⟩ := readNat_of_le h
  obtain ⟨es, hes⟩ := refuse_apply "Incoming" (announced c.stream.supply) c.maxMessageSize
    { c with stream := s }
  rw [receive, bind_of_ok (get_apply c), bind_of_ok hread]
  dsimp only
  rw [if_pos hmax, bind_of_error hes]
  exact ⟨rfl, hsupply, hbreach⟩

theorem receive_of_header {s : Stream}
    (hread : ofSource (readNat 4) c =
      ⟨.ok (announced c.stream.supply), { c with stream := s }, []⟩)
    (hmax : announced c.stream.supply ≤ c.maxMessageSize) :
    (receive c).result = (exactly (announced c.stream.supply) s).result.bind Message.decode ∧
      (receive c).state.stream = (exactly (announced c.stream.supply) s).state := by
  rw [receive, bind_of_ok (get_apply c), bind_of_ok hread]
  dsimp only
  rw [if_neg (Nat.not_lt.2 hmax)]
  cases hp : exactly (announced c.stream.supply) s with
  | mk r t es =>
    have hpayload : ofSource (exactly (announced c.stream.supply)) { c with stream := s } =
        ⟨r, { c with stream := t }, es⟩ := ofSource_apply hp
    cases r with
    | error e =>
      rw [bind_of_error hpayload]
      exact ⟨rfl, rfl⟩
    | ok p =>
      rw [bind_of_ok hpayload]
      dsimp only
      cases hm : Message.decode p with
      | ok m => exact ⟨hm.symm, rfl⟩
      | error e => exact ⟨hm.symm, rfl⟩

theorem result_receive (c : Link) :
    (receive c).result = outcome c.maxMessageSize c.stream.supply c.stream.lack := by
  unfold outcome
  rcases Nat.lt_or_ge c.stream.supply.length 4 with hshort | hheader
  · rw [if_pos hshort]
    exact (receive_of_headless hshort).1
  rw [if_neg (Nat.not_lt.2 hheader)]
  rcases Nat.lt_or_ge c.maxMessageSize (announced c.stream.supply) with hover | hmax
  · rw [if_pos hover]
    exact (receive_of_overreaching hheader hover).1
  rw [if_neg (Nat.not_lt.2 hmax)]
  obtain ⟨s, hread, hsupply, hlength, hbreach⟩ := readNat_of_le hheader
  rw [(receive_of_header hread hmax).1]
  rcases Nat.lt_or_ge c.stream.supply.length (4 + announced c.stream.supply) with hcut | hwhole
  · have hlack : s.lack = c.stream.lack := by rw [Stream.lack, Stream.lack, hbreach]
    rw [if_pos hcut, (exactly_of_lt (by omega)).1, hlack]
    rfl
  · obtain ⟨t, ht, -⟩ := @exactly_of_le (announced c.stream.supply) s (by omega)
    rw [if_neg (Nat.not_lt.2 hwhole), ht, hsupply]
    rfl

theorem supply_receive (h : reach c.maxMessageSize c.stream.supply ≤ c.stream.supply.length) :
    (receive c).state.stream.supply =
        c.stream.supply.drop (reach c.maxMessageSize c.stream.supply) ∧
      (receive c).state.stream.breach = c.stream.breach := by
  have hheader : 4 ≤ c.stream.supply.length := Nat.le_trans (four_le_reach _ _) h
  rw [reach] at h ⊢
  rcases Nat.lt_or_ge c.maxMessageSize (announced c.stream.supply) with hover | hmax
  · rw [if_pos hover]
    exact (receive_of_overreaching hheader hover).2
  rw [if_neg (Nat.not_lt.2 hmax)] at h ⊢
  obtain ⟨s, hread, hsupply, hlength, hbreach⟩ := readNat_of_le hheader
  obtain ⟨t, ht, hrest, hbreach'⟩ := @exactly_of_le (announced c.stream.supply) s (by omega)
  rw [(receive_of_header hread hmax).2, ht]
  refine ⟨?_, hbreach'.trans hbreach⟩
  rw [hrest, hsupply, List.drop_drop]

theorem delivers_of_lt_reach (hnone : c.stream.breach = none)
    (h : c.stream.supply.length < reach c.maxMessageSize c.stream.supply) :
    (receive c).state.stream.Delivers [] := by
  rcases Nat.lt_or_ge c.stream.supply.length 4 with hshort | hheader
  · exact (receive_of_headless hshort).2 hnone
  rw [reach] at h
  rcases Nat.lt_or_ge c.maxMessageSize (announced c.stream.supply) with hover | hmax
  · rw [if_pos hover] at h
    omega
  rw [if_neg (Nat.not_lt.2 hmax)] at h
  obtain ⟨s, hread, hsupply, hlength, hbreach⟩ := readNat_of_le hheader
  rw [(receive_of_header hread hmax).2]
  exact (exactly_of_lt (by omega)).2 (hbreach.trans hnone)

theorem delivers_receive {bs : List UInt8} (h : c.stream.Delivers bs) :
    (receive c).state.stream.Delivers (bs.drop (reach c.maxMessageSize bs)) := by
  obtain ⟨rfl, hnone⟩ := Stream.delivers_iff_supply.1 h
  rcases Nat.lt_or_ge c.stream.supply.length (reach c.maxMessageSize c.stream.supply)
    with hcut | hwhole
  · rw [List.drop_of_length_le (Nat.le_of_lt hcut)]
    exact delivers_of_lt_reach hnone hcut
  · obtain ⟨hsupply, hbreach⟩ := supply_receive hwhole
    exact Stream.delivers_iff_supply.2 ⟨hsupply, hbreach.trans hnone⟩

section Frames

variable {p rest bs : List UInt8} {m : Message}

theorem announced_frame (hlt : p.length < 2 ^ 32) (rest : List UInt8) :
    announced (frame p ++ rest) = p.length ∧ (frame p ++ rest).drop 4 = p ++ rest := by
  have hlen : (header p).length = 4 := length_leBytes 4 p.length
  rw [announced, frame, List.append_assoc, ← hlen, List.take_left, List.drop_left, leValue_header,
    Nat.mod_eq_of_lt hlt]
  exact ⟨rfl, rfl⟩

theorem length_frame_append (p rest : List UInt8) :
    (frame p ++ rest).length = 4 + p.length + rest.length := by
  have hlen : (header p).length = 4 := length_leBytes 4 p.length
  rw [List.length_append, frame, List.length_append, hlen]

theorem outcome_of_lt_reach {max : Nat} (lack : IoError) (h : bs.length < reach max bs) :
    outcome max bs lack = .error (.channelIo lack) := by
  unfold outcome
  rw [reach] at h
  split
  · rfl
  split
  · next hmax =>
    rw [if_pos hmax] at h
    omega
  · next hmax =>
    rw [if_neg hmax] at h
    exact if_pos h

theorem outcome_of_overlong {max : Nat} (lack : IoError) (h : 4 ≤ bs.length)
    (hmax : max < announced bs) : outcome max bs lack = .error (.frameTooLarge (announced bs) max) := by
  rw [outcome, if_neg (Nat.not_lt.2 h), if_pos hmax]

theorem outcome_frame {max : Nat} (lack : IoError) (hp : p.length ≤ max) (hlt : p.length < 2 ^ 32)
    (rest : List UInt8) : outcome max (frame p ++ rest) lack = Message.decode p := by
  obtain ⟨hannounced, hdrop⟩ := announced_frame hlt rest
  have hlength := length_frame_append p rest
  rw [outcome, hannounced, hdrop, List.take_left, if_neg (by omega), if_neg (Nat.not_lt.2 hp),
    if_neg (by omega)]

theorem exists_frame_of_announced (h : 4 + announced bs ≤ bs.length) :
    ∃ p, bs = frame p ++ bs.drop (4 + announced bs) ∧ p.length = announced bs ∧
      p.length < 2 ^ 32 := by
  have htake : (bs.take 4).length = 4 := List.length_take_of_le (by omega)
  have hlength : ((bs.drop 4).take (announced bs)).length = announced bs :=
    List.length_take_of_le (by rw [List.length_drop]; omega)
  have hlt : announced bs < 256 ^ (bs.take 4).length := leValue_lt (bs.take 4)
  rw [htake] at hlt
  refine ⟨_, ?_, hlength, Nat.lt_of_le_of_lt (Nat.le_of_eq hlength) hlt⟩
  rw [frame, header_of_leValue htake hlength, ← List.drop_drop, List.append_assoc,
    List.take_append_drop, List.take_append_drop]

theorem receive_of_supply (hp : p.length ≤ c.maxMessageSize) (hlt : p.length < 2 ^ 32)
    (hs : c.stream.supply = frame p ++ rest) :
    (receive c).result = Message.decode p ∧ (receive c).state.stream.supply = rest ∧
      (receive c).state.stream.breach = c.stream.breach := by
  obtain ⟨hannounced, hdrop⟩ := announced_frame hlt rest
  have hlength := length_frame_append p rest
  have hreach : reach c.maxMessageSize c.stream.supply = 4 + p.length := by
    rw [hs, reach, hannounced, if_neg (Nat.not_lt.2 hp)]
  obtain ⟨hsupply, hbreach⟩ := @supply_receive c (by rw [hreach, hs, hlength]; omega)
  refine ⟨?_, ?_, hbreach⟩
  · rw [result_receive, hs, outcome_frame _ hp hlt]
  · rw [hsupply, hreach, hs, ← List.drop_drop, hdrop, List.drop_left]

theorem frame_cases (max : Nat) (bs : List UInt8) : bs.length < reach max bs ∨
    (4 ≤ bs.length ∧ max < announced bs) ∨
    ∃ p more, bs = frame p ++ more ∧ p.length ≤ max ∧ p.length < 2 ^ 32 := by
  rcases Nat.lt_or_ge bs.length (reach max bs) with hcut | hwhole
  · exact .inl hcut
  rcases Nat.lt_or_ge max (announced bs) with hover | hmax
  · exact .inr (.inl ⟨Nat.le_trans (four_le_reach max bs) hwhole, hover⟩)
  · rw [reach, if_neg (Nat.not_lt.2 hmax)] at hwhole
    obtain ⟨p, hframe, hlength, hlt⟩ := exists_frame_of_announced hwhole
    exact .inr (.inr ⟨p, _, hframe, hlength.symm ▸ hmax, hlt⟩)

theorem exists_frame_of_receive (h : (receive c).result = .ok m) : ∃ p,
    c.stream.supply = frame p ++ (receive c).state.stream.supply ∧ p.length ≤ c.maxMessageSize ∧
      p.length < 2 ^ 32 ∧ Message.decode p = .ok m := by
  rcases frame_cases c.maxMessageSize c.stream.supply with
    hcut | ⟨hheader, hmax⟩ | ⟨p, more, hs, hp, hlt⟩
  · rw [result_receive, outcome_of_lt_reach _ hcut] at h
    cases h
  · rw [result_receive, outcome_of_overlong _ hheader hmax] at h
    cases h
  · obtain ⟨hresult, hsupply, -⟩ := receive_of_supply hp hlt hs
    exact ⟨p, hsupply ▸ hs, hp, hlt, hresult.symm.trans h⟩

/-- These bytes begin with the frames of these messages, each within the limit, and go on so. -/
inductive Carries (max : Nat) : List UInt8 → List Message → List UInt8 → Prop
  | nothing (rest : List UInt8) : Carries max rest [] rest
  | frame {p bs rest : List UInt8} {m : Message} {ms : List Message} (hp : p.length ≤ max)
    (hlt : p.length < 2 ^ 32) (hm : Message.decode p = .ok m) (h : Carries max bs ms rest) :
    Carries max (Channel.frame p ++ bs) (m :: ms) rest

theorem Carries.receives {ms : List Message} (h : Carries c.maxMessageSize c.stream.supply ms rest) :
    (receives ms.length c).result = .ok ms ∧
      (receives ms.length c).state.stream.supply = rest ∧
      (receives ms.length c).state.stream.breach = c.stream.breach := by
  generalize hmax : c.maxMessageSize = max, hbs : c.stream.supply = bs at h
  induction h generalizing c with
  | nothing rest => exact ⟨rfl, hbs, rfl⟩
  | frame hp hlt hm h ih =>
    obtain ⟨hresult, hsupply, hbreach⟩ := receive_of_supply (hmax ▸ hp) hlt hbs
    obtain ⟨hms, hrest, hbreach'⟩ := ih ((maxMessageSize_receive c).trans hmax) hsupply
    obtain ⟨hall, hstate⟩ := receives_cons (hresult.trans hm) hms
    rw [List.length_cons, hstate]
    exact ⟨hall, hrest, hbreach'.trans hbreach⟩

theorem carries_of_receives {n : Nat} {ms : List Message} (h : (receives n c).result = .ok ms) :
    Carries c.maxMessageSize c.stream.supply ms (receives n c).state.stream.supply := by
  induction n generalizing c ms with
  | zero =>
    cases h
    exact .nothing _
  | succ n ih =>
    obtain ⟨m, ms', rfl, hm, hms, hstate⟩ := exists_of_receives h
    obtain ⟨p, hfront, hp, hlt, hdecode⟩ := exists_frame_of_receive hm
    have hrest := ih hms
    rw [maxMessageSize_receive] at hrest
    rw [hstate, hfront]
    exact .frame hp hlt hdecode hrest

end Frames

/-- On a stream that fails in no other way than by being interrupted, the bytes that are still to come
decide what is received and what is left. No more than the header and the longest payload are taken. -/
theorem receive_of_steady {c : Link} {bs : List UInt8} (hsteady : c.stream.steady = true)
    (hbs : c.stream.unread = bs) :
    (bs.length < 4 → (receive c).result = .error (.channelIo .unexpectedEnd)) ∧
    (4 ≤ bs.length → c.maxMessageSize < announced bs →
      (receive c).result = .error (.frameTooLarge (announced bs) c.maxMessageSize) ∧
        (receive c).state.stream.unread = bs.drop 4) ∧
    (4 ≤ bs.length → announced bs ≤ c.maxMessageSize → bs.length < 4 + announced bs →
      (receive c).result = .error (.channelIo .unexpectedEnd)) ∧
    (announced bs ≤ c.maxMessageSize → 4 + announced bs ≤ bs.length →
      (receive c).result = Message.decode ((bs.drop 4).take (announced bs)) ∧
        (receive c).state.stream.unread = bs.drop (4 + announced bs)) ∧
    (∃ n ≤ 4 + c.maxMessageSize, (receive c).state.stream.unread = bs.drop n) ∧
    (receive c).state.stream.steady = true ∧
    ∀ d : Link, d.maxMessageSize = c.maxMessageSize → d.stream.steady = true →
      d.stream.unread = bs → (receive d).result = (receive c).result ∧
        (receive d).state.stream.unread = (receive c).state.stream.unread := by
  have hall : ∀ d : Link, d.stream.steady = true → d.stream.unread = bs →
      (receive d).result = outcome d.maxMessageSize bs .unexpectedEnd ∧
        (receive d).state.stream.Delivers (bs.drop (reach d.maxMessageSize bs)) := by
    intro d hd hunread
    have hdelivers : d.stream.Delivers bs := Stream.delivers_iff.2 ⟨hd, hunread⟩
    rw [result_receive, (Stream.delivers_iff_supply.1 hdelivers).1, hdelivers.lack]
    exact ⟨rfl, delivers_receive hdelivers⟩
  obtain ⟨hresult, hrest⟩ := hall c hsteady hbs
  obtain ⟨hsteady', hunread⟩ := Stream.delivers_iff.1 hrest
  rw [hresult, hunread]
  unfold outcome
  refine ⟨fun h => if_pos h, fun h hmax => ?_, fun h hmax hcut => ?_, fun hmax hwhole => ?_, ?_,
    hsteady', fun d hd hsteady hbs => ?_⟩
  · rw [if_neg (Nat.not_lt.2 h), if_pos hmax, reach, if_pos hmax]
    exact ⟨rfl, rfl⟩
  · rw [if_neg (Nat.not_lt.2 h), if_neg (Nat.not_lt.2 hmax), if_pos hcut]
  · rw [if_neg (by omega), if_neg (Nat.not_lt.2 hmax), if_neg (Nat.not_lt.2 hwhole), reach,
      if_neg (Nat.not_lt.2 hmax)]
    exact ⟨rfl, rfl⟩
  · exact ⟨_, reach_le c.maxMessageSize bs, rfl⟩
  · obtain ⟨hresult', hrest'⟩ := hall d hsteady hbs
    rw [hresult', (Stream.delivers_iff.1 hrest').2, hd]
    exact ⟨rfl, rfl⟩

/-- A frame whose payload goes on behind its message, in pieces of at most two bytes with an interruption
inside the header, and at once. -/
theorem receive_of_steady_trailing :
    let c : Link := ⟨{ incoming := [.bytes [5], .failure .interrupted, .bytes [0, 0, 0, 4, 0],
      .bytes [0, 0, 7, 9]], chunk := 2 }, 64⟩
    let d : Link := ⟨Stream.ofBytes [5, 0, 0, 0, 4, 0, 0, 0, 7, 9], 64⟩
    (receive c).result = .error (.protocol (.trailing 1 .isValid)) ∧
      (receive c).state.stream.unread = [9] ∧
      (receive d).result = .error (.protocol (.trailing 1 .isValid)) ∧
      (receive d).state.stream.unread = [9] := by
  intro c d
  obtain ⟨-, -, -, hwhole, -, -, hall⟩ :=
    @receive_of_steady c [5, 0, 0, 0, 4, 0, 0, 0, 7, 9] rfl rfl
  obtain ⟨hresult, hrest⟩ := hwhole (by decide) (by decide)
  obtain ⟨hresult', hrest'⟩ := hall d rfl rfl rfl
  have hdecode : Message.decode [4, 0, 0, 0, 7] = .error (.protocol (.trailing 1 .isValid)) := by rfl
  refine ⟨hresult.trans hdecode, hrest, ?_, ?_⟩
  · rw [hresult', hresult]
    exact hdecode
  · rw [hrest', hrest]
    rfl

end RemoteAgent.Channel
