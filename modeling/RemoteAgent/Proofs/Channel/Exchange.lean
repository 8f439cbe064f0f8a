import RemoteAgent.Config.Basic
import RemoteAgent.Proofs.Channel.Framing

/-! Messages from one end of a stream to the other: what was sent in a row is received in that
row, and how long a payload the header of a frame can tell. -/

namespace RemoteAgent.Channel

open Wire

def receives : Nat → Action Link (List Message)
  | 0 => pure []
  | n + 1 => do
    let m ← receive
    let ms ← receives n
    return m :: ms

theorem mapM_encode_cons {m : Message} {ms : List Message} {ps : List (List UInt8)} :
    (m :: ms).mapM Message.encode = .ok ps ↔
      ∃ p qs, m.encode = .ok p ∧ ms.mapM Message.encode = .ok qs ∧ ps = p :: qs := by
  rw [List.mapM_cons, Error.bind_eq_ok_iff]
  constructor
  · rintro ⟨p, hp, h⟩
    obtain ⟨qs, hqs, h⟩ := Error.bind_eq_ok_iff.1 h
    cases h
    exact ⟨p, qs, hp, hqs, rfl⟩
  · rintro ⟨p, qs, hp, hqs, rfl⟩
    exact ⟨p, hp, Error.bind_eq_ok_iff.2 ⟨qs, hqs, rfl⟩⟩

theorem forEach_send {ms : List Message} {ps : List (List UInt8)} {c : Link} {n : Nat}
    (h : ms.mapM Message.encode = .ok ps) (hp : ∀ p ∈ ps, p.length ≤ c.maxMessageSize)
    (hs : c.stream.Conveys ((ps.flatMap frame).length + n)) :
    ∃ s es, Action.forEach ms send c = ⟨.ok (), { c with stream := s }, es⟩ ∧
      s.sent = c.stream.sent ++ ps.flatMap frame ∧ s.Conveys n := by
  induction ms generalizing ps c with
  | nil =>
    cases h
    exact ⟨c.stream, [], rfl, (List.append_nil _).symm, by simpa using hs⟩
  | cons m ms ih =>
    obtain ⟨p, qs, hm, hqs, rfl⟩ := mapM_encode_cons.1 h
    rw [List.flatMap_cons, List.length_append, Nat.add_assoc] at hs
    obtain ⟨s, es, hsend, hsent, ht⟩ := send_of_conveys hm (hp p List.mem_cons_self) hs
    obtain ⟨s', es', hrest, hsent', ht'⟩ :=
      @ih qs { c with stream := s } hqs (fun q hq => hp q (List.mem_cons_of_mem p hq)) ht
    refine ⟨s', es ++ es', ?_, ?_, ht'⟩
    · change (send m >>= fun _ => Action.forEach ms send) c = _
      rw [Action.bind_of_ok hsend, hrest]
    · rw [hsent', hsent, List.append_assoc, List.flatMap_cons]

theorem receives_of_frames {ms : List Message} {ps : List (List UInt8)} {d : Link}
    {rest : List UInt8} (h : ms.mapM Message.encode = .ok ps)
    (hp : ∀ p ∈ ps, p.length ≤ d.maxMessageSize ∧ p.length < 2 ^ 32)
    (hd : d.stream.Delivers (ps.flatMap frame ++ rest)) :
    ∃ s es, receives ms.length d = ⟨.ok ms, { d with stream := s }, es⟩ ∧ s.Delivers rest := by
  induction ms generalizing ps d with
  | nil =>
    cases h
    exact ⟨d.stream, [], rfl, hd⟩
  | cons m ms ih =>
    obtain ⟨p, qs, hm, hqs, rfl⟩ := mapM_encode_cons.1 h
    obtain ⟨hmax, hlt⟩ := hp p List.mem_cons_self
    rw [List.flatMap_cons, List.append_assoc] at hd
    obtain ⟨s, es, hrec, hs⟩ := receive_of_frame hmax hlt hd
    rw [Message.decode_of_spells (Message.spells_of_encode hm)] at hrec
    obtain ⟨s', es', hrest, hs'⟩ :=
      @ih qs { d with stream := s } hqs (fun q hq => hp q (List.mem_cons_of_mem p hq)) hs
    refine ⟨s', es ++ (es' ++ []), ?_, hs'⟩
    rw [List.length_cons, receives, Action.bind_of_ok hrec, Action.bind_of_ok hrest]
    rfl

/-- What one end sends in a row, the other end receives in that row, however the stream takes and
delivers the bytes, and what follows is still there. -/
theorem receives_of_forEach_send {ms : List Message} {ps : List (List UInt8)} {c : Link}
    (henc : ms.mapM Message.encode = .ok ps)
    (hfit : ∀ p ∈ ps, p.length ≤ c.maxMessageSize ∧ p.length < 2 ^ 32)
    (hconveys : c.stream.Conveys (ps.flatMap frame).length) :
    (Action.forEach ms send c).result = .ok () ∧
      (Action.forEach ms send c).state.stream.sent = c.stream.sent ++ ps.flatMap frame ∧
      ∀ (d : Link) (rest : List UInt8), d.maxMessageSize = c.maxMessageSize →
        d.stream.steady = true → d.stream.unread = ps.flatMap frame ++ rest →
        (receives ms.length d).result = .ok ms ∧
        (receives ms.length d).state.stream.unread = rest := by
  obtain ⟨s, es, hsend, hsent, _⟩ :=
    @forEach_send ms ps c 0 henc (fun p hp => (hfit p hp).1) hconveys
  refine ⟨by rw [hsend], by rw [hsend]; exact hsent, ?_⟩
  intro d rest hmax hsteady hunread
  obtain ⟨t, es', hrec, ht⟩ := @receives_of_frames ms ps d rest henc (by rwa [hmax])
    (Stream.delivers_iff.2 ⟨hsteady, hunread⟩)
  rw [hrec]
  exact ⟨rfl, (Stream.delivers_iff.1 ht).2⟩

theorem receives_of_forEach_send_in_pieces :
    let c : Link := ⟨{ incoming := [], turns := [.takes 4, .failure .interrupted, .takes 1] }, 64⟩
    let d : Link := ⟨{ incoming := [.bytes [5, 0], .failure .interrupted, .bytes [0, 0, 1, 0],
      .bytes [0, 0, 1, 4, 0], .failure .interrupted, .bytes [0, 0, 4, 0, 0, 0, 9]], chunk := 3 }, 64⟩
    (Action.forEach [.status true, .isValid] send c).result = .ok () ∧
      (Action.forEach [.status true, .isValid] send c).state.stream.sent =
        [5, 0, 0, 0, 1, 0, 0, 0, 1, 4, 0, 0, 0, 4, 0, 0, 0] ∧
      (receives 2 d).result = .ok [.status true, .isValid] ∧
      (receives 2 d).state.stream.unread = [9] := by
  intro c d
  have henc : [Message.status true, .isValid].mapM Message.encode =
      .ok [[1, 0, 0, 0, 1], [4, 0, 0, 0]] := by rfl
  have hconveys : c.stream.Conveys
      ([[1, 0, 0, 0, 1], [4, 0, 0, 0]].flatMap frame).length := by
    refine ⟨⟨fun t ht => ?_, fun r hr => nomatch hr⟩, rfl⟩
    simp only [c, List.mem_cons, List.not_mem_nil, or_false] at ht
    rcases ht with rfl | rfl | rfl
    · exact .inr ⟨3, rfl⟩
    · exact .inl rfl
    · exact .inr ⟨0, rfl⟩
  obtain ⟨hok, hsent, hrec⟩ := receives_of_forEach_send henc (by decide) hconveys
  obtain ⟨hms, hrest⟩ := hrec d [9] rfl rfl rfl
  exact ⟨hok, hsent, hms, hrest⟩

theorem leValue_header (p : List UInt8) : leValue (header p) = p.length % 2 ^ 32 :=
  leValue_leBytes 4 p.length

theorem header_eq_header_take (p : List UInt8) : header p = header (p.take (p.length % 2 ^ 32)) := by
  have hle : p.length % 2 ^ 32 ≤ p.length := Nat.mod_le _ _
  rw [header, header, List.length_take, Nat.min_eq_left hle]
  exact (leBytes_mod 4 p.length).symm

theorem receive_of_long_frame {d : Link} {m : Message} {p rest : List UInt8} (hm : m.Spells p)
    (hp : p.length ≤ d.maxMessageSize) (hlong : 2 ^ 32 ≤ p.length)
    (hd : d.stream.Delivers (header p ++ p ++ rest)) : ∃ e, (receive d).result = .error e := by
  -- The receiver takes a proper front part of the payload for the whole of it.
  have hn : p.length % 2 ^ 32 < 2 ^ 32 := Nat.mod_lt _ (by decide)
  have hlen : (p.take (p.length % 2 ^ 32)).length = p.length % 2 ^ 32 :=
    List.length_take_of_le (by omega)
  have hcut : header p ++ p ++ rest =
      frame (p.take (p.length % 2 ^ 32)) ++ (p.drop (p.length % 2 ^ 32) ++ rest) := by
    rw [frame, ← header_eq_header_take, List.append_assoc, List.append_assoc,
      ← List.append_assoc (p.take _), List.take_append_drop]
  rw [hcut] at hd
  obtain ⟨s, es, hrec, _⟩ := receive_of_frame (by omega) (by omega) hd
  obtain ⟨e, he⟩ := @Message.decode_take_of_spells m p hm (p.length % 2 ^ 32) (by omega)
  exact ⟨e, by rw [hrec, he]⟩

/-- The header of a sent frame is the length of its payload, and the other end receives the
message, exactly if that length has 32 bits; a longer payload is sent all the same, and nothing is
received. -/
theorem header_of_send {m : Message} {c : Link} (h : (send m c).result = .ok ()) :
    ∃ p, m.encode = .ok p ∧ p.length ≤ c.maxMessageSize ∧
      (send m c).state.stream.sent = c.stream.sent ++ (header p ++ p) ∧ (header p).length = 4 ∧
      leValue (header p) = p.length % 2 ^ 32 ∧
      (leValue (header p) = p.length ↔ p.length < 2 ^ 32) ∧
      ∀ (d : Link) (rest : List UInt8), d.maxMessageSize = c.maxMessageSize →
        d.stream.steady = true → d.stream.unread = header p ++ p ++ rest →
        (p.length < 2 ^ 32 → (receive d).result = .ok m) ∧
        (2 ^ 32 ≤ p.length → ∃ e, (receive d).result = .error e) := by
  obtain ⟨p, hp, hle, hsent⟩ := exists_frame_of_send h
  have hm : m.Spells p := Message.spells_of_encode hp
  refine ⟨p, hp, hle, hsent, length_leBytes 4 _, leValue_header p, ?_, ?_⟩
  · rw [leValue_header]
    omega
  · intro d rest hmax hsteady hunread
    have hd : d.stream.Delivers (header p ++ p ++ rest) :=
      Stream.delivers_iff.2 ⟨hsteady, hunread⟩
    refine ⟨fun hlt => ?_, fun hlong => receive_of_long_frame hm (by rwa [hmax]) hlong hd⟩
    obtain ⟨s, es, hrec, _⟩ := receive_of_frame (by rwa [hmax]) hlt hd
    rw [hrec, Message.decode_of_spells hm]

theorem header_of_send_status :
    (send (.status true) ⟨Stream.ofBytes [], 64⟩).result = .ok () ∧
      (send (.status true) ⟨Stream.ofBytes [], 64⟩).state.stream.sent =
        [5, 0, 0, 0, 1, 0, 0, 0, 1] ∧
      (receive ⟨Stream.ofBytes [5, 0, 0, 0, 1, 0, 0, 0, 1], 64⟩).result = .ok (.status true) := by
  have hok : (send (.status true) ⟨Stream.ofBytes [], 64⟩).result = .ok () := by rfl
  obtain ⟨p, hp, _, hsent, _, _, _, hrec⟩ := header_of_send hok
  cases hp
  have hd := hrec ⟨Stream.ofBytes [5, 0, 0, 0, 1, 0, 0, 0, 1], 64⟩ [] rfl rfl rfl
  exact ⟨hok, hsent, hd.1 (by decide)⟩

def wide : Config :=
  { channel := { socketDir := "/tmp", maxMessageSize := 2 ^ 33 } }

/-- The reply to a read of nearly 4 GiB of zeros. -/
def longReply : Message := .statusWithValue true (List.replicate (2 ^ 32 - 8) 0)

theorem encode_longReply : ∃ p, longReply.encode = .ok p ∧ p.length = 2 ^ 32 + 1 := by
  have hv : (List.replicate (2 ^ 32 - 8) (0 : UInt8)).length = 2 ^ 32 - 8 := List.length_replicate
  obtain ⟨p, hp, hlen⟩ := Message.encode_statusWithValue true (hv ▸ (by decide : 2 ^ 32 - 8 < 2 ^ 32))
  refine ⟨p, hp, ?_⟩
  rw [hlen, hv]
  rfl

/-- Under that configuration the reply goes out with one as the length of its payload, and the other
end cannot read it. -/
theorem header_of_send_longReply : wide.validate = .ok wide ∧
    ∃ p, longReply.encode = .ok p ∧ p.length = 2 ^ 32 + 1 ∧
      (send longReply ⟨Stream.ofBytes [], wide.channel.maxMessageSize⟩).result = .ok () ∧
      (send longReply ⟨Stream.ofBytes [], wide.channel.maxMessageSize⟩).state.stream.sent =
        header p ++ p ∧
      leValue (header p) = 1 ∧
      ∃ e, (receive ⟨Stream.ofBytes (header p ++ p), wide.channel.maxMessageSize⟩).result =
        .error e := by
  obtain ⟨p, hp, hlen⟩ := encode_longReply
  have hmax : p.length ≤ wide.channel.maxMessageSize := by
    rw [hlen]
    decide
  have hs : (Stream.ofBytes []).Conveys ((frame p).length + 0) := Stream.conveys_ofBytes [] _
  obtain ⟨s, es, hsend, hsent, _⟩ := @send_of_conveys longReply p ⟨Stream.ofBytes [], _⟩ 0 hp hmax hs
  have hd : (Stream.ofBytes (header p ++ p)).Delivers (header p ++ p ++ []) := by
    rw [List.append_nil]
    exact Stream.delivers_iff.2 ⟨rfl, List.append_nil _⟩
  refine ⟨by rfl, p, hp, hlen, by rw [hsend], by rw [hsend]; exact hsent, ?_, ?_⟩
  · have hv : leValue (header p) = p.length % 2 ^ 32 := leValue_header p
    omega
  · have hm : longReply.Spells p := Message.spells_of_encode hp
    exact @receive_of_long_frame ⟨Stream.ofBytes (header p ++ p), _⟩ _ p [] hm hmax (by omega) hd

end RemoteAgent.Channel
