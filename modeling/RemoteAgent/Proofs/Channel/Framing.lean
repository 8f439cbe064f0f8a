import RemoteAgent.Channel.Frame
import RemoteAgent.Proofs.Message.RoundTrip
import RemoteAgent.Proofs.Wire.Delivery
import RemoteAgent.Proofs.Wire.Intake

/-! Frames on a stream: what sending writes, and what receiving makes of it. -/

namespace RemoteAgent.Channel

open Wire

theorem send_of_encode_eq_error {m : Message} {e : Error} (h : m.encode = .error e) (c : Link) :
    send m c = ⟨.error e, c, []⟩ := by
  rw [send, Action.bind_of_ok (Action.get_apply c), h]
  rfl

theorem refuse_apply (direction : String) (size max : Nat) (c : Link) :
    ∃ es, refuse direction size max c = ⟨.error (.frameTooLarge size max), c, es⟩ := ⟨_, rfl⟩

theorem send_of_too_large {m : Message} {p : List UInt8} {c : Link} (h : m.encode = .ok p)
    (hp : c.maxMessageSize < p.length) :
    ∃ es, send m c = ⟨.error (.frameTooLarge p.length c.maxMessageSize), c, es⟩ := by
  obtain ⟨es, hes⟩ := refuse_apply "Outgoing" p.length c.maxMessageSize c
  refine ⟨es, ?_⟩
  rw [send, Action.bind_of_ok (Action.get_apply c), h, Action.ofExcept_ok, pure_bind]
  dsimp only
  rw [if_pos hp, Action.bind_of_error hes]
  rfl

theorem send_of_fits {m : Message} {p : List UInt8} {c : Link} (h : m.encode = .ok p)
    (hp : p.length ≤ c.maxMessageSize) :
    send m c = (do
      ioAction (Stream.writeAll (frame p))
      ioAction Stream.flush
      .tell [note "Sent" m p.length] : Action Link Unit) c := by
  rw [send, Action.bind_of_ok (Action.get_apply c), h, Action.ofExcept_ok, pure_bind]
  dsimp only
  rw [if_neg (Nat.not_lt.2 hp)]
  rfl

theorem send_of_writeAll_eq_error {m : Message} {p : List UInt8} {c : Link} {e : IoError}
    {s : Stream} (h : m.encode = .ok p) (hp : p.length ≤ c.maxMessageSize)
    (hw : c.stream.writeAll (frame p) = (.error e, s)) :
    send m c = ⟨.error (.channelIo e), { c with stream := s }, []⟩ := by
  have hio : ioAction (Stream.writeAll (frame p)) c =
      ⟨.error (.channelIo e), { c with stream := s }, []⟩ := by
    rw [ioAction, hw]
  rw [send_of_fits h hp, Action.bind_of_error hio]

theorem send_of_writeAll_eq_ok {m : Message} {p : List UInt8} {c : Link} {s : Stream}
    (h : m.encode = .ok p) (hp : p.length ≤ c.maxMessageSize)
    (hw : c.stream.writeAll (frame p) = (.ok (), s)) :
    ∃ es, send m c =
      ⟨s.flush.1.mapError .channelIo, { c with stream := s.flush.2 }, es⟩ := by
  have hio : ioAction (Stream.writeAll (frame p)) c = ⟨.ok (), { c with stream := s }, []⟩ := by
    rw [ioAction, hw]
  rw [send_of_fits h hp, Action.bind_of_ok hio]
  cases hf : s.flush with
  | mk r t =>
    cases r with
    | ok _ =>
      have hflush : ioAction Stream.flush { c with stream := s } =
          ⟨.ok (), { c with stream := t }, []⟩ := by
        rw [ioAction, hf]
      rw [Action.bind_of_ok hflush]
      exact ⟨_, rfl⟩
    | error e =>
      have hflush : ioAction Stream.flush { c with stream := s } =
          ⟨.error (.channelIo e), { c with stream := t }, []⟩ := by
        rw [ioAction, hf]
      rw [Action.bind_of_error hflush]
      exact ⟨_, rfl⟩

theorem exists_frame_of_send {m : Message} {c : Link} (h : (send m c).result = .ok ()) :
    ∃ p, m.encode = .ok p ∧ p.length ≤ c.maxMessageSize ∧
      (send m c).state.stream.sent = c.stream.sent ++ frame p := by
  cases he : m.encode with
  | error e =>
    rw [send_of_encode_eq_error he] at h
    cases h
  | ok p =>
    rcases Nat.lt_or_ge c.maxMessageSize p.length with hp | hp
    · obtain ⟨es, hes⟩ := send_of_too_large he hp
      rw [hes] at h
      cases h
    · cases hw : c.stream.writeAll (frame p) with
      | mk r s =>
        cases r with
        | error e =>
          rw [send_of_writeAll_eq_error he hp hw] at h
          cases h
        | ok _ =>
          have hsent : s.sent = c.stream.sent ++ frame p := Stream.sent_of_writeAll_eq_ok hw
          obtain ⟨es, hsend⟩ := send_of_writeAll_eq_ok he hp hw
          exact ⟨p, rfl, hp, by rw [hsend]; exact hsent⟩

theorem send_of_conveys {m : Message} {p : List UInt8} {c : Link} {n : Nat} (h : m.encode = .ok p)
    (hp : p.length ≤ c.maxMessageSize) (hs : c.stream.Conveys ((frame p).length + n)) :
    ∃ s es, send m c = ⟨.ok (), { c with stream := s }, es⟩ ∧
      s.sent = c.stream.sent ++ frame p ∧ s.Conveys n := by
  obtain ⟨s, hw, hsent, hs⟩ := Stream.writeAll_of_conveys hs
  obtain ⟨hflush, hflushed⟩ := Stream.flush_of_conveys hs
  obtain ⟨es, hsend⟩ := send_of_writeAll_eq_ok h hp hw
  rw [hflush] at hsend
  exact ⟨_, es, hsend, hsent, hflushed⟩

theorem ofSource_apply {α : Type} {act : Action Stream α} {c : Link} {s : Stream}
    {r : Except Error α} {es : List Log.Event} (h : act c.stream = ⟨r, s, es⟩) :
    ofSource act c = ⟨r, { c with stream := s }, es⟩ := by
  rw [ofSource, Action.on, h]

/-- A frame within the limit is taken off the stream and read, whatever comes of it. -/
theorem receive_of_frame {c : Link} {p rest : List UInt8} (hp : p.length ≤ c.maxMessageSize)
    (hlt : p.length < 2 ^ 32) (hs : c.stream.Delivers (frame p ++ rest)) :
    ∃ s es, receive c = ⟨Message.decode p, { c with stream := s }, es⟩ ∧ s.Delivers rest := by
  rw [frame, List.append_assoc] at hs
  obtain ⟨s, hn, hs⟩ := (reads_nat 4).of_delivers (agrees_readNat 4) hs ⟨hlt, rfl⟩
  obtain ⟨s', hb, hs'⟩ := (reads_exactly p.length).of_delivers (agrees_exactly p.length) hs ⟨rfl, rfl⟩
  have hb' : exactly p.length ({ c with stream := s } : Link).stream = ⟨.ok p, s', []⟩ := hb
  rw [receive, Action.bind_of_ok (Action.get_apply c), Action.bind_of_ok (ofSource_apply hn)]
  dsimp only
  rw [if_neg (Nat.not_lt.2 hp), Action.bind_of_ok (ofSource_apply hb')]
  cases Message.decode p with
  | ok m => exact ⟨s', _, rfl, hs'⟩
  | error e => exact ⟨s', _, rfl, hs'⟩

theorem receive_of_overlong {l : Link} {p rest : List UInt8} (hp : l.maxMessageSize < p.length) (hlt : p.length < 2 ^ 32)
    (hs : l.stream.Delivers (frame p ++ rest)) :
    (receive l).result = .error (.frameTooLarge p.length l.maxMessageSize) ∧
      (receive l).state.stream.Delivers (p ++ rest) := by
  rw [frame, List.append_assoc] at hs
  obtain ⟨s, hn, hs⟩ := (Wire.reads_nat 4).of_delivers (Wire.agrees_readNat 4) hs ⟨hlt, rfl⟩
  obtain ⟨es, hes⟩ := refuse_apply "Incoming" p.length l.maxMessageSize { l with stream := s }
  rw [receive, Action.bind_of_ok (Action.get_apply l), Action.bind_of_ok (ofSource_apply hn)]
  dsimp only
  rw [if_pos hp, Action.bind_of_error hes]
  exact ⟨rfl, hs⟩

theorem delivers_send (m : Message) {l : Link} {bs : List UInt8} (h : l.stream.Delivers bs) :
    (send m l).state.stream.Delivers bs := by
  have hin : (send m l).state.stream.incoming = l.stream.incoming := keeps_send m l
  rw [Stream.Delivers, hin]
  exact h

end RemoteAgent.Channel
