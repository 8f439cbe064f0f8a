import RemoteAgent.Proofs.Channel.Framing
import RemoteAgent.Proofs.Wire.Refusal

/-! How sending ends, whatever the stream does with the writes and the flush. Either nothing is touched,
or the whole frame is written and flushed once, or the frame is torn and the failure of the stream tells
so. -/

namespace RemoteAgent.Channel

def Balks (cause : IoError) (s : Stream) : Prop :=
  s.Refuses cause ∨ ∃ k, s.flushFailure = some k ∧ cause = Stream.scripted k

/-- The outcomes of sending a message over a link, and the links that they leave. -/
inductive Sends (m : Message) (c : Link) : Except Error Unit → Link → Prop
  | unencoded {e : Error} (h : m.encode = .error e) : Sends m c (.error e) c
  | overlong {p : List UInt8} (h : m.encode = .ok p) (hp : c.maxMessageSize < p.length) :
    Sends m c (.error (.frameTooLarge p.length c.maxMessageSize)) c
  | torn {p : List UInt8} {n : Nat} {cause : IoError} {s : Stream} (h : m.encode = .ok p)
    (hp : p.length ≤ c.maxMessageSize) (hn : n < (frame p).length)
    (hsent : s.sent = c.stream.sent ++ (frame p).take n) (hflushes : s.flushes = c.stream.flushes)
    (hcause : c.stream.Refuses cause ∧ cause.kind ≠ .interrupted) :
    Sends m c (.error (.channelIo cause)) { c with stream := s }
  | written {p : List UInt8} {s : Stream} (h : m.encode = .ok p) (hp : p.length ≤ c.maxMessageSize)
    (hw : c.stream.writeAll (frame p) = (.ok (), s)) :
    Sends m c (s.flush.1.mapError .channelIo) { c with stream := s.flush.2 }

theorem sends_send (m : Message) (c : Link) : Sends m c (send m c).result (send m c).state := by
  cases he : m.encode with
  | error e =>
    rw [send_of_encode_eq_error he]
    exact .unencoded he
  | ok p =>
    rcases Nat.lt_or_ge c.maxMessageSize p.length with hover | hfits
    · obtain ⟨es, hes⟩ := send_of_too_large he hover
      rw [hes]
      exact .overlong he hover
    · cases hw : c.stream.writeAll (frame p) with
      | mk r s =>
        cases r with
        | ok _ =>
          obtain ⟨es, hsend⟩ := send_of_writeAll_eq_ok he hfits hw
          rw [hsend]
          exact .written he hfits hw
        | error cause =>
          have hfrom := hw
          rw [Stream.writeAll] at hfrom
          obtain ⟨n, hn, hsent⟩ := Stream.sent_of_writeAllFrom_eq_error (congrArg Prod.fst hfrom)
          rw [hfrom] at hsent
          rw [send_of_writeAll_eq_error he hfits hw]
          exact .torn he hfits hn hsent (Stream.flushes_writeAll hw) (Stream.refuses_of_writeAll hw)

theorem frame_ne_nil (p : List UInt8) : frame p ≠ [] := by
  have hlength : (frame p).length = 4 + p.length := by
    rw [frame, List.length_append, header, Wire.length_leBytes]
  intro hnil
  rw [hnil, List.length_nil] at hlength
  omega

theorem flush_eq_ok_iff (s : Stream) :
    s.flush.1.mapError Error.channelIo = .ok () ↔ s.flushFailure = none := by
  rw [Stream.flush]
  cases s.flushFailure with
  | none => exact iff_of_true rfl rfl
  | some k => exact iff_of_false (fun h => by cases h) fun h => by cases h

theorem balks_of_flush {c : Link} {p : List UInt8} {s : Stream} {e : Error}
    (hw : c.stream.writeAll (frame p) = (.ok (), s))
    (he : s.flush.1.mapError Error.channelIo = .error e) :
    ∃ cause, e = .channelIo cause ∧ Balks cause c.stream := by
  rw [Stream.flush] at he
  cases hk : s.flushFailure with
  | none =>
    rw [hk] at he
    cases he
  | some k =>
    rw [hk] at he
    cases he
    exact ⟨_, rfl, .inr ⟨k, (Stream.flushFailure_writeAll hw).symm.trans hk, rfl⟩⟩

/-- Sending writes a front part of the frame of the message. It touches the stream only if the message
has a payload within the limit, and succeeds exactly if the whole frame is written and the one flush
after it does not fail; a torn frame and a flush that fails are told by the failure of the stream. -/
theorem send_whole_or_told (m : Message) (c : Link) :
    (∀ e, m.encode = .error e → (send m c).result = .error e ∧ (send m c).state = c) ∧
    ∀ p, m.encode = .ok p →
      (c.maxMessageSize < p.length →
        (send m c).result = .error (.frameTooLarge p.length c.maxMessageSize) ∧
          (send m c).state = c) ∧
      ∃ part, part <+: frame p ∧ (send m c).state.stream.sent = c.stream.sent ++ part ∧
        ((send m c).result = .ok () ↔ part = frame p ∧ c.stream.flushFailure = none) ∧
        ((send m c).result = .ok () → ∃ s, c.stream.writeAll (frame p) = (.ok (), s) ∧
          s.flushes = c.stream.flushes ∧
          (send m c).state = { c with stream := { s with flushes := s.flushes + 1 } }) ∧
        (part ≠ frame p → (send m c).state.stream.flushes = c.stream.flushes) ∧
        (part ≠ [] → part ≠ frame p → ∃ cause, (send m c).result = .error (.channelIo cause) ∧
          c.stream.Refuses cause ∧ cause.kind ≠ .interrupted) ∧
        (part = frame p → ∀ k, c.stream.flushFailure = some k →
          (send m c).result = .error (.channelIo (Stream.scripted k)) ∧
            (send m c).state.stream.flushes = c.stream.flushes + 1) := by
  have hsends := sends_send m c
  generalize (send m c).result = r, (send m c).state = d at hsends
  refine ⟨fun e he => ?_, fun p hp => ?_⟩
  · cases hsends with
    | unencoded h =>
      cases h.symm.trans he
      exact ⟨rfl, rfl⟩
    | overlong h => cases h.symm.trans he
    | torn h => cases h.symm.trans he
    | written h => cases h.symm.trans he
  · cases hsends with
    | unencoded h => cases h.symm.trans hp
    | overlong h hover =>
      cases h.symm.trans hp
      refine ⟨fun _ => ⟨rfl, rfl⟩, [], List.nil_prefix, (List.append_nil _).symm, ?_, ?_,
        fun _ => rfl, fun hsome => (hsome rfl).elim, fun hnil => (frame_ne_nil p hnil.symm).elim⟩
      · exact ⟨fun h => (by cases h), fun h => (frame_ne_nil p h.1.symm).elim⟩
      · exact fun h => by cases h
    | @torn _ n cause s h hfits hn hsent hflushes hcause =>
      cases h.symm.trans hp
      have hne : (frame p).take n ≠ frame p := by
        intro heq
        have hlength := congrArg List.length heq
        rw [List.length_take] at hlength
        omega
      refine ⟨fun hover => (Nat.not_lt.2 hfits hover).elim, (frame p).take n,
        List.take_prefix n _, hsent, ?_, ?_, fun _ => hflushes, fun _ _ => ⟨cause, rfl, hcause⟩,
        fun hwhole => (hne hwhole).elim⟩
      · exact ⟨fun h => (by cases h), fun h => (hne h.1).elim⟩
      · exact fun h => by cases h
    | @written _ s h hfits hw =>
      cases h.symm.trans hp
      have hsent : s.sent = c.stream.sent ++ frame p := Stream.sent_of_writeAll_eq_ok hw
      have hflushes := Stream.flushes_writeAll hw
      have hfailure := Stream.flushFailure_writeAll hw
      refine ⟨fun hover => (Nat.not_lt.2 hfits hover).elim, frame p, List.prefix_rfl, hsent, ?_,
        fun _ => ⟨s, hw, hflushes, rfl⟩, fun hne => (hne rfl).elim, fun _ hne => (hne rfl).elim,
        fun _ k hk => ?_⟩
      · rw [flush_eq_ok_iff, hfailure, eq_self_iff_true, true_and]
      · rw [← hfailure] at hk
        refine ⟨?_, congrArg (· + 1) hflushes⟩
        rw [Stream.flush, hk]
        rfl

end RemoteAgent.Channel
