import RemoteAgent.Proofs.Channel.Sides

/-! Links between two messages: what is sent goes out whole, what arrives is received, and the link is
between two messages again. -/

namespace RemoteAgent

open RemoteAgent.Action

def Message.FitsIn (m : Message) (limit : Nat) : Prop := ∃ p, m.encode = .ok p ∧ p.length ≤ limit

theorem Message.FitsIn.mono {m : Message} {limit limit' : Nat} (h : m.FitsIn limit)
    (hle : limit ≤ limit') : m.FitsIn limit' := by
  obtain ⟨p, hp, hlen⟩ := h
  exact ⟨p, hp, Nat.le_trans hlen hle⟩

namespace Channel

/-- Nothing is left to be received, and all that is sent is taken. -/
structure Link.Idle (c : Link) : Prop where
  read : c.stream.Delivers []
  conveys : ∀ n, c.stream.Conveys n

theorem idle_fresh (max : Nat) : ({ stream := { incoming := [] }, maxMessageSize := max } : Link).Idle :=
  ⟨.ended, fun _ => ⟨⟨fun _ ht => (List.not_mem_nil ht).elim, fun _ hr => by cases hr⟩, rfl⟩⟩

variable {c : Link} {m : Message}

theorem send_of_idle (hc : c.Idle) (hm : m.FitsIn c.maxMessageSize) :
    (send m c).result = .ok () ∧ (send m c).state.stream.sent = c.stream.sent ++ framed m ∧
      (send m c).state.maxMessageSize = c.maxMessageSize ∧ (send m c).state.Idle := by
  obtain ⟨p, hp, hle⟩ := hm
  have hsends : ∀ n, ∃ s es, send m c = ⟨.ok (), { c with stream := s }, es⟩ ∧
      s.sent = c.stream.sent ++ frame p ∧ s.Conveys n := fun n => send_of_conveys hp hle (hc.conveys _)
  obtain ⟨s, es, hsend, hsent, -⟩ := hsends 0
  refine ⟨by rw [hsend], by rw [hsend, framed_of_encode hp]; exact hsent, by rw [hsend], delivers_send m hc.read, ?_⟩
  intro n
  obtain ⟨s', es', hsend', -, hconveys⟩ := hsends n
  rw [hsend']
  exact hconveys

theorem receive_of_framed (hread : c.stream.Delivers (framed m)) (hconveys : ∀ n, c.stream.Conveys n)
    (hm : m.FitsIn c.maxMessageSize) (hheader : m.FitsIn (2 ^ 32 - 1)) :
    (receive c).result = .ok m ∧ (receive c).state.stream.sent = c.stream.sent ∧
      (receive c).state.maxMessageSize = c.maxMessageSize ∧ (receive c).state.Idle := by
  obtain ⟨p, hp, hle⟩ := hm
  obtain ⟨p', hp', hlt⟩ := hheader
  cases hp.symm.trans hp'
  rw [framed_of_encode hp, ← List.append_nil (frame p)] at hread
  obtain ⟨s, es, hrec, hs⟩ := receive_of_frame hle (by omega) hread
  rw [Message.decode_of_spells (Message.spells_of_encode hp)] at hrec
  refine ⟨by rw [hrec], sent_receive c, maxMessageSize_receive c, ?_,
    fun n => conveys_receive (hconveys n)⟩
  rw [hrec]
  exact hs

theorem receive_of_nothing (hread : c.stream.Delivers []) :
    (receive c).result = .error (.channelIo .unexpectedEnd) ∧
      (receive c).state.stream.sent = c.stream.sent := by
  refine ⟨?_, sent_receive c⟩
  obtain ⟨hr, -, -⟩ := Wire.agrees_readNat 4 c.stream [] hread
  have hsource : (ofSource (Wire.readNat 4) c).result = .error (.channelIo .unexpectedEnd) := hr
  rw [receive, bind_of_ok (get_apply c)]
  exact (bind_of_failure hsource).1

theorem delivers_of_nothing (h : c.stream.Delivers []) :
    (receive c).state.stream.Delivers [] := by
  obtain ⟨hr, -, hs⟩ := Wire.agrees_readNat 4 c.stream [] h
  have hsource : (ofSource (Wire.readNat 4) c).result = .error (.channelIo .unexpectedEnd) := hr
  rw [receive, bind_of_ok (get_apply c)]
  dsimp only
  rw [(bind_of_failure hsource).2]
  exact hs

end Channel

end RemoteAgent
