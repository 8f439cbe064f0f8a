import RemoteAgent.Proofs.Action.Endings
import RemoteAgent.Proofs.Channel.Exchange

/-! The two sides of a link. Receiving touches only what the stream still gives, and sending only what
it takes, so that each goes on as if the other did not happen. -/

namespace RemoteAgent

open RemoteAgent.Action

namespace Action

variable {σ τ α : Type} {R : σ → τ → Prop}

theorem agrees_tell (es : List Log.Event) : Agrees R (tell es) (tell es) :=
  fun _ _ h => ⟨rfl, rfl, h⟩

theorem agrees_ofExcept (r : Except Error α) :
    Agrees R (ofExcept r : Action σ α) (ofExcept r) := by
  cases r with
  | ok a => exact agrees_pure a
  | error e => exact agrees_fail e

end Action

namespace Stream

def onto (r w : Stream) : Stream := { w with incoming := r.incoming, chunk := r.chunk }

theorem draw_onto (n : Nat) (r w : Stream) :
    draw n (r.onto w) = ((draw n r).1, (draw n r).2.onto w) := rfl

theorem write_onto (data : List UInt8) (r w : Stream) :
    write data (r.onto w) = ((write data w).1, r.onto (write data w).2) := by
  have hroom : (r.onto w).room = w.room := rfl
  have hturns : (r.onto w).turns = w.turns := rfl
  unfold write
  dsimp only
  rw [hroom, hturns]
  by_cases h : w.room = some 0
  · rw [if_pos h, if_pos h]
    rfl
  · rw [if_neg h, if_neg h]
    cases accepted w.turns.head? w.room data.length <;> rfl

theorem writeAllFrom_onto (fuel : Nat) (data : List UInt8) (r w : Stream) :
    writeAllFrom fuel data (r.onto w) =
      ((writeAllFrom fuel data w).1, r.onto (writeAllFrom fuel data w).2) := by
  fun_induction writeAllFrom fuel data w with
  | case1 => rw [writeAllFrom]
  | case2 => rw [writeAllFrom]
  | case3 fuel b d w t h => rw [writeAllFrom, write_onto, h]
  | case4 fuel b d w k t h ih =>
    rw [writeAllFrom, write_onto, h]
    exact ih
  | case5 fuel b d w e t h hk ih =>
    rw [writeAllFrom, write_onto, h]
    dsimp only
    rw [if_pos hk]
    exact ih
  | case6 fuel b d w e t h hk =>
    rw [writeAllFrom, write_onto, h]
    dsimp only
    rw [if_neg hk]

theorem writeAll_onto (data : List UInt8) (r w : Stream) :
    writeAll data (r.onto w) = ((writeAll data w).1, r.onto (writeAll data w).2) :=
  writeAllFrom_onto _ data r w

end Stream

namespace Channel

/-- The receiving side of the first link and the sending side of the second. -/
def Link.onto (r w : Link) : Link := { r with stream := r.stream.onto w.stream }

def OverSending (w c d : Link) : Prop := c.maxMessageSize = w.maxMessageSize ∧ d = c.onto w

def UnderReceiving (r c d : Link) : Prop := c.maxMessageSize = r.maxMessageSize ∧ d = r.onto c

theorem agrees_exactly (n : Nat) (w : Stream) :
    Agrees (fun s t : Stream => t = s.onto w) (Wire.exactly n) (Wire.exactly n) := by
  have hupTo : Agrees (fun s t : Stream => t = s.onto w) (Wire.upTo n) (Wire.upTo n) := by
    rintro s _ rfl
    have hdraw : Wire.Source.draw n (s.onto w) =
      ((Wire.Source.draw n s).1, (Wire.Source.draw n s).2.onto w) := Stream.draw_onto n s w
    rw [Wire.upTo, Wire.upTo, hdraw]
    cases Wire.Source.draw n s with
    | mk r t => cases r <;> exact ⟨rfl, rfl, rfl⟩
  refine hupTo.bind fun bs => ?_
  split
  · exact agrees_fail _
  · exact agrees_pure _

theorem agrees_ofSource {α : Type} {act : Action Stream α} {w : Link}
    (h : Agrees (fun s t : Stream => t = s.onto w.stream) act act) :
    Agrees (OverSending w) (ofSource act) (ofSource act) := by
  rintro c _ ⟨hmax, rfl⟩
  obtain ⟨hr, he, hs⟩ := h c.stream (c.stream.onto w.stream) rfl
  exact ⟨hr, he, hmax, congrArg (fun s => ({ c with stream := s } : Link)) hs⟩

theorem agrees_refuse {R : Link → Link → Prop} (direction : String) (size max : Nat) :
    Agrees R (refuse direction size max) (refuse direction size max) :=
  (agrees_tell _).bind fun _ => agrees_fail _

theorem agrees_receive (w : Link) : Agrees (OverSending w) receive receive := by
  rintro c _ ⟨hw, rfl⟩
  have hread : Agrees (OverSending w) (ofSource (Wire.readNat 4)) (ofSource (Wire.readNat 4)) :=
    agrees_ofSource ((agrees_exactly 4 w.stream).bind fun _ => agrees_pure _)
  have hrest : ∀ size, Agrees (OverSending w)
      (do
        let payload ← ofSource (Wire.exactly size)
        let m ← Action.ofExcept (Message.decode payload)
        .tell [note "Received" m size]
        return m)
      (do
        let payload ← ofSource (Wire.exactly size)
        let m ← Action.ofExcept (Message.decode payload)
        .tell [note "Received" m size]
        return m) := by
    intro size
    refine (agrees_ofSource (agrees_exactly size w.stream)).bind fun p => ?_
    refine (agrees_ofExcept _).bind fun m => ?_
    exact (agrees_tell _).bind fun _ => agrees_pure _
  have hmax : (c.onto w).maxMessageSize = c.maxMessageSize := rfl
  rw [receive, bind_of_ok (get_apply c), bind_of_ok (get_apply (c.onto w))]
  refine hread.bind (fun size => ?_) c _ ⟨hw, rfl⟩
  dsimp only
  rw [hmax]
  split
  · exact (agrees_refuse _ _ _).bind fun _ => hrest size
  · exact hrest size

theorem receives_cons {n : Nat} {c : Link} {m : Message} {ms : List Message}
    (hm : (receive c).result = .ok m) (hms : (receives n (receive c).state).result = .ok ms) :
    (receives (n + 1) c).result = .ok (m :: ms) ∧
      (receives (n + 1) c).state = (receives n (receive c).state).state := by
  obtain ⟨hr, hs⟩ := @bind_of_result _ _ _ receive
    (fun m => receives n >>= fun ms => pure (m :: ms)) c m hm
  obtain ⟨hr', hs'⟩ := @bind_of_result _ _ _ (receives n)
    (fun ms => pure (m :: ms)) (receive c).state ms hms
  exact ⟨hr.trans hr', hs.trans hs'⟩

theorem agrees_receives (w : Link) (n : Nat) :
    Agrees (OverSending w) (receives n) (receives n) := by
  induction n with
  | zero => exact agrees_pure _
  | succ n ih => exact (agrees_receive w).bind fun m => ih.bind fun ms => agrees_pure _

theorem agrees_ioAction {α : Type} {op : Stream → Except IoError α × Stream} {r : Link}
    (h : ∀ w, op (r.stream.onto w) = ((op w).1, r.stream.onto (op w).2)) :
    Agrees (UnderReceiving r) (ioAction op) (ioAction op) := by
  rintro w _ ⟨hmax, rfl⟩
  have hop : op (r.onto w).stream = ((op w.stream).1, r.stream.onto (op w.stream).2) := h w.stream
  rw [ioAction, ioAction, hop]
  cases op w.stream with
  | mk result s => cases result <;> exact ⟨rfl, rfl, hmax, rfl⟩

theorem agrees_send (m : Message) (r : Link) : Agrees (UnderReceiving r) (send m) (send m) := by
  rintro w _ ⟨hw, rfl⟩
  have hencode : Agrees (UnderReceiving r) (ofExcept m.encode) (ofExcept m.encode) :=
    agrees_ofExcept _
  have hrest : ∀ p, Agrees (UnderReceiving r)
      (do
        ioAction (Stream.writeAll (frame p))
        ioAction Stream.flush
        .tell [note "Sent" m p.length])
      (do
        ioAction (Stream.writeAll (frame p))
        ioAction Stream.flush
        .tell [note "Sent" m p.length]) := by
    intro p
    refine (agrees_ioAction fun w => Stream.writeAll_onto (frame p) r.stream w).bind fun _ => ?_
    exact (agrees_ioAction fun w => rfl).bind fun _ => agrees_tell _
  have hmax : (r.onto w).maxMessageSize = w.maxMessageSize := hw.symm
  rw [send, bind_of_ok (get_apply w), bind_of_ok (get_apply (r.onto w))]
  refine hencode.bind (fun p => ?_) w _ ⟨hw, rfl⟩
  dsimp only
  rw [hmax]
  split
  · exact (agrees_refuse _ _ _).bind fun _ => hrest p
  · exact hrest p

theorem agrees_forEach_send (ms : List Message) (r : Link) :
    Agrees (UnderReceiving r) (Action.forEach ms send) (Action.forEach ms send) := by
  induction ms with
  | nil => exact agrees_pure _
  | cons m ms ih => exact (agrees_send m r).bind fun _ => ih

section Over

variable {r w : Link}

theorem receive_onto (h : r.maxMessageSize = w.maxMessageSize) :
    (receive (r.onto w)).result = (receive r).result ∧
      (receive (r.onto w)).state = (receive r).state.onto w := by
  obtain ⟨hr, -, -, hs⟩ := agrees_receive w r (r.onto w) ⟨h, rfl⟩
  exact ⟨hr.symm, hs⟩

theorem receives_onto (n : Nat) (h : r.maxMessageSize = w.maxMessageSize) :
    (receives n (r.onto w)).result = (receives n r).result ∧
      (receives n (r.onto w)).state = (receives n r).state.onto w := by
  obtain ⟨hr, -, -, hs⟩ := agrees_receives w n r (r.onto w) ⟨h, rfl⟩
  exact ⟨hr.symm, hs⟩

theorem send_onto (m : Message) (h : w.maxMessageSize = r.maxMessageSize) :
    (send m (r.onto w)).result = (send m w).result ∧
      (send m (r.onto w)).state = r.onto (send m w).state := by
  obtain ⟨hr, -, -, hs⟩ := agrees_send m r w (r.onto w) ⟨h, rfl⟩
  exact ⟨hr.symm, hs⟩

theorem forEach_send_onto (ms : List Message) (h : w.maxMessageSize = r.maxMessageSize) :
    (Action.forEach ms send (r.onto w)).result = (Action.forEach ms send w).result ∧
      (Action.forEach ms send (r.onto w)).state = r.onto (Action.forEach ms send w).state := by
  obtain ⟨hr, -, -, hs⟩ := agrees_forEach_send ms r w (r.onto w) ⟨h, rfl⟩
  exact ⟨hr.symm, hs⟩

theorem onto_of_receive (c : Link) : (receive c).state.onto c = (receive c).state :=
  (@receive_onto c c rfl).2.symm

theorem sent_receive (c : Link) : (receive c).state.stream.sent = c.stream.sent := by
  rw [← onto_of_receive]
  rfl

theorem flushFailure_receive (c : Link) :
    (receive c).state.stream.flushFailure = c.stream.flushFailure := by
  rw [← onto_of_receive]
  rfl

theorem conveys_receive {n : Nat} {l : Link} (h : l.stream.Conveys n) : (receive l).state.stream.Conveys n := by
  have honto : (receive l).state.stream.onto l.stream = (receive l).state.stream :=
    congrArg Link.stream (onto_of_receive l)
  rw [← honto]
  exact ⟨⟨h.turns, h.room⟩, h.flushes⟩

theorem maxMessageSize_send (m : Message) (c : Link) :
    (send m c).state.maxMessageSize = c.maxMessageSize :=
  (agrees_send m c c c ⟨rfl, rfl⟩).2.2.1

theorem maxMessageSize_receive (c : Link) : (receive c).state.maxMessageSize = c.maxMessageSize :=
  (agrees_receive c c c ⟨rfl, rfl⟩).2.2.1

theorem maxMessageSize_receives (n : Nat) (c : Link) :
    (receives n c).state.maxMessageSize = c.maxMessageSize :=
  (agrees_receives c n c c ⟨rfl, rfl⟩).2.2.1

theorem maxMessageSize_forEach_send (ms : List Message) (c : Link) :
    (Action.forEach ms send c).state.maxMessageSize = c.maxMessageSize :=
  (agrees_forEach_send ms c c c ⟨rfl, rfl⟩).2.2.1

end Over

/-- The bytes that stand for a message on a stream. -/
def framed (m : Message) : List UInt8 :=
  match m.encode with
  | .ok p => frame p
  | .error _ => []

theorem framed_of_encode {m : Message} {p : List UInt8} (h : m.encode = .ok p) :
    framed m = frame p := by
  rw [framed, h]

theorem sent_send (m : Message) (c : Link) : ∃ part, part <+: framed m ∧
    (send m c).state.stream.sent = c.stream.sent ++ part ∧
    ((send m c).result = .ok () → part = framed m) := by
  cases he : m.encode with
  | error e =>
    rw [send_of_encode_eq_error he]
    exact ⟨[], List.nil_prefix, (List.append_nil _).symm, fun h => by cases h⟩
  | ok p =>
    rw [framed_of_encode he]
    rcases Nat.lt_or_ge c.maxMessageSize p.length with hlt | hle
    · obtain ⟨es, hes⟩ := send_of_too_large he hlt
      rw [hes]
      exact ⟨[], List.nil_prefix, (List.append_nil _).symm, fun h => by cases h⟩
    · cases hw : c.stream.writeAll (frame p) with
      | mk r s =>
        cases r with
        | ok _ =>
          have hsent : s.sent = c.stream.sent ++ frame p := Stream.sent_of_writeAll_eq_ok hw
          obtain ⟨es, hsend⟩ := send_of_writeAll_eq_ok he hle hw
          rw [hsend]
          exact ⟨frame p, List.prefix_rfl, hsent, fun _ => rfl⟩
        | error e =>
          obtain ⟨k, hk, _⟩ := Stream.sent_writeAllFrom
            ((frame p).length + c.stream.turns.length) (frame p) c.stream
          rw [Stream.writeAll] at hw
          rw [hw] at hk
          rw [send_of_writeAll_eq_error he hle (by rw [Stream.writeAll, hw])]
          exact ⟨_, List.take_prefix k _, hk, fun h => by cases h⟩

/-- Of a message that has a frame but cannot be sent, less than the whole frame is written, unless the
stream fails to flush it. -/
theorem sent_of_send_eq_error {m : Message} {p : List UInt8} {c : Link} {e : Error}
    (hp : m.encode = .ok p) (he : (send m c).result = .error e) :
    ∃ part, part <+: framed m ∧ (part = framed m → c.stream.flushFailure ≠ none) ∧
      (send m c).state.stream.sent = c.stream.sent ++ part := by
  have hpos : 0 < (frame p).length := by
    rw [frame, List.length_append, header, Wire.length_leBytes]
    omega
  rw [framed_of_encode hp]
  rcases Nat.lt_or_ge c.maxMessageSize p.length with hlt | hle
  · obtain ⟨es, hes⟩ := send_of_too_large hp hlt
    rw [hes]
    exact ⟨[], List.nil_prefix, fun hnil => ((List.ne_nil_of_length_pos hpos).symm hnil).elim,
      (List.append_nil _).symm⟩
  · cases hw : c.stream.writeAll (frame p) with
    | mk r s =>
      cases r with
      | ok _ =>
        have hsent : s.sent = c.stream.sent ++ frame p := Stream.sent_of_writeAll_eq_ok hw
        obtain ⟨es, hsend⟩ := send_of_writeAll_eq_ok hp hle hw
        rw [hsend] at he ⊢
        refine ⟨frame p, List.prefix_rfl, fun _ hflush => ?_, hsent⟩
        rw [← Stream.flushFailure_writeAll hw] at hflush
        rw [Stream.flush, hflush] at he
        cases he
      | error e' =>
        have hfrom := hw
        rw [Stream.writeAll] at hfrom
        obtain ⟨k, hk, hsent⟩ := Stream.sent_of_writeAllFrom_eq_error (congrArg Prod.fst hfrom)
        rw [hfrom] at hsent
        rw [send_of_writeAll_eq_error hp hle hw]
        refine ⟨(frame p).take k, List.take_prefix k _, fun heq => ?_, hsent⟩
        have hlength := congrArg List.length heq
        rw [List.length_take] at hlength
        omega

theorem sent_forEach_send (ms : List Message) (c : Link) : ∃ part, part <+: ms.flatMap framed ∧
    (Action.forEach ms send c).state.stream.sent = c.stream.sent ++ part ∧
    ((Action.forEach ms send c).result = .ok () → part = ms.flatMap framed) := by
  induction ms generalizing c with
  | nil => exact ⟨[], List.nil_prefix, (List.append_nil _).symm, fun _ => rfl⟩
  | cons m ms ih =>
    obtain ⟨part, hpart, hsent, hall⟩ := sent_send m c
    change ∃ part, _ ∧ ((send m >>= fun _ => Action.forEach ms send) c).state.stream.sent = _ ∧
      (((send m >>= fun _ => Action.forEach ms send) c).result = .ok () → _)
    rw [List.flatMap_cons]
    cases hs : send m c with
    | mk r d es =>
      rw [hs] at hsent hall
      cases r with
      | error e =>
        rw [bind_of_error hs]
        exact ⟨part, hpart.trans (List.prefix_append _ _), hsent, fun h => by cases h⟩
      | ok _ =>
        obtain ⟨more, hmore, hsent', hall'⟩ := ih d
        have hwhole : part = framed m := hall rfl
        subst hwhole
        rw [bind_of_ok hs]
        refine ⟨framed m ++ more, (List.prefix_append_right_inj _).2 hmore, ?_, fun h => ?_⟩
        · rw [hsent', hsent, List.append_assoc]
        · rw [hall' h]

end Channel

end RemoteAgent
