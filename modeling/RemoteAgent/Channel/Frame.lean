import RemoteAgent.Message.Codec

/-! Frames: a message on a stream is its length in four bytes, then its payload, sent in one write.
A limit holds for the payload in both directions. -/

namespace RemoteAgent.Channel

open Log

def defaultMaxMessageSize : Nat := 64 * 1024 * 1024

structure Link where
  stream : Stream
  maxMessageSize : Nat := defaultMaxMessageSize

def target : String := "hands_common::channel"

def header (payload : List UInt8) : List UInt8 := Wire.leBytes 4 payload.length

def frame (payload : List UInt8) : List UInt8 := header payload ++ payload

def ioAction {α : Type} (op : Stream → Except IoError α × Stream) : Action Link α := fun c =>
  match op c.stream with
  | (.ok a, s) => ⟨.ok a, { c with stream := s }, []⟩
  | (.error e, s) => ⟨.error (.channelIo e), { c with stream := s }, []⟩

def ofSource {α : Type} (act : Action Stream α) : Action Link α :=
  act.on Link.stream fun s c => { c with stream := s }

def refuse (direction : String) (size max : Nat) : Action Link Unit := do
  .tell [{ level := .error, target, message := direction ++ " message too large",
           fields := [("size", toString size), ("max", toString max)] }]
  .fail (.frameTooLarge size max)

def note (verb : String) (m : Message) (size : Nat) : Event :=
  { level := .trace, target, message := verb ++ " message",
    fields := [("message_type", m.kind.name), ("size", toString size)] }

def send (m : Message) : Action Link Unit := do
  let max := (← Action.get).maxMessageSize
  let payload ← Action.ofExcept m.encode
  if payload.length > max then refuse "Outgoing" payload.length max
  ioAction (Stream.writeAll (frame payload))
  ioAction Stream.flush
  .tell [note "Sent" m payload.length]

def receive : Action Link Message := do
  let max := (← Action.get).maxMessageSize
  let size ← ofSource (Wire.readNat 4)
  if size > max then refuse "Incoming" size max
  let payload ← ofSource (Wire.exactly size)
  let m ← Action.ofExcept (Message.decode payload)
  .tell [note "Received" m size]
  return m

def expect (kind : Message.Kind) : Action Link Message := do
  let m ← receive
  if m.kind = kind then return m
  .tell [{ level := .debug, target, message := "Unexpected message type",
           fields := [("expected", kind.name), ("actual", m.kind.name)] }]
  .fail (.unexpectedMessage kind m.kind)

def roundTrip (request : Message) (reply : Message.Kind) : Action Link Message := do
  send request
  expect reply

def Link.weight (c : Link) : Nat := Stream.weight c.stream.incoming

theorem spends_ofSource {α : Type} {k : Nat} {act : Action Stream α}
    (h : Action.Spends (fun s : Stream => Stream.weight s.incoming) k act) :
    Action.Spends Link.weight k (ofSource act) := fun c a ha => h c.stream a ha

theorem spends_readNat (n : Nat) :
    Action.Spends (fun s : Stream => Stream.weight s.incoming) n (Wire.readNat n) :=
  Action.Spends.bind (Wire.spends_exactly n) fun _ => (Action.keeps_pure _).spends

theorem spends_refuse (direction : String) (size max k : Nat) :
    Action.Spends Link.weight k (refuse direction size max) := by
  intro c a h
  cases h

theorem spends_receive : Action.Spends Link.weight 1 receive := by
  refine Action.Spends.mono (j := 1) (k := 0 + (4 + 0)) ?_ (by decide)
  refine Action.Spends.bind Action.keeps_get.spends fun c => ?_
  refine Action.Spends.bind (spends_ofSource (spends_readNat 4)) fun size => ?_
  have rest : Action.Spends Link.weight 0 (do
      let payload ← ofSource (Wire.exactly size)
      let m ← Action.ofExcept (Message.decode payload)
      .tell [note "Received" m size]
      return m) := by
    refine Action.Spends.mono (k := size + (0 + (0 + 0))) ?_ (Nat.zero_le _)
    refine Action.Spends.bind (spends_ofSource (Wire.spends_exactly size)) fun payload => ?_
    refine Action.Spends.bind (Action.keeps_ofExcept _).spends fun m => ?_
    exact Action.Spends.bind (Action.keeps_tell _).spends fun _ => (Action.keeps_pure _).spends
  dsimp only
  split
  · exact Action.Spends.bind (spends_refuse _ _ _ 0) fun _ => rest
  · exact rest

theorem keeps_ioAction {α : Type} {op : Stream → Except IoError α × Stream}
    (h : ∀ s, (op s).2.incoming = s.incoming) :
    Action.Keeps (fun c : Link => c.stream.incoming) (ioAction op) := by
  intro c
  have := h c.stream
  unfold ioAction
  split <;> simp_all

theorem keeps_send (m : Message) : Action.Keeps (fun c : Link => c.stream.incoming) (send m) := by
  refine Action.keeps_get.bind fun c => (Action.keeps_ofExcept _).bind fun payload => ?_
  have rest : Action.Keeps (fun c : Link => c.stream.incoming) (do
      ioAction (Stream.writeAll (frame payload))
      ioAction Stream.flush
      .tell [note "Sent" m payload.length]) :=
    (keeps_ioAction fun s => Stream.incoming_writeAll _ s).bind fun _ =>
      (keeps_ioAction fun _ => rfl).bind fun _ => Action.keeps_tell _
  dsimp only
  split
  · exact Action.Keeps.bind (fun _ => rfl) fun _ => rest
  · exact rest

end RemoteAgent.Channel
