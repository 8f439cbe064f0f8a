import RemoteAgent.Channel.Frame
import RemoteAgent.Proofs.Action.Endings
import RemoteAgent.Proofs.Message.Payload

/-! How the exchange of messages fails: always with a failure after which a session cannot go on. -/

namespace RemoteAgent

open RemoteAgent.Action

def Error.Fatal (e : Error) : Prop := e.isSessionFatal = true

namespace Wire

variable {σ : Type} [Source σ]

theorem ends_upTo (n : Nat) : FailsOnly Error.Fatal (upTo n : Action σ (List UInt8)) := by
  intro s
  unfold upTo
  split
  · trivial
  · rfl

theorem ends_exactly (n : Nat) : FailsOnly Error.Fatal (exactly n : Action σ (List UInt8)) := by
  unfold exactly
  refine (ends_upTo n).andThen fun bs => ?_
  split
  · exact ends_fail rfl
  · exact ends_pure trivial

theorem ends_readNat (width : Nat) : FailsOnly Error.Fatal (readNat width : Action σ Nat) :=
  (ends_exactly width).andThen fun _ => ends_pure trivial

theorem ends_readPointer : FailsOnly Error.Fatal (readPointer : Action σ UInt64) :=
  (ends_readNat 8).andThen fun _ => ends_pure trivial

theorem ends_readBlob : FailsOnly Error.Fatal (readBlob : Action σ (List UInt8)) := by
  unfold readBlob
  refine (ends_readNat 4).andThen fun n => (ends_upTo n).andThen fun bs => ?_
  split
  · exact ends_fail rfl
  · exact ends_pure trivial

theorem ends_readText : FailsOnly Error.Fatal (readText : Action σ String) := by
  unfold readText
  refine ends_readBlob.andThen fun bs => ?_
  split
  · exact ends_pure trivial
  · exact ends_fail rfl

theorem ends_readPointerList (n : Nat) :
    FailsOnly Error.Fatal (readPointerList n : Action σ (List UInt64)) := by
  induction n with
  | zero => exact ends_pure trivial
  | succ n ih => exact ends_readPointer.andThen fun a => ih.andThen fun r => ends_pure trivial

theorem ends_read (t : FieldType) : FailsOnly Error.Fatal (read t : Action σ t.Value) := by
  cases t with
  | bool => exact (ends_exactly 1).andThen fun _ => ends_pure trivial
  | u32 | i32 => exact (ends_readNat 4).andThen fun _ => ends_pure trivial
  | u64 | pointer => exact ends_readPointer
  | length => exact ends_readNat 4
  | bytes => exact ends_readBlob
  | text => exact ends_readText
  | pointers => exact (ends_readNat 4).andThen ends_readPointerList

theorem ends_readRow (ts : List FieldType) : FailsOnly Error.Fatal (readRow ts : Action σ (Row ts)) := by
  induction ts with
  | nil => exact ends_pure trivial
  | cons t r ih => exact (ends_read t).andThen fun _ => ih.andThen fun _ => ends_pure trivial

end Wire

namespace Message

theorem fits_decode (p : List UInt8) : Fits (fun _ => True) Error.Fatal (decode p) := by
  have hreader : FailsOnly Error.Fatal reader := by
    unfold reader
    refine (Wire.ends_read .u32).andThen fun tag => ?_
    split
    · exact ends_fail rfl
    · refine (Wire.ends_readRow _).andThen fun r => ends_get.andThen fun rest => ?_
      split
      · exact ends_pure trivial
      · exact ends_fail rfl
  exact hreader p

theorem fits_encode (m : Message) : Fits (fun _ => True) Error.Fatal m.encode := by
  rcases writtenIfFits m with ⟨_, p, h⟩ | ⟨n, _, _, h⟩
  · rw [h]
    trivial
  · rw [h]
    rfl

end Message

namespace Channel

theorem ends_ioAction {α : Type} (op : Stream → Except IoError α × Stream) :
    FailsOnly Error.Fatal (ioAction op) := by
  intro c
  unfold ioAction
  split
  · trivial
  · rfl

theorem ends_refuse (direction : String) (size max : Nat) :
    FailsOnly Error.Fatal (refuse direction size max) :=
  (ends_tell _).andThen fun _ => ends_fail rfl

theorem ends_send (m : Message) : FailsOnly Error.Fatal (send m) := by
  unfold send
  refine ends_get.andThen fun c => (ends_ofExcept m.fits_encode).andThen fun p => ?_
  have hrest : FailsOnly Error.Fatal (do
      ioAction (Stream.writeAll (frame p))
      ioAction Stream.flush
      .tell [note "Sent" m p.length]) :=
    (ends_ioAction _).andThen fun _ => (ends_ioAction _).andThen fun _ => ends_tell _
  dsimp only
  split
  · exact (ends_refuse _ _ _).andThen fun _ => hrest
  · exact hrest

theorem ends_receive : FailsOnly Error.Fatal receive := by
  unfold receive
  refine ends_get.andThen fun c => ?_
  refine Ends.andThen ((Wire.ends_readNat 4).on _ _) fun size => ?_
  have hrest : FailsOnly Error.Fatal (do
      let payload ← ofSource (Wire.exactly size)
      let m ← Action.ofExcept (Message.decode payload)
      .tell [note "Received" m size]
      return m) := by
    refine Ends.andThen ((Wire.ends_exactly size).on _ _) fun p => ?_
    refine (ends_ofExcept (Message.fits_decode p)).andThen fun m => ?_
    exact (ends_tell _).andThen fun _ => ends_pure trivial
  dsimp only
  split
  · exact (ends_refuse _ _ _).andThen fun _ => hrest
  · exact hrest

end Channel

end RemoteAgent
