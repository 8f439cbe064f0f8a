import RemoteAgent.Proofs.Agent.Failed
import RemoteAgent.Proofs.Memory.Copies

/-! Copies through the dispatcher: the replies are what the engine does, but a range is not read whose
bytes a reply has no room for. -/

namespace RemoteAgent

open RemoteAgent.Action Memory

namespace Context

def Exceeds (c : Context) (size : UInt32) : Prop :=
  0 < size.toNat ∧ c.config.channel.maxMessageSize < 9 + size.toNat

theorem exceeds_iff {c : Context} {size : UInt32} : c.Exceeds size ↔
    Message.maxValueLength c.config.channel.maxMessageSize < size.toNat := by
  unfold Exceeds Message.maxValueLength Message.valueOverhead
  omega

def readReply (c : Context) (address : UInt64) (size : UInt32) : Message :=
  if size.toNat > Message.maxValueLength c.config.channel.maxMessageSize then .statusWithValue false []
  else match (Engine.read address.toNat size.toNat c.memory).result with
    | .ok bytes => .statusWithValue true bytes
    | .error _ => .statusWithValue false []

theorem result_readMemory (c : Context) (address : UInt64) (size : UInt32) :
    (readMemory address size c).result = .ok (c.readReply address size) := by
  have hread : (inMemory (Engine.read address.toNat size.toNat) c).result =
      (Engine.read address.toNat size.toNat c.memory).result := rfl
  rw [readMemory, readReply, bind_of_ok (get_apply c)]
  dsimp only
  split
  · rfl
  · rw [bind_of_ok (attempt_apply _ c), hread]
    cases (Engine.read address.toNat size.toNat c.memory).result with
    | ok bytes => rfl
    | error e => rfl

theorem result_handle_readMemory (c : Context) (address : UInt64) (size : UInt32) :
    (handle (.readMemory address size) c).result =
      .ok { response := some (c.readReply address size) } :=
  handle_of_reply? rfl (result_readMemory c address size)

/-- What the dispatcher makes of requests to copy. -/
structure Relays (c : Context) : Prop where
  unread_iff : ∀ (address : UInt64) (size : UInt32),
    (handle (.readMemory address size) c).result =
        .ok { response := some (.statusWithValue false []) } ↔
      c.Exceeds size ∨ ∃ e, (Engine.read address.toNat size.toNat c.memory).result = .error e
  read_iff : ∀ (address : UInt64) (size : UInt32) (bytes : List UInt8),
    (handle (.readMemory address size) c).result =
        .ok { response := some (.statusWithValue true bytes) } ↔
      ¬ c.Exceeds size ∧ (Engine.read address.toNat size.toNat c.memory).result = .ok bytes
  written : ∀ (address : UInt64) (data : List UInt8),
    (handle (.writeMemory address data) c).result =
        .ok { response := some (.status (Engine.write address.toNat data c.memory).result.isOk) } ∧
      (handle (.writeMemory address data) c).state =
        { c with memory := (Engine.write address.toNat data c.memory).state }

theorem relays (c : Context) : Relays c where
  unread_iff := by
    intro address size
    rw [result_handle_readMemory, exceeds_iff, readReply]
    by_cases hlong : size.toNat > Message.maxValueLength c.config.channel.maxMessageSize
    · rw [if_pos hlong]
      exact iff_of_true rfl (.inl hlong)
    · rw [if_neg hlong]
      cases (Engine.read address.toNat size.toNat c.memory).result with
      | ok bytes => exact iff_of_false nofun (not_or.2 ⟨hlong, nofun⟩)
      | error e => exact iff_of_true rfl (.inr ⟨e, rfl⟩)
  read_iff := by
    intro address size bytes
    rw [result_handle_readMemory, exceeds_iff, readReply]
    by_cases hlong : size.toNat > Message.maxValueLength c.config.channel.maxMessageSize
    · rw [if_pos hlong]
      exact iff_of_false nofun fun h => h.1 hlong
    · rw [if_neg hlong]
      cases (Engine.read address.toNat size.toNat c.memory).result with
      | ok bytes' =>
        constructor
        · intro h
          cases h
          exact ⟨hlong, rfl⟩
        · rintro ⟨-, h⟩
          cases h
          rfl
      | error e => exact iff_of_false nofun nofun
  written := by
    intro address data
    exact handle_of_status (m := .writeMemory address data) rfl c

/-- Reading and writing are verbatim, in whatever memory an agent has: the copies succeed exactly where
the check accepts the range and no byte of it traps, reading gives the bytes of the range, writing puts
the data in their place and nothing anywhere else, and the replies of the dispatcher say so, but for
ranges with more bytes than a reply has room for, which are not read. -/
theorem copies_verbatim (c : Context) :
    (∀ address length, Reads c.memory address length) ∧
      (∀ address data, Writes c.memory address data) ∧ Relays c :=
  ⟨reads c.memory, writes c.memory, relays c⟩

/-- An agent whose limit on messages leaves no room for a reply with a value. -/
def cramped : Context where
  config := { channel := { socketDir := "/tmp", maxMessageSize := 8 } }
  memory :=
    { areas := [⟨0x200000000000, 0x200000002000, ⟨true, true, false, false⟩, .anonymous⟩] }

/-- No bytes are read although nine bytes for the rest of the reply are more than the limit. -/
theorem read_nothing_cramped : cramped.config.channel.maxMessageSize < 9 + (0 : UInt32).toNat ∧
    (handle (.readMemory 0x200000000000 0) cramped).result =
      .ok { response := some (.statusWithValue true []) } := by
  refine ⟨by decide, ?_⟩
  rw [(relays cramped).read_iff]
  refine ⟨fun h => absurd h.1 (by decide), ?_⟩
  cbv

end Context

end RemoteAgent
