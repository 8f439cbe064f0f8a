import RemoteAgent.Message.Codec
import RemoteAgent.Proofs.Wire.Writing

/-! Messages and their payloads. A message has a payload unless one of its fields has too many
elements, and that payload is read back as the message; a byte string that is read as a message is
its payload, but for the byte of a true success flag. -/

namespace RemoteAgent.Message

open Wire

/-- The numbers of elements of the fields of variable length. -/
def elementCounts : Message → List Nat
  | statusWithValue _ v => [v.length]
  | writeMemory _ d => [d.length]
  | callFunction _ as => [as.length]
  | createFunction s _ => [s.utf8ByteSize]
  | freeFunction s => [s.utf8ByteSize]
  | remoteCall s as => [s.utf8ByteSize, as.length]
  | _ => []

theorem counts_row (m : Message) : Row.counts m.kind.layout m.row = m.elementCounts := by
  cases m <;> rfl

theorem encode_eq_ok_iff {m : Message} {p : List UInt8} :
    m.encode = .ok p ↔ ∃ fields, encodeRow m.kind.layout m.row = .ok fields ∧
      p = leBytes 4 m.kind.tag.toNat ++ fields := by
  unfold encode
  rw [Error.bind_eq_ok_iff]
  constructor
  · rintro ⟨fields, hf, h⟩
    cases h
    exact ⟨fields, hf, rfl⟩
  · rintro ⟨fields, hf, rfl⟩
    exact ⟨fields, hf, rfl⟩

theorem writtenIfFits (m : Message) : WrittenIfFits m.elementCounts m.encode := by
  rw [← counts_row]
  rcases writtenIfFits_encodeRow m.kind.layout m.row with ⟨hn, fields, hf⟩ | ⟨n, hn, hlt, he⟩
  · exact .inl ⟨hn, _, encode_eq_ok_iff.2 ⟨fields, hf, rfl⟩⟩
  · exact .inr ⟨n, hn, hlt, by rw [encode, he]; rfl⟩

def Spells (m : Message) (p : List UInt8) : Prop :=
  ∃ fields, SpellsRow m.kind.layout m.row fields ∧ p = leBytes 4 m.kind.tag.toNat ++ fields

theorem spells_of_encode {m : Message} {p : List UInt8} (h : m.encode = .ok p) : m.Spells p := by
  obtain ⟨fields, hf, rfl⟩ := encode_eq_ok_iff.1 h
  exact ⟨fields, spellsRow_of_encodeRow hf, rfl⟩

theorem spellsRow_ofRow {k : Kind} {vs : Row k.layout} {fields : List UInt8} :
    SpellsRow (ofRow k vs).kind.layout (ofRow k vs).row fields ↔ SpellsRow k.layout vs fields := by
  cases k <;> exact Iff.rfl

def leading : Action (List UInt8) Message := do
  let tag ← Wire.read .u32
  match Kind.ofTag? tag with
  | none => .fail (.unknownMessageType tag)
  | some k => do return ofRow k (← readRow k.layout)

def whole (m : Message) : Action (List UInt8) Message := do
  let rest ← Action.get
  if rest = [] then pure m else .fail (.protocol (.trailing rest.length m.kind))

theorem reader_eq : reader = leading >>= whole := by
  unfold reader leading
  rw [bind_assoc]
  refine congrArg _ (funext fun tag => ?_)
  cases Kind.ofTag? tag with
  | none => rfl
  | some k => simp only [bind_assoc, pure_bind, whole, kind_ofRow]

theorem whole_apply (m : Message) (rest : List UInt8) : whole m rest =
    if rest = [] then ⟨.ok m, rest, []⟩
    else ⟨.error (.protocol (.trailing rest.length m.kind)), rest, []⟩ := by
  rw [whole, Action.bind_of_ok (Action.get_apply rest)]
  split <;> rfl

theorem reads_leading : Reads leading Spells := by
  have hk : ∀ tag : UInt32, Reads (match Kind.ofTag? tag with
      | none => .fail (.unknownMessageType tag)
      | some k => do return ofRow k (← readRow k.layout))
      fun m bs => m.kind.tag = tag ∧ SpellsRow m.kind.layout m.row bs := by
    intro tag
    cases hc : Kind.ofTag? tag with
    | none =>
      refine (Reads.fail _).congr fun m bs => ⟨False.elim, fun h => ?_⟩
      rw [Kind.ofTag?_eq_some_iff.2 h.1] at hc
      cases hc
    | some k =>
      refine ((reads_row k.layout).map (ofRow k)).congr fun m bs => ⟨?_, ?_⟩
      · rintro ⟨vs, rfl, hs⟩
        have hm : (ofRow k vs).kind = k := kind_ofRow k vs
        exact ⟨hm.symm ▸ Kind.tag_of_ofTag? hc, spellsRow_ofRow.2 hs⟩
      · rintro ⟨rfl, hs⟩
        rw [Kind.ofTag?_tag] at hc
        cases hc
        exact ⟨m.row, (ofRow_row m).symm, hs⟩
  -- The tag is that of the kind, so it need not be part of what the fields spell.
  refine ((reads_field .u32).bind hk).congr fun m p => ⟨?_, ?_⟩
  · rintro ⟨tag, front, fields, rfl, ht, rfl, hs⟩
    cases ht
    exact ⟨fields, hs, rfl⟩
  · rintro ⟨fields, hs, rfl⟩
    exact ⟨m.kind.tag, _, fields, rfl, rfl, rfl, hs⟩

theorem reader_of_spells {m : Message} {p : List UInt8} (h : m.Spells p) (rest : List UInt8) :
    reader (p ++ rest) =
      if rest = [] then ⟨.ok m, rest, []⟩
      else ⟨.error (.protocol (.trailing rest.length m.kind)), rest, []⟩ := by
  rw [reader_eq, Action.bind_of_ok (reads_leading.complete m p rest h), whole_apply]
  split <;> rfl

theorem decode_of_spells {m : Message} {p : List UInt8} (h : m.Spells p) : decode p = .ok m := by
  have hr := reader_of_spells h []
  rw [List.append_nil, if_pos rfl] at hr
  rw [decode, hr]

theorem decode_eq_ok_iff {m : Message} {p : List UInt8} : decode p = .ok m ↔ m.Spells p := by
  refine ⟨fun h => ?_, decode_of_spells⟩
  rw [decode, reader_eq] at h
  cases hl : leading p with
  | mk r rest es =>
    cases r with
    | error e =>
      rw [Action.bind_of_error hl] at h
      cases h
    | ok m' =>
      rw [Action.bind_of_ok hl, whole_apply] at h
      obtain ⟨front, hs, hp⟩ := reads_leading.sound p m' (by rw [hl])
      rw [hl] at hp
      by_cases hrest : rest = []
      · rw [if_pos hrest] at h
        cases h
        dsimp only at hp
        rw [hp, hrest, List.append_nil]
        exact hs
      · rw [if_neg hrest] at h
        cases h

/-- A payload ends where its fields do: nothing can be read from a proper front part of it. -/
theorem decode_take_of_spells {m : Message} {p : List UInt8} (h : m.Spells p) {n : Nat}
    (hn : n < p.length) : ∃ e, decode (p.take n) = .error e := by
  -- If a message ended there, the bytes behind it would be left over in `p`.
  cases hd : decode (p.take n) with
  | error e => exact ⟨e, rfl⟩
  | ok m' =>
    have hdrop : p.drop n ≠ [] := by
      rw [ne_eq, List.drop_eq_nil_iff]
      exact Nat.not_le.2 hn
    have hr := reader_of_spells (decode_eq_ok_iff.1 hd) (p.drop n)
    rw [List.take_append_drop, if_neg hdrop] at hr
    have hp := decode_of_spells h
    rw [decode, hr] at hp
    cases hp

theorem encode_statusWithValue (b : Bool) {v : List UInt8} (hv : v.length < 2 ^ 32) :
    ∃ p, (statusWithValue b v).encode = .ok p ∧ p.length = valueOverhead + v.length := by
  have hblob : encodeBlob v = .ok (leBytes 4 v.length ++ v) :=
    counted_eq_ok_iff.2 ⟨_, encodeLength_eq_ok_iff.2 ⟨hv, rfl⟩, rfl⟩
  have hrow : encodeRow [.bool, .bytes] (b, v, ()) =
      .ok ([if b then 1 else 0] ++ (leBytes 4 v.length ++ v ++ [])) :=
    encodeRow_cons_eq_ok_iff.2 ⟨_, _, rfl, rfl, encodeRow_cons_eq_ok_iff.2 ⟨_, _, rfl, hblob, rfl⟩⟩
  refine ⟨_, encode_eq_ok_iff.2 ⟨_, hrow, rfl⟩, ?_⟩
  simp only [List.length_append, length_leBytes, List.length_cons, List.length_nil, valueOverhead]
  omega

end RemoteAgent.Message
