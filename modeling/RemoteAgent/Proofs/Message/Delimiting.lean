import RemoteAgent.Proofs.Message.Payload
import RemoteAgent.Proofs.Wire.Shortage

/-! Payloads show by themselves where they end. A byte string that is no payload either breaks off, or
begins with a number that is the tag of no kind, or has a text that is none, or goes on behind its
last field; which of these it is can be told from the failure. -/

namespace RemoteAgent.Message

open RemoteAgent.Action Wire

theorem Kind.exists_tag_iff {tag : UInt32} :
    (∃ k : Kind, k.tag = tag) ↔ 1 ≤ tag.toNat ∧ tag.toNat ≤ 16 := by
  constructor
  · rintro ⟨k, rfl⟩
    cases k <;> decide
  · intro h
    have hall : ∀ n < 17, 1 ≤ n → ∃ k ∈ Kind.all, k.tag.toNat = n := by decide
    obtain ⟨k, -, hk⟩ := hall tag.toNat (by omega) h.1
    exact ⟨k, UInt32.toNat_inj.1 hk⟩

theorem Kind.ofTag?_eq_none_iff {tag : UInt32} :
    Kind.ofTag? tag = none ↔ ¬ (1 ≤ tag.toNat ∧ tag.toNat ≤ 16) := by
  rw [← Kind.exists_tag_iff, Option.eq_none_iff_forall_ne_some]
  simp only [ne_eq, Kind.ofTag?_eq_some_iff, not_exists]

/-- The faults of the bytes that are read before the end is looked for. -/
inductive Malformed : Error → Prop
  | unknownTag (tag : UInt32) (h : Kind.ofTag? tag = none) : Malformed (.unknownMessageType tag)
  | invalidText (fault : Text.Utf8Fault) : Malformed (.protocol (.invalidText fault))

theorem faults_known (k : Kind) :
    Faults InvalidText (do return ofRow k (← readRow k.layout) : Action (List UInt8) Message) :=
  (faults_row k.layout).map (reads_row k.layout) (ofRow k)

theorem faults_leading : Faults Malformed leading := by
  have htag : Faults Malformed (Wire.read .u32) :=
    (faults_nat 4).map (reads_nat 4) UInt32.ofNat
  refine htag.bind (reads_field .u32) fun tag => ?_
  cases h : Kind.ofTag? tag with
  | none => exact .fail (.unknownTag tag h)
  | some k =>
    refine (faults_known k).mono ?_
    rintro e ⟨fault, rfl⟩
    exact .invalidText fault

variable {p q : List UInt8} {m : Message} {e : Error}

theorem decode_of_leading_eq_error (h : (leading p).result = .error e) : decode p = .error e := by
  rw [decode, reader_eq]
  exact (bind_of_failure h).1

theorem decode_cases (p : List UInt8) : (∃ m : Message, m.Spells p ∧ decode p = .ok m) ∨
    (∃ (m : Message) (front rest : List UInt8), m.Spells front ∧ rest ≠ [] ∧ p = front ++ rest ∧
      decode p = .error (.protocol (.trailing rest.length m.kind))) ∨
    ∃ e, (leading p).result = .error e ∧ decode p = .error e := by
  cases hl : (leading p).result with
  | error e => exact .inr (.inr ⟨e, rfl, decode_of_leading_eq_error hl⟩)
  | ok m =>
    obtain ⟨front, hs, hp⟩ := reads_leading.sound p m hl
    by_cases hrest : (leading p).state = []
    · rw [hrest, List.append_nil] at hp
      exact .inl ⟨m, hp ▸ hs, decode_of_spells (hp ▸ hs)⟩
    · have hr := reader_of_spells hs (leading p).state
      rw [if_neg hrest, ← hp] at hr
      exact .inr (.inl ⟨m, front, _, hs, hrest, hp, by rw [decode, hr]⟩)

theorem runsOut_of_prefix (h : decode p = .ok m) (hq : q <+: p) (hne : q ≠ p) :
    ∃ cause, decode q = .error (.channelIo cause) ∧ cause.kind = .unexpectedEof := by
  obtain ⟨rest, rfl⟩ := hq
  have hrest : rest ≠ [] := fun hnil => hne (by rw [hnil, List.append_nil])
  cases hl : (leading q).result with
  | ok m' =>
    -- a message that ends there would have the rest behind it
    obtain ⟨front, hs, hq⟩ := reads_leading.sound q m' hl
    have hr := reader_of_spells hs ((leading q).state ++ rest)
    have hbehind : (leading q).state ++ rest ≠ [] := fun hnil =>
      hrest (List.append_eq_nil_iff.1 hnil).2
    rw [if_neg hbehind, ← List.append_assoc, ← hq] at hr
    rw [decode, hr] at h
    cases h
  | error e =>
    rcases faults_leading q e hl with ⟨cause, rfl, hkind⟩ | ⟨-, hstays⟩
    · exact ⟨cause, decode_of_leading_eq_error hl, hkind⟩
    · rw [decode_of_leading_eq_error (hstays rest)] at h
      cases h

theorem decode_append (h : decode p = .ok m) {rest : List UInt8} (hrest : rest ≠ []) :
    decode (p ++ rest) = .error (.protocol (.trailing rest.length m.kind)) := by
  rw [decode, reader_of_spells (decode_eq_ok_iff.1 h) rest, if_neg hrest]

def firstNumber (p : List UInt8) : UInt32 := .ofNat (leValue (p.take 4))

theorem toNat_firstNumber (p : List UInt8) : (firstNumber p).toNat = leValue (p.take 4) := by
  have hlen : (p.take 4).length ≤ 4 := List.length_take_le 4 p
  have hlt : leValue (p.take 4) < 256 ^ 4 :=
    Nat.lt_of_lt_of_le (leValue_lt _) (Nat.pow_le_pow_right (by decide) hlen)
  exact UInt32.toNat_ofNat_of_lt' hlt

theorem leading_eq (h : 4 ≤ p.length) :
    leading p = (match Kind.ofTag? (firstNumber p) with
      | none => .fail (.unknownMessageType (firstNumber p))
      | some k => do return ofRow k (← readRow k.layout) : Action (List UInt8) Message)
        (p.drop 4) := by
  have hbytes : Wire.Spells .u32 (firstNumber p) (p.take 4) := by
    have hle := leBytes_leValue (p.take 4)
    rw [List.length_take_of_le h] at hle
    show Except.ok (leBytes 4 (firstNumber p).toNat) = Except.ok (p.take 4)
    rw [toNat_firstNumber, hle]
  have hread := (reads_field .u32).complete _ _ (p.drop 4) hbytes
  rw [List.take_append_drop] at hread
  rw [leading, bind_of_ok hread]
  rfl

theorem runsOut_of_lt (h : p.length < 4) :
    ∃ cause, decode p = .error (.channelIo cause) ∧ cause.kind = .unexpectedEof := by
  cases hread : (Wire.read .u32 p).result with
  | ok tag =>
    obtain ⟨front, hfront, hp⟩ := (reads_field .u32).sound p tag hread
    cases hfront
    rw [hp, List.length_append, length_leBytes] at h
    omega
  | error e =>
    have htag : Faults (fun _ => False) (Wire.read .u32) :=
      (faults_nat 4).map (reads_nat 4) UInt32.ofNat
    have hl : (leading p).result = .error e := (bind_of_failure hread).1
    rcases htag p e hread with ⟨cause, rfl, hkind⟩ | ⟨hfalse, -⟩
    · exact ⟨cause, decode_of_leading_eq_error hl, hkind⟩
    · exact hfalse.elim

theorem ne_unknown_of_known {k : Kind} (hle : 4 ≤ p.length)
    (hk : Kind.ofTag? (firstNumber p) = some k) (tag : UInt32) :
    decode p ≠ .error (.unknownMessageType tag) := by
  intro h
  rcases decode_cases p with ⟨m, -, hm⟩ | ⟨m, _, rest, -, -, -, hm⟩ | ⟨e, hl, he⟩
  · rw [hm] at h
    cases h
  · rw [hm] at h
    cases h
  · rw [he] at h
    cases h
    rw [leading_eq hle, hk] at hl
    rcases faults_known k _ _ hl with ⟨_, hcause, -⟩ | ⟨⟨_, hfault⟩, -⟩
    · cases hcause
    · cases hfault

theorem decode_eq_unknown_iff {tag : UInt32} : decode p = .error (.unknownMessageType tag) ↔
    4 ≤ p.length ∧ leValue (p.take 4) = tag.toNat ∧ ¬ (1 ≤ tag.toNat ∧ tag.toNat ≤ 16) := by
  rcases Nat.lt_or_ge p.length 4 with hlt | hle
  · obtain ⟨cause, hdecode, -⟩ := runsOut_of_lt hlt
    rw [hdecode]
    exact iff_of_false (fun h => by cases h) fun h => absurd h.1 (Nat.not_le.2 hlt)
  · rw [← toNat_firstNumber, UInt32.toNat_inj, ← Kind.ofTag?_eq_none_iff]
    cases hk : Kind.ofTag? (firstNumber p) with
    | none =>
      have hl : (leading p).result = .error (.unknownMessageType (firstNumber p)) := by
        rw [leading_eq hle, hk]
        rfl
      rw [decode_of_leading_eq_error hl]
      constructor
      · intro h
        cases h
        exact ⟨hle, rfl, hk⟩
      · rintro ⟨-, rfl, -⟩
        rfl
    | some k =>
      refine iff_of_false (ne_unknown_of_known hle hk tag) ?_
      rintro ⟨-, rfl, hnone⟩
      rw [hk] at hnone
      cases hnone

section Text

theorem takeWhile_toString (n : Nat) (cs : List Char) :
    ((toString n).toList ++ ' ' :: cs).takeWhile (· ≠ ' ') = (toString n).toList := by
  rw [Nat.toString_eq_ofList_toDigits, String.toList_ofList, List.takeWhile_append_of_pos]
  · exact List.append_nil _
  · intro c hc
    have hdigit := Nat.isDigit_of_mem_toDigits (by decide) (by decide) hc
    refine decide_eq_true fun hblank => ?_
    rw [hblank] at hdigit
    exact absurd hdigit (by decide)

theorem toString_inj {n n' : Nat} (h : toString n = toString n') : n = n' := by
  rw [Nat.toString_eq_ofList_toDigits, Nat.toString_eq_ofList_toDigits] at h
  have hdigits := congrArg (Nat.ofDigitChars 10 · 0) (String.ofList_injective h)
  rw [Nat.ofDigitChars_toDigits (by decide) (by decide),
    Nat.ofDigitChars_toDigits (by decide) (by decide)] at hdigits
  exact hdigits

theorem Kind.name_injective : Function.Injective Kind.name := by
  have hname : ∀ k : Kind, Kind.ofName? k.name = some k := by
    intro k
    cases k <;> decide
  intro k k' h
  exact Option.some.inj ((hname k).symm.trans ((congrArg _ h).trans (hname k')))

theorem trailing_message_inj {n n' : Nat} {k k' : Kind}
    (h : (ProtocolFault.trailing n k).message = (ProtocolFault.trailing n' k').message) :
    n = n' ∧ k = k' := by
  have hblank : " trailing bytes after ".toList = ' ' :: "trailing bytes after ".toList := by decide
  have hlist : ∀ (n : Nat) (k : Kind), (ProtocolFault.trailing n k).message.toList =
      (toString n).toList ++ ' ' :: ("trailing bytes after ".toList ++ k.name.toList) := by
    intro n k
    show (toString n ++ " trailing bytes after " ++ k.name).toList = _
    rw [String.toList_append, String.toList_append, hblank, List.append_assoc, List.cons_append]
  have hlists := congrArg String.toList h
  rw [hlist, hlist] at hlists
  have hnumber := congrArg (List.takeWhile (· ≠ ' ')) hlists
  rw [takeWhile_toString, takeWhile_toString] at hnumber
  rw [hnumber] at hlists
  exact ⟨toString_inj (String.toList_inj.1 hnumber), Kind.name_injective
    (String.toList_inj.1 (List.append_cancel_left (List.cons.inj (List.append_cancel_left hlists)).2))⟩

end Text

/-- A payload is told from each of its proper front parts and from all that it is a proper front part
of, and every byte string that is no payload shows why. -/
theorem decode_delimited (p : List UInt8) :
    (∀ m, decode p = .ok m →
      (∀ q, q <+: p → q ≠ p →
        ∃ cause, decode q = .error (.channelIo cause) ∧ cause.kind = .unexpectedEof) ∧
      ∀ rest, rest ≠ [] →
        decode (p ++ rest) = .error (.protocol (.trailing rest.length m.kind)) ∧
        ∀ n k, (ProtocolFault.trailing n k).message =
          (ProtocolFault.trailing rest.length m.kind).message → n = rest.length ∧ k = m.kind) ∧
    ((∃ m, decode p = .ok m) ∨
      (∃ cause, decode p = .error (.channelIo cause) ∧ cause.kind = .unexpectedEof) ∨
      (∃ tag, decode p = .error (.unknownMessageType tag)) ∨
      ∃ fault, decode p = .error (.protocol fault)) ∧
    ∀ tag, decode p = .error (.unknownMessageType tag) ↔
      4 ≤ p.length ∧ leValue (p.take 4) = tag.toNat ∧ ¬ (1 ≤ tag.toNat ∧ tag.toNat ≤ 16) := by
  refine ⟨fun m hm => ⟨fun q => runsOut_of_prefix hm, fun rest hrest =>
    ⟨decode_append hm hrest, fun _ _ => trailing_message_inj⟩⟩, ?_, fun tag => decode_eq_unknown_iff⟩
  · rcases decode_cases p with ⟨m, -, hm⟩ | ⟨m, -, rest, -, -, -, hm⟩ | ⟨e, hl, he⟩
    · exact .inl ⟨m, hm⟩
    · exact .inr (.inr (.inr ⟨_, hm⟩))
    · rcases faults_leading p e hl with ⟨cause, rfl, hkind⟩ | ⟨hbad, -⟩
      · exact .inr (.inl ⟨cause, he, hkind⟩)
      · cases hbad with
        | unknownTag tag _ => exact .inr (.inr (.inl ⟨tag, he⟩))
        | invalidText fault => exact .inr (.inr (.inr ⟨_, he⟩))

end RemoteAgent.Message
