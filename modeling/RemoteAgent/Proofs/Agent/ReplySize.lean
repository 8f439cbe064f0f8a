import RemoteAgent.Proofs.Agent.Replies
import RemoteAgent.Proofs.Channel.Framing
import RemoteAgent.Proofs.Config.Checks
import RemoteAgent.Proofs.Text.Size

/-! The sizes of the dispatcher's replies, compared with the limit on messages. All of them fit but two:
the texts about a function that cannot be made, as it has too many arguments or there is no room for it,
are longer than the least limits. -/

namespace RemoteAgent

open Text Wire

theorem Error.size_message_of_isTrap {e : Error} (h : e.IsTrap) : e.message.utf8ByteSize ≤ 50 := by
  obtain ⟨signal, a, rfl, hsignal, ha⟩ := h
  have hhex : (hex a).utf8ByteSize ≤ 2 + 16 := utf8ByteSize_hex_le (by decide) ha
  have hnumber : (toString signal).utf8ByteSize ≤ 2 := by
    rcases hsignal with rfl | rfl <;> decide
  have hwords : "Access violation at ".utf8ByteSize + " (signal ".utf8ByteSize +
      ")".utf8ByteSize = 30 := by decide
  change ("Access violation at " ++ hex a ++ " (signal " ++ toString signal ++ ")").utf8ByteSize ≤ _
  simp only [String.utf8ByteSize_append]
  omega

theorem ResourceFault.size_tooManyArguments (count limit : Nat) :
    (tooManyArguments count limit).message.utf8ByteSize = digits count + 32 + digits limit := by
  have hwords : " arguments exceeds the limit of ".utf8ByteSize = 32 := by decide
  change (toString count ++ " arguments exceeds the limit of " ++ toString limit).utf8ByteSize = _
  rw [String.utf8ByteSize_append, String.utf8ByteSize_append, hwords, digits, digits]

theorem Error.size_tooManyArguments (count : Nat) :
    (Error.resourceExhausted (.tooManyArguments count Native.maxArity)).message.utf8ByteSize =
      54 + digits count := by
  have hwords : "Resource exhausted: ".utf8ByteSize = 20 := by decide
  have hlimit : digits Native.maxArity = 2 := by decide
  change ("Resource exhausted: " ++ ResourceFault.message _).utf8ByteSize = _
  rw [String.utf8ByteSize_append, ResourceFault.size_tooManyArguments, hwords, hlimit]
  omega

theorem Error.size_noClosure :
    (Error.resourceExhausted .noClosure).message.utf8ByteSize = 57 := by decide

theorem digits_uint32_le (n : UInt32) : digits n.toNat ≤ 10 := by
  have hn : n.toNat < 2 ^ 32 := n.toNat_lt
  have hten : (2 : Nat) ^ 32 ≤ 10 ^ 10 := by decide
  exact (digits_le_iff (by decide)).2 (Nat.lt_of_lt_of_le hn hten)

namespace Message

theorem length_encode_status {b : Bool} : ∃ q, (status b).encode = .ok q ∧ q.length = 5 := by
  cases b <;> exact ⟨_, rfl, rfl⟩

theorem length_encode_pointerValue (a : UInt64) :
    ∃ q, (pointerValue a).encode = .ok q ∧ q.length = 17 := by
  have hlength : (encodePointer a).length = 8 := length_leBytes 8 a.toNat
  obtain ⟨q, hq, hsize⟩ := encode_statusWithValue true (v := encodePointer a) (by omega)
  exact ⟨q, hq, by rw [hsize, hlength]; rfl⟩

theorem length_encode_failureText (text : String) (h : text.utf8ByteSize < 2 ^ 32) :
    ∃ q, (failureText text).encode = .ok q ∧ q.length = 9 + text.utf8ByteSize := by
  obtain ⟨q, hq, hsize⟩ := encode_statusWithValue false (v := Utf8.encode text) h
  exact ⟨q, hq, hsize⟩

theorem length_flatMap_encodePointer (args : List UInt64) :
    (args.flatMap encodePointer).length = 8 * args.length := by
  induction args with
  | nil => rfl
  | cons a r ih =>
    have ha : (encodePointer a).length = 8 := length_leBytes 8 a.toNat
    rw [List.flatMap_cons, List.length_append, ha, ih, List.length_cons]
    omega

theorem length_of_encode_callFunction {address : UInt64} {args : List UInt64} {p : List UInt8}
    (h : (callFunction address args).encode = .ok p) :
    args.length < 2 ^ 32 ∧ p.length = 16 + 8 * args.length := by
  obtain ⟨fields, hfields, rfl⟩ := encode_eq_ok_iff.1 h
  obtain ⟨front, back, rfl, hfront, hback⟩ := encodeRow_cons_eq_ok_iff.1 hfields
  obtain ⟨list, rest, rfl, hlist, hrest⟩ := encodeRow_cons_eq_ok_iff.1 hback
  obtain ⟨count, hcount, rfl⟩ := counted_eq_ok_iff.1 hlist
  obtain ⟨hlt, rfl⟩ := encodeLength_eq_ok_iff.1 hcount
  cases hfront
  cases hrest
  have ha : (encodePointer address).length = 8 := length_leBytes 8 address.toNat
  refine ⟨hlt, ?_⟩
  simp only [List.length_append, length_leBytes, length_flatMap_encodePointer, ha, List.length_nil]
  omega

end Message

namespace Context

variable {c : Context} {m r : Message} {p : List UInt8}

theorem size_message_of_callFails {count : Nat} {e : Error} (h : CallFails count e)
    (hcount : count < 2 ^ 32) :
    e.message.utf8ByteSize ≤ 64 ∧ 9 + e.message.utf8ByteSize ≤ max 64 (16 + 8 * count) := by
  rcases h with rfl | htrap | ⟨hlt, rfl⟩
  · have hsize : (Error.invalidAddress 0).message.utf8ByteSize = 20 := by decide
    omega
  · have hsize := Error.size_message_of_isTrap htrap
    omega
  · have hsize := Error.size_tooManyArguments count
    have hdigits : digits count ≤ 10 :=
      (digits_le_iff (by decide)).2 (Nat.lt_of_lt_of_le hcount (by decide))
    have hmany : 64 < count := hlt
    omega

/-- A request for a function that is refused with a text that is over the limit. -/
inductive Overlong (c : Context) : Message → Prop
  | tooMany (name : String) (count : UInt32) (hnew : c.functions.find? name = none)
    (hcount : Native.maxArity < count.toNat)
    (hmax : c.config.channel.maxMessageSize < 63 + digits count.toNat) :
    Overlong c (.createFunction name count)
  | noRoom (name : String) (count : UInt32) (hnew : c.functions.find? name = none)
    (hcount : count.toNat ≤ Native.maxArity)
    (hroom : c.functions.hasRoom c.functions.tried = false)
    (hmax : c.config.channel.maxMessageSize < 66) : Overlong c (.createFunction name count)

theorem not_overlong_of_ne (h : ∀ name count, m ≠ .createFunction name count) :
    ¬ c.Overlong m := by
  intro hm
  cases hm with
  | tooMany name count => exact h name count rfl
  | noRoom name count => exact h name count rfl

theorem overlong_iff_of_refusal {name : String} {count : UInt32} {f : ResourceFault}
    (h : c.functions.refusal? name count.toNat = some f) :
    c.Overlong (.createFunction name count) ↔
      c.config.channel.maxMessageSize < 9 + (Error.resourceExhausted f).message.utf8ByteSize := by
  rw [Registry.refusal?] at h
  split at h
  · cases h
  · next hnew =>
    rw [Option.not_isSome_iff_eq_none] at hnew
    split at h
    · next hmany =>
      cases h
      have hsize := Error.size_tooManyArguments count.toNat
      constructor
      · rintro (⟨_, _, _, _, hmax⟩ | ⟨_, _, _, hcount, _, _⟩)
        · omega
        · omega
      · exact fun hmax => .tooMany name count hnew hmany (by omega)
    · next hcount =>
      split at h
      · cases h
      · next hroom =>
        cases h
        rw [Error.size_noClosure]
        constructor
        · rintro (⟨_, _, _, hmany, _⟩ | ⟨_, _, _, _, _, hmax⟩)
          · exact absurd hmany hcount
          · exact hmax
        · exact .noRoom name count hnew (Nat.not_lt.1 hcount) (Bool.not_eq_true _ ▸ hroom)

theorem not_overlong_of_refusal {name : String} {count : UInt32}
    (h : c.functions.refusal? name count.toNat = none) : ¬ c.Overlong (.createFunction name count) := by
  rintro (⟨_, _, hnew, hcount, -⟩ | ⟨_, _, hnew, hcount, hroom, -⟩)
  · rw [Registry.refusal?, hnew, if_neg (by decide), if_pos hcount] at h
    cases h
  · rw [Registry.refusal?, hnew, if_neg (by decide), if_neg (Nat.not_lt.2 hcount), hroom] at h
    cases h

theorem not_overlong_of_le (h : 73 ≤ c.config.channel.maxMessageSize) : ¬ c.Overlong m := by
  intro hm
  cases hm with
  | tooMany name count =>
    have hdigits := digits_uint32_le count
    omega
  | noRoom => omega

def FitsUnlessOverlong (c : Context) (m r : Message) : Prop :=
  ∃ q, r.encode = .ok q ∧ (q.length ≤ c.config.channel.maxMessageSize ↔ ¬ c.Overlong m)

theorem fits_of_short {q : List UInt8} (hq : r.encode = .ok q) (hsize : q.length ≤ 64)
    (hmax : 64 ≤ c.config.channel.maxMessageSize) (hm : ¬ c.Overlong m) :
    c.FitsUnlessOverlong m r :=
  ⟨q, hq, iff_of_true (Nat.le_trans hsize hmax) hm⟩

theorem fits_pointerValue {a : UInt64} (hmax : 64 ≤ c.config.channel.maxMessageSize)
    (hm : ¬ c.Overlong m) : c.FitsUnlessOverlong m (.pointerValue a) := by
  obtain ⟨q, hq, hlength⟩ := Message.length_encode_pointerValue a
  exact fits_of_short hq (by omega) hmax hm

theorem fits_read {address : UInt64} {size : UInt32} {bytes : List UInt8}
    (hbytes : bytes.length = size.toNat)
    (hsize : size.toNat ≤ Message.maxValueLength c.config.channel.maxMessageSize)
    (hmax : 64 ≤ c.config.channel.maxMessageSize) :
    c.FitsUnlessOverlong (.readMemory address size) (.statusWithValue true bytes) := by
  have hlt : bytes.length < 2 ^ 32 := hbytes ▸ size.toNat_lt
  obtain ⟨q, hq, hlength⟩ := Message.encode_statusWithValue true hlt
  rw [Message.maxValueLength, Message.valueOverhead] at hsize
  rw [Message.valueOverhead] at hlength
  have hm : ¬ c.Overlong (.readMemory address size) := not_overlong_of_ne (by rintro _ _ ⟨⟩)
  exact ⟨q, hq, iff_of_true (by omega) hm⟩

theorem fits_uncalled {address : UInt64} {args : List UInt64} {e : Error}
    (hfails : CallFails args.length e) (hp : (Message.callFunction address args).encode = .ok p)
    (hle : p.length ≤ c.config.channel.maxMessageSize)
    (hmax : 64 ≤ c.config.channel.maxMessageSize) :
    c.FitsUnlessOverlong (.callFunction address args) (.failureText e.message) := by
  obtain ⟨hcount, hrequest⟩ := Message.length_of_encode_callFunction hp
  obtain ⟨hshort, htext⟩ := size_message_of_callFails hfails hcount
  obtain ⟨q, hq, hlength⟩ := Message.length_encode_failureText e.message (by omega)
  have hm : ¬ c.Overlong (.callFunction address args) := not_overlong_of_ne (by rintro _ _ ⟨⟩)
  exact ⟨q, hq, iff_of_true (by omega) hm⟩

theorem size_message_of_refusal {r : Registry} {name : String} {count : UInt32} {f : ResourceFault}
    (h : r.refusal? name count.toNat = some f) :
    (Error.resourceExhausted f).message.utf8ByteSize ≤ 64 := by
  rw [Registry.refusal?] at h
  split at h
  · cases h
  · split at h
    · cases h
      have hsize := Error.size_tooManyArguments count.toNat
      have hdigits := digits_uint32_le count
      omega
    · split at h
      · cases h
      · cases h
        have hsize := Error.size_noClosure
        omega

theorem fits_refused {name : String} {count : UInt32} {f : ResourceFault}
    (h : c.functions.refusal? name count.toNat = some f) :
    c.FitsUnlessOverlong (.createFunction name count)
      (.failureText (Error.resourceExhausted f).message) := by
  have htext := size_message_of_refusal h
  obtain ⟨q, hq, hlength⟩ :=
    Message.length_encode_failureText (Error.resourceExhausted f).message (by omega)
  refine ⟨q, hq, ?_⟩
  rw [overlong_iff_of_refusal h, hlength, Nat.not_lt]

theorem Answers.fits (h : Answers c m r) (hmax : 64 ≤ c.config.channel.maxMessageSize)
    (hp : m.encode = .ok p) (hle : p.length ≤ c.config.channel.maxMessageSize) :
    c.FitsUnlessOverlong m r := by
  cases h with
  | status b horder =>
    have hm : ¬ c.Overlong m := not_overlong_of_ne (by rintro _ _ rfl; cases horder)
    obtain ⟨q, hq, hlength⟩ := Message.length_encode_status (b := b)
    exact fits_of_short hq (by omega) hmax hm
  | read address size bytes hbytes hsize => exact fits_read hbytes hsize hmax
  | unread | unallocated | unprotected =>
    exact fits_of_short rfl (by decide) hmax (not_overlong_of_ne (by rintro _ _ ⟨⟩))
  | allocated | called => exact fits_pointerValue hmax (not_overlong_of_ne (by rintro _ _ ⟨⟩))
  | protection address code =>
    have hcode : (leBytes 4 code.toNat).length = 4 := length_leBytes 4 code.toNat
    obtain ⟨q, hq, hlength⟩ := Message.encode_statusWithValue true
      (v := leBytes 4 code.toNat) (by omega)
    rw [hcode, Message.valueOverhead] at hlength
    exact fits_of_short hq (by omega) hmax (not_overlong_of_ne (by rintro _ _ ⟨⟩))
  | uncalled address args e hfails => exact fits_uncalled hfails hp hle hmax
  | created name count a hgiven => exact fits_pointerValue hmax (not_overlong_of_refusal hgiven)
  | noCode name count hgiven =>
    have htext : "Trampoline has no code address".utf8ByteSize = 30 := by decide
    have hlt : "Trampoline has no code address".utf8ByteSize < 2 ^ 32 := by omega
    obtain ⟨q, hq, hlength⟩ := Message.length_encode_failureText _ hlt
    exact fits_of_short hq (by omega) hmax (not_overlong_of_refusal hgiven)
  | refused name count f hrefusal => exact fits_refused hrefusal
  | zero => exact fits_of_short rfl (by decide) hmax (not_overlong_of_ne (by rintro _ _ ⟨⟩))

end Context

namespace Channel

theorem send_eq_frameTooLarge_iff {m : Message} {q : List UInt8} (h : m.encode = .ok q)
    (c : Link) : (∃ size max, (send m c).result = .error (.frameTooLarge size max)) ↔
      c.maxMessageSize < q.length := by
  constructor
  · rintro ⟨size, max, hsend⟩
    apply Nat.not_le.1
    intro hle
    cases hw : c.stream.writeAll (frame q) with
    | mk r s =>
      cases r with
      | ok _ =>
        obtain ⟨es, hes⟩ := send_of_writeAll_eq_ok h hle hw
        rw [hes] at hsend
        cases hf : s.flush.1 with
        | ok _ =>
          rw [hf] at hsend
          cases hsend
        | error e =>
          rw [hf] at hsend
          cases hsend
      | error e =>
        rw [send_of_writeAll_eq_error h hle hw] at hsend
        cases hsend
  · intro hlt
    obtain ⟨es, hes⟩ := send_of_too_large h hlt
    exact ⟨_, _, by rw [hes]⟩

end Channel

namespace Context

/-- Every reply to a request within the limit is within the limit, and sending it is never refused for
its size. The exceptions are the texts about a function that cannot be made: one with too many arguments
needs 63 bytes and one for each digit of their number, and one without room 66. -/
theorem reply_fits_iff {c : Context} {m : Message} {p : List UInt8}
    (hc : c.config.validate = .ok c.config) (hp : m.encode = .ok p)
    (hle : p.length ≤ c.config.channel.maxMessageSize) :
    ∃ h, (handle m c).result = .ok h ∧ (h.response = none ↔ m.isResponse = true) ∧
      ∀ r, h.response = some r → ∃ q, r.encode = .ok q ∧
        (q.length ≤ c.config.channel.maxMessageSize ↔ ¬ c.Overlong m) ∧
        ∀ link : Channel.Link, link.maxMessageSize = c.config.channel.maxMessageSize →
          ((∃ size max, (Channel.send r link).result = .error (.frameTooLarge size max)) ↔
            c.Overlong m) := by
  obtain ⟨⟨-, hmax⟩, -⟩ := Config.validate_eq_ok_iff.1 hc
  have hhandle := fits_handle m c
  cases hr : (handle m c).result with
  | error e =>
    rw [hr] at hhandle
    exact hhandle.elim
  | ok h =>
    rw [hr] at hhandle
    obtain ⟨-, hnone, hanswers⟩ := hhandle
    refine ⟨h, rfl, hnone, fun r hresponse => ?_⟩
    obtain ⟨q, hq, hiff⟩ := (hanswers r hresponse).fits hmax hp hle
    refine ⟨q, hq, hiff, fun link hlink => ?_⟩
    rw [Channel.send_eq_frameTooLarge_iff hq, hlink, ← Nat.not_le, hiff, Classical.not_not]

/-- An agent with the least limit, at its start. -/
def tight : Context := { config := { channel := { socketDir := "/tmp", maxMessageSize := 64 } } }

theorem length_encode_createFunction :
    ∃ p, (Message.createFunction "f" 65).encode = .ok p ∧ p.length = 13 := ⟨_, rfl, by decide⟩

theorem reply_fits_iff_tight :
    tight.config.validate = .ok tight.config ∧ ∃ p, (Message.createFunction "f" 65).encode = .ok p ∧
      p.length ≤ tight.config.channel.maxMessageSize ∧
      ∃ h, (handle (.createFunction "f" 65) tight).result = .ok h ∧
        ∀ r, h.response = some r → ∃ q, r.encode = .ok q ∧
          (q.length ≤ tight.config.channel.maxMessageSize ↔
            ¬ tight.Overlong (.createFunction "f" 65)) := by
  obtain ⟨p, hp, hlength⟩ := length_encode_createFunction
  have hvalid : tight.config.validate = .ok tight.config := rfl
  have hle : p.length ≤ tight.config.channel.maxMessageSize := by
    rw [hlength]
    decide
  obtain ⟨h, hhandle, -, hreply⟩ := reply_fits_iff hvalid hp hle
  refine ⟨hvalid, p, hp, hle, h, hhandle, fun r hr => ?_⟩
  obtain ⟨q, hq, hiff, -⟩ := hreply r hr
  exact ⟨q, hq, hiff⟩

/-- Under the least limit the text about 65 arguments is one byte too long, so that the request ends
the session instead of being answered. -/
theorem reply_too_long : tight.config.validate = .ok tight.config ∧
    (∃ p, (Message.createFunction "f" 65).encode = .ok p ∧ p.length = 13) ∧
    ∃ r q, (handle (.createFunction "f" 65) tight).result = .ok { response := some r } ∧
      r.encode = .ok q ∧ q.length = 65 ∧
      (Channel.send r ⟨Stream.ofBytes [], 64⟩).result = .error (.frameTooLarge 65 64) := by
  have hrefusal : tight.functions.refusal? "f" (65 : UInt32).toNat =
      some (.tooManyArguments 65 Native.maxArity) := by decide
  have hreply := @createFunction_of_refusal tight "f" 65 _ hrefusal
  have hdigits : digits 65 = 2 := by decide
  have htext := Error.size_tooManyArguments 65
  obtain ⟨q, hq, hlength⟩ := Message.length_encode_failureText
    (Error.resourceExhausted (.tooManyArguments 65 Native.maxArity)).message (by omega)
  have hsize : q.length = 65 := by omega
  have hlong : (64 : Nat) < q.length := by omega
  obtain ⟨es, hes⟩ := Channel.send_of_too_large (c := ⟨Stream.ofBytes [], 64⟩) hq hlong
  refine ⟨rfl, length_encode_createFunction, _, q, handle_of_reply? rfl hreply, hq, hsize, ?_⟩
  rw [hes, hsize]

end Context

end RemoteAgent
