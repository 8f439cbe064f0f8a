/-! UTF-8 text in byte strings: where it breaks off, and what is left when every break is marked. -/

namespace RemoteAgent.Text

/-- Where a byte string stops being UTF-8: the bytes before it are whole characters. -/
inductive Utf8Fault where
  | invalid (length index : Nat)
  | incomplete (index : Nat)
  deriving DecidableEq, Repr

namespace Utf8Fault

def message : Utf8Fault → String
  | invalid n i => s!"invalid utf-8 sequence of {n} bytes from index {i}"
  | incomplete i => s!"incomplete utf-8 byte sequence from index {i}"

def shift (n : Nat) : Utf8Fault → Utf8Fault
  | invalid k i => invalid k (i + n)
  | incomplete i => incomplete (i + n)

end Utf8Fault

namespace Utf8

inductive Ending where
  | whole
  | broken
  | missing
  deriving DecidableEq, Repr

def lead? (b : UInt8) : Option (Nat × UInt8 × UInt8) :=
  if b < 0x80 then some (0, 0x80, 0xBF)
  else if b < 0xC2 then none
  else if b < 0xE0 then some (1, 0x80, 0xBF)
  else if b = 0xE0 then some (2, 0xA0, 0xBF)
  else if b = 0xED then some (2, 0x80, 0x9F)
  else if b < 0xF0 then some (2, 0x80, 0xBF)
  else if b = 0xF0 then some (3, 0x90, 0xBF)
  else if b < 0xF4 then some (3, 0x80, 0xBF)
  else if b = 0xF4 then some (3, 0x80, 0x8F)
  else none

def follow : Nat → UInt8 → UInt8 → List UInt8 → Nat × Ending
  | 0, _, _, _ => (0, .whole)
  | _ + 1, _, _, [] => (0, .missing)
  | n + 1, lo, hi, b :: r =>
    if lo ≤ b ∧ b ≤ hi then
      let (k, e) := follow n 0x80 0xBF r
      (k + 1, e)
    else (0, .broken)

def tail (b : UInt8) (r : List UInt8) : Nat × Ending :=
  match lead? b with
  | none => (0, .broken)
  | some (n, lo, hi) => follow n lo hi r

def fault? : List UInt8 → Option Utf8Fault
  | [] => none
  | b :: r =>
    match tail b r with
    | (k, .whole) => (fault? (r.drop k)).map (·.shift (k + 1))
    | (k, .broken) => some (.invalid (k + 1) 0)
    | (_, .missing) => some (.incomplete 0)
  termination_by bs => bs.length
  decreasing_by simp only [List.length_cons, List.length_drop]; omega

def codePoint (b : UInt8) (n : Nat) (follow : List UInt8) : Nat :=
  let high := if n = 0 then b.toNat else b.toNat % (1 <<< (6 - n))
  follow.foldl (fun acc c => acc * 64 + c.toNat % 64) high

def lossyChars : List UInt8 → List Char
  | [] => []
  | b :: r =>
    match tail b r with
    | (k, .whole) => Char.ofNat (codePoint b k (r.take k)) :: lossyChars (r.drop k)
    | (k, .broken) => '\uFFFD' :: lossyChars (r.drop k)
    | (_, .missing) => ['\uFFFD']
  termination_by bs => bs.length
  decreasing_by all_goals simp only [List.length_cons, List.length_drop]; omega

def lossy (bytes : List UInt8) : String := String.ofList (lossyChars bytes)

def encode (s : String) : List UInt8 := s.toByteArray.data.toList

def decode (bytes : List UInt8) : Except Utf8Fault String :=
  match String.fromUTF8? bytes.toByteArray with
  | some s => .ok s
  | none => .error ((fault? bytes).getD (.incomplete bytes.length))

@[simp] theorem encode_empty : encode "" = [] := rfl

theorem toByteArray_encode (s : String) : (encode s).toByteArray = s.toByteArray := by
  apply ByteArray.ext
  rw [List.data_toByteArray, encode, Array.toArray_toList]

theorem encode_of_toByteArray {bytes : List UInt8} {s : String}
    (h : s.toByteArray = bytes.toByteArray) : encode s = bytes := by
  rw [encode, h, List.data_toByteArray]

theorem decode_eq_ok_iff {bytes : List UInt8} {s : String} :
    decode bytes = .ok s ↔ bytes = encode s := by
  unfold decode String.fromUTF8?
  constructor
  · intro h
    by_cases hv : bytes.toByteArray.IsValidUTF8
    · rw [dif_pos hv] at h
      cases h
      exact (encode_of_toByteArray rfl).symm
    · rw [dif_neg hv] at h
      cases h
  · rintro rfl
    have hv : (encode s).toByteArray.IsValidUTF8 := toByteArray_encode s ▸ s.isValidUTF8
    rw [dif_pos hv]
    exact congrArg Except.ok (String.toByteArray_inj.1 (toByteArray_encode s))

end Utf8

end RemoteAgent.Text
