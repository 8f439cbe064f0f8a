import Mathlib.Algebra.Group.Nat.Defs
import RemoteAgent.Text.Hex

/-! The sizes of texts as bytes: numerals have a byte for each digit. -/

namespace RemoteAgent.Text

theorem utf8ByteSize_digit : ∀ d < 16, (String.ofList [Nat.digitChar d]).utf8ByteSize = 1 := by
  decide

theorem utf8ByteSize_toDigits {b : Nat} (hb : 1 < b) (hb' : b ≤ 16) (n : Nat) :
    (String.ofList (Nat.toDigits b n)).utf8ByteSize = (Nat.toDigits b n).length := by
  induction n using Nat.strongRecOn with
  | ind n ih =>
    rw [Nat.toDigits_eq_if hb]
    split
    · next hlt => exact utf8ByteSize_digit n (by omega)
    · next hge =>
      have hdiv : n / b < n := Nat.div_lt_self (by omega) hb
      have hmod : n % b < b := Nat.mod_lt n (by omega)
      rw [String.ofList_append, String.utf8ByteSize_append, ih (n / b) hdiv,
        utf8ByteSize_digit (n % b) (by omega), List.length_append, List.length_singleton]

def digits (n : Nat) : Nat := (toString n).utf8ByteSize

theorem digits_eq (n : Nat) : digits n = (Nat.toDigits 10 n).length := by
  rw [digits, Nat.toString_eq_ofList_toDigits, utf8ByteSize_toDigits (by decide) (by decide)]

theorem digits_le_iff {n k : Nat} (hk : 0 < k) : digits n ≤ k ↔ n < 10 ^ k := by
  rw [digits_eq, Nat.length_toDigits_le_iff (by decide) hk]

theorem utf8ByteSize_hex (n : Nat) : (hex n).utf8ByteSize = 2 + (Nat.toDigits 16 n).length := by
  have hpre : "0x".utf8ByteSize = 2 := by decide
  rw [hex, hexDigits, String.utf8ByteSize_append, hpre,
    utf8ByteSize_toDigits (by decide) (by decide)]

theorem utf8ByteSize_hex_le {n k : Nat} (hk : 0 < k) (hn : n < 16 ^ k) :
    (hex n).utf8ByteSize ≤ 2 + k := by
  rw [utf8ByteSize_hex]
  exact Nat.add_le_add_left ((Nat.length_toDigits_le_iff (by decide) hk).2 hn) 2

end RemoteAgent.Text
