import Mathlib.Tactic

/-! Hexadecimal text. Digits are written in lower case and read in either case. -/

namespace BtcPolicy.Hex

def hexDigit (n : Nat) : Char :=
  if n < 10 then Char.ofNat (48 + n) else Char.ofNat (87 + n)

def hexValue (c : Char) : Option Nat :=
  if 48 ≤ c.toNat ∧ c.toNat ≤ 57 then some (c.toNat - 48)
  else if 97 ≤ c.toNat ∧ c.toNat ≤ 102 then some (c.toNat - 87)
  else if 65 ≤ c.toNat ∧ c.toNat ≤ 70 then some (c.toNat - 55)
  else none

theorem hexValue_hexDigit : ∀ n < 16, hexValue (hexDigit n) = some n := by decide

/-- Two digits show a byte. -/
def toHex (bytes : List UInt8) : String :=
  String.ofList (bytes.flatMap (fun b => [hexDigit (b.toNat / 16), hexDigit (b.toNat % 16)]))

def fromHexChars : List Char → Option (List UInt8)
  | [] => some []
  | [_] => none
  | high :: low :: rest => do
    let high ← hexValue high
    let low ← hexValue low
    let tail ← fromHexChars rest
    pure (UInt8.ofNat (16 * high + low) :: tail)

/-- Pairs of digits. -/
def fromHex (text : String) : Option (List UInt8) := fromHexChars text.toList

theorem fromHex_toHex (bytes : List UInt8) : fromHex (toHex bytes) = some bytes := by
  rw [fromHex, toHex, String.toList_ofList]
  induction bytes with
  | nil => rfl
  | cons byte rest ih =>
    have bound := byte.toNat_lt
    have whole : 16 * (byte.toNat / 16) + byte.toNat % 16 = byte.toNat := by omega
    have high := hexValue_hexDigit (byte.toNat / 16) (by omega)
    have low := hexValue_hexDigit (byte.toNat % 16) (by omega)
    rw [List.flatMap_cons]
    simp only [List.cons_append, List.nil_append, fromHexChars, high, low, ih, Option.bind_eq_bind, Option.bind_some,
      Option.pure_def, whole, UInt8.ofNat_toNat]

theorem toHex_injective : Function.Injective toHex := by
  intro a b same
  have read := fromHex_toHex a
  rw [same, fromHex_toHex] at read
  exact (Option.some.inj read).symm

end BtcPolicy.Hex
