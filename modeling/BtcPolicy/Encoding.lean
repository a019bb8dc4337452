import BtcPolicy.Bitcoin
import BtcPolicy.Lib.Codec

/-! The primitive layer of every hand-written preimage: integers of a fixed width in either byte order,
byte strings under a `u32` length, and text by its UTF-8 bytes. -/

namespace BtcPolicy.Bitcoin
open Codec

/-- `to_be_bytes`. -/
def beBytes (width value : Nat) : Bytes := (leBytes width value).reverse

/-- The two's complement of an `i32`. -/
def i32Bits (value : Int) : Nat := (value % 2 ^ 32).toNat

/-- `i32::to_be_bytes`. -/
def beBytesInt (value : Int) : Bytes := beBytes 4 (i32Bits value)

/-- `str::as_bytes`. -/
def utf8 (text : String) : Bytes := text.toByteArray.data.toList

@[simp] theorem length_leBytes (width value : Nat) : (leBytes width value).length = width := by
  induction width generalizing value with
  | zero => rfl
  | succ width ih => simp [leBytes, ih]

@[simp] theorem length_beBytes (width value : Nat) : (beBytes width value).length = width := by
  simp [beBytes]

/-- The bytes of a value within the width determine it. -/
theorem leBytes_injective (width : Nat) {a b : Nat} (first : a < 256 ^ width) (second : b < 256 ^ width)
    (same : leBytes width a = leBytes width b) : a = b := by
  induction width generalizing a b with
  | zero =>
    simp only [Nat.pow_zero] at first second
    omega
  | succ width ih =>
    simp only [leBytes, List.cons.injEq] at same
    have low : a % 256 = b % 256 := by
      have bytes := congrArg UInt8.toNat same.1
      simpa [Nat.mod_mod] using bytes
    have high : a / 256 = b / 256 := by
      rw [Nat.pow_succ] at first second
      exact ih (Nat.div_lt_of_lt_mul (by omega)) (Nat.div_lt_of_lt_mul (by omega)) same.2
    omega

/-- Only the value modulo the width is written. -/
theorem leBytes_mod (width value : Nat) : leBytes width (value % 256 ^ width) = leBytes width value := by
  induction width generalizing value with
  | zero => rfl
  | succ width ih =>
    have low : value % 256 ^ (width + 1) % 256 = value % 256 :=
      Nat.mod_mod_of_dvd value (Dvd.intro_left (256 ^ width) (Nat.pow_succ ..).symm)
    have high : value % 256 ^ (width + 1) / 256 = value / 256 % 256 ^ width := by
      rw [Nat.pow_succ, Nat.mul_comm, Nat.mod_mul_right_div_self]
    simp only [leBytes, low, high, ih]

theorem leBytes_delimited (width : Nat) : SelfDelimiting (fun value => value < 256 ^ width) (leBytes width) :=
  selfDelimiting_of_length width (fun _ _ => length_leBytes width _)
    (fun _ _ first second same => leBytes_injective width first second same)

theorem beBytes_delimited (width : Nat) : SelfDelimiting (fun value => value < 256 ^ width) (beBytes width) := by
  apply selfDelimiting_of_length width (fun _ _ => length_beBytes width _)
  intro a b first second same
  exact leBytes_injective width first second (List.reverse_injective same)

theorem beBytesInt_delimited :
    SelfDelimiting (fun value : Int => -(2 ^ 31) ≤ value ∧ value < 2 ^ 31) beBytesInt := by
  apply (beBytes_delimited 4).comap i32Bits
  · intro value _
    unfold i32Bits
    omega
  · intro a b first second same
    unfold i32Bits at same
    omega

theorem utf8_injective : Function.Injective utf8 := by
  intro a b same
  apply String.toByteArray_inj.mp
  apply ByteArray.ext
  exact Array.toList_inj.mp same

/-- Text and bytes under their length, as `push_var` writes them. -/
theorem pushVar_delimited : SelfDelimiting (fun bytes => bytes.length < 2 ^ 32) pushVar :=
  selfDelimiting_sized ((leBytes_delimited 4).mono (fun _ below => below))

/-- The bound on a text field. -/
def Short (text : String) : Prop := (utf8 text).length < 2 ^ 32

theorem pushVar_utf8_delimited : SelfDelimiting Short (fun text => pushVar (utf8 text)) :=
  pushVar_delimited.comap utf8 (fun _ short => short) (fun _ _ _ _ same => utf8_injective same)

/-- A count and then each text under its length, as `Enc::endpoints` writes a list. -/
def pushTexts (texts : List String) : Bytes :=
  leBytes 4 texts.length ++ texts.flatMap (fun text => pushVar (utf8 text))

theorem pushTexts_delimited :
    SelfDelimiting (fun texts : List String => texts.length < 2 ^ 32 ∧ ∀ text ∈ texts, Short text) pushTexts :=
  pushVar_utf8_delimited.counted (leBytes_delimited 4)

end BtcPolicy.Bitcoin
