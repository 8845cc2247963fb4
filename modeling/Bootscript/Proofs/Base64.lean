import Bootscript.Base64
import Mathlib.Tactic.Common

/-! Reading base64. What is written for any bytes, padded or not, is read back as the bytes. -/
namespace Bootscript.Base64

theorem value?_digit {n : Nat} (small : n < 64) : value? (digit n) = some n := by
  have all : ∀ k : Fin 64, value? (digit k) = some k := by decide
  exact all ⟨n, small⟩

theorem digit_ne_pad {n : Nat} (small : n < 64) : digit n ≠ '=' := by
  intro same
  have read := value?_digit small
  rw [same] at read
  exact absurd read (by simp [value?])

section Group

variable {x y z w : Nat} (hx : x < 64) (hy : y < 64)
include hx hy

/-- A group stands for one byte, two or three, as it is padded. Only the last can be. -/
theorem decode?_one (clear : y % 16 = 0) :
    decode? [digit x, digit y, '=', '='] = some [UInt8.ofNat (x * 4 + y / 16)] := by
  rw [decode?, value?_digit hx, value?_digit hy]
  exact if_pos clear

variable (hz : z < 64)
include hz

theorem decode?_two (clear : z % 4 = 0) : decode? [digit x, digit y, digit z, '='] =
    some [UInt8.ofNat (x * 4 + y / 16), UInt8.ofNat (y % 16 * 16 + z / 4)] := by
  rw [decode?, value?_digit hx, value?_digit hy, value?_digit hz]
  · exact if_pos clear
  · exact digit_ne_pad hz

theorem decode?_three (hw : w < 64) (rest : Text) :
    decode? (digit x :: digit y :: digit z :: digit w :: rest) =
      (decode? rest).map fun tail => UInt8.ofNat (x * 4 + y / 16) ::
        UInt8.ofNat (y % 16 * 16 + z / 4) :: UInt8.ofNat (z % 4 * 64 + w) :: tail := by
  rw [decode?, value?_digit hx, value?_digit hy, value?_digit hz, value?_digit hw]
  · cases decode? rest <;> rfl
  · exact fun _ same _ => digit_ne_pad hw same
  · exact fun same _ => digit_ne_pad hw same

end Group

theorem ofNat_eq {n : Nat} {b : UInt8} (same : n = b.toNat) : UInt8.ofNat n = b := by
  rw [same, UInt8.ofNat_toNat]

theorem decode?_encode (data : Bytes) : decode? (encode data) = some data := by
  have byte (b : UInt8) : b.toNat < 256 := b.toNat_lt
  fun_induction encode data with
  | case1 => rfl
  | case2 a =>
    have := byte a
    rw [decode?_one (by omega) (by omega) (by omega), ofNat_eq (b := a) (by omega)]
  | case3 a b =>
    have := byte a
    have := byte b
    rw [decode?_two (by omega) (by omega) (by omega) (by omega), ofNat_eq (b := a) (by omega),
      ofNat_eq (b := b) (by omega)]
  | case4 a b c rest ih =>
    have := byte a
    have := byte b
    have := byte c
    rw [decode?_three (by omega) (by omega) (by omega) (by omega), ih, Option.map_some,
      ofNat_eq (b := a) (by omega), ofNat_eq (b := b) (by omega), ofNat_eq (b := c) (by omega)]

/-- Groups with no padding, with two characters of it, and with one. -/
example : encode (Text.encode "foobar".toList) = "Zm9vYmFy".toList ∧
    encode (Text.encode "foob".toList) = "Zm9vYg==".toList ∧
    encode (Text.encode "fooba".toList) = "Zm9vYmE=".toList := by decide

end Bootscript.Base64
