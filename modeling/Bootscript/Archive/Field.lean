import Bootscript.Text

/-! Numbers as little-endian fields of fixed width. -/
namespace Bootscript.Archive

def field : Nat → Nat → Bytes
  | 0, _ => []
  | width + 1, n => UInt8.ofNat (n % 256) :: field width (n / 256)

def number : Bytes → Nat
  | [] => 0
  | b :: rest => b.toNat + 256 * number rest

def numberAt (data : Bytes) (offset width : Nat) : Nat := number ((data.drop offset).take width)

@[simp] theorem length_field (width n : Nat) : (field width n).length = width := by
  induction width generalizing n with
  | zero => rfl
  | succ width ih => simp [field, ih]

theorem number_field (width n : Nat) : number (field width n) = n % Nat.pow 256 width := by
  induction width generalizing n with
  | zero => exact (Nat.mod_one n).symm
  | succ width ih =>
    have low : (UInt8.ofNat (n % 256)).toNat = n % 256 := by simp
    have power : Nat.pow 256 (width + 1) = 256 * Nat.pow 256 width := Nat.mul_comm _ _
    rw [field, number, low, ih, power, Nat.mod_mul]

end Bootscript.Archive
