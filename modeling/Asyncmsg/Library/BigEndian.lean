import Mathlib.Data.List.Basic
import Mathlib.Tactic.Common
import Mathlib.Tactic.Ring

namespace BigEndian

/-- The lowest `width` bytes of a number, most significant byte first. -/
def bytes : Nat → Nat → List UInt8
  | 0, _ => []
  | width + 1, n => UInt8.ofNat (n / 256 ^ width) :: bytes width n

/-- The number a byte string denotes, most significant byte first. -/
def value (bs : List UInt8) : Nat :=
  bs.foldl (fun acc b => acc * 256 + b.toNat) 0

@[simp] theorem bytes_length (width n : Nat) : (bytes width n).length = width := by
  induction width with
  | zero => rfl
  | succ width ih => rw [bytes, List.length_cons, ih]

theorem foldl_value (bs : List UInt8) (acc : Nat) :
    bs.foldl (fun acc b => acc * 256 + b.toNat) acc = acc * 256 ^ bs.length + value bs := by
  induction bs generalizing acc with
  | nil => simp [value]
  | cons b bs ih =>
    rw [value, List.foldl_cons, List.foldl_cons, ih, ih (0 * 256 + b.toNat), List.length_cons, pow_succ]
    ring

theorem value_cons (b : UInt8) (bs : List UInt8) :
    value (b :: bs) = b.toNat * 256 ^ bs.length + value bs := by
  rw [value, List.foldl_cons, foldl_value, Nat.zero_mul, Nat.zero_add]

theorem value_bytes (width n : Nat) : value (bytes width n) = n % 256 ^ width := by
  induction width with
  | zero => simp [bytes, value, Nat.mod_one]
  | succ width ih =>
    have digit : (UInt8.ofNat (n / 256 ^ width)).toNat = n / 256 ^ width % 256 := by simp
    rw [bytes, value_cons, bytes_length, ih, digit, pow_succ, Nat.mod_mul]
    ring

/-- A number that fits the width survives being written and read back. -/
theorem value_bytes_of_lt {width n : Nat} (fits : n < 256 ^ width) : value (bytes width n) = n := by
  rw [value_bytes, Nat.mod_eq_of_lt fits]

end BigEndian
