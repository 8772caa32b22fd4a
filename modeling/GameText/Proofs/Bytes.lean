import GameText.Bytes
import Mathlib.Algebra.Group.Nat.Defs
import Mathlib.Data.List.Basic

namespace GameText.Bytes

theorem byteOf_exact {value : Int} {byte : UInt8} : byteOf? value = some byte ↔ value = byte.toNat := by
  unfold byteOf?
  have small := byte.toNat_lt
  constructor
  · intro made
    split at made
    · cases made
      rw [UInt8.toNat_ofNat_of_lt' (by simp only [UInt8.size]; omega)]
      omega
    · cases made
  · rintro rfl
    rw [if_pos (by omega),Int.toNat_natCast,UInt8.ofNat_toNat]

@[simp]
theorem littleEndian_length (width value : Nat) : (littleEndian width value).length = width := by
  induction width generalizing value with
  | zero => rfl
  | succ width ih => rw [littleEndian,List.length_cons,ih]

theorem ofLittleEndian_lt (data : Bytes) : ofLittleEndian data < 256 ^ data.length := by
  induction data with
  | nil => decide
  | cons byte rest ih =>
    have small := byte.toNat_lt
    rw [ofLittleEndian,List.length_cons,Nat.pow_succ]
    omega

theorem littleEndian_ofLittleEndian (data : Bytes) :
    littleEndian data.length (ofLittleEndian data) = data := by
  induction data with
  | nil => rfl
  | cons byte rest ih =>
    have small := byte.toNat_lt
    have low : (byte.toNat + 256 * ofLittleEndian rest) % 256 = byte.toNat := by omega
    have high : (byte.toNat + 256 * ofLittleEndian rest) / 256 = ofLittleEndian rest := by omega
    rw [ofLittleEndian,List.length_cons,littleEndian,low,high,ih,UInt8.ofNat_toNat]

@[simp]
theorem ofLittleEndian_littleEndian {width value : Nat} (fits : value < 256 ^ width) :
    ofLittleEndian (littleEndian width value) = value := by
  induction width generalizing value with
  | zero =>
    rw [Nat.pow_zero] at fits
    rw [littleEndian,ofLittleEndian]
    omega
  | succ width ih =>
    rw [Nat.pow_succ] at fits
    have byte : (UInt8.ofNat (value % 256)).toNat = value % 256 :=
      UInt8.toNat_ofNat_of_lt' (Nat.mod_lt _ (by decide))
    rw [littleEndian,ofLittleEndian,byte,ih (by omega)]
    omega

theorem ofLittleEndian_append (low high : Bytes) :
    ofLittleEndian (low ++ high) = ofLittleEndian low + 256 ^ low.length * ofLittleEndian high := by
  induction low with
  | nil => rw [List.nil_append,ofLittleEndian,List.length_nil,Nat.pow_zero,Nat.one_mul,Nat.zero_add]
  | cons byte rest ih =>
    rw [List.cons_append,ofLittleEndian,ofLittleEndian,ih,List.length_cons,Nat.pow_succ',Nat.mul_add,Nat.add_assoc,
      Nat.mul_assoc]

@[simp]
theorem place_nat (data : Bytes) (position : Nat) : place data position = position := if_neg (by omega)

@[simp]
theorem at_nat (data : Bytes) (position : Nat) : at? data position = data[position]? := by
  rw [at?,place_nat,if_pos (by omega),Int.toNat_natCast]

@[simp]
theorem slice_nat (data : Bytes) (start stop : Nat) : slice data start stop = (data.drop start).take (stop - start) := by
  rw [slice,place_nat,place_nat,Int.toNat_natCast,Int.toNat_natCast,List.drop_take]

end GameText.Bytes
