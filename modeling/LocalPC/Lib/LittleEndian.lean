import Mathlib.Tactic.Ring
import Mathlib.Data.List.Basic

namespace LocalPC.Lib

abbrev Bytes := List UInt8

def leNat : Bytes → Nat
  | [] => 0
  | b :: bs => b.toNat + 256 * leNat bs

def leBytes : Nat → Nat → Bytes
  | 0, _ => []
  | w + 1, n => UInt8.ofNat (n % 256) :: leBytes w (n / 256)

@[simp] theorem leBytes_length (w n : Nat) : (leBytes w n).length = w := by
  induction w generalizing n with
  | zero => rfl
  | succ w ih => simp [leBytes, ih]

theorem leBytes_eq (w n : Nat) :
    leBytes w n = (List.range w).map fun j => UInt8.ofNat (n / 256 ^ j % 256) := by
  induction w generalizing n with
  | zero => rfl
  | succ w ih =>
      rw [leBytes, ih, List.range_succ_eq_map, List.map_cons, List.map_map, pow_zero, Nat.div_one]
      congr 1
      apply List.map_congr_left
      intro j _
      show UInt8.ofNat (n / 256 / 256 ^ j % 256) = UInt8.ofNat (n / 256 ^ (j + 1) % 256)
      rw [Nat.div_div_eq_div_mul, ← pow_succ']

theorem leNat_lt (bs : Bytes) : leNat bs < 256 ^ bs.length := by
  induction bs with
  | nil => simp [leNat]
  | cons b bs ih =>
      have byte := b.toNat_lt
      simp only [leNat, List.length_cons, pow_succ]
      omega

theorem leNat_leBytes (w n : Nat) : leNat (leBytes w n) = n % 256 ^ w := by
  induction w generalizing n with
  | zero => simp [leBytes, leNat, Nat.mod_one]
  | succ w ih =>
      have byte : n % 256 % 256 = n % 256 := Nat.mod_mod n 256
      simp only [leBytes, leNat, ih, UInt8.toNat_ofNat', Nat.reducePow, byte]
      rw [pow_succ', Nat.mod_mul]

theorem leBytes_leNat (bs : Bytes) : leBytes bs.length (leNat bs) = bs := by
  induction bs with
  | nil => rfl
  | cons b bs ih =>
      have byte := b.toNat_lt
      have low : (b.toNat + 256 * leNat bs) % 256 = b.toNat := by omega
      have high : (b.toNat + 256 * leNat bs) / 256 = leNat bs := by omega
      simp only [List.length_cons, leBytes, leNat, low, high, ih, UInt8.ofNat_toNat]

def field (offset width : Nat) (bs : Bytes) : Nat :=
  leNat ((bs.drop offset).take width)

theorem field_lt (offset width : Nat) (bs : Bytes) : field offset width bs < 256 ^ width :=
  (leNat_lt _).trans_le (Nat.pow_le_pow_right (by omega) (by simp))

theorem leBytes_field (offset width : Nat) (bs : Bytes) (fits : offset + width ≤ bs.length) :
    leBytes width (field offset width bs) = (bs.drop offset).take width := by
  have size : ((bs.drop offset).take width).length = width := by simp; omega
  have round := leBytes_leNat ((bs.drop offset).take width)
  rwa [size] at round

theorem field_append_right (front back : Bytes) (offset width : Nat) :
    field (front.length + offset) width (front ++ back) = field offset width back := by
  simp only [field]
  rw [← List.drop_drop, List.drop_left]

theorem field_append_left (front back : Bytes) (offset width : Nat)
    (fits : offset + width ≤ front.length) :
    field offset width (front ++ back) = field offset width front := by
  simp only [field]
  rw [List.drop_append_of_le_length (by omega), List.take_append_of_le_length (by simp; omega)]

theorem field_take (offset width size : Nat) (bs : Bytes) (fits : offset + width ≤ size) :
    field offset width (bs.take size) = field offset width bs := by
  simp only [field, List.drop_take, List.take_take]
  rw [Nat.min_eq_left (by omega)]

theorem field_leBytes (width n : Nat) : field 0 width (leBytes width n) = n % 256 ^ width := by
  simp [field, List.take_of_length_le, leNat_leBytes]

theorem field_of_split {front : Bytes} {offset : Nat} (here : front.length = offset)
    (width n : Nat) (rest : Bytes) :
    field offset width (front ++ (leBytes width n ++ rest)) = n % 256 ^ width := by
  have shift := field_append_right front (leBytes width n ++ rest) 0 width
  rw [here, Nat.add_zero] at shift
  rw [shift, field_append_left _ _ _ _ (by simp), field_leBytes]

def u8At (offset : Nat) (bs : Bytes) : UInt8 := UInt8.ofNat (field offset 1 bs)
def u16At (offset : Nat) (bs : Bytes) : UInt16 := UInt16.ofNat (field offset 2 bs)
def u32At (offset : Nat) (bs : Bytes) : UInt32 := UInt32.ofNat (field offset 4 bs)
def u64At (offset : Nat) (bs : Bytes) : UInt64 := UInt64.ofNat (field offset 8 bs)

theorem u16At_toNat (offset : Nat) (bs : Bytes) : (u16At offset bs).toNat = field offset 2 bs := by
  have bound := field_lt offset 2 bs
  simp only [u16At, UInt16.toNat_ofNat']
  omega

theorem u32At_toNat (offset : Nat) (bs : Bytes) : (u32At offset bs).toNat = field offset 4 bs := by
  have bound := field_lt offset 4 bs
  simp only [u32At, UInt32.toNat_ofNat']
  omega

theorem u64At_toNat (offset : Nat) (bs : Bytes) : (u64At offset bs).toNat = field offset 8 bs := by
  have bound := field_lt offset 8 bs
  simp only [u64At, UInt64.toNat_ofNat']
  omega

theorem ofNat_leNat_leBytes_u16 (x : UInt16) : UInt16.ofNat (leNat (leBytes 2 x.toNat)) = x := by
  have bound := x.toNat_lt
  rw [leNat_leBytes, Nat.mod_eq_of_lt (by omega), UInt16.ofNat_toNat]

theorem ofNat_leNat_leBytes_u32 (x : UInt32) : UInt32.ofNat (leNat (leBytes 4 x.toNat)) = x := by
  have bound := x.toNat_lt
  rw [leNat_leBytes, Nat.mod_eq_of_lt (by omega), UInt32.ofNat_toNat]

theorem ofNat_leNat_leBytes_u64 (x : UInt64) : UInt64.ofNat (leNat (leBytes 8 x.toNat)) = x := by
  have bound := x.toNat_lt
  rw [leNat_leBytes, Nat.mod_eq_of_lt (by omega), UInt64.ofNat_toNat]

theorem leBytes_u16At (offset : Nat) (bs : Bytes) (fits : offset + 2 ≤ bs.length) :
    leBytes 2 (u16At offset bs).toNat = (bs.drop offset).take 2 := by
  rw [u16At_toNat, leBytes_field _ _ _ fits]

theorem leBytes_u32At (offset : Nat) (bs : Bytes) (fits : offset + 4 ≤ bs.length) :
    leBytes 4 (u32At offset bs).toNat = (bs.drop offset).take 4 := by
  rw [u32At_toNat, leBytes_field _ _ _ fits]

theorem leBytes_u64At (offset : Nat) (bs : Bytes) (fits : offset + 8 ≤ bs.length) :
    leBytes 8 (u64At offset bs).toNat = (bs.drop offset).take 8 := by
  rw [u64At_toNat, leBytes_field _ _ _ fits]

end LocalPC.Lib
