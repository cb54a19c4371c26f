import Mathlib.Algebra.Order.Floor.Ring
import Mathlib.Data.Int.Log
import Mathlib.Data.Rat.Floor
import Mathlib.Tactic.Linarith
import Mathlib.Tactic.NormNum
import Mathlib.Tactic.Positivity
import Mathlib.Tactic.Ring

namespace LocalPC.Lib
open Float.Model Float.Model.UnpackedFloat

def roundEven (x : ℚ) : ℕ :=
  if x - ⌊x⌋₊ < 1 / 2 then ⌊x⌋₊
  else if 1 / 2 < x - ⌊x⌋₊ then ⌊x⌋₊ + 1
  else ⌊x⌋₊ + ⌊x⌋₊ % 2

theorem floor_le_roundEven (x : ℚ) : ⌊x⌋₊ ≤ roundEven x := by
  unfold roundEven
  split_ifs <;> omega

theorem roundEven_le_succ (x : ℚ) : roundEven x ≤ ⌊x⌋₊ + 1 := by
  unfold roundEven
  split_ifs <;> omega

@[simp] theorem roundEven_natCast (n : ℕ) : roundEven n = n := by
  simp [roundEven]

theorem roundEven_mono {x y : ℚ} (le : x ≤ y) : roundEven x ≤ roundEven y := by
  rcases (Nat.floor_mono le).lt_or_eq with below | same
  · exact (roundEven_le_succ x).trans (Nat.succ_le_of_lt below |>.trans (floor_le_roundEven y))
  · unfold roundEven
    rw [← same]
    split_ifs <;> first | omega | linarith

def Residue : Bool → Bool → ℚ → Prop
  | false, false, r => r = 0
  | false, true, r => 0 < r ∧ r < 1 / 2
  | true, false, r => r = 1 / 2
  | true, true, r => 1 / 2 < r ∧ r < 1

theorem Residue.mem {roundBit stickyBit : Bool} {r : ℚ} (residue : Residue roundBit stickyBit r) :
    0 ≤ r ∧ r < 1 := by
  cases roundBit <;> cases stickyBit <;> simp only [Residue] at residue
  · rw [residue]; norm_num
  · exact ⟨residue.1.le, residue.2.trans (by norm_num)⟩
  · rw [residue]; norm_num
  · exact ⟨by linarith [residue.1], residue.2⟩

def Represents (em : ExtendedMantissa) (x : ℚ) : Prop :=
  Residue em.roundBit em.stickyBit (x - em.mantissa)

theorem Represents.floor {em : ExtendedMantissa} {x : ℚ} (approximates : Represents em x) :
    ⌊x⌋₊ = em.mantissa := by
  obtain ⟨above, below⟩ := approximates.mem
  rw [Nat.floor_eq_iff ((Nat.cast_nonneg _).trans (sub_nonneg.mp above))]
  exact ⟨sub_nonneg.mp above, sub_lt_iff_lt_add'.mp below⟩

theorem Represents.roundedMantissa {em : ExtendedMantissa} {x : ℚ}
    (approximates : Represents em x) :
    em.roundedMantissa = roundEven x := by
  have floor := approximates.floor
  unfold roundEven
  rw [floor]
  obtain ⟨mantissa, roundBit, stickyBit⟩ := em
  cases roundBit <;> cases stickyBit <;> simp only [Represents, Residue] at approximates
  · rw [if_pos (by rw [approximates]; norm_num)]
    rfl
  · rw [if_pos approximates.2]
    rfl
  · rw [if_neg approximates.not_lt, if_neg approximates.not_gt]
    rfl
  · rw [if_neg approximates.1.not_gt, if_pos approximates.1]
    rfl

theorem Represents.shiftRightOne {em : ExtendedMantissa} {x : ℚ} (approximates : Represents em x) :
    Represents em.shiftRightOne (x / 2) := by
  obtain ⟨mantissa, roundBit, stickyBit⟩ := em
  have halves : (mantissa : ℚ) = 2 * (mantissa / 2 : ℕ) + (mantissa % 2 : ℕ) := by
    exact_mod_cast (Nat.div_add_mod mantissa 2).symm
  unfold Represents ExtendedMantissa.shiftRightOne at *
  dsimp only at *
  rcases Nat.mod_two_eq_zero_or_one mantissa with parity | parity <;> rw [parity] at halves ⊢ <;>
    cases roundBit <;> cases stickyBit <;> simp [Residue] at approximates halves ⊢ <;>
    first | linarith | (constructor <;> linarith)

theorem Represents.shiftRight {em : ExtendedMantissa} {x : ℚ}
    (approximates : Represents em x) (n : ℕ) :
    Represents (em >>> n) (x / 2 ^ n) := by
  change Represents (n.repeat ExtendedMantissa.shiftRightOne em) (x / 2 ^ n)
  induction n with
  | zero => simpa [Nat.repeat] using approximates
  | succ n ih =>
      rw [pow_succ, ← div_div]
      exact ih.shiftRightOne

theorem represents_exact (m : ℕ) : Represents (ExtendedMantissa.ofMantissaAndAccuracy m .exact) m :=
  sub_self _

theorem represents_div (m : ℕ) {n : ℕ} (positive : 0 < n) :
    Represents (ExtendedMantissa.ofMantissaAndAccuracy (m / n) (accuracyOfFraction (m % n) n))
      (m / n) := by
  have whole : (0 : ℚ) < n := Nat.cast_pos.mpr positive
  have split : (m : ℚ) / n - (m / n : ℕ) = (m % n : ℕ) / n := by
    rw [div_sub' whole.ne',
      sub_left_inj.mpr (congrArg (Nat.cast (R := ℚ)) (Nat.div_add_mod m n).symm)]
    push_cast
    rw [add_sub_cancel_left]
  have rest : ((m % n : ℕ) : ℚ) / n < 1 :=
    (div_lt_one whole).mpr (Nat.cast_lt.mpr (Nat.mod_lt m positive))
  unfold accuracyOfFraction
  split_ifs with none
  · rw [none, Nat.cast_zero, zero_div] at split
    exact split
  · have some_ : (0 : ℚ) < (m % n : ℕ) / n :=
      div_pos (Nat.cast_pos.mpr (Nat.pos_of_ne_zero none)) whole
    cases order : compare (2 * (m % n)) n with
    | lt =>
        refine ⟨split ▸ some_, split ▸ (div_lt_div_iff₀ whole two_pos).mpr ?_⟩
        exact_mod_cast (by have := Nat.compare_eq_lt.mp order; omega)
    | eq =>
        refine split.trans ((div_eq_div_iff whole.ne' two_ne_zero).mpr ?_)
        exact_mod_cast (by have := Nat.compare_eq_eq.mp order; omega)
    | gt =>
        refine ⟨split ▸ (div_lt_div_iff₀ two_pos whole).mpr ?_, split ▸ rest⟩
        exact_mod_cast (by have := Nat.compare_eq_gt.mp order; omega)

def lastBit (x : ℚ) : ℤ := Int.log 2 x - 52

def rounded (x : ℚ) : ℚ := roundEven (x / 2 ^ lastBit x) * 2 ^ lastBit x

theorem two_zpow_pos (e : ℤ) : (0 : ℚ) < 2 ^ e := zpow_pos two_pos e

theorem log_eq_iff {x : ℚ} (positive : 0 < x) {e : ℤ} :
    Int.log 2 x = e ↔ 2 ^ e ≤ x ∧ x < 2 ^ (e + 1) := by
  have below := @Int.lt_zpow_iff_log_lt ℚ _ _ _ _ 2 one_lt_two (e + 1) x positive
  have above := @Int.zpow_le_iff_le_log ℚ _ _ _ _ 2 one_lt_two e x positive
  rw [Nat.cast_ofNat] at below above
  rw [below, above]
  omega

theorem mantissa_mem {x : ℚ} (positive : 0 < x) :
    2 ^ 52 ≤ x / 2 ^ lastBit x ∧ x / 2 ^ lastBit x < 2 ^ 53 := by
  obtain ⟨above, below⟩ := (log_eq_iff positive).mp rfl
  have first : ((52 : ℕ) : ℤ) + lastBit x = Int.log 2 x := by unfold lastBit; omega
  have next : ((53 : ℕ) : ℤ) + lastBit x = Int.log 2 x + 1 := by unfold lastBit; omega
  rw [le_div_iff₀ (two_zpow_pos _), div_lt_iff₀ (two_zpow_pos _), ← zpow_natCast, ← zpow_natCast,
    ← zpow_add₀ two_ne_zero, ← zpow_add₀ two_ne_zero, first, next]
  exact ⟨above, below⟩

theorem roundEven_mantissa_mem {x : ℚ} (positive : 0 < x) :
    2 ^ 52 ≤ roundEven (x / 2 ^ lastBit x) ∧ roundEven (x / 2 ^ lastBit x) ≤ 2 ^ 53 := by
  obtain ⟨above, below⟩ := mantissa_mem positive
  have low := @roundEven_mono ((2 ^ 52 : ℕ) : ℚ) (x / 2 ^ lastBit x) (by exact_mod_cast above)
  have high := @roundEven_mono (x / 2 ^ lastBit x) ((2 ^ 53 : ℕ) : ℚ) (by exact_mod_cast below.le)
  rw [roundEven_natCast] at low high
  exact ⟨low, high⟩

theorem rounded_eq_self_of_natCast {x : ℚ} {n : ℕ}
    (is : x = n * 2 ^ lastBit x) : rounded x = x := by
  have quotient : x / 2 ^ lastBit x = n := (div_eq_iff (two_zpow_pos _).ne').mpr is
  rw [rounded, quotient, roundEven_natCast, ← is]

theorem rounded_eq_self {m : ℕ} {e : ℤ} (positive : 0 < m) (bits : m ≤ 2 ^ 53) :
    rounded (m * 2 ^ e) = m * 2 ^ e := by
  have above : (0 : ℚ) < m * 2 ^ e := mul_pos (Nat.cast_pos.mpr positive) (two_zpow_pos e)
  rcases bits.lt_or_eq with few | rfl
  · have fine : lastBit (m * 2 ^ e) ≤ e := by
      have below : (m : ℚ) * 2 ^ e < (2 : ℕ) ^ (53 + e) := by
        rw [Nat.cast_ofNat, zpow_add₀ two_ne_zero]
        exact mul_lt_mul_of_pos_right (by exact_mod_cast few) (two_zpow_pos e)
      have := (Int.lt_zpow_iff_log_lt one_lt_two above).mp below
      unfold lastBit
      omega
    apply @rounded_eq_self_of_natCast _ (m * 2 ^ (e - lastBit (m * 2 ^ e)).toNat)
    rw [Nat.cast_mul, Nat.cast_pow, Nat.cast_ofNat, mul_assoc, ← zpow_natCast,
      Int.toNat_of_nonneg (by omega), ← zpow_add₀ two_ne_zero, sub_add_cancel]
  · have power : ((2 ^ 53 : ℕ) : ℚ) * 2 ^ e = (2 : ℕ) ^ (53 + e) := by
      rw [Nat.cast_ofNat, zpow_add₀ two_ne_zero]
      norm_num
    have last : lastBit (((2 ^ 53 : ℕ) : ℚ) * 2 ^ e) = 1 + e := by
      rw [power, lastBit, Int.log_zpow one_lt_two]
      omega
    apply @rounded_eq_self_of_natCast _ (2 ^ 52)
    rw [last, zpow_add₀ two_ne_zero]
    norm_num
    ring

theorem rounded_mono {x y : ℚ} (positive : 0 < x) (le : x ≤ y) : rounded x ≤ rounded y := by
  have logs : lastBit x ≤ lastBit y := sub_le_sub_right (Int.log_mono_right positive le) _
  rcases logs.eq_or_lt with same | below
  · unfold rounded
    rw [← same]
    have quotients := roundEven_mono (div_le_div_of_nonneg_right le (two_zpow_pos (lastBit x)).le)
    exact mul_le_mul_of_nonneg_right (Nat.cast_le.mpr quotients) (two_zpow_pos _).le
  · -- a power of two lies between the two
    have high := (roundEven_mantissa_mem positive).2
    have low := (roundEven_mantissa_mem (positive.trans_le le)).1
    calc rounded x ≤ ((2 ^ 53 : ℕ) : ℚ) * 2 ^ lastBit x :=
          mul_le_mul_of_nonneg_right (Nat.cast_le.mpr high) (two_zpow_pos _).le
      _ = ((2 ^ 52 : ℕ) : ℚ) * 2 ^ (lastBit x + 1) := by
        rw [zpow_add₀ two_ne_zero]
        norm_num
        ring
      _ ≤ ((2 ^ 52 : ℕ) : ℚ) * 2 ^ lastBit y :=
        mul_le_mul_of_nonneg_left (zpow_le_zpow_right₀ one_le_two below) (Nat.cast_nonneg _)
      _ ≤ rounded y := mul_le_mul_of_nonneg_right (Nat.cast_le.mpr low) (two_zpow_pos _).le

theorem rounded_rounded {x : ℚ} (positive : 0 < x) : rounded (rounded x) = rounded x := by
  obtain ⟨low, high⟩ := roundEven_mantissa_mem positive
  exact rounded_eq_self ((by norm_num : 0 < 2 ^ 52).trans_le low) high

theorem rounded_two_zpow (e : ℤ) : rounded (2 ^ e) = 2 ^ e := by
  have one := @rounded_eq_self 1 e one_pos (by norm_num)
  rwa [Nat.cast_one, one_mul] at one

theorem rounded_mem {x : ℚ} {low high : ℤ} (above : 2 ^ low ≤ x) (below : x ≤ 2 ^ high) :
    2 ^ low ≤ rounded x ∧ rounded x ≤ 2 ^ high :=
  ⟨(rounded_two_zpow low).ge.trans (rounded_mono (two_zpow_pos low) above),
    (rounded_mono ((two_zpow_pos low).trans_le above) below).trans (rounded_two_zpow high).le⟩

theorem log_of_represents {m : ℕ} {e : ℤ} {accuracy : Accuracy} {x : ℚ} (positive : 0 < m)
    (approximates : Represents (ExtendedMantissa.ofMantissaAndAccuracy m accuracy) (x / 2 ^ e)) :
    0 < x ∧ Int.log 2 x = m.log2 + e := by
  have mantissa : (ExtendedMantissa.ofMantissaAndAccuracy m accuracy).mantissa = m := by
    cases accuracy with
    | exact => rfl
    | inexact order => cases order <;> rfl
  obtain ⟨above, below⟩ := approximates.mem
  rw [mantissa] at above below
  have low : (2 ^ m.log2 : ℕ) ≤ m := Nat.log2_self_le positive.ne'
  have high : m + 1 ≤ 2 ^ (m.log2 + 1) := Nat.lt_log2_self
  have above' : (m : ℚ) * 2 ^ e ≤ x := (le_div_iff₀ (two_zpow_pos e)).mp (sub_nonneg.mp above)
  have below' : x < ((m + 1 : ℕ) : ℚ) * 2 ^ e := by
    rw [← div_lt_iff₀ (two_zpow_pos e)]
    push_cast
    linarith
  have some_ : 0 < x := (mul_pos (Nat.cast_pos.mpr positive) (two_zpow_pos e)).trans_le above'
  refine ⟨some_, (log_eq_iff some_).mpr ⟨?_, ?_⟩⟩
  · calc (2 : ℚ) ^ ((m.log2 : ℤ) + e) = ((2 ^ m.log2 : ℕ) : ℚ) * 2 ^ e := by
          rw [zpow_add₀ two_ne_zero, zpow_natCast]
          norm_num
      _ ≤ m * 2 ^ e := mul_le_mul_of_nonneg_right (Nat.cast_le.mpr low) (two_zpow_pos e).le
      _ ≤ x := above'
  · calc x < ((m + 1 : ℕ) : ℚ) * 2 ^ e := below'
      _ ≤ ((2 ^ (m.log2 + 1) : ℕ) : ℚ) * 2 ^ e :=
        mul_le_mul_of_nonneg_right (Nat.cast_le.mpr high) (two_zpow_pos e).le
      _ = 2 ^ ((m.log2 : ℤ) + e + 1) := by
        rw [add_right_comm, zpow_add₀ two_ne_zero, ← Nat.cast_succ, zpow_natCast]
        norm_num

theorem targetExponent_normal {m : ℕ} {e : ℤ} {x : ℚ} (log : Int.log 2 x = m.log2 + e)
    (normal : -1022 ≤ Int.log 2 x) :
    Format.binary64.targetExponent (totalExponent m e) = lastBit x := by
  unfold Format.targetExponent totalExponent lastBit Format.mantissaBits
    Format.minExponent Format.mantissaBits
  rw [log] at normal ⊢
  norm_num
  omega

theorem shiftToTargetExponent_spec {m : ℕ} {e : ℤ} {accuracy : Accuracy} {x : ℚ} (positive : 0 < m)
    (approximates : Represents (ExtendedMantissa.ofMantissaAndAccuracy m accuracy) (x / 2 ^ e))
    (normal : -1022 ≤ Int.log 2 x) (fine : e ≤ lastBit x) :
    Represents (shiftToTargetExponent Format.binary64 m e accuracy).1 (x / 2 ^ lastBit x) ∧
      (shiftToTargetExponent Format.binary64 m e accuracy).2 = lastBit x := by
  obtain ⟨-, log⟩ := log_of_represents positive approximates
  unfold shiftToTargetExponent shiftToExponent
  rw [targetExponent_normal log normal]
  have steps : ((lastBit x - e).toNat : ℤ) = lastBit x - e := Int.toNat_of_nonneg (by omega)
  have shifted := approximates.shiftRight (lastBit x - e).toNat
  rw [div_div, ← zpow_natCast, ← zpow_add₀ two_ne_zero, steps, add_sub_cancel] at shifted
  exact ⟨shifted, by dsimp only; omega⟩

theorem shiftToTargetExponent_rounded {m : ℕ} {e : ℤ} (low : 2 ^ 52 ≤ m)
    (high : m ≤ 2 ^ 53) (normal : -1074 ≤ e) :
    let shifted := shiftToTargetExponent Format.binary64 m e .exact
    (2 ^ 52 ≤ shifted.1.mantissa ∧ shifted.1.mantissa < 2 ^ 53) ∧
      (e ≤ shifted.2 ∧ shifted.2 ≤ e + 1) ∧
      (shifted.1.mantissa : ℚ) * 2 ^ shifted.2 = m * 2 ^ e := by
  intro shifted
  rcases high.lt_or_eq with few | rfl
  · have log : m.log2 = 52 := (Nat.log2_eq_iff (by omega)).mpr ⟨low, few⟩
    have target : Format.binary64.targetExponent (totalExponent m e) = e := by
      unfold Format.targetExponent totalExponent Format.mantissaBits
        Format.minExponent Format.mantissaBits
      rw [log]
      norm_num
      omega
    have is : shifted = (⟨m, false, false⟩, e) := by
      change shiftToTargetExponent _ _ _ _ = _
      unfold shiftToTargetExponent shiftToExponent
      rw [target]
      dsimp only
      rw [sub_self]
      exact Prod.ext rfl (add_zero e)
    rw [is]
    exact ⟨⟨low, few⟩, ⟨le_rfl, by omega⟩, rfl⟩
  · have target : Format.binary64.targetExponent (totalExponent (2 ^ 53) e) = e + 1 := by
      unfold Format.targetExponent totalExponent Format.mantissaBits
        Format.minExponent Format.mantissaBits
      rw [Nat.log2_two_pow]
      norm_num
      omega
    have is : shifted = (⟨2 ^ 52, false, false⟩, e + 1) := by
      change shiftToTargetExponent _ _ _ _ = _
      unfold shiftToTargetExponent shiftToExponent
      rw [target]
      dsimp only
      rw [add_sub_cancel_left]
      rfl
    rw [is]
    refine ⟨⟨le_rfl, by norm_num⟩, ⟨by omega, le_rfl⟩, ?_⟩
    rw [zpow_add₀ two_ne_zero]
    norm_num
    ring

theorem roundWithAccuracy_spec (sign : Sign) {m : ℕ} {e : ℤ} {accuracy : Accuracy}
    {x : ℚ} (positive : 0 < m)
    (approximates : Represents (ExtendedMantissa.ofMantissaAndAccuracy m accuracy) (x / 2 ^ e))
    (normal : -1022 ≤ Int.log 2 x) (fine : e ≤ lastBit x) :
    ∃ m' e' pos, roundWithAccuracy Format.binary64 sign m e accuracy = .finite sign m' e' pos ∧
      2 ^ 52 ≤ m' ∧ m' < 2 ^ 53 ∧ (m' : ℚ) * 2 ^ e' = rounded x ∧ lastBit x ≤ e' ∧
        e' ≤ lastBit x + 1 := by
  obtain ⟨some_, -⟩ := log_of_represents positive approximates
  obtain ⟨shifted, last⟩ := shiftToTargetExponent_spec positive approximates normal fine
  obtain ⟨low, high⟩ := roundEven_mantissa_mem some_
  have small : -1074 ≤ lastBit x := by unfold lastBit; omega
  obtain ⟨bits, exponents, value⟩ := shiftToTargetExponent_rounded low high small
  unfold roundWithAccuracy
  dsimp only
  rw [shifted.roundedMantissa, last, dif_neg (by omega)]
  exact ⟨_, _, _, rfl, bits.1, bits.2, value, exponents.1, exponents.2⟩

end LocalPC.Lib
