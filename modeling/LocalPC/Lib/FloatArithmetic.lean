import LocalPC.Lib.FloatRounding

namespace LocalPC.Lib
open Float.Model Float.Model.UnpackedFloat

theorem unpackSign_packComponents {spec : Format} {sign : Sign}
    {exponent : BitVec spec.exponentBits} {mantissa : BitVec spec.mantissaBitsWithoutImplicit} :
    unpackSign (packComponents spec sign exponent mantissa) = sign.toBitVec := by
  unfold unpackSign packComponents
  ext i bound
  obtain rfl : i = 0 := by omega
  simp [BitVec.getLsbD_append, BitVec.getElem_append]

theorem implicit_pos {n : ℕ} (mantissa : BitVec n) : 0 < (1#1 ++ mantissa).toNat := by simp

theorem finite_congr {sign : Sign} {m m' : ℕ} {e e' : ℤ} {pos : 0 < m}
    {pos' : 0 < m'} (mantissa : m = m') (exponent : e = e') :
    UnpackedFloat.finite sign m e pos = .finite sign m' e' pos' := by
  subst mantissa exponent
  rfl

theorem unpack_packComponents {spec : Format} {sign : Sign} {exponent : BitVec spec.exponentBits}
    {mantissa : BitVec spec.mantissaBitsWithoutImplicit} (normal : exponent ≠ 0#_)
    (finite : exponent ≠ -1#_) :
    UnpackedFloat.unpack spec (packComponents spec sign exponent mantissa) =
      .finite sign (1#1 ++ mantissa).toNat
        (exponent.toNat - (spec.exponentBias + spec.mantissaBitsWithoutImplicit))
          (implicit_pos mantissa) := by
  unfold UnpackedFloat.unpack
  dsimp only
  rw [unpackExponent_packComponents, if_neg finite, if_neg normal, unpackSign_packComponents]
  have kept : Sign.ofBitVec sign.toBitVec = sign := by cases sign <;> rfl
  rw [kept]
  have fraction : unpackMantissa (packComponents spec sign exponent mantissa) = mantissa :=
    unpackMantissa_packComponents
  exact finite_congr (by rw [fraction]) rfl

theorem append_implicit {n m : ℕ} (low : 2 ^ n ≤ m) (high : m < 2 ^ (n + 1)) :
    (1#1 ++ BitVec.ofNat n m).toNat = m := by
  have rest : m - 2 ^ n < 2 ^ n := by
    rw [pow_succ] at high
    omega
  have split : m % 2 ^ n = m - 2 ^ n := by rw [Nat.mod_eq_sub_mod low, Nat.mod_eq_of_lt rest]
  rw [BitVec.toNat_append, BitVec.toNat_ofNat m, split,
    ← Nat.shiftLeft_add_eq_or_of_lt rest, Nat.shiftLeft_eq]
  change 1 * 2 ^ n + _ = m
  omega

theorem unpack_pack {m : ℕ} {e : ℤ} (pos : 0 < m) (low : 2 ^ 52 ≤ m)
    (high : m < 2 ^ 53) (least : -1074 ≤ e) (greatest : e ≤ 971) :
    (Float.Model.pack (.finite .positive m e pos)).unpack = .finite .positive m e pos := by
  have log : m.log2 = 52 := (Nat.log2_eq_iff (by omega)).mpr ⟨low, high⟩
  obtain ⟨n, is⟩ : ∃ n : ℕ, (n : ℤ) = e + 1075 := ⟨(e + 1075).toNat, by omega⟩
  have packed : UnpackedFloat.pack Format.binary64 (.finite .positive m e pos) =
      packComponents Format.binary64 .positive (BitVec.ofNat 11 n) (BitVec.ofNat 52 m) := by
    have biased :
        (e + (Format.binary64.exponentBias : ℤ) +
          (Format.binary64.mantissaBitsWithoutImplicit : ℤ)).toNat = n := by
      change (e + 1023 + 52).toNat = n
      omega
    unfold UnpackedFloat.pack
    dsimp only
    rw [biased, log, if_neg (by change ¬ 2048 ≤ n + 1; omega)]
    exact if_pos rfl
  have exponent : (BitVec.ofNat 11 n).toNat = n := by
    rw [BitVec.toNat_ofNat]
    exact Nat.mod_eq_of_lt (by omega)
  have normal : BitVec.ofNat 11 n ≠ 0#11 := by
    intro zero
    have := congrArg BitVec.toNat zero
    rw [exponent, BitVec.toNat_zero] at this
    omega
  have finite : BitVec.ofNat 11 n ≠ -1#11 := by
    intro ones
    have := congrArg BitVec.toNat ones
    rw [exponent] at this
    change n = 2047 at this
    omega
  change UnpackedFloat.unpack Format.binary64 (UnpackedFloat.pack Format.binary64 _) = _
  rw [packed, @unpack_packComponents Format.binary64 _ (BitVec.ofNat 11 n)
    (BitVec.ofNat 52 m) normal finite]
  refine finite_congr (append_implicit low high) ?_
  rw [exponent, is]
  change e + 1075 - (1023 + 52) = e
  omega

def HasValue (f : Float) (value : ℚ) : Prop :=
  ∃ m e pos, f.toModel.unpack = .finite .positive m e pos ∧ 2 ^ 52 ≤ m ∧
    m < 2 ^ 53 ∧ value = m * 2 ^ e

/-- What rounding gives a positive normal number for. -/
def InRange (x : ℚ) : Prop := 0 < x ∧ -1022 ≤ Int.log 2 x ∧ Int.log 2 x ≤ 1022

theorem hasValue_rounded {m : ℕ} {e : ℤ} {accuracy : Accuracy} {x : ℚ} (positive : 0 < m)
    (approximates : Represents (ExtendedMantissa.ofMantissaAndAccuracy m accuracy) (x / 2 ^ e))
    (range : InRange x) (fine : e ≤ lastBit x) :
    HasValue (.ofModel (.pack (roundWithAccuracy Format.binary64 .positive m e accuracy)))
      (rounded x) := by
  obtain ⟨m', e', pos, is, low, high, value, least, greatest⟩ :=
    roundWithAccuracy_spec .positive positive approximates range.2.1 fine
  have range := range.2
  unfold lastBit at least greatest
  refine ⟨m', e', pos, ?_, low, high, value.symm⟩
  rw [is]
  exact unpack_pack pos low high (by omega) (by omega)

theorem HasValue.mul {a b : Float} {x y : ℚ} (left : HasValue a x) (right : HasValue b y)
    (range : InRange (x * y)) :
    HasValue (a * b) (rounded (x * y)) := by
  obtain ⟨m₁, e₁, pos₁, is₁, low₁, -, rfl⟩ := left
  obtain ⟨m₂, e₂, pos₂, is₂, low₂, -, rfl⟩ := right
  have product : (m₁ * 2 ^ e₁ : ℚ) * (m₂ * 2 ^ e₂) / 2 ^ (e₁ + e₂) = (m₁ * m₂ : ℕ) := by
    rw [zpow_add₀ two_ne_zero, mul_mul_mul_comm, mul_div_assoc,
      div_self (mul_pos (two_zpow_pos _) (two_zpow_pos _)).ne']
    push_cast
    ring
  have exact_ := represents_exact (m₁ * m₂)
  rw [← product] at exact_
  have positive : 0 < m₁ * m₂ := Nat.mul_pos pos₁ pos₂
  obtain ⟨-, log⟩ := log_of_represents positive exact_
  have bits : 104 ≤ (m₁ * m₂).log2 :=
    (Nat.le_log2 positive.ne').mpr
      ((by norm_num : 2 ^ 104 ≤ 2 ^ 52 * 2 ^ 52).trans (Nat.mul_le_mul low₁ low₂))
  have result := hasValue_rounded positive exact_ range (by unfold lastBit; omega)
  have is : a * b =
      .ofModel (.pack (UnpackedFloat.mul Format.binary64 a.toModel.unpack b.toModel.unpack)) := rfl
  rw [is, is₁, is₂]
  exact result

section Quotient
variable {m₁ m₂ : ℕ} {e₁ e₂ : ℤ}

theorem quotient_eq : (m₁ * 2 ^ e₁ : ℚ) / (m₂ * 2 ^ e₂) = m₁ * 2 ^ (e₁ - e₂) / m₂ := by
  rw [zpow_sub₀ two_ne_zero, mul_div_assoc', div_div, mul_comm (m₂ : ℚ)]

theorem log_quotient_mem (low₁ : 2 ^ 52 ≤ m₁) (high₁ : m₁ < 2 ^ 53)
    (low₂ : 2 ^ 52 ≤ m₂) (high₂ : m₂ < 2 ^ 53) :
    0 < (m₁ * 2 ^ e₁ : ℚ) / (m₂ * 2 ^ e₂) ∧
      e₁ - e₂ - 1 ≤ Int.log 2 ((m₁ * 2 ^ e₁ : ℚ) / (m₂ * 2 ^ e₂)) ∧
      Int.log 2 ((m₁ * 2 ^ e₁ : ℚ) / (m₂ * 2 ^ e₂)) ≤ e₁ - e₂ := by
  have pos₁ : (0 : ℚ) < m₁ := Nat.cast_pos.mpr ((by norm_num : 0 < 2 ^ 52).trans_le low₁)
  have pos₂ : (0 : ℚ) < m₂ := Nat.cast_pos.mpr ((by norm_num : 0 < 2 ^ 52).trans_le low₂)
  have step := two_zpow_pos (e₁ - e₂)
  have some_ : 0 < (m₁ * 2 ^ (e₁ - e₂) / m₂ : ℚ) := div_pos (mul_pos pos₁ step) pos₂
  have double : (m₂ : ℚ) ≤ 2 * m₁ := by exact_mod_cast (by omega : m₂ ≤ 2 * m₁)
  have double' : (m₁ : ℚ) < 2 * m₂ := by exact_mod_cast (by omega : m₁ < 2 * m₂)
  rw [quotient_eq]
  refine ⟨some_, (Int.zpow_le_iff_le_log one_lt_two some_).mp ?_,
    Int.lt_add_one_iff.mp ((Int.lt_zpow_iff_log_lt one_lt_two some_).mp ?_)⟩
  · rw [Nat.cast_ofNat, le_div_iff₀ pos₂, zpow_sub_one₀ two_ne_zero]
    linarith [mul_le_mul_of_nonneg_left double step.le]
  · rw [Nat.cast_ofNat, div_lt_iff₀ pos₂, zpow_add_one₀ two_ne_zero]
    linarith [mul_lt_mul_of_pos_left double' step]

theorem divCore_spec (low₁ : 2 ^ 52 ≤ m₁) (high₁ : m₁ < 2 ^ 53)
    (low₂ : 2 ^ 52 ≤ m₂) (high₂ : m₂ < 2 ^ 53)
    (normal : -1022 ≤ Int.log 2 ((m₁ * 2 ^ e₁ : ℚ) / (m₂ * 2 ^ e₂))) :
    ∃ s : ℕ, 1 ≤ s ∧ e₁ - e₂ - s ≤ lastBit ((m₁ * 2 ^ e₁ : ℚ) / (m₂ * 2 ^ e₂)) ∧
      divCore Format.binary64 m₁ e₁ m₂ e₂ =
        (m₁ <<< s / m₂, e₁ - e₂ - s, accuracyOfFraction (m₁ <<< s % m₂) m₂) := by
  obtain ⟨-, least, most⟩ := @log_quotient_mem m₁ m₂ e₁ e₂ low₁ high₁ low₂ high₂
  have log₁ : m₁.log2 = 52 := (Nat.log2_eq_iff (by omega)).mpr ⟨low₁, high₁⟩
  have log₂ : m₂.log2 = 52 := (Nat.log2_eq_iff (by omega)).mpr ⟨low₂, high₂⟩
  obtain ⟨e, is⟩ : ∃ e, e = min (e₁ - e₂)
      (Format.binary64.targetExponent (totalExponent m₁ e₁ - totalExponent m₂ e₂)) := ⟨_, rfl⟩
  have target : e = max (e₁ - e₂ - 53) (-1074) := by
    rw [is]
    unfold Format.targetExponent totalExponent Format.mantissaBits
      Format.minExponent Format.mantissaBits
    rw [log₁, log₂]
    norm_num
    omega
  refine ⟨(e₁ - e₂ - e).toNat, by omega, ?_, ?_⟩
  · unfold lastBit
    omega
  · unfold divCore
    dsimp only
    rw [← is, show e₁ - e₂ - ((e₁ - e₂ - e).toNat : ℤ) = e by omega]

end Quotient

theorem HasValue.div {a b : Float} {x y : ℚ} (left : HasValue a x) (right : HasValue b y)
    (range : InRange (x / y)) :
    HasValue (a / b) (rounded (x / y)) := by
  obtain ⟨m₁, e₁, pos₁, is₁, low₁, high₁, rfl⟩ := left
  obtain ⟨m₂, e₂, pos₂, is₂, low₂, high₂, rfl⟩ := right
  obtain ⟨s, more, fine, core⟩ := divCore_spec low₁ high₁ low₂ high₂ range.2.1
  have quotient : (m₁ * 2 ^ e₁ : ℚ) / (m₂ * 2 ^ e₂) / 2 ^ (e₁ - e₂ - s) = (m₁ <<< s : ℕ) / m₂ := by
    rw [quotient_eq, div_right_comm, mul_div_assoc, ← zpow_sub₀ two_ne_zero,
      sub_sub_cancel, zpow_natCast, Nat.shiftLeft_eq]
    push_cast
    rfl
  have positive : 0 < m₁ <<< s / m₂ := by
    rw [Nat.div_pos_iff]
    refine ⟨pos₂, ?_⟩
    rw [Nat.shiftLeft_eq]
    calc m₂ ≤ m₁ * 2 ^ 1 := by omega
      _ ≤ m₁ * 2 ^ s := Nat.mul_le_mul_left _ (Nat.pow_le_pow_right (by norm_num) more)
  have approximates := represents_div (m₁ <<< s) pos₂
  rw [← quotient] at approximates
  have result := hasValue_rounded positive approximates range fine
  have is : a / b =
      .ofModel (.pack (UnpackedFloat.div Format.binary64 a.toModel.unpack b.toModel.unpack)) := rfl
  rw [is, is₁, is₂]
  unfold UnpackedFloat.div
  dsimp only
  rw [core]
  exact result

theorem inRange_of_between {x : ℚ} {low high : ℤ} (above : 2 ^ low ≤ x)
    (below : x ≤ 2 ^ high) (least : -1022 ≤ low) (most : high ≤ 1022) : InRange x := by
  have some_ : 0 < x := (two_zpow_pos low).trans_le above
  have := (Int.zpow_le_iff_le_log one_lt_two some_).mp above
  have := (Int.lt_zpow_iff_log_lt one_lt_two some_).mp
    (below.trans_lt (zpow_lt_zpow_right₀ one_lt_two (lt_add_one high)))
  exact ⟨some_, by omega, by omega⟩

theorem word_mem {n : ℕ} (positive : 0 < n) (word : n < 2 ^ 64) :
    (2 : ℚ) ^ (0 : ℤ) ≤ n ∧ (n : ℚ) ≤ 2 ^ (64 : ℤ) := by
  rw [zpow_zero]
  exact ⟨by exact_mod_cast positive, by exact_mod_cast word.le⟩

theorem inRange_natCast {n : ℕ} (positive : 0 < n) (word : n < 2 ^ 64) : InRange n :=
  inRange_of_between (word_mem positive word).1 (word_mem positive word).2
    (by norm_num) (by norm_num)

theorem hasValue_toFloat {n : ℕ} (positive : 0 < n) (bits : n < 2 ^ 53) :
    HasValue n.toUInt64.toFloat (rounded n) := by
  have range := inRange_natCast positive (bits.trans (by norm_num))
  have log : Int.log 2 (n : ℚ) = n.log2 := by
    have exact_ := represents_exact n
    rw [← div_one (n : ℚ), ← zpow_zero (2 : ℚ)] at exact_
    simpa using (log_of_represents positive exact_).2
  have few : n.log2 < 53 := (Nat.log2_lt positive.ne').mpr bits
  obtain ⟨s, last⟩ : ∃ s : ℕ, lastBit (n : ℚ) = -s := ⟨52 - n.log2, by unfold lastBit; omega⟩
  have target : Format.binary64.targetExponent (totalExponent n 0) = -s := by
    rw [targetExponent_normal (by rw [log, add_zero]) range.2.1, last]
  have exact_ := represents_exact (n <<< s)
  have shifted : ((n <<< s : ℕ) : ℚ) = n / 2 ^ (-s : ℤ) := by
    rw [zpow_neg, div_inv_eq_mul, zpow_natCast, Nat.shiftLeft_eq]
    push_cast
    rfl
  rw [shifted] at exact_
  have result :=
    hasValue_rounded
      (Nat.shiftLeft_eq n s ▸ Nat.mul_pos positive (Nat.two_pow_pos s)) exact_ range last.ge
  have word : n.toUInt64.toNat = n := Nat.mod_eq_of_lt (bits.trans (by norm_num))
  have is : n.toUInt64.toFloat =
      .ofModel (.pack (UnpackedFloat.normalize Format.binary64 n.toUInt64.toNat 0 .positive)) := rfl
  rw [is, word]
  unfold UnpackedFloat.normalize
  rw [show compare (n : ℤ) 0 = .gt from Int.compare_eq_gt.mpr (by omega)]
  dsimp only
  unfold UnpackedFloat.round decreaseExponent
  dsimp only
  rw [Int.toNat_natCast, target, sub_neg_eq_add, zero_add, Int.toNat_natCast, zero_sub]
  exact result

theorem hasValue_ofScientific {n : ℕ} (positive : 0 < n) (word : n < 2 ^ 64) :
    HasValue (.ofModel (Float.Model.ofScientific n 0)) (rounded n) := by
  have range := inRange_natCast positive word
  have exact_ := represents_exact ((n <<< 53) * 10 ^ Int.toNat 0)
  have shifted : (((n <<< 53) * 10 ^ Int.toNat 0 : ℕ) : ℚ) = n / 2 ^ (-53 + 0 : ℤ) := by
    rw [Nat.shiftLeft_eq]
    norm_num
    ring
  rw [shifted] at exact_
  have log : (0 : ℤ) ≤ Int.log 2 (n : ℚ) :=
    (Int.zpow_le_iff_le_log one_lt_two range.1).mp (by simpa using (word_mem positive word).1)
  have some_ : 0 < (n <<< 53) * 10 ^ Int.toNat 0 := by
    rw [Nat.shiftLeft_eq]
    positivity
  have result := hasValue_rounded some_ exact_ range (by unfold lastBit; omega)
  have is : Float.Model.ofScientific n 0 = .pack (UnpackedFloat.ofScientific Format.binary64 n 0) :=
    rfl
  rw [is]
  unfold UnpackedFloat.ofScientific
  rw [dif_neg positive.ne', if_neg (by norm_num), if_neg (by norm_num), if_pos le_rfl]
  exact result

theorem hasValue_ofNat {n : ℕ} (positive : 0 < n) (word : n < 2 ^ 64) :
    HasValue (Float.ofNat n) (rounded n) := by
  have range := inRange_natCast positive word
  by_cases few : n < 2 ^ 53
  · -- a short number is converted, and multiplied by one
    have is : Float.ofNat n = n.toUInt64.toFloat * Float.ofBits 0x3FF0000000000000 :=
      dif_pos ⟨few, by norm_num⟩
    have one : HasValue (Float.ofBits 0x3FF0000000000000) 1 :=
      ⟨2 ^ 52, -52, by norm_num, rfl, le_rfl, by norm_num, by norm_num⟩
    obtain ⟨low, high⟩ := rounded_mem (word_mem positive word).1 (word_mem positive word).2
    have same : InRange (rounded n * 1) := by
      rw [mul_one]
      exact inRange_of_between low high (by norm_num) (by norm_num)
    have product := (hasValue_toFloat positive few).mul one same
    rw [mul_one, rounded_rounded range.1] at product
    rw [is]
    exact product
  · have is : Float.ofNat n = .ofModel (Float.Model.ofScientific n 0) :=
      dif_neg fun short => few short.1
    rw [is]
    exact hasValue_ofScientific positive word

theorem hasValue_one : HasValue 1.0 1 :=
  ⟨2 ^ 52, -52, by norm_num, rfl, le_rfl, by norm_num, by norm_num⟩

theorem compare_normal {m₁ m₂ : ℕ} {e₁ e₂ : ℤ} (low₁ : 2 ^ 52 ≤ m₁)
    (high₁ : m₁ < 2 ^ 53) (low₂ : 2 ^ 52 ≤ m₂) (high₂ : m₂ < 2 ^ 53) :
    (compare e₁ e₂).then (compare m₁ m₂) = compare (m₁ * 2 ^ e₁ : ℚ) (m₂ * 2 ^ e₂) := by
  have below {m m' : ℕ} {e e' : ℤ} (high : m < 2 ^ 53) (low : 2 ^ 52 ≤ m') (less : e < e') :
      (m * 2 ^ e : ℚ) < m' * 2 ^ e' := by
    calc (m * 2 ^ e : ℚ) < ((2 ^ 53 : ℕ) : ℚ) * 2 ^ e :=
      mul_lt_mul_of_pos_right (Nat.cast_lt.mpr high) (two_zpow_pos e)
      _ = ((2 ^ 52 : ℕ) : ℚ) * 2 ^ (e + 1) := by
        rw [zpow_add_one₀ two_ne_zero]
        norm_num
        ring
      _ ≤ ((2 ^ 52 : ℕ) : ℚ) * 2 ^ e' :=
        mul_le_mul_of_nonneg_left (zpow_le_zpow_right₀ one_le_two less) (Nat.cast_nonneg _)
      _ ≤ m' * 2 ^ e' := mul_le_mul_of_nonneg_right (Nat.cast_le.mpr low) (two_zpow_pos e').le
  rcases lt_trichotomy e₁ e₂ with less | rfl | greater
  · rw [compare_lt_iff_lt.mpr less, compare_lt_iff_lt.mpr (below high₁ low₂ less)]
    rfl
  · rw [compare_eq_iff_eq.mpr rfl, Ordering.eq_then]
    rcases lt_trichotomy m₁ m₂ with less | rfl | greater
    · rw [compare_lt_iff_lt.mpr less,
        compare_lt_iff_lt.mpr (mul_lt_mul_of_pos_right (Nat.cast_lt.mpr less) (two_zpow_pos e₁))]
    · rw [compare_eq_iff_eq.mpr rfl, compare_eq_iff_eq.mpr rfl]
    · rw [compare_gt_iff_gt.mpr greater,
        compare_gt_iff_gt.mpr (mul_lt_mul_of_pos_right (Nat.cast_lt.mpr greater) (two_zpow_pos e₁))]
  · rw [compare_gt_iff_gt.mpr greater, compare_gt_iff_gt.mpr (below high₂ low₁ greater)]
    rfl

theorem HasValue.compare {a b : Float} {x y : ℚ} (left : HasValue a x) (right : HasValue b y) :
    a.toModel.unpack.compare b.toModel.unpack = some (Ord.compare x y) := by
  obtain ⟨m₁, e₁, pos₁, is₁, low₁, high₁, rfl⟩ := left
  obtain ⟨m₂, e₂, pos₂, is₂, low₂, high₂, rfl⟩ := right
  rw [is₁, is₂, ← compare_normal low₁ high₁ low₂ high₂]
  rfl

theorem HasValue.le_iff {a b : Float} {x y : ℚ} (left : HasValue a x)
    (right : HasValue b y) : a ≤ b ↔ x ≤ y := by
  change decide ((a.toModel.unpack.compare b.toModel.unpack).any (·.isLE) = true) = true ↔ x ≤ y
  rw [left.compare right, decide_eq_true_iff, Option.any_some, Ordering.isLE_iff_ne_gt]
  exact compare_le_iff_le

theorem HasValue.lt_iff {a b : Float} {x y : ℚ} (left : HasValue a x)
    (right : HasValue b y) : a < b ↔ x < y := by
  change decide ((a.toModel.unpack.compare b.toModel.unpack == some .lt) = true) = true ↔ x < y
  rw [left.compare right, decide_eq_true_iff, beq_iff_eq, Option.some_inj, compare_lt_iff_lt]

theorem HasValue.nonneg {a : Float} {x : ℚ} (value : HasValue a x) : 0 ≤ a := by
  obtain ⟨m, e, some_, is, -⟩ := value
  have zero : (0 : Float).toModel.unpack = .zero .positive := rfl
  change decide (((0 : Float).toModel.unpack.compare a.toModel.unpack).any (·.isLE) = true) = true
  rw [zero, is]
  rfl

theorem HasValue.ne_zero {a : Float} {x : ℚ} (value : HasValue a x) : a ≠ 0 := by
  rintro rfl
  obtain ⟨m, e, some_, is, -⟩ := value
  have zero : (0 : Float).toModel.unpack = .zero .positive := rfl
  rw [zero] at is
  cases is

def NotNegative : UnpackedFloat → Prop
  | .zero .positive => True
  | .finite .positive .. => True
  | .infinity .positive => True
  | _ => False

def Nonneg (f : Float) : Prop := NotNegative f.toModel.unpack

theorem notNegative_dite {c : Prop} [Decidable c] {u : c → UnpackedFloat} {v : ¬ c → UnpackedFloat}
    (yes : ∀ h, NotNegative (u h)) (no : ∀ h, NotNegative (v h)) : NotNegative (dite c u v) := by
  by_cases h : c
  · rw [dif_pos h]
    exact yes h
  · rw [dif_neg h]
    exact no h

theorem notNegative_roundWithAccuracy (m : ℕ) (e : ℤ) (accuracy : Accuracy) :
    NotNegative (roundWithAccuracy Format.binary64 .positive m e accuracy) :=
  notNegative_dite (fun _ => trivial) fun _ => trivial

theorem notNegative_unpack_packComponents {spec : Format} {exponent : BitVec spec.exponentBits}
    {mantissa : BitVec spec.mantissaBitsWithoutImplicit} (finite : exponent ≠ -1#_) :
    NotNegative (UnpackedFloat.unpack spec (packComponents spec .positive exponent mantissa)) := by
  unfold UnpackedFloat.unpack
  dsimp only
  rw [unpackExponent_packComponents, if_neg finite, unpackSign_packComponents]
  have positive : Sign.ofBitVec Sign.positive.toBitVec = .positive := rfl
  rw [positive]
  by_cases subnormal : exponent = 0#_
  · rw [if_pos subnormal]
    exact notNegative_dite (fun _ => trivial) fun _ => trivial
  · rw [if_neg subnormal]
    trivial

theorem notNegative_unpack_pack {u : UnpackedFloat} (sign : NotNegative u) :
    NotNegative (Float.Model.pack u).unpack := by
  match u, sign with
  | .zero .positive, _ => trivial
  | .infinity .positive, _ => trivial
  | .finite .positive m e pos, _ =>
      change NotNegative
        (UnpackedFloat.unpack Format.binary64 (UnpackedFloat.pack Format.binary64 _))
      unfold UnpackedFloat.pack
      dsimp only
      generalize (e + (Format.binary64.exponentBias : ℤ) +
        (Format.binary64.mantissaBitsWithoutImplicit : ℤ)).toNat = n
      have notOnes (small : ¬ 2048 ≤ n + 1) : BitVec.ofNat 11 n ≠ -1#11 := by
        intro ones
        have value := congrArg BitVec.toNat ones
        rw [BitVec.toNat_ofNat] at value
        change n % 2048 = 2047 at value
        omega
      split
      · trivial
      next small =>
        split
        · exact @notNegative_unpack_packComponents Format.binary64
            (BitVec.ofNat 11 n) _ (notOnes small)
        · exact @notNegative_unpack_packComponents Format.binary64 0#11 _ (by decide)

theorem nonneg_zero : Nonneg 0 := trivial

theorem HasValue.isNonneg {a : Float} {x : ℚ} (value : HasValue a x) : Nonneg a := by
  obtain ⟨m, e, pos, is, -⟩ := value
  rw [Nonneg, is]
  trivial

theorem Nonneg.nonneg {a : Float} (sign : Nonneg a) : 0 ≤ a := by
  have zero : (0 : Float).toModel.unpack = .zero .positive := rfl
  change decide (((0 : Float).toModel.unpack.compare a.toModel.unpack).any (·.isLE) = true) = true
  rw [zero]
  unfold Nonneg at sign
  generalize a.toModel.unpack = u at sign ⊢
  match u, sign with
  | .zero .positive, _ => rfl
  | .finite .positive _ _ _, _ => rfl
  | .infinity .positive, _ => rfl

theorem notNegative_normalize {m : ℤ} (sign : 0 ≤ m) (e : ℤ) :
    NotNegative (UnpackedFloat.normalize Format.binary64 m e .positive) := by
  unfold UnpackedFloat.normalize
  rcases sign.eq_or_lt with rfl | positive
  · trivial
  · rw [show compare m 0 = .gt from Int.compare_eq_gt.mpr positive]
    exact notNegative_roundWithAccuracy _ _ _

theorem notNegative_add {u v : UnpackedFloat} (left : NotNegative u) (right : NotNegative v) :
    NotNegative (UnpackedFloat.add Format.binary64 u v) := by
  match u, left, v, right with
  | .zero .positive, _, .zero .positive, _ => trivial
  | .zero .positive, _, .finite .positive _ _ _, _ => trivial
  | .zero .positive, _, .infinity .positive, _ => trivial
  | .finite .positive _ _ _, _, .zero .positive, _ => trivial
  | .finite .positive _ _ _, _, .infinity .positive, _ => trivial
  | .infinity .positive, _, .zero .positive, _ => trivial
  | .infinity .positive, _, .finite .positive _ _ _, _ => trivial
  | .infinity .positive, _, .infinity .positive, _ => trivial
  | .finite .positive m₁ e₁ _, _, .finite .positive m₂ e₂ _, _ =>
      exact notNegative_normalize (add_nonneg (Int.natCast_nonneg _) (Int.natCast_nonneg _)) _

theorem Nonneg.add {a b : Float} (left : Nonneg a) (right : Nonneg b) : Nonneg (a + b) := by
  have is : a + b =
      .ofModel (.pack (UnpackedFloat.add Format.binary64 a.toModel.unpack b.toModel.unpack)) := rfl
  unfold Nonneg at *
  rw [is]
  exact notNegative_unpack_pack (notNegative_add left right)

theorem Nonneg.div {a b : Float} {y : ℚ} (left : Nonneg a)
    (right : HasValue b y) : Nonneg (a / b) := by
  have is : a / b =
      .ofModel (.pack (UnpackedFloat.div Format.binary64 a.toModel.unpack b.toModel.unpack)) := rfl
  obtain ⟨m, e, pos, value, -⟩ := right
  unfold Nonneg at *
  rw [is, value]
  apply notNegative_unpack_pack
  generalize a.toModel.unpack = u at left ⊢
  match u, left with
  | .zero .positive, _ => trivial
  | .finite .positive _ _ _, _ => exact notNegative_roundWithAccuracy _ _ _
  | .infinity .positive, _ => trivial

theorem HasValue.zero_add {a : Float} {x : ℚ} (value : HasValue a x) (range : InRange x) :
    HasValue (0.0 + a) x := by
  obtain ⟨m, e, pos, is, low, high, rfl⟩ := value
  have log : Int.log 2 (m * 2 ^ e : ℚ) = 52 + e := by
    have bits : m.log2 = 52 := (Nat.log2_eq_iff pos.ne').mpr ⟨low, high⟩
    have exact_ := represents_exact m
    rw [← mul_div_cancel_right₀ (m : ℚ) (two_zpow_pos e).ne'] at exact_
    rw [(log_of_represents pos exact_).2, bits]
    rfl
  have sum : (0.0 : Float) + a =
      .ofModel (.pack
        (UnpackedFloat.add Format.binary64 (0.0 : Float).toModel.unpack a.toModel.unpack)) :=
    rfl
  have zero : (0.0 : Float).toModel.unpack = .zero .positive := rfl
  obtain ⟨-, least, most⟩ := range
  refine ⟨m, e, pos, ?_, low, high, rfl⟩
  rw [sum, zero, is]
  exact unpack_pack pos low high (by omega) (by omega)

theorem HasValue.zero_div {b : Float} {y : ℚ} (value : HasValue b y) : 0 / b = 0 := by
  obtain ⟨m, e, pos, is, -⟩ := value
  have quotient : 0 / b =
      .ofModel (.pack
        (UnpackedFloat.div Format.binary64 (0 : Float).toModel.unpack b.toModel.unpack)) := rfl
  have zero : (0 : Float).toModel.unpack = .zero .positive := rfl
  rw [quotient, zero, is]
  rfl

end LocalPC.Lib
