import Mathlib.Data.Option.NAry
import Mathlib.Data.Prod.Lex
import Mathlib.Order.Compare

namespace LocalPC.Lib
open Float.Model

abbrev Place := ℤ ×ₗ ℤ ×ₗ ℤ

def place : UnpackedFloat → Option Place
  | .notANumber => none
  | .infinity .negative => some (toLex (-2, toLex (0, 0)))
  | .finite .negative m e _ => some (toLex (-1, toLex (-e, -m)))
  | .zero _ => some (toLex (0, toLex (0, 0)))
  | .finite .positive m e _ => some (toLex (1, toLex (e, m)))
  | .infinity .positive => some (toLex (2, toLex (0, 0)))

theorem compare_neg (a b : ℤ) : compare (-a) (-b) = (compare a b).swap := by
  rcases lt_trichotomy a b with less | rfl | greater
  · rw [compare_lt_iff_lt.mpr less, compare_gt_iff_gt.mpr (Int.neg_lt_neg less)]
    rfl
  · rw [compare_eq_iff_eq.mpr rfl, compare_eq_iff_eq.mpr rfl]
    rfl
  · rw [compare_gt_iff_gt.mpr greater, compare_lt_iff_lt.mpr (Int.neg_lt_neg greater)]
    rfl

theorem compare_natCast (m n : ℕ) : compare (m : ℤ) (n : ℤ) = compare m n := by
  rcases lt_trichotomy m n with less | rfl | greater
  · rw [compare_lt_iff_lt.mpr less, compare_lt_iff_lt.mpr (Int.ofNat_lt.mpr less)]
  · rw [compare_eq_iff_eq.mpr rfl, compare_eq_iff_eq.mpr rfl]
  · rw [compare_gt_iff_gt.mpr greater, compare_gt_iff_gt.mpr (Int.ofNat_lt.mpr greater)]

theorem compare_eq_place (u v : UnpackedFloat) :
    u.compare v = Option.map₂ compare (place u) (place v) := by
  cases u with
  | notANumber => cases v <;> rfl
  | infinity s =>
      cases s <;> cases v with
      | notANumber => rfl
      | infinity t => cases t <;> rfl
      | finite t => cases t <;> rfl
      | zero t => rfl
  | zero s =>
      cases v with
      | notANumber => rfl
      | infinity t => cases t <;> rfl
      | finite t => cases t <;> rfl
      | zero t => rfl
  | finite s m e pos =>
      cases v with
      | notANumber => cases s <;> rfl
      | infinity t => cases s <;> cases t <;> rfl
      | zero t => cases s <;> rfl
      | finite t m' e' pos' =>
          cases s <;> cases t
          · change some ((compare e e').then (compare m m')).swap =
              some ((compare (-e) (-e')).then (compare (-(m : ℤ)) (-(m' : ℤ))))
            rw [compare_neg, compare_neg, compare_natCast, Ordering.swap_then]
          · rfl
          · rfl
          · change some ((compare e e').then (compare m m')) =
              some ((compare e e').then (compare (m : ℤ) (m' : ℤ)))
            rw [compare_natCast]

def placeOf (x : Float) : Option Place := place x.toModel.unpack

theorem placeOf_isSome (x : Float) : (placeOf x).isSome = !x.isNaN := by
  change (place x.toModel.unpack).isSome = !x.toModel.unpack.isNaN
  cases x.toModel.unpack with
  | notANumber => rfl
  | infinity s => cases s <;> rfl
  | finite s => cases s <;> rfl
  | zero => rfl

theorem exists_place {x : Float} (number : x.isNaN = false) : ∃ p, placeOf x = some p := by
  rw [← Option.isSome_iff_exists, placeOf_isSome, number]
  rfl

theorem place_none {x : Float} (nan : x.isNaN = true) : placeOf x = none := by
  rw [← Option.isNone_iff_eq_none, ← Option.not_isSome, placeOf_isSome, nan]
  rfl

theorem lt_iff_place (a b : Float) : a < b ↔ ∃ p ∈ placeOf a, ∃ q ∈ placeOf b, p < q := by
  change decide ((a.toModel.unpack.compare b.toModel.unpack == some .lt) = true) = true ↔ _
  rw [decide_eq_true_iff, beq_iff_eq, compare_eq_place, Option.map₂_eq_some_iff]
  simp only [compare_lt_iff_lt, placeOf, Option.mem_def]
  constructor
  · rintro ⟨p, q, atA, atB, less⟩
    exact ⟨p, atA, q, atB, less⟩
  · rintro ⟨p, atA, q, atB, less⟩
    exact ⟨p, q, atA, atB, less⟩

theorem le_iff_place (a b : Float) : a ≤ b ↔ ∃ p ∈ placeOf a, ∃ q ∈ placeOf b, p ≤ q := by
  change decide ((a.toModel.unpack.compare b.toModel.unpack).any (·.isLE) = true) = true ↔ _
  rw [decide_eq_true_iff, compare_eq_place]
  unfold placeOf
  cases place a.toModel.unpack with
  | none => simp
  | some p =>
      cases place b.toModel.unpack with
      | none => simp
      | some q => simp [Ordering.isLE_iff_ne_gt, compare_le_iff_le]

end LocalPC.Lib
