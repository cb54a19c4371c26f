import Mathlib.Algebra.Order.Ring.Int
import Mathlib.Data.Option.Basic

/-!
# Signed integers of a fixed width

A result that does not fit the type is undefined; so is the cast of a double whose integer part does not.
-/

namespace LocalPC.Lib
open Float.Model

def FitsSigned (bits : Nat) (x : Int) : Prop := -2 ^ (bits - 1) ≤ x ∧ x < 2 ^ (bits - 1)

instance (bits : Nat) (x : Int) : Decidable (FitsSigned bits x) :=
  inferInstanceAs (Decidable (_ ∧ _))

def signed? (bits : Nat) (x : Int) : Option Int := if FitsSigned bits x then some x else none

theorem signed?_eq_some {bits : Nat} {x y : Int} :
    signed? bits x = some y ↔ FitsSigned bits x ∧ x = y := by
  unfold signed?
  split
  next fits => simp [fits]
  next overflow => simp [overflow]

theorem bmod_of_fits {bits : Nat} {x : Int} (positive : 0 < bits) (fits : FitsSigned bits x) :
    x.bmod (2 ^ bits) = x := by
  obtain ⟨low, high⟩ := fits
  have double : (2 : Int) ^ bits = 2 * 2 ^ (bits - 1) := by
    rw [Int.mul_comm, ← Int.pow_succ, Nat.succ_eq_add_one, Nat.sub_add_cancel positive]
  apply Int.bmod_eq_of_le
  · push_cast
    omega
  · push_cast
    omega

theorem foldlM_eq_some {α β : Type} {f : β → α → Option β} {g : β → α → β} {Defined : α → Prop}
    (step : ∀ b a b', f b a = some b' ↔ Defined a ∧ g b a = b') (xs : List α) (b b' : β) :
    xs.foldlM f b = some b' ↔ (∀ a ∈ xs, Defined a) ∧ xs.foldl g b = b' := by
  induction xs generalizing b with
  | nil => simp
  | cons a xs ih =>
      rw [List.foldlM_cons, List.foldl_cons, List.forall_mem_cons, Option.bind_eq_bind,
        Option.bind_eq_some_iff]
      constructor
      · rintro ⟨next, first, rest⟩
        obtain ⟨here, rfl⟩ := (step b a next).mp first
        obtain ⟨later, result⟩ := (ih _).mp rest
        exact ⟨⟨here, later⟩, result⟩
      · rintro ⟨⟨here, later⟩, result⟩
        exact ⟨g b a, (step b a _).mpr ⟨here, rfl⟩, (ih _).mpr ⟨later, result⟩⟩

/-- The integer part of a double that is a finite number. -/
def truncated (d : Float) : Option Int :=
  match d.toModel.unpack with
  | .notANumber | .infinity _ => none
  | finite => some (finite.toInt 0 0)

def signedCast? (bits : Nat) (d : Float) : Option Int := (truncated d).bind (signed? bits)

theorem signedCast?_eq_some {bits : Nat} {d : Float} {x : Int} :
    signedCast? bits d = some x ↔ truncated d = some x ∧ FitsSigned bits x := by
  simp only [signedCast?, Option.bind_eq_some_iff, signed?_eq_some]
  constructor
  · rintro ⟨y, whole, fits, rfl⟩
    exact ⟨whole, fits⟩
  · rintro ⟨whole, fits⟩
    exact ⟨x, whole, fits, rfl⟩

/-- `static_cast` of a double as x86-64 makes it, where the least number stands for all that do not
fit. -/
def castSigned (bits : Nat) (d : Float) : Int := (signedCast? bits d).getD (-2 ^ (bits - 1))

theorem castSigned_eq {bits : Nat} {d : Float} {x : Int} (cast : signedCast? bits d = some x) :
    castSigned bits d = x := by
  rw [castSigned, cast, Option.getD_some]

def castInt64 (d : Float) : Int := castSigned 64 d
def castInt (d : Float) : Int := castSigned 32 d

end LocalPC.Lib
