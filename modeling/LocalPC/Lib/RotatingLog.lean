import Mathlib.Data.List.Infix
import Mathlib.Data.List.Flatten
import Mathlib.Logic.Function.Basic

namespace LocalPC.Lib

abbrev Generations (α : Type*) := Nat → Option (List α)

namespace Generations
variable {α : Type*} {gens : Generations α} {i m n : Nat}

/-- The records of the generations up to `n`, the oldest first. -/
def oldestFirst (gens : Generations α) : Nat → List α
  | 0 => (gens 0).getD []
  | n + 1 => (gens (n + 1)).getD [] ++ oldestFirst gens n

def moveUp (i : Nat) (gens : Generations α) : Generations α :=
  if (gens i).isSome then Function.update (Function.update gens (i + 1) (gens i)) i none else gens

def moves : Nat → Nat → Generations α → Generations α
  | m + 1, k + 1, gens => moves m k (moveUp m gens)
  | _, _, gens => gens

def record (r : α) (gens : Generations α) : Generations α :=
  Function.update gens 0 (some ((gens 0).getD [] ++ [r]))

theorem oldestFirst_congr {gens' : Generations α} (same : ∀ g ≤ n, gens' g = gens g) :
    oldestFirst gens' n = oldestFirst gens n := by
  induction n with
  | zero => rw [oldestFirst, oldestFirst, same 0 (Nat.le_refl 0)]
  | succ n ih =>
      rw [oldestFirst, oldestFirst, same (n + 1) (Nat.le_refl _),
        ih fun g bound => same g (Nat.le_succ_of_le bound)]

theorem oldestFirst_record (r : α) : oldestFirst (record r gens) n = oldestFirst gens n ++ [r] := by
  induction n with
  | zero => rw [oldestFirst, record, Function.update_self, Option.getD_some, oldestFirst]
  | succ n ih =>
      rw [oldestFirst, ih, oldestFirst, List.append_assoc, record,
        Function.update_of_ne (Nat.succ_ne_zero n)]

@[simp] theorem moveUp_self : moveUp i gens i = none := by
  unfold moveUp
  split
  · exact Function.update_self ..
  · rename_i missing
    simpa using missing

theorem moveUp_succ (there : (gens i).isSome = true) : moveUp i gens (i + 1) = gens i := by
  rw [moveUp, if_pos there, Function.update_of_ne (Nat.succ_ne_self i), Function.update_self]

theorem moveUp_other {g : Nat} (notHere : g ≠ i) (notNext : g ≠ i + 1) :
    moveUp i gens g = gens g := by
  unfold moveUp
  split
  · rw [Function.update_of_ne notHere, Function.update_of_ne notNext]
  · rfl

theorem oldestFirst_moveUp_succ (there : (gens i).isSome = true) :
    oldestFirst (moveUp i gens) (i + 1) = oldestFirst gens i := by
  cases i with
  | zero => simp [oldestFirst, moveUp_succ there]
  | succ i =>
      have below : oldestFirst (moveUp (i + 1) gens) i = oldestFirst gens i :=
        oldestFirst_congr fun g few => moveUp_other (by omega) (by omega)
      rw [oldestFirst, oldestFirst, below, moveUp_succ there, moveUp_self]
      rfl

theorem oldestFirst_moveUp_vacant (bound : i < n) (vacant : gens (i + 1) = none) :
    oldestFirst (moveUp i gens) n = oldestFirst gens n := by
  by_cases there : (gens i).isSome = true
  · obtain ⟨d, rfl⟩ := Nat.exists_eq_add_of_le bound
    clear bound
    induction d with
    | zero =>
        rw [Nat.add_zero, oldestFirst_moveUp_succ there, oldestFirst, vacant]
        rfl
    | succ d ih =>
        rw [← Nat.add_assoc, oldestFirst, oldestFirst, ih, moveUp_other (by omega) (by omega)]
  · rw [moveUp, if_neg there]

theorem oldestFirst_moveUp_last :
    oldestFirst (moveUp i gens) (i + 1) <:+ oldestFirst gens (i + 1) := by
  by_cases there : (gens i).isSome = true
  · rw [oldestFirst_moveUp_succ there]
    exact List.suffix_append _ _
  · rw [moveUp, if_neg there]

theorem oldestFirst_moves_vacant (k : Nat) (bound : m ≤ n) (vacant : gens m = none) :
    oldestFirst (moves m k gens) n = oldestFirst gens n := by
  induction m generalizing k gens with
  | zero => cases k <;> rfl
  | succ m ih =>
      cases k with
      | zero => rfl
      | succ k =>
          exact (ih k (Nat.le_of_lt bound) moveUp_self).trans
            (oldestFirst_moveUp_vacant bound vacant)

theorem oldestFirst_moves (k : Nat) : oldestFirst (moves n k gens) n <:+ oldestFirst gens n := by
  cases n with
  | zero => cases k <;> exact List.suffix_refl _
  | succ n =>
      cases k with
      | zero => exact List.suffix_refl _
      | succ k =>
          show oldestFirst (moves n k (moveUp n gens)) (n + 1) <:+ _
          rw [oldestFirst_moves_vacant k (Nat.le_succ n) moveUp_self]
          exact oldestFirst_moveUp_last

theorem moves_of_moved {k g : Nat} {records : List α} (found : moves m k gens g = some records) :
    ∃ g', gens g' = some records ∧ (g' = g ∨ g' < m ∧ g = g' + 1) := by
  induction m generalizing k gens with
  | zero =>
      refine ⟨g, ?_, .inl rfl⟩
      cases k <;> exact found
  | succ m ih =>
      cases k with
      | zero => exact ⟨g, found, .inl rfl⟩
      | succ k =>
          obtain ⟨g', before, place⟩ := ih found
          by_cases here : g' = m + 1
          · by_cases there : (gens m).isSome = true
            · rw [here, moveUp_succ there] at before
              exact ⟨m, before, .inr ⟨Nat.lt_succ_self m, by omega⟩⟩
            · rw [moveUp, if_neg there] at before
              exact ⟨g', before, place.imp_right fun moved => ⟨by omega, moved.2⟩⟩
          · have notLast : g' ≠ m := by
              rintro rfl
              rw [moveUp_self] at before
              cases before
            rw [moveUp_other notLast here] at before
            exact ⟨g', before, place.imp_right fun moved => ⟨by omega, moved.2⟩⟩

theorem moves_older {k g : Nat} (older : m < g) : moves m k gens g = gens g := by
  induction m generalizing k gens with
  | zero => cases k <;> rfl
  | succ m ih =>
      cases k with
      | zero => rfl
      | succ k => exact (ih (Nat.lt_of_succ_lt older)).trans (moveUp_other (by omega) (by omega))

theorem moves_newest (any : 0 < m) : moves m m gens 0 = none := by
  induction m generalizing gens with
  | zero => cases any
  | succ m ih =>
      rcases Nat.eq_zero_or_pos m with rfl | more
      · exact moveUp_self
      · exact ih more

theorem moves_whole {g : Nat}
    (steady : ∀ g < m, (gens (g + 1)).isSome = true → (gens g).isSome = true) (low : g < m) :
    moves m m gens (g + 1) = gens g := by
  induction m generalizing g gens with
  | zero => cases low
  | succ m ih =>
      show moves m m (moveUp m gens) (g + 1) = gens g
      rcases Nat.lt_succ_iff_lt_or_eq.mp low with below | rfl
      · have still : ∀ g < m, (moveUp m gens (g + 1)).isSome = true →
            (moveUp m gens g).isSome = true := by
          intro g below there
          by_cases here : g + 1 = m
          · rw [here, moveUp_self] at there
            cases there
          · rw [moveUp_other here (by omega)] at there
            rw [moveUp_other (by omega) (by omega)]
            exact steady g (Nat.lt_succ_of_lt below) there
        rw [ih still below, moveUp_other (by omega) (by omega)]
      · rw [moves_older (Nat.lt_succ_self _)]
        by_cases there : (gens g).isSome = true
        · exact moveUp_succ there
        · have none : gens (g + 1) = none := by
            by_contra present
            exact there (steady g low (Option.isSome_iff_ne_none.mpr present))
          have gone : gens g = .none := by simpa using there
          rw [moveUp, if_neg there, none, gone]

end Generations
end LocalPC.Lib
