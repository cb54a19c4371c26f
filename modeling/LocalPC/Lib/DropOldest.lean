import Mathlib.Algebra.BigOperators.Group.List.Basic

namespace LocalPC.Lib
variable {α : Type*} (full : List α → Bool)

def dropOldest : List α → List α
  | [] => []
  | oldest :: rest => if full (oldest :: rest) then dropOldest rest else oldest :: rest

def oldestDropped : List α → List α
  | [] => []
  | oldest :: rest => if full (oldest :: rest) then oldest :: oldestDropped rest else []

theorem dropped_append_kept (queue : List α) :
    oldestDropped full queue ++ dropOldest full queue = queue := by
  induction queue with
  | nil => rfl
  | cons oldest rest ih =>
      rw [oldestDropped, dropOldest]
      split
      · rw [List.cons_append, ih]
      · rfl

theorem full_of_dropped (queue : List α) {i : Nat}
    (dropped : i < (oldestDropped full queue).length) :
    full (queue.drop i) = true := by
  induction queue generalizing i with
  | nil => exact absurd dropped (Nat.not_lt_zero i)
  | cons oldest rest ih =>
      rw [oldestDropped] at dropped
      split at dropped
      · rename_i is
        cases i with
        | zero => exact is
        | succ i => exact ih (Nat.lt_of_succ_lt_succ dropped)
      · exact absurd dropped (Nat.not_lt_zero i)

theorem kept_not_full (queue : List α) :
    dropOldest full queue = [] ∨ full (dropOldest full queue) = false := by
  induction queue with
  | nil => exact Or.inl rfl
  | cons oldest rest ih =>
      rw [dropOldest]
      split
      · exact ih
      · rename_i not
        exact Or.inr (Bool.not_eq_true _ ▸ not)

end LocalPC.Lib
