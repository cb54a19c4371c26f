import Mathlib.Data.List.Induction

namespace LocalPC.Lib
variable {α : Type*} {R : List α → α → α → Prop} {l : List α}

def Neighbours (R : List α → α → α → Prop) (l : List α) : Prop :=
  ∃ before a b after, l = before ++ a :: b :: after ∧ R (before ++ [a]) a b

theorem not_neighbours_nil : ¬ Neighbours R [] := by
  rintro ⟨before, a, b, after, split, -⟩
  simp at split

theorem not_neighbours_singleton (a : α) : ¬ Neighbours R [a] := by
  rintro ⟨before, b, c, after, split, -⟩
  have lengths := congrArg List.length split
  simp only [List.length_append, List.length_cons, List.length_nil] at lengths
  omega

theorem neighbours_concat (x : α) :
    Neighbours R (l ++ [x]) ↔ Neighbours R l ∨ ∃ a ∈ l.getLast?, R l a x := by
  constructor
  · rintro ⟨before, a, b, after, split, related⟩
    cases after using List.reverseRecOn with
    | nil =>
        have parts : l ++ [x] = (before ++ [a]) ++ [b] := by rw [split, List.append_assoc]; rfl
        obtain ⟨rfl, last⟩ := List.append_inj' parts rfl
        cases List.singleton_inj.mp last
        exact Or.inr ⟨a, List.getLast?_concat, related⟩
    | append_singleton after last _ =>
        have parts : l ++ [x] =
            (before ++ a :: b :: after) ++ [last] := by rw [split, List.append_assoc]; rfl
        exact Or.inl ⟨before, a, b, after, (List.append_inj' parts rfl).1, related⟩
  · rintro (⟨before, a, b, after, rfl, related⟩ | ⟨a, last, related⟩)
    · exact ⟨before, a, b, after ++ [x], by simp, related⟩
    · obtain ⟨before, rfl⟩ := List.getLast?_eq_some_iff.mp last
      exact ⟨before, a, x, [], by simp, related⟩

theorem neighbours_filter_concat (p : α → Bool) (x : α) :
    Neighbours R ((l ++ [x]).filter p) ↔
      Neighbours R (l.filter p) ∨ p x = true ∧ ∃ a ∈ (l.filter p).getLast?, R (l.filter p) a x := by
  cases passes : p x with
  | true =>
      rw [List.filter_append, List.filter_cons_of_pos passes, List.filter_nil, neighbours_concat]
      simp
  | false => simp [passes]

theorem Neighbours.append (related : Neighbours R l) (m : List α) : Neighbours R (l ++ m) := by
  obtain ⟨before, a, b, after, rfl, is⟩ := related
  exact ⟨before, a, b, after ++ m, by simp, is⟩

section Count
variable [∀ before a b, Decidable (R before a b)]

def countFrom (R : List α → α → α → Prop) [∀ before a b, Decidable (R before a b)]
    (before : List α) (a : α) :
    List α → Nat
  | [] => 0
  | b :: rest => (decide (R (before ++ [a]) a b)).toNat + countFrom R (before ++ [a]) b rest

def countNeighbours (R : List α → α → α → Prop) [∀ before a b, Decidable (R before a b)] :
    List α → Nat
  | [] => 0
  | a :: rest => countFrom R [] a rest

theorem countFrom_concat (before : List α) (a : α) (rest : List α) (x : α) :
    countFrom R before a (rest ++ [x]) = countFrom R before a rest +
      ((a :: rest).getLast?.any fun last => decide (R (before ++ a :: rest) last x)).toNat := by
  induction rest generalizing before a with
  | nil => simp [countFrom]
  | cons b rest ih =>
      have later := ih (before ++ [a]) b
      rw [List.append_assoc, List.singleton_append] at later
      rw [List.cons_append, countFrom, countFrom, later, List.getLast?_cons_cons, Nat.add_assoc]

theorem countNeighbours_concat (l : List α) (x : α) :
    countNeighbours R (l ++ [x]) =
      countNeighbours R l + (l.getLast?.any fun last => decide (R l last x)).toNat := by
  cases l with
  | nil => rfl
  | cons a rest => exact countFrom_concat [] a rest x

theorem countNeighbours_filter_concat (p : α → Bool) (l : List α) (x : α) :
    countNeighbours R ((l ++ [x]).filter p) = countNeighbours R (l.filter p) +
      (p x && (l.filter p).getLast?.any fun last => decide (R (l.filter p) last x)).toNat := by
  rw [List.filter_append]
  cases passes : p x with
  | true =>
      rw [List.filter_cons_of_pos passes, List.filter_nil, countNeighbours_concat, Bool.true_and]
  | false => simp [passes]

theorem countNeighbours_eq_zero : countNeighbours R l = 0 ↔ ¬ Neighbours R l := by
  induction l using List.reverseRecOn with
  | nil => simp [countNeighbours, not_neighbours_nil]
  | append_singleton l x ih =>
      rw [countNeighbours_concat, neighbours_concat, Nat.add_eq_zero_iff, ih,
        not_or, Bool.toNat_eq_zero]
      apply and_congr_right
      intro _
      cases l.getLast? with
      | none => simp
      | some last => simp

end Count

end LocalPC.Lib
