import Mathlib.Data.List.Basic

namespace LocalPC.Lib
variable {ε α : Type*}

def attempts (action : Nat → Except ε α) (stops : α → Bool) : Nat → Nat → Except ε (List α)
  | 0, _ => .ok []
  | n + 1, i => do
      let outcome ← action i
      if stops outcome then return [outcome]
      let later ← attempts action stops n (i + 1)
      return outcome :: later

/-- The attempt `i + k` is the first whose outcome stops the loop, and it is `outcome`. -/
def StopsAt (action : Nat → Except ε α) (stops : α → Bool) (n i k : Nat) (outcome : α) : Prop :=
  k < n ∧ action (i + k) = .ok outcome ∧ stops outcome = true ∧
    ∀ j, j < k → ∃ earlier, action (i + j) = .ok earlier ∧ stops earlier = false

variable {action : Nat → Except ε α} {stops : α → Bool} {n i k : Nat} {outcome : α}

theorem StopsAt.succ (stopped : StopsAt action stops n (i + 1) k outcome) {first : α}
    (head : action i = .ok first) (goesOn : stops first = false) :
    StopsAt action stops (n + 1) i (k + 1) outcome := by
  obtain ⟨inside, here, stop, earlier⟩ := stopped
  refine ⟨by omega, by rwa [show i + (k + 1) = i + 1 + k by omega], stop, fun j before => ?_⟩
  cases j with
  | zero => exact ⟨first, head, goesOn⟩
  | succ j =>
      rw [show i + (j + 1) = i + 1 + j by omega]
      exact earlier j (by omega)

theorem stopsAt_of_attempts {outcomes : List α} (run : attempts action stops n i = .ok outcomes)
    (last : outcomes.getLast? = some outcome) (stop : stops outcome = true) :
    ∃ k, StopsAt action stops n i k outcome := by
  induction n generalizing i outcomes with
  | zero =>
      cases run
      cases last
  | succ n ih =>
      rw [attempts] at run
      cases head : action i with
      | error e =>
          rw [head] at run
          cases run
      | ok first =>
          rw [head] at run
          simp only [bind, Except.bind] at run
          by_cases stopped : stops first = true
          · rw [if_pos stopped] at run
            cases run
            cases last
            exact ⟨0, Nat.succ_pos n, head, stop, fun j before => absurd before (Nat.not_lt_zero j)⟩
          · rw [if_neg stopped] at run
            cases rest : attempts action stops n (i + 1) with
            | error e =>
                rw [rest] at run
                cases run
            | ok later =>
                rw [rest] at run
                cases run
                cases later with
                | nil =>
                    cases last
                    exact absurd stop stopped
                | cons second later =>
                    rw [List.getLast?_cons_cons] at last
                    obtain ⟨k, found⟩ := ih rest last
                    exact ⟨k + 1, found.succ head (Bool.not_eq_true _ ▸ stopped)⟩

theorem StopsAt.attempts_eq (stopped : StopsAt action stops n i k outcome) :
    ∃ front, attempts action stops n i = .ok (front ++ [outcome]) ∧
      ∀ earlier ∈ front, stops earlier = false ∧ ∃ j, action j = .ok earlier := by
  induction n generalizing i k with
  | zero => exact absurd stopped.1 (Nat.not_lt_zero k)
  | succ n ih =>
      obtain ⟨inside, here, stop, earlier⟩ := stopped
      rw [attempts]
      cases k with
      | zero =>
          refine ⟨[], ?_, fun earlier mem => absurd mem List.not_mem_nil⟩
          rw [show action i = .ok outcome from here]
          simp only [bind, Except.bind]
          rw [if_pos stop]
          rfl
      | succ k =>
          obtain ⟨first, head, goesOn⟩ := earlier 0 (Nat.succ_pos k)
          have later : StopsAt action stops n (i + 1) k outcome := by
            refine ⟨by omega, by rwa [show i + 1 + k = i + (k + 1) by omega],
              stop, fun j before => ?_⟩
            rw [show i + 1 + j = i + (j + 1) by omega]
            exact earlier (j + 1) (by omega)
          obtain ⟨front, run, quiet⟩ := ih later
          refine ⟨first :: front, ?_, ?_⟩
          · rw [show action i = .ok first from head]
            simp only [bind, Except.bind]
            rw [if_neg (by rw [goesOn]; exact Bool.false_ne_true), run]
            rfl
          · intro other mem
            rcases List.mem_cons.mp mem with rfl | behind
            · exact ⟨goesOn, i, head⟩
            · exact quiet other behind

theorem attempts_spec {outcomes : List α} (run : attempts action stops n i = .ok outcomes) :
    outcomes.length ≤ n ∧
      (∀ (j : Nat) outcome, outcomes[j]? = some outcome → action (i + j) = .ok outcome) ∧
      ∀ (j : Nat) outcome, outcomes[j]? = some outcome → j + 1 < outcomes.length →
        stops outcome = false := by
  induction n generalizing i outcomes with
  | zero =>
      cases run
      exact ⟨Nat.le_refl 0, nofun, nofun⟩
  | succ n ih =>
      rw [attempts] at run
      cases head : action i with
      | error e =>
          rw [head] at run
          cases run
      | ok first =>
          rw [head] at run
          simp only [bind, Except.bind] at run
          by_cases stopped : stops first = true
          · rw [if_pos stopped] at run
            cases run
            refine ⟨by simp, fun j outcome found => ?_, fun j outcome found more => ?_⟩
            · obtain ⟨rfl, rfl⟩ : j = 0 ∧
                  first = outcome := by simpa [List.getElem?_singleton] using found
              exact head
            · rw [List.length_singleton] at more
              omega
          · rw [if_neg stopped] at run
            cases rest : attempts action stops n (i + 1) with
            | error e =>
                rw [rest] at run
                cases run
            | ok later =>
                rw [rest] at run
                cases run
                obtain ⟨few, actions, goOn⟩ := ih rest
                refine ⟨Nat.succ_le_succ few, fun j outcome found => ?_,
                  fun j outcome found more => ?_⟩
                · cases j with
                  | zero =>
                      cases found
                      exact head
                  | succ j =>
                      rw [show i + (j + 1) = i + 1 + j by omega]
                      exact actions j outcome found
                · cases j with
                  | zero =>
                      cases found
                      exact Bool.not_eq_true _ ▸ stopped
                  | succ j => exact goOn j outcome found (Nat.lt_of_succ_lt_succ more)

end LocalPC.Lib
