import Mathlib.Data.List.Basic

namespace LocalPC.Lib
variable {α σ : Type*} (cb : α → σ → Bool × σ)

def visit : List α → σ → Bool × σ
  | [], state => (true, state)
  | x :: xs, state =>
      match cb x state with
      | (false, state) => (false, state)
      | (true, state) => visit xs state

def visitEach (lists : List (List α)) (state : σ) : σ :=
  lists.foldl (fun state xs => (visit cb xs state).2) state

def Accepts (xs : List α) (state : σ) : Prop := (visit cb xs state).1 = true

/-- The callback with its answers behind its state. -/
def logged (x : α) (s : σ × List Bool) : Bool × σ × List Bool :=
  ((cb x s.1).1, (cb x s.1).2, s.2 ++ [(cb x s.1).1])

def StaysStopped (answers : List Bool) : Prop := false ∉ answers.dropLast

variable {cb}

theorem visit_cons_false {x : α} {state after : σ}
    (refused : cb x state = (false, after)) (xs : List α) :
    visit cb (x :: xs) state = (false, after) := by
  rw [visit, refused]

theorem visit_cons_true {x : α} {state after : σ}
    (accepted : cb x state = (true, after)) (xs : List α) :
    visit cb (x :: xs) state = visit cb xs after := by
  rw [visit, accepted]

theorem visit_all (see : α → σ → σ) (xs : List α) (state : σ) :
    visit (fun x s => (true, see x s)) xs state = (true, xs.foldl (fun s x => see x s) state) := by
  induction xs generalizing state with
  | nil => rfl
  | cons x xs ih => exact ih (see x state)

theorem visit_append_false {xs : List α} {state after : σ}
    (refused : visit cb xs state = (false, after)) (ys : List α) :
    visit cb (xs ++ ys) state = (false, after) := by
  induction xs generalizing state with
  | nil => cases refused
  | cons x xs ih =>
      rcases answer : cb x state with ⟨_ | _, next⟩
      · rw [visit_cons_false answer] at refused
        rw [List.cons_append, visit_cons_false answer, refused]
      · rw [visit_cons_true answer] at refused
        rw [List.cons_append, visit_cons_true answer, ih refused]

theorem visit_append_true {xs : List α} {state after : σ}
    (accepted : visit cb xs state = (true, after)) (ys : List α) :
    visit cb (xs ++ ys) state = visit cb ys after := by
  induction xs generalizing state with
  | nil =>
      cases accepted
      rfl
  | cons x xs ih =>
      rcases answer : cb x state with ⟨_ | _, next⟩
      · rw [visit_cons_false answer] at accepted
        cases accepted
      · rw [visit_cons_true answer] at accepted
        rw [List.cons_append, visit_cons_true answer, ih accepted]

theorem accepts_append {xs ys : List α} {state : σ} :
    Accepts cb (xs ++ ys) state ↔ Accepts cb xs state ∧ Accepts cb ys (visit cb xs state).2 := by
  unfold Accepts
  rcases seen : visit cb xs state with ⟨_ | _, after⟩
  · rw [visit_append_false seen]
    simp
  · rw [visit_append_true seen]
    simp

variable (cb)

def answers : List α → σ → List Bool
  | [], _ => []
  | x :: xs, state =>
      match cb x state with
      | (false, _) => [false]
      | (true, state) => true :: answers xs state

variable {cb}

theorem visit_logged (xs : List α) (state : σ) (log : List Bool) :
    visit (logged cb) xs (state, log) =
      ((visit cb xs state).1, (visit cb xs state).2, log ++ answers cb xs state) := by
  induction xs generalizing state log with
  | nil => simp [visit, answers]
  | cons x xs ih =>
      rcases answer : cb x state with ⟨_ | _, next⟩
      · have logs : logged cb x (state, log) =
            (false, next, log ++ [false]) := by simp [logged, answer]
        rw [visit_cons_false logs, visit_cons_false answer, answers, answer]
      · have logs : logged cb x (state, log) =
            (true, next, log ++ [true]) := by simp [logged, answer]
        rw [visit_cons_true logs, visit_cons_true answer, ih, answers, answer, List.append_assoc]
        rfl

theorem answers_eq_nil {xs : List α} {state : σ} : answers cb xs state = [] ↔ xs = [] := by
  cases xs with
  | nil => simp [answers]
  | cons x xs => rcases answer : cb x state with ⟨_ | _, next⟩ <;> simp [answers, answer]

theorem accepts_iff_answers {xs : List α} {state : σ} :
    Accepts cb xs state ↔ false ∉ answers cb xs state := by
  unfold Accepts
  induction xs generalizing state with
  | nil => simp [visit, answers]
  | cons x xs ih =>
      rcases answer : cb x state with ⟨_ | _, next⟩
      · simp [visit_cons_false answer, answers, answer]
      · rw [visit_cons_true answer, ih]
        simp [answers, answer]

theorem staysStopped_answers (xs : List α) (state : σ) : StaysStopped (answers cb xs state) := by
  unfold StaysStopped
  induction xs generalizing state with
  | nil => simp [answers]
  | cons x xs ih =>
      rcases answer : cb x state with ⟨_ | _, next⟩
      · simp [answers, answer]
      · simp only [answers, answer]
        cases rest : answers cb xs next with
        | nil => simp
        | cons b bs =>
            rw [List.dropLast_cons_cons, ← rest, List.mem_cons, not_or]
            exact ⟨Bool.noConfusion, ih next⟩

theorem staysStopped_append {first rest : List Bool} (more : rest ≠ []) :
    StaysStopped (first ++ rest) ↔ false ∉ first ∧ StaysStopped rest := by
  unfold StaysStopped
  rw [List.dropLast_append_of_ne_nil more, List.mem_append, not_or]

theorem visitEach_cons (xs : List α) (rest : List (List α)) (state : σ) :
    visitEach cb (xs :: rest) state = visitEach cb rest (visit cb xs state).2 := rfl

def AcceptedBefore (cb : α → σ → Bool × σ) (lists : List (List α)) (state : σ) : Prop :=
  ∀ before xs after, lists = before ++ xs :: after → (∃ later ∈ after, later ≠ []) →
    Accepts cb (before.flatten ++ xs) state

theorem acceptedBefore_cons {xs : List α} {rest : List (List α)} {state : σ} :
    AcceptedBefore cb (xs :: rest) state ↔
      (∀ later ∈ rest, later = []) ∨ Accepts cb xs state ∧
        AcceptedBefore cb rest (visit cb xs state).2 := by
  constructor
  · intro accepted
    by_cases more : ∃ later ∈ rest, later ≠ []
    · refine Or.inr ⟨accepted [] xs rest rfl more, fun before ys after split follows => ?_⟩
      have both := accepted (xs :: before) ys after (congrArg (xs :: ·) split) follows
      rw [List.flatten_cons, List.append_assoc, accepts_append] at both
      exact both.2
    · push Not at more
      exact Or.inl more
  · rintro (none | ⟨first, accepted⟩) before ys after split ⟨later, member, some_⟩
    · -- what follows is among the lists behind the first
      have inside : later ∈ rest := by
        cases before with
        | nil => exact (List.cons.inj split).2 ▸ member
        | cons _ before =>
            rw [(List.cons.inj split).2]
            exact List.mem_append_right _ (List.mem_cons_of_mem _ member)
      exact absurd (none later inside) some_
    · cases before with
      | nil =>
          cases split
          exact first
      | cons _ before =>
          obtain ⟨rfl, split'⟩ := List.cons.inj split
          rw [List.flatten_cons, List.append_assoc, accepts_append]
          exact ⟨first, accepted before ys after split' ⟨later, member, some_⟩⟩

theorem staysStopped_visitEach (lists : List (List α)) (state : σ) :
    ∃ answers, (∀ log,
      visitEach (logged cb) lists (state, log) = (visitEach cb lists state, log ++ answers)) ∧
      (answers = [] ↔ ∀ xs ∈ lists, xs = []) ∧
        (StaysStopped answers ↔ AcceptedBefore cb lists state) := by
  induction lists generalizing state with
  | nil => exact ⟨[], by simp [visitEach], by simp, by simp [StaysStopped, AcceptedBefore]⟩
  | cons xs rest ih =>
      obtain ⟨later, visits, empty, stays⟩ := ih (visit cb xs state).2
      refine ⟨answers cb xs state ++ later, fun log => ?_, ?_, ?_⟩
      · rw [visitEach_cons, visit_logged, visits, visitEach_cons, List.append_assoc]
      · rw [List.append_eq_nil_iff, answers_eq_nil, empty, List.forall_mem_cons]
      · rw [acceptedBefore_cons, ← empty, ← stays]
        by_cases none : later = []
        · simp [none, staysStopped_answers]
        · rw [staysStopped_append none, accepts_iff_answers]
          simp [none]

end LocalPC.Lib
