import Mathlib.Data.List.Flatten

/-!
# Loops over a growing buffer

A receiver appends what arrives to a buffer and then consumes from its front, step by step, until it has
to wait for more. When no step would have been another one with the rest of the stream behind it, the
receiver does not see how the stream was cut.
-/

namespace LocalPC.Lib

structure BufferedLoop (σ α : Type*) where
  step : σ → Option σ
  extend : σ → List α → σ
  pending : σ → Nat
  shrinks : ∀ {s next}, step s = some next → pending next < pending s
  extend_nil : ∀ s, extend s [] = s
  extend_append : ∀ s front back, extend (extend s front) back = extend s (front ++ back)

namespace BufferedLoop
variable {σ α : Type*} (loop : BufferedLoop σ α)

def consume (s : σ) : σ :=
  match _turn : loop.step s with
  | none => s
  | some next => consume next
termination_by loop.pending s
decreasing_by exact loop.shrinks _turn

def feed (s : σ) (chunk : List α) : σ := loop.consume (loop.extend s chunk)

def feedAll (s : σ) (chunks : List (List α)) : σ := chunks.foldl loop.feed s

inductive Passes : σ → σ → Prop where
  | here (s : σ) : Passes s s
  | next {s next t : σ} : loop.step s = some next → Passes next t → Passes s t

/-- What the loop does in `s` is what it would have done with `more` behind its buffer. -/
def Decided (s : σ) (more : List α) : Prop :=
  ∀ next, loop.step s = some next → loop.step (loop.extend s more) = some (loop.extend next more)

def AllDecided (s : σ) : List (List α) → Prop
  | [] => True
  | chunk :: chunks =>
      (∀ t, loop.Passes (loop.extend s chunk) t → loop.Decided t chunks.flatten) ∧
        AllDecided (loop.feed s chunk) chunks

variable {loop} {s next t : σ}

theorem consume_of_none (waits : loop.step s = none) : loop.consume s = s := by
  rw [consume]
  split
  next turn => rfl
  next turn => rw [waits] at turn; cases turn

theorem consume_of_some (turn : loop.step s = some next) : loop.consume s = loop.consume next := by
  rw [consume]
  split
  next waits => rw [turn] at waits; cases waits
  next other => rw [turn] at other; cases other; rfl

theorem turn_induction {motive : σ → Prop} (waits : ∀ s, loop.step s = none → motive s)
    (turn : ∀ s next, loop.step s = some next → motive next → motive s) (s : σ) : motive s := by
  induction n : loop.pending s using Nat.strongRecOn generalizing s with
  | ind n ih =>
      subst n
      cases taken : loop.step s with
      | none => exact waits s taken
      | some next => exact turn s next taken (ih _ (loop.shrinks taken) next rfl)

theorem step_consume (s : σ) : loop.step (loop.consume s) = none := by
  induction s using turn_induction with
  | waits s waits => rw [consume_of_none waits, waits]
  | turn s next turn ih => rw [consume_of_some turn, ih]

theorem consume_invariant {invariant : σ → Prop}
    (kept : ∀ s next, loop.step s = some next → invariant s → invariant next)
    (start : invariant s) :
    invariant (loop.consume s) := by
  induction s using turn_induction with
  | waits s waits => rwa [consume_of_none waits]
  | turn s next turn ih =>
      rw [consume_of_some turn]
      exact ih (kept s next turn start)

theorem consume_extend {more : List α} (decided : ∀ t, loop.Passes s t → loop.Decided t more) :
    loop.consume (loop.extend (loop.consume s) more) = loop.consume (loop.extend s more) := by
  induction s using turn_induction with
  | waits s waits => rw [consume_of_none waits]
  | turn s next turn ih =>
      have same := decided s (.here s) next turn
      rw [consume_of_some turn, consume_of_some same]
      exact ih fun t passes => decided t (.next turn passes)

theorem feedAll_eq_feed (waits : loop.step s = none) {chunks : List (List α)}
    (decided : loop.AllDecided s chunks) :
    loop.feedAll s chunks = loop.feed s chunks.flatten := by
  induction chunks generalizing s with
  | nil => exact ((congrArg loop.consume (loop.extend_nil s)).trans (consume_of_none waits)).symm
  | cons chunk chunks ih =>
      obtain ⟨head, tail⟩ := decided
      calc loop.feedAll s (chunk :: chunks)
          = loop.feedAll (loop.feed s chunk) chunks := rfl
        _ = loop.feed (loop.feed s chunk) chunks.flatten := ih (step_consume _) tail
        _ = loop.consume (loop.extend (loop.extend s chunk) chunks.flatten) := consume_extend head
        _ = loop.feed s
          (chunk :: chunks).flatten := by rw [loop.extend_append, feed, List.flatten_cons]

end BufferedLoop

end LocalPC.Lib
