import Mathlib.Data.List.Basic
import Mathlib.Order.Lattice

namespace LocalPC.Lib
variable {α σ : Type*} [LinearOrder σ] (score : α → σ)

def keepBest (best : σ × α) (trial : α) : σ × α :=
  if score trial > best.1 then (score trial, trial) else best

theorem keepBest_of_lt {best : σ × α} {trial : α} (better : best.1 < score trial) :
    keepBest score best trial = (score trial, trial) :=
  if_pos better

theorem keepBest_of_le {best : σ × α} {trial : α} (worse : score trial ≤ best.1) :
    keepBest score best trial = best :=
  if_neg worse.not_gt

structure FirstBest (trials : List α) (best : σ × α) (before after : List α) : Prop where
  split : trials = before ++ best.2 :: after
  scored : best.1 = score best.2
  earlier : ∀ trial ∈ before, score trial < best.1
  later : ∀ trial ∈ after, score trial ≤ best.1

variable {score}

theorem FirstBest.cons {trials before after : List α} {best : σ × α} {trial : α}
    (first : FirstBest score trials best before after) (worse : score trial < best.1) :
    FirstBest score (trial :: trials) best (trial :: before) after where
  split := congrArg (trial :: ·) first.split
  scored := first.scored
  earlier := List.forall_mem_cons.mpr ⟨worse, first.earlier⟩
  later := first.later

theorem foldl_keepBest (trials : List α) (start : σ × α) :
    trials.foldl (keepBest score) start = start ∧ (∀ trial ∈ trials, score trial ≤ start.1) ∨
      start.1 < (trials.foldl (keepBest score) start).1 ∧
        ∃ before after,
          FirstBest score trials (trials.foldl (keepBest score) start) before after := by
  induction trials generalizing start with
  | nil => exact Or.inl ⟨rfl, by simp⟩
  | cons trial trials ih =>
      rw [List.foldl_cons, List.forall_mem_cons]
      rcases le_or_gt (score trial) start.1 with worse | better
      · rw [keepBest_of_le score worse]
        rcases ih start with ⟨kept, none⟩ | ⟨more, before, after, first⟩
        · exact Or.inl ⟨kept, worse, none⟩
        · exact Or.inr ⟨more, trial :: before, after, first.cons (worse.trans_lt more)⟩
      · rw [keepBest_of_lt score better]
        rcases ih (score trial, trial) with ⟨kept, none⟩ | ⟨more, before, after, first⟩
        · rw [kept]
          exact Or.inr ⟨better, [], trials, rfl, rfl, by simp, none⟩
        · exact Or.inr ⟨better.trans more, trial :: before, after, first.cons more⟩

theorem FirstBest.le {trials before after : List α} {best : σ × α}
    (first : FirstBest score trials best before after) {trial : α} (member : trial ∈ trials) :
    score trial ≤ best.1 := by
  rw [first.split, List.mem_append, List.mem_cons] at member
  rcases member with member | rfl | member
  · exact (first.earlier trial member).le
  · exact first.scored.ge
  · exact first.later trial member

theorem FirstBest.mem_before [LinearOrder α] {trials before after : List α} {best : σ × α}
    (first : FirstBest score trials best before after)
    (sorted : trials.Pairwise (· < ·)) {trial : α} (member : trial ∈ trials)
    (smaller : trial < best.2) : trial ∈ before := by
  rw [first.split] at sorted member
  obtain ⟨-, later, -⟩ := List.pairwise_append.mp sorted
  rcases List.mem_append.mp member with member | member
  · exact member
  · rcases List.mem_cons.mp member with rfl | member
    · exact absurd smaller (lt_irrefl _)
    · exact absurd smaller (List.rel_of_pairwise_cons later member).not_gt

end LocalPC.Lib
