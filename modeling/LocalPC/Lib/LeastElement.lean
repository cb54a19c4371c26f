import Mathlib.Data.Option.Basic
import Mathlib.Order.Lattice
import Mathlib.Order.OrderDual

namespace LocalPC.Lib
variable {α β : Type*} [LinearOrder β] {place : α → Option β} {less : α → α → Bool}

def Orders (place : α → Option β) (less : α → α → Bool) : Prop :=
  ∀ a b, less a b = true ↔ ∃ p ∈ place a, ∃ q ∈ place b, p < q

theorem Orders.flip (orders : Orders place less) :
    Orders (fun a => (place a).map OrderDual.toDual) (fun a b => less b a) := by
  intro a b
  rw [orders]
  simp only [Option.mem_def, Option.map_eq_some_iff]
  constructor
  · rintro ⟨p, atB, q, atA, below⟩
    exact ⟨_, ⟨q, atA, rfl⟩, _, ⟨p, atB, rfl⟩, below⟩
  · rintro ⟨_, ⟨q, atA, rfl⟩, _, ⟨p, atB, rfl⟩, below⟩
    exact ⟨p, atB, q, atA, below⟩

def keepLess (less : α → α → Bool) (best y : α) : α := if less y best then y else best

theorem keepLess_place (orders : Orders place less) {best : α} {p : β}
    (at_ : place best = some p) (y : α) :
    ∃ q, place (keepLess less best y) = some q ∧ q ≤ p ∧ ∀ r ∈ place y, q ≤ r := by
  unfold keepLess
  by_cases replaced : less y best = true
  · rw [if_pos replaced]
    obtain ⟨q, atY, p', atBest, below⟩ := (orders y best).mp replaced
    obtain rfl : p = p' := Option.some_inj.mp (at_.symm.trans atBest)
    refine ⟨q, atY, below.le, fun r atR => ?_⟩
    exact (Option.some_inj.mp (atY.symm.trans atR)).le
  · rw [if_neg replaced]
    refine ⟨p, at_, le_rfl, fun r atR => ?_⟩
    exact not_lt.mp fun below => replaced ((orders y best).mpr ⟨r, atR, p, at_, below⟩)

theorem foldl_keepLess_mem (xs : List α) (best : α) :
    xs.foldl (keepLess less) best ∈ best :: xs := by
  induction xs generalizing best with
  | nil => exact List.mem_singleton_self best
  | cons x xs ih =>
      rw [List.foldl_cons]
      rcases List.mem_cons.mp (ih (keepLess less best x)) with is | later
      · rw [is]
        unfold keepLess
        cases less x best with
        | true => exact List.mem_cons_of_mem _ List.mem_cons_self
        | false => exact List.mem_cons_self
      · exact List.mem_cons_of_mem _ (List.mem_cons_of_mem _ later)

theorem foldl_keepLess_le (orders : Orders place less) (xs : List α) {best : α} {p : β}
    (at_ : place best = some p) :
    ∃ q, place (xs.foldl (keepLess less) best) = some q ∧
      ∀ y ∈ best :: xs, ∀ r ∈ place y, q ≤ r := by
  induction xs generalizing best p with
  | nil =>
      refine ⟨p, at_, List.forall_mem_singleton.mpr fun r atR => ?_⟩
      exact (Option.some_inj.mp (at_.symm.trans atR)).le
  | cons x xs ih =>
      obtain ⟨p', at', before, here⟩ := keepLess_place orders at_ x
      obtain ⟨q, atEnd, least⟩ := ih at'
      have below : q ≤ p' := least _ List.mem_cons_self p' at'
      refine ⟨q, atEnd,
        List.forall_mem_cons.mpr ⟨fun r atR => ?_, List.forall_mem_cons.mpr ⟨fun r atR => ?_, ?_⟩⟩⟩
      · exact (below.trans before).trans (Option.some_inj.mp (at_.symm.trans atR)).le
      · exact below.trans (here r atR)
      · exact fun y member => least y (List.mem_cons_of_mem _ member)

theorem foldl_keepLess_none (orders : Orders place less) (xs : List α) {best : α}
    (none_ : place best = none) :
    xs.foldl (keepLess less) best = best := by
  induction xs with
  | nil => rfl
  | cons x xs ih =>
      have kept : keepLess less best x = best := by
        refine if_neg fun replaced => ?_
        obtain ⟨-, -, p, atBest, -⟩ := (orders x best).mp replaced
        rw [Option.mem_def, none_] at atBest
        cases atBest
      rw [List.foldl_cons, kept]
      exact ih

end LocalPC.Lib
