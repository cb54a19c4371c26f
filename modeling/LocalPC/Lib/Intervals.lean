import Mathlib.Algebra.Order.BigOperators.Group.List
import Mathlib.Algebra.Order.Group.Defs
import Mathlib.Order.Lattice
import Mathlib.Tactic.Abel

namespace LocalPC.Lib
variable {κ : Type*} [LinearOrder κ]

def Ascending (l : List (κ × κ)) : Prop := l.Pairwise fun a b => a.2 ≤ b.1

/-- The pieces of an interval between the cuts, which are sorted. -/
def pieces (stop : κ) : κ → List κ → List (κ × κ)
  | start, [] => [(start, stop)]
  | start, cut :: cuts =>
      if cut ≤ start then pieces stop start cuts else (start, cut) :: pieces stop cut cuts

theorem mem_pieces {stop start : κ} {cuts : List κ} (sorted : cuts.Pairwise (· ≤ ·))
    (ordered : start ≤ stop) (within : ∀ cut ∈ cuts, cut ≤ stop) {p : κ × κ}
    (member : p ∈ pieces stop start cuts) :
    start ≤ p.1 ∧ p.1 ≤ p.2 ∧ p.2 ≤ stop := by
  induction cuts generalizing start with
  | nil =>
      obtain rfl := List.mem_singleton.mp member
      exact ⟨le_rfl, ordered, le_rfl⟩
  | cons cut cuts ih =>
      obtain ⟨here, later⟩ := List.forall_mem_cons.mp within
      have sorted := (List.pairwise_cons.mp sorted).2
      rw [pieces] at member
      split_ifs at member with passed
      · exact ih sorted ordered later member
      · have begun : start ≤ cut := (not_le.mp passed).le
        rcases List.mem_cons.mp member with rfl | member
        · exact ⟨le_rfl, begun, here⟩
        · obtain ⟨low, rest⟩ := ih sorted here later member
          exact ⟨begun.trans low, rest⟩

theorem pieces_ascending {stop start : κ} {cuts : List κ} (sorted : cuts.Pairwise (· ≤ ·))
    (ordered : start ≤ stop) (within : ∀ cut ∈ cuts, cut ≤ stop) :
    Ascending (pieces stop start cuts) := by
  induction cuts generalizing start with
  | nil => exact List.pairwise_singleton _ _
  | cons cut cuts ih =>
      obtain ⟨here, later⟩ := List.forall_mem_cons.mp within
      have sorted := (List.pairwise_cons.mp sorted).2
      rw [pieces]
      split_ifs with passed
      · exact ih sorted ordered later
      · exact List.pairwise_cons.mpr
          ⟨fun p member => (mem_pieces sorted here later member).1, ih sorted here later⟩

theorem pieces_uncut {stop start : κ} {cuts : List κ} (sorted : cuts.Pairwise (· ≤ ·))
    (ordered : start ≤ stop) (within : ∀ cut ∈ cuts, cut ≤ stop) {p : κ × κ}
    (member : p ∈ pieces stop start cuts) :
    ∀ cut ∈ cuts, ¬ (p.1 < cut ∧ cut < p.2) := by
  induction cuts generalizing start with
  | nil => simp
  | cons cut cuts ih =>
      obtain ⟨here, later⟩ := List.forall_mem_cons.mp within
      obtain ⟨least, sorted⟩ := List.pairwise_cons.mp sorted
      rw [List.forall_mem_cons]
      rw [pieces] at member
      split_ifs at member with passed
      · have begun := (mem_pieces sorted ordered later member).1
        exact ⟨fun inside => absurd inside.1 (passed.trans begun).not_gt,
          ih sorted ordered later member⟩
      · rcases List.mem_cons.mp member with rfl | member
        · exact ⟨fun inside => lt_irrefl _ inside.2,
            fun other listed inside => absurd inside.2 (least other listed).not_gt⟩
        · have begun := (mem_pieces sorted here later member).1
          exact ⟨fun inside => absurd inside.1 begun.not_gt, ih sorted here later member⟩

def overlap (a b : κ × κ) : κ × κ := (max a.1 b.1, min a.2 b.2)

def overlaps (l m : List (κ × κ)) : List (κ × κ) :=
  l.flatMap fun a => (m.map (overlap a)).filter fun p => p.1 < p.2

theorem overlaps_cons (a : κ × κ) (l m : List (κ × κ)) :
    overlaps (a :: l) m = ((m.map (overlap a)).filter fun p => p.1 < p.2) ++ overlaps l m :=
  List.flatMap_cons

theorem mem_overlaps {l m : List (κ × κ)} {p : κ × κ} :
    p ∈ overlaps l m ↔ ∃ a ∈ l, ∃ b ∈ m, overlap a b = p ∧ p.1 < p.2 := by
  simp only [overlaps, List.mem_flatMap, List.mem_filter, List.mem_map, decide_eq_true_eq]
  constructor
  · rintro ⟨a, listed, ⟨b, listed', is⟩, proper⟩
    exact ⟨a, listed, b, listed', is, proper⟩
  · rintro ⟨a, listed, b, listed', is, proper⟩
    exact ⟨a, listed, ⟨b, listed', is⟩, proper⟩

theorem overlaps_ascending {l m : List (κ × κ)} (left : Ascending l) (right : Ascending m) :
    Ascending (overlaps l m) := by
  refine List.pairwise_flatMap.mpr
    ⟨fun a _ => List.Pairwise.filter _ (List.pairwise_map.mpr ?_), ?_⟩
  · exact right.imp fun before => (min_le_right _ _).trans (before.trans (le_max_right _ _))
  · refine left.imp fun {a a'} before p member q member' => ?_
    obtain ⟨b, -, rfl⟩ := List.mem_map.mp (List.mem_filter.mp member).1
    obtain ⟨b', -, rfl⟩ := List.mem_map.mp (List.mem_filter.mp member').1
    exact (min_le_left _ _).trans (before.trans (le_max_left _ _))

theorem Ascending.sum_length_le {κ : Type*} [AddCommGroup κ] [LinearOrder κ]
    [IsOrderedAddMonoid κ] {l : List (κ × κ)} (ascending : Ascending l) {low high : κ}
    (ordered : low ≤ high) (within : ∀ p ∈ l, low ≤ p.1 ∧ p.2 ≤ high) :
    (l.map fun p => p.2 - p.1).sum ≤ high - low := by
  induction l generalizing low with
  | nil => exact sub_nonneg.mpr ordered
  | cons p l ih =>
      obtain ⟨here, later⟩ := List.forall_mem_cons.mp within
      obtain ⟨after, ascending⟩ := List.pairwise_cons.mp ascending
      have rest := ih ascending here.2 fun q member => ⟨after q member, (later q member).2⟩
      calc ((p :: l).map fun p => p.2 - p.1).sum
          = (p.2 - p.1) + (l.map fun p => p.2 - p.1).sum := by rw [List.map_cons, List.sum_cons]
        _ ≤ (p.2 - p.1) + (high - p.2) := add_le_add_right rest _
        _ = high - p.1 := by abel
        _ ≤ high - low := sub_le_sub_left here.1 _

end LocalPC.Lib
