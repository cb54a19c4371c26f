import Mathlib.Data.List.TakeWhile
import Mathlib.Data.List.Sort

namespace LocalPC.Lib
variable {α κ : Type*} [LinearOrder κ] (key : α → κ)

def SortedBy (entries : List α) : Prop := entries.Pairwise fun a b => key a ≤ key b

def lowerBound (bound : κ) (entries : List α) : Nat := (entries.takeWhile (key · < bound)).length

def upperBound (bound : κ) (entries : List α) : Nat := (entries.takeWhile (key · ≤ bound)).length

theorem lowerBound_append {bound : κ} {before after : List α} (below : ∀ a ∈ before, key a < bound)
    (reached : ∀ a ∈ after.head?, bound ≤ key a) :
    lowerBound key bound (before ++ after) = before.length := by
  have stop : after.takeWhile (key · < bound) = [] := by
    cases after with
    | nil => rfl
    | cons a after => exact List.takeWhile_cons_of_neg (by simpa using reached a rfl)
  unfold lowerBound
  rw [List.takeWhile_append_of_pos (fun a member => decide_eq_true (below a member)), stop,
    List.append_nil]

namespace SortedBy
variable {key} {entries : List α}

theorem takeWhile_eq_filter (sorted : SortedBy key entries) {p : α → Bool}
    (closed : ∀ a b, key a ≤ key b → p b = true → p a = true) :
    entries.takeWhile p = entries.filter p := by
  induction entries with
  | nil => rfl
  | cons e entries ih =>
      obtain ⟨least, rest⟩ := List.pairwise_cons.mp sorted
      cases test : p e with
      | true => rw [List.takeWhile_cons_of_pos test, List.filter_cons_of_pos test, ih rest]
      | false =>
          rw [List.takeWhile_cons_of_neg (by simp [test]),
            List.filter_cons_of_neg (by simp [test]), eq_comm, List.filter_eq_nil_iff]
          intro a member holds
          rw [closed e a (least a member) holds] at test
          cases test

theorem dropWhile_eq_filter (sorted : SortedBy key entries) {p : α → Bool}
    (closed : ∀ a b, key a ≤ key b → p b = true → p a = true) :
    entries.dropWhile p = entries.filter fun a => !p a := by
  induction entries with
  | nil => rfl
  | cons e entries ih =>
      obtain ⟨least, rest⟩ := List.pairwise_cons.mp sorted
      cases test : p e with
      | true =>
          rw [List.dropWhile_cons_of_pos test, List.filter_cons_of_neg (by simp [test]), ih rest]
      | false =>
          have none : ∀ a ∈ e :: entries, (!p a) = true := by
            intro a member
            rcases List.mem_cons.mp member with rfl | later
            · simp [test]
            · cases holds : p a with
              | false => rfl
              | true => rw [closed e a (least a later) holds] at test; cases test
          rw [List.dropWhile_cons_of_neg (by simp [test]), List.filter_eq_self.mpr none]

theorem take_takeWhile (p : α → Bool) :
    entries.take (entries.takeWhile p).length = entries.takeWhile p :=
  (List.prefix_iff_eq_take.mp (List.takeWhile_prefix p)).symm

theorem drop_takeWhile (p : α → Bool) :
    entries.drop (entries.takeWhile p).length = entries.dropWhile p := by
  have split := List.takeWhile_append_dropWhile (p := p) (l := entries)
  rw [← congrArg (List.drop (entries.takeWhile p).length) split, List.drop_left]

theorem take_lowerBound (sorted : SortedBy key entries) (bound : κ) :
    entries.take (lowerBound key bound entries) = entries.filter (key · < bound) := by
  rw [lowerBound, take_takeWhile, sorted.takeWhile_eq_filter]
  intro a b le below
  simp only [decide_eq_true_eq] at below ⊢
  exact le.trans_lt below

theorem take_upperBound (sorted : SortedBy key entries) (bound : κ) :
    entries.take (upperBound key bound entries) = entries.filter (key · ≤ bound) := by
  rw [upperBound, take_takeWhile, sorted.takeWhile_eq_filter]
  intro a b le below
  simp only [decide_eq_true_eq] at below ⊢
  exact le.trans below

theorem drop_lowerBound (sorted : SortedBy key entries) (bound : κ) :
    entries.drop (lowerBound key bound entries) = entries.filter (bound ≤ key ·) := by
  rw [lowerBound, drop_takeWhile, sorted.dropWhile_eq_filter]
  · simp only [← decide_not, not_lt]
  · intro a b le below
    simp only [decide_eq_true_eq] at below ⊢
    exact le.trans_lt below

theorem lowerBound_eq (sorted : SortedBy key entries) (bound : κ) :
    lowerBound key bound entries = entries.countP (key · < bound) := by
  rw [List.countP_eq_length_filter, ← sorted.take_lowerBound, List.length_take,
    eq_comm, Nat.min_eq_left]
  exact (List.takeWhile_sublist _).length_le

theorem upperBound_eq (sorted : SortedBy key entries) (bound : κ) :
    upperBound key bound entries = entries.countP (key · ≤ bound) := by
  rw [List.countP_eq_length_filter, ← sorted.take_upperBound, List.length_take,
    eq_comm, Nat.min_eq_left]
  exact (List.takeWhile_sublist _).length_le

theorem lowerBound_le_upperBound_iff (sorted : SortedBy key entries) (low high : κ) :
    lowerBound key low entries ≤ upperBound key high entries ↔
      ∀ e ∈ entries, ¬ (high < key e ∧ key e < low) := by
  constructor
  · intro le e member ⟨above, below⟩
    have inside : e ∈ entries.take (lowerBound key low entries) := by
      rw [sorted.take_lowerBound]
      exact List.mem_filter.mpr ⟨member, by simpa using below⟩
    have within := (List.take_sublist_take_left le).subset inside
    rw [sorted.take_upperBound] at within
    exact absurd (by simpa using (List.mem_filter.mp within).2) (not_le.mpr above)
  · intro none
    rw [sorted.lowerBound_eq, sorted.upperBound_eq]
    refine List.countP_mono_left fun e member below => ?_
    simp only [decide_eq_true_eq] at below ⊢
    exact not_lt.mp fun above => none e member ⟨above, below⟩

theorem range_eq_filter (sorted : SortedBy key entries) (low high : κ) :
    (entries.drop (lowerBound key low entries)).take
        (upperBound key high entries - lowerBound key low entries) =
      entries.filter fun e => low ≤ key e ∧ key e ≤ high := by
  have kept : SortedBy key (entries.filter (key · ≤ high)) := sorted.filter _
  rw [← List.drop_take, sorted.take_upperBound]
  rcases le_or_gt low high with ordered | reversed
  · have same : lowerBound key low entries =
        lowerBound key low (entries.filter (key · ≤ high)) := by
      rw [sorted.lowerBound_eq, kept.lowerBound_eq, List.countP_filter]
      refine List.countP_congr fun e _ => ?_
      simp only [decide_eq_true_eq, Bool.and_eq_true, iff_self_and]
      exact fun below => (below.trans_le ordered).le
    rw [same, kept.drop_lowerBound, List.filter_filter]
    simp
  · have short : (entries.filter (key · ≤ high)).length ≤ lowerBound key low entries := by
      rw [sorted.lowerBound_eq, ← List.countP_eq_length_filter]
      refine List.countP_mono_left fun e _ within => ?_
      simp only [decide_eq_true_eq] at within ⊢
      exact within.trans_lt reversed
    rw [List.drop_of_length_le short, eq_comm, List.filter_eq_nil_iff]
    intro e _ inside
    simp only [decide_eq_true_eq] at inside
    exact absurd (inside.1.trans inside.2) (not_le.mpr reversed)

end SortedBy
end LocalPC.Lib
