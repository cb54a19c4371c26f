import Mathlib.Data.List.Basic
import Mathlib.Data.List.Flatten

namespace LocalPC.Lib

/-- `size? b` is the length of the record at the head of `b`, if there is one. -/
structure RecordFormat (α : Type*) where
  size? : List α → Option Nat
  size_pos : ∀ {b n}, size? b = some n → 0 < n
  size_le : ∀ {b n}, size? b = some n → n ≤ b.length
  size_stable : ∀ {b n}, size? b = some n → ∀ rest, size? (b.take n ++ rest) = some n

theorem mul_length_le_flatten {α : Type*} {least : Nat} {rs : List (List α)}
    (each : ∀ r ∈ rs, least ≤ r.length) :
    rs.length * least ≤ rs.flatten.length := by
  induction rs with
  | nil => simp
  | cons r rs ih =>
      have head := each r List.mem_cons_self
      have tail := ih fun s member => each s (List.mem_cons_of_mem _ member)
      rw [List.length_cons, Nat.succ_mul, List.flatten_cons, List.length_append]
      omega

namespace RecordFormat
variable {α : Type*} (F : RecordFormat α)

def IsRecord (r : List α) : Prop := F.size? r = some r.length

def records (b : List α) : List (List α) :=
  match _h : F.size? b with
  | none => []
  | some n => b.take n :: records (b.drop n)
termination_by b.length
decreasing_by
  have := F.size_pos _h
  have := F.size_le _h
  simp only [List.length_drop]
  omega

def remainder (b : List α) : List α :=
  match _h : F.size? b with
  | none => b
  | some n => remainder (b.drop n)
termination_by b.length
decreasing_by
  have := F.size_pos _h
  have := F.size_le _h
  simp only [List.length_drop]
  omega

def Whole (b : List α) : Prop := F.remainder b = []

variable {F}

theorem records_of_none {b : List α} (h : F.size? b = none) : F.records b = [] := by
  rw [records]
  split
  · rfl
  · simp_all

theorem records_of_some {b : List α} {n : Nat} (h : F.size? b = some n) :
    F.records b = b.take n :: F.records (b.drop n) := by
  rw [records]
  split
  · simp_all
  · rename_i m found
    cases h.symm.trans found
    rfl

theorem remainder_of_none {b : List α} (h : F.size? b = none) : F.remainder b = b := by
  rw [remainder]
  split
  · rfl
  · simp_all

theorem remainder_of_some {b : List α} {n : Nat} (h : F.size? b = some n) :
    F.remainder b = F.remainder (b.drop n) := by
  rw [remainder]
  split
  · simp_all
  · rename_i m found
    cases h.symm.trans found
    rfl

@[simp] theorem size_nil : F.size? [] = none := by
  cases h : F.size? [] with
  | none => rfl
  | some n =>
      have positive := F.size_pos h
      have bound := F.size_le h
      simp only [List.length_nil] at bound
      omega

@[simp] theorem records_nil : F.records [] = [] := records_of_none size_nil

@[simp] theorem remainder_nil : F.remainder [] = [] := remainder_of_none size_nil

@[elab_as_elim]
theorem stream_induction {motive : List α → Prop}
    (stop : ∀ b, F.size? b = none → motive b)
    (step : ∀ b n, F.size? b = some n → motive (b.drop n) → motive b) (b : List α) : motive b := by
  induction size : b.length using Nat.strongRecOn generalizing b with
  | _ m ih =>
      cases h : F.size? b with
      | none => exact stop b h
      | some n =>
          have positive := F.size_pos h
          have bound := F.size_le h
          exact step b n h (ih (b.drop n).length (by simp; omega) _ rfl)

theorem IsRecord.take {b : List α} {n : Nat} (h : F.size? b = some n) : F.IsRecord (b.take n) := by
  have bound := F.size_le h
  have whole := F.size_stable h []
  rw [List.append_nil] at whole
  simpa [IsRecord, Nat.min_eq_left bound] using whole

theorem IsRecord.size_append {r : List α} (h : F.IsRecord r) (rest : List α) :
    F.size? (r ++ rest) = some r.length := by
  simpa using F.size_stable h rest

theorem IsRecord.cut {front rest : List α} (h : F.IsRecord (front ++ rest)) (more : rest ≠ []) :
    F.size? front = none := by
  cases found : F.size? front with
  | none => rfl
  | some n =>
      have bound := F.size_le found
      have same := F.size_stable found (front.drop n ++ rest)
      rw [← List.append_assoc, List.take_append_drop] at same
      have size := Option.some.inj (h.symm.trans same)
      have positive := List.length_pos_of_ne_nil more
      rw [List.length_append] at size
      omega

theorem records_flatten (b : List α) : (F.records b).flatten ++ F.remainder b = b := by
  induction b using stream_induction (F := F) with
  | stop b h => simp [records_of_none h, remainder_of_none h]
  | step b n h ih =>
      rw [records_of_some h, remainder_of_some h, List.flatten_cons, List.append_assoc, ih,
        List.take_append_drop]

theorem isRecord_of_mem_records (b : List α) : ∀ r ∈ F.records b, F.IsRecord r := by
  induction b using stream_induction (F := F) with
  | stop b h => simp [records_of_none h]
  | step b n h ih =>
      intro r member
      rw [records_of_some h] at member
      rcases List.mem_cons.mp member with rfl | later
      · exact IsRecord.take h
      · exact ih r later

theorem records_cons {r : List α} (h : F.IsRecord r) (rest : List α) :
    F.records (r ++ rest) = r :: F.records rest := by
  rw [records_of_some (h.size_append rest)]
  simp

theorem remainder_cons {r : List α} (h : F.IsRecord r) (rest : List α) :
    F.remainder (r ++ rest) = F.remainder rest := by
  rw [remainder_of_some (h.size_append rest)]
  simp

theorem records_append {rs : List (List α)} (h : ∀ r ∈ rs, F.IsRecord r) (rest : List α) :
    F.records (rs.flatten ++ rest) = rs ++ F.records rest := by
  induction rs with
  | nil => simp
  | cons r rs ih =>
      rw [List.flatten_cons, List.append_assoc, records_cons (h r (by simp)),
        ih (fun s member => h s (by simp [member])), List.cons_append]

theorem remainder_append {rs : List (List α)} (h : ∀ r ∈ rs, F.IsRecord r) (rest : List α) :
    F.remainder (rs.flatten ++ rest) = F.remainder rest := by
  induction rs with
  | nil => simp
  | cons r rs ih =>
      rw [List.flatten_cons, List.append_assoc, remainder_cons (h r (by simp)),
        ih (fun s member => h s (by simp [member]))]

theorem records_of_flatten {rs : List (List α)} (h : ∀ r ∈ rs, F.IsRecord r) :
    F.records rs.flatten = rs := by
  simpa using records_append h []

theorem prefix_records {rs : List (List α)} (h : ∀ r ∈ rs, F.IsRecord r) {b : List α}
    (pre : rs.flatten <+: b) :
    rs <+: F.records b := by
  obtain ⟨rest, rfl⟩ := pre
  rw [records_append h]
  exact List.prefix_append ..

theorem Whole.of_flatten {rs : List (List α)} (h : ∀ r ∈ rs, F.IsRecord r) :
    F.Whole rs.flatten := by
  simpa [Whole] using remainder_append h []

theorem whole_iff (b : List α) :
    F.Whole b ↔ ∃ rs : List (List α), (∀ r ∈ rs, F.IsRecord r) ∧ rs.flatten = b := by
  constructor
  · intro whole
    refine ⟨F.records b, isRecord_of_mem_records b, ?_⟩
    have split := records_flatten (F := F) b
    rwa [whole, List.append_nil] at split
  · rintro ⟨rs, valid, rfl⟩
    exact Whole.of_flatten valid

end RecordFormat
end LocalPC.Lib
