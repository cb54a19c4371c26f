import Mathlib.Data.List.Basic
import Mathlib.Data.List.Flatten

namespace LocalPC.Lib

structure Placement (α : Type*) where
  segment : Nat
  offset : Nat
  record : List α
  deriving DecidableEq, Repr

/-- `q` lies in a later segment, or behind `p` in the same one. -/
def Placement.Before {α : Type*} (p q : Placement α) : Prop :=
  p.segment < q.segment ∨ p.segment = q.segment ∧ p.offset + p.record.length ≤ q.offset

namespace SegmentedLog
variable {α : Type*}

/-- The placements of the records of one segment that starts with `offset` elements. -/
def placeFrom (segment : Nat) : Nat → List (List α) → List (Placement α)
  | _, [] => []
  | offset, r :: rs => ⟨segment, offset, r⟩ :: placeFrom segment (offset + r.length) rs

def placementsFrom : Nat → List (List (List α)) → List (Placement α)
  | _, [] => []
  | segment, rs :: segments => placeFrom segment 0 rs ++ placementsFrom (segment + 1) segments

def placements (segments : List (List (List α))) : List (Placement α) := placementsFrom 0 segments

theorem placeFrom_append (segment offset : Nat) (rs : List (List α)) (r : List α) :
    placeFrom segment offset (rs ++ [r]) =
      placeFrom segment offset rs ++ [⟨segment, offset + rs.flatten.length, r⟩] := by
  induction rs generalizing offset with
  | nil => simp [placeFrom]
  | cons s rs ih =>
      simp only [List.cons_append, placeFrom, ih, List.flatten_cons,
        List.length_append, Nat.add_assoc]

theorem placementsFrom_append (segment : Nat) (older newer : List (List (List α))) :
    placementsFrom segment (older ++ newer) =
      placementsFrom segment older ++ placementsFrom (segment + older.length) newer := by
  induction older generalizing segment with
  | nil => simp [placementsFrom]
  | cons rs older ih =>
      simp only [List.cons_append, placementsFrom, ih, List.append_assoc, List.length_cons]
      congr 3
      omega

theorem placements_newSegment (segments : List (List (List α))) :
    placements (segments ++ [[]]) = placements segments := by
  simp [placements, placementsFrom_append, placementsFrom, placeFrom]

theorem placements_append (older : List (List (List α))) (rs : List (List α)) (r : List α) :
    placements (older ++ [rs ++ [r]]) =
      placements (older ++ [rs]) ++ [⟨older.length, rs.flatten.length, r⟩] := by
  simp [placements, placementsFrom_append, placementsFrom, placeFrom_append]

theorem map_record_placeFrom (segment offset : Nat) (rs : List (List α)) :
    (placeFrom segment offset rs).map Placement.record = rs := by
  induction rs generalizing offset with
  | nil => rfl
  | cons r rs ih => simp [placeFrom, ih]

theorem map_record_placements (segments : List (List (List α))) :
    (placements segments).map Placement.record = segments.flatten := by
  have go (first : Nat) : (placementsFrom first segments).map Placement.record =
      segments.flatten := by
    induction segments generalizing first with
    | nil => rfl
    | cons rs segments ih => simp [placementsFrom, map_record_placeFrom, ih]
  exact go 0

theorem length_placements (segments : List (List (List α))) :
    (placements segments).length = segments.flatten.length := by
  rw [← List.length_map Placement.record, map_record_placements]

theorem mem_placeFrom {segment offset : Nat} {rs : List (List α)} {p : Placement α}
    (member : p ∈ placeFrom segment offset rs) :
    p.segment = segment ∧ ∃ before after, rs = before ++ p.record :: after ∧
      p.offset = offset + before.flatten.length := by
  induction rs generalizing offset with
  | nil => simp [placeFrom] at member
  | cons r rs ih =>
      rcases List.mem_cons.mp member with rfl | later
      · exact ⟨rfl, [], rs, by simp, by simp⟩
      · obtain ⟨same, before, after, rfl, position⟩ := ih later
        refine ⟨same, r :: before, after, by simp, ?_⟩
        simp only [List.flatten_cons, List.length_append]
        omega

theorem mem_placementsFrom {first : Nat} {segments : List (List (List α))} {p : Placement α}
    (member : p ∈ placementsFrom first segments) :
    ∃ older rs newer, segments = older ++ rs :: newer ∧ p.segment = first + older.length ∧
      ∃ before after, rs = before ++ p.record :: after ∧ p.offset = before.flatten.length := by
  induction segments generalizing first with
  | nil => simp [placementsFrom] at member
  | cons rs segments ih =>
      rcases List.mem_append.mp member with here | later
      · obtain ⟨same, before, after, split, position⟩ := mem_placeFrom here
        exact ⟨[], rs, segments, rfl, by simpa using same, before, after,
          split, by simpa using position⟩
      · obtain ⟨older, ts, newer, rfl, same, inside⟩ := ih later
        exact ⟨rs :: older, ts, newer, rfl, by simp only [List.length_cons]; omega, inside⟩

theorem mem_placements {segments : List (List (List α))} {p : Placement α}
    (member : p ∈ placements segments) :
    ∃ older rs newer, segments = older ++ rs :: newer ∧ p.segment = older.length ∧
      ∃ before after, rs = before ++ p.record :: after ∧ p.offset = before.flatten.length := by
  simpa using mem_placementsFrom member

theorem placements_eq_mapIdx (segments : List (List (List α))) :
    placements segments = (segments.mapIdx fun i rs => placeFrom i 0 rs).flatten := by
  have go (first : Nat) : placementsFrom first segments =
      (segments.mapIdx fun i rs => placeFrom (first + i) 0 rs).flatten := by
    induction segments generalizing first with
    | nil => rfl
    | cons rs segments ih =>
        rw [placementsFrom, ih, List.mapIdx_cons, List.flatten_cons]
        simp only [Nat.add_assoc, Nat.add_comm 1, Nat.add_zero]
  simpa only [placements, Nat.zero_add] using go 0

theorem length_placementsFrom_le {first count each : Nat} {segments : List (List (List α))}
    (inside : ∀ p ∈ placementsFrom first segments, p.segment < first + count)
    (limited : ∀ rs ∈ segments, rs.length ≤ each) :
    (placementsFrom first segments).length ≤ count * each := by
  induction segments generalizing first count with
  | nil => exact Nat.zero_le _
  | cons rs segments ih =>
      cases count with
      | zero =>
          have none : placementsFrom first (rs :: segments) = [] := by
            refine List.eq_nil_iff_forall_not_mem.mpr fun p member => ?_
            obtain ⟨older, ts, newer, -, position, -⟩ := mem_placementsFrom member
            have bound := inside p member
            omega
          simp [none]
      | succ count =>
          have rest : ∀ p ∈ placementsFrom (first + 1) segments, p.segment < first + 1 + count := by
            intro p member
            have bound := inside p (List.mem_append_right _ member)
            omega
          have head : (placeFrom first 0 rs).length = rs.length := by
            rw [← List.length_map Placement.record, map_record_placeFrom]
          have later := ih rest fun ts member => limited ts (List.mem_cons_of_mem _ member)
          have here := limited rs List.mem_cons_self
          rw [placementsFrom, List.length_append, head, Nat.succ_mul]
          omega

theorem length_placements_le {segments : List (List (List α))} {count each : Nat}
    (inside : ∀ p ∈ placements segments, p.segment < count)
    (limited : ∀ rs ∈ segments, rs.length ≤ each) :
    (placements segments).length ≤ count * each :=
  length_placementsFrom_le (by simpa only [placements, Nat.zero_add] using inside) limited

theorem located {segments : List (List (List α))} {p : Placement α}
    (member : p ∈ placements segments) :
    ∃ rs, segments[p.segment]? = some rs ∧
      ∀ tail, ((rs.flatten ++ tail).drop p.offset).take p.record.length = p.record := by
  obtain ⟨older, rs, newer, rfl, segment, before, after, rfl, offset⟩ := mem_placements member
  refine ⟨before ++ p.record :: after, by simp [segment], fun tail => ?_⟩
  simp [offset]

theorem placeFrom_ordered (segment offset : Nat) (rs : List (List α)) :
    (placeFrom segment offset rs).Pairwise Placement.Before := by
  induction rs generalizing offset with
  | nil => exact List.Pairwise.nil
  | cons r rs ih =>
      refine List.pairwise_cons.mpr ⟨fun q member => Or.inr ?_, ih _⟩
      obtain ⟨same, before, after, -, position⟩ := mem_placeFrom member
      exact ⟨same.symm, by simp only [position]; omega⟩

theorem placements_ordered (segments : List (List (List α))) :
    (placements segments).Pairwise Placement.Before := by
  have go (first : Nat) : (placementsFrom first segments).Pairwise Placement.Before := by
    induction segments generalizing first with
    | nil => exact List.Pairwise.nil
    | cons rs segments ih =>
        refine List.pairwise_append.mpr ⟨placeFrom_ordered _ _ _, ih _, ?_⟩
        intro p here q later
        obtain ⟨segment, -⟩ := mem_placeFrom here
        obtain ⟨older, ts, newer, -, position, -⟩ := mem_placementsFrom later
        exact Or.inl (by omega)
  exact go 0

end SegmentedLog
end LocalPC.Lib
