import LocalPC.Offline.TimeAligner
import Mathlib.Algebra.Order.Field.Basic
import Mathlib.Tactic.FieldSimp
import Mathlib.Tactic.Linarith
import Mathlib.Tactic.NormNum

namespace LocalPC.Offline
open Lib

section Neighbours
variable {α : Type} {tsNs : α → Int} {default : α} {blend : α → α → α} {t : Int}

theorem interpolate_two (first second : α) (rest : List α) :
    interpolate tsNs default blend (first :: second :: rest) t =
      match (first :: second :: rest)[lowerBound tsNs t (first :: second :: rest)]? with
      | none => (second :: rest).getLastD first
      | some b =>
          if lowerBound tsNs t (first :: second :: rest) = 0 then first
          else
            let a := (first :: second :: rest).getD
              (lowerBound tsNs t (first :: second :: rest) - 1) default
            if tsNs b = tsNs a then a else blend a b :=
  rfl

theorem interpolate_front {b : α} {after : List α} (reached : t ≤ tsNs b) :
    interpolate tsNs default blend (b :: after) t = b := by
  cases after with
  | nil => rfl
  | cons c after =>
      have pos : lowerBound tsNs t (b :: c :: after) = 0 :=
        @lowerBound_append _ _ _ tsNs t [] (b :: c :: after) (by simp) (by simpa using reached)
      rw [interpolate_two, pos]
      rfl

theorem interpolate_between {before after : List α} {a b : α}
    (below : ∀ p ∈ before, tsNs p < t) (passed : tsNs a < t) (reached : t ≤ tsNs b) :
    interpolate tsNs default blend (before ++ a :: b :: after) t = blend a b := by
  have pos : lowerBound tsNs t (before ++ a :: b :: after) = before.length + 1 := by
    have front : ∀ p ∈ before ++ [a], tsNs p < t := by
      rw [List.forall_mem_append, List.forall_mem_singleton]
      exact ⟨below, passed⟩
    rw [List.append_cons, lowerBound_append tsNs front (by simpa using reached),
      List.length_append, List.length_singleton]
  have second : (before ++ a :: b :: after)[before.length + 1]? = some b := by
    rw [List.getElem?_append_right (Nat.le_add_right _ _), Nat.add_sub_cancel_left]
    rfl
  have first : (before ++ a :: b :: after).getD before.length default = a := by
    rw [List.getD_eq_getElem?_getD, List.getElem?_append_right le_rfl, Nat.sub_self]
    rfl
  obtain ⟨head, next, rest, is⟩ : ∃ head next rest,
      before ++ a :: b :: after = head :: next :: rest := by
    cases before with
    | nil => exact ⟨a, b, after, rfl⟩
    | cons p before => cases before with
      | nil => exact ⟨p, a, b :: after, rfl⟩
      | cons q before => exact ⟨p, q, before ++ a :: b :: after, rfl⟩
  rw [is] at pos second first ⊢
  rw [interpolate_two, pos, second]
  dsimp only
  rw [if_neg (Nat.succ_ne_zero _), Nat.add_sub_cancel, first, if_neg (passed.trans_le reached).ne']

theorem neighbours_of_getElem? {pts : List α} {k : Nat} {b : α} (listed : pts[k + 1]? = some b) :
    ∃ before a after, pts = before ++ a :: b :: after ∧ pts[k]? = some a := by
  obtain ⟨bound, is⟩ := List.getElem?_eq_some_iff.mp listed
  have within : k < pts.length := Nat.lt_of_succ_lt bound
  refine ⟨pts.take k, pts[k], pts.drop (k + 2), ?_, List.getElem?_eq_getElem within⟩
  calc pts = pts.take k ++ pts.drop k := (List.take_append_drop k pts).symm
    _ = pts.take k ++ pts[k] :: b :: pts.drop (k + 2) := by
      rw [List.drop_eq_getElem_cons within, List.drop_eq_getElem_cons bound, is]

theorem interpolate_measured {β : Type} {held : α → β} {blend : Int → α → α → α}
    (atEnd : ∀ a b, tsNs a < tsNs b → (blend (tsNs b) a b = b ↔ held a = held b)) {pts : List α}
    (sorted : pts.Pairwise fun a b => tsNs a < tsNs b) {k : Nat} {p : α}
    (measured : pts[k]? = some p) :
    interpolate tsNs default (blend (tsNs p)) pts (tsNs p) = p ↔
      k = 0 ∨ ∃ a, pts[k - 1]? = some a ∧ held a = held p := by
  cases k with
  | zero =>
      have first : interpolate tsNs default (blend (tsNs p)) pts (tsNs p) = p := by
        cases pts with
        | nil => cases measured
        | cons b after =>
            cases measured
            exact interpolate_front le_rfl
      exact ⟨fun _ => Or.inl rfl, fun _ => first⟩
  | succ k =>
      obtain ⟨before, a, after, rfl, previous⟩ := neighbours_of_getElem? measured
      obtain ⟨-, later, below⟩ := List.pairwise_append.mp sorted
      have step : tsNs a < tsNs p := List.rel_of_pairwise_cons later List.mem_cons_self
      rw [interpolate_between (fun q member => below q member p (by simp)) step le_rfl,
        atEnd a p step, Nat.add_sub_cancel, previous]
      simp

theorem interpolate_map {β γ : Type} {tsNs' : β → Int} {default' : β}
    {blend' : β → β → β} {image : α → β} {held : α → γ} {held' : β → γ}
    (time : ∀ p, tsNs' (image p) = tsNs p) (empty : held' default' = held default)
    (same : ∀ p, held' (image p) = held p) (keeps : ∀ a b, held (blend a b) = held a)
    (keeps' : ∀ a b, held' (blend' a b) = held' a) (pts : List α) :
    held' (interpolate tsNs' default' blend' (pts.map image) t) =
      held (interpolate tsNs default blend pts t) := by
  match pts with
  | [] => exact empty
  | [p] => exact same p
  | first :: second :: rest =>
      have pos (entries : List α) : lowerBound tsNs' t (entries.map image) =
          lowerBound tsNs t entries := by
        simp only [lowerBound, List.takeWhile_map, List.length_map, Function.comp_def, time]
      have shown := pos (first :: second :: rest)
      have image_at (n : Nat) :
          (image first :: image second :: rest.map image)[n]? =
            (first :: second :: rest)[n]?.map image := by
        rw [← List.getElem?_map, List.map_cons, List.map_cons]
      rw [List.map_cons, List.map_cons] at shown ⊢
      rw [interpolate_two, interpolate_two, shown]
      generalize lowerBound tsNs t (first :: second :: rest) = n
      rw [image_at, List.getD_eq_getElem?_getD, List.getD_eq_getElem?_getD, image_at]
      cases found : (first :: second :: rest)[n]? with
      | none =>
          have last : (image second :: rest.map image).getLastD (image first) =
              image ((second :: rest).getLastD first) := by
            rw [← List.map_cons, List.getLastD_eq_getLast?, List.getLast?_map,
              List.getLastD_eq_getLast?, Option.getD_map]
          exact (congrArg held' last).trans (same _)
      | some b =>
          have within : n - 1 < (first :: second :: rest).length :=
            (Nat.sub_le _ _).trans_lt (List.getElem?_eq_some_iff.mp found).1
          rw [List.getElem?_eq_getElem within]
          dsimp only [Option.map_some, Option.getD_some]
          rw [time, time]
          by_cases front : n = 0
          · rw [if_pos front, if_pos front, same]
          · rw [if_neg front, if_neg front]
            split
            · exact same _
            · rw [keeps, keeps', same]

end Neighbours

namespace Exact

structure GnssPoint (K : Type) where
  tsNs : Int
  latitudeDeg : K
  longitudeDeg : K
  altitudeM : K
  speedMps : K
  headingDeg : K
  fixQuality : UInt8
  satellites : UInt8
  hdop : K

structure TrajectoryPoint (K : Type) where
  tsNs : Int
  latitudeDeg : K
  longitudeDeg : K
  altitudeM : K
  velNMps : K
  velEMps : K
  velDMps : K
  rollDeg : K
  pitchDeg : K
  yawDeg : K
  solutionType : UInt8

section Field
variable {K : Type} [Field K]

def noFix : GnssPoint K := ⟨0, 0, 0, 0, 0, 0, 0, 0, 999 / 10⟩
def noTrajectory : TrajectoryPoint K := ⟨0, 0, 0, 0, 0, 0, 0, 0, 0, 0, 0⟩

def fraction (t t0 t1 : Int) : K := ((t - t0 : Int) : K) / ((t1 - t0 : Int) : K)

def lerp (alpha a b : K) : K := a + alpha * (b - a)

def blendGnss (t : Int) (a b : GnssPoint K) : GnssPoint K :=
  let alpha : K := fraction t a.tsNs b.tsNs
  { tsNs := t
    latitudeDeg := lerp alpha a.latitudeDeg b.latitudeDeg
    longitudeDeg := lerp alpha a.longitudeDeg b.longitudeDeg
    altitudeM := lerp alpha a.altitudeM b.altitudeM
    speedMps := lerp alpha a.speedMps b.speedMps
    headingDeg := lerp alpha a.headingDeg b.headingDeg
    fixQuality := a.fixQuality
    satellites := a.satellites
    hdop := a.hdop }

def interpolateGnss (pts : List (GnssPoint K)) (t : Int) : GnssPoint K :=
  interpolate GnssPoint.tsNs noFix (blendGnss t) pts t

def blendTrajectory (t : Int) (a b : TrajectoryPoint K) : TrajectoryPoint K :=
  let alpha : K := fraction t a.tsNs b.tsNs
  { tsNs := t
    latitudeDeg := lerp alpha a.latitudeDeg b.latitudeDeg
    longitudeDeg := lerp alpha a.longitudeDeg b.longitudeDeg
    altitudeM := lerp alpha a.altitudeM b.altitudeM
    velNMps := lerp alpha a.velNMps b.velNMps
    velEMps := lerp alpha a.velEMps b.velEMps
    velDMps := lerp alpha a.velDMps b.velDMps
    rollDeg := lerp alpha a.rollDeg b.rollDeg
    pitchDeg := lerp alpha a.pitchDeg b.pitchDeg
    yawDeg := lerp alpha a.yawDeg b.yawDeg
    solutionType := a.solutionType }

def interpolateTrajectory (pts : List (TrajectoryPoint K)) (t : Int) : TrajectoryPoint K :=
  interpolate TrajectoryPoint.tsNs noTrajectory (blendTrajectory t) pts t

def GnssPoint.held (p : GnssPoint K) : UInt8 × UInt8 × K := (p.fixQuality, p.satellites, p.hdop)

def ofGnss (real : Float → K) (real32 : Float32 → K) (p : Offline.GnssPoint) : GnssPoint K where
  tsNs := p.tsNs
  latitudeDeg := real p.latitudeDeg
  longitudeDeg := real p.longitudeDeg
  altitudeM := real p.altitudeM
  speedMps := real32 p.speedMps
  headingDeg := real32 p.headingDeg
  fixQuality := p.fixQuality
  satellites := p.satellites
  hdop := real32 p.hdop

def ofTrajectory (real : Float → K) (real32 : Float32 → K)
    (p : Offline.TrajectoryPoint) : TrajectoryPoint K where
  tsNs := p.tsNs
  latitudeDeg := real p.latitudeDeg
  longitudeDeg := real p.longitudeDeg
  altitudeM := real p.altitudeM
  velNMps := real32 p.velNMps
  velEMps := real32 p.velEMps
  velDMps := real32 p.velDMps
  rollDeg := real32 p.rollDeg
  pitchDeg := real32 p.pitchDeg
  yawDeg := real32 p.yawDeg
  solutionType := p.solutionType

theorem interpolateGnss_fix (real : Float → K) (real32 : Float32 → K)
    (pts : List Offline.GnssPoint) (t : Int) :
    let exact := interpolateGnss (pts.map (ofGnss real real32)) t
    let rounded := Offline.interpolateGnss pts t
    (exact.fixQuality, exact.satellites) = (rounded.fixQuality, rounded.satellites) :=
  @interpolate_map _ Offline.GnssPoint.tsNs {} (Offline.blendGnss t) t _ _ GnssPoint.tsNs noFix
    (blendGnss t) (ofGnss real real32)
    (fun p => (p.fixQuality, p.satellites)) (fun p => (p.fixQuality, p.satellites))
      (fun _ => rfl) rfl (fun _ => rfl)
    (fun _ _ => rfl) (fun _ _ => rfl) pts

theorem interpolateTrajectory_solution (real : Float → K) (real32 : Float32 → K)
    (pts : List Offline.TrajectoryPoint) (t : Int) :
    (interpolateTrajectory (pts.map (ofTrajectory real real32)) t).solutionType =
      (Offline.interpolateTrajectory pts t).solutionType :=
  @interpolate_map _ Offline.TrajectoryPoint.tsNs {} (Offline.blendTrajectory t) t _ _
    TrajectoryPoint.tsNs noTrajectory (blendTrajectory t) (ofTrajectory real real32)
    Offline.TrajectoryPoint.solutionType TrajectoryPoint.solutionType
      (fun _ => rfl) rfl (fun _ => rfl)
    (fun _ _ => rfl) (fun _ _ => rfl) pts

@[simp] theorem lerp_zero (a b : K) : lerp 0 a b = a := by simp [lerp]

@[simp] theorem lerp_one (a b : K) : lerp 1 a b = b := by simp [lerp]

@[simp] theorem fraction_start (t0 t1 : Int) : (fraction t0 t0 t1 : K) = 0 := by simp [fraction]

theorem fraction_end [CharZero K] {t0 t1 : Int} (step : t0 < t1) : (fraction t1 t0 t1 : K) = 1 :=
  div_self (Int.cast_ne_zero.mpr (Int.sub_pos_of_lt step).ne')

theorem blendGnss_end [CharZero K] (a b : GnssPoint K) (step : a.tsNs < b.tsNs) :
    blendGnss b.tsNs a b = b ↔ a.held = b.held := by
  obtain ⟨tsNs, lat, lon, alt, speed, heading, fixQuality, satellites, hdop⟩ := b
  simp [blendGnss, fraction_end step, GnssPoint.held]

theorem blendTrajectory_end [CharZero K] (a b : TrajectoryPoint K) (step : a.tsNs < b.tsNs) :
    blendTrajectory b.tsNs a b = b ↔ a.solutionType = b.solutionType := by
  obtain ⟨tsNs, lat, lon, alt, velN, velE, velD, roll, pitch, yaw, solutionType⟩ := b
  simp [blendTrajectory, fraction_end step]

/-- At the time of a measurement the interpolation gives the measurement if and only if it is the
first, or the one before it has the same held fields. -/
theorem measurements_reproduced_iff [CharZero K] {fixes : List (GnssPoint K)}
    {points : List (TrajectoryPoint K)} (fixesSorted : fixes.Pairwise fun a b => a.tsNs < b.tsNs)
    (pointsSorted : points.Pairwise fun a b => a.tsNs < b.tsNs) :
    (∀ k p, fixes[k]? = some p →
      (interpolateGnss fixes p.tsNs = p ↔
        k = 0 ∨ ∃ a, fixes[k - 1]? = some a ∧ a.held = p.held)) ∧
    (∀ k p, points[k]? = some p →
      (interpolateTrajectory points p.tsNs = p ↔
        k = 0 ∨ ∃ a, points[k - 1]? = some a ∧ a.solutionType = p.solutionType)) :=
  ⟨fun _ _ => interpolate_measured blendGnss_end fixesSorted,
    fun _ _ => interpolate_measured blendTrajectory_end pointsSorted⟩

theorem lastingFix_reproduced :
    ∃ a b : GnssPoint ℚ, a.tsNs < b.tsNs ∧ interpolateGnss [a, b] b.tsNs = b := by
  refine ⟨{ noFix with fixQuality := 1 },
    { noFix with tsNs := 100, fixQuality := 1 }, by decide, ?_⟩
  apply ((measurements_reproduced_iff (by simp [noFix])
    (@List.Pairwise.nil (TrajectoryPoint ℚ) _)).1 1 _ rfl).mpr
  exact Or.inr ⟨_, rfl, rfl⟩

/-- A fix gained at a measurement is not yet there at its time. -/
theorem gainedFix_notReproduced :
    ∃ (fixes : List (GnssPoint ℚ)) (k : Nat) (p : GnssPoint ℚ),
      (fixes.Pairwise fun a b => a.tsNs < b.tsNs) ∧ fixes[k]? = some p ∧ p.fixQuality = 1 ∧
        (interpolateGnss fixes p.tsNs).fixQuality = 0 := by
  refine ⟨[noFix, { noFix with tsNs := 100, fixQuality := 1 }], 1, _, by simp [noFix], rfl, rfl, ?_⟩
  exact congrArg GnssPoint.fixQuality
    (@interpolate_between _ GnssPoint.tsNs noFix (blendGnss 100) 100 [] [] noFix
    { noFix with tsNs := 100, fixQuality := 1 } (by simp) (by decide) le_rfl)

end Field

section Heading
variable {K : Type} [Field K] [LinearOrder K] [IsStrictOrderedRing K]

/-- The length of the shorter arc between two angles of a circle of 360 degrees. -/
def circularDistance (a b : K) : K := min |a - b| (360 - |a - b|)

theorem fraction_mem {t t0 t1 : Int} (start : t0 ≤ t) (stop : t ≤ t1) :
    0 ≤ (fraction t t0 t1 : K) ∧ (fraction t t0 t1 : K) ≤ 1 := by
  have passed : (0 : K) ≤ ((t - t0 : Int) : K) := Int.cast_nonneg (sub_nonneg.mpr start)
  have whole : ((t - t0 : Int) : K) ≤ ((t1 - t0 : Int) : K) :=
    Int.cast_le.mpr (sub_le_sub_right stop t0)
  exact ⟨div_nonneg passed (passed.trans whole), div_le_one_of_le₀ whole (passed.trans whole)⟩

/-- Two parts of a way that is not half the circle: each is at most the shorter arc if and only if
the way is the shorter arc, or one part is the whole way, or both parts are short. -/
theorem parts_le_arc_iff {x y way : K} (from_ : 0 ≤ x) (to_ : 0 ≤ y)
    (whole : x + y = way) (once : way < 360) (notHalf : way ≠ 180) :
    (min x (360 - x) ≤ min way (360 - way) ∧ min y (360 - y) ≤ min way (360 - way)) ↔
      way < 180 ∨ x = 0 ∨ y = 0 ∨ (x ≤ 360 - way ∧ y ≤ 360 - way) := by
  rcases lt_or_gt_of_ne notHalf with short | long
  · have arc : min way (360 - way) = way := min_eq_left (by linarith)
    rw [arc]
    exact ⟨fun _ => Or.inl short, fun _ =>
      ⟨(min_le_left _ _).trans (by linarith), (min_le_left _ _).trans (by linarith)⟩⟩
  · have arc : min way (360 - way) = 360 - way := min_eq_right (by linarith)
    have part (z w : K) (other : 0 ≤ w) (sum : z + w = way) :
        min z (360 - z) ≤ 360 - way ↔ z ≤ 360 - way ∨ w = 0 := by
      rw [min_le_iff]
      apply or_congr_right
      constructor <;> intro <;> linarith
    rw [arc, part x y to_ whole, part y x from_ ((add_comm y x).trans whole)]
    constructor
    · rintro ⟨near | still, near' | still'⟩
      · exact Or.inr (Or.inr (Or.inr ⟨near, near'⟩))
      · exact Or.inr (Or.inl still')
      · exact Or.inr (Or.inr (Or.inl still))
      · exact Or.inr (Or.inl still')
    · rintro (short | still | still | near)
      · exact absurd short long.not_gt
      · exact ⟨Or.inl (by linarith), Or.inr still⟩
      · exact ⟨Or.inr still, Or.inl (by linarith)⟩
      · exact ⟨Or.inl near.1, Or.inl near.2⟩

theorem parts_eq_arc_iff {x y way : K} (from_ : 0 ≤ x) (to_ : 0 ≤ y)
    (whole : x + y = way) (once : way < 360) (notHalf : way ≠ 180) :
    min x (360 - x) + min y (360 - y) = min way (360 - way) ↔ way < 180 ∨ x = 0 ∨ y = 0 := by
  subst whole
  rcases lt_or_gt_of_ne notHalf with short | long
  · rw [min_eq_left (by linarith), min_eq_left (by linarith), min_eq_left (by linarith)]
    exact ⟨fun _ => Or.inl short, fun _ => rfl⟩
  · have arc : min (x + y) (360 - (x + y)) = 360 - (x + y) := min_eq_right (by linarith)
    rw [arc]
    constructor
    · intro sum
      rcases min_choice x (360 - x) with is | is <;> rcases min_choice y
          (360 - y) with is' | is' <;>
        rw [is, is'] at sum
      · exact absurd (by linarith) notHalf
      · exact Or.inr (Or.inl (by linarith))
      · exact Or.inr (Or.inr (by linarith))
      · linarith
    · rintro (short | rfl | rfl)
      · exact absurd short long.not_gt
      · rw [zero_add] at long once ⊢
        rw [min_eq_left (by linarith), min_eq_right (by linarith), zero_add]
      · rw [add_zero] at long once ⊢
        rw [min_eq_right (by linarith), min_eq_left (by linarith), add_zero]

theorem interpolateGnss_heading {before after : List (GnssPoint K)} {a b : GnssPoint K} {t : Int}
    (sorted : SortedBy GnssPoint.tsNs (before ++ a :: b :: after))
    (start : a.tsNs < t ∨ a.tsNs = t ∧ ∀ p ∈ before, p.tsNs < t) (stop : t ≤ b.tsNs) :
    (interpolateGnss (before ++ a :: b :: after) t).headingDeg =
      lerp (fraction t a.tsNs b.tsNs) a.headingDeg b.headingDeg := by
  rcases start with passed | ⟨rfl, below⟩
  · obtain ⟨-, -, ordered⟩ := List.pairwise_append.mp sorted
    have below (p : GnssPoint K) (member : p ∈ before) : p.tsNs < t :=
      (ordered p member a List.mem_cons_self).trans_lt passed
    exact congrArg GnssPoint.headingDeg (interpolate_between below passed stop)
  · rw [fraction_start, lerp_zero]
    rcases List.eq_nil_or_concat before with rfl | ⟨front, p, rfl⟩
    · exact congrArg GnssPoint.headingDeg (interpolate_front le_rfl)
    · rw [List.concat_eq_append] at below ⊢
      rw [List.append_assoc, List.singleton_append]
      obtain ⟨earlier, last⟩ := List.forall_mem_append.mp below
      have passed := List.forall_mem_singleton.mp last
      have blended := congrArg GnssPoint.headingDeg
        (@interpolate_between _ GnssPoint.tsNs noFix (blendGnss a.tsNs) a.tsNs front
          (b :: after) p a earlier passed le_rfl)
      rw [interpolateGnss, blended, blendGnss]
      dsimp only
      rw [fraction_end passed, lerp_one]

theorem abs_lerp_left {alpha : K} (from_ : 0 ≤ alpha)
    (a b : K) : |lerp alpha a b - a| = alpha * |b - a| := by
  rw [lerp, add_sub_cancel_left, abs_mul, abs_of_nonneg from_]

theorem abs_lerp_right {alpha : K} (to_ : alpha ≤ 1)
    (a b : K) : |lerp alpha a b - b| = (1 - alpha) * |b - a| := by
  have rest : lerp alpha a b - b = -((1 - alpha) * (b - a)) := by
    rw [lerp]
    ring
  rw [rest, abs_neg, abs_mul, abs_of_nonneg (sub_nonneg.mpr to_)]

theorem fraction_eq_zero_iff {t t0 t1 : Int} (start : t0 ≤ t) (stop : t ≤ t1) :
    (fraction t t0 t1 : K) = 0 ↔ t = t0 := by
  rw [fraction, div_eq_zero_iff, Int.cast_eq_zero, Int.cast_eq_zero]
  omega

theorem fraction_eq_one_iff {t t0 t1 : Int} (step : t0 < t1) :
    (fraction t t0 t1 : K) = 1 ↔ t = t1 := by
  have whole : ((t1 - t0 : Int) : K) ≠ 0 := Int.cast_ne_zero.mpr (Int.sub_pos_of_lt step).ne'
  rw [fraction, div_eq_one_iff_eq whole, Int.cast_inj, sub_left_inj]

theorem part_eq_zero_iff {t t0 t1 : Int} {way : K} (start : t0 ≤ t)
    (stop : t ≤ t1) (long : way ≠ 0) :
    fraction t t0 t1 * way = 0 ∨ (1 - fraction t t0 t1) * way = 0 ↔ t = t0 ∨ t = t1 := by
  rw [mul_eq_zero, mul_eq_zero, or_iff_left long, or_iff_left long, fraction_eq_zero_iff start stop]
  rcases (start.trans stop).eq_or_lt with same | step
  · have once : t = t0 := le_antisymm (stop.trans same.ge) start
    simp only [once, true_or]
  · rw [sub_eq_zero, eq_comm (a := (1 : K)), fraction_eq_one_iff step]

/-- Between two fixes the heading keeps within their circular distance of both if and only if the
headings do not lie on the two sides of north, or the time is that of a fix, or the blend is near
both. It is on the shorter arc only in the first two cases. -/
theorem heading_between_iff {before after : List (GnssPoint K)} {a b : GnssPoint K} {t : Int}
    (sorted : SortedBy GnssPoint.tsNs (before ++ a :: b :: after))
    (start : a.tsNs < t ∨ a.tsNs = t ∧ ∀ p ∈ before, p.tsNs < t) (stop : t ≤ b.tsNs)
    (heading : 0 ≤ a.headingDeg ∧ a.headingDeg < 360)
    (heading' : 0 ≤ b.headingDeg ∧ b.headingDeg < 360)
    (apart : circularDistance a.headingDeg b.headingDeg < 180) :
    let h := (interpolateGnss (before ++ a :: b :: after) t).headingDeg
    let arc := circularDistance a.headingDeg b.headingDeg
    let way := |b.headingDeg - a.headingDeg|
    let alpha := fraction t a.tsNs b.tsNs
    (circularDistance h a.headingDeg ≤ arc ∧ circularDistance h b.headingDeg ≤ arc ↔
      way < 180 ∨ t = a.tsNs ∨ t = b.tsNs ∨ alpha * way ≤ 360 - way ∧
        (1 - alpha) * way ≤ 360 - way) ∧
    (circularDistance h a.headingDeg + circularDistance h b.headingDeg = arc ↔
      way < 180 ∨ t = a.tsNs ∨ t = b.tsNs) := by
  intro h arc way alpha
  have begun : a.tsNs ≤ t := start.elim le_of_lt fun same => same.1.le
  obtain ⟨nonneg, le_one⟩ : 0 ≤ alpha ∧ alpha ≤ 1 := fraction_mem begun stop
  have is : h = lerp alpha a.headingDeg b.headingDeg := interpolateGnss_heading sorted start stop
  have left : |h - a.headingDeg| = alpha * way := by rw [is, abs_lerp_left nonneg]
  have right : |h - b.headingDeg| = (1 - alpha) * way := by rw [is, abs_lerp_right le_one]
  have whole : alpha * way + (1 - alpha) * way = way := by ring
  have round : arc = min way (360 - way) := by
    change circularDistance _ _ = _
    rw [circularDistance, abs_sub_comm]
  have once : way < 360 := abs_lt.mpr ⟨by linarith, by linarith⟩
  have notHalf : way ≠ 180 := by
    intro half
    rw [show circularDistance _ _ = _ from round, half] at apart
    norm_num at apart
  have fromA : 0 ≤ alpha * way := mul_nonneg nonneg (abs_nonneg _)
  have fromB : 0 ≤ (1 - alpha) * way := mul_nonneg (sub_nonneg.mpr le_one) (abs_nonneg _)
  have moments : way < 180 ∨ alpha * way = 0 ∨ (1 - alpha) * way = 0 ↔ way < 180 ∨
      t = a.tsNs ∨ t = b.tsNs := by
    by_cases short : way < 180
    · simp only [short, true_or]
    · have long : way ≠ 0 := by linarith
      rw [part_eq_zero_iff begun stop long]
  rw [circularDistance, circularDistance, left, right, round,
    parts_le_arc_iff fromA fromB whole once notHalf,
      parts_eq_arc_iff fromA fromB whole once notHalf]
  simp only [← or_assoc] at moments ⊢
  exact ⟨or_congr_left moments, moments⟩

end Heading

theorem eastward_keepsBetween :
    ∃ a b : GnssPoint ℚ, a.headingDeg = 10 ∧ b.headingDeg = 30 ∧
      circularDistance (interpolateGnss [a, b] 50).headingDeg a.headingDeg +
        circularDistance (interpolateGnss [a, b] 50).headingDeg b.headingDeg =
          circularDistance a.headingDeg b.headingDeg := by
  refine ⟨{ noFix with headingDeg := 10 },
    { noFix with tsNs := 100, headingDeg := 30 }, rfl, rfl, ?_⟩
  have between := @heading_between_iff ℚ _ _ _ [] [] { noFix with headingDeg := 10 }
    { noFix with tsNs := 100, headingDeg := 30 } 50 (by simp [SortedBy, noFix])
      (Or.inl (by decide)) (by decide)
    (by norm_num) (by norm_num) (by norm_num [circularDistance])
  exact between.2.mpr (Or.inl (by norm_num [abs_lt]))

/-- From 350 to 10 degrees, 20 degrees apart, the heading passes south. -/
theorem acrossNorth_turnsRound :
    ∃ a b : GnssPoint ℚ, a.headingDeg = 350 ∧ b.headingDeg = 10 ∧
      circularDistance a.headingDeg b.headingDeg = 20 ∧
      (interpolateGnss [a, b] 50).headingDeg = 180 ∧
      ¬ circularDistance (interpolateGnss [a, b] 50).headingDeg a.headingDeg ≤
        circularDistance a.headingDeg b.headingDeg := by
  have heading := @interpolateGnss_heading ℚ _ _ _ [] [] { noFix with headingDeg := 350 }
    { noFix with tsNs := 100, headingDeg := 10 } 50 (by simp [SortedBy, noFix])
      (Or.inl (by decide)) (by decide)
  have south :
      (interpolateGnss
        [{ noFix with headingDeg := 350 }, { noFix with tsNs := 100, headingDeg := 10 }] 50 :
      GnssPoint ℚ).headingDeg = 180 := by
    rw [List.nil_append] at heading
    rw [heading]
    norm_num [lerp, fraction, noFix]
  refine ⟨_, _, rfl, rfl, ?_, south, ?_⟩
  · norm_num [circularDistance]
  · rw [south]
    norm_num [circularDistance]

end Exact

end LocalPC.Offline
