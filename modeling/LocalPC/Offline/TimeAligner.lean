import LocalPC.Lib.SortedRange
import LocalPC.Offline.TimeSync

/-!
# Alignment on the time grid

`time_aligner.cpp`. The arithmetic of positions and angles is that of `double` and `float`, on
times it is unbounded.
-/

namespace LocalPC.Offline
open Lib

abbrev Ticks := List Int

structure AlignedSample where
  tNs : Int := 0
  egoLat : Float := 0
  egoLon : Float := 0
  egoAlt : Float := 0
  egoSpeed : Float32 := 0
  egoHeading : Float32 := 0
  egoFix : UInt8 := 0
  srcLat : Float := 0
  srcLon : Float := 0
  srcAlt : Float := 0
  srcSpeed : Float32 := 0
  srcValid : Bool := false
  accX : Float32 := 0
  accY : Float32 := 0
  accZ : Float32 := 0
  gyrX : Float32 := 0
  gyrY : Float32 := 0
  gyrZ : Float32 := 0
  imuValid : Bool := false
  trajLat : Float := 0
  trajLon : Float := 0
  roll : Float32 := 0
  pitch : Float32 := 0
  yaw : Float32 := 0
  trajValid : Bool := false

/-! ## Interpolation -/

/-- The search for the neighbours of `t`, which both interpolators make. `blend` is what they do
between two points. -/
def interpolate {α : Type} (tsNs : α → Int) (default : α) (blend : α → α → α)
    (pts : List α) (t : Int) : α :=
  match pts with
  | [] => default
  | [p] => p
  | first :: rest =>
      let pos := lowerBound tsNs t (first :: rest)
      match (first :: rest)[pos]? with
      | none => rest.getLastD first
      | some b =>
          if pos = 0 then first
          else
            let a := (first :: rest).getD (pos - 1) default
            if tsNs b = tsNs a then a else blend a b

def fraction (t t0 t1 : Int) : Float := Float.ofInt (t - t0) / Float.ofInt (t1 - t0)

def lerp (alpha a b : Float) : Float := a + alpha * (b - a)
def lerp32 (alpha a b : Float32) : Float32 := a + alpha * (b - a)

def blendGnss (t : Int) (a b : GnssPoint) : GnssPoint :=
  let alpha := fraction t a.tsNs b.tsNs
  { tsNs := t
    latitudeDeg := lerp alpha a.latitudeDeg b.latitudeDeg
    longitudeDeg := lerp alpha a.longitudeDeg b.longitudeDeg
    altitudeM := lerp alpha a.altitudeM b.altitudeM
    speedMps := lerp32 alpha.toFloat32 a.speedMps b.speedMps
    headingDeg := lerp32 alpha.toFloat32 a.headingDeg b.headingDeg
    -- held from the point before
    fixQuality := a.fixQuality
    satellites := a.satellites
    hdop := a.hdop }

def interpolateGnss (pts : List GnssPoint) (t : Int) : GnssPoint :=
  interpolate GnssPoint.tsNs {} (blendGnss t) pts t

def blendTrajectory (t : Int) (a b : TrajectoryPoint) : TrajectoryPoint :=
  let alpha := fraction t a.tsNs b.tsNs
  { tsNs := t
    latitudeDeg := lerp alpha a.latitudeDeg b.latitudeDeg
    longitudeDeg := lerp alpha a.longitudeDeg b.longitudeDeg
    altitudeM := lerp alpha a.altitudeM b.altitudeM
    velNMps := lerp32 alpha.toFloat32 a.velNMps b.velNMps
    velEMps := lerp32 alpha.toFloat32 a.velEMps b.velEMps
    velDMps := lerp32 alpha.toFloat32 a.velDMps b.velDMps
    rollDeg := lerp32 alpha.toFloat32 a.rollDeg b.rollDeg
    pitchDeg := lerp32 alpha.toFloat32 a.pitchDeg b.pitchDeg
    yawDeg := lerp32 alpha.toFloat32 a.yawDeg b.yawDeg
    solutionType := a.solutionType }

def interpolateTrajectory (pts : List TrajectoryPoint) (t : Int) : TrajectoryPoint :=
  interpolate TrajectoryPoint.tsNs {} (blendTrajectory t) pts t

/-! ## The aligner -/

namespace TimeAligner

def alignEgo (gpsSorted : List GnssPoint) (tick : Int) (s : AlignedSample) : AlignedSample :=
  if gpsSorted = [] then s
  else
    let g := interpolateGnss gpsSorted tick
    { s with
      egoLat := g.latitudeDeg
      egoLon := g.longitudeDeg
      egoAlt := g.altitudeM
      egoSpeed := g.speedMps
      egoHeading := g.headingDeg
      egoFix := g.fixQuality }

def inSourceRange (srcSorted : List GnssPoint) (tick : Int) : Bool :=
  match srcSorted.head?, srcSorted.getLast? with
  | some front, some back => front.tsNs - 5 * kNsPerSec ≤ tick && tick ≤ back.tsNs + 5 * kNsPerSec
  | _, _ => false

def alignSource (srcSorted : List GnssPoint) (tick : Int) (s : AlignedSample) : AlignedSample :=
  if inSourceRange srcSorted tick then
    let g := interpolateGnss srcSorted tick
    { s with
      srcLat := g.latitudeDeg
      srcLon := g.longitudeDeg
      srcAlt := g.altitudeM
      srcSpeed := g.speedMps
      srcValid := 0 < g.fixQuality }
  else s

def findNearestImu (joinNs : Int) (imu : List ImuSample) (t : Int) : Option ImuSample :=
  (minElement (fun a b => (a.tsNs - t).natAbs < (b.tsNs - t).natAbs) imu).filter fun im =>
    ((im.tsNs - t).natAbs : Int) ≤ joinNs

def alignImu (joinNs : Int) (imu : List ImuSample) (tick : Int)
    (s : AlignedSample) : AlignedSample :=
  match findNearestImu joinNs imu tick with
  | none => s
  | some im =>
      { s with
        accX := im.accXMps2
        accY := im.accYMps2
        accZ := im.accZMps2
        gyrX := im.gyroXRads
        gyrY := im.gyroYRads
        gyrZ := im.gyroZRads
        imuValid := true }

def alignTrajectory (trajSorted : List TrajectoryPoint) (tick : Int)
    (s : AlignedSample) : AlignedSample :=
  if trajSorted = [] then s
  else
    let tp := interpolateTrajectory trajSorted tick
    { s with
      trajLat := tp.latitudeDeg
      trajLon := tp.longitudeDeg
      roll := tp.rollDeg
      pitch := tp.pitchDeg
      yaw := tp.yawDeg
      trajValid := 0 < tp.solutionType }

def align (joinToleranceMs : Int) (ticks : Ticks)
    (egoGps srcGps : List GnssPoint) (imu : List ImuSample)
    (traj : List TrajectoryPoint) : List AlignedSample :=
  let gpsSorted := sortByTime GnssPoint.tsNs egoGps
  let srcSorted := sortByTime GnssPoint.tsNs srcGps
  let trajSorted := sortByTime TrajectoryPoint.tsNs traj
  ticks.map fun tick =>
    alignTrajectory trajSorted tick
      (alignImu (joinToleranceMs * kNsPerMs) imu tick
        (alignSource srcSorted tick
          (alignEgo gpsSorted tick { tNs := tick })))

end TimeAligner

/-! ## The held fields -/

theorem interpolate_held {α : Type} {tsNs : α → Int} {default : α}
    {blend : α → α → α} {pts : List α} {held : α → Prop} (keeps : ∀ a b, held a → held (blend a b))
    (all : ∀ p ∈ pts, held p) (some_ : pts ≠ []) (t : Int) :
    held (interpolate tsNs default blend pts t) := by
  match pts, some_ with
  | [p], _ => exact all p (List.mem_singleton_self p)
  | first :: second :: rest, _ =>
      rw [interpolate]
      · generalize lowerBound tsNs t (first :: second :: rest) = pos
        dsimp only
        split
        next => exact all _ List.getLastD_mem_cons
        next b found =>
          split
          · exact all first List.mem_cons_self
          · have bound : pos - 1 < (first :: second :: rest).length := by
              have := (List.getElem?_eq_some_iff.mp found).1
              omega
            have before : held ((first :: second :: rest).getD (pos - 1) default) := by
              rw [List.getD_eq_getElem?_getD, List.getElem?_eq_getElem bound]
              exact all _ (List.getElem_mem bound)
            split
            · exact before
            · exact keeps _ _ before
      · simp

namespace TimeAligner

def sourceSeen (srcGps : List GnssPoint) (tick : Int) : Bool :=
  let srcSorted := sortByTime GnssPoint.tsNs srcGps
  inSourceRange srcSorted tick && 0 < (interpolateGnss srcSorted tick).fixQuality

def egoFixAt (egoGps : List GnssPoint) (tick : Int) : UInt8 :=
  if egoGps = [] then 0 else (interpolateGnss (sortByTime GnssPoint.tsNs egoGps) tick).fixQuality

theorem alignTrajectory_frame (traj : List TrajectoryPoint) (tick : Int) (s : AlignedSample) :
    (alignTrajectory traj tick s).srcValid = s.srcValid ∧
      (alignTrajectory traj tick s).egoFix = s.egoFix := by
  unfold alignTrajectory
  split <;> exact ⟨rfl, rfl⟩

theorem alignImu_frame (joinNs : Int) (imu : List ImuSample) (tick : Int) (s : AlignedSample) :
    (alignImu joinNs imu tick s).srcValid = s.srcValid ∧
      (alignImu joinNs imu tick s).egoFix = s.egoFix := by
  unfold alignImu
  split <;> exact ⟨rfl, rfl⟩

theorem alignSource_spec (srcSorted : List GnssPoint) (tick : Int) {s : AlignedSample}
    (unseen : s.srcValid = false) :
    (alignSource srcSorted tick s).srcValid =
        (inSourceRange srcSorted tick && decide (0 < (interpolateGnss srcSorted tick).fixQuality)) ∧
      (alignSource srcSorted tick s).egoFix = s.egoFix := by
  unfold alignSource
  cases inSourceRange srcSorted tick with
  | false => exact ⟨unseen, rfl⟩
  | true => exact ⟨(Bool.true_and _).symm, rfl⟩

theorem sortByTime_eq_nil_iff {α : Type} {tsNs : α → Int} {entries : List α} :
    sortByTime tsNs entries = [] ↔ entries = [] := by
  rw [← List.length_eq_zero_iff, sortByTime, List.length_mergeSort, List.length_eq_zero_iff]

theorem alignEgo_spec (egoGps : List GnssPoint) (tick : Int) {s : AlignedSample}
    (unknown : s.egoFix = 0) :
    (alignEgo (sortByTime GnssPoint.tsNs egoGps) tick s).srcValid = s.srcValid ∧
      (alignEgo (sortByTime GnssPoint.tsNs egoGps) tick s).egoFix = egoFixAt egoGps tick := by
  unfold alignEgo egoFixAt
  simp only [sortByTime_eq_nil_iff]
  split
  · exact ⟨rfl, unknown⟩
  · exact ⟨rfl, rfl⟩

theorem align_valid (joinToleranceMs : Int) (ticks : Ticks)
    (egoGps srcGps : List GnssPoint) (imu : List ImuSample) (traj : List TrajectoryPoint) :
    ((align joinToleranceMs ticks egoGps srcGps imu traj).map fun s =>
      s.srcValid && decide (0 < s.egoFix)) =
      ticks.map fun tick => sourceSeen srcGps tick && decide (0 < egoFixAt egoGps tick) := by
  rw [align, List.map_map]
  refine List.map_congr_left fun tick _ => ?_
  have ego := @alignEgo_spec egoGps tick { tNs := tick } rfl
  have source := alignSource_spec (sortByTime GnssPoint.tsNs srcGps) tick ego.1
  rw [Function.comp_apply, (alignTrajectory_frame _ _ _).1, (alignTrajectory_frame _ _ _).2,
    (alignImu_frame _ _ _ _).1, (alignImu_frame _ _ _ _).2, source.1, source.2, ego.2]
  rfl

theorem egoFixAt_nil (tick : Int) : egoFixAt [] tick = 0 := rfl

theorem egoFixAt_held {egoGps : List GnssPoint} {held : UInt8 → Prop}
    (all : ∀ p ∈ egoGps, held p.fixQuality) (some_ : egoGps ≠ []) (tick : Int) :
    held (egoFixAt egoGps tick) := by
  have keeps (a b : GnssPoint) (before : held a.fixQuality) : held
      (blendGnss tick a b).fixQuality := before
  have sorted (p : GnssPoint) (listed : p ∈ sortByTime GnssPoint.tsNs egoGps) : held p.fixQuality :=
    all p (List.mem_mergeSort.mp listed)
  rw [egoFixAt, if_neg some_, interpolateGnss]
  exact interpolate_held keeps sorted (mt sortByTime_eq_nil_iff.mp some_) tick

end TimeAligner
end LocalPC.Offline
