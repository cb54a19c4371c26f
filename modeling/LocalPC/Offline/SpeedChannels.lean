import LocalPC.Offline.PreparedGroups

namespace LocalPC.Offline
open Lib

/-- `step_metrics`, which leaves the speeds at their defaults. -/
def SceneCalculator.stepMetrics (geom : List SceneGeometry) (_dtS : Float) : List StepMetrics :=
  geom.map fun g =>
    { tNs := g.tsNs
      rangeM := g.rangeM
      azimuthDeg := g.azimuthDeg
      closingSpeedMps := g.closingSpeedMps
      valid := g.valid }

def channelData (groups : List PreparedGroup) (group channel : Bytes) : Option (List Double) :=
  (groups.find? fun g => g.name = group).bind fun g =>
    (g.channels.find? fun ch => ch.name = channel).map fun ch => ch.data

def Holds (groups : List PreparedGroup) (channel : Bytes) (i : Nat) (value : Double) : Prop :=
  ∃ data, channelData groups (ascii "Scene.Metrics") channel = some data ∧ data[i]? = some value

/-- At every tick with a valid geometry the channels have the speeds of the sample. -/
def SpeedsReach (aligned : List AlignedSample) (geom : List SceneGeometry)
    (groups : List PreparedGroup) : Prop :=
  ∀ i s g, aligned[i]? = some s → geom[i]? = some g → g.valid = true →
    Holds groups (ascii "Scene.Metrics.ego_speed_mps") i (.ofFloat32 s.egoSpeed) ∧
      Holds groups (ascii "Scene.Metrics.src_speed_mps") i (.ofFloat32 s.srcSpeed)

def Pipeline.prepareGroups (gridDtMs t0Ns : Int) (aligned : List AlignedSample) :
    Except Bytes (List PreparedGroup) :=
  let sceneGeom := SceneCalculator.compute aligned
  let stepMetrics := SceneCalculator.stepMetrics sceneGeom (Float.ofInt gridDtMs / 1000.0)
  Mdf4Writer.prepare aligned sceneGeom stepMetrics t0Ns

section Channels
variable {aligned : List AlignedSample} {geom : List SceneGeometry}

theorem channelData_speeds (aligned : List AlignedSample) (geom : List SceneGeometry)
    {metrics : List StepMetrics} (some_ : metrics ≠ []) (t0Ns : Int) :
    let groups := (Mdf4Writer.groupFills aligned geom metrics t0Ns).map fun f => f.filled.count
    channelData groups (ascii "Scene.Metrics") (ascii "Scene.Metrics.ego_speed_mps") =
        some (metrics.map fun m => if m.valid then .ofFloat m.egoSpeedMps else kNaN) ∧
      channelData groups (ascii "Scene.Metrics") (ascii "Scene.Metrics.src_speed_mps") =
        some (metrics.map fun m => if m.valid then .ofFloat m.srcSpeedMps else kNaN) := by
  obtain ⟨first, rest, rfl⟩ := List.exists_cons_of_ne_nil some_
  cases geom with
  | nil => exact ⟨rfl, rfl⟩
  | cons g geom => exact ⟨rfl, rfl⟩

theorem ofFloat_zero : Double.ofFloat 0 = ⟨0⟩ := by decide

theorem holds_iff {i : Nat} {g : SceneGeometry} (at_ : geom[i]? = some g)
    (valid : g.valid = true) (dtS : Float) (t0Ns : Int) (egoSpeed srcSpeed : Double) :
    let groups :=
  (Mdf4Writer.groupFills aligned geom (SceneCalculator.stepMetrics geom dtS) t0Ns).map fun f =>
    f.filled.count
    (Holds groups (ascii "Scene.Metrics.ego_speed_mps") i egoSpeed ↔ egoSpeed = ⟨0⟩) ∧
      (Holds groups (ascii "Scene.Metrics.src_speed_mps") i srcSpeed ↔ srcSpeed = ⟨0⟩) := by
  have some_ : SceneCalculator.stepMetrics geom dtS ≠ [] := by
    rintro none
    rw [SceneCalculator.stepMetrics, List.map_eq_nil_iff] at none
    rw [none] at at_
    cases at_
  obtain ⟨ego, src⟩ := channelData_speeds aligned geom some_ t0Ns
  dsimp only
  unfold Holds
  rw [ego, src]
  simp only [SceneCalculator.stepMetrics, Option.some_inj, exists_eq_left', List.getElem?_map,
    at_, Option.map_some, valid, if_true]
  rw [ofFloat_zero]
  exact ⟨eq_comm, eq_comm⟩

theorem compute_valid_at {i : Nat} {s : AlignedSample} (at_ : aligned[i]? = some s) :
    ∃ g, (SceneCalculator.compute aligned)[i]? = some g ∧
      g.valid = (s.srcValid && decide (0 < s.egoFix)) := by
  have same := congrArg (·[i]?) (SceneCalculator.compute_valid aligned)
  simp only [List.getElem?_map, at_, Option.map_some] at same
  exact Option.map_eq_some_iff.mp same

end Channels

/-- The speeds reach the groups exactly when they are zero at every valid tick: the channels are
zero there. -/
theorem speedsReach_iff (gridDtMs t0Ns : Int) (aligned : List AlignedSample) :
    (∃ groups, Pipeline.prepareGroups gridDtMs t0Ns aligned = .ok groups ∧
      SpeedsReach aligned (SceneCalculator.compute aligned) groups) ↔
    ∀ s ∈ aligned, s.srcValid = true → 0 < s.egoFix →
      Double.ofFloat32 s.egoSpeed = ⟨0⟩ ∧ Double.ofFloat32 s.srcSpeed = ⟨0⟩ := by
  by_cases none : aligned = []
  · refine iff_of_true ⟨[], by rw [none]; rfl, fun i s g at_ => ?_⟩ (by simp [none])
    rw [none] at at_
    cases at_
  rw [Pipeline.prepareGroups, Mdf4Writer.prepare_eq _ _ _ _ none]
  constructor
  · rintro ⟨groups, prepared, reach⟩ s member src ego
    obtain ⟨i, at_⟩ := List.getElem?_of_mem member
    obtain ⟨g, geom, valid⟩ := compute_valid_at at_
    have seen : g.valid = true := by rw [valid, src, decide_eq_true ego]; rfl
    obtain ⟨egoHeld, srcHeld⟩ := reach i s g at_ geom seen
    cases prepared
    obtain ⟨egoZero, srcZero⟩ :=
      @holds_iff aligned _ _ _ geom seen (Float.ofInt gridDtMs / 1000.0) t0Ns
      (.ofFloat32 s.egoSpeed) (.ofFloat32 s.srcSpeed)
    exact ⟨egoZero.mp egoHeld, srcZero.mp srcHeld⟩
  · intro zero
    refine ⟨_, rfl, fun i s g at_ geom seen => ?_⟩
    obtain ⟨g', geom', valid⟩ := compute_valid_at at_
    rw [geom, Option.some_inj] at geom'
    subst geom'
    rw [seen, eq_comm, Bool.and_eq_true, decide_eq_true_iff] at valid
    obtain ⟨egoZero, srcZero⟩ :=
      @holds_iff aligned _ _ _ geom seen (Float.ofInt gridDtMs / 1000.0) t0Ns
      (.ofFloat32 s.egoSpeed) (.ofFloat32 s.srcSpeed)
    obtain ⟨ego, src⟩ := zero s (List.mem_of_getElem? at_) valid.1 valid.2
    exact ⟨egoZero.mpr ego, srcZero.mpr src⟩

def movingSample : AlignedSample := { egoFix := 1, egoSpeed := 1, srcValid := true }

theorem movingSample_stopped :
    ¬ ∀ (gridDtMs t0Ns : Int) (aligned : List AlignedSample),
      ∃ groups, Pipeline.prepareGroups gridDtMs t0Ns aligned = .ok groups ∧
        SpeedsReach aligned (SceneCalculator.compute aligned) groups := by
  intro always
  obtain ⟨groups, prepared, reach⟩ := always 10 0 [movingSample]
  rw [Pipeline.prepareGroups, Mdf4Writer.prepare_eq _ _ _ _ (List.cons_ne_nil _ _)] at prepared
  obtain ⟨g, geom, valid⟩ := @compute_valid_at [movingSample] 0 movingSample rfl
  have seen : g.valid = true := valid
  have held := (reach 0 movingSample g rfl geom seen).1
  cases prepared
  have zero :=
    (@holds_iff [movingSample] _ _ _ geom seen _ 0 (.ofFloat32 movingSample.egoSpeed) ⟨0⟩).1.mp held
  exact absurd zero (by decide)

end LocalPC.Offline
