import LocalPC.Offline.ChannelBuilder

namespace LocalPC.Offline
open Lib

def Double.value (d : Double) : ℚ := (if d.negative then -1 else 1) * d.significand * 2 ^ d.exponent

/-- An integer between 0 and 255, which its conversion keeps. -/
def Double.IsByte (d : Double) : Prop :=
  ∃ n : UInt8, d.isFinite = true ∧ d.value = n.toNat ∧ d.toUInt8 = some n

theorem Double.value_eq {d : Double} (sign : d.negative = false) {n : ℕ}
    (scaled : d.significand * 2 ^ d.exponent.toNat = n * 2 ^ (-d.exponent).toNat) :
    d.value = n := by
  have two : (2 : ℚ) ≠ 0 := two_ne_zero
  have exponent : (2 : ℚ) ^ d.exponent = 2 ^ d.exponent.toNat / 2 ^ (-d.exponent).toNat := by
    rw [← zpow_natCast, ← zpow_natCast, ← zpow_sub₀ two]
    congr 1
    omega
  have cast : (d.significand : ℚ) * 2 ^ d.exponent.toNat =
      n * 2 ^ (-d.exponent).toNat := by exact_mod_cast scaled
  rw [value, sign, if_neg Bool.false_ne_true, one_mul, exponent, mul_div_assoc', cast]
  exact mul_div_cancel_right₀ _ (pow_ne_zero _ two)

theorem isByte_ofUInt8 (n : UInt8) : (Double.ofFloat n.toFloat).IsByte := by
  have all : ∀ i : Fin 256, let d := Double.ofFloat (UInt8.ofNat i.1).toFloat
      d.isFinite = true ∧ d.negative = false ∧
        d.significand * 2 ^ d.exponent.toNat = i.1 * 2 ^ (-d.exponent).toNat ∧
        d.toUInt8 = some (UInt8.ofNat i.1) := by decide +kernel
  have here := all ⟨n.toNat, n.toNat_lt⟩
  dsimp only at here
  rw [UInt8.ofNat_toNat] at here
  exact ⟨n, here.1, Double.value_eq here.2.1 here.2.2.1, here.2.2.2⟩

namespace PreparedGroup

/-- Every channel has a value for each time of the group. -/
def Rectangular (g : PreparedGroup) : Prop :=
  ∀ ch ∈ g.channels, ch.data.length = g.timeAxisS.length ∧ ch.sampleCount = g.timeAxisS.length

def Storable (g : PreparedGroup) : Prop :=
  ∀ ch ∈ g.channels, ch.dataType = float64 ∨ ch.dataType = float32 ∨
    ch.dataType = uint8 ∧ ∀ v ∈ ch.data, v.IsByte

/-- What the writer reads for a time is the value of that time. -/
def Unpadded (g : PreparedGroup) : Prop :=
  ∀ ch ∈ g.toChannelGroup.channels, ∀ row < g.toChannelGroup.timeAxisS.length,
    ch.data[row]? = some (ch.value row)

def StorableColumns {α : Type} (g : PreparedGroup) (columns : Columns α) : Prop :=
  ∀ x ∈ g.channels.zip (columns.map Prod.snd),
    x.1.dataType = float64 ∨ x.1.dataType = float32 ∨ x.1.dataType = uint8 ∧ ∀ row, (x.2 row).IsByte

variable {g : PreparedGroup}

theorem rectangular_filled {α : Type} (columns : Columns α) (time : α → Double) (rows : List α) :
    (g.filled columns time rows).count.Rectangular := by
  intro ch member
  obtain ⟨counted, inside, rfl⟩ := List.mem_map.mp member
  obtain ⟨i, bound, rfl⟩ := List.getElem_of_mem inside
  simp [filled, withRows, count]

theorem StorableColumns.filled {α : Type} {columns : Columns α}
    (storable : g.StorableColumns columns) (time : α → Double) (rows : List α) :
    (g.filled columns time rows).count.Storable := by
  intro ch member
  obtain ⟨counted, inside, rfl⟩ := List.mem_map.mp member
  rw [PreparedGroup.filled, withRows, ← List.map_uncurry_zip_eq_zipWith] at inside
  obtain ⟨x, both, rfl⟩ := List.mem_map.mp inside
  refine (storable x both).imp_right (Or.imp_right fun bytes => ⟨bytes.1, fun v listed => ?_⟩)
  obtain ⟨row, -, rfl⟩ := List.mem_map.mp listed
  exact bytes.2 row

theorem Rectangular.unpadded (rectangular : g.Rectangular) : g.Unpadded := by
  intro ch member row inside
  obtain ⟨prepared, listed, rfl⟩ := List.mem_map.mp member
  have bound : row < prepared.data.length := (rectangular prepared listed).1 ▸ inside
  rw [ChannelDesc.value, List.getD_eq_getElem?_getD, List.getElem?_eq_getElem bound]
  rfl

theorem Rectangular.convertible (rectangular : g.Rectangular) (storable : g.Storable) :
    g.toChannelGroup.Convertible := by
  intro row inside ch member
  have value := rectangular.unpadded ch member row inside
  obtain ⟨prepared, listed, rfl⟩ := List.mem_map.mp member
  rcases storable prepared listed with kind | kind | ⟨kind, bytes⟩
  · rw [storeValue, kind]
    rfl
  · rw [storeValue, kind]
    rfl
  · obtain ⟨n, -, -, converted⟩ := bytes _ (List.mem_of_getElem? value)
    rw [storeValue, kind]
    exact (congrArg (fun v => (v.map fun v : UInt8 => [v]).isSome) converted).trans rfl

end PreparedGroup

section Declares
variable (rows : Nat) (time : List Double)

theorem egoGps_declares : (egoGps rows time).Declares egoGpsColumns := ⟨rfl, by decide⟩
theorem egoImu_declares : (egoImu rows time).Declares egoImuColumns := ⟨rfl, by decide⟩
theorem egoTrajectory_declares : (egoTrajectory rows time).Declares egoTrajectoryColumns :=
  ⟨rfl, by decide⟩
theorem sourceGps_declares : (sourceGps rows time).Declares sourceGpsColumns := ⟨rfl, by decide⟩
theorem scene_declares : (scene rows time).Declares sceneColumns := ⟨rfl, by decide⟩
theorem sceneMetrics_declares : (sceneMetrics rows time).Declares sceneMetricsColumns :=
  ⟨rfl, by decide⟩

theorem egoGps_storable : (egoGps rows time).StorableColumns egoGpsColumns := by
  simp [PreparedGroup.StorableColumns, egoGps, declare, egoGpsColumns, isByte_ofUInt8]

theorem egoImu_storable : (egoImu rows time).StorableColumns egoImuColumns := by
  simp [PreparedGroup.StorableColumns, egoImu, declare, egoImuColumns]

theorem egoTrajectory_storable :
    (egoTrajectory rows time).StorableColumns egoTrajectoryColumns := by
  simp [PreparedGroup.StorableColumns, egoTrajectory, declare, egoTrajectoryColumns]

theorem sourceGps_storable : (sourceGps rows time).StorableColumns sourceGpsColumns := by
  have bit (valid : Bool) : (Double.ofFloat (if valid then 1.0 else 0.0)).IsByte := by
    cases valid with
    | false => exact isByte_ofUInt8 0
    | true => exact isByte_ofUInt8 1
  simp [PreparedGroup.StorableColumns, sourceGps, declare, sourceGpsColumns, bit]

theorem scene_storable : (scene rows time).StorableColumns sceneColumns := by
  simp [PreparedGroup.StorableColumns, scene, declare, sceneColumns]

theorem sceneMetrics_storable : (sceneMetrics rows time).StorableColumns sceneMetricsColumns := by
  simp [PreparedGroup.StorableColumns, sceneMetrics, declare, sceneMetricsColumns]

end Declares

def GroupFill.of {α : Type} {g : PreparedGroup} {columns : Columns α}
    (declares : g.Declares columns) (time : α → Double) (rows : List α) : GroupFill where
  declared := g
  block := PreparedGroup.fill columns time rows
  filled := g.filled columns time rows
  filled_eq := declares.fill_eq time rows
  named := rfl

namespace Mdf4Writer
variable (samples : List AlignedSample) (sceneGeom : List SceneGeometry)
  (stepMetrics : List StepMetrics) (t0Ns : Int)

def sampleFills : List GroupFill :=
  let time (s : AlignedSample) := seconds t0Ns s.tNs
  let timeAx := samples.map time
  [.of (egoGps_declares samples.length timeAx) time samples,
    .of (egoImu_declares samples.length timeAx) time samples,
      .of (egoTrajectory_declares samples.length timeAx) time samples,
    .of (sourceGps_declares samples.length timeAx) time samples]

def sceneFill : GroupFill :=
  let time (g : SceneGeometry) := seconds t0Ns g.tsNs
  .of (scene_declares sceneGeom.length (sceneGeom.map time)) time sceneGeom

def sceneMetricsFill : GroupFill :=
  let time (m : StepMetrics) := seconds t0Ns m.tNs
  .of (sceneMetrics_declares stepMetrics.length (stepMetrics.map time)) time stepMetrics

def groupFills : List GroupFill :=
  sampleFills samples t0Ns ++ (if sceneGeom.isEmpty then [] else [sceneFill sceneGeom t0Ns]) ++
    (if stepMetrics.isEmpty then [] else [sceneMetricsFill stepMetrics t0Ns])

theorem declaredGroups_eq :
    declaredGroups samples sceneGeom stepMetrics t0Ns =
      (groupFills samples sceneGeom stepMetrics t0Ns).map GroupFill.declared := by
  unfold groupFills
  cases sceneGeom with
  | nil => cases stepMetrics <;> rfl
  | cons g geom => cases stepMetrics <;> rfl

theorem fillBlocks_eq :
    fillBlocks samples sceneGeom stepMetrics t0Ns =
      (groupFills samples sceneGeom stepMetrics t0Ns).map fun f => (f.declared.name, f.block) := by
  unfold groupFills
  cases sceneGeom with
  | nil => cases stepMetrics <;> rfl
  | cons g geom => cases stepMetrics <;> rfl

theorem nodup_groupFills :
    (((groupFills samples sceneGeom stepMetrics t0Ns).map GroupFill.declared).map
      PreparedGroup.name).Nodup := by
  let front := [ascii "Ego.GPS", ascii "Ego.IMU", ascii "Ego.Trajectory", ascii "Source.GPS"]
  have all : (front ++ [ascii "Scene"] ++ [ascii "Scene.Metrics"]).Nodup := by decide
  refine all.sublist ?_
  unfold groupFills
  cases sceneGeom with
  | nil =>
      cases stepMetrics with
      | nil => exact List.sublist_append_left front [ascii "Scene", ascii "Scene.Metrics"]
      | cons m metrics =>
          exact (List.Sublist.refl front).append
            (List.sublist_append_right [ascii "Scene"] [ascii "Scene.Metrics"])
  | cons g geom =>
      cases stepMetrics with
      | nil => exact List.sublist_append_left (front ++ [ascii "Scene"]) [ascii "Scene.Metrics"]
      | cons m metrics => exact List.Sublist.refl _

theorem prepare_eq (some_ : samples ≠ []) :
    prepare samples sceneGeom stepMetrics t0Ns =
      .ok ((groupFills samples sceneGeom stepMetrics t0Ns).map fun f => f.filled.count) := by
  have filled := foldlM_updateGroup (groupFills samples sceneGeom stepMetrics t0Ns) []
    (nodup_groupFills samples sceneGeom stepMetrics t0Ns)
  rw [prepare, if_neg (by simpa using some_), fillChannelData, fillBlocks_eq,
    declaredGroups_eq, List.foldlM_map]
  refine (congrArg (· >>= fun groups => pure (groups.map PreparedGroup.count)) filled).trans ?_
  exact congrArg Except.ok (List.map_map ..)

theorem forall_mem_groupFills {p : PreparedGroup → Prop}
    (samples_ : ∀ f ∈ sampleFills samples t0Ns, p f.filled.count)
    (scene_ : p (sceneFill sceneGeom t0Ns).filled.count)
    (metrics_ : p (sceneMetricsFill stepMetrics t0Ns).filled.count) :
    ∀ f ∈ groupFills samples sceneGeom stepMetrics t0Ns, p f.filled.count := by
  unfold groupFills
  intro f member
  rcases List.mem_append.mp member with member | member
  · rcases List.mem_append.mp member with member | member
    · exact samples_ f member
    · split at member
      · cases member
      · rw [List.mem_singleton.mp member]
        exact scene_
  · split at member
    · cases member
    · rw [List.mem_singleton.mp member]
      exact metrics_

theorem rectangular_groupFills :
    ∀ f ∈ groupFills samples sceneGeom stepMetrics t0Ns, f.filled.count.Rectangular := by
  refine forall_mem_groupFills _ _ _ _ ?_ (PreparedGroup.rectangular_filled _ _ _)
    (PreparedGroup.rectangular_filled _ _ _)
  simp only [sampleFills, List.forall_mem_cons]
  exact ⟨PreparedGroup.rectangular_filled _ _ _, PreparedGroup.rectangular_filled _ _ _,
    PreparedGroup.rectangular_filled _ _ _, PreparedGroup.rectangular_filled _ _ _, by simp⟩

theorem storable_groupFills :
    ∀ f ∈ groupFills samples sceneGeom stepMetrics t0Ns, f.filled.count.Storable := by
  refine forall_mem_groupFills _ _ _ _ ?_ ((scene_storable _ _).filled _ _)
    ((sceneMetrics_storable _ _).filled _ _)
  simp only [sampleFills, List.forall_mem_cons]
  exact ⟨(egoGps_storable _ _).filled _ _, (egoImu_storable _ _).filled _ _,
    (egoTrajectory_storable _ _).filled _ _, (sourceGps_storable _ _).filled _ _, by simp⟩

/-- `prepare` always returns, with groups whose channels are as long as their time axes. So the
writer pads nothing, channels of bytes hold integers between 0 and 255, and every conversion is
defined. -/
theorem prepare_rectangular :
    ∃ groups, prepare samples sceneGeom stepMetrics t0Ns = .ok groups ∧
      ∀ g ∈ groups, g.Rectangular ∧ g.Unpadded ∧
        (∀ ch ∈ g.channels, ch.dataType = uint8 → ∀ v ∈ ch.data, v.IsByte) ∧
          g.toChannelGroup.Convertible := by
  by_cases none : samples = []
  · exact ⟨[], by rw [none]; rfl, by simp⟩
  · refine ⟨_, prepare_eq samples sceneGeom stepMetrics t0Ns none, fun g member => ?_⟩
    obtain ⟨f, listed, rfl⟩ := List.mem_map.mp member
    have rectangular := rectangular_groupFills samples sceneGeom stepMetrics t0Ns f listed
    have storable := storable_groupFills samples sceneGeom stepMetrics t0Ns f listed
    refine ⟨rectangular, rectangular.unpadded, fun ch inside kind => ?_,
      rectangular.convertible storable⟩
    rcases storable ch inside with float | float | ⟨-, bytes⟩
    · exact absurd (kind.symm.trans float) (by decide)
    · exact absurd (kind.symm.trans float) (by decide)
    · exact bytes

end Mdf4Writer
end LocalPC.Offline
