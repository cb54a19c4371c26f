import LocalPC.Offline.Mdf4Blocks
import LocalPC.Offline.SceneGeometry

namespace LocalPC.Offline
open Lib

structure StepMetrics where
  tNs : Int := 0
  rangeM : Float := 0
  azimuthDeg : Float := 0
  closingSpeedMps : Float := 0
  egoSpeedMps : Float := 0
  srcSpeedMps : Float := 0
  valid : Bool := false

structure PreparedChannel extends ChannelDesc where
  group : Bytes
  sampleCount : Nat
  deriving DecidableEq, Repr

structure PreparedGroup where
  name : Bytes
  channels : List PreparedChannel
  timeAxisS : List Double
  deriving DecidableEq, Repr

def PreparedGroup.toChannelGroup (g : PreparedGroup) : ChannelGroup where
  name := g.name
  channels := g.channels.map PreparedChannel.toChannelDesc
  timeAxisS := g.timeAxisS

def Double.ofFloat (f : Float) : Double := ⟨f.toBits⟩

/-- `static_cast<double>` of a `float`, which keeps its value. A subnormal one becomes normal. -/
def Double.ofFloat32 (f : Float32) : Double :=
  let bits := f.toBits.toNat
  let biased := bits / 2 ^ 23 % 2 ^ 8
  let fraction := bits % 2 ^ 23
  let magnitude :=
    if biased = 255 then 2047 * 2 ^ 52 + (if fraction = 0 then 0 else fraction * 2 ^ 29 ||| 2 ^ 51)
    else if biased = 0 then
      if fraction = 0 then 0
      else (Nat.log2 fraction + 873) * 2 ^ 52 + fraction * 2 ^ (52 - Nat.log2 fraction)
    else (biased + 896) * 2 ^ 52 + fraction * 2 ^ 29
  ⟨UInt64.ofNat (bits / 2 ^ 31 * 2 ^ 63 + magnitude)⟩

def kNaN : Double := .quietNaN

def seconds (t0Ns tNs : Int) : Double := .ofFloat (Float.ofInt (tNs - t0Ns) / 1e9)

abbrev Columns (α : Type) := List (Bytes × (α → Double))

namespace PreparedGroup

def findChannel (g : PreparedGroup) (name : Bytes) : Except Bytes Nat :=
  match g.channels.findIdx? fun ch => ch.name = name with
  | some i => .ok i
  | none => .error (ascii "fill_channel_data: channel not found: " ++ name)

def findChannels {α : Type} (g : PreparedGroup) :
    Columns α → Except Bytes (List (Nat × (α → Double)))
  | [] => .ok []
  | (name, value) :: rest => do
      let i ← g.findChannel name
      let later ← g.findChannels rest
      return (i, value) :: later

def push (i : Nat) (value : Double) (channels : List PreparedChannel) : List PreparedChannel :=
  channels.modify i fun ch => { ch with data := ch.data ++ [value] }

def clear (g : PreparedGroup) : PreparedGroup where
  name := g.name
  channels := g.channels.map fun ch => { ch with data := [] }
  timeAxisS := []

def addRow {α : Type} (found : List (Nat × (α → Double))) (time : α → Double)
    (g : PreparedGroup) (row : α) :
    PreparedGroup where
  name := g.name
  channels := found.foldl (fun channels c => push c.1 (c.2 row) channels) g.channels
  timeAxisS := g.timeAxisS ++ [time row]

def fill {α : Type} (columns : Columns α) (time : α → Double) (rows : List α) (g : PreparedGroup) :
    Except Bytes PreparedGroup := do
  let g := g.clear
  let found ← g.findChannels columns
  return rows.foldl (addRow found time) g

def withRows {α : Type} (channels : List PreparedChannel)
    (values : List (α → Double)) (rows : List α) :
    List PreparedChannel :=
  List.zipWith (fun ch value => { ch with data := rows.map value }) channels values

def filled {α : Type} (columns : Columns α) (time : α → Double) (rows : List α)
    (g : PreparedGroup) : PreparedGroup where
  name := g.name
  channels := withRows g.channels (columns.map Prod.snd) rows
  timeAxisS := rows.map time

structure Declares {α : Type} (g : PreparedGroup) (columns : Columns α) : Prop where
  names : g.channels.map (fun ch => ch.name) = columns.map Prod.fst
  nodup : (columns.map Prod.fst).Nodup

section Fill
variable {α : Type} {columns : Columns α} {g : PreparedGroup}

theorem findChannel_eq {i : Nat} {name : Bytes} (nodup : (g.channels.map fun ch => ch.name).Nodup)
    (at_ : (g.channels.map fun ch => ch.name)[i]? = some name) : g.findChannel name = .ok i := by
  have found : (g.channels.findIdx? fun ch => ch.name = name) = some i := by
    rw [List.findIdx?_eq_some_iff_getElem]
    obtain ⟨bound, is⟩ := List.getElem?_eq_some_iff.mp at_
    rw [List.length_map] at bound
    rw [List.getElem_map] at is
    refine ⟨bound, by simpa using is, fun j before => ?_⟩
    have other :=
      @List.Nodup.getElem_inj_iff _ _ nodup j
        (by simpa using before.trans bound) i (by simpa using bound)
    rw [List.getElem_map, List.getElem_map, is] at other
    simpa using mt other.mp before.ne
  rw [findChannel, found]

theorem findChannels_eq (nodup : (g.channels.map fun ch => ch.name).Nodup) {start : Nat}
    (names : ∀ i < columns.length,
      (g.channels.map fun ch => ch.name)[start + i]? = (columns.map Prod.fst)[i]?) :
    g.findChannels columns =
      .ok ((List.range' start columns.length).zip (columns.map Prod.snd)) := by
  induction columns generalizing start with
  | nil => rfl
  | cons c rest ih =>
      obtain ⟨name, value⟩ := c
      have first := findChannel_eq nodup ((names 0 (Nat.succ_pos _)).trans rfl)
      have later := @ih (start + 1) fun i bound => by
        have := names (i + 1) (Nat.succ_lt_succ bound)
        rwa [Nat.add_comm i 1, ← Nat.add_assoc, List.map_cons, Nat.add_comm 1 i,
          List.getElem?_cons_succ] at this
      rw [findChannels, first, later]
      rfl

theorem push_front (front channels : List PreparedChannel) (ch : PreparedChannel) (value : Double) :
    push front.length value (front ++ ch :: channels) =
      front ++ { ch with data := ch.data ++ [value] } :: channels := by
  unfold push
  induction front with
  | nil => rfl
  | cons first front ih =>
      rw [List.cons_append, List.length_cons, List.modify_succ_cons, ih, List.cons_append]

theorem foldl_push (front channels : List PreparedChannel) {values : List (α → Double)}
    (row : α) (seen : List α) (same : values.length = channels.length) :
    ((List.range' front.length values.length).zip values).foldl
      (fun channels c => push c.1 (c.2 row) channels)
        (front ++ withRows channels values seen) =
      front ++ withRows channels values (seen ++ [row]) := by
  induction values generalizing front channels with
  | nil => rw [withRows, withRows, List.zipWith_nil_right, List.zipWith_nil_right]; rfl
  | cons value values ih =>
      obtain ⟨ch, channels, rfl⟩ := List.exists_cons_of_length_eq_add_one same.symm
      have rest :=
        ih (front ++ [{ ch with data := (seen ++ [row]).map value }]) channels (Nat.succ.inj same)
      rw [List.length_append, List.length_singleton, List.append_assoc, List.append_assoc] at rest
      have step : seen.map value ++ [value row] = (seen ++ [row]).map value := by
        rw [List.map_append, List.map_singleton]
      rw [List.length_cons, List.range'_succ, List.zip_cons_cons, List.foldl_cons,
        withRows, List.zipWith_cons_cons, push_front, step]
      exact rest

theorem foldl_addRow (time : α → Double) {values : List (α → Double)} (rows seen : List α)
    (same : values.length = g.channels.length) :
    rows.foldl (addRow ((List.range' 0 values.length).zip values) time)
        { name := g.name, channels := withRows g.channels values seen,
          timeAxisS := seen.map time } =
      { name := g.name, channels := withRows g.channels values (seen ++ rows),
        timeAxisS := (seen ++ rows).map time } := by
  induction rows generalizing seen with
  | nil => rw [List.append_nil, List.foldl_nil]
  | cons row rows ih =>
      have pushed := foldl_push [] g.channels row seen same
      have next := ih (seen ++ [row])
      rw [List.append_assoc, List.singleton_append] at next
      rw [List.foldl_cons, ← next]
      congr 1
      rw [addRow, List.map_append]
      exact congrArg (fun channels => PreparedGroup.mk g.name channels _) pushed

theorem Declares.fill_eq (declares : g.Declares columns) (time : α → Double) (rows : List α) :
    g.fill columns time rows = .ok (g.filled columns time rows) := by
  have names : g.clear.channels.map (fun ch => ch.name) = columns.map Prod.fst := by
    rw [← declares.names, clear, List.map_map]
    rfl
  have nodup : (g.clear.channels.map fun ch => ch.name).Nodup := names ▸ declares.nodup
  have same : (columns.map Prod.snd).length = g.channels.length := by
    have := congrArg List.length declares.names
    rw [List.length_map, List.length_map] at this
    rw [List.length_map, this]
  have found := @findChannels_eq _ columns _ nodup 0 fun i _ => by rw [names, Nat.zero_add]
  have count : columns.length = (columns.map Prod.snd).length := (List.length_map _).symm
  have cleared : g.clear =
      { name := g.name,
        channels := withRows g.channels (columns.map Prod.snd) [], timeAxisS := [] } := by
    refine congrArg (fun channels => PreparedGroup.mk g.name channels []) ?_
    exact List.ext_getElem (by simp [withRows, ← same]) fun i _ _ => by simp [withRows]
  rw [fill, found, count, cleared]
  exact congrArg Except.ok (foldl_addRow time rows [] same)

end Fill

end PreparedGroup

/-- `find_group`, and what a block does with the first group of the name. -/
def updateGroup (name : Bytes) (block : PreparedGroup → Except Bytes PreparedGroup) :
    List PreparedGroup → Except Bytes (List PreparedGroup)
  | [] => .error (ascii "fill_channel_data: group not found: " ++ name)
  | g :: rest =>
      if g.name = name then (block g).map (· :: rest)
      else (updateGroup name block rest).map (g :: ·)

theorem updateGroup_append {name : Bytes} {block : PreparedGroup → Except Bytes PreparedGroup}
    {done rest : List PreparedGroup} {g g' : PreparedGroup} (others : ∀ h ∈ done, h.name ≠ name)
    (named : g.name = name) (filled : block g = .ok g') :
    updateGroup name block (done ++ g :: rest) = .ok (done ++ g' :: rest) := by
  induction done with
  | nil =>
      rw [List.nil_append, updateGroup, if_pos named, filled]
      rfl
  | cons h done ih =>
      rw [List.forall_mem_cons] at others
      rw [List.cons_append, updateGroup, if_neg others.1, ih others.2]
      rfl

structure GroupFill where
  declared : PreparedGroup
  block : PreparedGroup → Except Bytes PreparedGroup
  filled : PreparedGroup
  filled_eq : block declared = .ok filled
  named : filled.name = declared.name

theorem foldlM_updateGroup (fills : List GroupFill) (done : List PreparedGroup)
    (nodup : ((done ++ fills.map GroupFill.declared).map PreparedGroup.name).Nodup) :
    fills.foldlM (fun groups f => updateGroup f.declared.name f.block groups)
      (done ++ fills.map GroupFill.declared) =
      .ok (done ++ fills.map GroupFill.filled) := by
  induction fills generalizing done with
  | nil => rfl
  | cons f fills ih =>
      have others : ∀ h ∈ done, h.name ≠ f.declared.name := by
        rw [List.map_append, List.nodup_append] at nodup
        exact fun h member => nodup.2.2 _ (List.mem_map_of_mem member) _ (by simp)
      have next := ih (done ++ [f.filled]) (by
        rw [List.append_assoc, List.map_append, List.singleton_append, List.map_cons, f.named]
        rwa [List.map_append, List.map_cons, List.map_cons] at nodup)
      rw [List.append_assoc, List.append_assoc, List.singleton_append, List.singleton_append]
        at next
      rw [List.foldlM_cons, List.map_cons, updateGroup_append others rfl f.filled_eq]
      exact next

def egoGpsColumns : Columns AlignedSample :=
  [(ascii "Ego.GPS.latitude_deg", fun s => .ofFloat s.egoLat),
    (ascii "Ego.GPS.longitude_deg", fun s => .ofFloat s.egoLon),
    (ascii "Ego.GPS.altitude_m", fun s => .ofFloat s.egoAlt),
    (ascii "Ego.GPS.speed_mps", fun s => .ofFloat32 s.egoSpeed),
    (ascii "Ego.GPS.heading_deg", fun s => .ofFloat32 s.egoHeading),
    (ascii "Ego.GPS.fix_quality", fun s => .ofFloat s.egoFix.toFloat)]

def egoImuColumns : Columns AlignedSample :=
  [(ascii "Ego.IMU.acc_x_mps2", fun s => if s.imuValid then .ofFloat32 s.accX else kNaN),
    (ascii "Ego.IMU.acc_y_mps2", fun s => if s.imuValid then .ofFloat32 s.accY else kNaN),
    (ascii "Ego.IMU.acc_z_mps2", fun s => if s.imuValid then .ofFloat32 s.accZ else kNaN),
    (ascii "Ego.IMU.gyro_x_rads", fun s => if s.imuValid then .ofFloat32 s.gyrX else kNaN),
    (ascii "Ego.IMU.gyro_y_rads", fun s => if s.imuValid then .ofFloat32 s.gyrY else kNaN),
    (ascii "Ego.IMU.gyro_z_rads", fun s => if s.imuValid then .ofFloat32 s.gyrZ else kNaN)]

def egoTrajectoryColumns : Columns AlignedSample :=
  [(ascii "Ego.Trajectory.latitude_deg", fun s => if s.trajValid then .ofFloat s.trajLat else kNaN),
    (ascii "Ego.Trajectory.longitude_deg",
      fun s => if s.trajValid then .ofFloat s.trajLon else kNaN),
    (ascii "Ego.Trajectory.roll_deg", fun s => if s.trajValid then .ofFloat32 s.roll else kNaN),
    (ascii "Ego.Trajectory.pitch_deg", fun s => if s.trajValid then .ofFloat32 s.pitch else kNaN),
    (ascii "Ego.Trajectory.yaw_deg", fun s => if s.trajValid then .ofFloat32 s.yaw else kNaN)]

def sourceGpsColumns : Columns AlignedSample :=
  [(ascii "Source.GPS.latitude_deg", fun s => if s.srcValid then .ofFloat s.srcLat else kNaN),
    (ascii "Source.GPS.longitude_deg", fun s => if s.srcValid then .ofFloat s.srcLon else kNaN),
    (ascii "Source.GPS.speed_mps", fun s => if s.srcValid then .ofFloat32 s.srcSpeed else kNaN),
    (ascii "Source.GPS.valid", fun s => .ofFloat (if s.srcValid then 1.0 else 0.0))]

def sceneColumns : Columns SceneGeometry :=
  [(ascii "Scene.range_m", fun g => if g.valid then .ofFloat g.rangeM else kNaN),
    (ascii "Scene.azimuth_deg", fun g => if g.valid then .ofFloat g.azimuthDeg else kNaN),
    (ascii "Scene.closing_speed_mps",
      fun g => if g.valid then .ofFloat g.closingSpeedMps else kNaN)]

def sceneMetricsColumns : Columns StepMetrics :=
  [(ascii "Scene.Metrics.ego_speed_mps", fun m => if m.valid then .ofFloat m.egoSpeedMps else kNaN),
    (ascii "Scene.Metrics.src_speed_mps",
      fun m => if m.valid then .ofFloat m.srcSpeedMps else kNaN)]

def PreparedGroup.count (g : PreparedGroup) : PreparedGroup where
  name := g.name
  channels := g.channels.map fun ch => { ch with sampleCount := ch.data.length }
  timeAxisS := g.timeAxisS

def fillBlocks (samples : List AlignedSample) (sceneGeom : List SceneGeometry)
    (stepMetrics : List StepMetrics) (t0Ns : Int) :
    List (Bytes × (PreparedGroup → Except Bytes PreparedGroup)) :=
  [(ascii "Ego.GPS", PreparedGroup.fill egoGpsColumns (fun s => seconds t0Ns s.tNs) samples),
    (ascii "Ego.IMU", PreparedGroup.fill egoImuColumns (fun s => seconds t0Ns s.tNs) samples),
    (ascii "Ego.Trajectory",
      PreparedGroup.fill egoTrajectoryColumns (fun s => seconds t0Ns s.tNs) samples),
    (ascii "Source.GPS",
      PreparedGroup.fill sourceGpsColumns (fun s => seconds t0Ns s.tNs) samples)] ++
  (if sceneGeom.isEmpty then []
    else [(ascii "Scene",
      PreparedGroup.fill sceneColumns (fun g => seconds t0Ns g.tsNs) sceneGeom)]) ++
  (if stepMetrics.isEmpty then []
    else [(ascii "Scene.Metrics",
      PreparedGroup.fill sceneMetricsColumns (fun m => seconds t0Ns m.tNs) stepMetrics)])

def fillChannelData (groups : List PreparedGroup) (samples : List AlignedSample)
    (sceneGeom : List SceneGeometry) (stepMetrics : List StepMetrics) (t0Ns : Int) :
    Except Bytes (List PreparedGroup) := do
  let groups ← (fillBlocks samples sceneGeom stepMetrics t0Ns).foldlM
      (fun groups b => updateGroup b.1 b.2 groups) groups
  return groups.map PreparedGroup.count

def declare (name : Bytes) (rows : Nat) (timeAxisS : List Double)
    (channels : List (Bytes × Bytes × Bytes)) :
    PreparedGroup where
  name := name
  channels := channels.map fun (chName, unit, dataType) =>
    { group := name, name := chName, unit, dataType, sampleCount := rows, data := [] }
  timeAxisS := timeAxisS

def float64 : Bytes := ascii "float64"
def float32 : Bytes := ascii "float32"
def uint8 : Bytes := ascii "uint8"

def mps2 : Bytes := ascii "m/s" ++ [0xC2, 0xB2]

section Declared
variable (rows : Nat) (time : List Double)

def egoGps : PreparedGroup := declare (ascii "Ego.GPS") rows time
  [(ascii "Ego.GPS.latitude_deg", ascii "deg", float64),
    (ascii "Ego.GPS.longitude_deg", ascii "deg", float64),
      (ascii "Ego.GPS.altitude_m", ascii "m", float64),
        (ascii "Ego.GPS.speed_mps", ascii "m/s", float32),
    (ascii "Ego.GPS.heading_deg", ascii "deg", float32), (ascii "Ego.GPS.fix_quality", [], uint8)]

def egoImu : PreparedGroup := declare (ascii "Ego.IMU") rows time
  [(ascii "Ego.IMU.acc_x_mps2", mps2, float32), (ascii "Ego.IMU.acc_y_mps2", mps2, float32),
    (ascii "Ego.IMU.acc_z_mps2", mps2, float32),
      (ascii "Ego.IMU.gyro_x_rads", ascii "rad/s", float32),
    (ascii "Ego.IMU.gyro_y_rads", ascii "rad/s", float32),
      (ascii "Ego.IMU.gyro_z_rads", ascii "rad/s", float32)]

def egoTrajectory : PreparedGroup := declare (ascii "Ego.Trajectory") rows time
  [(ascii "Ego.Trajectory.latitude_deg", ascii "deg", float64),
    (ascii "Ego.Trajectory.longitude_deg", ascii "deg", float64),
      (ascii "Ego.Trajectory.roll_deg", ascii "deg", float32),
    (ascii "Ego.Trajectory.pitch_deg", ascii "deg", float32),
      (ascii "Ego.Trajectory.yaw_deg", ascii "deg", float32)]

def sourceGps : PreparedGroup := declare (ascii "Source.GPS") rows time
  [(ascii "Source.GPS.latitude_deg", ascii "deg", float64),
    (ascii "Source.GPS.longitude_deg", ascii "deg", float64),
      (ascii "Source.GPS.speed_mps", ascii "m/s", float32), (ascii "Source.GPS.valid", [], uint8)]

def scene : PreparedGroup := declare (ascii "Scene") rows time
  [(ascii "Scene.range_m", ascii "m", float64), (ascii "Scene.azimuth_deg", ascii "deg", float64),
    (ascii "Scene.closing_speed_mps", ascii "m/s", float64)]

def sceneMetrics : PreparedGroup := declare (ascii "Scene.Metrics") rows time
  [(ascii "Scene.Metrics.ego_speed_mps", ascii "m/s", float64),
    (ascii "Scene.Metrics.src_speed_mps", ascii "m/s", float64)]

end Declared

namespace Mdf4Writer

def declaredGroups (samples : List AlignedSample) (sceneGeom : List SceneGeometry)
    (stepMetrics : List StepMetrics) (t0Ns : Int) : List PreparedGroup :=
  let timeAx := samples.map fun s => seconds t0Ns s.tNs
  [egoGps samples.length timeAx, egoImu samples.length timeAx, egoTrajectory samples.length timeAx,
    sourceGps samples.length timeAx] ++
  (if sceneGeom.isEmpty then []
    else [scene sceneGeom.length (sceneGeom.map fun g => seconds t0Ns g.tsNs)]) ++
  (if stepMetrics.isEmpty then []
    else [sceneMetrics stepMetrics.length (stepMetrics.map fun m => seconds t0Ns m.tNs)])

def prepare (samples : List AlignedSample) (sceneGeom : List SceneGeometry)
    (stepMetrics : List StepMetrics) (t0Ns : Int) : Except Bytes (List PreparedGroup) :=
  if samples.isEmpty then .ok []
  else fillChannelData
    (declaredGroups samples sceneGeom stepMetrics t0Ns) samples sceneGeom stepMetrics t0Ns

end Mdf4Writer
end LocalPC.Offline
