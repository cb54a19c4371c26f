import LocalPC.Offline.Mdf4Export
import LocalPC.Offline.SpeedChannels

namespace LocalPC.Offline
open Lib

def tableOf {α : Type} (g : PreparedGroup) (columns : Columns α) (time : α → Double)
    (rows : List α) : MeasuredGroup where
  name := g.name
  cycles := rows.length
  channels :=
    { name := g.name ++ ascii ".time_s"
      unit := ascii "s"
      cnType := 2
      cnSync := 1
      cnDataType := 6
      values := rows.map fun row => leBytes 8 (time row).bits.toNat } ::
    List.zipWith
      (fun ch value =>
        { name := ch.name
          unit := ch.unit
          cnType := 0
          cnSync := 0
          cnDataType := (ctype ch.dataType).cnDataType.toNat
          values := rows.map fun row => (storeValue ch.dataType (value row)).getD [] })
      g.channels (columns.map Prod.snd)

section Columns
variable {α β : Type}

theorem map_range_getD (rows : List α) (value : α → β) (default : β) {γ : Type} (f : β → γ) :
    ((List.range rows.length).map fun row => f ((rows.map value).getD row default)) =
      rows.map fun row => f (value row) := by
  refine List.ext_getElem (by simp) fun i _ inside => ?_
  have bound : i < rows.length := by simpa using inside
  simp [List.getD_eq_getElem?_getD, List.getElem?_eq_getElem bound]

theorem measured_filled (g : PreparedGroup) (columns : Columns α)
    (time : α → Double) (rows : List α) :
    (g.filled columns time rows).count.toChannelGroup.measured = tableOf g columns time rows := by
  have times : (g.filled columns time rows).count.toChannelGroup.timeAxisS = rows.map time := rfl
  have first : (g.filled columns time rows).count.toChannelGroup.measuredTime.values =
      rows.map fun row => leBytes 8 (time row).bits.toNat := by
    show (List.range (rows.map time).length).map _ = _
    rw [List.length_map]
    exact map_range_getD rows time .quietNaN fun d => leBytes 8 d.bits.toNat
  have others : (g.filled columns time rows).count.toChannelGroup.channels =
      List.zipWith (fun ch value => { ch.toChannelDesc with data := rows.map value }) g.channels
        (columns.map Prod.snd) := by
    simp only [PreparedGroup.toChannelGroup, PreparedGroup.count,
      PreparedGroup.filled, PreparedGroup.withRows, List.map_zipWith]
  have column (ch : PreparedChannel) (value : α → Double) :
      ChannelDesc.measured rows.length { ch.toChannelDesc with data := rows.map value } =
        { name := ch.name
          unit := ch.unit
          cnType := 0
          cnSync := 0
          cnDataType := (ctype ch.dataType).cnDataType.toNat
          values := rows.map fun row => (storeValue ch.dataType (value row)).getD [] } := by
    have values := map_range_getD rows value .quietNaN fun d => (storeValue ch.dataType d).getD []
    rw [ChannelDesc.measured, ← values]
    rfl
  rw [ChannelGroup.measured, times, List.length_map, others, List.map_zipWith, tableOf]
  simp only [column]
  rw [← first]
  rfl

theorem live_filled {g : PreparedGroup} {columns : Columns α}
    (declares : g.Declares columns) (some_ : columns ≠ []) (time : α → Double)
    {rows : List α} (filled : rows ≠ []) :
    (g.filled columns time rows).count.toChannelGroup.live = true := by
  have channels : g.channels ≠ [] := by
    intro none
    have names := declares.names
    rw [none] at names
    exact some_ (List.map_eq_nil_iff.mp names.symm)
  cases rows with
  | nil => exact absurd rfl filled
  | cons row rows =>
      cases columns with
      | nil => exact absurd rfl some_
      | cons column columns =>
          obtain ⟨ch, chs, same⟩ := List.exists_cons_of_ne_nil channels
          simp [ChannelGroup.live, PreparedGroup.toChannelGroup,
            PreparedGroup.count, PreparedGroup.filled, PreparedGroup.withRows, same]

def PreparedGroup.Named (g : PreparedGroup) : Prop :=
  0 ∉ g.name ∧ ∀ texts ∈ g.channels.map (fun ch => (ch.name, ch.unit)), 0 ∉ texts.1 ∧ 0 ∉ texts.2

instance (g : PreparedGroup) : Decidable g.Named := inferInstanceAs (Decidable (_ ∧ _))

theorem mem_filled {g : PreparedGroup} {columns : Columns α} {time : α → Double}
    {rows : List α} {ch : ChannelDesc}
    (member : ch ∈ (g.filled columns time rows).count.toChannelGroup.channels) :
    ∃ declared ∈ g.channels, ch.name = declared.name ∧ ch.unit = declared.unit ∧
      ch.dataType = declared.dataType := by
  simp only [PreparedGroup.toChannelGroup, PreparedGroup.count,
    PreparedGroup.filled, PreparedGroup.withRows, List.map_zipWith] at member
  rw [← List.map_uncurry_zip_eq_zipWith] at member
  obtain ⟨pair, both, rfl⟩ := List.mem_map.mp member
  exact ⟨pair.1, (List.of_mem_zip both).1, rfl, rfl, rfl⟩

theorem nulFree_filled {g : PreparedGroup} (named : g.Named) (columns : Columns α)
    (time : α → Double) (rows : List α) :
    (g.filled columns time rows).count.toChannelGroup.NulFree where
  name := named.1
  channels ch member := by
    obtain ⟨declared, listed, name, unit, -⟩ := mem_filled member
    rw [name, unit]
    exact named.2 (declared.name, declared.unit) (List.mem_map.mpr ⟨declared, listed, rfl⟩)

theorem recordSize_le (g : ChannelGroup) : recordSize g ≤ 8 + 8 * g.channels.length := by
  have each (ch : ChannelDesc) : ch.size ≤ 8 := by
    unfold ChannelDesc.size
    rcases ctype_cases ch.dataType with kind | kind | kind | kind
    all_goals
      rw [kind]
      decide
  have total : (g.channels.map ChannelDesc.size).sum ≤ 8 * g.channels.length := by
    induction g.channels with
    | nil => exact le_rfl
    | cons ch channels ih =>
        have here := each ch
        rw [List.map_cons, List.sum_cons, List.length_cons]
        omega
  rw [recordSize]
  omega

theorem fits_filled {g : PreparedGroup} (few : g.channels.length ≤ 8)
    (columns : Columns α) (time : α → Double) (rows : List α) :
    (g.filled columns time rows).count.toChannelGroup.Fits := by
  have count : (g.filled columns time rows).count.toChannelGroup.channels.length ≤
      g.channels.length := by
    simp only [PreparedGroup.toChannelGroup, PreparedGroup.count,
      PreparedGroup.filled, PreparedGroup.withRows, List.length_map, List.length_zipWith]
    exact Nat.min_le_left ..
  have size := recordSize_le (g.filled columns time rows).count.toChannelGroup
  unfold ChannelGroup.Fits
  omega

end Columns

theorem buildMdf4_of_convertible {groups : List ChannelGroup}
    (convertible : ∀ g ∈ groups, g.Convertible) (bundle : SessionBundle) (t0Ns : Int) :
    buildMdf4 groups bundle t0Ns =
      some (fileBytes bundle t0Ns ((groups.filter ChannelGroup.live).map ChannelGroup.stored)) := by
  rw [buildMdf4_eq, storedGroups_eq convertible, Option.map_some]

namespace Mdf4Writer
variable (samples : List AlignedSample) (sceneGeom : List SceneGeometry)
  (stepMetrics : List StepMetrics) (t0Ns : Int)

def tables : List MeasuredGroup :=
  let time (s : AlignedSample) := seconds t0Ns s.tNs
  [tableOf (egoGps samples.length (samples.map time)) egoGpsColumns time samples,
    tableOf (egoImu samples.length (samples.map time)) egoImuColumns time samples,
    tableOf (egoTrajectory samples.length (samples.map time)) egoTrajectoryColumns time samples,
    tableOf (sourceGps samples.length (samples.map time)) sourceGpsColumns time samples] ++
  (if sceneGeom.isEmpty then []
    else [tableOf (scene sceneGeom.length (sceneGeom.map fun g => seconds t0Ns g.tsNs)) sceneColumns
      (fun g => seconds t0Ns g.tsNs) sceneGeom]) ++
  (if stepMetrics.isEmpty then []
    else [tableOf
      (sceneMetrics stepMetrics.length (stepMetrics.map fun m => seconds t0Ns m.tNs))
        sceneMetricsColumns
      (fun m => seconds t0Ns m.tNs) stepMetrics])

theorem measured_groupFills :
    (groupFills samples sceneGeom stepMetrics t0Ns).map
      (fun f => f.filled.count.toChannelGroup.measured) =
      tables samples sceneGeom stepMetrics t0Ns := by
  have sampleTables : (sampleFills samples t0Ns).map
      (fun f => f.filled.count.toChannelGroup.measured) =
      (tables samples [] [] t0Ns) := by
    simp only [sampleFills, List.map_cons, List.map_nil]
    exact congrArg₂ List.cons (measured_filled _ _ _ _)
      (congrArg₂ List.cons (measured_filled _ _ _ _)
      (congrArg₂ List.cons (measured_filled _ _ _ _)
        (congrArg₂ List.cons (measured_filled _ _ _ _) rfl)))
  have sceneTable :=
    measured_filled
      (scene sceneGeom.length (sceneGeom.map fun g => seconds t0Ns g.tsNs)) sceneColumns
    (fun g => seconds t0Ns g.tsNs) sceneGeom
  have metricsTable := measured_filled
    (sceneMetrics stepMetrics.length (stepMetrics.map fun m => seconds t0Ns m.tNs))
      sceneMetricsColumns
    (fun m => seconds t0Ns m.tNs) stepMetrics
  rw [groupFills, List.map_append, List.map_append, sampleTables, tables]
  congr 1
  · congr 1
    split
    · rfl
    · exact congrArg (fun table => [table]) sceneTable
  · split
    · rfl
    · exact congrArg (fun table => [table]) metricsTable

theorem live_groupFills (some_ : samples ≠ []) :
    ∀ f ∈ groupFills samples sceneGeom stepMetrics t0Ns,
      f.filled.count.toChannelGroup.live = true := by
  intro f member
  rw [groupFills, List.mem_append, List.mem_append] at member
  rcases member with (member | member) | member
  · simp only [sampleFills, List.mem_cons, List.not_mem_nil, or_false] at member
    rcases member with rfl | rfl | rfl | rfl
    · exact live_filled (egoGps_declares _ _) (by simp [egoGpsColumns]) _ some_
    · exact live_filled (egoImu_declares _ _) (by simp [egoImuColumns]) _ some_
    · exact live_filled (egoTrajectory_declares _ _) (by simp [egoTrajectoryColumns]) _ some_
    · exact live_filled (sourceGps_declares _ _) (by simp [sourceGpsColumns]) _ some_
  · split at member
    next => cases member
    next some_ =>
      rw [List.mem_singleton.mp member]
      exact live_filled (scene_declares _ _) (by simp [sceneColumns]) _ (by simpa using some_)
  · split at member
    next => cases member
    next some_ =>
      rw [List.mem_singleton.mp member]
      exact live_filled (sceneMetrics_declares _ _)
        (by simp [sceneMetricsColumns]) _ (by simpa using some_)

theorem named_groupFills : ∀ f ∈ groupFills samples sceneGeom stepMetrics t0Ns,
    f.filled.count.toChannelGroup.NulFree ∧ f.filled.count.toChannelGroup.Fits := by
  let p (g : PreparedGroup) : Prop := g.toChannelGroup.NulFree ∧ g.toChannelGroup.Fits
  have fill {α : Type} (g : PreparedGroup) (columns : Columns α) (time : α → Double)
      (rows : List α) (named : g.Named)
      (few : g.channels.length ≤ 8) : p (g.filled columns time rows).count :=
    ⟨nulFree_filled named columns time rows, fits_filled few columns time rows⟩
  refine @forall_mem_groupFills samples sceneGeom stepMetrics t0Ns p ?_ ?_ ?_
  · intro f member
    simp only [sampleFills, List.mem_cons, List.not_mem_nil, or_false] at member
    rcases member with rfl | rfl | rfl | rfl
    · exact fill (egoGps _ _) _ _ _ (show (egoGps 0 []).Named by decide)
        (show (egoGps 0 []).channels.length ≤ 8 by decide)
    · exact fill (egoImu _ _) _ _ _ (show (egoImu 0 []).Named by decide)
        (show (egoImu 0 []).channels.length ≤ 8 by decide)
    · exact fill (egoTrajectory _ _) _ _ _ (show (egoTrajectory 0 []).Named by decide)
        (show (egoTrajectory 0 []).channels.length ≤ 8 by decide)
    · exact fill (sourceGps _ _) _ _ _ (show (sourceGps 0 []).Named by decide)
        (show (sourceGps 0 []).channels.length ≤ 8 by decide)
  · exact fill (scene _ _) _ _ _ (show (scene 0 []).Named by decide)
      (show (scene 0 []).channels.length ≤ 8 by decide)
  · exact fill (sceneMetrics _ _) _ _ _ (show (sceneMetrics 0 []).Named by decide)
      (show (sceneMetrics 0 []).channels.length ≤ 8 by decide)

theorem readMdf4_prepared (some_ : samples ≠ []) (bundle : SessionBundle) :
    ∃ groups file, prepare samples sceneGeom stepMetrics t0Ns = .ok groups ∧
      buildMdf4 (groups.map PreparedGroup.toChannelGroup) bundle t0Ns = some file ∧
        (file.length < 2 ^ 64 →
          readMdf4 file = some (tables samples sceneGeom stepMetrics t0Ns)) := by
  have prepared := prepare_eq samples sceneGeom stepMetrics t0Ns some_
  have named := named_groupFills samples sceneGeom stepMetrics t0Ns
  let groups :=
    (groupFills samples sceneGeom stepMetrics t0Ns).map fun f => f.filled.count.toChannelGroup
  have each {p : ChannelGroup → Prop}
      (all : ∀ f ∈ groupFills samples sceneGeom stepMetrics t0Ns, p f.filled.count.toChannelGroup) :
      ∀ g ∈ groups, p g := List.forall_mem_map.mpr all
  have convertible : ∀ g ∈ groups, g.Convertible := each fun f member =>
    (rectangular_groupFills _ _ _ _ f member).convertible (storable_groupFills _ _ _ _ f member)
  have live : groups.filter ChannelGroup.live = groups :=
    List.filter_eq_self.mpr (each (live_groupFills samples sceneGeom stepMetrics t0Ns some_))
  have found : groups.map ChannelGroup.measured = tables samples sceneGeom stepMetrics t0Ns := by
    rw [← measured_groupFills]
    exact List.map_map ..
  have decodable := decodable_fileBytes convertible (each fun f member => (named f member).1)
    (each fun f member _ => (named f member).2) bundle t0Ns
  refine ⟨_, fileBytes bundle t0Ns ((groups.filter ChannelGroup.live).map ChannelGroup.stored),
    prepared, ?_, fun small => ?_⟩
  · rw [List.map_map]
    exact buildMdf4_of_convertible convertible bundle t0Ns
  · rw [(decodable small).recovered, live, found]

end Mdf4Writer

def Pipeline.exportedTables (gridDtMs t0Ns : Int)
    (aligned : List AlignedSample) : List MeasuredGroup :=
  let geom := SceneCalculator.compute aligned
  if aligned.isEmpty then []
  else Mdf4Writer.tables aligned geom
    (SceneCalculator.stepMetrics geom (Float.ofInt gridDtMs / 1000.0)) t0Ns

theorem length_computeFrom (prev : Option SceneGeometry) (aligned : List AlignedSample) :
    (SceneCalculator.computeFrom prev aligned).length = aligned.length := by
  induction aligned generalizing prev with
  | nil => rfl
  | cons s aligned ih => exact congrArg Nat.succ (ih _)

theorem cycles_tables {samples : List AlignedSample} {geom : List SceneGeometry}
    {metrics : List StepMetrics} {t0Ns : Int} (geomRows : geom.length = samples.length)
    (metricRows : metrics.length = samples.length) :
    ∀ table ∈ Mdf4Writer.tables samples geom metrics t0Ns, table.cycles = samples.length := by
  intro table member
  rw [Mdf4Writer.tables, List.mem_append, List.mem_append] at member
  rcases member with (member | member) | member
  · simp only [List.mem_cons, List.not_mem_nil, or_false] at member
    rcases member with rfl | rfl | rfl | rfl
    all_goals rfl
  · split at member
    · cases member
    · rw [List.mem_singleton.mp member]
      exact geomRows
  · split at member
    · cases member
    · rw [List.mem_singleton.mp member]
      exact metricRows

theorem readMdf4_exported (gridDtMs t0Ns : Int) (bundle : SessionBundle)
    (aligned : List AlignedSample) :
    ∃ groups file, Pipeline.prepareGroups gridDtMs t0Ns aligned = .ok groups ∧
      buildMdf4 (groups.map PreparedGroup.toChannelGroup) bundle t0Ns = some file ∧
        (file.length < 2 ^ 64 →
          readMdf4 file = some (Pipeline.exportedTables gridDtMs t0Ns aligned)) := by
  let geom := SceneCalculator.compute aligned
  let metrics := SceneCalculator.stepMetrics geom (Float.ofInt gridDtMs / 1000.0)
  by_cases none : aligned = []
  · subst none
    have nothing : ∀ g ∈ ([] : List ChannelGroup), g.Convertible := nofun
    refine ⟨[], _, rfl, buildMdf4_of_convertible nothing bundle t0Ns, fun small => ?_⟩
    exact (decodable_fileBytes nothing nofun nofun bundle t0Ns small).recovered
  · have tables : Pipeline.exportedTables gridDtMs t0Ns aligned =
        Mdf4Writer.tables aligned geom metrics t0Ns :=
      if_neg (by simpa using none)
    obtain ⟨groups, file, prepared, built, read⟩ :=
      Mdf4Writer.readMdf4_prepared aligned geom metrics t0Ns none bundle
    exact ⟨groups, file, prepared, built, fun small => tables ▸ read small⟩

theorem cycles_exportedTables (gridDtMs t0Ns : Int) (aligned : List AlignedSample) :
    ∀ table ∈ Pipeline.exportedTables gridDtMs t0Ns aligned, table.cycles = aligned.length := by
  have geomRows : (SceneCalculator.compute aligned).length = aligned.length :=
    length_computeFrom none aligned
  unfold Pipeline.exportedTables
  dsimp only
  split
  · nofun
  · exact cycles_tables geomRows ((List.length_map _).trans geomRows)

/-- The export of a run always comes about, and whatever was measured its file is read back as
tables with one row for every tick, which hold the values of the aligned samples, of their geometry
and of its metrics. -/
theorem exported_tables (gridDtMs t0Ns : Int) (bundle : SessionBundle)
    (aligned : List AlignedSample) :
    ∃ groups file, Pipeline.prepareGroups gridDtMs t0Ns aligned = .ok groups ∧
      buildMdf4 (groups.map PreparedGroup.toChannelGroup) bundle t0Ns = some file ∧
        (file.length < 2 ^ 64 →
          readMdf4 file = some (Pipeline.exportedTables gridDtMs t0Ns aligned) ∧
          ∀ table ∈ Pipeline.exportedTables gridDtMs t0Ns aligned,
            table.cycles = aligned.length) := by
  obtain ⟨groups, file, prepared, built, read⟩ := readMdf4_exported gridDtMs t0Ns bundle aligned
  exact ⟨groups, file, prepared, built,
    fun small => ⟨read small, cycles_exportedTables gridDtMs t0Ns aligned⟩⟩

end LocalPC.Offline
