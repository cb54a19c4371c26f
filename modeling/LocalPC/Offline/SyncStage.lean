import LocalPC.Offline.SceneBuilder

namespace LocalPC.Offline
open Lib

inductive ExitCode
  | success
  | validationError
  | syncError
  | internalError
  | uploadFailed
  | uploadBlocked
  deriving DecidableEq, Repr

structure SceneResult where
  geometry : List SceneGeometry
  events : List SceneEvent

namespace Pipeline

def syncReport (cfg : SyncConfig) (sourcePresent : Bool) (ego : DecodedEgoStreams)
    (src : DecodedSourceStreams) (validRange : TimeRange) : SyncReport :=
  if sourcePresent then
    LogSynchroniser.synchronise cfg ego.gps src.gnss src.events
      (ego.audio.map AudioBlock.tsNs) validRange
  else { notes := [ascii "source.bin absent -- sync skipped"] }

def applySync (cfg : SyncConfig) (sourcePresent : Bool) (rpt : SyncReport)
    (src : DecodedSourceStreams) :
    Except ExitCode DecodedSourceStreams :=
  if rpt.status = .syncFailed ∧ cfg.failOnSyncError then .error .syncError
  else if sourcePresent ∧ rpt.offsetNs ≠ 0 then
    .ok { src with
      events := LogSynchroniser.applyOffsetEvents rpt.offsetNs src.events
      gnss := LogSynchroniser.applyOffsetGnss rpt.offsetNs src.gnss }
  else .ok src

def sceneStages (cfg : SyncConfig) (joinToleranceMs : Int) (newUuid : Nat → Bytes) (ticks : Ticks)
    (validRange : TimeRange) (sourcePresent : Bool) (ego : DecodedEgoStreams)
    (src : DecodedSourceStreams) :
    Except ExitCode SceneResult := do
  let src ← applySync cfg sourcePresent (syncReport cfg sourcePresent ego src validRange) src
  let aligned := TimeAligner.align joinToleranceMs ticks ego.gps src.gnss ego.imu ego.trajectory
  let geometry := SceneCalculator.compute aligned
  return { geometry, events := SceneBuilder.extractEvents newUuid src.events geometry }

def sceneOf (joinToleranceMs : Int) (newUuid : Nat → Bytes) (ticks : Ticks)
    (ego : DecodedEgoStreams) (src : DecodedSourceStreams) : SceneResult :=
  let geometry :=
    SceneCalculator.compute
      (TimeAligner.align joinToleranceMs ticks ego.gps src.gnss ego.imu ego.trajectory)
  { geometry, events := SceneBuilder.extractEvents newUuid src.events geometry }

theorem sceneStages_eq (cfg : SyncConfig) (joinToleranceMs : Int)
    (newUuid : Nat → Bytes) (ticks : Ticks) (validRange : TimeRange) (sourcePresent : Bool)
    (ego : DecodedEgoStreams) (src : DecodedSourceStreams) :
    sceneStages cfg joinToleranceMs newUuid ticks validRange sourcePresent ego src =
      (applySync cfg sourcePresent (syncReport cfg sourcePresent ego src validRange) src).map
        (sceneOf joinToleranceMs newUuid ticks ego) := by
  unfold sceneStages
  cases applySync cfg sourcePresent (syncReport cfg sourcePresent ego src validRange) src <;> rfl

end Pipeline

/-- The streams behind the sync stage are those before it, with the events in ego time too and the
points in ego time only. -/
structure InEgoTime (offsetNs : Int) (before after : DecodedSourceStreams) : Prop where
  events : after.events = before.events.map fun e => { e with tsEgoNs := e.tsNs - offsetNs }
  gnss : after.gnss = before.gnss.map fun g => { g with tsNs := g.tsNs - offsetNs }
  scene : ∀ newUuid geom, ∀ ev ∈ SceneBuilder.extractEvents newUuid after.events geom,
    ev.tStartNs = ev.sourceTsNs - offsetNs

/-- A run with a source log that gets past the sync stage has its source streams in ego time. -/
def ReachesEgoTime (cfg : SyncConfig) (rpt : SyncReport) (src : DecodedSourceStreams) : Prop :=
  ∀ after, Pipeline.applySync cfg true rpt src = .ok after → InEgoTime rpt.offsetNs src after

def IsInt64 (t : Int) : Prop := -2 ^ 63 ≤ t ∧ t < 2 ^ 63

theorem wrapInt64_eq_iff (t : Int) : wrapInt64 t = t ↔ IsInt64 t := by
  unfold wrapInt64 IsInt64
  constructor
  · intro same
    have lower := Int.le_bmod (x := t) (m := 2 ^ 64) (by decide)
    have upper := Int.bmod_lt (x := t) (m := 2 ^ 64) (by decide)
    rw [same] at lower upper
    omega
  · rintro ⟨lower, upper⟩
    exact Int.bmod_eq_of_le (by omega) (by omega)

theorem tStartNs_of_mem {newUuid : Nat → Bytes} {events : List SourceEvent}
    {geom : List SceneGeometry} {ev : SceneEvent}
    (made : ev ∈ SceneBuilder.extractEvents newUuid events geom) :
    ∃ se ∈ events, ev.tStartNs = se.tsEgoNs ∧ ev.sourceTsNs = se.tsNs := by
  obtain ⟨i, bound, rfl⟩ := List.mem_mapIdx.mp made
  exact ⟨events[i], List.getElem_mem bound, rfl, rfl⟩

theorem InEgoTime.of_streams {offsetNs : Int} {before after : DecodedSourceStreams}
    (events : after.events = before.events.map fun e => { e with tsEgoNs := e.tsNs - offsetNs })
    (gnss : after.gnss = before.gnss.map fun g => { g with tsNs := g.tsNs - offsetNs }) :
    InEgoTime offsetNs before after where
  events := events
  gnss := gnss
  scene newUuid geom ev made := by
    obtain ⟨se, listed, start, source⟩ := tStartNs_of_mem made
    rw [events] at listed
    obtain ⟨e, -, rfl⟩ := List.mem_map.mp listed
    rw [start, source]

theorem inEgoTime_applied_iff {offsetNs : Int} {src : DecodedSourceStreams} :
    InEgoTime offsetNs src
        { src with
          events := LogSynchroniser.applyOffsetEvents offsetNs src.events
          gnss := LogSynchroniser.applyOffsetGnss offsetNs src.gnss } ↔
      (∀ e ∈ src.events, IsInt64 (e.tsNs - offsetNs)) ∧
        ∀ g ∈ src.gnss, IsInt64 (g.tsNs - offsetNs) := by
  constructor
  · intro right
    refine ⟨fun e listed => ?_, fun g listed => ?_⟩
    · have same := List.map_inj_left.mp right.events e listed
      exact (wrapInt64_eq_iff _).mp (SourceEvent.mk.inj same).2.1
    · have same := List.map_inj_left.mp right.gnss g listed
      exact (wrapInt64_eq_iff _).mp (GnssPoint.mk.inj same).1
  · rintro ⟨events, gnss⟩
    refine .of_streams (List.map_congr_left fun e listed => ?_)
      (List.map_congr_left fun g listed => ?_)
    · rw [(wrapInt64_eq_iff _).mpr (events e listed)]
    · rw [(wrapInt64_eq_iff _).mpr (gnss g listed)]

theorem inEgoTime_unchanged_iff {src : DecodedSourceStreams} :
    InEgoTime 0 src src ↔ ∀ e ∈ src.events, e.tsEgoNs = e.tsNs := by
  have identity (e : SourceEvent) : e = { e with tsEgoNs := e.tsNs - 0 } ↔ e.tsEgoNs = e.tsNs := by
    rw [sub_zero]
    constructor
    · exact fun same => (SourceEvent.mk.inj same).2.1
    · intro same
      cases e
      cases same
      rfl
  constructor
  · intro right e listed
    have events := right.events
    nth_rewrite 1 [← List.map_id src.events] at events
    exact (identity e).mp (List.map_inj_left.mp events e listed)
  · intro same
    refine .of_streams ?_ ?_
    · nth_rewrite 1 [← List.map_id src.events]
      exact List.map_congr_left fun e listed => (identity e).mpr (same e listed)
    · simp

theorem applySync_of_zero {cfg : SyncConfig} {rpt : SyncReport} {src : DecodedSourceStreams}
    (goesOn : ¬ (rpt.status = .syncFailed ∧ cfg.failOnSyncError)) (zero : rpt.offsetNs = 0) :
    Pipeline.applySync cfg true rpt src = .ok src := by
  rw [Pipeline.applySync, if_neg goesOn, if_neg fun applied => applied.2 zero]

theorem applySync_of_ne_zero {cfg : SyncConfig} {rpt : SyncReport} {src : DecodedSourceStreams}
    (goesOn : ¬ (rpt.status = .syncFailed ∧ cfg.failOnSyncError)) (nonzero : rpt.offsetNs ≠ 0) :
    Pipeline.applySync cfg true rpt src = .ok
      { src with
        events := LogSynchroniser.applyOffsetEvents rpt.offsetNs src.events
        gnss := LogSynchroniser.applyOffsetGnss rpt.offsetNs src.gnss } := by
  rw [Pipeline.applySync, if_neg goesOn, if_pos ⟨rfl, nonzero⟩]

/-- The events of a source log reach ego time if the run ends before, if the offset is not zero and
all differences fit, or if it is zero and they were in ego time already. -/
theorem reachesEgoTime_iff (cfg : SyncConfig) (rpt : SyncReport) (src : DecodedSourceStreams) :
    ReachesEgoTime cfg rpt src ↔
      (rpt.status = .syncFailed ∧ cfg.failOnSyncError) ∨
      (rpt.offsetNs ≠ 0 ∧ (∀ e ∈ src.events, IsInt64 (e.tsNs - rpt.offsetNs)) ∧
        ∀ g ∈ src.gnss, IsInt64 (g.tsNs - rpt.offsetNs)) ∨
      (rpt.offsetNs = 0 ∧ ∀ e ∈ src.events, e.tsEgoNs = e.tsNs) := by
  by_cases aborted : rpt.status = .syncFailed ∧ cfg.failOnSyncError
  · refine iff_of_true (fun after reached => ?_) (Or.inl aborted)
    rw [Pipeline.applySync, if_pos aborted] at reached
    cases reached
  by_cases zero : rpt.offsetNs = 0
  · have reached : ReachesEgoTime cfg rpt src ↔ InEgoTime rpt.offsetNs src src := by
      rw [ReachesEgoTime, applySync_of_zero aborted zero]
      simp only [Except.ok.injEq, forall_eq']
    rw [reached, zero, inEgoTime_unchanged_iff]
    simp [aborted]
  · have reached : ReachesEgoTime cfg rpt src ↔ InEgoTime rpt.offsetNs src
        { src with
          events := LogSynchroniser.applyOffsetEvents rpt.offsetNs src.events
          gnss := LogSynchroniser.applyOffsetGnss rpt.offsetNs src.gnss } := by
      rw [ReachesEgoTime, applySync_of_ne_zero aborted zero]
      simp only [Except.ok.injEq, forall_eq']
    rw [reached, inEgoTime_applied_iff]
    simp [aborted, zero]

theorem syncGnssXcorr_offset_zero {egoGps srcGps : List GnssPoint} (unfit : srcGps.filter good = [])
    (searchWindowS : Float) : (syncGnssXcorr egoGps srcGps searchWindowS).offsetNs = 0 := by
  unfold syncGnssXcorr
  rw [unfit]
  dsimp only [List.head?_nil]
  split
  next impossible => cases impossible
  · rfl

theorem synchronise_offset_zero (cfg : SyncConfig) (egoGps : List GnssPoint)
    {srcGps : List GnssPoint} (unfit : ∀ g ∈ srcGps, good g = false) (events : List SourceEvent)
    (validRange : TimeRange) :
    (LogSynchroniser.synchronise cfg egoGps srcGps events [] validRange).offsetNs = 0 := by
  have none : (srcGps.filter (LogSynchroniser.inRange validRange)).filter good = [] := by
    rw [List.filter_eq_nil_iff]
    intro g listed
    rw [unfit g (List.mem_filter.mp listed).1]
    exact Bool.false_ne_true
  have audio : (syncEventAudioFallback events [] cfg.maxOffsetSearchS).offsetNs = 0 := by
    rw [syncEventAudioFallback, if_pos (Or.inr rfl)]
  have estimated : (LogSynchroniser.estimate cfg egoGps srcGps events [] validRange).1.offsetNs =
      0 := by
    unfold LogSynchroniser.estimate
    dsimp only
    split
    · split
      · exact audio
      · exact syncGnssXcorr_offset_zero none _
    · exact syncGnssXcorr_offset_zero none _
  unfold LogSynchroniser.synchronise
  dsimp only
  split
  · exact estimated
  · split <;> exact estimated

/-- A siren that is switched on a second after the start of the source clock. -/
def sirenOn : SourceEvent := { tsNs := 1000000000, eventId := 1, eventType := kSirenOn }

/-- It stays at the start of the car's clock. -/
theorem sirenOn_misplaced :
    ¬ ReachesEgoTime {}
      (LogSynchroniser.synchronise {} [] [] [sirenOn] [] {}) { events := [sirenOn] } := by
  intro reached
  have zero := @synchronise_offset_zero {} [] [] nofun [sirenOn] {}
  have right := reached _ (applySync_of_zero (fun aborted => Bool.false_ne_true aborted.2) zero)
  rw [zero, inEgoTime_unchanged_iff] at right
  exact absurd (right sirenOn (List.mem_singleton_self _)) (by decide)

end LocalPC.Offline
