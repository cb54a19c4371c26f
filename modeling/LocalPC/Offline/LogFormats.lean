import LocalPC.Offline.Demuxers
import LocalPC.Offline.SyncStage

namespace LocalPC.Offline
open Lib Contract

inductive LogFormat
  | legacy
  | contract
  deriving DecidableEq, Repr

structure RecordedFix where
  tsNs : Int
  legacy : Bytes
  header : EgoFrameHeader
  contract : Bytes
  legacySize : legacy.length = GpsFixPayload.size
  contractSize : contract.length = GpsFixPacket.size
  isGpsFix : header.frameType = 105
  time : toInt64 (GpsFixPacket.decode contract).tNs = tsNs
  latitude : (GpsFixPayload.decode legacy).latitudeDeg = (GpsFixPacket.decode contract).latDeg
  longitude : (GpsFixPayload.decode legacy).longitudeDeg = (GpsFixPacket.decode contract).lonDeg
  altitude : (GpsFixPayload.decode legacy).altitudeM = (GpsFixPacket.decode contract).altM
  speed : (GpsFixPayload.decode legacy).speedMps = (GpsFixPacket.decode contract).speedMps
  fix : (GpsFixPayload.decode legacy).fixQuality = (GpsFixPacket.decode contract).fixType
  sats : (GpsFixPayload.decode legacy).satellites = (GpsFixPacket.decode contract).satellites

namespace RecordedFix

def fixType (fix : RecordedFix) : UInt8 := (GpsFixPacket.decode fix.contract).fixType
def satellites (fix : RecordedFix) : UInt8 := (GpsFixPacket.decode fix.contract).satellites

def demux (fix : RecordedFix) (format : LogFormat) (out : DecodedEgoStreams) :
    Reading DecodedEgoStreams :=
  match format with
  | .legacy => (PacketDemuxer.demux 5 fix.tsNs fix.legacy fix.legacy.length out).map Prod.snd
  | .contract =>
      (ContractDemuxer.demux fix.header fix.contract fix.contract.length out).map Prod.snd

def point (fix : RecordedFix) (format : LogFormat) : GnssPoint :=
  match format with
  | .legacy =>
      let raw := GpsFixPayload.decode fix.legacy
      { tsNs := fix.tsNs
        latitudeDeg := raw.latitudeDeg
        longitudeDeg := raw.longitudeDeg
        altitudeM := raw.altitudeM
        speedMps := raw.speedMps
        headingDeg := raw.headingDeg
        fixQuality := raw.fixQuality
        satellites := raw.satellites
        hdop := raw.hdop }
  | .contract =>
      let raw := GpsFixPacket.decode fix.contract
      { tsNs := fix.tsNs
        latitudeDeg := raw.latDeg
        longitudeDeg := raw.lonDeg
        altitudeM := raw.altM
        speedMps := raw.speedMps
        headingDeg := ContractDemuxer.radToDeg raw.headingRad }

theorem demux_eq (fix : RecordedFix) (format : LogFormat) (out : DecodedEgoStreams) :
    fix.demux format out = .ok { out with gps := out.gps ++ [fix.point format] } := by
  cases format with
  | legacy =>
      have whole : fix.legacy.take GpsFixPayload.size = fix.legacy :=
        List.take_of_length_le (le_of_eq fix.legacySize)
      have decoded : PacketDemuxer.demuxGps fix.tsNs fix.legacy fix.legacy.length out =
          .ok { out with gps := out.gps ++ [fix.point .legacy] } := by
        rw [PacketDemuxer.demuxGps, withRecord_eq le_rfl, if_neg (by simp [fix.legacySize]), whole]
        rfl
      have known : PacketDemuxer.demux 5 fix.tsNs fix.legacy fix.legacy.length out =
          PacketDemuxer.demuxGps fix.tsNs fix.legacy fix.legacy.length out >>= fun out =>
            pure (true, out) := rfl
      rw [demux, known, decoded]
      rfl
  | contract =>
      have whole : fix.contract.take GpsFixPacket.size = fix.contract :=
        List.take_of_length_le (le_of_eq fix.contractSize)
      have decoded : ContractDemuxer.demuxGpsFix fix.contract fix.contract.length out =
          .ok { out with gps := out.gps ++ [fix.point .contract] } := by
        rw [ContractDemuxer.demuxGpsFix, withRecord_eq le_rfl,
          if_neg (by simp [fix.contractSize]), whole]
        dsimp only
        rw [fix.time]
        rfl
      have known : ContractDemuxer.demuxFrame 105 fix.contract fix.contract.length out =
          ContractDemuxer.demuxGpsFix fix.contract fix.contract.length out := rfl
      rw [demux, ContractDemuxer.demux, fix.isGpsFix, known, decoded]
      rfl

end RecordedFix

structure SamePosition (a b : GnssPoint) : Prop where
  latitude : a.latitudeDeg = b.latitudeDeg
  longitude : a.longitudeDeg = b.longitudeDeg
  altitude : a.altitudeM = b.altitudeM
  speed : a.speedMps = b.speedMps
  fixQuality : a.fixQuality = b.fixQuality
  satellites : a.satellites = b.satellites

def DecodesAlike (fix : RecordedFix) : Prop :=
  ∀ out, ∃ a b, fix.demux .legacy out = .ok { out with gps := out.gps ++ [a] } ∧
    fix.demux .contract out = .ok { out with gps := out.gps ++ [b] } ∧ SamePosition a b

theorem decodesAlike_iff (fix : RecordedFix) :
    DecodesAlike fix ↔ fix.fixType = 0 ∧ fix.satellites = 0 := by
  constructor
  · intro alike
    obtain ⟨a, b, legacy, contract, same⟩ := alike {}
    rw [fix.demux_eq] at legacy contract
    obtain ⟨point, -⟩ := DecodedEgoStreams.mk.inj (Except.ok.inj legacy)
    obtain ⟨point', -⟩ := DecodedEgoStreams.mk.inj (Except.ok.inj contract)
    obtain rfl := (List.cons.inj point).1
    obtain rfl := (List.cons.inj point').1
    exact ⟨fix.fix.symm.trans same.fixQuality, fix.sats.symm.trans same.satellites⟩
  · rintro ⟨noFix, noSatellites⟩ out
    refine ⟨_, _, fix.demux_eq .legacy out, fix.demux_eq .contract out, ?_⟩
    exact ⟨fix.latitude, fix.longitude, fix.altitude, fix.speed, fix.fix.trans noFix,
      fix.sats.trans noSatellites⟩

structure RecordedSession where
  fixes : List RecordedFix
  others : LogFormat → DecodedEgoStreams
  noGps : ∀ format, (others format).gps = []
  sourcePresent : Bool
  source : DecodedSourceStreams
  cfg : SyncConfig := {}
  joinToleranceMs : Int := 5
  newUuid : Nat → Bytes
  ticks : Ticks
  validRange : TimeRange

namespace RecordedSession

def egoStreams (session : RecordedSession) (format : LogFormat) : Reading DecodedEgoStreams :=
  session.fixes.foldlM (fun out fix => fix.demux format out) (session.others format)

def scene (session : RecordedSession) (ego : DecodedEgoStreams) : Except ExitCode SceneResult :=
  Pipeline.sceneStages session.cfg session.joinToleranceMs session.newUuid
    session.ticks session.validRange
    session.sourcePresent ego session.source

def MarksValid (session : RecordedSession) (format : LogFormat) (k : Nat) : Prop :=
  ∃ ego result g, session.egoStreams format = .ok ego ∧ session.scene ego = .ok result ∧
    result.geometry[k]? = some g ∧ g.valid

def ValidAlike (session : RecordedSession) : Prop :=
  ∀ k, session.MarksValid .legacy k ↔ session.MarksValid .contract k

def ego (session : RecordedSession) (format : LogFormat) : DecodedEgoStreams :=
  { session.others format with gps := session.fixes.map fun fix => fix.point format }

theorem egoStreams_eq (session : RecordedSession) (format : LogFormat) :
    session.egoStreams format = .ok (session.ego format) := by
  have go (fixes : List RecordedFix) (out : DecodedEgoStreams) :
      fixes.foldlM (fun out fix => fix.demux format out) out =
        (.ok { out with gps := out.gps ++ fixes.map fun fix => fix.point format } : Reading _) := by
    induction fixes generalizing out with
    | nil => simp [pure, Except.pure]
    | cons fix fixes ih =>
        rw [List.foldlM_cons, fix.demux_eq]
        refine (ih _).trans ?_
        rw [List.map_cons, List.append_assoc]
        rfl
  rw [egoStreams, go, session.noGps, List.nil_append]
  rfl

def corrected (session : RecordedSession) (format : LogFormat) :
    Except ExitCode DecodedSourceStreams :=
  Pipeline.applySync session.cfg session.sourcePresent
    (Pipeline.syncReport session.cfg session.sourcePresent
      (session.ego format) session.source session.validRange)
    session.source

theorem valid_at_iff {joinToleranceMs : Int} {ticks : Ticks}
    {egoGps srcGps : List GnssPoint} {imu : List ImuSample}
    {traj : List TrajectoryPoint} {k : Nat} :
    (∃ g, (SceneCalculator.compute
      (TimeAligner.align joinToleranceMs ticks egoGps srcGps imu traj))[k]? = some g ∧
        g.valid) ↔
      ∃ tick, ticks[k]? = some tick ∧ TimeAligner.sourceSeen srcGps tick ∧
        0 < TimeAligner.egoFixAt egoGps tick := by
  have flags :=
    SceneCalculator.compute_valid (TimeAligner.align joinToleranceMs ticks egoGps srcGps imu traj)
  rw [TimeAligner.align_valid] at flags
  have at_ := congrArg (·[k]?) flags
  simp only [List.getElem?_map] at at_
  constructor
  · rintro ⟨g, found, valid⟩
    rw [found, Option.map_some, valid] at at_
    obtain ⟨tick, listed, both⟩ := Option.map_eq_some_iff.mp at_.symm
    rw [Bool.and_eq_true, decide_eq_true_eq] at both
    exact ⟨tick, listed, both⟩
  · rintro ⟨tick, listed, seen, fixed⟩
    rw [listed, Option.map_some, seen, decide_eq_true fixed] at at_
    exact Option.map_eq_some_iff.mp at_

theorem scene_eq (session : RecordedSession) (format : LogFormat) :
    session.scene (session.ego format) = (session.corrected format).map
      (Pipeline.sceneOf session.joinToleranceMs session.newUuid session.ticks
        (session.ego format)) :=
  Pipeline.sceneStages_eq ..

theorem marksValid_iff (session : RecordedSession) (format : LogFormat) (k : Nat) :
    session.MarksValid format k ↔ ∃ src tick, session.corrected format = .ok src ∧
      session.ticks[k]? = some tick ∧
      TimeAligner.sourceSeen src.gnss tick ∧
        0 < TimeAligner.egoFixAt (session.ego format).gps tick := by
  unfold MarksValid
  simp only [egoStreams_eq, Except.ok.injEq]
  constructor
  · rintro ⟨ego, result, g, rfl, ran, found⟩
    rw [scene_eq] at ran
    cases reached : session.corrected format with
    | error code =>
        rw [reached] at ran
        cases ran
    | ok src =>
        rw [reached] at ran
        cases ran
        obtain ⟨tick, seen⟩ := valid_at_iff.mp ⟨g, found⟩
        exact ⟨src, tick, rfl, seen⟩
  · rintro ⟨src, tick, reached, seen⟩
    obtain ⟨g, found⟩ := valid_at_iff.mpr ⟨tick, seen⟩
    have ran : session.scene (session.ego format) =
        .ok (Pipeline.sceneOf session.joinToleranceMs session.newUuid
        session.ticks (session.ego format) src) := by
      rw [scene_eq, reached]
      rfl
    exact ⟨_, _, g, rfl, ran, found⟩

theorem not_marksValid_contract (session : RecordedSession) (k : Nat) :
    ¬ session.MarksValid .contract k := by
  rw [marksValid_iff]
  rintro ⟨src, tick, -, -, -, fixed⟩
  have none : ∀ p ∈ (session.ego .contract).gps, p.fixQuality = 0 := by
    intro p listed
    obtain ⟨fix, -, rfl⟩ := List.mem_map.mp listed
    rfl
  have zero : TimeAligner.egoFixAt (session.ego .contract).gps tick = 0 := by
    by_cases empty : (session.ego .contract).gps = []
    · rw [empty, TimeAligner.egoFixAt_nil]
    · exact @TimeAligner.egoFixAt_held _ (· = 0) none empty tick
  rw [zero] at fixed
  exact absurd fixed (by decide)

/-- At some tick the corrected source track of a run on the packets has a position. -/
def SourceSeen (session : RecordedSession) : Prop :=
  ∃ src, session.corrected .legacy = .ok src ∧
    ∃ tick ∈ session.ticks, TimeAligner.sourceSeen src.gnss tick

theorem marksValid_legacy_iff {session : RecordedSession}
    (fixed : ∀ fix ∈ session.fixes, 0 < fix.fixType) :
    (∃ k, session.MarksValid .legacy k) ↔ session.fixes ≠ [] ∧ session.SourceSeen := by
  simp only [marksValid_iff]
  have known : ∀ p ∈ (session.ego .legacy).gps, 0 < p.fixQuality := by
    intro p listed
    obtain ⟨fix, member, rfl⟩ := List.mem_map.mp listed
    exact (fixed fix member).trans_eq fix.fix.symm
  constructor
  · rintro ⟨k, src, tick, reached, listed, seen, position⟩
    refine ⟨?_, src, reached, tick, List.mem_of_getElem? listed, seen⟩
    intro none
    have empty : (session.ego .legacy).gps = [] := congrArg (List.map _) none
    rw [empty, TimeAligner.egoFixAt_nil] at position
    exact absurd position (by decide)
  · rintro ⟨some_, src, reached, tick, listed, seen⟩
    obtain ⟨k, found⟩ := List.getElem?_of_mem listed
    have nonempty : (session.ego .legacy).gps ≠ [] := mt List.map_eq_nil_iff.mp some_
    exact ⟨k, src, tick, reached, found, seen, TimeAligner.egoFixAt_held known nonempty tick⟩

theorem validAlike_iff {session : RecordedSession}
    (fixed : ∀ fix ∈ session.fixes, 0 < fix.fixType) :
    session.ValidAlike ↔ session.fixes = [] ∨ ¬ session.SourceSeen := by
  have never : session.ValidAlike ↔ ¬ ∃ k, session.MarksValid .legacy k := by
    rw [not_exists]
    exact forall_congr' fun k => iff_false_right (session.not_marksValid_contract k)
  rw [never, marksValid_legacy_iff fixed, not_and_or, not_not]

end RecordedSession

/-- Every fix decodes alike, and a session of known fixes has the same valid samples. -/
def FormatIndependent (session : RecordedSession) : Prop :=
  (∀ fix ∈ session.fixes, DecodesAlike fix) ∧
    ((∀ fix ∈ session.fixes, 0 < fix.fixType) → session.ValidAlike)

/-- Only fixes without a fix type and satellites keep a session independent of the format; with a
fix type in every fix, the valid samples are lost from contract logs whenever there are any. -/
theorem formatIndependent_iff (session : RecordedSession) :
    (FormatIndependent session ↔ ∀ fix ∈ session.fixes, fix.fixType = 0 ∧ fix.satellites = 0) ∧
      ((∀ fix ∈ session.fixes, 0 < fix.fixType) →
        (session.ValidAlike ↔ session.fixes = [] ∨ ¬ session.SourceSeen)) := by
  refine ⟨⟨fun same fix listed => (decodesAlike_iff fix).mp (same.1 fix listed), fun unknown => ?_⟩,
    RecordedSession.validAlike_iff⟩
  refine ⟨fun fix listed => (decodesAlike_iff fix).mpr (unknown fix listed), fun fixed => ?_⟩
  refine (RecordedSession.validAlike_iff fixed).mpr (Or.inl (List.eq_nil_iff_forall_not_mem.mpr ?_))
  intro fix listed
  have positive := fixed fix listed
  rw [(unknown fix listed).1] at positive
  exact absurd positive (by decide)

def rtkFix : RecordedFix where
  tsNs := 0
  legacy := leBytes 8 0 ++ leBytes 8 0 ++ leBytes 8 0 ++ leBytes 4 0 ++ leBytes 4 0 ++ [4, 9] ++
    leBytes 4 0 ++ leBytes 2 0
  header := makeFrameHeader 105 flagPayloadBinary 0 0 0 0 0 56 0
  contract := leBytes 8 0 ++ leBytes 8 0 ++ leBytes 8 0 ++ leBytes 8 0 ++ leBytes 4 0 ++
    leBytes 4 0 ++ leBytes 4 0 ++
    leBytes 4 0 ++ [4, 0, 9, 0] ++ leBytes 4 0
  legacySize := by decide
  contractSize := by decide
  isGpsFix := rfl
  time := by
    rw [toInt64]
    decide
  latitude := by decide
  longitude := by decide
  altitude := by decide
  speed := by decide
  fix := by decide
  sats := by decide

/-- The car stands beside the source, which reports an RTK fix of its own. -/
def besideSource : RecordedSession where
  fixes := [rtkFix]
  others _ := {}
  noGps _ := rfl
  sourcePresent := true
  source := { gnss := [{ fixQuality := 4 }] }
  newUuid _ := []
  ticks := [0]
  validRange := {}

theorem besideSource_fixed : ∀ fix ∈ besideSource.fixes, 0 < fix.fixType := by
  intro fix listed
  rw [List.mem_singleton.mp listed]
  decide

theorem besideSource_validAlike_iff :
    besideSource.ValidAlike ↔ besideSource.fixes = [] ∨ ¬ besideSource.SourceSeen :=
  (formatIndependent_iff besideSource).2 besideSource_fixed

theorem besideSource_lost :
    (∀ fix ∈ besideSource.fixes, 0 < fix.fixType) ∧ ¬ FormatIndependent besideSource ∧
      ¬ besideSource.ValidAlike := by
  have fixed := besideSource_fixed
  have report : Pipeline.syncReport besideSource.cfg true
      (besideSource.ego .legacy) besideSource.source {} =
      LogSynchroniser.synchronise besideSource.cfg
        (besideSource.ego .legacy).gps besideSource.source.gnss [] [] {} :=
    if_pos rfl
  have unfit : ∀ g ∈ besideSource.source.gnss, good g = false := by
    intro g listed
    rw [List.mem_singleton.mp listed]
    decide
  have zero : (Pipeline.syncReport besideSource.cfg true
      (besideSource.ego .legacy) besideSource.source {}).offsetNs =
      0 := by
    rw [report, synchronise_offset_zero _ _ unfit]
  have lost : ¬ besideSource.ValidAlike := by
    rw [RecordedSession.validAlike_iff fixed, not_or, not_not]
    have reached : besideSource.corrected .legacy = .ok besideSource.source :=
      applySync_of_zero (fun aborted => Bool.false_ne_true aborted.2) zero
    refine ⟨List.cons_ne_nil _ _, besideSource.source, reached, 0, List.mem_singleton_self _, ?_⟩
    simp [TimeAligner.sourceSeen, TimeAligner.inSourceRange, besideSource, sortByTime,
      interpolateGnss, interpolate]
  exact ⟨fixed, fun same => lost (same.2 fixed), lost⟩

end LocalPC.Offline
