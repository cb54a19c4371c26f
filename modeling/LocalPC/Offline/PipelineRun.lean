import LocalPC.Offline.Demuxers
import LocalPC.Offline.ExportedTables
import LocalPC.Offline.S3Uploader
import LocalPC.Offline.SceneSegments
import LocalPC.Offline.StoppedScan
import LocalPC.Offline.TimeGrid
import LocalPC.Offline.ValidRanges

/-!
# The runs of the pipeline

`Pipeline::run` (`pipeline.cpp`) with its two branches, from the files of a session to the exit code.
Paths are relative to the directory of the session. The log, the wall clock and the texts of the reports
that no program reads are left out.
-/

namespace LocalPC.Offline
open Lib Contract LocalPC.Runtime

structure RunOptions where
  sourceBin : Bytes := []
  onlyValidate : Bool := false
  onlySync : Bool := false
  onlyMdf4 : Bool := false
  onlyScenes : Bool := false
  skipS3 : Bool := false
  uploadDryRun : Bool := false

structure PipelineConfig where
  scan : Config := {}
  failOnNoValidRanges : Bool := true
  sync : SyncConfig := {}
  stages : StageConfig := {}
  mdf4OutputFilename : Bytes := ascii "session.mf4"
  offlinePipelineVersion : Bytes := ascii "1.0"
  s3 : S3Config := {}

inductive RunFault
  | divisionByZero
  | outOfBounds (fault : ReadFault)
  | timeGrid (e : LoopError)
  | stillRunning
  | thrown (text : Bytes)

def ManifestError.what : ManifestError → Bytes
  | cannotOpen path => ascii "cannot open: " ++ path
  | json e => e.what

namespace Pipeline

/-! ## The scans -/

def demuxEgo (raw : RawPacket) (out : DecodedEgoStreams) : Reading DecodedEgoStreams :=
  if raw.isContract then
    (ContractDemuxer.demux raw.contractHeader raw.payload
      raw.contractHeader.payloadSize.toNat out).map Prod.snd
  else
    (PacketDemuxer.demux raw.header.type
      (toInt64 raw.header.tsNs) raw.payload raw.header.payloadSize.toNat out).map Prod.snd

abbrev Scanning (σ : Type) := Except RunFault (ScanAccumulator × σ)

def feedWith {σ : Type} (cfg : Config) (ok : Bool)
    (demux : RawPacket → σ → Reading σ) (raw : RawPacket) (s : ScanAccumulator × σ) :
    Except RunFault (ScanAccumulator × σ) := do
  let streams ← if ok then (demux raw s.2).mapError .outOfBounds else .ok s.2
  match s.1.feed cfg raw ok with
  | none => .error .divisionByZero
  | some acc => .ok (acc, streams)

def egoCallback (cfg : Config) (raw : RawPacket) (s : Scanning DecodedEgoStreams) :
    Scanning DecodedEgoStreams :=
  s.bind (feedWith cfg (packetOk raw) demuxEgo raw)

def demuxSource (raw : RawPacket) (out : DecodedSourceStreams) : Reading DecodedSourceStreams :=
  (SourceDemuxer.demux raw.header.type
    (toInt64 raw.header.tsNs) raw.payload raw.header.payloadSize.toNat out).map Prod.snd

def sourceCallback (cfg : Config) (raw : RawPacket) (s : Scanning DecodedSourceStreams) :
    Scanning DecodedSourceStreams :=
  s.bind (feedWith cfg (BinaryParser.validate raw = .ok) demuxSource raw)

def scanEgoLog (cfg : Config) (manifest : EgoManifest) (dir : Dir) :
    Except RunFault (StreamValidation × DecodedEgoStreams) :=
  let start : Scanning DecodedEgoStreams := .ok ({ sv := { fileOk := manifest.chunks ≠ [] } }, {})
  let scanned :=
    (EgoLogReader.create dir manifest.chunks).scan dir
      (fun raw s => (true, egoCallback cfg raw s)) start
  scanned.map fun s => (s.1.sv, s.2)

def scanSourceLog (cfg : Config) (srcBin : Bytes) (missing : Bytes) (dir : Dir) :
    Except RunFault (StreamValidation × DecodedSourceStreams) :=
  if srcBin ∈ dir then
    let start : Scanning DecodedSourceStreams := .ok ({ sv := { fileOk := true } }, {})
    let reader : SourceLogReader := ⟨[{ chunkId := 0, path := srcBin }]⟩
    let scanned := reader.scan dir (fun raw s => (true, sourceCallback cfg raw s)) start
    scanned.map fun s => (s.1.sv, s.2)
  else .ok ({ fileOk := false, fileErrors := [missing] }, {})

def sourcePath (opts : RunOptions) : Bytes :=
  if opts.sourceBin = [] then ascii "source.bin" else opts.sourceBin

/-! ## `run_validate` -/

structure ValidateRun where
  exit : ExitCode
  report : Option ValidationReport := none

def loadMetadata (dir : Dir) : SessionBundle × List Bytes :=
  match SessionBundle.load [] dir with
  | .ok bundle => (bundle, [])
  | .error e => ({ session := {} }, [ascii "metadata: " ++ e.what])

def rejects (cfg : PipelineConfig) (report : ValidationReport) : Bool :=
  report.integrity = .failed ∧ cfg.failOnNoValidRanges

def runValidate (cfg : PipelineConfig) (opts : RunOptions) (dir : Dir) :
    Except RunFault ValidateRun :=
  match EgoManifest.fromJson [] dir (ascii "ego_manifest.json") with
  | .error _ => .ok { exit := .validationError }
  | .ok manifest => do
      let (ego, _) ← scanEgoLog cfg.scan manifest dir
      let (source, _) ← scanSourceLog cfg.scan (sourcePath opts)
        (ascii "source.bin not found (optional " ++ emDash ++ ascii " skipping)") dir
      let report := buildReport cfg.scan ego source
      return { exit := if rejects cfg report then .validationError
        else .success, report := some report }

/-! ## `run_full` -/

structure RunIo where
  fuel : Nat
  eventUuid : Nat → Bytes
  segmentUuid : Nat → Bytes
  mdf4Written : Bool := true
  reportWritten : Bool := true
  generatedAtUtc : Bytes := []
  timing : SessionReport.Timing := {}
  inputPaths : SessionReport.InputPaths := {}
  outputs : SessionReport.Outputs := {}
  session : SessionIo

structure FullRun where
  exit : ExitCode
  validationReport : Option ValidationReport := none
  syncReport : Option SyncReport := none
  mdf4 : Option Bytes := none
  sceneEvents : List SceneEvent := []
  sceneSegments : List SceneSegment := []
  sessionReport : Option SessionReport := none
  upload : Option (ExitCode × Option UploadReport) := none

def integrityText : Integrity → Bytes
  | .ok => ascii "ok"
  | .warning => ascii "warning"
  | .failed => ascii "failed"

def syncText : SyncStatus → Bytes
  | .syncOk => ascii "sync_ok"
  | .syncDegraded => ascii "sync_degraded"
  | .syncFailed => ascii "sync_failed"

def pipelineStatus (errors : List Bytes) (integrity : Integrity) (status : SyncStatus) : Bytes :=
  if errors = [] ∧ integrity ≠ .failed ∧ status ≠ .syncFailed then ascii "success"
  else if errors ≠ [] ∨ integrity = .warning ∨ status = .syncDegraded then ascii "partial"
  else ascii "failed"

def buildSessionReport (cfg : PipelineConfig) (io : RunIo)
    (report : ValidationReport) (sync : SyncReport) (bundle : SessionBundle)
    (errors : List Bytes) : SessionReport where
  offlinePipelineVersion := cfg.offlinePipelineVersion
  sessionId := bundle.session.sessionId
  generatedAtUtc := io.generatedAtUtc
  pipelineStatus := pipelineStatus errors report.integrity sync.status
  syncStatus := syncText sync.status
  validationIntegrity := integrityText report.integrity
  inputPaths := io.inputPaths
  outputs := io.outputs
  metadata :=
    { vehicleId := bundle.session.vehicleId
      scenarioId := (bundle.scenario.map ScenarioMetadata.scenarioId).getD []
      sourceId := (bundle.source.map SourceMetadata.sourceId).getD []
      startedAtUtc := bundle.session.startedAtUtc
      stoppedAtUtc := bundle.session.stoppedAtUtc
      durationS := bundle.session.durationS }
  timing := io.timing
  errors := errors

def writeMdf4 (io : RunIo) (groups : List PreparedGroup) (bundle : SessionBundle)
    (t0Ns : Int) : Option Bytes :=
  if io.mdf4Written then buildMdf4 (groups.map PreparedGroup.toChannelGroup) bundle t0Ns else none

def sessionAfter (cfg : PipelineConfig) (io : RunIo) (mdf4 : Option Bytes)
    (report : SessionReport) : SessionIo :=
  { io.session with
    reportText := if io.reportWritten then some report.toJson else io.session.reportText
    mf4Size := match mdf4 with
      | some file =>
          if cfg.mdf4OutputFilename = ascii "session.mf4" then some file.length
          else io.session.mf4Size
      | none => io.session.mf4Size }

/-- The options and the configuration ask for an upload. -/
def uploads (cfg : PipelineConfig) (opts : RunOptions) : Bool :=
  !opts.skipS3 && !opts.onlyValidate && !opts.onlySync && !opts.onlyMdf4 &&
    !opts.onlyScenes && cfg.s3.enabled

def exitAfter (dryRun : Bool) (up exit : ExitCode) : ExitCode :=
  if up ≠ .success ∧ up ≠ .uploadBlocked then up
  else if up = .uploadBlocked ∧ ¬ dryRun then .uploadBlocked
  else exit

def finishRun (cfg : PipelineConfig) (opts : RunOptions) (io : RunIo) (run : FullRun)
    (report : SessionReport) :
    Except RunFault FullRun := do
  let exit := if report.errors = [] then .success else .internalError
  if uploads cfg opts then
    let up ← (S3Uploader.uploadSession cfg.s3
        (sessionAfter cfg io run.mdf4 report) opts.uploadDryRun).mapError .thrown
    return { run with
      exit := exitAfter opts.uploadDryRun up.1 exit, sessionReport := some report, upload :=
        some up }
  return { run with exit, sessionReport := some report }

structure Analysis where
  report : ValidationReport
  sync : SyncReport
  validRange : TimeRange
  src : DecodedSourceStreams
  aligned : List AlignedSample

/-- Stages 2 to 6, from the files of the logs to the samples on the grid, or to the end of the run. -/
def analyse (cfg : PipelineConfig) (opts : RunOptions) (fuel : Nat) (dir : Dir) :
    Except RunFault (Except FullRun Analysis) :=
  match EgoManifest.fromJson [] dir (ascii "ego_manifest.json") with
  | .error _ => .ok (.error { exit := .internalError })
  | .ok manifest => do
      let (egoSv, ego) ← scanEgoLog cfg.scan manifest dir
      let (sourceSv, src) ← scanSourceLog cfg.scan (sourcePath opts)
          (ascii "source.bin not found (optional)") dir
      let report := buildReport cfg.scan egoSv sourceSv
      if rejects cfg report then
        return .error { exit := .validationError, validationReport := some report }
      if opts.onlyValidate then return .error { exit := .success, validationReport := some report }
      let validRange := report.validRanges.headD {}
      let sourcePresent := decide (sourcePath opts ∈ dir)
      let sync := syncReport cfg.sync sourcePresent ego src validRange
      match applySync cfg.sync sourcePresent sync src with
      | .error exit =>
          return .error { exit, validationReport := some report, syncReport := some sync }
      | .ok src =>
          if opts.onlySync then
            return .error
              { exit := .success, validationReport := some report, syncReport := some sync }
          let grid ← match TimeGrid.build fuel validRange.tStartNs validRange.tEndNs
              cfg.stages.gridDtMs with
            | none => .error .stillRunning
            | some (.error e) => .error (.timeGrid e)
            | some (.ok grid) => .ok grid
          let aligned :=
            TimeAligner.align cfg.stages.joinToleranceMs grid.ticks ego.gps
              src.gnss ego.imu ego.trajectory
          return .ok { report, sync, validRange, src, aligned }

def exportStages (cfg : PipelineConfig) (opts : RunOptions) (io : RunIo)
    (bundle : SessionBundle) (errors : List Bytes) (a : Analysis) : Except RunFault FullRun := do
  let geometry := SceneCalculator.compute a.aligned
  let mdf4 ← if opts.onlyScenes then .ok none
    else (prepareGroups cfg.stages.gridDtMs a.validRange.tStartNs a.aligned).mapError .thrown
      |>.map fun groups => writeMdf4 io groups bundle a.validRange.tStartNs
  let errors :=
    if ¬ opts.onlyScenes ∧ mdf4 = none then errors ++ [ascii "MDF4 write failed"] else errors
  let events := SceneBuilder.extractEvents io.eventUuid a.src.events geometry
  let segments := SceneBuilder.linkSegmentsToEvents
    (SceneBuilder.buildSegments cfg.stages.scene io.segmentUuid events geometry) events
  finishRun cfg opts io
    { exit := .success
      validationReport := some a.report
      syncReport := some a.sync
      mdf4
      sceneEvents := events
      sceneSegments := segments }
    (buildSessionReport cfg io a.report a.sync bundle errors)

def runFull (cfg : PipelineConfig) (opts : RunOptions) (io : RunIo) (dir : Dir) :
    Except RunFault FullRun := do
  let (bundle, errors) := loadMetadata dir
  match ← analyse cfg opts io.fuel dir with
  | .error ended => return ended
  | .ok a => exportStages cfg opts io bundle errors a

def run (cfg : PipelineConfig) (opts : RunOptions) (io : RunIo) (dir : Dir) :
    Except RunFault FullRun :=
  if opts.onlyValidate then
    (runValidate cfg opts dir).map fun v => { exit := v.exit, validationReport := v.report }
  else runFull cfg opts io dir

end Pipeline
end LocalPC.Offline
