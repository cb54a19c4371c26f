import LocalPC.Offline.FullRuns
import LocalPC.Offline.RecordedSession

namespace LocalPC.Offline
open Lib Contract LocalPC.Runtime

namespace Pipeline
variable {cfg : PipelineConfig} {opts : RunOptions} {dir dir' : Dir} {frames : List Bytes}

/-- The files that a run reads apart from the manifest and the chunk files. -/
def sideFiles (opts : RunOptions) : List Bytes :=
  [ascii "session_metadata.json", ascii "scenario_metadata.json",
    ascii "source_metadata.json", sourcePath opts]

def SameSideFiles (opts : RunOptions) (dir dir' : Dir) : Prop :=
  ∀ name ∈ sideFiles opts, dir'.lookup name = dir.lookup name

theorem mem_congr {name : Bytes} (same : dir'.lookup name = dir.lookup name) :
    name ∈ dir' ↔ name ∈ dir := by
  rw [← AList.lookup_isSome, ← AList.lookup_isSome, same]

theorem jsonLoad_congr {name : Bytes}
    (same : dir'.lookup name = dir.lookup name) (baseDir : Bytes) :
    jsonLoad baseDir dir' name = jsonLoad baseDir dir name := by
  rw [jsonLoad, jsonLoad, same]

theorem loadOptional_congr {α : Type} {name : Bytes} (same : dir'.lookup name = dir.lookup name)
    (ofJson : JsonValue → α) (baseDir : Bytes) :
    SessionBundle.loadOptional ofJson baseDir dir' name =
      SessionBundle.loadOptional ofJson baseDir dir name := by
  rw [SessionBundle.loadOptional, SessionBundle.loadOptional, jsonLoad_congr same]
  exact if_congr (mem_congr same) rfl rfl

theorem loadMetadata_congr (same : SameSideFiles opts dir dir') :
    loadMetadata dir' = loadMetadata dir := by
  have session := jsonLoad_congr (same (ascii "session_metadata.json") (by simp [sideFiles])) []
  have scenario :=
    loadOptional_congr
      (same (ascii "scenario_metadata.json") (by simp [sideFiles])) ScenarioMetadata.ofJson []
  have source :=
    loadOptional_congr
      (same (ascii "source_metadata.json") (by simp [sideFiles])) SourceMetadata.ofJson []
  rw [loadMetadata, loadMetadata, SessionBundle.load, SessionBundle.load, session, scenario, source]

theorem scanSourceLog_congr (same : SameSideFiles opts dir dir') (scan : Config) (missing : Bytes) :
    scanSourceLog scan (sourcePath opts) missing dir' =
      scanSourceLog scan (sourcePath opts) missing dir := by
  have source := same (sourcePath opts) (by simp [sideFiles])
  simp only [scanSourceLog, SourceLogReader.scan, SourceLogReader.scanChunks,
    source, mem_congr source]

theorem scanEgoLog_congr (reads : ReadsFrames dir frames) (reads' : ReadsFrames dir' frames) :
    ∃ manifest manifest', EgoManifest.fromJson [] dir manifestName = .ok manifest ∧
      EgoManifest.fromJson [] dir' manifestName = .ok manifest' ∧
        ∀ scan, scanEgoLog scan manifest' dir' = scanEgoLog scan manifest dir := by
  obtain ⟨manifest, read, chunks, packets⟩ := reads.packets
  obtain ⟨manifest', read', chunks', packets'⟩ := reads'.packets
  refine ⟨manifest, manifest', read, read', fun scan => ?_⟩
  rw [scanEgoLog_eq scan packets, scanEgoLog_eq scan packets',
    decide_eq_true chunks, decide_eq_true chunks']

theorem runValidate_congr (reads : ReadsFrames dir frames) (reads' : ReadsFrames dir' frames)
    (same : SameSideFiles opts dir dir') :
    runValidate cfg opts dir' = runValidate cfg opts dir := by
  obtain ⟨manifest, manifest', read, read', scans⟩ := scanEgoLog_congr reads reads'
  rw [manifestName] at read read'
  rw [runValidate, runValidate, read, read']
  simp only [scans, scanSourceLog_congr same]

theorem runFull_congr (reads : ReadsFrames dir frames) (reads' : ReadsFrames dir' frames)
    (same : SameSideFiles opts dir dir') (io : RunIo) :
    runFull cfg opts io dir' = runFull cfg opts io dir := by
  obtain ⟨manifest, manifest', read, read', scans⟩ := scanEgoLog_congr reads reads'
  rw [manifestName] at read read'
  have analysed : analyse cfg opts io.fuel dir' = analyse cfg opts io.fuel dir := by
    have source := mem_congr (same (sourcePath opts) (by simp [sideFiles]))
    rw [analyse, analyse, read, read']
    simp only [scans, scanSourceLog_congr same, source]
  rw [runFull, runFull, loadMetadata_congr same, analysed]

theorem run_congr (reads : ReadsFrames dir frames) (reads' : ReadsFrames dir' frames)
    (same : SameSideFiles opts dir dir') (io : RunIo) :
    run cfg opts io dir' = run cfg opts io dir := by
  rw [run, run, runValidate_congr reads reads' same, runFull_congr reads reads' same]

def uploadStage (cfg : PipelineConfig) (opts : RunOptions) (io : RunIo) (run : FullRun) :
    Except RunFault FullRun :=
  match run.sessionReport with
  | none => .ok run
  | some report =>
      if uploads cfg opts then do
        let up ← (S3Uploader.uploadSession cfg.s3
            (sessionAfter cfg io run.mdf4 report) opts.uploadDryRun).mapError .thrown
        return { run with exit := exitAfter opts.uploadDryRun up.1 run.exit, upload := some up }
      else .ok run

def runBefore (cfg : PipelineConfig) (opts : RunOptions) (io : RunIo) (dir : Dir) :
    Except RunFault FullRun :=
  run { cfg with s3.enabled := false } opts io dir

theorem finishRun_disabled (cfg : PipelineConfig) (opts : RunOptions) (io : RunIo) (ended : FullRun)
    (report : SessionReport) :
    finishRun { cfg with s3.enabled := false } opts io ended report =
      .ok { ended with
        exit := if report.errors = [] then .success else .internalError
        sessionReport := some report } := by
  have off : uploads { cfg with s3.enabled := false } opts = false := by simp [uploads]
  rw [finishRun, off]
  rfl

theorem finishRun_eq (cfg : PipelineConfig) (opts : RunOptions) (io : RunIo) (ended : FullRun)
    (report : SessionReport) :
    finishRun cfg opts io ended report =
      (finishRun { cfg with s3.enabled := false } opts io ended report).bind
        (uploadStage cfg opts io) := by
  rw [finishRun_disabled]
  rfl

theorem exportStages_eq (cfg : PipelineConfig) (opts : RunOptions) (io : RunIo)
    (bundle : SessionBundle) (errors : List Bytes) (a : Analysis) :
    exportStages cfg opts io bundle errors a =
      (exportStages { cfg with s3.enabled := false } opts io bundle errors a).bind
        (uploadStage cfg opts io) := by
  unfold exportStages
  simp only [finishRun_eq cfg]
  split
  · rfl
  · cases (prepareGroups cfg.stages.gridDtMs a.validRange.tStartNs a.aligned) <;> rfl

theorem run_eq (cfg : PipelineConfig) (opts : RunOptions) (io : RunIo) (dir : Dir) :
    run cfg opts io dir = (runBefore cfg opts io dir).bind (uploadStage cfg opts io) := by
  rw [runBefore, run, run]
  split
  · have same : runValidate { cfg with s3.enabled := false } opts dir = runValidate cfg opts dir :=
      rfl
    rw [same]
    cases runValidate cfg opts dir <;> rfl
  · rw [runFull, runFull]
    have same : analyse { cfg with s3.enabled := false } opts io.fuel dir =
        analyse cfg opts io.fuel dir := rfl
    rw [same]
    cases analysed : analyse cfg opts io.fuel dir with
    | error fault => rfl
    | ok outcome =>
        cases outcome with
        | error ended =>
            have unreported := (analyse_ended analysed).1
            show Except.ok ended = uploadStage cfg opts io ended
            rw [uploadStage, unreported]
        | ok a => exact exportStages_eq cfg opts io _ _ a

theorem runBefore_session (cfg : PipelineConfig) (opts : RunOptions) (io : RunIo)
    (session : SessionIo) (dir : Dir) :
    runBefore cfg opts { io with session } dir = runBefore cfg opts io dir := by
  unfold runBefore run runFull exportStages
  simp only [finishRun_disabled]
  rfl

/-- Two sessions with the same results, up to the files that the uploader finds for each. -/
def RunAlike (cfg : PipelineConfig) (opts : RunOptions) (io : RunIo) (dir dir' : Dir) : Prop :=
  ∃ made : Except RunFault FullRun, ∀ session,
    run cfg opts { io with session } dir = made.bind (uploadStage cfg opts { io with session }) ∧
    run cfg opts { io with session } dir' = made.bind (uploadStage cfg opts { io with session })

theorem runAlike (reads : ReadsFrames dir frames) (reads' : ReadsFrames dir' frames)
    (same : SameSideFiles opts dir dir') (io : RunIo) : RunAlike cfg opts io dir dir' := by
  have made (session : SessionIo) (dir : Dir) : run cfg opts { io with session } dir =
      (runBefore cfg opts io dir).bind (uploadStage cfg opts { io with session }) := by
    rw [run_eq, runBefore_session]
  have alike : runBefore cfg opts io dir' = runBefore cfg opts io dir :=
    run_congr reads reads' same io
  exact ⟨runBefore cfg opts io dir, fun session => ⟨made session dir, alike ▸ made session dir'⟩⟩

end Pipeline

/-- A closed recording whose files are in a directory, with whatever else. -/
structure RecordedIn {m : UInt32} (config : RuntimeConfig) (now openNow : Int)
    (writes : List (WriteClock × ContractFrame m)) (closeNow : Int) (dir : Dir) : Prop where
  inTime : ∀ write ∈ writes, InTime write.2.bytes
  small : (writes.map fun write => write.2.bytes).flatten.length < 2 ^ 63
  few : (recording config now openNow writes closeNow).writer.chunks.length ≤ 2 ^ 32
  files : ∀ name ∈ (recording config now openNow writes closeNow).writer.dir,
    dir.lookup name = (recording config now openNow writes closeNow).writer.dir.lookup name

theorem RecordedIn.reads {m : UInt32} {config : RuntimeConfig} {now openNow : Int}
    {writes : List (WriteClock × ContractFrame m)} {closeNow : Int} {dir : Dir}
    (recorded : RecordedIn config now openNow writes closeNow dir) :
    ReadsFrames dir (writes.map fun write => write.2.bytes) :=
  reads_recording writes closeNow recorded.inTime recorded.small recorded.few recorded.files

/-- Two recordings of the same frames, whatever their limits and their clocks, give the same
results: the same report, the same export and the same exit code before an upload. -/
theorem recordings_alike {m m' : UInt32} {config config' : RuntimeConfig}
    {now openNow closeNow now' openNow' closeNow' : Int}
    {writes : List (WriteClock × ContractFrame m)} {writes' : List (WriteClock × ContractFrame m')}
    {dir dir' : Dir} (recorded : RecordedIn config now openNow writes closeNow dir)
    (recorded' : RecordedIn config' now' openNow' writes' closeNow' dir')
    (frames : (writes'.map fun write => write.2.bytes) = writes.map fun write => write.2.bytes)
    (cfg : PipelineConfig) (opts : RunOptions) (io : Pipeline.RunIo)
    (same : Pipeline.SameSideFiles opts dir dir') :
    Pipeline.RunAlike cfg opts io dir dir' :=
  Pipeline.runAlike recorded.reads (frames ▸ recorded'.reads) same io

def offlineIo : Pipeline.RunIo where
  fuel := 1
  eventUuid := fun _ => []
  segmentUuid := fun _ => []
  session := S3Uploader.sessionOf S3Uploader.openFile

theorem recordedIn_sample (config : RuntimeConfig) :
    RecordedIn config 0 0 sampleWrites 0 (recording config 0 0 sampleWrites 0).writer.dir where
  inTime := sampleWrites_inTime
  small := by decide +kernel
  few := (length_chunks_recording_le config 0 0 sampleWrites 0).trans (by decide)
  files _ _ := rfl

theorem sampleRecordings_alike : sampleRecording.writer.chunks.length = 2 ∧
    (recording {} 0 0 sampleWrites 0).writer.chunks.length = 1 ∧
      Pipeline.RunAlike {} {} offlineIo
        (recording {} 0 0 sampleWrites 0).writer.dir sampleRecording.writer.dir :=
  ⟨sampleRecording_chunks, by decide +kernel,
    recordings_alike (recordedIn_sample {}) (recordedIn_sample sampleConfig) rfl
    {} {} offlineIo (by unfold Pipeline.SameSideFiles; decide +kernel)⟩

/-- What a recorder that was killed leaves has no manifest, or it is validated as some of the
recorded frames, from the first on; fewer than `flush_packets` of those whose write has returned are
missing. -/
theorem killed_validated {m : UInt32} (config : RuntimeConfig) (now openNow : Int)
    (writes : List (WriteClock × ContractFrame m)) (last : LastCall m) (k : Nat) (dir : Dir)
    (inTime : ∀ frame ∈ (writes.map fun write => write.2.bytes) ++ last.frames, InTime frame)
    (small : ((writes.map fun write => write.2.bytes) ++ last.frames).flatten.length < 2 ^ 63)
    (few : (writes.foldl WriterRun.record
      (recordingStart config now openNow)).writer.chunks.length < 2 ^ 32)
    (leaves : Leaves
      (runOps ((last.ops
        (writes.foldl WriterRun.record (recordingStart config now openNow)).writer).take k)
        (diskAfter config now openNow writes)) fun name => dir.lookup name)
    (cfg : PipelineConfig) (opts : RunOptions) (absent : Pipeline.sourcePath opts ∉ dir) :
    (dir.lookup manifestName = none ∧
      Pipeline.runValidate cfg opts dir = .ok { exit := .validationError }) ∨
      ∃ frames, frames <+: (writes.map fun write => write.2.bytes) ++ last.frames ∧
        writes.length < frames.length + flushLimit config ∧
        ((∃ run, Pipeline.runValidate cfg opts dir = .ok run) ↔ ∀ frame ∈ frames, Harmless frame) ∧
        ∀ run, Pipeline.runValidate cfg opts dir = .ok run →
          Pipeline.ValidatedAs cfg frames run := by
  have accepted := @accepted_of_calls _ writes last
  have unlisted (gone : dir.lookup manifestName = none) :
      dir.lookup manifestName = none ∧
        Pipeline.runValidate cfg opts dir = .ok { exit := .validationError } := by
    refine ⟨gone, ?_⟩
    have missing : dir.lookup (ascii "ego_manifest.json") = none := gone
    rw [Pipeline.runValidate, EgoManifest.fromJson, missing]
  cases (safe_of_calls last k inTime small few).recovers leaves accepted with
  | manifest found =>
      rename_i frames
      have saved : ∀ frame ∈ frames, ∃ m, Accepted m frame := fun frame member =>
        ⟨m, accepted frame (found.recorded.subset member)⟩
      have missing := found.few
      rw [List.length_map] at missing
      exact .inr ⟨frames, found.recorded, missing,
        Pipeline.runValidate_frames cfg opts saved found.reads absent⟩
  | temporary gone => exact .inl (unlisted gone)
  | neverFlushed gone => exact .inl (unlisted gone)

theorem killedSession_validated :
    ∃ frames run, frames <+: (sampleWrites.map fun write => write.2.bytes) ∧
    2 ≤ frames.length ∧ Pipeline.runValidate {} {} killedSession = .ok run ∧
      Pipeline.ValidatedAs {} frames run := by
  rcases killed_validated sampleConfig 0 0 (sampleWrites.take 3) fourthWrite 3 killedSession
      (List.forall_mem_map.mpr sampleWrites_inTime) (by decide +kernel)
        (by decide +kernel) leaves_killedSession {} {}
      (by decide +kernel) with ⟨gone, -⟩ | ⟨frames, recorded, missing, passes, validated⟩
  · have listed : killedSession.lookup manifestName ≠ none := by decide +kernel
    exact absurd gone listed
  · have harmless : ∀ frame ∈ frames, Harmless frame := fun frame member => by
      obtain ⟨write, listed, rfl⟩ := List.mem_map.mp
        (show frame ∈ sampleWrites.map fun write => write.2.bytes from recorded.subset member)
      exact sampleFrames_harmless write listed
    obtain ⟨run, ran⟩ := passes.mpr harmless
    refine ⟨frames, run, recorded, ?_, ran, validated run ran⟩
    have limit : flushLimit sampleConfig = 2 := by decide
    rw [limit] at missing
    have returned : 3 < frames.length + 2 := missing
    omega

end LocalPC.Offline
