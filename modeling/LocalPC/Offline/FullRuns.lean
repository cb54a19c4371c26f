import LocalPC.Offline.RecordedSession

namespace LocalPC.Offline
open Lib Contract LocalPC.Runtime

namespace Pipeline

theorem pipelineStatus_success {errors : List Bytes} {integrity : Integrity} {status : SyncStatus}
    (success : cutValue (pipelineStatus errors integrity status) = ascii "success") :
    errors = [] ∧ integrity ≠ .failed ∧ status ≠ .syncFailed := by
  unfold pipelineStatus at success
  by_cases all : errors = [] ∧ integrity ≠ .failed ∧ status ≠ .syncFailed
  · exact all
  · rw [if_neg all] at success
    split at success
    · exact absurd success (by decide)
    · exact absurd success (by decide)

theorem loadMetadata_quiet {dir : Dir} (quiet : (loadMetadata dir).2 = []) :
    SessionBundle.load [] dir = .ok (loadMetadata dir).1 := by
  unfold loadMetadata at quiet ⊢
  cases loaded : SessionBundle.load [] dir with
  | error e =>
      rw [loaded] at quiet
      cases quiet
  | ok bundle => rfl

theorem success_of_gate {config : S3Config} {session : SessionIo} {status : Bytes}
    (required : config.requirePipelineSuccess = true)
    (gate : S3Uploader.gateBlocked config session status = none) :
    status = ascii "success" := by
  unfold S3Uploader.gateBlocked at gate
  by_contra other
  split at gate
  · cases gate
  split at gate
  · cases gate
  · rw [if_pos ⟨required, other⟩] at gate
    cases gate

theorem exitAfter_eq_success {dryRun : Bool} {up exit : ExitCode}
    (success : exitAfter dryRun up exit = .success) :
    exit = .success ∧ (up = .success ∨ up = .uploadBlocked ∧ dryRun = true) := by
  unfold exitAfter at success
  split at success
  next failed => exact absurd success failed.1
  next passed =>
    split at success
    · cases success
    · tauto

theorem exitAfter_real (up : ExitCode) : exitAfter false up .success = up := by
  cases up <;> rfl

theorem analyse_ended {cfg : PipelineConfig} {opts : RunOptions} {fuel : Nat}
    {dir : Dir} {ended : FullRun} (ran : analyse cfg opts fuel dir = .ok (.error ended)) :
    ended.sessionReport = none ∧ ended.upload = none ∧
      (ended.exit = .success → opts.onlyValidate = true ∨ opts.onlySync = true) := by
  unfold analyse at ran
  split at ran
  · cases ran
    exact ⟨rfl, rfl, nofun⟩
  simp only [bind, Except.bind] at ran
  split at ran
  · cases ran
  split at ran
  · cases ran
  split at ran
  · cases ran
    exact ⟨rfl, rfl, nofun⟩
  split at ran
  next only =>
    cases ran
    exact ⟨rfl, rfl, fun _ => .inl only⟩
  split at ran
  next exit failed =>
    cases ran
    refine ⟨rfl, rfl, fun success => absurd success ?_⟩
    unfold applySync at failed
    split at failed
    · cases failed
      exact ExitCode.noConfusion
    · split at failed <;> cases failed
  split at ran
  next only =>
    cases ran
    exact ⟨rfl, rfl, fun _ => .inr only⟩
  split at ran
  · cases ran
  · cases ran
  · cases ran

structure Exported (cfg : PipelineConfig) (opts : RunOptions) (io : RunIo)
    (errors : List Bytes) (a : Analysis) (run : FullRun) (rpt : SessionReport) : Prop where
  status : rpt.pipelineStatus = pipelineStatus rpt.errors a.report.integrity a.sync.status
  quiet : rpt.errors = [] → errors = [] ∧ (opts.onlyScenes = true ∨ ∃ file, run.mdf4 = some file)
  file : ∀ file, run.mdf4 = some file → file.length < 2 ^ 64 →
    readMdf4 file = some (exportedTables cfg.stages.gridDtMs a.validRange.tStartNs a.aligned)
  upload : (uploads cfg opts = false ∧ run.upload = none ∧
    (run.exit = .success → rpt.errors = [])) ∨
    ∃ up, uploads cfg opts = true ∧ run.upload = some up ∧
      S3Uploader.uploadSession cfg.s3
        (sessionAfter cfg io run.mdf4 rpt) opts.uploadDryRun = .ok up ∧
      run.exit = exitAfter opts.uploadDryRun up.1
        (if rpt.errors = [] then .success else .internalError)

section
variable {cfg : PipelineConfig} {opts : RunOptions} {io : RunIo} {rpt : SessionReport}

theorem exported_of_finishRun {bundle : SessionBundle} {errors errors' : List Bytes}
    {a : Analysis} {ended run : FullRun}
    (quiet : errors' = [] → errors = [] ∧ (opts.onlyScenes = true ∨ ∃ file, ended.mdf4 = some file))
    (read : ∀ file, ended.mdf4 = some file → file.length < 2 ^ 64 →
      readMdf4 file = some (exportedTables cfg.stages.gridDtMs a.validRange.tStartNs a.aligned))
    (fresh : ended.upload = none)
    (ran : finishRun cfg opts io ended
      (buildSessionReport cfg io a.report a.sync bundle errors') = .ok run) :
    ∃ rpt, Exported cfg opts io errors a run rpt := by
  refine ⟨buildSessionReport cfg io a.report a.sync bundle errors', ?_⟩
  unfold finishRun at ran
  dsimp only at ran
  cases asked : uploads cfg opts with
  | false =>
      rw [asked] at ran
      cases ran
      refine ⟨rfl, quiet, read, .inl ⟨asked, fresh, fun success => ?_⟩⟩
      by_contra some_
      exact absurd ((if_neg some_).symm.trans success) ExitCode.noConfusion
  | true =>
      rw [asked] at ran
      cases uploaded : S3Uploader.uploadSession cfg.s3
          (sessionAfter cfg io ended.mdf4
            (buildSessionReport cfg io a.report a.sync bundle errors')) opts.uploadDryRun with
      | error e =>
          rw [uploaded] at ran
          cases ran
      | ok up =>
          rw [uploaded] at ran
          cases ran
          exact ⟨rfl, quiet, read, .inr ⟨up, asked, rfl, uploaded, rfl⟩⟩

theorem exportStages_cases {bundle : SessionBundle} {errors : List Bytes}
    {a : Analysis} {run : FullRun} (ran : exportStages cfg opts io bundle errors a = .ok run) :
    ∃ rpt, Exported cfg opts io errors a run rpt := by
  obtain ⟨groups, file, prepared, built, read⟩ :=
    readMdf4_exported cfg.stages.gridDtMs a.validRange.tStartNs bundle a.aligned
  unfold exportStages at ran
  rw [prepared] at ran
  cases scenes : opts.onlyScenes with
  | true =>
      rw [scenes] at ran
      exact exported_of_finishRun (fun none => ⟨none, .inl scenes⟩) (by rintro file ⟨⟩) rfl ran
  | false =>
      rw [scenes] at ran
      have write : writeMdf4 io groups bundle a.validRange.tStartNs =
          if io.mdf4Written then some file else none := by
        rw [writeMdf4, built]
      simp only [Bool.false_eq_true, if_false, Except.mapError, Except.map, write,
        bind, Except.bind] at ran
      cases stored : io.mdf4Written with
      | true =>
          rw [stored] at ran
          refine exported_of_finishRun (fun none => ⟨none, .inr ⟨file, rfl⟩⟩) ?_ rfl ran
          rintro _ ⟨⟩
          exact read
      | false =>
          rw [stored] at ran
          have told : errors ++ [ascii "MDF4 write failed"] ≠ [] :=
            List.append_ne_nil_of_right_ne_nil _ (List.cons_ne_nil _ _)
          exact exported_of_finishRun (fun none => absurd none told) (by rintro file ⟨⟩) rfl ran

theorem runFull_cases {dir : Dir} {run : FullRun} (ran : runFull cfg opts io dir = .ok run) :
    (run.upload = none ∧ (run.exit = .success → opts.onlyValidate = true ∨ opts.onlySync = true)) ∨
      ∃ a rpt, analyse cfg opts io.fuel dir = .ok (.ok a) ∧
        Exported cfg opts io (loadMetadata dir).2 a run rpt := by
  unfold runFull at ran
  simp only [bind, Except.bind] at ran
  cases analysed : analyse cfg opts io.fuel dir with
  | error e =>
      rw [analysed] at ran
      cases ran
  | ok outcome =>
      rw [analysed] at ran
      cases outcome with
      | error ended =>
          cases ran
          exact .inl (analyse_ended analysed).2
      | ok a =>
          obtain ⟨rpt, exported⟩ := exportStages_cases ran
          exact .inr ⟨a, rpt, rfl, exported⟩

/-- With `require_pipeline_success`, a file is only uploaded when the metadata were read, neither
the validation nor the synchronisation has failed and the export was written. What a reader finds in
that export are the samples of the run, and the run ends with the exit code of the uploader. -/
theorem uploaded_run {dir : Dir} {run : FullRun} {code : ExitCode} {report : UploadReport}
    {result : UploadFileResult} (ran : runFull cfg opts io dir = .ok run)
    (uploaded : run.upload = some (code, some report)) (listed : result ∈ report.files)
    (ok : result.status = ascii "ok") (required : cfg.s3.requirePipelineSuccess = true)
    (written : io.reportWritten = true) :
    ∃ a bundle file, analyse cfg opts io.fuel dir = .ok (.ok a) ∧
      SessionBundle.load [] dir = .ok bundle ∧
      a.report.integrity ≠ .failed ∧ a.sync.status ≠ .syncFailed ∧
        run.exit = code ∧ run.mdf4 = some file ∧
        (file.length < 2 ^ 64 →
          readMdf4 file =
            some (exportedTables cfg.stages.gridDtMs a.validRange.tStartNs a.aligned)) := by
  rcases runFull_cases ran with ⟨none, -⟩ | ⟨a, rpt, analysed, exported⟩
  · exact absurd (uploaded.symm.trans none) (Option.some_ne_none _)
  rcases exported.upload with ⟨-, none, -⟩ | ⟨up, asked, stored, upload, exit⟩
  · exact absurd (uploaded.symm.trans none) (Option.some_ne_none _)
  obtain rfl := Option.some.inj (uploaded.symm.trans stored)
  -- a file that is marked as ok was sent behind the gate, and not in a dry run
  rcases S3Uploader.uploadSession_cases upload with ⟨-, -, nothing⟩ | ⟨gate, real, -, -⟩
  · exact absurd ok (nothing result listed)
  have status := success_of_gate required gate
  have text : (sessionAfter cfg io run.mdf4 rpt).reportText = some rpt.toJson := if_pos written
  rw [S3Uploader.readPipelineStatus, text] at status
  have readBack := rpt.jsonGetString_pipelineStatus.symm.trans status
  rw [exported.status] at readBack
  obtain ⟨quiet, integrity, sync⟩ := pipelineStatus_success readBack
  rw [quiet, if_pos rfl, real, exitAfter_real] at exit
  obtain ⟨loaded, scenes | ⟨file, built⟩⟩ := exported.quiet quiet
  · rw [uploads, scenes] at asked
    simp at asked
  · exact ⟨a, _, file, analysed, loadMetadata_quiet loaded, integrity, sync, exit, built,
      exported.file file built⟩

/-- A full run ends with exit code 0 only when the metadata were read, the export was written and
holds the samples of the run, and the uploader, if it was to run, has uploaded everything. -/
theorem completed_run {dir : Dir} {run : FullRun} (ran : runFull cfg opts io dir = .ok run)
    (exit : run.exit = .success) (validates : opts.onlyValidate = false)
    (syncs : opts.onlySync = false) (scenes : opts.onlyScenes = false)
    (real : opts.uploadDryRun = false) :
    ∃ a bundle file, analyse cfg opts io.fuel dir = .ok (.ok a) ∧
      SessionBundle.load [] dir = .ok bundle ∧
      run.mdf4 = some file ∧ (file.length < 2 ^ 64 →
        readMdf4 file = some (exportedTables cfg.stages.gridDtMs a.validRange.tStartNs a.aligned)) ∧
      (uploads cfg opts = true → ∃ report, run.upload = some (.success, report)) := by
  rcases runFull_cases ran with ⟨-, asked⟩ | ⟨a, rpt, analysed, exported⟩
  · rw [validates, syncs] at asked
    simpa using asked exit
  have finished : rpt.errors = [] ∧
      (uploads cfg opts = true → ∃ report, run.upload = some (.success, report)) := by
    rcases exported.upload with ⟨off, -, none⟩ | ⟨up, -, stored, -, exits⟩
    · exact ⟨none exit, fun on => absurd (on.symm.trans off) Bool.noConfusion⟩
    · obtain ⟨success, uploaded | ⟨-, dry⟩⟩ := exitAfter_eq_success (exits.symm.trans exit)
      · refine ⟨?_, fun _ => ⟨up.2, by rw [stored, ← uploaded]⟩⟩
        by_contra some_
        exact absurd ((if_neg some_).symm.trans success) ExitCode.noConfusion
      · exact absurd (dry.symm.trans real) Bool.noConfusion
  obtain ⟨loaded, only | ⟨file, built⟩⟩ := exported.quiet finished.1
  · exact absurd (only.symm.trans scenes) Bool.noConfusion
  · exact ⟨a, _, file, analysed, loadMetadata_quiet loaded, built,
      exported.file file built, finished.2⟩

end

theorem finishRun_uploaded {ended : FullRun} {report : Option UploadReport}
    (asked : uploads cfg opts = true) (quiet : rpt.errors = [])
    (sent : S3Uploader.uploadSession cfg.s3 (sessionAfter cfg io ended.mdf4 rpt) opts.uploadDryRun =
      .ok (.success, report)) :
    finishRun cfg opts io ended rpt =
      .ok { ended with
        exit := .success, sessionReport := some rpt, upload := some (.success, report) } := by
  rw [finishRun, if_pos asked, sent, quiet]
  rfl

theorem runFull_of_analysis {dir : Dir} {a : Analysis} {report : Option UploadReport}
    (analysed : analyse cfg opts io.fuel dir = .ok (.ok a)) (loaded : (loadMetadata dir).2 = [])
    (sound : a.report.integrity ≠ .failed ∧ a.sync.status ≠ .syncFailed)
    (written : io.mdf4Written = true) (scenes : opts.onlyScenes = false)
    (asked : uploads cfg opts = true) (uploaded : ∀ file rpt, rpt.pipelineStatus = ascii "success" →
      rpt.sessionId = (loadMetadata dir).1.session.sessionId →
        S3Uploader.uploadSession cfg.s3 (sessionAfter cfg io (some file) rpt) opts.uploadDryRun =
          .ok (.success, report)) :
    ∃ run, runFull cfg opts io dir = .ok run ∧ run.exit = .success ∧
      run.upload = some (.success, report) := by
  obtain ⟨groups, file, prepared, built, -⟩ :=
    readMdf4_exported cfg.stages.gridDtMs a.validRange.tStartNs (loadMetadata dir).1 a.aligned
  have write : writeMdf4 io groups (loadMetadata dir).1 a.validRange.tStartNs = some file := by
    rw [writeMdf4, if_pos written, built]
  have sent := uploaded file (buildSessionReport cfg io a.report a.sync (loadMetadata dir).1 [])
    (if_pos ⟨rfl, sound.1, sound.2⟩) rfl
  suffices ran : ∃ ended : FullRun, ended.mdf4 = some file ∧ runFull cfg opts io dir =
      finishRun cfg opts io ended
        (buildSessionReport cfg io a.report a.sync (loadMetadata dir).1 []) by
    obtain ⟨ended, export_, ran⟩ := ran
    refine ⟨_, ran.trans (finishRun_uploaded asked rfl ?_), rfl, rfl⟩
    rw [export_]
    exact sent
  unfold runFull
  rw [analysed]
  show ∃ ended : FullRun, ended.mdf4 = some file ∧
    exportStages cfg opts io (loadMetadata dir).1 (loadMetadata dir).2 a =
      finishRun cfg opts io ended _
  rw [loaded, exportStages, prepared, scenes]
  simp only [Bool.false_eq_true, if_false, Except.mapError, Except.map, write, bind, Except.bind]
  exact ⟨_, rfl, rfl⟩

def imuFrame (seq tNs : UInt64) : ContractFrame 65536 :=
  ⟨sealFrame 101 seq tNs tNs
    (leBytes 8 seq.toNat ++ leBytes 8 tNs.toNat ++ leBytes 8 tNs.toNat ++ leBytes 4 1 ++
    leBytes 4 0x3f000000 ++ List.replicate 44 0), sealFrame_accepted _ _ _ _ (by simp)⟩

def drivenWrites : List (WriteClock × ContractFrame 65536) :=
  [({}, imuFrame 1 1000000000), ({}, imuFrame 2 1010000000), ({}, imuFrame 3 1020000000)]

def drivenRecording : WriterRun := recording { chunkMaxBytes := 250 } 0 0 drivenWrites 0

def drivenSession : Dir :=
  (drivenRecording.writer.dir.insert (ascii "session_metadata.json") (ascii "\x7b\x7d")).insert
    (ascii "source.bin") []

def lenientConfig : PipelineConfig where
  scan := { minValidDurationS := 0.01 }
  sync := { minConfidence := 0.0 }
  s3 := { S3Uploader.uploadConfig with requirePipelineSuccess := true }

def drivenIo : RunIo where
  fuel := 5
  eventUuid := fun _ => []
  segmentUuid := fun _ => []
  session := S3Uploader.twoFiles

theorem drivenSession_reads :
    ReadsFrames drivenSession (drivenWrites.map fun write => write.2.bytes) := by
  have times : ∀ write ∈ drivenWrites, InTime write.2.bytes := by
    unfold InTime
    decide +kernel
  have files : drivenRecording.writer.chunks.length = 2 ∧
      (drivenWrites.map fun write => write.2.bytes).flatten.length < 2 ^ 63 ∧
      ∀ name ∈ drivenRecording.writer.dir.keys, name ≠ ascii "session_metadata.json" ∧
        name ≠ ascii "source.bin" := by
    decide +kernel
  obtain ⟨chunks, small, others⟩ := files
  refine reads_recording drivenWrites 0 times small (chunks.le.trans (by decide)) fun name member =>
    ?_
  obtain ⟨metadata, source⟩ := others name (AList.mem_keys.mp member)
  rw [drivenSession, AList.lookup_insert_ne source, AList.lookup_insert_ne metadata]
  rfl

def soundSamples (analysed : Except RunFault (Except FullRun Analysis)) :
    Option (List AlignedSample) :=
  match analysed with
  | .ok (.ok a) =>
      if a.report.integrity ≠ .failed ∧ a.sync.status ≠ .syncFailed then some a.aligned else none
  | _ => none

theorem sound_of_soundSamples {analysed : Except RunFault (Except FullRun Analysis)}
    {samples : List AlignedSample} (sound : soundSamples analysed = some samples) :
    ∃ a, analysed = .ok (.ok a) ∧ (a.report.integrity ≠ .failed ∧ a.sync.status ≠ .syncFailed) ∧
      a.aligned = samples := by
  unfold soundSamples at sound
  split at sound
  next a =>
    by_cases both : a.report.integrity ≠ .failed ∧ a.sync.status ≠ .syncFailed
    · rw [if_pos both] at sound
      exact ⟨a, rfl, both, Option.some.inj sound⟩
    · rw [if_neg both] at sound
      cases sound
  next => cases sound

theorem driven_samples :
    (soundSamples (analyse lenientConfig {} drivenIo.fuel drivenSession)).map List.length =
      some 3 := by
  obtain ⟨manifest, read, chunks, packets⟩ := drivenSession_reads.packets
  have accepted : ∀ frame ∈ drivenWrites.map fun write => write.2.bytes, ∃ m, Accepted m frame :=
    fun frame member => by
    obtain ⟨write, -, rfl⟩ := List.mem_map.mp member
    exact ⟨_, write.2.accepted⟩
  rw [manifestName] at read
  have scanned := scanEgoLog_accepted lenientConfig.scan accepted packets chunks
  rw [analyse, read]
  dsimp only
  rw [scanned]
  decide +kernel

theorem readPipelineStatus_of_text {io : SessionIo} {text : Bytes}
    (written : io.reportText = some text) :
    S3Uploader.readPipelineStatus io = jsonGetString text (ascii "pipeline_status") := by
  rw [S3Uploader.readPipelineStatus, written]

theorem readSessionId_of_unnamed {io : SessionIo} {text : Bytes}
    (written : io.reportText = some text) (unnamed : jsonGetString text (ascii "session_id") = []) :
    S3Uploader.readSessionId io = io.sessionDirName := by
  rw [S3Uploader.readSessionId, written]
  exact if_neg (not_not.mpr unnamed)

theorem uploadSession_twoFiles {io : SessionIo}
    (status : S3Uploader.readPipelineStatus io = ascii "success")
    (id : S3Uploader.readSessionId io = ascii "s1") (time : io.generatedAtUtc = [])
    (files : io.offlineFile = S3Uploader.twoFiles.offlineFile) :
    S3Uploader.uploadSession lenientConfig.s3 io false =
      .ok (.success, some S3Uploader.twoFilesReport) := by
  have gate : S3Uploader.gateBlocked lenientConfig.s3 io (ascii "success") = none := rfl
  have reports : S3Uploader.collectFiles lenientConfig.s3 io =
      [S3Uploader.openFile, S3Uploader.refusedFile] := by
    rw [S3Uploader.collectFiles, files]
    rfl
  have others : S3Uploader.collectSessionFiles lenientConfig.s3 io = [] := rfl
  rw [S3Uploader.uploadSession, status, gate, id, time, reports, others]
  rfl

theorem driven_metadata :
    ∃ bundle, loadMetadata drivenSession = (bundle, []) ∧ bundle.session.sessionId = [] := by
  have text : drivenSession.lookup (ascii "session_metadata.json") = some (ascii "\x7b\x7d") := by
    rw [drivenSession, AList.lookup_insert_ne (by decide), AList.lookup_insert]
  have read : (jsonLoad [] drivenSession (ascii "session_metadata.json")).map
      SessionMetadata.ofJson = .ok {} := by
    rw [jsonLoad, text]
    rfl
  rw [loadMetadata, SessionBundle.load, read]
  exact ⟨_, rfl, rfl⟩

theorem driven_runs :
    ∃ run, runFull lenientConfig {} drivenIo drivenSession = .ok run ∧ run.exit = .success ∧
    run.upload = some (.success, some S3Uploader.twoFilesReport) := by
  obtain ⟨samples, found, -⟩ := Option.map_eq_some_iff.mp driven_samples
  obtain ⟨a, analysed, sound, -⟩ := sound_of_soundSamples found
  obtain ⟨bundle, loaded, unnamed⟩ := driven_metadata
  refine runFull_of_analysis analysed
    (congrArg Prod.snd loaded) sound rfl rfl rfl fun file rpt status id => ?_
  rw [loaded, unnamed] at id
  have success : cutValue (ascii "success") = ascii "success" := by decide
  have none : jsonGetString rpt.toJson (ascii "session_id") = [] := by
    rw [rpt.jsonGetString_sessionId, id]
    rfl
  have written : (sessionAfter lenientConfig drivenIo (some file) rpt).reportText =
      some rpt.toJson := rfl
  refine uploadSession_twoFiles ?_ (readSessionId_of_unnamed written none) rfl rfl
  rw [readPipelineStatus_of_text written, rpt.jsonGetString_pipelineStatus, status, success]

theorem driven_uploaded :
    ∃ run file bundle, runFull lenientConfig {} drivenIo drivenSession = .ok run ∧
    run.mdf4 = some file ∧ SessionBundle.load [] drivenSession = .ok bundle := by
  obtain ⟨run, ran, -, upload⟩ := driven_runs
  obtain ⟨a, bundle, file, -, loaded, -, -, -, written, -⟩ :=
    uploaded_run ran upload (List.mem_cons_self (a := S3Uploader.uploadedResult)) rfl rfl rfl
  exact ⟨run, file, bundle, ran, written, loaded⟩

theorem driven_completed :
    ∃ run file report, runFull lenientConfig {} drivenIo drivenSession = .ok run ∧
    run.mdf4 = some file ∧ run.upload = some (.success, report) := by
  obtain ⟨run, ran, exit, -⟩ := driven_runs
  obtain ⟨a, bundle, file, -, -, written, -, uploaded⟩ := completed_run ran exit rfl rfl rfl rfl
  obtain ⟨report, upload⟩ := uploaded (by decide)
  exact ⟨run, file, report, ran, written, upload⟩

end Pipeline
end LocalPC.Offline
