import LocalPC.Runtime.CleanSession
import LocalPC.Runtime.RuntimeService

/-!
# File ingest

`RunDaemon` with an input file (`sync_file_mode_`): a session is started, the frames of the file are
handed to `OnContractFrame`, and the session is stopped. There is no receiver and no writer thread, so
every function runs from its start to its end.
-/

namespace LocalPC.Runtime
open Lib Contract

/-! ## The drain -/

namespace RuntimeService
variable {config : RuntimeConfig}

def queued (s : RuntimeService config) : Nat := (s.buffer.map PacketBuffer.size).getD 0

/-- The inner loop of `DrainPacketBuffer` over `n` packets: whether the drain goes on, and
`wrote_any`. -/
def drainPackets (io : Nat → WriteIo) :
    Nat → Bool → RuntimeService config → Bool × Bool × RuntimeService config
  | 0, wroteAny, s => (true, wroteAny, s)
  | n + 1, wroteAny, s =>
      match s.buffer.bind PacketBuffer.pop with
      | none => (true, wroteAny, s)
      | some (frame, buffer) =>
          let result := writeFrame (io n) frame.bytes { s with buffer := some buffer }
          if result.1 then drainPackets io n true result.2
          else if result.2.errorLog then (false, true, result.2.writeFailed)
          else drainPackets io n true result.2

def drainAttempts (io : Nat → Nat → WriteIo) : Nat → RuntimeService config → RuntimeService config
  | 0, s => s
  | attempts + 1, s =>
      match drainPackets (io attempts) s.queued false s with
      | (false, _, s) => s
      | (true, wroteAny, s) => if !wroteAny && s.queued == 0 then s else drainAttempts io attempts s

def drainPacketBuffer (io : Nat → Nat → WriteIo) (s : RuntimeService config) :
    RuntimeService config :=
  if s.buffer.isNone || s.writer.isNone then s else drainAttempts io 200 s

/-- The end of `OnContractFrame` for a frame of the session that is being recorded. -/
def storeFrame (io : WriteIo) (frame : ContractFrame config.maxPayloadBytes)
    (s : RuntimeService config) :
    RuntimeService config :=
  if s.writer.isSome then (s.writeFrame io frame.bytes).2 else s.pushFrame frame

theorem drainPacketBuffer_empty {s : RuntimeService config} (empty : s.queued = 0)
    (io : Nat → Nat → WriteIo) :
    s.drainPacketBuffer io = s := by
  unfold drainPacketBuffer
  split
  · rfl
  · rw [drainAttempts, empty, drainPackets]
    simp [empty]

end RuntimeService

/-! ## The ingest -/

structure SyncStopIo extends FinalizeIo where
  drain : Nat → Nat → WriteIo

structure FrameIo where
  start : StartIo
  write : WriteIo
  stop : SyncStopIo

structure IngestIo where
  start : StartIo
  frame : Nat → FrameIo
  stop : SyncStopIo

structure IngestedSession extends FinishedSession where
  chunks : List ChunkInfo

structure FileIngest (config : RuntimeConfig) where
  service : RuntimeService config := {}
  finished : List IngestedSession := []
  /-- The directories that `TriggerOfflinePipeline` was called with. -/
  triggered : List Bytes := []

namespace FileIngest
variable {config : RuntimeConfig}

def finalizeActiveSession (io : SyncStopIo) (reason : Bytes)
    (s : FileIngest config) : FileIngest config :=
  let sessionDir := s.service.sessions.sessionDir
  let service := (s.service.closeWriter io.close).markStopped io.toFinalizeIo reason
  let summary := service.finalSummary io.durationSec reason
  let service := (service.writeFinalSummary io.summary summary).writeRuntimeReport io.report
  let session := service.finished summary io.close.manifest
  { service := service.release
    finished := s.finished ++
      [{ session with chunks := (service.writer.map fun run => run.writer.chunks).getD [] }]
    triggered := if sessionDir = [] then s.triggered else s.triggered ++ [sessionDir] }

def stopRecording (io : SyncStopIo) (reason : Bytes) (s : FileIngest config) : FileIngest config :=
  if s.service.finalizeInProgress then s
  else if s.service.state ≠ .kRecording ∧ s.service.state ≠ .kStopping then s
  else
    let service : RuntimeService config :=
      { s.service with finalizeInProgress := true, sessions := (s.service.sessions.stop reason).2 }
    let s := finalizeActiveSession io reason
        { s with service := service.drainPacketBuffer io.drain }
    { s with service := { s.service with finalizeInProgress := false } }

def onContractFrame (io : FrameIo) (bytes : Bytes) (s : FileIngest config) : FileIngest config :=
  match valid : validateContractFrame bytes config.maxPayloadBytes with
  | .error error => { s with service := s.service.rejectFrame error }
  | .ok () =>
      let frame : ContractFrame config.maxPayloadBytes := ⟨bytes, valid⟩
      let s := if s.service.autoStarts frame.header
          then { s with service := (s.service.startRecording io.start).2 } else s
      if s.service.endsSession frame.header then s.stopRecording io.stop (ascii "session_ended")
      else
        let service := s.service.countFrame frame.header
        { s with service := if service.state ≠ .kRecording then service
          else service.storeFrame io.write frame }

/-- The handler of `ProcessFileInput`, with the number of frames that it has been called for. -/
def handleFrame (io : Nat → FrameIo) (seen : Nat × FileIngest config) (frame : Bytes) :
    Nat × FileIngest config :=
  (seen.1 + 1, seen.2.onContractFrame (io seen.1) frame)

def processFileInput (io : Nat → FrameIo) (bytes : Bytes)
    (s : FileIngest config) : FileIngest config :=
  (forEachContractFrame config.maxPayloadBytes
    (fun frame seen => (true, handleFrame io seen frame)) bytes (0, s)).state.2

end FileIngest

/-- `RunDaemon` for an input file with these bytes. -/
def ingest (config : RuntimeConfig) (io : IngestIo) (bytes : Bytes) : FileIngest config :=
  let started := RuntimeService.startRecording io.start ({} : RuntimeService config)
  if started.1 ≠ .kOk then { service := started.2 }
  else (FileIngest.processFileInput io.frame bytes { service := started.2 }).stopRecording
    io.stop (ascii "file_eof")

/-! ## What a session has recorded -/

/-- The chunk files of a directory, one after another. -/
def Dir.log (dir : Dir) : Bytes :=
  ((List.range dir.chunks.length).map fun i => dir.content (chunkFilename i)).flatten

theorem Dir.log_withTexts (writes : List SideWrite) (dir : Dir) :
    (dir.withTexts writes).log = dir.log := by
  have content (i : Nat) : (dir.withTexts writes).content (chunkFilename i) =
      dir.content (chunkFilename i) := by
    rw [Dir.content,
      dir.lookup_withTexts (notSide_of_isChunkFile (isChunkFile_chunkFilename i)), Dir.content]
  rw [Dir.log, Dir.chunks_withTexts, Dir.log]
  simp only [content]

theorem log_history {logs : List ChunkLog} {run : WriterRun} (history : History logs run)
    (intact : Intact logs) :
    run.writer.dir.log = run.written.flatten := by
  have written := writtenTo_history history intact
  have count : run.writer.dir.chunks.length = (framesOf logs).length := by
    rw [history.1.files.chunks_perm.length_eq, List.length_map, framesOf, List.length_map]
  have files : (List.range (framesOf logs).length).map
      (fun i => run.writer.dir.content (chunkFilename i)) =
      (framesOf logs).map List.flatten := by
    refine List.ext_getElem (by simp) fun i _ _ => ?_
    rw [List.getElem_map, List.getElem_map, List.getElem_range, Dir.content,
      written.files i _ (List.getElem?_eq_getElem _), Option.getD_some]
  rw [Dir.log, count, files, ← written.frames, List.flatten_flatten]

namespace FileIngest
variable {config : RuntimeConfig} {now openNow : Int}
  {writes : List (WriteClock × ContractFrame config.maxPayloadBytes)} {s : FileIngest config}

structure IsRecording (now openNow : Int)
    (writes : List (WriteClock × ContractFrame config.maxPayloadBytes))
    (s : FileIngest config) : Prop where
  state : s.service.state = .kRecording
  free : s.service.finalizeInProgress = false
  empty : s.service.queued = 0
  writer : s.service.writer =
    some (writes.foldl WriterRun.record (recordingStart config now openNow))
  finished : s.finished = []

structure IsClosed (now openNow : Int)
    (writes : List (WriteClock × ContractFrame config.maxPayloadBytes))
    (s : FileIngest config) : Prop where
  state : s.service.state = .kClosed
  free : s.service.finalizeInProgress = false
  finished : ∃ session closeNow, s.finished = [session] ∧
    session.dir = (recording config now openNow writes closeNow).writer.dir.withTexts session.side ∧
    session.chunks = (recording config now openNow writes closeNow).writer.chunks

theorem finished_finalizeActiveSession (io : SyncStopIo) (reason : Bytes) {run : WriterRun}
    (held : s.service.writer = some run) :
    ∃ session, (s.finalizeActiveSession io reason).finished = s.finished ++ [session] ∧
      session.dir = (run.step (.close io.close)).writer.dir.withTexts session.side ∧
      session.chunks = (run.step (.close io.close)).writer.chunks := by
  have closed : (s.service.closeWriter io.close).writer = some (run.step (.close io.close)) :=
    congrArg (Option.map _) held
  refine ⟨_, rfl, ?_, ?_⟩
  · show (RuntimeService.finished _ _ _).dir = _
    exact @RuntimeService.dir_finished _ _ (run.step (.close io.close)) (by exact closed) _ _
  · show ((s.service.closeWriter io.close).writer.map _).getD [] = _
    rw [closed]
    rfl

theorem IsRecording.stop (recorded : IsRecording now openNow writes s)
    {io : SyncStopIo} {closeNow : Int} (clean : io.close = .clean closeNow) (reason : Bytes) :
    IsClosed now openNow writes (s.stopRecording io reason) := by
  let stopping : RuntimeService config :=
    { s.service with finalizeInProgress := true, sessions := (s.service.sessions.stop reason).2 }
  have drained : stopping.drainPacketBuffer io.drain = stopping :=
    RuntimeService.drainPacketBuffer_empty (s := stopping) recorded.empty io.drain
  have stopped : stopping.sessions.state ≠ .kIdle := by
    have stops := SessionManager.state_stop reason s.service.sessions
    rw [if_pos (show s.service.sessions.state = .kRecording from recorded.state)] at stops
    exact stops ▸ by decide
  unfold stopRecording
  rw [if_neg (by rw [recorded.free]; decide), if_neg (by simp [recorded.state])]
  dsimp only
  rw [drained]
  obtain ⟨session, finished, dir, chunks⟩ :=
    finished_finalizeActiveSession (s := { s with service := stopping }) io reason recorded.writer
  rw [clean] at dir chunks
  refine ⟨SessionManager.state_markStopped stopped _ _, rfl, session, closeNow, ?_, dir, chunks⟩
  exact finished.trans (congrArg (· ++ [session]) recorded.finished)

theorem IsClosed.stop (closed : IsClosed now openNow writes s) (io : SyncStopIo) (reason : Bytes) :
    s.stopRecording io reason = s := by
  unfold stopRecording
  rw [if_neg (by rw [closed.free]; decide), if_pos (by simp [closed.state])]

theorem onContractFrame_eq (io : FrameIo)
    (frame : ContractFrame config.maxPayloadBytes) (s : FileIngest config)
    (started : s.service.state ≠ .kIdle) :
    s.onContractFrame io frame.bytes =
      if s.service.endsSession frame.header then s.stopRecording io.stop (ascii "session_ended")
      else
        { s with
          service :=
            if (s.service.countFrame frame.header).state ≠ .kRecording then
              s.service.countFrame frame.header
            else (s.service.countFrame frame.header).storeFrame io.write frame } := by
  have noStart : s.service.autoStarts frame.header = false := by
    unfold RuntimeService.autoStarts
    simp [started]
  unfold onContractFrame
  split
  · rename_i error invalid
    cases frame.accepted.symm.trans invalid
  · rename_i valid
    have same : (⟨frame.bytes, valid⟩ : ContractFrame config.maxPayloadBytes) = frame := rfl
    dsimp only
    rw [same, noStart]
    rfl

theorem IsClosed.frame (closed : IsClosed now openNow writes s) (io : FrameIo)
    (frame : ContractFrame config.maxPayloadBytes) :
    IsClosed now openNow writes (s.onContractFrame io frame.bytes) := by
  have same := RuntimeService.sameSession_countFrame frame.header s.service
  have counted : (s.service.countFrame frame.header).state = .kClosed :=
    (congrArg SessionManager.state same.sessions).trans closed.state
  have noEnd : s.service.endsSession frame.header = false := by
    unfold RuntimeService.endsSession
    simp [closed.state]
  rw [onContractFrame_eq io frame s (by rw [closed.state]; decide), noEnd,
    if_neg Bool.false_ne_true, if_pos (by rw [counted]; decide)]
  exact ⟨counted, same.finalizeInProgress.trans closed.free, closed.finished⟩

theorem IsRecording.ends (recorded : IsRecording now openNow writes s)
    {io : FrameIo} {closeNow : Int} (clean : io.stop.close = .clean closeNow)
    (frame : ContractFrame config.maxPayloadBytes) (ended : frame.header.frameType = sessionEnded) :
    IsClosed now openNow writes (s.onContractFrame io frame.bytes) := by
  have ends : s.service.endsSession frame.header = true := by
    unfold RuntimeService.endsSession
    simp [ended, recorded.state]
  rw [onContractFrame_eq io frame s (by rw [recorded.state]; decide), ends, if_pos rfl]
  exact recorded.stop clean _

theorem IsRecording.frame (recorded : IsRecording now openNow writes s)
    {io : FrameIo} {clock : WriteClock} (clean : io.write = .clean clock)
    (frame : ContractFrame config.maxPayloadBytes) (data : frame.header.frameType ≠ sessionEnded) :
    IsRecording now openNow (writes ++ [(clock, frame)]) (s.onContractFrame io frame.bytes) := by
  have same := RuntimeService.sameSession_countFrame frame.header s.service
  have counted : (s.service.countFrame frame.header).state = .kRecording :=
    (congrArg SessionManager.state same.sessions).trans recorded.state
  have noEnd : s.service.endsSession frame.header = false := by
    unfold RuntimeService.endsSession
    simp [data]
  have writer := same.writer.trans recorded.writer
  have done : ((writes.foldl WriterRun.record
      (recordingStart config now openNow)).writer.writeContractFrame
      (.clean clock) frame.bytes).1 = true := by rw [(steady_foldl writes).write]
  have stored : (s.service.countFrame frame.header).storeFrame io.write frame =
      { s.service.countFrame frame.header with
        writer := some ((writes ++ [(clock, frame)]).foldl WriterRun.record
          (recordingStart config now openNow))
        diagnostics :=
          (s.service.countFrame frame.header).diagnostics.onPacketWritten frame.bytes.length } := by
    unfold RuntimeService.storeFrame
    rw [if_pos (by rw [writer]; rfl), RuntimeService.writeFrame_some writer, clean,
      if_pos done, List.foldl_append]
    rfl
  rw [onContractFrame_eq io frame s (by rw [recorded.state]; decide), noEnd,
    if_neg Bool.false_ne_true, if_neg (not_not.mpr counted), stored]
  refine ⟨counted, same.finalizeInProgress.trans recorded.free, ?_, rfl, recorded.finished⟩
  show ((s.service.countFrame frame.header).buffer.map PacketBuffer.size).getD 0 = 0
  rw [same.buffer]
  exact recorded.empty

/-! ## A run -/

/-- The frames before the first one that ends the session. -/
def beforeEnd (frames : List Bytes) : List Bytes :=
  frames.takeWhile fun frame => (EgoFrameHeader.decode frame).frameType ≠ sessionEnded

theorem closed_run (io : Nat → FrameIo) {frames : List Bytes}
    (accepted : ∀ frame ∈ frames, Accepted config.maxPayloadBytes frame) (n : Nat)
    (closed : IsClosed now openNow writes s) :
    IsClosed now openNow writes (frames.foldl (handleFrame io) (n, s)).2 := by
  induction frames generalizing n s with
  | nil => exact closed
  | cons frame frames ih =>
      obtain ⟨here, rest⟩ := List.forall_mem_cons.mp accepted
      exact ih rest (n + 1) (closed.frame (io n) ⟨frame, here⟩)

theorem recorded_run {io : Nat → FrameIo} (cleanWrite : ∀ i, ∃ clock, (io i).write = .clean clock)
    (cleanClose : ∀ i, ∃ closeNow, (io i).stop.close = .clean closeNow) {frames : List Bytes}
    (accepted : ∀ frame ∈ frames, Accepted config.maxPayloadBytes frame) (n : Nat)
    (recorded : IsRecording now openNow writes s) :
    ∃ later : List (WriteClock × ContractFrame config.maxPayloadBytes),
      (later.map fun write => write.2.bytes) =
        (writes.map fun write => write.2.bytes) ++ beforeEnd frames ∧
      (IsRecording now openNow later (frames.foldl (handleFrame io) (n, s)).2 ∨
        IsClosed now openNow later (frames.foldl (handleFrame io) (n, s)).2) := by
  induction frames generalizing n s writes with
  | nil => exact ⟨writes, (List.append_nil _).symm, Or.inl recorded⟩
  | cons frame frames ih =>
      obtain ⟨here, rest⟩ := List.forall_mem_cons.mp accepted
      by_cases ended : (EgoFrameHeader.decode frame).frameType = sessionEnded
      · obtain ⟨closeNow, clean⟩ := cleanClose n
        refine ⟨writes, ?_,
          Or.inr (closed_run io rest (n + 1) (recorded.ends clean ⟨frame, here⟩ ended))⟩
        simp [beforeEnd, ended]
      · obtain ⟨clock, clean⟩ := cleanWrite n
        obtain ⟨later, bytes, run⟩ := ih rest (n + 1) (recorded.frame clean ⟨frame, here⟩ ended)
        refine ⟨later, ?_, run⟩
        rw [bytes]
        simp [beforeEnd, ended]

end FileIngest

/-- The frames are the longest prefix that is a sequence of valid frames. -/
structure LongestFrames (m : UInt32) (frames : List Bytes) (bytes : Bytes) : Prop where
  accepted : ∀ frame ∈ frames, Accepted m frame
  starts : frames.flatten <+: bytes
  longest : ∀ others : List Bytes, (∀ frame ∈ others, Accepted m frame) → others.flatten <+: bytes →
    others.flatten <+: frames.flatten

theorem longestFrames_records (m : UInt32) (bytes : Bytes) :
    LongestFrames m ((contractFormat m).records bytes) bytes where
  accepted frame member := isRecord_iff.mp (RecordFormat.isRecord_of_mem_records bytes frame member)
  starts := ⟨_, RecordFormat.records_flatten bytes⟩
  longest others accepted starts := by
    obtain ⟨rest, rfl⟩ := starts
    rw [RecordFormat.records_append fun frame member =>
      isRecord_iff.mpr (accepted frame member), List.flatten_append]
    exact List.prefix_append ..

/-- All operations on the files of the writer succeed. -/
structure IngestIo.Clean (io : IngestIo) : Prop where
  opens : ∃ now, io.start.openIo = .clean now
  writes : ∀ i, ∃ clock, (io.frame i).write = .clean clock
  ends : ∀ i, ∃ now, (io.frame i).stop.close = .clean now
  closes : ∃ now, io.stop.close = .clean now

theorem ingest_recording {config : RuntimeConfig} {io : IngestIo}
    (clean : io.Clean) (bytes : Bytes) :
    ∃ (openNow closeNow : Int) (writes : List (WriteClock × ContractFrame config.maxPayloadBytes))
      (session : IngestedSession),
      (writes.map fun write => write.2.bytes) =
        FileIngest.beforeEnd ((contractFormat config.maxPayloadBytes).records bytes) ∧
      (ingest config io bytes).finished = [session] ∧
      session.dir =
        (recording config io.start.now openNow writes closeNow).writer.dir.withTexts session.side ∧
      session.chunks = (recording config io.start.now openNow writes closeNow).writer.chunks := by
  obtain ⟨openNow, opens⟩ := clean.opens
  obtain ⟨now, closes⟩ := clean.closes
  have opened : RuntimeService.opens config io.start = true := by
    unfold RuntimeService.opens
    rw [opens]
    rfl
  let started := (RuntimeService.startRecording io.start ({} : RuntimeService config))
  have ok : started.1 = .kOk := by
    simp [started, RuntimeService.startRecording, SessionManager.start,
      SessionManager.state, opened]
  have recorded : FileIngest.IsRecording io.start.now openNow []
      ({ service := started.2 } : FileIngest config) := by
    have made : started.2 = { RuntimeService.equip io.start
        { ({} : RuntimeService config) with
          sessions := { active := some (.fresh config io.start.clock 0), ids := 1 } } with
        side := RuntimeService.startTexts config io.start } := by
      simp only [started, RuntimeService.startRecording, SessionManager.start,
        SessionManager.state, opened]
      rfl
    rw [made]
    refine ⟨rfl, rfl, rfl, ?_, rfl⟩
    show some ((WriterRun.fresh config io.start.now).step (.open io.start.openIo)) = _
    rw [opens]
    rfl
  have accepted := (longestFrames_records config.maxPayloadBytes bytes).accepted
  obtain ⟨writes, frames, run⟩ :=
    FileIngest.recorded_run clean.writes clean.ends accepted 0 recorded
  have processed : FileIngest.processFileInput io.frame bytes { service := started.2 } =
      (((contractFormat config.maxPayloadBytes).records bytes).foldl
        (FileIngest.handleFrame io.frame)
        (0, { service := started.2 })).2 := by
    unfold FileIngest.processFileInput
    rw [(forEachContractFrame_all _ _ bytes _).1]
  have closed : FileIngest.IsClosed io.start.now openNow writes (ingest config io bytes) := by
    unfold ingest
    dsimp only
    rw [if_neg (not_not.mpr ok), processed]
    rcases run with recording | closed
    · exact recording.stop closes _
    · rw [closed.stop]
      exact closed
  obtain ⟨session, closeNow, finished, dir, chunks⟩ := closed.finished
  exact ⟨openNow, closeNow, writes, session, frames, finished, dir, chunks⟩

def quietIngest : IngestIo where
  start := { now := 0, openIo := .clean 0 }
  frame _ :=
    { start := { now := 0, openIo := .clean 0 }
      write := .clean {}
      stop := { close := .clean 0, drain := fun _ _ => .clean {} } }
  stop := { close := .clean 0, drain := fun _ _ => .clean {} }

theorem quietIngest_clean : quietIngest.Clean where
  opens := ⟨0, rfl⟩
  writes _ := ⟨{}, rfl⟩
  ends _ := ⟨0, rfl⟩
  closes := ⟨0, rfl⟩

/-- One session is finalised, and its chunk files hold the valid frames of the input up to the end
of the session, as long as the chunk ids do not wrap. -/
theorem ingest_preserves (config : RuntimeConfig) {io : IngestIo}
    (clean : io.Clean) (bytes : Bytes) :
    ∃ frames session, LongestFrames config.maxPayloadBytes frames bytes ∧
      (ingest config io bytes).finished = [session] ∧
      (session.chunks.length ≤ 2 ^ 32 →
        session.dir.log = (FileIngest.beforeEnd frames).flatten) := by
  obtain ⟨openNow, closeNow, writes, session, frames, finished, dir, chunks⟩ :=
    ingest_recording clean bytes
  refine ⟨_, session, longestFrames_records config.maxPayloadBytes bytes, finished, fun few => ?_⟩
  rw [chunks] at few
  obtain ⟨logs, history, intact⟩ := history_recording writes closeNow few
  rw [dir, Dir.log_withTexts, log_history history intact, recording_written, frames]

theorem quietIngest_preserves :
    ∃ frames session, LongestFrames 65536 frames (sealFrame 100 7 10 11 [1]) ∧
    (ingest {} quietIngest (sealFrame 100 7 10 11 [1])).finished = [session] ∧
    (session.chunks.length ≤ 2 ^ 32 → session.dir.log = (FileIngest.beforeEnd frames).flatten) :=
  ingest_preserves {} quietIngest_clean _

/-! ## Too many chunks -/

theorem LongestFrames.eq_records {m : UInt32} {frames : List Bytes} {bytes : Bytes}
    (longest : LongestFrames m frames bytes) :
    frames = (contractFormat m).records bytes := by
  have other := longestFrames_records m bytes
  have same : frames.flatten = ((contractFormat m).records bytes).flatten :=
    List.IsPrefix.eq_of_length_le (other.longest _ longest.accepted longest.starts)
      (longest.longest _ other.accepted other.starts).length_le
  have read := congrArg (contractFormat m).records same
  rwa [RecordFormat.records_of_flatten fun frame member =>
    isRecord_iff.mpr (longest.accepted frame member),
      RecordFormat.records_of_flatten fun frame member =>
        isRecord_iff.mpr (other.accepted frame member)] at read

theorem length_log_le {dir : Dir} {most : Nat} (own : OwnNames dir)
    (small : ∀ id : UInt32, (dir.content (chunkFilename id.toNat)).length ≤ most) :
    dir.log.length ≤ 2 ^ 32 * most := by
  have few := own.length_chunks_le
  have each : ∀ n ∈ (List.range dir.chunks.length).map fun i =>
      (dir.content (chunkFilename i)).length, n ≤ most := by
    intro n member
    obtain ⟨i, inside, rfl⟩ := List.mem_map.mp member
    have id : (UInt32.ofNat i).toNat = i := by
      rw [UInt32.toNat_ofNat']
      exact Nat.mod_eq_of_lt (Nat.lt_of_lt_of_le (List.mem_range.mp inside) few)
    have bound := small (UInt32.ofNat i)
    rwa [id] at bound
  have sum : _ ≤ _ * most := List.sum_le_card_nsmul _ _ each
  rw [List.length_map, List.length_range] at sum
  rw [Dir.log, List.length_flatten, List.map_map]
  exact sum.trans (Nat.mul_le_mul_right _ few)

theorem records_tinyFrames (n : Nat) :
    (contractFormat 65536).records (List.replicate n tinyFrame.bytes).flatten =
      List.replicate n tinyFrame.bytes := by
  refine RecordFormat.records_of_flatten fun frame member => isRecord_iff.mpr ?_
  rw [List.eq_of_mem_replicate member]
  exact tinyFrame.accepted

theorem le_of_tinyIngest {n : Nat} {session : IngestedSession}
    (finished : (ingest { chunkMaxBytes := 1 } quietIngest
      (List.replicate n tinyFrame.bytes).flatten).finished = [session])
    (log : session.dir.log = (List.replicate n tinyFrame.bytes).flatten) : n ≤ 2 ^ 32 := by
  obtain ⟨openNow, closeNow, writes, session', frames, finished', dir, -⟩ :=
    @ingest_recording { chunkMaxBytes := 1 } quietIngest quietIngest_clean
      (List.replicate n tinyFrame.bytes).flatten
  obtain rfl : session = session' := List.singleton_inj.mp (finished.symm.trans finished')
  have size : ∀ write ∈ writes, write.2.bytes.length ≤ egoFrameHeaderSize := by
    intro write member
    have listed := (List.takeWhile_sublist _).subset (frames ▸ List.mem_map_of_mem member)
    rw [records_tinyFrames] at listed
    rw [List.eq_of_mem_replicate listed]
    exact length_tinyFrame.le
  have small :=
    smallFiles_recording { chunkMaxBytes := 1 } quietIngest.start.now openNow
      closeNow (by decide) size
  have own : OwnNames
      (recording { chunkMaxBytes := 1 } quietIngest.start.now openNow writes closeNow).writer.dir :=
    OwnNames.recording _ _ _ _ _
  have bound :=
    length_log_le own fun id => Nat.le_of_lt_succ ((small.small id).trans_eq (Nat.add_comm ..))
  rw [← Dir.log_withTexts session.side, ← dir, log, List.length_flatten, List.map_replicate,
    List.sum_replicate, length_tinyFrame] at bound
  exact Nat.le_of_mul_le_mul_right bound (by decide)

theorem tinyIngest_fails : ¬ ∀ (config : RuntimeConfig) (io : IngestIo), io.Clean → ∀ bytes,
    ∃ frames session, LongestFrames config.maxPayloadBytes frames bytes ∧
      (ingest config io bytes).finished = [session] ∧
        session.dir.log = (FileIngest.beforeEnd frames).flatten := by
  intro always
  obtain ⟨frames, session, longest, finished, log⟩ :=
    always { chunkMaxBytes := 1 } quietIngest quietIngest_clean
    (List.replicate (2 ^ 32 + 1) tinyFrame.bytes).flatten
  have records : frames = List.replicate (2 ^ 32 + 1) tinyFrame.bytes :=
    longest.eq_records.trans (records_tinyFrames _)
  have all : FileIngest.beforeEnd frames = frames := by
    refine List.takeWhile_eq_self_iff.mpr fun frame member => ?_
    rw [records] at member
    rw [List.eq_of_mem_replicate member]
    decide
  rw [all, records] at log
  exact absurd (le_of_tinyIngest finished log) (by decide)

end LocalPC.Runtime
