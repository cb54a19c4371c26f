import LocalPC.Lib.FloatText
import LocalPC.Runtime.ChunkWriterRuns
import LocalPC.Runtime.Diagnostics
import LocalPC.Runtime.PacketBuffer
import LocalPC.Runtime.SessionIntegrity
import LocalPC.Runtime.SessionMetadata

/-!
# The runtime service

`runtime_service.cpp`: the fields of the service and the parts of its member functions that run
without a thread switch. Every session gets a directory of its own with its start: the files of its
writer, and the text files that are written beside them.
-/

namespace LocalPC.Runtime
open Lib Contract

def sessionStarted : UInt32 := 1
def sessionEnded : UInt32 := 900

structure StartIo where
  now : Int
  openIo : OpenIo
  clock : SessionClock := {}
  scenario : TextWrite := .done

structure ReportIo where
  outcome : TextWrite := .done
  text : Bytes := []

/-- `FinalizeActiveSession` from the closing of the writer on. -/
structure FinalizeIo where
  close : FlushIo
  utc : Bytes := []
  metadata : TextWrite := .done
  durationSec : Float := 0
  summary : TextWrite := .done
  report : ReportIo := {}

structure FinalSummary where
  stopReason : Bytes
  durationSec : Float
  packetsReceived : Nat
  packetsWritten : Nat
  badPackets : Nat
  packetLoss : UInt64
  integrity : IntegrityReport

def IntegrityResult.text : IntegrityResult → Bytes
  | .kOk => ascii "ok"
  | .kWarning => ascii "warning"
  | .kFailed => ascii "failed"

def finalSummaryJson (summary : FinalSummary) : Bytes :=
  ascii "\x7b\n" ++
  ascii "  \"stop_reason\": \"" ++ jsonEscape summary.stopReason ++ ascii "\",\n" ++
  ascii "  \"duration_sec\": " ++ (defaultfloat 6 summary.durationSec).bytes ++ ascii ",\n" ++
  ascii "  \"packets_received\": " ++ decimal summary.packetsReceived ++ ascii ",\n" ++
  ascii "  \"packets_written\": " ++ decimal summary.packetsWritten ++ ascii ",\n" ++
  ascii "  \"bad_packets\": " ++ decimal summary.badPackets ++ ascii ",\n" ++
  ascii "  \"packet_loss\": " ++ decimal summary.packetLoss.toNat ++ ascii ",\n" ++
  ascii "  \"integrity\": \"" ++ summary.integrity.result.text ++ ascii "\",\n" ++
  ascii "  \"integrity_detail\": \"" ++ jsonEscape
    (ascii summary.integrity.detail) ++ ascii "\"\n" ++
  ascii "\x7d\n"

structure FinishedSession where
  number : Nat
  texts : SessionTexts
  summary : FinalSummary
  writer : Option ChunkWriter
  manifest : TextWrite
  side : List SideWrite
  /-- `Dropped()` of the packet buffer when it is deleted. -/
  dropped : Nat

def FinishedSession.dir (session : FinishedSession) : Dir :=
  ((session.writer.map ChunkWriter.dir).getD ∅).withTexts session.side

structure RuntimeService (config : RuntimeConfig) where
  sessions : SessionManager := {}
  errorLog : Bool := false
  buffer : Option (PacketBuffer (ContractFrame config.maxPayloadBytes)) := none
  writer : Option WriterRun := none
  side : List SideWrite := []
  diagnostics : DiagnosticsCollector := {}
  stopThreads : Bool := false
  finalizeInProgress : Bool := false
  lastTsNs : UInt64 := 0
  seenTs : Bool := false
  seqInitialized : Bool := false
  lastSeq : UInt64 := 0

namespace RuntimeService
variable {config : RuntimeConfig}

def state (s : RuntimeService config) : SessionState := s.sessions.state

/-! ## Text files -/

def activeTexts (s : RuntimeService config) : Option SessionTexts :=
  s.sessions.active.map SessionInfo.toSessionTexts

def writeSessionMetadata (outcome : TextWrite) (s : RuntimeService config) :
    RuntimeService config :=
  { s with side := s.side ++ sessionMetadataWrites outcome config.texts s.activeTexts }

def writeScenarioMetadata (outcome : TextWrite) (scenario : ScenarioMetadata)
    (s : RuntimeService config) :
    RuntimeService config :=
  { s with side := s.side ++ scenarioMetadataWrites outcome s.activeTexts scenario }

def runtimeReportWrites (io : ReportIo) (s : RuntimeService config) : List SideWrite :=
  if s.sessions.sessionDir = [] then [] else [⟨.runtimeReport, io.outcome, io.text⟩]

def writeRuntimeReport (io : ReportIo) (s : RuntimeService config) : RuntimeService config :=
  { s with side := s.side ++ s.runtimeReportWrites io }

def writeFinalSummary (outcome : TextWrite) (summary : FinalSummary) (s : RuntimeService config) :
    RuntimeService config :=
  { s with side := s.side ++ [⟨.finalSummary, outcome, finalSummaryJson summary⟩] }

def sessionFiles (s : RuntimeService config) : Option Dir :=
  s.writer.map fun run => run.writer.dir.withTexts s.side

/-! ## Start -/

def equip (io : StartIo) (s : RuntimeService config) : RuntimeService config :=
  { s with
    errorLog := true
    buffer := some { capacityPackets := config.packetBufferCapacity,
                     maxBytes := config.packetBufferMaxBytes }
    writer := some ((WriterRun.fresh config io.now).step (.open io.openIo))
    side := [] }

/-- `Open` succeeds for the writer of a new session. -/
def opens (config : RuntimeConfig) (io : StartIo) : Bool :=
  ((ChunkWriter.create config io.now ∅).open io.openIo).1

def startRecording (io : StartIo) (s : RuntimeService config) :
    RuntimeErrorCode × RuntimeService config :=
  match s.sessions.start config io.clock with
  | (.kOk, sessions) =>
      let s := equip io { s with sessions }
      if !opens config io then
        (.kInternalError, { s with sessions := s.sessions.setError (ascii "chunk_open_failed") })
      else
        let s := s.writeScenarioMetadata io.scenario config.defaultScenario
        (.kOk, { s with seenTs := false, lastTsNs := 0, seqInitialized := false, lastSeq := 0 })
  | (rc, _) => (rc, s)

/-! ## Frames -/

def rejectFrame (error : String) (s : RuntimeService config) : RuntimeService config :=
  { s with
    diagnostics := s.diagnostics.onBadPacket (if error = "" then "invalid_frame" else error) }

def trackContractSeq (seq : UInt64) (s : RuntimeService config) : RuntimeService config :=
  if !s.seqInitialized then { s with seqInitialized := true, lastSeq := seq }
  else if seq ≤ s.lastSeq then { s with diagnostics := s.diagnostics.onOutOfOrder }
  else if s.lastSeq + 1 < seq then
    { s with diagnostics := s.diagnostics.onSeqGap (seq - s.lastSeq - 1), lastSeq := seq }
  else { s with lastSeq := seq }

def trackTime (t0Ns : UInt64) (s : RuntimeService config) : RuntimeService config :=
  let gapNs := config.timeGapThresholdMs.toUInt64 * 1000000
  let late := s.seenTs && s.lastTsNs < t0Ns && gapNs < t0Ns - s.lastTsNs
  { s with
    diagnostics := if late then s.diagnostics.onTimeGap else s.diagnostics
    lastTsNs := t0Ns
    seenTs := true }

def countFrame (header : EgoFrameHeader) (s : RuntimeService config) : RuntimeService config :=
  let s := { s with diagnostics := s.diagnostics.onPacketReceived }
  (s.trackContractSeq header.seq).trackTime header.t0Ns

def autoStarts (header : EgoFrameHeader) (s : RuntimeService config) : Bool :=
  config.autoStartOnSessionStarted && s.state = .kIdle && header.frameType = sessionStarted

def endsSession (header : EgoFrameHeader) (s : RuntimeService config) : Bool :=
  header.frameType = sessionEnded && s.state = .kRecording

def pushFrame (frame : ContractFrame config.maxPayloadBytes) (s : RuntimeService config) :
    RuntimeService config :=
  match s.buffer with
  | none => s
  | some buffer =>
      let buffer := buffer.push frame
      let diagnostics := s.diagnostics.setBufferDropped buffer.dropped
      { s with
        buffer := some buffer
        diagnostics := if buffer.degraded then diagnostics.setHealth "degraded" else diagnostics }

/-- `EgoRawWriter::Write`, with the frame counted when it succeeds. -/
def writeFrame (io : WriteIo) (frame : Bytes) (s : RuntimeService config) :
    Bool × RuntimeService config :=
  match s.writer with
  | none => (false, s)
  | some run =>
      let s := { s with writer := some (run.step (.write io frame)) }
      if (run.writer.writeContractFrame io frame).1 then
        (true, { s with diagnostics := s.diagnostics.onPacketWritten frame.length })
      else (false, s)

def writeFailed (s : RuntimeService config) : RuntimeService config :=
  if s.errorLog then
    { s with
      sessions := s.sessions.setError (ascii "disk_write_failed")
      diagnostics := s.diagnostics.setHealth "failed" }
  else s

/-! ## Finalisation -/

def closeWriter (io : FlushIo) (s : RuntimeService config) : RuntimeService config :=
  { s with writer := s.writer.map fun run => run.step (.close io) }

def markStopped (io : FinalizeIo) (reason : Bytes) (s : RuntimeService config) :
    RuntimeService config :=
  writeSessionMetadata io.metadata { s with sessions := s.sessions.markStopped io.utc reason }

def finalSummary (durationSec : Float) (reason : Bytes)
    (s : RuntimeService config) : FinalSummary where
  stopReason := reason
  durationSec := durationSec
  packetsReceived := s.diagnostics.packetsReceived
  packetsWritten := s.diagnostics.packetsWritten
  badPackets := s.diagnostics.badPackets
  packetLoss := s.diagnostics.packetsLost
  integrity := checkSessionIntegrity s.sessionFiles config.maxPayloadBytes

/-- What the session leaves when writer and buffer are deleted. -/
def finished (summary : FinalSummary) (manifest : TextWrite)
    (s : RuntimeService config) : FinishedSession where
  number := s.sessions.activeId.getD 0
  texts := s.sessions.texts
  summary := summary
  writer := s.writer.map WriterRun.writer
  manifest := manifest
  side := s.side
  dropped := (s.buffer.map PacketBuffer.dropped).getD 0

def release (s : RuntimeService config) : RuntimeService config :=
  { s with writer := none, buffer := none, errorLog := false, stopThreads := false }

/-! ## What the functions leave alone -/

structure SameSession (s s' : RuntimeService config) : Prop where
  sessions : s'.sessions = s.sessions
  errorLog : s'.errorLog = s.errorLog
  buffer : s'.buffer = s.buffer
  writer : s'.writer = s.writer
  side : s'.side = s.side
  stopThreads : s'.stopThreads = s.stopThreads
  finalizeInProgress : s'.finalizeInProgress = s.finalizeInProgress

theorem sameSession_rejectFrame (error : String) (s : RuntimeService config) :
    SameSession s (s.rejectFrame error) :=
  ⟨rfl, rfl, rfl, rfl, rfl, rfl, rfl⟩

theorem sameSession_countFrame (header : EgoFrameHeader) (s : RuntimeService config) :
    SameSession s (s.countFrame header) := by
  unfold countFrame trackContractSeq
  dsimp only
  split_ifs <;> exact ⟨rfl, rfl, rfl, rfl, rfl, rfl, rfl⟩

def Equipped (s : RuntimeService config) : Prop :=
  s.errorLog = true ∧ s.buffer.isSome = true ∧ s.writer.isSome = true

theorem SameSession.equipped {s s' : RuntimeService config} (same : SameSession s s')
    (equipped : s.Equipped) :
    s'.Equipped := by
  unfold Equipped
  rw [same.errorLog, same.buffer, same.writer]
  exact equipped

theorem pushFrame_some {s : RuntimeService config}
    {buffer : PacketBuffer (ContractFrame config.maxPayloadBytes)} (held : s.buffer = some buffer)
    (frame : ContractFrame config.maxPayloadBytes) :
    ∃ diagnostics : DiagnosticsCollector, s.diagnostics.SameCounts diagnostics ∧
      s.pushFrame frame =
        { s with buffer := some (buffer.push frame), diagnostics := diagnostics } := by
  unfold pushFrame
  rw [held]
  refine ⟨_, ?_, rfl⟩
  split <;> exact ⟨rfl, rfl, rfl⟩

theorem writeFrame_some {s : RuntimeService config} {run : WriterRun}
    (held : s.writer = some run) (io : WriteIo) (frame : Bytes) :
    s.writeFrame io frame =
      if (run.writer.writeContractFrame io frame).1 then
        (true, { s with
          writer := some (run.step (.write io frame))
          diagnostics := s.diagnostics.onPacketWritten frame.length })
      else (false, { s with writer := some (run.step (.write io frame)) }) := by
  unfold writeFrame
  rw [held]

theorem dir_finished {s : RuntimeService config} {run : WriterRun} (held : s.writer = some run)
    (summary : FinalSummary) (manifest : TextWrite) :
    (s.finished summary manifest).dir = run.writer.dir.withTexts s.side := by
  rw [FinishedSession.dir, finished, held]
  rfl

def startTexts (config : RuntimeConfig) (io : StartIo) : List SideWrite :=
  [⟨.scenarioMetadata, io.scenario, scenarioMetadataJson config.defaultScenario⟩]

theorem startRecording_cases (io : StartIo) (s : RuntimeService config) :
    (s.state = .kRecording ∧ s.startRecording io = (.kSessionBusy, s)) ∨
    (s.state ≠ .kRecording ∧ ∃ sessions : SessionManager, sessions.state = .kError ∧
      s.startRecording io = (.kInternalError, equip io { s with sessions })) ∨
    (s.state ≠ .kRecording ∧ opens config io = true ∧
      ∃ sessions : SessionManager, sessions.state = .kRecording ∧
      sessions.active = some (.fresh config io.clock s.sessions.ids) ∧
      s.startRecording io =
        (.kOk,
          { equip io { s with
              sessions, seenTs := false, lastTsNs := 0, seqInitialized := false, lastSeq := 0 } with
            side := startTexts config io })) := by
  by_cases recording : s.state = .kRecording
  · have busy : s.sessions.start config io.clock = (.kSessionBusy, s.sessions) := if_pos recording
    exact Or.inl ⟨recording, by simp only [startRecording, busy]⟩
  · let started : SessionManager :=
      { active := some (.fresh config io.clock s.sessions.ids), ids := s.sessions.ids + 1 }
    have made : s.sessions.start config io.clock = (.kOk, started) := if_neg recording
    by_cases opened : opens config io = true
    · refine Or.inr (Or.inr ⟨recording, opened, started, rfl, rfl, ?_⟩)
      simp only [startRecording, made, opened, Bool.not_true, Bool.false_eq_true, if_false]
      rfl
    · refine Or.inr (Or.inl ⟨recording, started.setError (ascii "chunk_open_failed"), rfl, ?_⟩)
      simp only [startRecording, made, opened, Bool.not_false, if_true]
      rfl

theorem sessionDir_startRecording (io : StartIo) {s : RuntimeService config}
    (idle : s.state ≠ .kRecording) :
    (s.startRecording io).2.sessions.sessionDir ≠ [] := by
  have made : s.sessions.start config io.clock =
      (.kOk, { active := some (.fresh config io.clock s.sessions.ids),
               ids := s.sessions.ids + 1 }) := if_neg idle
  have named := SessionManager.storagePath_fresh config io.clock s.sessions.ids
  simp only [startRecording, made]
  split
  · rw [SessionManager.sessionDir_setError]
    exact named
  · exact named

end RuntimeService
end LocalPC.Runtime
