import LocalPC.Runtime.DaemonInvariant

namespace LocalPC.Runtime
open Lib Contract

structure ChunkWriter.Closed (manifest : TextWrite) (w : ChunkWriter) : Prop where
  chunk : w.chunkStream.isOpen = false
  index : w.indexStream.isOpen = false
  listed : manifest = .done → w.dir.lookup manifestName = some (manifestJson w.chunks)

theorem ChunkWriter.closed_close (io : FlushIo) (w : ChunkWriter) :
    (w.close io).Closed io.manifest where
  chunk := rfl
  index := rfl
  listed written := by
    show (writeTextAtomic io.manifest manifestName (manifestJson w.chunks) w.dir).2.lookup
      manifestName = _
    rw [written]
    exact AList.lookup_insert _

namespace FinishedSession

def Wrote (session : FinishedSession) (file : SideFile) (text : Bytes) : Prop :=
  ∃ outcome : TextWrite, LastWrite session.side ⟨file, outcome, text⟩ ∧
    (outcome = .done → session.dir.lookup file.name = some text)

/-- `FinalizeActiveSession` has done its work: the writer is closed, and manifest, metadata and
summary are written. -/
structure Finalized (config : RuntimeConfig) (session : FinishedSession) : Prop where
  writer : ∃ writer, session.writer = some writer ∧ writer.Closed session.manifest ∧
    (session.manifest = .done → session.dir.lookup manifestName = some (manifestJson writer.chunks))
  metadata : session.Wrote .sessionMetadata (sessionMetadataJson config.texts session.texts)
  summary : session.Wrote .finalSummary (finalSummaryJson session.summary)

variable {config : RuntimeConfig} {session : FinishedSession}

theorem wrote_of_lastWrite {file : SideFile} {outcome : TextWrite} {text : Bytes}
    (last : LastWrite session.side ⟨file, outcome, text⟩) : session.Wrote file text :=
  ⟨outcome, last, fun done => last.lookup done _⟩

theorem finalized_of_writes {writer : ChunkWriter} {metadata summary : TextWrite}
    (held : session.writer = some writer) (closed : writer.Closed session.manifest)
    (wroteMetadata : LastWrite session.side
      ⟨.sessionMetadata, metadata, sessionMetadataJson config.texts session.texts⟩)
    (wroteSummary : LastWrite session.side
      ⟨.finalSummary, summary, finalSummaryJson session.summary⟩) :
    session.Finalized config where
  writer := by
    refine ⟨writer, held, closed, fun written => ?_⟩
    rw [dir, held]
    exact (Dir.lookup_withTexts _ notSide_manifest _).trans (closed.listed written)
  metadata := wrote_of_lastWrite wroteMetadata
  summary := wrote_of_lastWrite wroteSummary

theorem Finalized.addTexts {m : UInt32} {session : ClosedSession m}
    (finalized : session.Finalized config) {more : List SideWrite}
    (reports : ∀ w ∈ more, w.file = .runtimeReport) :
    (session.addTexts more).Finalized config := by
  obtain ⟨writer, held, closed, -⟩ := finalized.writer
  obtain ⟨metadata, wroteMetadata, -⟩ := finalized.metadata
  obtain ⟨summary, wroteSummary, -⟩ := finalized.summary
  have other {file : SideFile} (ne : SideFile.runtimeReport ≠ file) : ∀ w ∈ more, w.file ≠ file :=
    fun w member => reports w member ▸ ne
  exact @finalized_of_writes _ (session.addTexts more).toFinishedSession _ _ _ held closed
    (wroteMetadata.append (other nofun)) (wroteSummary.append (other nofun))

end FinishedSession

namespace Daemon
variable {config : RuntimeConfig}

def Located (s : Daemon config) (call : StopCall config.maxPayloadBytes) : Prop :=
  call.sessionDir = s.service.sessions.sessionDir ∧ call.sessionDir ≠ []

def WriterClosed (s : Daemon config) (call : StopCall config.maxPayloadBytes) : Prop :=
  ∃ run, s.service.writer = some run ∧ run.writer.Closed call.manifest

def MetadataWritten (s : Daemon config) : Prop :=
  ∃ outcome, LastWrite s.service.side
    ⟨.sessionMetadata, outcome, sessionMetadataJson config.texts s.service.sessions.texts⟩

def SummaryWritten (s : Daemon config) (summary : FinalSummary) : Prop :=
  ∃ outcome, LastWrite s.service.side ⟨.finalSummary, outcome, finalSummaryJson summary⟩

def PhaseDone (s : Daemon config) (call : StopCall config.maxPayloadBytes) :
    StopPhase config.maxPayloadBytes → Prop
  | .entered | .waiting _ => True
  | .joining | .popping .. | .writing .. | .popped .. | .closing => s.Located call
  | .closed => s.Located call ∧ s.WriterClosed call
  | .marked => s.Located call ∧ s.WriterClosed call ∧ s.MetadataWritten
  | .summarized summary _ =>
      s.Located call ∧ s.WriterClosed call ∧ s.MetadataWritten ∧ s.SummaryWritten summary
  | .released session _ =>
      session.Finalized config ∧ call.sessionDir = session.texts.storagePath ∧ call.sessionDir ≠ []

structure Finishing (s : Daemon config) : Prop where
  located : s.service.state ≠ .kIdle → s.service.sessions.sessionDir ≠ []
  phase : ∀ call, s.stop = some call → s.PhaseDone call call.phase
  closed : ∀ session ∈ s.closed, session.Finalized config
  triggered : s.triggered = s.closed.map fun session => session.texts.storagePath

theorem Shape.started {s : Daemon config} (shape : Shape s) {call : StopCall config.maxPayloadBytes}
    (running : s.stop = some call) : s.service.state ≠ .kIdle := by
  have phase := shape.busy call running
  intro idle
  cases here : call.phase <;> simp_all [PhaseShape, Stopping]

namespace Finishing
variable {s s' : Daemon config}

theorem init : Finishing ({} : Daemon config) where
  located started := absurd rfl started
  phase _ running := by cases running
  closed _ member := absurd member List.not_mem_nil
  triggered := rfl

theorem transfer (inv : Finishing s) (sessions : s'.service.sessions = s.service.sessions)
    (writer : s'.service.writer = s.service.writer) (side : s'.service.side = s.service.side)
    (stop : s'.stop = s.stop) (closed : s'.closed = s.closed)
    (triggered : s'.triggered = s.triggered) : Finishing s' where
  located := by
    unfold RuntimeService.state
    rw [sessions]
    exact inv.located
  phase call running := by
    have done := inv.phase call (stop ▸ running)
    cases here : call.phase <;>
      simp only [here, PhaseDone, Located, WriterClosed, MetadataWritten, SummaryWritten, sessions,
        writer, side] at done ⊢ <;> exact done
  closed := by
    rw [closed]
    exact inv.closed
  triggered := by
    rw [triggered, closed]
    exact inv.triggered

theorem running (inv : Finishing s) (shape : Shape s) {call call' : StopCall config.maxPayloadBytes}
    (before : s.stop = some call) (after : s'.stop = some call')
    (dir : s'.service.sessions.sessionDir = s.service.sessions.sessionDir)
    (done : s'.PhaseDone call' call'.phase) (closed : s'.closed = s.closed)
    (triggered : s'.triggered = s.triggered) : Finishing s' where
  located _ := by
    rw [dir]
    exact inv.located (shape.started before)
  phase other same := by
    rw [after] at same
    cases same
    exact done
  closed := by
    rw [closed]
    exact inv.closed
  triggered := by
    rw [triggered, closed]
    exact inv.triggered

theorem failed (inv : Finishing s) (alive : s.writerThread ≠ .exited) (shape : Shape s)
    (started : s.service.state ≠ .kIdle)
    (dir : s'.service.sessions.sessionDir = s.service.sessions.sessionDir) (stop : s'.stop = s.stop)
    (closed : s'.closed = s.closed) (triggered : s'.triggered = s.triggered) :
    Finishing s' where
  located _ := by
    rw [dir]
    exact inv.located started
  phase call running := by
    rw [stop] at running
    have done := inv.phase call running
    rcases shape.exited_or_early running with exited | here | ⟨i, here⟩ | here
    · exact absurd exited alive
    · rw [here]
      trivial
    · rw [here]
      trivial
    · rw [here] at done ⊢
      exact ⟨done.1.trans dir.symm, done.2⟩
  closed := by
    rw [closed]
    exact inv.closed
  triggered := by
    rw [triggered, closed]
    exact inv.triggered

theorem startRecording (inv : Finishing s) (free : s.stop = none) (io : StartIo)
    (pc : RxPc config.maxPayloadBytes) :
    Finishing { s.startRecording io with rx := pc } := by
  have none {call : StopCall config.maxPayloadBytes} (running : s.stop = some call) : False := by
    rw [free] at running
    cases running
  have named (idle : s.service.state ≠ .kRecording) :
      (s.startRecording io).service.sessions.sessionDir ≠ [] := by
    have made := RuntimeService.sessionDir_startRecording io idle
    unfold Daemon.startRecording
    rcases RuntimeService.startRecording_cases io s.service with ⟨recording, -⟩ |
        ⟨-, _, -, same⟩ | ⟨-, -, _, -, -, same⟩
    · exact absurd recording idle
    all_goals
      rw [same] at made ⊢
      exact made
  rcases s.startRecording_cases io with ⟨-, same⟩ | ⟨idle, sessions, -, same⟩ |
      ⟨idle, -, sessions, -, -, same⟩
  · rw [same]
    exact inv.transfer rfl rfl rfl rfl rfl rfl
  all_goals
    have dir := named idle
    rw [same] at dir ⊢
    exact ⟨fun _ => dir, fun call running => (none running).elim, inv.closed, inv.triggered⟩

theorem stopRecording (inv : Finishing s) (free : s.stop = none) (fromRx : Bool) (reason : Bytes) :
    Finishing (s.stopRecording fromRx reason) := by
  rcases s.stopRecording_cases fromRx reason with ⟨refused, -⟩ | ⟨entered, -⟩
  · rw [refused]
    exact inv.transfer rfl rfl rfl free.symm rfl rfl
  · rw [entered]
    refine ⟨inv.located, fun call running => ?_, inv.closed, inv.triggered⟩
    cases running
    trivial

theorem report (inv : Finishing s) (io : ReportIo) (reporting : s.reporting = true) :
    Finishing (s.report io) where
  located := inv.located
  phase call running := by
    have done := inv.phase call running
    have stop : s.stop = some call := running
    cases here : call.phase <;>
      simp only [Daemon.reporting, stop, here, Bool.false_eq_true] at reporting
    all_goals
      rw [here] at done
      exact done
  closed session member := by
    obtain ⟨before, old, more, reports, rfl⟩ := mem_closed_report member
    exact (inv.closed before old).addTexts reports
  triggered := by
    refine inv.triggered.trans ?_
    rw [Daemon.report, List.map_map]
    refine List.map_congr_left fun session _ => ?_
    show session.texts.storagePath = (if _ then _ else _ : ClosedSession _).texts.storagePath
    split <;> rfl

theorem advance (inv : Finishing s) (shape : Shape s) {io : StopIo}
    {call : StopCall config.maxPayloadBytes} (here : s.stop = some call)
    (move : StopMove io call s s') : Finishing s' := by
  have phase := shape.busy call here
  have done := inv.phase call here
  cases move with
  | enter at' =>
      exact inv.running shape here (goTo_stop ..)
        (SessionManager.sessionDir_stop ..) trivial rfl rfl
  | wait i at' => exact inv.running shape here (goTo_stop ..) rfl trivial rfl rfl
  | waited i at' =>
      exact inv.running shape here (goTo_stop ..) rfl
        ⟨rfl, inv.located (shape.started here)⟩ rfl rfl
  | unequipped at' exited missing =>
      rw [at'] at done
      exact inv.running shape here (goTo_stop ..) rfl done rfl rfl
  | joined at' exited =>
      rw [at'] at done
      exact inv.running shape here (goTo_stop ..) rfl done rfl rfl
  | empty attempt wroteAny at' none =>
      rw [at'] at done
      exact inv.running shape here (goTo_stop ..) rfl done rfl rfl
  | take attempt wroteAny at' frame rest some =>
      rw [at'] at done
      exact inv.running shape here (goTo_stop ..) rfl done rfl rfl
  | write attempt frame at' =>
      rw [at'] at done phase
      obtain ⟨-, ⟨log, -, writer⟩, -⟩ := phase
      obtain ⟨run, held⟩ := Option.isSome_iff_exists.mp writer
      rcases drainWrite_cases held log io.write call attempt frame with ⟨-, next⟩ | ⟨-, next⟩
      · rw [next]
        exact inv.running shape here (goTo_stop ..) rfl done rfl rfl
      · have dir :=
          SessionManager.sessionDir_setError (ascii "disk_write_failed") s.service.sessions
        rw [next]
        exact inv.running shape here (goTo_stop ..) dir ⟨done.1.trans dir.symm, done.2⟩ rfl rfl
  | again attempt wroteAny at' more =>
      rw [at'] at done
      exact inv.running shape here (goTo_stop ..) rfl done rfl rfl
  | leave attempt wroteAny at' done' =>
      rw [at'] at done
      exact inv.running shape here (goTo_stop ..) rfl done rfl rfl
  | close at' =>
      rw [at'] at done phase
      obtain ⟨run, held⟩ := Option.isSome_iff_exists.mp phase.2.1.2.2
      have closed : (s.service.closeWriter io.close).writer = some (run.step (.close io.close)) :=
        congrArg (Option.map _) held
      exact inv.running shape here (goTo_stop ..) rfl
        ⟨done, run.step (.close io.close), closed, ChunkWriter.closed_close io.close run.writer⟩ rfl
          rfl
  | mark at' =>
      rw [at'] at done
      obtain ⟨located, closed⟩ := done
      have dir : (s.mark io call).service.sessions.sessionDir = s.service.sessions.sessionDir :=
        SessionManager.sessionDir_markStopped ..
      have written : (s.mark io call).MetadataWritten := by
        have started := shape.started here
        refine ⟨io.metadata, ?_⟩
        unfold mark goTo RuntimeService.markStopped RuntimeService.writeSessionMetadata
          RuntimeService.activeTexts
          SessionManager.markStopped SessionManager.texts
        cases active : s.service.sessions.active with
        | none =>
            exact absurd (by simp [RuntimeService.state, SessionManager.state, active]) started
        | some info => exact .new ..
      exact inv.running shape here (goTo_stop ..) dir
        ⟨⟨located.1.trans dir.symm, located.2⟩, closed, written⟩ rfl rfl
  | summarize at' =>
      rw [at'] at done
      obtain ⟨located, closed, outcome, metadata⟩ := done
      exact inv.running shape here (goTo_stop ..) rfl
        ⟨located, closed, ⟨outcome, metadata.append (by simp)⟩, io.summary, .new ..⟩ rfl rfl
  | release summary counted at' =>
      rw [at'] at done
      obtain ⟨located, ⟨run, held, closed⟩, ⟨_, metadata⟩, _, summarized⟩ := done
      have reports {file : SideFile} (ne : SideFile.runtimeReport ≠ file) :
          ∀ w ∈ s.service.runtimeReportWrites io.report, w.file ≠ file := by
        unfold RuntimeService.runtimeReportWrites
        split <;> simp [ne]
      have finalized :
          ((s.service.writeRuntimeReport io.report).finished summary call.manifest).Finalized
            config :=
        FinishedSession.finalized_of_writes (congrArg (Option.map _) held) closed
          (metadata.append (reports nofun)) (summarized.append (reports nofun))
      exact inv.running shape here (goTo_stop ..) rfl ⟨finalized, located⟩ rfl rfl
  | finish session counted at' =>
      rw [at'] at done
      obtain ⟨finalized, dir, named⟩ := done
      refine ⟨inv.located, fun call running => ?_, fun session' member => ?_, ?_⟩
      · cases running
      · rcases List.mem_append.mp member with old | new
        · exact inv.closed session' old
        · rw [List.mem_singleton.mp new]
          exact finalized
      · show (if call.sessionDir = [] then s.triggered else s.triggered ++ [call.sessionDir]) =
          (s.closed ++ [_]).map _
        rw [if_neg named, List.map_append, inv.triggered, dir]
        rfl

theorem step (inv : Finishing s) (shape : Shape s) {e : Event}
    (move : Move s e s') : Finishing s' := by
  cases move with
  | rx pc quiet lost => exact inv.transfer rfl rfl rfl rfl rfl rfl
  | reject bytes error => exact inv.transfer rfl rfl rfl rfl rfl rfl
  | count io frame here =>
      have same := RuntimeService.sameSession_countFrame frame.header s.service
      exact inv.transfer same.sessions same.writer same.side rfl rfl rfl
  | accept io frame here recording => exact inv.transfer rfl rfl rfl rfl rfl rfl
  | push io frame here buffer held =>
      obtain ⟨diagnostics, -, pushed⟩ := RuntimeService.pushFrame_some held frame
      rw [pushed]
      exact inv.transfer rfl rfl rfl rfl rfl rfl
  | start io free pc same => exact inv.startRecording free io pc
  | stop free fromRx reason calls => exact inv.stopRecording free fromRx reason
  | writerTop io here => exact inv.transfer rfl rfl rfl rfl rfl rfl
  | writerLook io here => exact inv.transfer rfl rfl rfl rfl rfl rfl
  | writerNothing io state here => exact inv.transfer rfl rfl rfl rfl rfl rfl
  | take io state here frame rest popped => exact inv.transfer rfl rfl rfl rfl rfl rfl
  | write io frame here =>
      obtain ⟨⟨log, -, writer⟩, started⟩ := shape.holding here
      obtain ⟨run, held⟩ := Option.isSome_iff_exists.mp writer
      have alive : s.writerThread ≠ .exited := by simp [here]
      rcases writeHeld_cases held log io frame with ⟨-, done⟩ | ⟨-, failed⟩
      · rw [done]
        exact inv.failed alive shape started rfl rfl rfl rfl
      · rw [failed]
        exact inv.failed alive shape started (SessionManager.sessionDir_setError ..) rfl rfl rfl
  | advance io call running move => exact inv.advance shape running move
  | report io running => exact inv.report io running

end Finishing

theorem finishing_of_reach {allowed : Daemon config → Event → Prop} {s : Daemon config}
    (reached : (daemonMachine config).Reach allowed s) : Finishing s := by
  have inv := reached.invariant (I := fun s => Shape s ∧ Finishing s)
    (fun s start => by cases start; exact ⟨.init, .init⟩)
    fun s e s' inv moved _ =>
      ⟨inv.1.step (move_of_step moved), inv.2.step inv.1 (move_of_step moved)⟩
  exact inv.2

end Daemon
end LocalPC.Runtime
