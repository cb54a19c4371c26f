import LocalPC.Runtime.Daemon

namespace LocalPC.Runtime
open Lib Contract

def WriterPc.Resting {m : UInt32} : WriterPc m → Prop
  | .top | .looping => True
  | _ => False

def WriterPc.Working {m : UInt32} : WriterPc m → Prop
  | .exited => False
  | .polled state => state ≠ .kStopping
  | _ => True

theorem WriterPc.Resting.working {m : UInt32} {pc : WriterPc m}
    (resting : pc.Resting) : pc.Working := by
  cases pc <;> simp_all [Resting, Working]

theorem WriterPc.Resting.held {m : UInt32} {pc : WriterPc m}
    (resting : pc.Resting) : pc.held = [] := by
  cases pc <;> simp_all [Resting, WriterPc.held]

namespace Daemon
variable {config : RuntimeConfig}

/-- The session is being stopped; a write that failed has set its state to `kError`. -/
def Stopping (s : Daemon config) : Prop := s.service.state = .kStopping ∨ s.service.state = .kError

def PhaseShape (s : Daemon config) : StopPhase config.maxPayloadBytes → Prop
  | .entered => (s.service.state = .kRecording ∨ s.service.state = .kError) ∧ s.service.Equipped
  | .waiting _ | .joining => s.Stopping ∧ s.service.Equipped
  | .popping .. | .writing .. | .popped .. | .closing | .closed =>
      s.Stopping ∧ s.service.Equipped ∧ s.writerThread = .exited
  | .marked | .summarized .. =>
      s.service.state = .kClosed ∧ s.service.Equipped ∧ s.writerThread = .exited
  | .released .. => s.service.state = .kClosed ∧ s.service.buffer = none ∧ s.service.writer = none ∧
      s.service.stopThreads = false ∧ s.writerThread = .exited

structure Shape (s : Daemon config) : Prop where
  free : s.stop = none →
    s.service.stopThreads = false ∧ s.service.finalizeInProgress = false ∧
      s.service.state ≠ .kStopping
  recording : s.stop = none → s.service.state = .kRecording →
    s.service.Equipped ∧ s.writerThread.Working
  resting : s.stop = none → s.service.state ≠ .kRecording → s.writerThread.Resting
  busy : ∀ call, s.stop = some call → s.PhaseShape call.phase

namespace Shape
variable {s s' : Daemon config}

theorem init : Shape ({} : Daemon config) where
  free _ := ⟨rfl, rfl, nofun⟩
  recording _ := nofun
  resting _ _ := trivial
  busy _ := nofun

structure Same (s s' : Daemon config) : Prop where
  state : s'.service.state = s.service.state
  equipped : s.service.Equipped → s'.service.Equipped
  empty : s.service.buffer = none → s.service.writer = none → s'.service.buffer = none ∧
    s'.service.writer = none
  stopThreads : s'.service.stopThreads = s.service.stopThreads
  finalizeInProgress : s'.service.finalizeInProgress = s.service.finalizeInProgress
  writerThread : s'.writerThread = s.writerThread
  stop : s'.stop = s.stop

theorem Same.ofSession (same : RuntimeService.SameSession s.service s'.service)
    (writerThread : s'.writerThread = s.writerThread) (stop : s'.stop = s.stop) : Same s s' where
  state := congrArg SessionManager.state same.sessions
  equipped := same.equipped
  empty buffer writer := by rw [same.buffer, same.writer]; exact ⟨buffer, writer⟩
  stopThreads := same.stopThreads
  finalizeInProgress := same.finalizeInProgress
  writerThread := writerThread
  stop := stop

theorem transfer (shape : Shape s) (same : Same s s') : Shape s' where
  free := by
    rw [same.stop, same.state, same.stopThreads, same.finalizeInProgress]
    exact shape.free
  recording := by
    rw [same.stop, same.state, same.writerThread]
    exact fun none recording => (shape.recording none recording).imp_left same.equipped
  resting := by
    rw [same.stop, same.state, same.writerThread]
    exact shape.resting
  busy call running := by
    have phase := shape.busy call (same.stop ▸ running)
    cases here : call.phase <;>
      simp only [here, PhaseShape, Stopping, same.state, same.writerThread, same.stopThreads]
        at phase ⊢
    case released =>
      exact ⟨phase.1, (same.empty phase.2.1 phase.2.2.1).1,
        (same.empty phase.2.1 phase.2.2.1).2, phase.2.2.2⟩
    all_goals exact phase.imp_right
                fun rest => by first | exact same.equipped rest | exact rest.imp_left same.equipped

theorem exited_or_early (shape : Shape s) {call : StopCall config.maxPayloadBytes}
    (running : s.stop = some call) :
    s.writerThread = .exited ∨ call.phase = .entered ∨ (∃ i, call.phase = .waiting i) ∨
      call.phase = .joining := by
  have phase := shape.busy call running
  cases here : call.phase <;> simp_all [PhaseShape]

theorem writer (shape : Shape s) (alive : s.writerThread ≠ .exited) (stop : s'.stop = s.stop)
    (stopThreads : s'.service.stopThreads = s.service.stopThreads)
    (finalizeInProgress : s'.service.finalizeInProgress = s.service.finalizeInProgress)
    (equipped : s.service.Equipped → s'.service.Equipped)
    (state : s'.service.state = s.service.state ∨ s'.service.state = .kError)
    (working : s.stop = none → s'.service.state = .kRecording → s'.writerThread.Working)
    (resting : s.stop = none → s'.service.state ≠ .kRecording → s'.writerThread.Resting) :
    Shape s' where
  free none := by
    obtain ⟨threads, finalize, notStopping⟩ := shape.free (stop ▸ none)
    refine ⟨stopThreads.trans threads, finalizeInProgress.trans finalize, ?_⟩
    rcases state with same | failed
    · rwa [same]
    · simp [failed]
  recording none recording := by
    rcases state with same | failed
    · exact ⟨equipped (shape.recording (stop ▸ none) (same ▸ recording)).1,
        working (stop ▸ none) recording⟩
    · rw [failed] at recording
      cases recording
  resting none := resting (stop ▸ none)
  busy call running := by
    rw [stop] at running
    have phase := shape.busy call running
    rcases shape.exited_or_early running with exited | here | ⟨i, here⟩ | here
    · exact absurd exited alive
    all_goals
      rw [here] at phase ⊢
      simp only [PhaseShape, Stopping] at phase ⊢
      refine ⟨?_, equipped phase.2⟩
      rcases state with same | failed
      · rw [same]
        exact phase.1
      · exact Or.inr failed

theorem holding (shape : Shape s) {frame : ContractFrame config.maxPayloadBytes}
    (here : s.writerThread = .holding frame) : s.service.Equipped ∧ s.service.state ≠ .kIdle := by
  cases running : s.stop with
  | none =>
      by_cases recording : s.service.state = .kRecording
      · exact ⟨(shape.recording running recording).1, by rw [recording]; nofun⟩
      · have resting := shape.resting running recording
        rw [here] at resting
        exact resting.elim
  | some call =>
      have phase := shape.busy call running
      rcases shape.exited_or_early running with exited | at' | ⟨i, at'⟩ | at'
      · rw [here] at exited
        cases exited
      all_goals
        rw [at'] at phase
        refine ⟨phase.2, ?_⟩
        rcases phase.1 with state | state <;> simp [state]

end Shape

theorem writeHeld_cases {s : Daemon config} {run : WriterRun} (held : s.service.writer = some run)
    (log : s.service.errorLog = true) (io : WriteIo)
    (frame : ContractFrame config.maxPayloadBytes) :
    ((run.writer.writeContractFrame io frame.bytes).1 = true ∧
      s.writeHeld io frame = { s with
        service := { s.service with
          writer := some (run.step (.write io frame.bytes))
          diagnostics := s.service.diagnostics.onPacketWritten frame.bytes.length }
        writerThread := .top }) ∨
    ((run.writer.writeContractFrame io frame.bytes).1 = false ∧
      s.writeHeld io frame = { s with
        service := { s.service with
          sessions := s.service.sessions.setError (ascii "disk_write_failed")
          diagnostics := s.service.diagnostics.setHealth "failed"
          writer := some (run.step (.write io frame.bytes)) }
        writerThread := .top }) := by
  unfold writeHeld
  dsimp only
  rw [RuntimeService.writeFrame_some held]
  by_cases done : (run.writer.writeContractFrame io frame.bytes).1 = true
  · exact Or.inl ⟨done, by simp [done]⟩
  · exact Or.inr ⟨by simpa using done, by simp [done, RuntimeService.writeFailed, log]⟩

theorem startRecording_cases (io : StartIo) (s : Daemon config) :
    (s.service.state = .kRecording ∧ s.startRecording io = s) ∨
    (s.service.state ≠ .kRecording ∧ ∃ sessions : SessionManager, sessions.state = .kError ∧
      s.startRecording io = { s with
        service := RuntimeService.equip io { s.service with sessions }
        ledger := { base := s.service.diagnostics } }) ∨
    (s.service.state ≠ .kRecording ∧ RuntimeService.opens config io = true ∧
      ∃ sessions : SessionManager, sessions.state = .kRecording ∧
      sessions.active = some (.fresh config io.clock s.service.sessions.ids) ∧
      s.startRecording io = { s with
        service := { RuntimeService.equip io
          { s.service with
            sessions, seenTs := false, lastTsNs := 0, seqInitialized := false, lastSeq := 0 } with
          side := RuntimeService.startTexts config io }
        ledger := { base := s.service.diagnostics }
        opened := s.opened ++ [s.service.sessions.ids] }) := by
  unfold startRecording
  rcases RuntimeService.startRecording_cases io s.service with ⟨recording, busy⟩ |
      ⟨idle, sessions, state, failed⟩ |
      ⟨idle, opens, sessions, state, active, made⟩
  · exact Or.inl ⟨recording, by rw [busy]⟩
  · exact Or.inr (Or.inl ⟨idle, sessions, state, by rw [failed]; rfl⟩)
  · exact Or.inr (Or.inr ⟨idle, opens, sessions, state, active, by rw [made]; rfl⟩)

theorem stopRecording_cases (fromRx : Bool) (reason : Bytes) (s : Daemon config) :
    s.stopRecording fromRx reason = s.stopReturns fromRx ∧
      (s.service.finalizeInProgress = true ∨ s.service.state ≠ .kRecording ∧
        s.service.state ≠ .kStopping) ∨
    s.stopRecording fromRx reason = { s with
        service := { s.service with finalizeInProgress := true }
        stop := some { fromRx, reason, phase := .entered } } ∧
      (s.service.state = .kRecording ∨ s.service.state = .kStopping) := by
  unfold stopRecording
  split_ifs with busy idle
  · exact Or.inl ⟨rfl, Or.inl busy⟩
  · exact Or.inl ⟨rfl, Or.inr idle⟩
  · exact Or.inr ⟨rfl, or_iff_not_and_not.mpr idle⟩

namespace Shape
variable {s s' : Daemon config}

theorem ofPhase {call : StopCall config.maxPayloadBytes} (running : s.stop = some call)
    (phase : s.PhaseShape call.phase) : Shape s where
  free none := by rw [none] at running; cases running
  recording none := by rw [none] at running; cases running
  resting none := by rw [none] at running; cases running
  busy other same := by
    rw [running] at same
    cases same
    exact phase

theorem startRecording (shape : Shape s) (free : s.stop = none) (io : StartIo)
    (pc : RxPc config.maxPayloadBytes) : Shape { s.startRecording io with rx := pc } := by
  obtain ⟨threads, finalize, -⟩ := shape.free free
  rcases s.startRecording_cases io with ⟨-, same⟩ | ⟨idle, sessions, state, made⟩ |
      ⟨idle, -, sessions, state, -, made⟩
  · rw [same]
    exact shape.transfer ⟨rfl, id, fun buffer writer => ⟨buffer, writer⟩, rfl, rfl, rfl, rfl⟩
  · have resting := shape.resting free idle
    have error : (s.startRecording io).service.state = .kError := by rw [made]; exact state
    rw [made] at error ⊢
    refine ⟨fun _ => ⟨threads, finalize, fun stopping => ?_⟩, fun _ recording => ?_,
      fun _ _ => resting, fun call running => ?_⟩
    · exact absurd (error.symm.trans stopping) (by decide)
    · exact absurd (error.symm.trans recording) (by decide)
    · exact absurd (free.symm.trans running) nofun
  · have resting := shape.resting free idle
    have recording : (s.startRecording io).service.state = .kRecording := by rw [made]; exact state
    rw [made] at recording ⊢
    refine ⟨fun _ => ⟨threads, finalize, fun stopping => ?_⟩,
      fun _ _ => ⟨⟨rfl, rfl, rfl⟩, resting.working⟩,
        fun _ notRecording => absurd recording notRecording, fun call running => ?_⟩
    · exact absurd (recording.symm.trans stopping) (by decide)
    · exact absurd (free.symm.trans running) nofun

theorem stopRecording (shape : Shape s) (free : s.stop = none) (fromRx : Bool) (reason : Bytes) :
    Shape (s.stopRecording fromRx reason) := by
  obtain ⟨-, -, notStopping⟩ := shape.free free
  rcases s.stopRecording_cases fromRx reason with ⟨refused, -⟩ | ⟨entered, state⟩
  · rw [refused]
    exact shape.transfer ⟨rfl, id, fun buffer writer => ⟨buffer, writer⟩, rfl, rfl, rfl, free.symm⟩
  · have recording : s.service.state = .kRecording := state.resolve_right notStopping
    rw [entered]
    exact ofPhase rfl ⟨Or.inl recording, (shape.recording free recording).1⟩

end Shape

theorem goTo_stop (call : StopCall config.maxPayloadBytes)
    (phase : StopPhase config.maxPayloadBytes) (s : Daemon config) :
    (s.goTo call phase).stop = some { call with phase } := rfl

theorem drainWrite_cases {s : Daemon config} {run : WriterRun} (held : s.service.writer = some run)
    (log : s.service.errorLog = true) (io : WriteIo)
    (call : StopCall config.maxPayloadBytes) (attempt : Nat)
    (frame : ContractFrame config.maxPayloadBytes) :
    ((run.writer.writeContractFrame io frame.bytes).1 = true ∧
      s.drainWrite io call attempt frame = goTo call (.popping attempt true) { s with
        service := { s.service with
          writer := some (run.step (.write io frame.bytes))
          diagnostics := s.service.diagnostics.onPacketWritten frame.bytes.length } }) ∨
    ((run.writer.writeContractFrame io frame.bytes).1 = false ∧
      s.drainWrite io call attempt frame = goTo call .closing { s with
        service := { s.service with
          sessions := s.service.sessions.setError (ascii "disk_write_failed")
          diagnostics := s.service.diagnostics.setHealth "failed"
          writer := some (run.step (.write io frame.bytes)) } }) := by
  unfold drainWrite
  dsimp only
  rw [RuntimeService.writeFrame_some held]
  by_cases done : (run.writer.writeContractFrame io frame.bytes).1 = true
  · exact Or.inl ⟨done, by simp [done]⟩
  · exact Or.inr ⟨by simpa using done, by simp [done, RuntimeService.writeFailed, log]⟩

theorem Shape.advance {s s' : Daemon config} (shape : Shape s) {io : StopIo}
    {call : StopCall config.maxPayloadBytes} (running : s.stop = some call)
    (move : StopMove io call s s') :
    Shape s' := by
  have phase := shape.busy call running
  cases move with
  | enter here =>
      rw [here] at phase
      refine ofPhase (goTo_stop ..) ⟨?_, phase.2⟩
      have stopped := SessionManager.state_stop call.reason s.service.sessions
      rcases phase.1 with recording | error
      · exact Or.inl (stopped.trans (if_pos recording))
      · refine Or.inr ((stopped.trans (if_neg fun recording => ?_)).trans error)
        exact absurd (error.symm.trans recording) (by decide)
  | wait i here =>
      rw [here] at phase
      exact ofPhase (goTo_stop ..) phase
  | waited i here =>
      rw [here] at phase
      exact ofPhase (goTo_stop ..) phase
  | unequipped here exited missing =>
      rw [here] at phase
      exact ofPhase (goTo_stop ..) ⟨phase.1, phase.2, exited⟩
  | joined here exited =>
      rw [here] at phase
      exact ofPhase (goTo_stop ..) ⟨phase.1, phase.2, exited⟩
  | empty attempt wroteAny here none =>
      rw [here] at phase
      exact ofPhase (goTo_stop ..) phase
  | take attempt wroteAny here frame rest some =>
      rw [here] at phase
      obtain ⟨stopping, ⟨log, -, writer⟩, exited⟩ := phase
      exact ofPhase (goTo_stop ..) ⟨stopping, ⟨log, rfl, writer⟩, exited⟩
  | write attempt frame here =>
      rw [here] at phase
      obtain ⟨stopping, ⟨log, buffer, writer⟩, exited⟩ := phase
      obtain ⟨run, held⟩ := Option.isSome_iff_exists.mp writer
      have started : s.service.state ≠
          .kIdle := by rcases stopping with state | state <;> simp [state]
      rcases drainWrite_cases held log io.write call attempt frame with ⟨-, done⟩ | ⟨-, failed⟩
      · rw [done]
        exact ofPhase (goTo_stop ..) ⟨stopping, ⟨log, buffer, rfl⟩, exited⟩
      · rw [failed]
        exact ofPhase (goTo_stop ..)
          ⟨Or.inr (SessionManager.state_setError started _), ⟨log, buffer, rfl⟩, exited⟩
  | again attempt wroteAny here more =>
      rw [here] at phase
      exact ofPhase (goTo_stop ..) phase
  | leave attempt wroteAny here done =>
      rw [here] at phase
      exact ofPhase (goTo_stop ..) phase
  | close here =>
      rw [here] at phase
      obtain ⟨stopping, ⟨log, buffer, writer⟩, exited⟩ := phase
      refine ofPhase (goTo_stop ..) ⟨stopping, ⟨log, buffer, ?_⟩, exited⟩
      show (s.service.writer.map _).isSome = true
      rw [Option.isSome_map]
      exact writer
  | mark here =>
      rw [here] at phase
      obtain ⟨stopping, equipped, exited⟩ := phase
      have started : s.service.state ≠
          .kIdle := by rcases stopping with state | state <;> simp [state]
      exact ofPhase (goTo_stop ..) ⟨SessionManager.state_markStopped started _ _, equipped, exited⟩
  | summarize here =>
      rw [here] at phase
      exact ofPhase (goTo_stop ..) phase
  | release summary counted here =>
      rw [here] at phase
      exact ofPhase (goTo_stop ..) ⟨phase.1, rfl, rfl, rfl, phase.2.2⟩
  | finish session counted here =>
      rw [here] at phase
      obtain ⟨closed, -, -, threads, -⟩ := phase
      have state : (s.finish call session counted).service.state = .kClosed := closed
      have free : (s.finish call session counted).stop = none := rfl
      refine ⟨fun _ => ⟨threads, rfl, ?_⟩, fun _ recording => ?_,
        fun _ _ => trivial, fun call running => ?_⟩
      · rw [state]
        decide
      · rw [state] at recording
        cases recording
      · rw [free] at running
        cases running

theorem Shape.step {s s' : Daemon config} {e : Event} (shape : Shape s)
    (move : Move s e s') : Shape s' := by
  cases move with
  | rx pc quiet lost =>
      exact shape.transfer ⟨rfl, id, fun buffer writer => ⟨buffer, writer⟩, rfl, rfl, rfl, rfl⟩
  | reject bytes error =>
      exact shape.transfer (.ofSession (RuntimeService.sameSession_rejectFrame ..) rfl rfl)
  | count io frame here =>
      exact shape.transfer (.ofSession (RuntimeService.sameSession_countFrame ..) rfl rfl)
  | accept io frame here recording =>
      exact shape.transfer ⟨rfl, id, fun buffer writer => ⟨buffer, writer⟩, rfl, rfl, rfl, rfl⟩
  | push io frame here buffer held =>
      obtain ⟨diagnostics, -, pushed⟩ := RuntimeService.pushFrame_some held frame
      rw [pushed]
      refine shape.transfer
        ⟨rfl, fun equipped => ⟨equipped.1, rfl, equipped.2.2⟩, fun none => ?_, rfl, rfl, rfl, rfl⟩
      rw [held] at none
      cases none
  | start io free pc same => exact shape.startRecording free io pc
  | stop free fromRx reason calls => exact shape.stopRecording free fromRx reason
  | writerTop io here =>
      refine shape.writer (by simp [here]) rfl rfl rfl id (Or.inl rfl)
        (fun free _ => ?_) fun free _ => ?_
      · simp [(shape.free free).1, WriterPc.Working]
      · simp [(shape.free free).1, WriterPc.Resting]
  | writerLook io here =>
      refine shape.writer (by simp [here]) rfl rfl rfl id (Or.inl rfl) (fun free recording => ?_)
        fun free idle => ?_
      · have state : s.service.state = .kRecording := recording
        simp [state, WriterPc.Working]
      · have notStopping := (shape.free free).2.2
        have notRecording : s.service.state ≠ .kRecording := idle
        simp [notStopping, notRecording, WriterPc.Resting]
  | writerNothing io state here =>
      refine shape.writer (by simp [here]) rfl rfl rfl id (Or.inl rfl) (fun free recording => ?_)
        fun free idle => ?_
      · have working := (shape.recording free recording).2
        rw [here] at working
        have other : state ≠ .kStopping := working
        simp [other, WriterPc.Working]
      · have resting := shape.resting free idle
        rw [here] at resting
        exact resting.elim
  | take io state here frame rest popped =>
      refine shape.writer (by simp [here]) rfl rfl rfl
        (fun equipped => ⟨equipped.1, rfl, equipped.2.2⟩) (Or.inl rfl)
        (fun _ _ => trivial) fun free idle => ?_
      have resting := shape.resting free idle
      rw [here] at resting
      exact resting.elim
  | write io frame here =>
      obtain ⟨⟨log, buffer, writer⟩, started⟩ := shape.holding here
      obtain ⟨run, held⟩ := Option.isSome_iff_exists.mp writer
      rcases writeHeld_cases held log io frame with ⟨-, done⟩ | ⟨-, failed⟩
      · rw [done]
        exact shape.writer (by simp [here]) rfl rfl rfl (fun _ => ⟨log, buffer, rfl⟩) (Or.inl rfl)
          (fun _ _ => trivial) fun _ _ => trivial
      · rw [failed]
        exact shape.writer (by simp [here]) rfl rfl rfl (fun _ => ⟨log, buffer, rfl⟩)
          (Or.inr (SessionManager.state_setError started _)) (fun _ _ => trivial) fun _ _ => trivial
  | advance io call running move => exact shape.advance running move
  | report io running =>
      exact shape.transfer ⟨rfl, id, fun buffer writer => ⟨buffer, writer⟩, rfl, rfl, rfl, rfl⟩

theorem shape_of_reach {allowed : Daemon config → Event → Prop} {s : Daemon config}
    (reached : (daemonMachine config).Reach allowed s) : Shape s := by
  refine reached.invariant (I := Shape) ?_ fun s e s' shape moved _ =>
    shape.step (move_of_step moved)
  rintro _ rfl
  exact .init

end Daemon
end LocalPC.Runtime
