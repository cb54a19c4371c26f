import LocalPC.Lib.Runs
import LocalPC.Runtime.RuntimeService

/-!
# The daemon

The threads of `runtime_service.cpp` in daemon mode: the receiver with `OnContractFrame`, the writer
thread with `WriterLoop`, and whoever calls `StartRecording` or `StopRecording` (the control server,
the storage monitor, the main thread, or the receiver itself). A step is a part of one function that
runs without a thread switch. `StartRecording` is one step: it holds the service lock, and its fields
are read by the other threads without one. The report thread with `ReportLoop` changes no field of
the service; its steps are the reports that it writes.
-/

namespace LocalPC.Runtime
open Lib Contract

/-! ## The threads -/

inductive RxPc (m : UInt32)
  | idle
  | received (frame : ContractFrame m)
  | starting (frame : ContractFrame m)
  | dispatched (frame : ContractFrame m)
  | ending
  | counted (frame : ContractFrame m)
  | accepted (frame : ContractFrame m)

inductive WriterPc (m : UInt32)
  | top
  | looping
  | polled (state : SessionState)
  | holding (frame : ContractFrame m)
  | exited

def RxPc.pending {m : UInt32} : RxPc m → List (ContractFrame m)
  | .accepted frame => [frame]
  | _ => []

/-- The frame that is out of the buffer and not written yet. -/
def WriterPc.held {m : UInt32} : WriterPc m → List (ContractFrame m)
  | .holding frame => [frame]
  | _ => []

structure Ledger (m : UInt32) where
  base : DiagnosticsCollector := {}
  tracked : List UInt64 := []
  rejected : Nat := 0
  accepted : List (ContractFrame m) := []
  pushed : List (ContractFrame m) := []
  stopReturned : Bool := false

inductive StopPhase (m : UInt32)
  | entered
  | waiting (i : Nat)
  | joining
  | popping (attempt : Nat) (wroteAny : Bool)
  | writing (attempt : Nat) (frame : ContractFrame m)
  | popped (attempt : Nat) (wroteAny : Bool)
  | closing
  | closed
  | marked
  | summarized (summary : FinalSummary) (counted : Ledger m)
  | released (session : FinishedSession) (counted : Ledger m)

def StopPhase.held {m : UInt32} : StopPhase m → List (ContractFrame m)
  | .writing _ frame => [frame]
  | _ => []

def StopPhase.isReleased {m : UInt32} : StopPhase m → Bool
  | .released .. => true
  | _ => false

structure StopCall (m : UInt32) where
  fromRx : Bool
  reason : Bytes
  sessionDir : Bytes := []
  manifest : TextWrite := .done
  phase : StopPhase m

/-- A finalised session, with the ledger when its summary was written and when the stop returned. -/
structure ClosedSession (m : UInt32) extends FinishedSession where
  counted : Ledger m
  ledger : Ledger m

def ClosedSession.addTexts {m : UInt32} (writes : List SideWrite)
    (session : ClosedSession m) : ClosedSession m :=
  { session with side := session.side ++ writes }

theorem ClosedSession.dir_addTexts {m : UInt32} (writes : List SideWrite)
    (session : ClosedSession m) :
    (session.addTexts writes).dir = session.dir.withTexts writes := Dir.withTexts_append ..

structure Daemon (config : RuntimeConfig) where
  service : RuntimeService config := {}
  rx : RxPc config.maxPayloadBytes := .idle
  writerThread : WriterPc config.maxPayloadBytes := .top
  stop : Option (StopCall config.maxPayloadBytes) := none
  ledger : Ledger config.maxPayloadBytes := {}
  /-- The sessions for which `StartRecording` returned `kOk`. -/
  opened : List Nat := []
  /-- The sessions for which `FinalizeActiveSession` has run. -/
  closed : List (ClosedSession config.maxPayloadBytes) := []
  /-- The directories that `TriggerOfflinePipeline` was called with. -/
  triggered : List Bytes := []

structure StopIo extends FinalizeIo where
  write : WriteIo

inductive Event
  | receive (bytes : Bytes)
  | rx (io : StartIo)
  | writer (io : WriteIo)
  | start (io : StartIo)
  | stop (reason : Bytes)
  | stopStep (io : StopIo)
  | report (io : ReportIo)

namespace Daemon
variable {config : RuntimeConfig}

/-! ## Calls -/

def startRecording (io : StartIo) (s : Daemon config) : Daemon config :=
  let result := s.service.startRecording io
  match result.1 with
  | .kSessionBusy => s
  | rc =>
      { s with
        service := result.2
        ledger := { base := s.service.diagnostics }
        opened := if rc = .kOk then s.opened ++ [s.service.sessions.ids] else s.opened }

def stopReturns (fromRx : Bool) (s : Daemon config) : Daemon config :=
  { s with
    stop := none
    rx := if fromRx then .idle else s.rx
    ledger := { s.ledger with stopReturned := true } }

def stopRecording (fromRx : Bool) (reason : Bytes) (s : Daemon config) : Daemon config :=
  if s.service.finalizeInProgress then s.stopReturns fromRx
  else if s.service.state ≠ .kRecording ∧ s.service.state ≠ .kStopping then s.stopReturns fromRx
  else
    { s with
      service := { s.service with finalizeInProgress := true }
      stop := some { fromRx, reason, phase := .entered } }

/-! ## The receiver -/

def receive (bytes : Bytes) (s : Daemon config) : Option (Daemon config) :=
  match s.rx with
  | .idle =>
      match valid : validateContractFrame bytes config.maxPayloadBytes with
      | .ok () => some { s with rx := .received ⟨bytes, valid⟩ }
      | .error error =>
          some { s with
            service := s.service.rejectFrame error
            ledger := { s.ledger with rejected := s.ledger.rejected + 1 } }
  | _ => none

def dispatch (frame : ContractFrame config.maxPayloadBytes) (s : Daemon config) : Daemon config :=
  if s.service.endsSession frame.header then { s with rx := .ending }
  else
    { s with
      service := s.service.countFrame frame.header
      ledger := { s.ledger with tracked := s.ledger.tracked ++ [frame.header.seq] }
      rx := .counted frame }

def check (frame : ContractFrame config.maxPayloadBytes) (s : Daemon config) : Daemon config :=
  if s.service.state ≠ .kRecording then { s with rx := .idle }
  else { s with
    rx := .accepted frame, ledger := { s.ledger with accepted := s.ledger.accepted ++ [frame] } }

def push (frame : ContractFrame config.maxPayloadBytes) (s : Daemon config) : Daemon config :=
  match s.service.buffer with
  | none => { s with rx := .idle }
  | some _ =>
      { s with
        service := s.service.pushFrame frame
        ledger := { s.ledger with pushed := s.ledger.pushed ++ [frame] }
        rx := .idle }

def rxStep (io : StartIo) (s : Daemon config) : Option (Daemon config) :=
  match s.rx with
  | .idle => none
  | .received frame =>
      some { s with
        rx := if s.service.autoStarts frame.header then .starting frame else .dispatched frame }
  | .starting frame =>
      if s.stop.isSome then none else some { s.startRecording io with rx := .dispatched frame }
  | .dispatched frame => some (s.dispatch frame)
  | .ending => if s.stop.isSome then none else some (s.stopRecording true (ascii "session_ended"))
  | .counted frame => some (s.check frame)
  | .accepted frame => some (s.push frame)

/-! ## The writer thread -/

def poll (state : SessionState) (s : Daemon config) : Daemon config :=
  let nothing : Daemon config :=
    { s with writerThread := if state = .kStopping then .exited else .top }
  if s.service.buffer.isNone || s.service.writer.isNone then nothing
  else
    match s.service.buffer.bind PacketBuffer.pop with
    | none => nothing
    | some (frame, buffer) =>
        { s with
          service := { s.service with buffer := some buffer }, writerThread := .holding frame }

def writeHeld (io : WriteIo) (frame : ContractFrame config.maxPayloadBytes)
    (s : Daemon config) : Daemon config :=
  let result := s.service.writeFrame io frame.bytes
  { s with service := if result.1 then result.2 else result.2.writeFailed, writerThread := .top }

def writerStep (io : WriteIo) (s : Daemon config) : Option (Daemon config) :=
  match s.writerThread with
  | .top => some { s with writerThread := if s.service.stopThreads then .exited else .looping }
  | .looping =>
      let state := s.service.state
      some { s with
        writerThread := if state ≠ .kRecording ∧ state ≠ .kStopping then .top else .polled state }
  | .polled state => some (s.poll state)
  | .holding frame => some (s.writeHeld io frame)
  | .exited => none

/-! ## A stop that finalises the session -/

def goTo (call : StopCall config.maxPayloadBytes)
    (phase : StopPhase config.maxPayloadBytes) (s : Daemon config) :
    Daemon config := { s with stop := some { call with phase } }

/-- `StopRecording` and `FinalizeActiveSession` up to the drain. -/
def enterStop (call : StopCall config.maxPayloadBytes) (s : Daemon config) : Daemon config :=
  goTo call (.waiting 0)
    { s with service := { s.service with sessions := (s.service.sessions.stop call.reason).2 } }

def queued (s : Daemon config) : Nat := (s.service.buffer.map PacketBuffer.size).getD 0

def wait (call : StopCall config.maxPayloadBytes) (i : Nat) (s : Daemon config) : Daemon config :=
  if s.queued = 0 ∨ 500 ≤ i then
    goTo { call with sessionDir := s.service.sessions.sessionDir } .joining
      { s with service := { s.service with stopThreads := true } }
  else s.goTo call (.waiting (i + 1))

def join (call : StopCall config.maxPayloadBytes) (s : Daemon config) : Option (Daemon config) :=
  match s.writerThread with
  | .exited =>
      if s.service.buffer.isNone || s.service.writer.isNone then some (s.goTo call .closing)
      else some (s.goTo call (.popping 0 false))
  | _ => none

def drainPop (call : StopCall config.maxPayloadBytes) (attempt : Nat)
    (wroteAny : Bool) (s : Daemon config) :
    Daemon config :=
  match s.service.buffer.bind PacketBuffer.pop with
  | none => s.goTo call (.popped attempt wroteAny)
  | some (frame, buffer) =>
      goTo call (.writing attempt frame)
        { s with service := { s.service with buffer := some buffer } }

def drainWrite (io : WriteIo) (call : StopCall config.maxPayloadBytes) (attempt : Nat)
    (frame : ContractFrame config.maxPayloadBytes) (s : Daemon config) : Daemon config :=
  let result := s.service.writeFrame io frame.bytes
  if result.1 then goTo call (.popping attempt true) { s with service := result.2 }
  else if result.2.errorLog then goTo call .closing { s with service := result.2.writeFailed }
  else goTo call (.popping attempt true) { s with service := result.2 }

def drainDone (attempt : Nat) (wroteAny : Bool) (s : Daemon config) : Bool :=
  (!wroteAny && s.queued == 0) || 200 ≤ attempt + 1

def drainNext (call : StopCall config.maxPayloadBytes) (attempt : Nat)
    (wroteAny : Bool) (s : Daemon config) :
    Daemon config :=
  if s.drainDone attempt wroteAny then s.goTo call .closing
  else s.goTo call (.popping (attempt + 1) false)

def mark (io : StopIo) (call : StopCall config.maxPayloadBytes)
    (s : Daemon config) : Daemon config :=
  goTo call .marked { s with service := s.service.markStopped io.toFinalizeIo call.reason }

def summarize (io : StopIo) (call : StopCall config.maxPayloadBytes)
    (s : Daemon config) : Daemon config :=
  let summary := s.service.finalSummary io.durationSec call.reason
  goTo call (.summarized summary s.ledger)
    { s with service := s.service.writeFinalSummary io.summary summary }

def release (io : StopIo) (call : StopCall config.maxPayloadBytes) (summary : FinalSummary)
    (counted : Ledger config.maxPayloadBytes) (s : Daemon config) : Daemon config :=
  let reported := s.service.writeRuntimeReport io.report
  goTo call (.released (reported.finished summary call.manifest) counted)
    { s with service := reported.release }

def finish (call : StopCall config.maxPayloadBytes) (session : FinishedSession)
    (counted : Ledger config.maxPayloadBytes) (s : Daemon config) : Daemon config :=
  stopReturns call.fromRx
    { s with
      service := { s.service with finalizeInProgress := false }
      writerThread := .top
      triggered := if call.sessionDir = [] then s.triggered else s.triggered ++ [call.sessionDir]
      closed := s.closed ++ [{ session with counted, ledger := s.ledger }] }

def advance (io : StopIo) (call : StopCall config.maxPayloadBytes) (s : Daemon config) :
    Option (Daemon config) :=
  match call.phase with
  | .entered => some (s.enterStop call)
  | .waiting i => some (s.wait call i)
  | .joining => s.join call
  | .popping attempt wroteAny => some (s.drainPop call attempt wroteAny)
  | .writing attempt frame => some (s.drainWrite io.write call attempt frame)
  | .popped attempt wroteAny => some (s.drainNext call attempt wroteAny)
  | .closing =>
      some (goTo { call with manifest := io.close.manifest } .closed
        { s with service := s.service.closeWriter io.close })
  | .closed => some (s.mark io call)
  | .marked => some (s.summarize io call)
  | .summarized summary counted => some (s.release io call summary counted)
  | .released session counted => some (s.finish call session counted)

/-! ## The report thread -/

/-- `FinalizeActiveSession` joins the report thread together with the writer thread. -/
def reporting (s : Daemon config) : Bool :=
  match s.stop with
  | none => true
  | some call =>
      match call.phase with
      | .entered | .waiting _ | .joining => true
      | _ => false

/-- A report goes to the directory of the active session, which may be finished already. -/
def report (io : ReportIo) (s : Daemon config) : Daemon config :=
  { s with
    service := s.service.writeRuntimeReport io
    closed := s.closed.map fun session =>
      if s.service.sessions.activeId = some session.number then
        session.addTexts (s.service.runtimeReportWrites io)
      else session }

/-! ## The system -/

def step (s : Daemon config) : Event → Option (Daemon config)
  | .receive bytes => s.receive bytes
  | .rx io => s.rxStep io
  | .writer io => s.writerStep io
  | .start io => if s.stop.isSome then none else some (s.startRecording io)
  | .stop reason => if s.stop.isSome then none else some (s.stopRecording false reason)
  | .stopStep io => s.stop.bind fun call => s.advance io call
  | .report io => if s.reporting then some (s.report io) else none

end Daemon

namespace Daemon
variable {config : RuntimeConfig}

/-! ## What a step does -/

inductive StopMove (io : StopIo) (call : StopCall config.maxPayloadBytes)
    (s : Daemon config) : Daemon config → Prop
  | enter (here : call.phase = .entered) : StopMove io call s (s.enterStop call)
  | wait (i : Nat) (here : call.phase = .waiting i) :
      StopMove io call s (s.goTo call (.waiting (i + 1)))
  | waited (i : Nat) (here : call.phase = .waiting i) :
      StopMove io call s (goTo { call with sessionDir := s.service.sessions.sessionDir } .joining
        { s with service := { s.service with stopThreads := true } })
  | unequipped (here : call.phase = .joining) (exited : s.writerThread = .exited)
      (missing : s.service.buffer = none ∨ s.service.writer = none) :
      StopMove io call s (s.goTo call .closing)
  | joined (here : call.phase = .joining) (exited : s.writerThread = .exited) :
      StopMove io call s (s.goTo call (.popping 0 false))
  | empty (attempt : Nat) (wroteAny : Bool) (here : call.phase = .popping attempt wroteAny)
      (none : s.service.buffer.bind PacketBuffer.pop = none) :
      StopMove io call s (s.goTo call (.popped attempt wroteAny))
  | take (attempt : Nat) (wroteAny : Bool) (here : call.phase = .popping attempt wroteAny)
      (frame : ContractFrame config.maxPayloadBytes)
      (rest : PacketBuffer (ContractFrame config.maxPayloadBytes))
      (some : s.service.buffer.bind PacketBuffer.pop = some (frame, rest)) :
      StopMove io call s (goTo call (.writing attempt frame)
        { s with service := { s.service with buffer := .some rest } })
  | write (attempt : Nat) (frame : ContractFrame config.maxPayloadBytes)
      (here : call.phase = .writing attempt frame) :
      StopMove io call s (s.drainWrite io.write call attempt frame)
  | again (attempt : Nat) (wroteAny : Bool) (here : call.phase = .popped attempt wroteAny)
      (more : s.drainDone attempt wroteAny = false) :
      StopMove io call s (s.goTo call (.popping (attempt + 1) false))
  | leave (attempt : Nat) (wroteAny : Bool) (here : call.phase = .popped attempt wroteAny)
      (done : s.drainDone attempt wroteAny = true) :
      StopMove io call s (s.goTo call .closing)
  | close (here : call.phase = .closing) :
      StopMove io call s (goTo { call with manifest := io.close.manifest } .closed
        { s with service := s.service.closeWriter io.close })
  | mark (here : call.phase = .closed) : StopMove io call s (s.mark io call)
  | summarize (here : call.phase = .marked) : StopMove io call s (s.summarize io call)
  | release (summary : FinalSummary) (counted : Ledger config.maxPayloadBytes)
      (here : call.phase = .summarized summary counted) :
      StopMove io call s (s.release io call summary counted)
  | finish (session : FinishedSession) (counted : Ledger config.maxPayloadBytes)
      (here : call.phase = .released session counted) :
      StopMove io call s (s.finish call session counted)

theorem stopMove_of_advance {io : StopIo}
    {call : StopCall config.maxPayloadBytes} {s s' : Daemon config}
    (moved : s.advance io call = some s') : StopMove io call s s' := by
  cases here : call.phase with
  | entered =>
      simp only [advance, here, Option.some.injEq] at moved
      exact moved ▸ .enter here
  | waiting i =>
      simp only [advance, here, wait, Option.some.injEq] at moved
      split at moved
      · exact moved ▸ .waited i here
      · exact moved ▸ .wait i here
  | joining =>
      simp only [advance, here, join] at moved
      split at moved
      · rename_i exited
        split at moved
        · rename_i missing
          rw [Bool.or_eq_true, Option.isNone_iff_eq_none, Option.isNone_iff_eq_none] at missing
          exact Option.some.inj moved ▸ .unequipped here exited missing
        · exact Option.some.inj moved ▸ .joined here exited
      · cases moved
  | popping attempt wroteAny =>
      simp only [advance, here, drainPop, Option.some.injEq] at moved
      split at moved
      · rename_i none
        exact moved ▸ .empty attempt wroteAny here none
      · rename_i frame rest some
        exact moved ▸ .take attempt wroteAny here frame rest some
  | writing attempt frame =>
      simp only [advance, here, Option.some.injEq] at moved
      exact moved ▸ .write attempt frame here
  | popped attempt wroteAny =>
      simp only [advance, here, drainNext, Option.some.injEq] at moved
      split at moved
      · rename_i done
        exact moved ▸ .leave attempt wroteAny here done
      · rename_i more
        exact moved ▸ .again attempt wroteAny here (by simpa using more)
  | closing =>
      simp only [advance, here, Option.some.injEq] at moved
      exact moved ▸ .close here
  | closed =>
      simp only [advance, here, Option.some.injEq] at moved
      exact moved ▸ .mark here
  | marked =>
      simp only [advance, here, Option.some.injEq] at moved
      exact moved ▸ .summarize here
  | summarized summary counted =>
      simp only [advance, here, Option.some.injEq] at moved
      exact moved ▸ .release summary counted here
  | released session counted =>
      simp only [advance, here, Option.some.injEq] at moved
      exact moved ▸ .finish session counted here

inductive Move (s : Daemon config) : Event → Daemon config → Prop
  | rx {e : Event} (pc : RxPc config.maxPayloadBytes) (quiet : pc.pending = [])
      (lost : s.rx.pending ≠ [] → s.service.buffer = none) : Move s e { s with rx := pc }
  | reject (bytes : Bytes) (error : String) : Move s (.receive bytes)
      { s with
        service := s.service.rejectFrame error
        ledger := { s.ledger with rejected := s.ledger.rejected + 1 } }
  | count (io : StartIo) (frame : ContractFrame config.maxPayloadBytes)
      (here : s.rx = .dispatched frame) :
      Move s (.rx io)
        { s with
          service := s.service.countFrame frame.header
          ledger := { s.ledger with tracked := s.ledger.tracked ++ [frame.header.seq] }
          rx := .counted frame }
  | accept (io : StartIo) (frame : ContractFrame config.maxPayloadBytes)
      (here : s.rx = .counted frame)
      (recording : s.service.state = .kRecording) :
      Move s (.rx io)
        { s with
          rx := .accepted frame, ledger :=
            { s.ledger with accepted := s.ledger.accepted ++ [frame] } }
  | push (io : StartIo) (frame : ContractFrame config.maxPayloadBytes)
      (here : s.rx = .accepted frame)
      (buffer : PacketBuffer (ContractFrame config.maxPayloadBytes))
        (held : s.service.buffer = some buffer) :
      Move s (.rx io)
        { s with
          service := s.service.pushFrame frame
          ledger := { s.ledger with pushed := s.ledger.pushed ++ [frame] }
          rx := .idle }
  | start {e : Event} (io : StartIo) (free : s.stop = none) (pc : RxPc config.maxPayloadBytes)
      (same : pc.pending = s.rx.pending) : Move s e { s.startRecording io with rx := pc }
  | stop {e : Event} (free : s.stop = none) (fromRx : Bool) (reason : Bytes)
      (calls : fromRx = true → s.rx.pending = []) : Move s e (s.stopRecording fromRx reason)
  | writerTop (io : WriteIo) (here : s.writerThread = .top) :
      Move s (.writer io)
        { s with writerThread := if s.service.stopThreads then .exited else .looping }
  | writerLook (io : WriteIo) (here : s.writerThread = .looping) :
      Move s (.writer io)
        { s with
          writerThread :=
            if s.service.state ≠ .kRecording ∧ s.service.state ≠ .kStopping then .top
            else .polled s.service.state }
  | writerNothing (io : WriteIo) (state : SessionState) (here : s.writerThread = .polled state) :
      Move s (.writer io) { s with writerThread := if state = .kStopping then .exited else .top }
  | take (io : WriteIo) (state : SessionState) (here : s.writerThread = .polled state)
      (frame : ContractFrame config.maxPayloadBytes)
        (rest : PacketBuffer (ContractFrame config.maxPayloadBytes))
      (popped : s.service.buffer.bind PacketBuffer.pop = some (frame, rest)) :
      Move s (.writer io)
        { s with service := { s.service with buffer := some rest }, writerThread := .holding frame }
  | write (io : WriteIo) (frame : ContractFrame config.maxPayloadBytes)
      (here : s.writerThread = .holding frame) :
      Move s (.writer io) (s.writeHeld io frame)
  | advance (io : StopIo) (call : StopCall config.maxPayloadBytes) (running : s.stop = some call)
      {s' : Daemon config} (move : StopMove io call s s') : Move s (.stopStep io) s'
  | report (io : ReportIo) (running : s.reporting = true) : Move s (.report io) (s.report io)

theorem rx_startRecording (io : StartIo) (s : Daemon config) : (s.startRecording io).rx = s.rx := by
  unfold startRecording
  dsimp only
  split <;> rfl

theorem move_of_rxStep {io : StartIo} {s s' : Daemon config} (moved : s.rxStep io = some s') :
    Move s (.rx io) s' := by
  cases here : s.rx with
  | idle =>
      simp only [rxStep, here] at moved
      cases moved
  | received frame =>
      simp only [rxStep, here, Option.some.injEq] at moved
      refine moved ▸ .rx _ ?_ (by simp [here, RxPc.pending])
      split <;> rfl
  | starting frame =>
      simp only [rxStep, here] at moved
      split at moved
      · cases moved
      · rename_i free
        exact Option.some.inj moved ▸ .start io (by simpa using free) _
          (by simp [here, RxPc.pending])
  | dispatched frame =>
      simp only [rxStep, here, dispatch, Option.some.injEq] at moved
      split at moved
      · exact moved ▸ .rx _ rfl (by simp [here, RxPc.pending])
      · exact moved ▸ .count io frame here
  | ending =>
      simp only [rxStep, here] at moved
      split at moved
      · cases moved
      · rename_i free
        exact Option.some.inj moved ▸ .stop (by simpa using free) _ _ (by simp [here, RxPc.pending])
  | counted frame =>
      simp only [rxStep, here, check, Option.some.injEq] at moved
      split at moved
      · exact moved ▸ .rx _ rfl (by simp [here, RxPc.pending])
      · rename_i recording
        exact moved ▸ .accept io frame here (not_not.mp recording)
  | accepted frame =>
      simp only [rxStep, here, push, Option.some.injEq] at moved
      split at moved
      · rename_i none
        exact moved ▸ .rx _ rfl fun _ => none
      · rename_i buffer held
        exact moved ▸ .push io frame here buffer held

theorem move_of_writerStep {io : WriteIo} {s s' : Daemon config}
    (moved : s.writerStep io = some s') :
    Move s (.writer io) s' := by
  cases here : s.writerThread with
  | top =>
      simp only [writerStep, here, Option.some.injEq] at moved
      exact moved ▸ .writerTop io here
  | looping =>
      simp only [writerStep, here, Option.some.injEq] at moved
      exact moved ▸ .writerLook io here
  | polled state =>
      simp only [writerStep, here, poll, Option.some.injEq] at moved
      split at moved
      · exact moved ▸ .writerNothing io state here
      · split at moved
        · exact moved ▸ .writerNothing io state here
        · rename_i frame rest popped
          exact moved ▸ .take io state here frame rest popped
  | holding frame =>
      simp only [writerStep, here, Option.some.injEq] at moved
      exact moved ▸ .write io frame here
  | exited =>
      simp only [writerStep, here] at moved
      cases moved

theorem move_of_step {s s' : Daemon config} {e : Event}
    (moved : s.step e = some s') : Move s e s' := by
  cases e with
  | receive bytes =>
      simp only [step, receive] at moved
      split at moved
      · rename_i here
        have none : s.rx.pending = [] := by rw [here]; rfl
        split at moved
        · exact Option.some.inj moved ▸ .rx _ rfl (by simp [none])
        · rename_i error _
          exact Option.some.inj moved ▸ .reject bytes error
      · cases moved
  | rx io => exact move_of_rxStep moved
  | writer io => exact move_of_writerStep moved
  | start io =>
      simp only [step] at moved
      split at moved
      · cases moved
      · rename_i free
        have move : Move s (.start io) { s.startRecording io with rx := s.rx } :=
          .start io (by simpa using free) s.rx rfl
        rw [← rx_startRecording io s] at move
        exact Option.some.inj moved ▸ move
  | stop reason =>
      simp only [step] at moved
      split at moved
      · cases moved
      · rename_i free
        exact Option.some.inj moved ▸ .stop (by simpa using free) false reason (by simp)
  | stopStep io =>
      simp only [step] at moved
      obtain ⟨call, running, moved⟩ := Option.bind_eq_some_iff.mp moved
      exact .advance io call running (stopMove_of_advance moved)
  | report io =>
      simp only [step] at moved
      split at moved
      · rename_i running
        exact Option.some.inj moved ▸ .report io running
      · cases moved

def Rewritten {m : UInt32} (session session' : ClosedSession m) : Prop :=
  ∃ more : List SideWrite, (∀ w ∈ more, w.file = .runtimeReport) ∧ session' = session.addTexts more

theorem rewritten_report (io : ReportIo) (s : Daemon config)
    (session : ClosedSession config.maxPayloadBytes) :
    Rewritten session (if s.service.sessions.activeId = some session.number then
      session.addTexts (s.service.runtimeReportWrites io) else session) := by
  have reports : ∀ w ∈ s.service.runtimeReportWrites io, w.file = .runtimeReport := by
    unfold RuntimeService.runtimeReportWrites
    split <;> simp
  split
  · exact ⟨_, reports, rfl⟩
  · exact ⟨[], nofun, by simp [ClosedSession.addTexts]⟩

theorem closed_report (io : ReportIo) (s : Daemon config) :
    List.Forall₂ Rewritten s.closed (s.report io).closed :=
  List.forall₂_map_right_iff.mpr
    (List.forall₂_same.mpr fun session _ => s.rewritten_report io session)

theorem mem_of_closed_report {io : ReportIo} {s : Daemon config}
    {session : ClosedSession config.maxPayloadBytes} (member : session ∈ s.closed) :
    ∃ after ∈ (s.report io).closed, Rewritten session after :=
  ⟨_, List.mem_map_of_mem member, s.rewritten_report io session⟩

theorem mem_closed_report {io : ReportIo} {s : Daemon config}
    {session : ClosedSession config.maxPayloadBytes} (member : session ∈ (s.report io).closed) :
    ∃ before ∈ s.closed, Rewritten before session := by
  obtain ⟨before, old, rfl⟩ := List.mem_map.mp member
  exact ⟨before, old, s.rewritten_report io before⟩

end Daemon

def daemonMachine (config : RuntimeConfig) : Machine (Daemon config) Event :=
  Machine.ofPartial {} Daemon.step

namespace Daemon

/-! ## Sample runs -/

def after (config : RuntimeConfig) (events : List Event) : Daemon config :=
  (events.foldlM step {}).getD {}

theorem reach_after {config : RuntimeConfig}
    {allowed : Daemon config → Event → Prop} {events : List Event}
    (runs : (events.foldlM step ({} : Daemon config)).isSome = true)
    (ok : Machine.AllowedAlong allowed step {} events) :
    (daemonMachine config).Reach allowed (after config events) := by
  refine .foldlM ?_ ok
  obtain ⟨s, ran⟩ := Option.isSome_iff_exists.mp runs
  rw [after, ran]
  rfl

def cleanStart : StartIo := { now := 0, openIo := .clean 0 }

def cleanStop : StopIo := { write := .clean {}, close := .clean 0 }

def failedWrite : WriteIo := { WriteIo.clean {} with chunkWrite := .failed 0 }

def audioFrame : Bytes := sealFrame 100 7 10 11 [1]

def acceptOne (frame : Bytes) : List Event := .receive frame :: List.replicate 3 (.rx cleanStart)

def recordOne (frame : Bytes) (write : WriteIo) : List Event :=
  acceptOne frame ++ .rx cleanStart :: List.replicate 4 (.writer write)

def drainAll : List Event :=
  [.stop (ascii "user_stop"), .stopStep cleanStop, .stopStep cleanStop, .writer (.clean {})] ++
    List.replicate 3 (.stopStep cleanStop)

def finishStop : List Event := List.replicate 5 (.stopStep cleanStop)

def stoppedEvents : List Event :=
  .start cleanStart :: recordOne audioFrame (.clean {}) ++ drainAll ++ finishStop

theorem stoppedEvents_run :
    (stoppedEvents.foldlM step ({} : Daemon {})).isSome = true := by decide +kernel

/-- The stop comes after the check of the session state, and the push after the end of the writer
thread: the frame is left to the drain. -/
def recordLate (frame : Bytes) : List Event :=
  acceptOne frame ++
    [.stop (ascii "user_stop"), .stopStep cleanStop, .stopStep cleanStop, .writer (.clean {}),
      .rx cleanStart] ++ List.replicate 7 (.stopStep cleanStop)

def firstSession : List Event :=
  .start cleanStart :: recordOne (sampleFrame 1 1000000000).bytes (.clean {}) ++
    recordOne (sampleFrame 2 13000000000).bytes (.clean {}) ++
    .report {} :: recordOne (sampleFrame 20 14000000000).bytes (.clean {}) ++
    recordLate (sampleFrame 21 30000000000).bytes ++ finishStop

def secondSession : List Event :=
  acceptOne (sampleFrame 22 31000000000).bytes ++
    .start { cleanStart with now := 60, clock := { utcMs := 60000 } } ::
    recordOne (sampleFrame 23 62000000000).bytes (.clean {}) ++ drainAll ++ finishStop

def twoSessions : List Event := firstSession ++ secondSession

end Daemon

end LocalPC.Runtime
