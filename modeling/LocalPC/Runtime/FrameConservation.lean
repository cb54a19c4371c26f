import LocalPC.Runtime.ChunkFiles
import LocalPC.Runtime.DaemonInvariant

namespace LocalPC.Runtime
open Lib Contract

def StopPhase.writerClosed {m : UInt32} : StopPhase m → Bool
  | .closed | .marked | .summarized .. | .released .. => true
  | _ => false

attribute [simp] StopPhase.held StopPhase.writerClosed

/-- Every one of `frames` is in the chunk files of `dir` or among the `dropped` ones. -/
def Accounted {m : UInt32} (dir : Dir) (dropped : Nat) (frames : List (ContractFrame m)) : Prop :=
  ∃ (segments : List (List Bytes)) (lost : List Bytes),
    dir.chunks.Perm (segments.map List.flatten) ∧
    lost.length = dropped ∧ (frames.map ContractFrame.bytes).Perm (segments.flatten ++ lost)

theorem Accounted.withTexts {m : UInt32} {dir : Dir} {dropped : Nat}
    {frames : List (ContractFrame m)} (accounted : Accounted dir dropped frames)
    (writes : List SideWrite) :
    Accounted (dir.withTexts writes) dropped frames := by
  unfold Accounted
  rw [Dir.chunks_withTexts]
  exact accounted

theorem Accounted.length {m : UInt32} {dir : Dir} {frames : List (ContractFrame m)}
    (accounted : Accounted dir 0 frames) :
    dir.chunks.flatten.length = (frames.map ContractFrame.bytes).flatten.length := by
  obtain ⟨segments, lost, chunks, count, perm⟩ := accounted
  rw [List.length_eq_zero_iff.mp count, List.append_nil] at perm
  rw [chunks.flatten.length_eq, perm.flatten.length_eq, List.flatten_flatten]

namespace Daemon
variable {config : RuntimeConfig}

/-- The frames that are out of the buffer and not written yet. -/
def held (s : Daemon config) : List (ContractFrame config.maxPayloadBytes) :=
  s.writerThread.held ++ (s.stop.map fun call => call.phase.held).getD []

structure Live (s : Daemon config) (buffer : PacketBuffer (ContractFrame config.maxPayloadBytes))
    (run : WriterRun) : Prop where
  conserved : ∃ lost : List Bytes, lost.length = buffer.dropped ∧
    (s.ledger.pushed.map ContractFrame.bytes).Perm
      (run.written ++ lost ++ (buffer.queue ++ s.held).map ContractFrame.bytes)
  filed : ∃ segments : List (List Bytes), segments.flatten = run.written ∧
    ChunksOf segments run.writer.dir
  atEnd : (∀ call, s.stop = some call → call.phase.writerClosed = false) →
    ∃ older last, AtEnd older last run.writer ∧ (older ++ [last]).flatten = run.written

/-- A session is finalised, or lost to a failed write, or accounts for its frames. -/
inductive Sound (s : Daemon config) : Prop
  | gone (buffer : s.service.buffer = none) (writer : s.service.writer = none)
  | failed (free : s.stop = none) (error : s.service.state = .kError)
  | live (buffer : PacketBuffer (ContractFrame config.maxPayloadBytes)) (run : WriterRun)
      (queue : s.service.buffer = some buffer) (writer : s.service.writer = some run)
      (live : s.Live buffer run)

def frameWrite (s : Daemon config) (e : Event) :
    Option (WriteIo × ContractFrame config.maxPayloadBytes) :=
  match e with
  | .writer io => s.writerThread.held.head?.map fun frame => (io, frame)
  | .stopStep io =>
      (s.stop.bind fun call => call.phase.held.head?).map fun frame => (io.write, frame)
  | _ => none

def writeFails (s : Daemon config) (e : Event) : Bool :=
  (s.frameWrite e).any fun (io, frame) => !(s.service.writeFrame io frame.bytes).1

def WritesSucceed (s : Daemon config) (e : Event) : Prop := s.writeFails e = false

instance (s : Daemon config) (e : Event) : Decidable (WritesSucceed s e) :=
  inferInstanceAs (Decidable (_ = _))

section FrameWrite
variable {s : Daemon config} {frame : ContractFrame config.maxPayloadBytes}

theorem frameWrite_writer (here : s.writerThread = .holding frame) (io : WriteIo) :
    s.frameWrite (.writer io) = some (io, frame) := by
  simp [frameWrite, here, WriterPc.held]

theorem frameWrite_stopStep {call : StopCall config.maxPayloadBytes}
    (running : s.stop = some call) {attempt : Nat} (here : call.phase = .writing attempt frame)
    (io : StopIo) : s.frameWrite (.stopStep io) = some (io.write, frame) := by
  simp [frameWrite, running, here, StopPhase.held]

theorem writeFails_eq {e : Event} {io : WriteIo}
    (written : s.frameWrite e = some (io, frame)) {run : WriterRun}
    (held : s.service.writer = some run) :
    s.writeFails e = !(run.writer.writeContractFrame io frame.bytes).1 := by
  rw [writeFails, written, Option.any_some]
  dsimp only
  rw [RuntimeService.writeFrame_some held]
  cases (run.writer.writeContractFrame io frame.bytes).1 <;> rfl

end FrameWrite

/-- The write opens a chunk file that the chunk list has an entry for. -/
def Reopens (s : Daemon config) (e : Event) : Prop :=
  ∃ write ∈ s.frameWrite e, ∃ run ∈ s.service.writer,
    (WriterCall.write write.1 write.2.bytes).Reopens run.writer

instance (s : Daemon config) (e : Event) : Decidable (s.Reopens e) :=
  inferInstanceAs (Decidable (∃ _ ∈ _, ∃ _ ∈ _, _))

namespace Live
variable {s s' : Daemon config}
  {buffer buffer' : PacketBuffer (ContractFrame config.maxPayloadBytes)} {run : WriterRun}

theorem transfer (live : Live s buffer run) (dropped : buffer'.dropped = buffer.dropped)
    (pushed : s'.ledger.pushed = s.ledger.pushed)
    (moved : (buffer'.queue ++ s'.held).Perm (buffer.queue ++ s.held))
    (closed : (∀ call, s'.stop = some call → call.phase.writerClosed = false) →
      ∀ call, s.stop = some call → call.phase.writerClosed = false) : Live s' buffer' run where
  conserved := by
    obtain ⟨lost, count, perm⟩ := live.conserved
    refine ⟨lost, count.trans dropped.symm, ?_⟩
    rw [pushed]
    exact perm.trans ((moved.map _).symm.append_left _)
  filed := live.filed
  atEnd still := live.atEnd (closed still)

theorem push (live : Live s buffer run) (frame : ContractFrame config.maxPayloadBytes)
    (pushed : s'.ledger.pushed = s.ledger.pushed ++ [frame]) (held : s'.held = s.held)
    (stop : s'.stop = s.stop) :
    Live s' (buffer.push frame) run where
  conserved := by
    obtain ⟨lost, count, perm⟩ := live.conserved
    obtain ⟨dropped, split, more⟩ := buffer.push_drops frame
    have split := congrArg (List.map ContractFrame.bytes) split
    refine ⟨lost ++ dropped.map ContractFrame.bytes, ?_, ?_⟩
    · rw [List.length_append, List.length_map, count, more]
    · rw [pushed, held]
      refine List.perm_iff_count.mpr fun bytes => ?_
      have before := List.perm_iff_count.mp perm bytes
      have both := congrArg (List.count bytes) split
      simp only [List.map_append, List.count_append] at before both ⊢
      omega
  filed := live.filed
  atEnd := by
    rw [stop]
    exact live.atEnd

theorem write (live : Live s buffer run) {io : WriteIo}
    {frame : ContractFrame config.maxPayloadBytes}
    (done : (run.writer.writeContractFrame io frame.bytes).1 = true)
    (fresh : ¬ (WriterCall.write io frame.bytes).Reopens run.writer)
    (open' : ∀ call, s.stop = some call → call.phase.writerClosed = false)
    (pushed : s'.ledger.pushed = s.ledger.pushed) (held : s.held.Perm (frame :: s'.held)) :
    Live s' buffer (run.step (.write io frame.bytes)) := by
  obtain ⟨older, last, here, frames⟩ := live.atEnd open'
  obtain ⟨older', last', there, more⟩ := here.write done fresh
  have written : (run.step (.write io frame.bytes)).written = run.written ++ [frame.bytes] := by
    rw [WriterRun.step, WriterCall.written, if_pos done]
  have same : (older' ++ [last']).flatten = (run.step (.write io frame.bytes)).written := by
    rw [more, frames, written]
  refine ⟨?_, ⟨older' ++ [last'], same, there.files⟩, fun _ => ⟨older', last', there, same⟩⟩
  obtain ⟨lost, count, perm⟩ := live.conserved
  refine ⟨lost, count, ?_⟩
  rw [pushed, written]
  refine List.perm_iff_count.mpr fun bytes => ?_
  have before := List.perm_iff_count.mp perm bytes
  have taken := List.perm_iff_count.mp (held.map ContractFrame.bytes) bytes
  simp only [List.map_append, List.map_cons, List.count_append, List.count_cons, List.count_nil]
    at before taken ⊢
  omega

theorem close (live : Live s buffer run) (io : FlushIo) (held : s'.held = s.held)
    (pushed : s'.ledger.pushed = s.ledger.pushed) {call : StopCall config.maxPayloadBytes}
    (stop : s'.stop = some call) (closed : call.phase.writerClosed = true) :
    Live s' buffer (run.step (.close io)) where
  conserved := by
    rw [held, pushed, show (run.step (.close io)).written = run.written from List.append_nil _]
    exact live.conserved
  filed := by
    obtain ⟨segments, frames, files⟩ := live.filed
    exact ⟨segments, frames.trans (List.append_nil _).symm,
      files.transfer (SameChunks.flush io run.writer)⟩
  atEnd still := by
    rw [still call stop] at closed
    cases closed

theorem start {io : StartIo} (opens : RuntimeService.opens config io = true)
    (pushed : s.ledger.pushed = []) (held : s.held = [])
    (buffer : PacketBuffer (ContractFrame config.maxPayloadBytes)) (queue : buffer.queue = [])
    (dropped : buffer.dropped = 0) :
    Live s buffer ((WriterRun.fresh config io.now).step (.open io.openIo)) := by
  have here := AtEnd.opened opens
  refine ⟨⟨[], dropped.symm, ?_⟩, ⟨[[]], rfl, here.files⟩, fun _ => ⟨[], [], here, rfl⟩⟩
  rw [pushed, queue, held]
  exact List.Perm.refl _

end Live
/-- A frame write fails only while no stop is running, and one that succeeds opens no chunk file
twice. -/
structure KeepsFrames (s : Daemon config) (e : Event) : Prop where
  fails : s.writeFails e = true → s.stop = none
  reopens : s.writeFails e = false → ¬ s.Reopens e

instance (s : Daemon config) (e : Event) : Decidable (KeepsFrames s e) :=
  decidable_of_iff
    ((s.writeFails e = true → s.stop = none) ∧ (s.writeFails e = false → ¬ s.Reopens e))
    ⟨fun h => ⟨h.1, h.2⟩, fun h => ⟨h.fails, h.reopens⟩⟩

theorem held_of_free {s : Daemon config} (shape : Shape s) (free : s.stop = none)
    (idle : s.service.state ≠ .kRecording) : s.held = [] := by
  rw [held, (shape.resting free idle).held, free]
  rfl

namespace Sound
variable {s s' : Daemon config}

theorem init : Sound ({} : Daemon config) := .gone rfl rfl

theorem transfer (sound : Sound s) (state : s'.service.state = s.service.state)
    (stop : s'.stop = s.stop) (buffer : s'.service.buffer = s.service.buffer)
    (writer : s'.service.writer = s.service.writer) (pushed : s'.ledger.pushed = s.ledger.pushed)
    (thread : s'.writerThread.held = s.writerThread.held) :
    Sound s' := by
  cases sound with
  | gone noBuffer noWriter => exact .gone (buffer.trans noBuffer) (writer.trans noWriter)
  | failed free error => exact .failed (stop.trans free) (state.trans error)
  | live b run queue open' live =>
      have held : s'.held = s.held := by rw [held, held, thread, stop]
      refine .live b run (buffer.trans queue) (writer.trans open') (live.transfer rfl pushed ?_ ?_)
      · rw [held]
      · rw [stop]
        exact id

theorem goTo (sound : Sound s) {call call' : StopCall config.maxPayloadBytes}
    (running : s.stop = some call) (after : s'.stop = some call')
    (buffer : s'.service.buffer = s.service.buffer) (writer : s'.service.writer = s.service.writer)
    (pushed : s'.ledger.pushed = s.ledger.pushed) (thread : s'.writerThread = s.writerThread)
    (phases : call'.phase.held = call.phase.held ∧
      (call.phase.writerClosed = true → call'.phase.writerClosed = true)) : Sound s' := by
  cases sound with
  | gone noBuffer noWriter => exact .gone (buffer.trans noBuffer) (writer.trans noWriter)
  | failed free error =>
      rw [running] at free
      cases free
  | live b run queue open' live =>
      have held : s'.held = s.held := by
        rw [held, held, thread, after, running]
        simp only [Option.map_some, Option.getD_some, phases.1]
      refine .live b run (buffer.trans queue) (writer.trans open')
        (live.transfer rfl pushed ?_ fun still other same => ?_)
      · rw [held]
      · rw [running] at same
        cases same
        have open'' := still call' after
        by_contra wasClosed
        rw [phases.2 (by simpa using wasClosed)] at open''
        cases open''

theorem live_of_running (sound : Sound s) {call : StopCall config.maxPayloadBytes}
    (running : s.stop = some call) (equipped : s.service.Equipped) :
    ∃ buffer run, s.service.buffer = some buffer ∧ s.service.writer = some run ∧
      s.Live buffer run := by
  cases sound with
  | gone noBuffer noWriter =>
      have some := equipped.2.1
      rw [noBuffer] at some
      cases some
  | failed free error =>
      rw [running] at free
      cases free
  | live buffer run queue open' live => exact ⟨buffer, run, queue, open', live⟩

theorem startRecording (sound : Sound s) (shape : Shape s) (free : s.stop = none) (io : StartIo)
    (pc : RxPc config.maxPayloadBytes) : Sound { s.startRecording io with rx := pc } := by
  rcases s.startRecording_cases io with ⟨-, same⟩ | ⟨idle, sessions, state, made⟩ |
      ⟨idle, opens, sessions, state, -, made⟩
  · rw [same]
    exact sound.transfer rfl rfl rfl rfl rfl rfl
  · rw [made]
    exact .failed free state
  · have nothing := held_of_free shape free idle
    rw [made]
    refine .live _ _ rfl rfl (Live.start opens ?_ ?_ _ ?_ ?_)
    · rfl
    · exact nothing
    · rfl
    · rfl

theorem writeHeld (sound : Sound s) (shape : Shape s) {io : WriteIo}
    {frame : ContractFrame config.maxPayloadBytes} (here : s.writerThread = .holding frame)
    (allowed : KeepsFrames s (.writer io)) : Sound (s.writeHeld io frame) := by
  obtain ⟨⟨log, -, writer⟩, started⟩ := shape.holding here
  obtain ⟨run, held⟩ := Option.isSome_iff_exists.mp writer
  have written := frameWrite_writer here io
  rcases writeHeld_cases held log io frame with ⟨done, next⟩ | ⟨fails, next⟩
  · have succeeds : s.writeFails (.writer io) = false := by
      rw [writeFails_eq written held, done]
      rfl
    have fresh : ¬ (WriterCall.write io frame.bytes).Reopens run.writer := fun reopens =>
      allowed.reopens succeeds ⟨_, written, run, held, reopens⟩
    rw [next]
    cases sound with
    | gone noBuffer noWriter =>
        rw [held] at noWriter
        cases noWriter
    | failed free error => exact .failed free error
    | live buffer run' queue open' live =>
        rw [held] at open'
        cases open'
        refine .live buffer _ queue rfl (live.write done fresh (fun call running => ?_) rfl ?_)
        · rcases shape.exited_or_early running with exited | early | ⟨i, early⟩ | early
          · rw [here] at exited
            cases exited
          all_goals rw [early]; rfl
        · simp [Daemon.held, here, WriterPc.held]
  · have fails : s.writeFails (.writer io) = true := by
      rw [writeFails_eq written held, fails]
      rfl
    rw [next]
    exact .failed (allowed.fails fails) (SessionManager.state_setError started _)

theorem drainWrite (sound : Sound s) (equipped : s.service.Equipped)
    (exited : s.writerThread = .exited) {io : StopIo} {call : StopCall config.maxPayloadBytes}
    (running : s.stop = some call) {attempt : Nat} {frame : ContractFrame config.maxPayloadBytes}
    (here : call.phase = .writing attempt frame) (allowed : KeepsFrames s (.stopStep io)) :
    Sound (s.drainWrite io.write call attempt frame) := by
  obtain ⟨buffer, run, queue, held, live⟩ := sound.live_of_running running equipped
  have written := frameWrite_stopStep running here io
  rcases drainWrite_cases held equipped.1 io.write call attempt frame with ⟨done, next⟩ |
      ⟨fails, next⟩
  · have succeeds : s.writeFails (.stopStep io) = false := by
      rw [writeFails_eq written held, done]
      rfl
    have fresh : ¬ (WriterCall.write io.write frame.bytes).Reopens run.writer := fun reopens =>
      allowed.reopens succeeds ⟨_, written, run, held, reopens⟩
    rw [next]
    refine .live buffer _ queue rfl (live.write done fresh (fun other same => ?_) rfl ?_)
    · rw [running] at same
      cases same
      rw [here]
      rfl
    · simp [Daemon.held, Daemon.goTo, exited, running, here, WriterPc.held, StopPhase.held]
  · have free := allowed.fails (by rw [writeFails_eq written held, fails]; rfl)
    rw [running] at free
    cases free

theorem advance (sound : Sound s) (shape : Shape s) {io : StopIo}
    {call : StopCall config.maxPayloadBytes} (running : s.stop = some call)
    (move : StopMove io call s s') (allowed : KeepsFrames s (.stopStep io)) :
    Sound s' := by
  have phase := shape.busy call running
  cases move with
  | enter here => exact sound.goTo running (goTo_stop ..) rfl rfl rfl rfl (by simp [here])
  | wait i here => exact sound.goTo running (goTo_stop ..) rfl rfl rfl rfl (by simp [here])
  | waited i here => exact sound.goTo running (goTo_stop ..) rfl rfl rfl rfl (by simp [here])
  | unequipped here exited missing =>
      exact sound.goTo running (goTo_stop ..) rfl rfl rfl rfl (by simp [here])
  | joined here exited => exact sound.goTo running (goTo_stop ..) rfl rfl rfl rfl (by simp [here])
  | empty attempt wroteAny here none =>
      exact sound.goTo running (goTo_stop ..) rfl rfl rfl rfl (by simp [here])
  | take attempt wroteAny here frame rest some =>
      rw [here] at phase
      obtain ⟨buffer, run, queue, held, live⟩ := sound.live_of_running running phase.2.1
      rw [queue, Option.bind_some] at some
      obtain ⟨split, dropped⟩ := PacketBuffer.pop_some some
      refine .live rest run rfl held (live.transfer dropped rfl ?_ fun _ other same => ?_)
      · simp only [Daemon.held, Daemon.goTo, phase.2.2, running, here, WriterPc.held,
          StopPhase.held, split, List.nil_append, Option.map_some,
            Option.getD_some, List.append_nil]
        exact List.perm_append_singleton frame rest.queue
      · rw [running] at same
        cases same
        rw [here]
        rfl
  | write attempt frame here =>
      rw [here] at phase
      exact sound.drainWrite phase.2.1 phase.2.2 running here allowed
  | again attempt wroteAny here more =>
      exact sound.goTo running (goTo_stop ..) rfl rfl rfl rfl (by simp [here])
  | leave attempt wroteAny here done =>
      exact sound.goTo running (goTo_stop ..) rfl rfl rfl rfl (by simp [here])
  | close here =>
      rw [here] at phase
      obtain ⟨buffer, run, queue, held, live⟩ := sound.live_of_running running phase.2.1
      refine .live buffer _ queue
        (congrArg (Option.map fun run : WriterRun => run.step (.close io.close)) held) ?_
      refine live.close io.close ?_ rfl (goTo_stop ..) rfl
      simp [Daemon.held, Daemon.goTo, running, here, StopPhase.held]
  | mark here => exact sound.goTo running (goTo_stop ..) rfl rfl rfl rfl (by simp [here])
  | summarize here => exact sound.goTo running (goTo_stop ..) rfl rfl rfl rfl (by simp [here])
  | release summary counted here => exact .gone rfl rfl
  | finish session counted here =>
      rw [here] at phase
      exact .gone phase.2.1 phase.2.2.1

theorem step (sound : Sound s) (shape : Shape s) {e : Event} (move : Move s e s')
    (allowed : KeepsFrames s e) :
    Sound s' := by
  cases move with
  | rx pc quiet lost => exact sound.transfer rfl rfl rfl rfl rfl rfl
  | reject bytes error => exact sound.transfer rfl rfl rfl rfl rfl rfl
  | count io frame here =>
      have same := RuntimeService.sameSession_countFrame frame.header s.service
      exact sound.transfer
        (congrArg SessionManager.state same.sessions) rfl same.buffer same.writer rfl rfl
  | accept io frame here recording => exact sound.transfer rfl rfl rfl rfl rfl rfl
  | push io frame here buffer held =>
      obtain ⟨diagnostics, -, pushed⟩ := RuntimeService.pushFrame_some held frame
      rw [pushed]
      cases sound with
      | gone noBuffer noWriter =>
          rw [held] at noBuffer
          cases noBuffer
      | failed free error => exact .failed free error
      | live buffer' run queue open' live =>
          rw [held] at queue
          cases queue
          exact .live _ run rfl open' (live.push frame rfl rfl rfl)
  | start io free pc same => exact sound.startRecording shape free io pc
  | stop free fromRx reason calls =>
      rcases s.stopRecording_cases fromRx reason with ⟨refused, -⟩ | ⟨entered, state⟩
      · rw [refused]
        exact sound.transfer rfl free.symm rfl rfl rfl rfl
      · have recording := state.resolve_right (shape.free free).2.2
        rw [entered]
        cases sound with
        | gone noBuffer noWriter => exact .gone noBuffer noWriter
        | failed free error =>
            rw [recording] at error
            cases error
        | live buffer run queue open' live =>
            refine .live buffer run queue open' (live.transfer rfl rfl ?_ fun _ call running => ?_)
            · simp [Daemon.held, free, StopPhase.held]
            · rw [free] at running
              cases running
  | writerTop io here =>
      refine sound.transfer rfl rfl rfl rfl rfl ?_
      rw [here]
      show WriterPc.held (if _ then _ else _) = _
      split <;> rfl
  | writerLook io here =>
      refine sound.transfer rfl rfl rfl rfl rfl ?_
      rw [here]
      show WriterPc.held (if _ then _ else _) = _
      split <;> rfl
  | writerNothing io state here =>
      refine sound.transfer rfl rfl rfl rfl rfl ?_
      rw [here]
      show WriterPc.held (if _ then _ else _) = _
      split <;> rfl
  | take io state here frame rest popped =>
      cases sound with
      | gone noBuffer noWriter =>
          rw [noBuffer] at popped
          cases popped
      | failed free error => exact .failed free error
      | live buffer run queue open' live =>
          rw [queue, Option.bind_some] at popped
          obtain ⟨split, dropped⟩ := PacketBuffer.pop_some popped
          refine .live rest run rfl open' (live.transfer dropped rfl ?_ fun still => still)
          simp only [Daemon.held, here, WriterPc.held, split, List.nil_append, List.cons_append]
          exact List.perm_middle
  | write io frame here => exact sound.writeHeld shape here allowed
  | advance io call running move => exact sound.advance shape running move allowed
  | report io running => exact sound.transfer rfl rfl rfl rfl rfl rfl

end Sound

end Daemon
end LocalPC.Runtime
