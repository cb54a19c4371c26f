import LocalPC.Runtime.FrameConservation

namespace LocalPC.Runtime
open Lib Contract

def StopPhase.drained {m : UInt32} : StopPhase m → Bool
  | .closing | .closed | .marked | .summarized .. => true
  | _ => false

def DrainBound (attempt queued pending wrote : Nat) : Prop :=
  attempt = 0 ∨ attempt = 1 ∧ queued + pending + wrote ≤ 1 ∨ attempt = 2 ∧
    pending = 0 ∧ queued + wrote ≤ 1 ∨
    attempt = 3 ∧ pending = 0 ∧ queued = 0 ∧ wrote = 0

def AttemptBound (attempt queued pending wrote : Nat) : Prop :=
  queued + pending ≤ 1 ∧ (2 ≤ attempt → queued = 0) ∧ DrainBound attempt queued pending wrote

theorem DrainBound.mono {attempt queued queued' pending pending' wrote : Nat}
    (bound : DrainBound attempt queued pending wrote)
    (fewer : queued' + pending' ≤ queued + pending) (less : pending' ≤ pending)
    (same : pending = 0 → queued' ≤ queued) : DrainBound attempt queued' pending' wrote := by
  unfold DrainBound at *
  omega

namespace Daemon
variable {config : RuntimeConfig}

def DrainShape (s : Daemon config) : StopPhase config.maxPayloadBytes → Prop
  | .popping attempt wroteAny => DrainBound attempt s.queued s.rx.pending.length wroteAny.toNat
  | .writing attempt _ => DrainBound attempt s.queued s.rx.pending.length 1
  | .popped attempt wroteAny => AttemptBound attempt s.queued s.rx.pending.length wroteAny.toNat
  | .closing | .closed | .marked | .summarized .. => s.queued = 0
  | _ => True

def Draining (s : Daemon config) : Prop := ∀ call, s.stop = some call → s.DrainShape call.phase

def pushesLate (s : Daemon config) (e : Event) : Bool :=
  match e with
  | .rx _ =>
      !s.rx.pending.isEmpty && s.service.buffer.isSome && s.stop.any fun call => call.phase.drained
  | _ => false

/-- No frame of the step is lost on its way to the chunk files. -/
structure LosesNoFrame (s : Daemon config) (e : Event) : Prop extends KeepsFrames s e where
  late : s.pushesLate e = false

instance (s : Daemon config) (e : Event) : Decidable (LosesNoFrame s e) :=
  decidable_of_iff (KeepsFrames s e ∧ s.pushesLate e = false)
    ⟨fun h => ⟨h.1, h.2⟩, fun h => ⟨h.1, h.2⟩⟩

theorem queued_some {s : Daemon config}
    {buffer : PacketBuffer (ContractFrame config.maxPayloadBytes)}
    (queue : s.service.buffer = some buffer) : s.queued = buffer.queue.length := by
  simp [queued, queue, PacketBuffer.size]

namespace Draining
variable {s s' : Daemon config}

theorem init : Draining ({} : Daemon config) := fun _ running => by cases running

theorem free (none : s.stop = none) : Draining s := by
  intro call running
  rw [none] at running
  cases running

theorem receiver (draining : Draining s) (stop : s'.stop = s.stop)
    (fewer : s'.queued + s'.rx.pending.length ≤ s.queued + s.rx.pending.length)
    (less : s'.rx.pending.length ≤ s.rx.pending.length)
    (same : s.rx.pending.length = 0 → s'.queued ≤ s.queued)
    (drained : ∀ call, s.stop = some call → call.phase.drained = true → s'.queued ≤ s.queued) :
    Draining s' := by
  intro call running
  rw [stop] at running
  have shape := draining call running
  have late := drained call running
  cases here : call.phase with
  | popping attempt wroteAny =>
      rw [here] at shape
      exact shape.mono fewer less same
  | writing attempt frame =>
      rw [here] at shape
      exact shape.mono fewer less same
  | popped attempt wroteAny =>
      rw [here] at shape
      obtain ⟨few, empty, bound⟩ := shape
      refine ⟨fewer.trans few, fun late => ?_, bound.mono fewer less same⟩
      have none := empty late
      have noPending : s.rx.pending.length = 0 := by
        unfold DrainBound at bound
        omega
      exact Nat.le_zero.mp ((same noPending).trans none.le)
  | closing | closed | marked | summarized =>
      rw [here] at shape late
      exact Nat.le_zero.mp ((late rfl).trans (Nat.le_of_eq shape))
  | entered | waiting | joining | released => trivial

theorem writer (shape : Shape s) (alive : s.writerThread ≠ .exited) (stop : s'.stop = s.stop) :
    Draining s' := by
  intro call running
  rcases shape.exited_or_early (stop ▸ running) with exited | here | ⟨i, here⟩ | here
  · exact absurd exited alive
  all_goals
    rw [here]
    trivial

theorem goTo {call : StopCall config.maxPayloadBytes}
    {phase : StopPhase config.maxPayloadBytes} {s : Daemon config}
    (shape : (s.goTo call phase).DrainShape phase) : Draining (s.goTo call phase) := by
  intro other running
  cases running
  exact shape

theorem empty_of_done {attempt : Nat} {wroteAny : Bool}
    (bound : AttemptBound attempt s.queued s.rx.pending.length wroteAny.toNat)
    (done : s.drainDone attempt wroteAny = true) : s.queued = 0 := by
  obtain ⟨-, -, bound⟩ := bound
  unfold drainDone at done
  simp only [Bool.or_eq_true, Bool.and_eq_true, beq_iff_eq, decide_eq_true_eq] at done
  rcases done with ⟨-, empty⟩ | last
  · exact empty
  · unfold DrainBound at bound
    omega

theorem next_attempt {attempt : Nat} {wroteAny : Bool}
    (bound : AttemptBound attempt s.queued s.rx.pending.length wroteAny.toNat)
    (more : s.drainDone attempt wroteAny = false) :
    DrainBound (attempt + 1) s.queued s.rx.pending.length 0 := by
  obtain ⟨few, empty, bound⟩ := bound
  unfold drainDone at more
  simp only [Bool.or_eq_false_iff, Bool.and_eq_false_iff, beq_eq_false_iff_ne, Bool.not_eq_false']
    at more
  have wrote : wroteAny = true ↔ wroteAny.toNat = 1 := by cases wroteAny <;> simp
  rw [wrote] at more
  unfold DrainBound at bound ⊢
  omega

theorem advance (draining : Draining s) (shape : Shape s) {io : StopIo}
    {call : StopCall config.maxPayloadBytes} (running : s.stop = some call)
    (move : StopMove io call s s') (allowed : KeepsFrames s (.stopStep io)) :
    Draining s' := by
  have phase := shape.busy call running
  have drain := draining call running
  cases move with
  | enter here => exact goTo trivial
  | wait i here => exact goTo trivial
  | waited i here => exact goTo trivial
  | unequipped here exited missing =>
      rw [here] at phase
      obtain ⟨-, -, buffer, writer⟩ := phase
      rcases missing with none | none
      · rw [none] at buffer
        cases buffer
      · rw [none] at writer
        cases writer
  | joined here exited => exact goTo (Or.inl rfl)
  | empty attempt wroteAny here none =>
      rw [here] at drain phase
      obtain ⟨buffer, queue⟩ := Option.isSome_iff_exists.mp phase.2.1.2.1
      rw [queue, Option.bind_some] at none
      have noFrame : s.queued = 0 := by rw [queued_some queue, PacketBuffer.pop_none none]; rfl
      have onePending : s.rx.pending.length ≤ 1 := by cases s.rx <;> simp [RxPc.pending]
      exact goTo ⟨by show s.queued + _ ≤ 1; rw [noFrame, Nat.zero_add]; exact onePending,
        fun _ => noFrame, drain⟩
  | take attempt wroteAny here frame rest some =>
      rw [here] at drain phase
      obtain ⟨buffer, queue⟩ := Option.isSome_iff_exists.mp phase.2.1.2.1
      rw [queue, Option.bind_some] at some
      obtain ⟨split, -⟩ := PacketBuffer.pop_some some
      have before : s.queued =
          rest.queue.length + 1 := by rw [queued_some queue, split, List.length_cons]
      refine goTo ?_
      show DrainBound attempt rest.queue.length s.rx.pending.length 1
      have bound : DrainBound attempt s.queued s.rx.pending.length wroteAny.toNat := drain
      unfold DrainBound at bound ⊢
      omega
  | write attempt frame here =>
      rw [here] at drain phase
      obtain ⟨-, ⟨log, -, writer⟩, -⟩ := phase
      obtain ⟨run, held⟩ := Option.isSome_iff_exists.mp writer
      rcases drainWrite_cases held log io.write call attempt frame with ⟨-, next⟩ | ⟨fails, -⟩
      · rw [next]
        exact goTo drain
      · have free :=
          allowed.fails
            (by rw [writeFails_eq (frameWrite_stopStep running here io) held, fails]; rfl)
        rw [running] at free
        cases free
  | again attempt wroteAny here more =>
      rw [here] at drain
      exact goTo (next_attempt drain more)
  | leave attempt wroteAny here done =>
      rw [here] at drain
      exact goTo (empty_of_done drain done)
  | close here =>
      rw [here] at drain
      exact goTo drain
  | mark here =>
      rw [here] at drain
      exact goTo drain
  | summarize here =>
      rw [here] at drain
      exact goTo drain
  | release summary counted here => exact goTo trivial
  | finish session counted here => exact free rfl

theorem step (draining : Draining s) (shape : Shape s) {e : Event} (move : Move s e s')
    (allowed : LosesNoFrame s e) :
    Draining s' := by
  cases move with
  | rx pc quiet lost =>
      refine draining.receiver rfl ?_ ?_ (fun _ => le_rfl) (fun _ _ _ => le_rfl)
      · show s.queued + pc.pending.length ≤ _
        rw [quiet]
        exact Nat.le_add_right ..
      · show pc.pending.length ≤ _
        rw [quiet]
        exact Nat.zero_le _
  | reject bytes error =>
      exact draining.receiver rfl le_rfl le_rfl (fun _ => le_rfl) fun _ _ _ => le_rfl
  | count io frame here =>
      have same : (s.service.countFrame frame.header).buffer = s.service.buffer :=
        (RuntimeService.sameSession_countFrame ..).buffer
      have queued : ∀ s' : Daemon config, s'.service = s.service.countFrame frame.header →
          s'.queued = s.queued := by
        intro s' service
        rw [Daemon.queued, Daemon.queued, service, same]
      refine draining.receiver rfl ?_ ?_ (fun _ => (queued _ rfl).le) fun _ _ _ => (queued _ rfl).le
      · rw [queued _ rfl]
        exact Nat.add_le_add_left (Nat.zero_le _) _
      · exact Nat.zero_le _
  | accept io frame here recording =>
      intro call running
      have phase := shape.busy call running
      cases here : call.phase with
      | popping | writing | popped | closing | closed =>
          rw [here] at phase
          rcases phase.1 with state | state <;> exact absurd
              (recording.symm.trans state) (by decide)
      | marked | summarized =>
          rw [here] at phase
          exact absurd (recording.symm.trans phase.1) (by decide)
      | entered | waiting | joining | released => trivial
  | push io frame here buffer held =>
      obtain ⟨diagnostics, -, pushed⟩ := RuntimeService.pushFrame_some held frame
      have pending : s.rx.pending.length = 1 := by rw [here]; rfl
      have before := queued_some held
      have after := buffer.length_push_le frame
      have late := allowed.late
      rw [pushed]
      refine draining.receiver rfl ?_ (Nat.zero_le _)
        (fun none => by omega) fun call running drained => ?_
      · show (buffer.push frame).queue.length + 0 ≤ _
        omega
      · rw [pushesLate, running, here, held] at late
        simp [RxPc.pending, drained] at late
  | start io none pc same =>
      refine free ?_
      rcases s.startRecording_cases io with ⟨-, made⟩ | ⟨-, _, -, made⟩ | ⟨-, -, _, -, -, made⟩
      all_goals
        rw [made]
        exact none
  | stop none fromRx reason calls =>
      rcases s.stopRecording_cases fromRx reason with ⟨refused, -⟩ | ⟨entered, -⟩
      · rw [refused]
        exact free rfl
      · rw [entered]
        intro call running
        cases running
        trivial
  | writerTop io here => exact writer shape (by simp [here]) rfl
  | writerLook io here => exact writer shape (by simp [here]) rfl
  | writerNothing io state here => exact writer shape (by simp [here]) rfl
  | take io state here frame rest popped => exact writer shape (by simp [here]) rfl
  | write io frame here => exact writer shape (by simp [here]) rfl
  | advance io call running move => exact draining.advance shape running move allowed.toKeepsFrames
  | report io running =>
      exact draining.receiver rfl le_rfl le_rfl (fun _ => le_rfl) fun _ _ _ => le_rfl

end Draining

/-- Behind an `ok` in the summary of a session no frame that was pushed is missing. -/
def NoSilentLoss (s : Daemon config) : Prop :=
  ∀ session ∈ s.closed, session.summary.integrity.result = .kOk →
    Accounted session.dir session.dropped session.ledger.pushed

structure Delivered (s : Daemon config) : Prop where
  released : ∀ call session counted, s.stop = some call → call.phase = .released session counted →
    Accounted session.dir session.dropped s.ledger.pushed
  closed : ∀ session ∈ s.closed, Accounted session.dir session.dropped session.ledger.pushed

theorem Live.accounted {s : Daemon config}
    {buffer : PacketBuffer (ContractFrame config.maxPayloadBytes)} {run : WriterRun}
    (live : s.Live buffer run) (empty : buffer.queue = []) (held : s.held = []) :
    Accounted run.writer.dir buffer.dropped s.ledger.pushed := by
  obtain ⟨lost, count, perm⟩ := live.conserved
  obtain ⟨segments, frames, files⟩ := live.filed
  refine ⟨segments, lost, files.chunks_perm, count, ?_⟩
  rw [empty, held] at perm
  rw [frames]
  simpa using perm

namespace Delivered
variable {s s' : Daemon config}

theorem init : Delivered ({} : Daemon config) where
  released _ _ _ running := by cases running
  closed _ member := absurd member List.not_mem_nil

theorem transfer (delivered : Delivered s) (stop : s'.stop = s.stop)
    (pushed : s.service.buffer = none → s'.ledger.pushed = s.ledger.pushed) (shape : Shape s)
    (closed : s'.closed = s.closed) : Delivered s' where
  released call session counted running here := by
    rw [stop] at running
    have phase := shape.busy call running
    rw [here] at phase
    rw [pushed phase.2.1]
    exact delivered.released call session counted running here
  closed := by
    rw [closed]
    exact delivered.closed

theorem goTo (delivered : Delivered s) {call : StopCall config.maxPayloadBytes}
    (running : s'.stop = some call)
    (here : ∀ session counted, call.phase ≠ .released session counted)
    (closed : s'.closed = s.closed) :
    Delivered s' where
  released other session counted same at' := by
    rw [running] at same
    cases same
    exact absurd at' (here session counted)
  closed := by
    rw [closed]
    exact delivered.closed

theorem advance (delivered : Delivered s) (shape : Shape s) (sound : Sound s)
    (draining : Draining s) {io : StopIo} {call : StopCall config.maxPayloadBytes}
    (running : s.stop = some call) (move : StopMove io call s s') :
    Delivered s' := by
  have phase := shape.busy call running
  have drain := draining call running
  cases move with
  | enter here => exact delivered.goTo (goTo_stop ..) (by simp) rfl
  | wait i here => exact delivered.goTo (goTo_stop ..) (by simp) rfl
  | waited i here => exact delivered.goTo (goTo_stop ..) (by simp) rfl
  | unequipped here exited missing => exact delivered.goTo (goTo_stop ..) (by simp) rfl
  | joined here exited => exact delivered.goTo (goTo_stop ..) (by simp) rfl
  | empty attempt wroteAny here none => exact delivered.goTo (goTo_stop ..) (by simp) rfl
  | take attempt wroteAny here frame rest some => exact delivered.goTo (goTo_stop ..) (by simp) rfl
  | write attempt frame here =>
      rw [here] at phase
      obtain ⟨-, ⟨log, -, writer⟩, -⟩ := phase
      obtain ⟨run, held⟩ := Option.isSome_iff_exists.mp writer
      rcases drainWrite_cases held log io.write call attempt frame with ⟨-, next⟩ | ⟨-, next⟩
      all_goals
        rw [next]
        exact delivered.goTo (goTo_stop ..) (by simp) rfl
  | again attempt wroteAny here more => exact delivered.goTo (goTo_stop ..) (by simp) rfl
  | leave attempt wroteAny here done => exact delivered.goTo (goTo_stop ..) (by simp) rfl
  | close here => exact delivered.goTo (goTo_stop ..) (by simp) rfl
  | mark here => exact delivered.goTo (goTo_stop ..) (by simp) rfl
  | summarize here => exact delivered.goTo (goTo_stop ..) (by simp) rfl
  | release summary counted here =>
      rw [here] at phase drain
      obtain ⟨buffer, run, queue, writer, live⟩ := sound.live_of_running running phase.2.1
      have empty : buffer.queue = [] :=
        List.length_eq_zero_iff.mp ((queued_some queue).symm.trans drain)
      have held : s.held = [] := by simp [Daemon.held, phase.2.2, running, here, WriterPc.held]
      refine ⟨fun other session counted' same at' => ?_, delivered.closed⟩
      cases same
      cases at'
      have dropped :
          ((s.service.writeRuntimeReport io.report).finished summary call.manifest).dropped =
            buffer.dropped := by
        show (s.service.buffer.map PacketBuffer.dropped).getD 0 = _
        rw [queue]
        rfl
      rw [dropped, RuntimeService.dir_finished (s := s.service.writeRuntimeReport io.report) writer]
      exact (live.accounted empty held).withTexts _
  | finish session counted here =>
      refine ⟨fun _ _ _ none => (by cases none), fun other member => ?_⟩
      rcases List.mem_append.mp member with old | new
      · exact delivered.closed other old
      · rw [List.mem_singleton.mp new]
        exact delivered.released call session counted running here

theorem step (delivered : Delivered s) (shape : Shape s) (sound : Sound s)
    (draining : Draining s) {e : Event} (move : Move s e s') : Delivered s' := by
  cases move with
  | rx pc quiet lost => exact delivered.transfer rfl (fun _ => rfl) shape rfl
  | reject bytes error => exact delivered.transfer rfl (fun _ => rfl) shape rfl
  | count io frame here => exact delivered.transfer rfl (fun _ => rfl) shape rfl
  | accept io frame here recording => exact delivered.transfer rfl (fun _ => rfl) shape rfl
  | push io frame here buffer held =>
      refine delivered.transfer rfl (fun none => ?_) shape rfl
      rw [held] at none
      cases none
  | start io free pc same =>
      rcases s.startRecording_cases io with ⟨-, made⟩ | ⟨-, _, -, made⟩ | ⟨-, -, _, -, -, made⟩
      all_goals
        rw [made]
        refine ⟨fun call session counted running _ => ?_, delivered.closed⟩
        exact absurd (free.symm.trans running) (Option.some_ne_none call).symm
  | stop free fromRx reason calls =>
      rcases s.stopRecording_cases fromRx reason with ⟨refused, -⟩ | ⟨entered, -⟩
      · rw [refused]
        exact ⟨fun _ _ _ none => (by cases none), delivered.closed⟩
      · rw [entered]
        exact delivered.goTo rfl (by simp) rfl
  | writerTop io here => exact delivered.transfer rfl (fun _ => rfl) shape rfl
  | writerLook io here => exact delivered.transfer rfl (fun _ => rfl) shape rfl
  | writerNothing io state here => exact delivered.transfer rfl (fun _ => rfl) shape rfl
  | take io state here frame rest popped => exact delivered.transfer rfl (fun _ => rfl) shape rfl
  | write io frame here => exact delivered.transfer rfl (fun _ => rfl) shape rfl
  | advance io call running move => exact delivered.advance shape sound draining running move
  | report io running =>
      refine ⟨delivered.released, fun session member => ?_⟩
      obtain ⟨before, old, more, -, rfl⟩ := mem_closed_report member
      rw [ClosedSession.dir_addTexts]
      exact (delivered.closed before old).withTexts more

end Delivered

structure NothingLost (s : Daemon config) : Prop where
  shape : Shape s
  sound : Sound s
  draining : Draining s
  delivered : Delivered s

theorem NothingLost.init : NothingLost ({} : Daemon config) := ⟨.init, .init, .init, .init⟩

theorem NothingLost.step {s s' : Daemon config} (kept : NothingLost s)
    {e : Event} (move : Move s e s') (allowed : LosesNoFrame s e) : NothingLost s' where
  shape := kept.shape.step move
  sound := kept.sound.step kept.shape move allowed.toKeepsFrames
  draining := kept.draining.step kept.shape move allowed
  delivered := kept.delivered.step kept.shape kept.sound kept.draining move

/-- In a run in which no frame write fails during a stop, no chunk file is opened twice and no frame
is pushed after the drain, every pushed frame of a stopped session is in its chunk files or dropped. -/
theorem noSilentLoss_of_reach {s : Daemon config}
    (reached : (daemonMachine config).Reach LosesNoFrame s) :
    s.NoSilentLoss := by
  have kept := reached.invariant (I := NothingLost) (fun s start => by cases start; exact .init)
    fun s e s' kept moved allowed => kept.step (move_of_step moved) allowed
  exact fun session member _ => kept.delivered.closed session member

theorem twoSessions_loseNone : (twoSessions.foldlM step ({} : Daemon sampleConfig)).isSome = true ∧
    Machine.AllowedAlong LosesNoFrame step ({} : Daemon sampleConfig) twoSessions ∧
    (after sampleConfig twoSessions).closed.length = 2 := by
  decide +kernel

theorem twoSessions_noSilentLoss : (after sampleConfig twoSessions).closed.length = 2 ∧
    (after sampleConfig twoSessions).NoSilentLoss := by
  obtain ⟨runs, allowed, closed⟩ := twoSessions_loseNone
  exact ⟨closed, noSilentLoss_of_reach (reach_after runs allowed)⟩

/-- A frame is out of the buffer when the session is stopped, and its write fails. -/
def brokenStopEvents : List Event :=
  .start cleanStart :: acceptOne audioFrame ++ .rx cleanStart ::
    List.replicate 3 (.writer (.clean {})) ++
    [.stop (ascii "user_stop"), .writer failedWrite] ++ drainAll.tail ++ finishStop

theorem brokenStopEvents_run :
    (brokenStopEvents.foldlM step ({} : Daemon {})).isSome = true := by decide +kernel

theorem brokenStopEvents_short : ∃ session ∈ (after {} brokenStopEvents).closed,
    session.summary.integrity.result = .kOk ∧ session.dropped = 0 ∧
    session.dir.chunks.flatten.length ≠
      (session.ledger.pushed.map ContractFrame.bytes).flatten.length := by
  decide +kernel

theorem brokenStopEvents_lose :
    (daemonMachine {}).Reach (fun _ _ => True) (after {} brokenStopEvents) ∧
    ¬ (after {} brokenStopEvents).NoSilentLoss := by
  refine ⟨reach_after brokenStopEvents_run (Machine.allowedAlong_true ..), fun kept => ?_⟩
  obtain ⟨session, member, ok, dropped, short⟩ := brokenStopEvents_short
  have accounted := kept session member ok
  rw [dropped] at accounted
  exact short accounted.length

end Daemon
end LocalPC.Runtime
