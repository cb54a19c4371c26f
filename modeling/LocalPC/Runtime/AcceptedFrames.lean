import LocalPC.Runtime.FrameLoss

namespace LocalPC.Runtime
open Lib Contract

def StopPhase.left {m : UInt32} : StopPhase m → Bool
  | .released .. => true
  | phase => phase.drained

namespace Daemon
variable {config : RuntimeConfig}

/-- Every frame that passed the check of the session state is in the chunk files of the session or
dropped when the stop returns. -/
def NoFrameBetween (s : Daemon config) : Prop :=
  ∀ session ∈ s.closed, Accounted session.dir session.dropped session.ledger.accepted

def leavesPending (s : Daemon config) (e : Event) : Bool :=
  match e with
  | .stopStep _ =>
      !s.rx.pending.isEmpty && s.stop.any fun call =>
        match call.phase with
        | .popped attempt wroteAny => s.drainDone attempt wroteAny
        | _ => false
  | _ => false

/-- All writes succeed and open no chunk file twice, and the drain is not left with a frame pending. -/
structure AcceptsInTime (s : Daemon config) (e : Event) : Prop where
  writes : s.writeFails e = false
  reopens : ¬ s.Reopens e
  pending : s.leavesPending e = false

instance (s : Daemon config) (e : Event) : Decidable (AcceptsInTime s e) :=
  decidable_of_iff (s.writeFails e = false ∧ ¬ s.Reopens e ∧ s.leavesPending e = false)
    ⟨fun h => ⟨h.1, h.2.1, h.2.2⟩, fun h => ⟨h.writes, h.reopens, h.pending⟩⟩

def Quiet (s : Daemon config) : Prop :=
  s.stop = none ∧ s.service.state ≠ .kRecording ∨
    ∃ call, s.stop = some call ∧ call.phase.left = true

structure Accepting (s : Daemon config) : Prop where
  accepted : s.ledger.accepted = s.ledger.pushed ++ s.rx.pending
  quiet : s.Quiet → s.rx.pending = []
  closed : ∀ session ∈ s.closed, session.ledger.accepted = session.ledger.pushed

theorem Shape.quiet_of_none {s : Daemon config} (shape : Shape s) (none : s.service.buffer = none) :
    s.Quiet := by
  cases running : s.stop with
  | none =>
      refine Or.inl ⟨running, fun recording => ?_⟩
      have buffer := (shape.recording running recording).1.2.1
      rw [none] at buffer
      cases buffer
  | some call =>
      have phase := shape.busy call running
      refine Or.inr ⟨call, running, ?_⟩
      cases here : call.phase with
      | released => rfl
      | entered | waiting | joining =>
          rw [here] at phase
          have buffer := phase.2.2.1
          rw [none] at buffer
          cases buffer
      | popping | writing | popped | closing | closed | marked | summarized =>
          rw [here] at phase
          have buffer := phase.2.1.2.1
          rw [none] at buffer
          cases buffer

theorem Shape.not_quiet {s : Daemon config} (shape : Shape s)
    (recording : s.service.state = .kRecording) : ¬ s.Quiet := by
  rintro (⟨-, idle⟩ | ⟨call, running, left⟩)
  · exact idle recording
  · have phase := shape.busy call running
    cases here : call.phase with
    | entered | waiting | joining | popping | writing | popped =>
        rw [here] at left
        cases left
    | closing | closed =>
        rw [here] at phase
        rcases phase.1 with state | state <;> exact absurd (recording.symm.trans state) (by decide)
    | marked | summarized | released =>
        rw [here] at phase
        exact absurd (recording.symm.trans phase.1) (by decide)

namespace Accepting
variable {s s' : Daemon config}

theorem init : Accepting ({} : Daemon config) where
  accepted := rfl
  quiet _ := rfl
  closed _ member := absurd member List.not_mem_nil

theorem transfer (accepting : Accepting s) (rx : s'.rx = s.rx)
    (accepted : s'.ledger.accepted = s.ledger.accepted)
    (pushed : s'.ledger.pushed = s.ledger.pushed) (quiet : s'.Quiet → s.Quiet)
    (closed : s'.closed = s.closed) :
    Accepting s' where
  accepted := by
    rw [accepted, pushed, rx]
    exact accepting.accepted
  quiet now := by
    rw [rx]
    exact accepting.quiet (quiet now)
  closed := by
    rw [closed]
    exact accepting.closed

theorem settle (accepting : Accepting s) (accepted : s'.ledger.accepted = s.ledger.accepted)
    (pushed : s'.ledger.pushed = s.ledger.pushed ++ s.rx.pending) (pending : s'.rx.pending = [])
    (closed : s'.closed = s.closed) : Accepting s' where
  accepted := by
    rw [accepted, pushed, pending, List.append_nil]
    exact accepting.accepted
  quiet _ := pending
  closed := by
    rw [closed]
    exact accepting.closed

theorem startRecording (accepting : Accepting s) (free : s.stop = none) (io : StartIo)
    {pc : RxPc config.maxPayloadBytes} (same : pc.pending = s.rx.pending) :
    Accepting { s.startRecording io with rx := pc } := by
  have fresh (idle : s.service.state ≠ .kRecording) : pc.pending = [] :=
    same.trans (accepting.quiet (Or.inl ⟨free, idle⟩))
  rcases s.startRecording_cases io with ⟨recording, made⟩ | ⟨idle, _, -, made⟩ |
      ⟨idle, -, _, -, -, made⟩
  · rw [made]
    exact ⟨by rw [same]; exact accepting.accepted,
      fun now => same.trans (accepting.quiet now), accepting.closed⟩
  all_goals
    rw [made]
    exact ⟨(fresh idle).symm, fun _ => fresh idle, accepting.closed⟩

theorem stopRecording (accepting : Accepting s) (free : s.stop = none)
    {fromRx : Bool} {reason : Bytes} (calls : fromRx = true → s.rx.pending = []) :
    Accepting (s.stopRecording fromRx reason) := by
  rcases s.stopRecording_cases fromRx reason with ⟨refused, -⟩ | ⟨entered, -⟩
  · have pending : (if fromRx then RxPc.idle else s.rx).pending = s.rx.pending := by
      cases fromRx with
      | false => rfl
      | true => exact (calls rfl).symm
    rw [refused]
    refine ⟨?_, fun now => pending.trans (accepting.quiet ?_), accepting.closed⟩
    · rw [show (s.stopReturns fromRx).rx.pending = s.rx.pending from pending]
      exact accepting.accepted
    · rcases now with ⟨-, idle⟩ | ⟨call, running, -⟩
      · exact Or.inl ⟨free, idle⟩
      · cases running
  · rw [entered]
    refine accepting.transfer rfl rfl rfl (fun now => ?_) rfl
    rcases now with ⟨none, -⟩ | ⟨call, running, left⟩
    · cases none
    · cases running
      cases left

theorem draining (accepting : Accepting s) {call : StopCall config.maxPayloadBytes}
    (running : s'.stop = some call) (notLeft : call.phase.left = false) (rx : s'.rx = s.rx)
    (ledger : s'.ledger = s.ledger) (closed : s'.closed = s.closed) : Accepting s' := by
  refine accepting.transfer rx (by rw [ledger]) (by rw [ledger]) (fun now => ?_) closed
  rcases now with ⟨none, -⟩ | ⟨other, same, left⟩
  · rw [running] at none
    cases none
  · rw [running] at same
    cases same
    rw [notLeft] at left
    cases left

theorem leaving (accepting : Accepting s) (pending : s.rx.pending = []) (rx : s'.rx = s.rx)
    (ledger : s'.ledger = s.ledger) (closed : s'.closed = s.closed) : Accepting s' :=
  accepting.settle (by rw [ledger]) (by rw [ledger, pending, List.append_nil])
    (by rw [rx, pending]) closed

theorem advance (accepting : Accepting s) (shape : Shape s) {io : StopIo}
    {call : StopCall config.maxPayloadBytes} (running : s.stop = some call)
    (move : StopMove io call s s') (allowed : AcceptsInTime s (.stopStep io)) :
    Accepting s' := by
  have phase := shape.busy call running
  have settled (left : call.phase.left = true) : s.rx.pending = [] :=
    accepting.quiet (Or.inr ⟨call, running, left⟩)
  cases move with
  | enter here => exact accepting.draining (goTo_stop ..) rfl rfl rfl rfl
  | wait i here => exact accepting.draining (goTo_stop ..) rfl rfl rfl rfl
  | waited i here => exact accepting.draining (goTo_stop ..) rfl rfl rfl rfl
  | unequipped here exited missing =>
      rw [here] at phase
      obtain ⟨-, -, buffer, writer⟩ := phase
      rcases missing with none | none
      · rw [none] at buffer
        cases buffer
      · rw [none] at writer
        cases writer
  | joined here exited => exact accepting.draining (goTo_stop ..) rfl rfl rfl rfl
  | empty attempt wroteAny here none => exact accepting.draining (goTo_stop ..) rfl rfl rfl rfl
  | take attempt wroteAny here frame rest some =>
      exact accepting.draining (goTo_stop ..) rfl rfl rfl rfl
  | write attempt frame here =>
      rw [here] at phase
      obtain ⟨-, ⟨log, -, writer⟩, -⟩ := phase
      obtain ⟨run, held⟩ := Option.isSome_iff_exists.mp writer
      rcases drainWrite_cases held log io.write call attempt frame with ⟨-, next⟩ | ⟨fails, -⟩
      · rw [next]
        exact accepting.draining (goTo_stop ..) rfl rfl rfl rfl
      · have writes : s.writeFails _ = false := allowed.writes
        rw [writeFails_eq (frameWrite_stopStep running here io) held, fails] at writes
        cases writes
  | again attempt wroteAny here more => exact accepting.draining (goTo_stop ..) rfl rfl rfl rfl
  | leave attempt wroteAny here done =>
      have pending := allowed.pending
      simp only [leavesPending, running, Option.any_some, here, done,
        Bool.and_true, Bool.not_eq_false', List.isEmpty_iff] at pending
      exact accepting.leaving pending rfl rfl rfl
  | close here => exact accepting.leaving (settled (by rw [here]; rfl)) rfl rfl rfl
  | mark here => exact accepting.leaving (settled (by rw [here]; rfl)) rfl rfl rfl
  | summarize here => exact accepting.leaving (settled (by rw [here]; rfl)) rfl rfl rfl
  | release summary counted here =>
      exact accepting.leaving (settled (by rw [here]; rfl)) rfl rfl rfl
  | finish session counted here =>
      have pending := settled (by rw [here]; rfl)
      have accepted := accepting.accepted
      rw [pending, List.append_nil] at accepted
      have idle : (if call.fromRx then RxPc.idle else s.rx).pending = [] := by
        split
        · rfl
        · exact pending
      refine ⟨?_, fun _ => idle, fun other member => ?_⟩
      · show s.ledger.accepted =
          s.ledger.pushed ++ (if call.fromRx then RxPc.idle else s.rx).pending
        rw [idle, List.append_nil]
        exact accepted
      · rcases List.mem_append.mp member with old | new
        · exact accepting.closed other old
        · rw [List.mem_singleton.mp new]
          exact accepted

theorem step (accepting : Accepting s) (shape : Shape s) {e : Event} (move : Move s e s')
    (allowed : AcceptsInTime s e) :
    Accepting s' := by
  cases move with
  | rx pc quiet lost =>
      have pending : s.rx.pending = [] := by
        by_contra waiting
        exact waiting (accepting.quiet (shape.quiet_of_none (lost waiting)))
      exact accepting.settle rfl (by rw [pending, List.append_nil]) quiet rfl
  | reject bytes error => exact accepting.transfer rfl rfl rfl id rfl
  | count io frame here =>
      have pending : s.rx.pending = [] := by rw [here]; rfl
      exact accepting.settle rfl (by rw [pending, List.append_nil]) rfl rfl
  | accept io frame here recording =>
      have pending : s.rx.pending = [] := by rw [here]; rfl
      have accepted := accepting.accepted
      rw [pending, List.append_nil] at accepted
      refine ⟨?_, fun now => absurd now (shape.not_quiet recording), accepting.closed⟩
      show s.ledger.accepted ++ [frame] = s.ledger.pushed ++ [frame]
      rw [accepted]
  | push io frame here buffer held => exact accepting.settle rfl (by rw [here]; rfl) rfl rfl
  | start io free pc same => exact accepting.startRecording free io same
  | stop free fromRx reason calls => exact accepting.stopRecording free calls
  | writerTop io here => exact accepting.transfer rfl rfl rfl id rfl
  | writerLook io here => exact accepting.transfer rfl rfl rfl id rfl
  | writerNothing io state here => exact accepting.transfer rfl rfl rfl id rfl
  | take io state here frame rest popped => exact accepting.transfer rfl rfl rfl id rfl
  | write io frame here =>
      obtain ⟨⟨log, -, writer⟩, -⟩ := shape.holding here
      obtain ⟨run, held⟩ := Option.isSome_iff_exists.mp writer
      rcases writeHeld_cases held log io frame with ⟨-, next⟩ | ⟨fails, -⟩
      · rw [next]
        exact accepting.transfer rfl rfl rfl id rfl
      · have writes : s.writeFails _ = false := allowed.writes
        rw [writeFails_eq (frameWrite_writer here io) held, fails] at writes
        cases writes
  | advance io call running move => exact accepting.advance shape running move allowed
  | report io running =>
      refine ⟨accepting.accepted, accepting.quiet, fun session member => ?_⟩
      obtain ⟨before, old, more, -, rfl⟩ := mem_closed_report member
      exact accepting.closed before old

theorem losesNoFrame (accepting : Accepting s) {e : Event}
    (allowed : AcceptsInTime s e) : LosesNoFrame s e where
  fails failed := by
    rw [allowed.writes] at failed
    cases failed
  reopens _ := allowed.reopens
  late := by
    cases e with
    | rx io =>
        by_contra late
        simp only [pushesLate, Bool.not_eq_false, Bool.and_eq_true, Bool.not_eq_true',
          Option.any_eq_true] at late
        obtain ⟨⟨waiting, -⟩, call, running, drained⟩ := late
        have left : call.phase.left = true := by
          cases here : call.phase <;> rw [here] at drained <;> first | rfl | exact drained
        have pending := accepting.quiet (Or.inr ⟨call, running, left⟩)
        rw [pending] at waiting
        cases waiting
    | receive | writer | start | stop | stopStep | report => rfl

end Accepting

/-- In a run in which all writes succeed, no chunk file is opened twice and no drain is left while
an accepted frame is not pushed, every accepted frame is in the chunk files or dropped. -/
theorem noFrameBetween_of_reach {s : Daemon config}
    (reached : (daemonMachine config).Reach AcceptsInTime s) :
    s.NoFrameBetween := by
  have kept := reached.invariant (I := fun s => NothingLost s ∧ Accepting s)
    (fun s start => by cases start; exact ⟨.init, .init⟩)
    fun s e s' kept moved allowed =>
      ⟨kept.1.step (move_of_step moved) (kept.2.losesNoFrame allowed),
        kept.2.step kept.1.shape (move_of_step moved) allowed⟩
  intro session member
  rw [kept.2.closed session member]
  exact kept.1.delivered.closed session member

theorem stoppedEvents_inTime :
    Machine.AllowedAlong AcceptsInTime step ({} : Daemon {}) stoppedEvents := by
  decide +kernel

theorem stoppedEvents_noFrameBetween : (after {} stoppedEvents).NoFrameBetween :=
  noFrameBetween_of_reach (reach_after stoppedEvents_run stoppedEvents_inTime)

/-- The stop runs between the check of the state and the push. -/
def overtakenEvents : List Event :=
  .start cleanStart :: acceptOne audioFrame ++ drainAll ++ finishStop

theorem overtakenEvents_run :
    (overtakenEvents.foldlM step ({} : Daemon {})).isSome = true := by decide +kernel

theorem overtakenEvents_allowed :
    Machine.AllowedAlong WritesSucceed step ({} : Daemon {}) overtakenEvents := by
  decide +kernel

theorem overtakenEvents_short : ∃ session ∈ (after {} overtakenEvents).closed, session.dropped = 0 ∧
    session.dir.chunks.flatten.length ≠
      (session.ledger.accepted.map ContractFrame.bytes).flatten.length := by
  decide +kernel

theorem overtakenEvents_lose :
    (daemonMachine {}).Reach WritesSucceed (after {} overtakenEvents) ∧
      ¬ (after {} overtakenEvents).NoFrameBetween := by
  refine ⟨reach_after overtakenEvents_run overtakenEvents_allowed, fun kept => ?_⟩
  obtain ⟨session, member, dropped, short⟩ := overtakenEvents_short
  have accounted := kept session member
  rw [dropped] at accounted
  exact short accounted.length

end Daemon
end LocalPC.Runtime
