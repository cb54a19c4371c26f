import LocalPC.Runtime.FinishedSessions

namespace LocalPC.Runtime
open Lib Contract

namespace Daemon
variable {config : RuntimeConfig}

def Closed (s : Daemon config) (id : Nat) : Prop := ∃ session ∈ s.closed, session.number = id

/-- Every session that was started is finalised once another one has been opened after it, or a call
of `StopRecording` for it has returned; the pipeline is triggered once for each finalised session. -/
structure EverySessionFinalized (s : Daemon config) : Prop where
  finalized : ∀ id ∈ s.opened, s.service.sessions.activeId ≠ some id ∨
    s.ledger.stopReturned = true →
    ∃ session ∈ s.closed, session.number = id ∧ session.Finalized config
  triggered : s.triggered = s.closed.map fun session => session.texts.storagePath

def loopWriteFails (s : Daemon config) (e : Event) : Bool :=
  match e, s.writerThread with
  | .writer io, .holding frame => !(s.service.writeFrame io frame.bytes).1
  | _, _ => false

/-- No write of the writer thread fails, other than during a stop. -/
def FailsOnlyInStop (s : Daemon config) (e : Event) : Prop :=
  s.loopWriteFails e = true → s.stop.isSome = true

instance (s : Daemon config) (e : Event) : Decidable (FailsOnlyInStop s e) :=
  inferInstanceAs (Decidable (_ → _))

structure Finalizing (s : Daemon config) : Prop where
  opened : ∀ id ∈ s.opened, s.Closed id ∨
    s.service.sessions.activeId = some id ∧ (s.service.state = .kRecording ∨ s.stop.isSome = true)
  returned : s.ledger.stopReturned = true → s.stop = none ∧ s.service.state ≠ .kRecording
  released : ∀ call session counted, s.stop = some call → call.phase = .released session counted →
    s.service.sessions.activeId = some session.number

namespace Finalizing
variable {s s' : Daemon config}

theorem init : Finalizing ({} : Daemon config) where
  opened := nofun
  returned := nofun
  released _ _ _ running := by cases running

theorem closed_of_ended (inv : Finalizing s) {id : Nat} (member : id ∈ s.opened)
    (ended : s.service.sessions.activeId ≠ some id ∨ s.ledger.stopReturned = true) :
    s.Closed id := by
  rcases inv.opened id member with closed | ⟨active, open'⟩
  · exact closed
  · rcases ended with other | returned
    · exact absurd active other
    · obtain ⟨none, idle⟩ := inv.returned returned
      rcases open' with recording | running
      · exact absurd recording idle
      · rw [none] at running
        cases running

theorem transfer (inv : Finalizing s) (sessions : s'.service.sessions = s.service.sessions)
    (stop : s'.stop = s.stop) (opened : s'.opened = s.opened) (closed : s'.closed = s.closed)
    (returned : s'.ledger.stopReturned = s.ledger.stopReturned) : Finalizing s' where
  opened := by
    unfold Closed RuntimeService.state
    rw [sessions, stop, opened, closed]
    exact inv.opened
  returned := by
    unfold RuntimeService.state
    rw [sessions, stop, returned]
    exact inv.returned
  released := by
    rw [sessions, stop]
    exact inv.released

theorem running (inv : Finalizing s) {call call' : StopCall config.maxPayloadBytes}
    (before : s.stop = some call) (after : s'.stop = some call')
    (active : s'.service.sessions.activeId = s.service.sessions.activeId)
    (opened : s'.opened = s.opened) (closed : s'.closed = s.closed)
    (returned : s'.ledger.stopReturned = s.ledger.stopReturned)
    (released : ∀ session counted, call'.phase = .released session counted →
      s.service.sessions.activeId = some session.number) : Finalizing s' where
  opened id member := by
    rw [opened] at member
    rcases inv.opened id member with done | ⟨here, -⟩
    · refine Or.inl ?_
      unfold Closed
      rw [closed]
      exact done
    · exact Or.inr ⟨active.trans here, Or.inr (by rw [after]; rfl)⟩
  returned yes := by
    rw [returned] at yes
    have none := (inv.returned yes).1
    rw [before] at none
    cases none
  released other session counted same phase := by
    rw [after] at same
    cases same
    rw [active]
    exact released session counted phase

theorem going (inv : Finalizing s) {call call' : StopCall config.maxPayloadBytes}
    (before : s.stop = some call) (after : s'.stop = some call')
    (active : s'.service.sessions.activeId = s.service.sessions.activeId)
    (opened : s'.opened = s.opened) (closed : s'.closed = s.closed)
    (returned : s'.ledger.stopReturned = s.ledger.stopReturned)
    (early : call'.phase.isReleased = false) :
    Finalizing s' := by
  refine inv.running before after active opened closed returned fun session counted here => ?_
  rw [here] at early
  cases early

theorem all_closed (inv : Finalizing s) (free : s.stop = none)
    (idle : s.service.state ≠ .kRecording) :
    ∀ id ∈ s.opened, s.Closed id := by
  intro id member
  rcases inv.opened id member with closed | ⟨-, recording | running⟩
  · exact closed
  · exact absurd recording idle
  · rw [free] at running
    cases running

theorem startRecording (inv : Finalizing s) (free : s.stop = none) (io : StartIo)
    (pc : RxPc config.maxPayloadBytes) :
    Finalizing { s.startRecording io with rx := pc } := by
  have notReleased : ∀ (call : StopCall config.maxPayloadBytes) (session : FinishedSession)
      (counted : Ledger config.maxPayloadBytes), s.stop = some call →
        call.phase = .released session counted → False := by
    intro call session counted running
    rw [free] at running
    cases running
  rcases s.startRecording_cases io with ⟨-, same⟩ | ⟨idle, sessions, state, made⟩ |
      ⟨idle, -, sessions, state, active, made⟩
  · rw [same]
    exact inv.transfer rfl rfl rfl rfl rfl
  · rw [made]
    exact ⟨fun id member => Or.inl (inv.all_closed free idle id member), nofun,
      fun call session counted running phase =>
        (notReleased call session counted running phase).elim⟩
  · rw [made]
    refine ⟨fun id member => ?_, nofun,
      fun call session counted running phase =>
        (notReleased call session counted running phase).elim⟩
    rcases List.mem_append.mp member with old | new
    · exact Or.inl (inv.all_closed free idle id old)
    · rw [List.mem_singleton.mp new]
      exact Or.inr ⟨congrArg (Option.map SessionInfo.number) active, Or.inl state⟩

theorem stopRecording (inv : Finalizing s) (shape : Shape s) (free : s.stop = none)
    (fromRx : Bool) (reason : Bytes) :
    Finalizing (s.stopRecording fromRx reason) := by
  obtain ⟨-, notFinalizing, notStopping⟩ := shape.free free
  rcases s.stopRecording_cases fromRx reason with ⟨refused, cause⟩ | ⟨entered, state⟩
  · have idle : s.service.state ≠ .kRecording := by
      rcases cause with busy | idle
      · rw [notFinalizing] at busy
        cases busy
      · exact idle.1
    rw [refused]
    exact ⟨fun id member => Or.inl (inv.all_closed free idle id member), fun _ => ⟨rfl, idle⟩,
      fun _ _ _ running => by cases running⟩
  · have recording := state.resolve_right notStopping
    rw [entered]
    refine ⟨fun id member => (inv.opened id member).imp_right fun here =>
      ⟨here.1, Or.inr rfl⟩, fun returned => ?_, ?_⟩
    · exact absurd recording (inv.returned returned).2
    · intro call session counted running phase
      cases running
      cases phase

theorem report (inv : Finalizing s) (io : ReportIo) : Finalizing (s.report io) where
  opened id member := by
    refine (inv.opened id member).imp_left fun ⟨session, inside, same⟩ => ?_
    obtain ⟨session', inside', more, -, rfl⟩ := @mem_of_closed_report _ io _ _ inside
    exact ⟨_, inside', same⟩
  returned := inv.returned
  released := inv.released

theorem advance (inv : Finalizing s) (shape : Shape s) {io : StopIo}
    {call : StopCall config.maxPayloadBytes} (here : s.stop = some call)
    (move : StopMove io call s s') : Finalizing s' := by
  have phase := shape.busy call here
  cases move with
  | enter at' =>
      exact inv.going here (goTo_stop ..) (SessionManager.activeId_stop ..) rfl rfl rfl rfl
  | wait i at' => exact inv.going here (goTo_stop ..) rfl rfl rfl rfl rfl
  | waited i at' => exact inv.going here (goTo_stop ..) rfl rfl rfl rfl rfl
  | unequipped at' exited missing => exact inv.going here (goTo_stop ..) rfl rfl rfl rfl rfl
  | joined at' exited => exact inv.going here (goTo_stop ..) rfl rfl rfl rfl rfl
  | empty attempt wroteAny at' none => exact inv.going here (goTo_stop ..) rfl rfl rfl rfl rfl
  | take attempt wroteAny at' frame rest some =>
      exact inv.going here (goTo_stop ..) rfl rfl rfl rfl rfl
  | write attempt frame at' =>
      rw [at'] at phase
      obtain ⟨-, ⟨log, -, writer⟩, -⟩ := phase
      obtain ⟨run, held⟩ := Option.isSome_iff_exists.mp writer
      rcases drainWrite_cases held log io.write call attempt frame with ⟨-, done⟩ | ⟨-, failed⟩
      · rw [done]
        exact inv.going here (goTo_stop ..) rfl rfl rfl rfl rfl
      · rw [failed]
        exact inv.going here (goTo_stop ..) (SessionManager.activeId_setError ..) rfl rfl rfl rfl
  | again attempt wroteAny at' more => exact inv.going here (goTo_stop ..) rfl rfl rfl rfl rfl
  | leave attempt wroteAny at' done => exact inv.going here (goTo_stop ..) rfl rfl rfl rfl rfl
  | close at' => exact inv.going here (goTo_stop ..) rfl rfl rfl rfl rfl
  | mark at' =>
      exact inv.going here (goTo_stop ..) (SessionManager.activeId_markStopped ..) rfl rfl rfl rfl
  | summarize at' => exact inv.going here (goTo_stop ..) rfl rfl rfl rfl rfl
  | release summary counted at' =>
      rw [at'] at phase
      obtain ⟨id, active⟩ := SessionManager.activeId_isSome (s := s.service.sessions)
        (by rw [show s.service.sessions.state = .kClosed from phase.1]; decide)
      refine inv.running here (goTo_stop ..) rfl rfl rfl rfl fun session counted' same => ?_
      cases same
      rw [active]
      exact congrArg (fun found : Option Nat => some (found.getD 0)) active.symm
  | finish session counted at' =>
      rw [at'] at phase
      have active := inv.released call session counted here at'
      refine ⟨fun id member => Or.inl ?_, fun _ => ⟨rfl, ?_⟩, fun _ _ _ running => by cases running⟩
      · rcases inv.opened id member with ⟨old, inside, same⟩ | ⟨current, -⟩
        · exact ⟨old, List.mem_append_left _ inside, same⟩
        · rw [active] at current
          exact ⟨_, List.mem_append_right _ (List.mem_singleton_self _), Option.some.inj current⟩
      · show s.service.state ≠ .kRecording
        rw [phase.1]
        decide

theorem step (inv : Finalizing s) (shape : Shape s) {e : Event} (move : Move s e s')
    (allowed : FailsOnlyInStop s e) : Finalizing s' := by
  cases move with
  | rx pc quiet lost => exact inv.transfer rfl rfl rfl rfl rfl
  | reject bytes error => exact inv.transfer rfl rfl rfl rfl rfl
  | count io frame here =>
      exact inv.transfer (RuntimeService.sameSession_countFrame ..).sessions rfl rfl rfl rfl
  | accept io frame here recording => exact inv.transfer rfl rfl rfl rfl rfl
  | push io frame here buffer held =>
      obtain ⟨diagnostics, -, pushed⟩ := RuntimeService.pushFrame_some held frame
      rw [pushed]
      exact inv.transfer rfl rfl rfl rfl rfl
  | start io free pc same => exact inv.startRecording free io pc
  | stop free fromRx reason calls => exact inv.stopRecording shape free fromRx reason
  | writerTop io here => exact inv.transfer rfl rfl rfl rfl rfl
  | writerLook io here => exact inv.transfer rfl rfl rfl rfl rfl
  | writerNothing io state here => exact inv.transfer rfl rfl rfl rfl rfl
  | take io state here frame rest popped => exact inv.transfer rfl rfl rfl rfl rfl
  | write io frame here =>
      obtain ⟨⟨log, -, writer⟩, -⟩ := shape.holding here
      obtain ⟨run, held⟩ := Option.isSome_iff_exists.mp writer
      rcases writeHeld_cases held log io frame with ⟨-, done⟩ | ⟨fails, failed⟩
      · rw [done]
        exact inv.transfer rfl rfl rfl rfl rfl
      · have loop : s.loopWriteFails (.writer io) = true := by
          simp [loopWriteFails, here, RuntimeService.writeFrame_some held, fails]
        obtain ⟨call, running⟩ := Option.isSome_iff_exists.mp (allowed loop)
        have early := shape.exited_or_early running
        rw [failed]
        have after : (s.writeHeld io frame).stop = some call := by
          rw [failed]
          exact running
        rw [← failed]
        refine inv.running running after ?_ ?_ ?_ ?_ fun session counted phase => ?_
        · rw [failed]
          exact SessionManager.activeId_setError ..
        · rw [failed]
        · rw [failed]
        · rw [failed]
        · rw [here] at early
          simp [phase] at early
  | advance io call running move => exact inv.advance shape running move
  | report io running => exact inv.report io

end Finalizing

/-- In a run in which no write of the writer thread fails while no stop is running, every started
session is finalised by the time it is stopped or another one is opened. -/
theorem everySessionFinalized_of_reach {s : Daemon config}
    (reached : (daemonMachine config).Reach FailsOnlyInStop s) : s.EverySessionFinalized := by
  have inv := reached.invariant (I := fun s => Shape s ∧ Finalizing s)
    (fun s start => by cases start; exact ⟨.init, .init⟩)
    fun s e s' inv moved allowed =>
      ⟨inv.1.step (move_of_step moved), inv.2.step inv.1 (move_of_step moved) allowed⟩
  have finishing := finishing_of_reach reached
  refine ⟨fun id member ended => ?_, finishing.triggered⟩
  obtain ⟨session, inside, same⟩ := inv.2.closed_of_ended member ended
  exact ⟨session, inside, same, finishing.closed session inside⟩

theorem twoSessions_failsOnlyInStop :
    (twoSessions.foldlM step ({} : Daemon sampleConfig)).isSome = true ∧
    Machine.AllowedAlong FailsOnlyInStop step ({} : Daemon sampleConfig) twoSessions ∧
    (after sampleConfig twoSessions).opened = [0, 1] ∧
      (after sampleConfig twoSessions).ledger.stopReturned = true := by
  decide +kernel

theorem twoSessions_finalized : (after sampleConfig twoSessions).opened = [0, 1] ∧
    (after sampleConfig twoSessions).ledger.stopReturned = true ∧
    (after sampleConfig twoSessions).EverySessionFinalized := by
  obtain ⟨runs, allowed, opened, returned⟩ := twoSessions_failsOnlyInStop
  exact ⟨opened, returned, everySessionFinalized_of_reach (reach_after runs allowed)⟩

/-- The write of the frame fails, and the session is stopped. -/
def failedEvents : List Event :=
  .start cleanStart :: recordOne audioFrame failedWrite ++ [.stop (ascii "user_stop")]

theorem failedEvents_run :
    (failedEvents.foldlM step ({} : Daemon {})).isSome = true := by decide +kernel

theorem failedEvents_not_finalized :
    (daemonMachine {}).Reach (fun _ _ => True) (after {} failedEvents) ∧
    ¬ (after {} failedEvents).EverySessionFinalized := by
  refine ⟨reach_after failedEvents_run (Machine.allowedAlong_true ..), fun every => ?_⟩
  have stopped : 0 ∈ (after {} failedEvents).opened ∧
      (after {} failedEvents).ledger.stopReturned = true ∧
      (after {} failedEvents).closed.length = 0 := by
    decide +kernel
  obtain ⟨session, member, -⟩ := every.finalized 0 stopped.1 (.inr stopped.2.1)
  rw [List.length_eq_zero_iff.mp stopped.2.2] at member
  cases member

end Daemon
end LocalPC.Runtime
