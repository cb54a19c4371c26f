import Mathlib.Algebra.Order.BigOperators.Group.List
import LocalPC.Runtime.ContractSeq
import LocalPC.Runtime.FrameConservation

namespace LocalPC.Runtime
open Lib Contract

def framesOnDisk (m : UInt32) (dir : Dir) : Nat :=
  (dir.chunks.map fun bytes => countContractFramesInBytes bytes m).sum

theorem ChunksOf.framesOnDisk {m : UInt32} {segments : List (List Bytes)} {dir : Dir}
    (files : ChunksOf segments dir) (accepted : ∀ frame ∈ segments.flatten, Accepted m frame) :
    framesOnDisk m dir = segments.flatten.length := by
  have counts : (segments.map List.flatten).map (fun bytes => countContractFramesInBytes bytes m) =
      segments.map List.length := by
    rw [List.map_map]
    refine List.map_congr_left fun frames member => ?_
    rw [Function.comp_apply, countContractFramesInBytes_eq, RecordFormat.records_of_flatten]
    exact fun frame inside =>
      isRecord_iff.mpr (accepted frame (List.mem_flatten.mpr ⟨frames, member, inside⟩))
  rw [Runtime.framesOnDisk, (files.chunks_perm.map _).sum_eq, counts, List.length_flatten]

theorem framesOnDisk_withTexts (m : UInt32) (dir : Dir) (writes : List SideWrite) :
    framesOnDisk m (dir.withTexts writes) = framesOnDisk m dir := by
  rw [framesOnDisk, Dir.chunks_withTexts, framesOnDisk]

structure SummaryCounts {m : UInt32} (summary : FinalSummary) (counted : Ledger m)
    (frames : Nat) : Prop where
  written : summary.packetsWritten = counted.base.packetsWritten + frames
  bad : summary.badPackets = counted.base.badPackets + counted.rejected
  lost : summary.packetLoss = counted.base.packetsLost + (trackSeqs counted.tracked).2

/-- The summary counts the frames in the chunk files, and the invalid and the lost frames since the
start of the session. -/
def CountsOwnSession {m : UInt32} (session : ClosedSession m) : Prop :=
  session.summary.packetsWritten = framesOnDisk m session.dir ∧
  session.summary.badPackets = session.counted.rejected ∧
  session.summary.packetLoss = (trackSeqs session.counted.tracked).2

instance {m : UInt32} (session : ClosedSession m) : Decidable (CountsOwnSession session) :=
  inferInstanceAs (Decidable (_ ∧ _ ∧ _))

/-- The counters were zero when the session was started. -/
def StartsFromZero {m : UInt32} (session : ClosedSession m) : Prop :=
  session.counted.base.packetsWritten = 0 ∧ session.counted.base.badPackets = 0 ∧
    session.counted.base.packetsLost = 0

theorem SummaryCounts.own_iff {m : UInt32} {session : ClosedSession m}
    (counts : SummaryCounts session.summary session.counted (framesOnDisk m session.dir)) :
    CountsOwnSession session ↔ StartsFromZero session := by
  have zero (base own : UInt64) : base + own = own ↔ base = 0 := by
    constructor
    · intro same
      have rest := congrArg (· - own) same
      simpa using rest
    · rintro rfl
      exact UInt64.zero_add own
  unfold CountsOwnSession StartsFromZero
  rw [counts.written, counts.bad, counts.lost, Nat.add_eq_right, Nat.add_eq_right, zero]

namespace Daemon
variable {config : RuntimeConfig}

def Failed (s : Daemon config) : Prop := s.stop = none ∧ s.service.state = .kError

structure Counting (s : Daemon config) : Prop where
  bad : s.service.diagnostics.badPackets = s.ledger.base.badPackets + s.ledger.rejected
  seqs : ¬ s.Failed → s.service.highestSeq = (trackSeqs s.ledger.tracked).1 ∧
    s.service.diagnostics.packetsLost = s.ledger.base.packetsLost + (trackSeqs s.ledger.tracked).2
  written : ¬ s.Failed → ∀ run, s.service.writer = some run →
    s.service.diagnostics.packetsWritten = s.ledger.base.packetsWritten + run.written.length
  summarized : ∀ call summary counted run, s.stop = some call →
    call.phase = .summarized summary counted →
    s.service.writer = some run → SummaryCounts summary counted run.written.length
  released : ∀ call session counted, s.stop = some call → call.phase = .released session counted →
    SummaryCounts session.summary counted (framesOnDisk config.maxPayloadBytes session.dir)
  closed : ∀ session ∈ s.closed,
    SummaryCounts session.summary session.counted (framesOnDisk config.maxPayloadBytes session.dir)

/-- All writes succeed, and open no chunk file twice. -/
structure WritesOnce (s : Daemon config) (e : Event) : Prop where
  writes : s.writeFails e = false
  reopens : ¬ s.Reopens e

instance (s : Daemon config) (e : Event) : Decidable (WritesOnce s e) :=
  decidable_of_iff (s.writeFails e = false ∧ ¬ s.Reopens e)
    ⟨fun h => ⟨h.1, h.2⟩, fun h => ⟨h.1, h.2⟩⟩

theorem WritesOnce.keepsFrames {s : Daemon config} {e : Event}
    (once : WritesOnce s e) : KeepsFrames s e where
  fails failed := by
    rw [once.writes] at failed
    cases failed
  reopens _ := once.reopens

theorem Live.framesOnDisk {s : Daemon config}
    {buffer : PacketBuffer (ContractFrame config.maxPayloadBytes)} {run : WriterRun}
    (live : s.Live buffer run) :
    framesOnDisk config.maxPayloadBytes run.writer.dir = run.written.length := by
  obtain ⟨lost, -, perm⟩ := live.conserved
  obtain ⟨segments, frames, files⟩ := live.filed
  rw [files.framesOnDisk ?_, frames]
  intro frame member
  rw [frames] at member
  obtain ⟨pushed, -, rfl⟩ := List.mem_map.mp
    (perm.symm.subset (List.mem_append_left _ (List.mem_append_left _ member)))
  exact pushed.accepted

namespace Counting
variable {s s' : Daemon config}

theorem init : Counting ({} : Daemon config) where
  bad := rfl
  seqs _ := ⟨rfl, rfl⟩
  written _ _ none := by cases none
  summarized _ _ _ _ none := by cases none
  released _ _ _ none := by cases none
  closed _ member := absurd member List.not_mem_nil

theorem transfer (counting : Counting s)
    (counts : s.service.diagnostics.SameCounts s'.service.diagnostics)
    (highest : s'.service.highestSeq = s.service.highestSeq) (base : s'.ledger.base = s.ledger.base)
    (tracked : s'.ledger.tracked = s.ledger.tracked)
    (rejected : s'.ledger.rejected = s.ledger.rejected) (failed : s.Failed → s'.Failed)
    (writer : s'.service.writer = s.service.writer) (stop : s'.stop = s.stop)
    (closed : s'.closed = s.closed) : Counting s' where
  bad := by
    rw [counts.bad, base, rejected]
    exact counting.bad
  seqs ok := by
    rw [counts.lost, highest, base, tracked]
    exact counting.seqs (mt failed ok)
  written ok := by
    rw [counts.written, base, writer]
    exact counting.written (mt failed ok)
  summarized := by
    rw [stop, writer]
    exact counting.summarized
  released := by
    rw [stop]
    exact counting.released
  closed := by
    rw [closed]
    exact counting.closed

theorem goTo (counting : Counting s) {call call' : StopCall config.maxPayloadBytes}
    (running : s.stop = some call) (after : s'.stop = some call')
    (counts : s.service.diagnostics.SameCounts s'.service.diagnostics)
    (highest : s'.service.highestSeq = s.service.highestSeq) (ledger : s'.ledger = s.ledger)
    (written : ∀ run, s'.service.writer = some run →
      ∃ run', s.service.writer = some run' ∧ run.written = run'.written)
    (notSummarized : ∀ summary counted, call'.phase ≠ .summarized summary counted)
    (notReleased : ∀ session counted, call'.phase ≠ .released session counted)
    (closed : s'.closed = s.closed) : Counting s' := by
  have ok : ¬ s.Failed := by
    rintro ⟨free, -⟩
    rw [running] at free
    cases free
  refine ⟨?_, fun _ => ?_, fun _ run same => ?_, fun other summary counted run same here => ?_,
    fun other session counted same here => ?_, ?_⟩
  · rw [counts.bad, ledger]
    exact counting.bad
  · rw [counts.lost, highest, ledger]
    exact counting.seqs ok
  · obtain ⟨run', before, equal⟩ := written run same
    rw [counts.written, ledger, equal]
    exact counting.written ok run' before
  · rw [after] at same
    cases same
    exact absurd here (notSummarized summary counted)
  · rw [after] at same
    cases same
    exact absurd here (notReleased session counted)
  · rw [closed]
    exact counting.closed

theorem startRecording (counting : Counting s) (free : s.stop = none) (io : StartIo)
    (pc : RxPc config.maxPayloadBytes) : Counting { s.startRecording io with rx := pc } := by
  have none (call : StopCall config.maxPayloadBytes) : s.stop ≠ some call := by
    rw [free]
    nofun
  rcases s.startRecording_cases io with ⟨-, made⟩ | ⟨-, sessions, state, made⟩ |
      ⟨-, -, sessions, state, -, made⟩
  · rw [made]
    exact counting.transfer ⟨rfl, rfl, rfl⟩ rfl rfl rfl rfl id rfl rfl rfl
  · rw [made]
    have failed : ¬ ¬ (s.stop = Option.none ∧ sessions.state = .kError) := not_not.mpr ⟨free, state⟩
    exact ⟨rfl, fun ok => absurd ok failed, fun ok => absurd ok failed,
      fun call _ _ _ running => absurd running (none call),
        fun call _ _ running => absurd running (none call), counting.closed⟩
  · rw [made]
    refine ⟨rfl, fun _ => ⟨rfl, (UInt64.add_zero _).symm⟩, fun _ run same => ?_,
      fun call _ _ _ running => absurd running (none call),
        fun call _ _ running => absurd running (none call), counting.closed⟩
    cases same
    rfl

theorem write_written {run : WriterRun} {io : WriteIo} {frame : Bytes}
    (done : (run.writer.writeContractFrame io frame).1 = true) :
    (run.step (.write io frame)).written.length = run.written.length + 1 := by
  rw [WriterRun.step, WriterCall.written, if_pos done, List.length_append, List.length_singleton]

theorem advance (counting : Counting s) (shape : Shape s) (sound : Sound s) {io : StopIo}
    {call : StopCall config.maxPayloadBytes} (running : s.stop = some call)
    (move : StopMove io call s s') (allowed : WritesOnce s (.stopStep io)) : Counting s' := by
  have phase := shape.busy call running
  have ok : ¬ s.Failed := by
    rintro ⟨free, -⟩
    rw [running] at free
    cases free
  have same : ∀ run, s.service.writer = some run → ∃ run', s.service.writer = some run' ∧
      run.written = run'.written :=
    fun run held => ⟨run, held, rfl⟩
  cases move with
  | enter here =>
      exact counting.goTo running (goTo_stop ..)
        ⟨rfl, rfl, rfl⟩ rfl rfl same (by simp) (by simp) rfl
  | wait i here =>
      exact counting.goTo running (goTo_stop ..)
        ⟨rfl, rfl, rfl⟩ rfl rfl same (by simp) (by simp) rfl
  | waited i here =>
      exact counting.goTo running (goTo_stop ..)
        ⟨rfl, rfl, rfl⟩ rfl rfl same (by simp) (by simp) rfl
  | unequipped here exited missing =>
      exact counting.goTo running (goTo_stop ..)
        ⟨rfl, rfl, rfl⟩ rfl rfl same (by simp) (by simp) rfl
  | joined here exited =>
      exact counting.goTo running (goTo_stop ..)
        ⟨rfl, rfl, rfl⟩ rfl rfl same (by simp) (by simp) rfl
  | empty attempt wroteAny here none =>
      exact counting.goTo running (goTo_stop ..)
        ⟨rfl, rfl, rfl⟩ rfl rfl same (by simp) (by simp) rfl
  | take attempt wroteAny here frame rest some =>
      exact counting.goTo running (goTo_stop ..)
        ⟨rfl, rfl, rfl⟩ rfl rfl same (by simp) (by simp) rfl
  | write attempt frame here =>
      rw [here] at phase
      obtain ⟨-, ⟨log, -, writer⟩, -⟩ := phase
      obtain ⟨run, held⟩ := Option.isSome_iff_exists.mp writer
      rcases drainWrite_cases held log io.write call attempt frame with ⟨done, next⟩ | ⟨fails, -⟩
      · rw [next]
        refine ⟨counting.bad, fun _ => counting.seqs ok, fun _ run' new => ?_,
          fun _ _ _ _ now at' => ?_, fun _ _ _ now at' => ?_, counting.closed⟩
        · cases new
          show s.service.diagnostics.packetsWritten + 1 =
            s.ledger.base.packetsWritten + (run.step _).written.length
          rw [write_written done, counting.written ok run held, Nat.add_assoc]
        · cases now
          cases at'
        · cases now
          cases at'
      · have writes : s.writeFails _ = false := allowed.writes
        rw [writeFails_eq (frameWrite_stopStep running here io) held, fails] at writes
        cases writes
  | again attempt wroteAny here more =>
      exact counting.goTo running (goTo_stop ..)
        ⟨rfl, rfl, rfl⟩ rfl rfl same (by simp) (by simp) rfl
  | leave attempt wroteAny here done =>
      exact counting.goTo running (goTo_stop ..)
        ⟨rfl, rfl, rfl⟩ rfl rfl same (by simp) (by simp) rfl
  | close here =>
      refine counting.goTo running (goTo_stop ..) ⟨rfl, rfl, rfl⟩ rfl rfl
        (fun run closed => ?_) (by simp) (by simp) rfl
      obtain ⟨run', held, rfl⟩ := Option.map_eq_some_iff.mp closed
      exact ⟨run', held, List.append_nil _⟩
  | mark here =>
      exact counting.goTo running (goTo_stop ..)
        ⟨rfl, rfl, rfl⟩ rfl rfl same (by simp) (by simp) rfl
  | summarize here =>
      refine ⟨counting.bad, fun _ => counting.seqs ok, fun _ => counting.written ok,
        fun other summary counted run now at' held => ?_, fun _ _ _ now at' => ?_, counting.closed⟩
      · cases now
        cases at'
        exact ⟨counting.written ok run held, counting.bad, (counting.seqs ok).2⟩
      · cases now
        cases at'
  | release summary counted here =>
      rw [here] at phase
      obtain ⟨buffer, run, queue, held, live⟩ := sound.live_of_running running phase.2.1
      refine ⟨counting.bad, fun _ => counting.seqs ok, fun _ _ none => (by cases none),
        fun _ _ _ _ _ _ none => (by cases none),
          fun other session counted' now at' => ?_, counting.closed⟩
      cases now
      cases at'
      have counts := counting.summarized call summary counted run running here held
      rw [← live.framesOnDisk] at counts
      rw [RuntimeService.dir_finished (s := s.service.writeRuntimeReport io.report) held,
        framesOnDisk_withTexts]
      exact counts
  | finish session counted here =>
      rw [here] at phase
      have noWriter (run : WriterRun) : s.service.writer ≠ some run := by
        rw [phase.2.2.1]
        simp
      refine ⟨counting.bad, fun _ => counting.seqs ok, fun _ run held => absurd held (noWriter run),
        fun _ _ _ _ none => (by cases none),
          fun _ _ _ none => (by cases none), fun other member => ?_⟩
      rcases List.mem_append.mp member with old | new
      · exact counting.closed other old
      · rw [List.mem_singleton.mp new]
        exact counting.released call session counted running here

theorem step (counting : Counting s) (shape : Shape s) (sound : Sound s)
    {e : Event} (move : Move s e s') (allowed : WritesOnce s e) : Counting s' := by
  cases move with
  | rx pc quiet lost => exact counting.transfer ⟨rfl, rfl, rfl⟩ rfl rfl rfl rfl id rfl rfl rfl
  | reject bytes error =>
      have bad := counting.bad
      refine ⟨?_, counting.seqs, counting.written, counting.summarized,
        counting.released, counting.closed⟩
      show s.service.diagnostics.badPackets + 1 = s.ledger.base.badPackets + (s.ledger.rejected + 1)
      omega
  | count io frame here =>
      have same := RuntimeService.sameSession_countFrame frame.header s.service
      obtain ⟨highest, lost, written, bad⟩ := RuntimeService.countFrame_spec frame.header s.service
      have failed : s.Failed → s.stop = none ∧
          (s.service.countFrame frame.header).state = .kError := fun failed =>
        ⟨failed.1, (congrArg SessionManager.state same.sessions).trans failed.2⟩
      refine ⟨bad.trans counting.bad, fun ok => ?_, fun ok run held => ?_,
        fun call summary counted run running at' held => ?_, counting.released, counting.closed⟩
      · obtain ⟨mark, sum⟩ := counting.seqs (mt failed ok)
        show (s.service.countFrame frame.header).highestSeq =
          (trackSeqs (s.ledger.tracked ++ [frame.header.seq])).1 ∧
          (s.service.countFrame frame.header).diagnostics.packetsLost =
            s.ledger.base.packetsLost + (trackSeqs (s.ledger.tracked ++ [frame.header.seq])).2
        rw [highest, lost, trackSeqs_append, mark, sum, UInt64.add_assoc]
        exact ⟨rfl, rfl⟩
      · exact written.trans (counting.written (mt failed ok) run (same.writer ▸ held))
      · exact counting.summarized call summary counted run running at' (same.writer ▸ held)
  | accept io frame here recording =>
      exact counting.transfer ⟨rfl, rfl, rfl⟩ rfl rfl rfl rfl id rfl rfl rfl
  | push io frame here buffer held =>
      obtain ⟨diagnostics, counts, pushed⟩ := RuntimeService.pushFrame_some held frame
      rw [pushed]
      exact counting.transfer counts rfl rfl rfl rfl id rfl rfl rfl
  | start io free pc same => exact counting.startRecording free io pc
  | stop free fromRx reason calls =>
      rcases s.stopRecording_cases fromRx reason with ⟨refused, -⟩ | ⟨entered, state⟩
      · rw [refused]
        exact counting.transfer ⟨rfl, rfl, rfl⟩ rfl rfl rfl rfl
          (fun failed => ⟨rfl, failed.2⟩) rfl free.symm rfl
      · have ok : ¬ s.Failed := by
          rintro ⟨-, error⟩
          rcases state with state | state <;> exact absurd (error.symm.trans state) (by decide)
        rw [entered]
        refine ⟨counting.bad, fun _ => counting.seqs ok, fun _ => counting.written ok,
          fun _ _ _ _ now at' => ?_, fun _ _ _ now at' => ?_, counting.closed⟩
        · cases now
          cases at'
        · cases now
          cases at'
  | writerTop io here => exact counting.transfer ⟨rfl, rfl, rfl⟩ rfl rfl rfl rfl id rfl rfl rfl
  | writerLook io here => exact counting.transfer ⟨rfl, rfl, rfl⟩ rfl rfl rfl rfl id rfl rfl rfl
  | writerNothing io state here =>
      exact counting.transfer ⟨rfl, rfl, rfl⟩ rfl rfl rfl rfl id rfl rfl rfl
  | take io state here frame rest popped =>
      exact counting.transfer ⟨rfl, rfl, rfl⟩ rfl rfl rfl rfl id rfl rfl rfl
  | write io frame here =>
      obtain ⟨⟨log, -, writer⟩, -⟩ := shape.holding here
      obtain ⟨run, held⟩ := Option.isSome_iff_exists.mp writer
      rcases writeHeld_cases held log io frame with ⟨done, next⟩ | ⟨fails, -⟩
      · rw [next]
        refine ⟨counting.bad, counting.seqs, fun ok run' new => ?_,
          fun call summary counted _ running at' _ => ?_, counting.released, counting.closed⟩
        · cases new
          show s.service.diagnostics.packetsWritten + 1 =
            s.ledger.base.packetsWritten + (run.step _).written.length
          rw [write_written done, counting.written ok run held, Nat.add_assoc]
        · rcases shape.exited_or_early running with exited | early | ⟨i, early⟩ | early
          · rw [here] at exited
            cases exited
          all_goals
            rw [early] at at'
            cases at'
      · have writes : s.writeFails _ = false := allowed.writes
        rw [writeFails_eq (frameWrite_writer here io) held, fails] at writes
        cases writes
  | advance io call running move => exact counting.advance shape sound running move allowed
  | report io running =>
      refine ⟨counting.bad, counting.seqs, counting.written, counting.summarized, counting.released,
        fun session member => ?_⟩
      obtain ⟨before, old, more, -, rfl⟩ := mem_closed_report member
      rw [ClosedSession.dir_addTexts, framesOnDisk_withTexts]
      exact counting.closed before old

end Counting

/-- In a run in which all writes succeed and no chunk file is opened twice, the summary of a session
counts its own session if and only if the counters were zero at its start. -/
theorem countsOwnSession_iff {s : Daemon config}
    (reached : (daemonMachine config).Reach WritesOnce s) :
    ∀ session ∈ s.closed, CountsOwnSession session ↔ StartsFromZero session := by
  have kept := reached.invariant (I := fun s => Shape s ∧ Sound s ∧ Counting s)
    (fun s start => by cases start; exact ⟨.init, .init, .init⟩)
    fun s e s' kept moved allowed =>
      ⟨kept.1.step (move_of_step moved),
        kept.2.1.step kept.1 (move_of_step moved) allowed.keepsFrames,
          kept.2.2.step kept.1 kept.2.1 (move_of_step moved) allowed⟩
  exact fun session member => (kept.2.2.closed session member).own_iff

theorem stoppedEvents_writesOnce :
    Machine.AllowedAlong WritesOnce step ({} : Daemon {}) stoppedEvents := by
  decide +kernel

theorem stoppedEvents_fresh :
    ∃ session ∈ (after {} stoppedEvents).closed, session.counted.base.packetsWritten = 0 ∧
      session.counted.base.badPackets = 0 ∧ session.counted.base.packetsLost = 0 := by
  decide +kernel

theorem stoppedEvents_countsOwnSession :
    ∃ session ∈ (after {} stoppedEvents).closed, CountsOwnSession session := by
  obtain ⟨session, member, zero⟩ := stoppedEvents_fresh
  have counted := countsOwnSession_iff (reach_after stoppedEvents_run stoppedEvents_writesOnce)
  exact ⟨session, member, (counted session member).mpr zero⟩

/-- A second recording of one frame after the first one. -/
def restartedEvents : List Event := stoppedEvents ++ stoppedEvents

theorem restartedEvents_run :
    (restartedEvents.foldlM step ({} : Daemon {})).isSome = true := by decide +kernel

theorem restartedEvents_allowed :
    Machine.AllowedAlong WritesSucceed step ({} : Daemon {}) restartedEvents := by
  decide +kernel

theorem restartedEvents_carry :
    ∃ session ∈ (after {} restartedEvents).closed, ¬ CountsOwnSession session := by
  decide +kernel

theorem restartedEvents_notOwn : (daemonMachine {}).Reach WritesSucceed (after {} restartedEvents) ∧
    ¬ ∀ session ∈ (after {} restartedEvents).closed, CountsOwnSession session := by
  refine ⟨reach_after restartedEvents_run restartedEvents_allowed, fun own => ?_⟩
  obtain ⟨session, member, carried⟩ := restartedEvents_carry
  exact carried (own session member)

end Daemon
end LocalPC.Runtime
