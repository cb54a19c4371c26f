import LocalPC.Runtime.FrameOrder
import LocalPC.Runtime.SessionCounters

namespace LocalPC.Runtime
open Lib Contract

structure EntryOf (frames : List Bytes) (c : ChunkInfo) : Prop where
  bytes : c.bytes ≤ frames.flatten.length
  first : c.firstTsNs = 0 ∨ ∃ frame ∈ frames, c.firstTsNs = (EgoFrameHeader.decode frame).t0Ns
  last : c.lastTsNs = 0 ∨ ∃ frame ∈ frames, c.lastTsNs = (EgoFrameHeader.decode frame).t1Ns

namespace EntryOf
variable {frames : List Bytes} {c : ChunkInfo}

theorem fresh (frames : List Bytes) (filename : Bytes) :
    EntryOf frames { filename := filename } where
  bytes := Nat.zero_le _
  first := .inl rfl
  last := .inl rfl

theorem append (entry : EntryOf frames c) (more : List Bytes) : EntryOf (frames ++ more) c where
  bytes := by
    rw [List.flatten_append, List.length_append]
    exact entry.bytes.trans (Nat.le_add_right ..)
  first := entry.first.imp id fun ⟨frame, old, time⟩ => ⟨frame, List.mem_append_left _ old, time⟩
  last := entry.last.imp id fun ⟨frame, old, time⟩ => ⟨frame, List.mem_append_left _ old, time⟩

theorem add (entry : EntryOf frames c) (frame : Bytes) :
    EntryOf (frames ++ [frame]) (c.add frame) where
  bytes := by
    rw [List.flatten_append, List.flatten_singleton, List.length_append]
    exact Nat.add_le_add_right entry.bytes _
  first := by
    rw [ChunkInfo.add]
    dsimp only
    split
    · exact .inr ⟨frame, List.mem_append_right _ (List.mem_singleton_self _), rfl⟩
    · exact (entry.append [frame]).first
  last := .inr ⟨frame, List.mem_append_right _ (List.mem_singleton_self _), rfl⟩

end EntryOf

def Entries (chunks : List ChunkInfo) (frames : List Bytes) : Prop := ∀ c ∈ chunks, EntryOf frames c

namespace Entries
variable {chunks : List ChunkInfo} {frames : List Bytes} {w : ChunkWriter}

theorem append (entries : Entries chunks frames) {c : ChunkInfo} (entry : EntryOf frames c) :
    Entries (chunks ++ [c]) frames := by
  intro c' member
  rcases List.mem_append.mp member with old | new
  · exact entries c' old
  · exact List.mem_singleton.mp new ▸ entry

theorem add (entries : Entries chunks frames) (frame : Bytes) :
    Entries (chunks.modifyLast (ChunkInfo.add frame)) (frames ++ [frame]) := by
  rcases chunks.eq_nil_or_concat with rfl | ⟨front, newest, rfl⟩
  · exact fun c member => absurd member List.not_mem_nil
  · rw [List.concat_eq_append] at entries ⊢
    rw [List.modifyLast_concat]
    have older : Entries front (frames ++ [frame]) := fun c member =>
      (entries c (List.mem_append_left _ member)).append [frame]
    exact older.append
      ((entries newest (List.mem_append_right _ (List.mem_singleton_self _))).add frame)

theorem openChunk (entries : Entries w.chunks frames) (io : OpenIo) :
    Entries (w.openChunk io).2.chunks frames := by
  have index (opens : Bool) (w : ChunkWriter) : (w.openIndex opens).chunks = w.chunks := by
    unfold ChunkWriter.openIndex
    split
    · rfl
    · dsimp only
      split <;> rfl
  unfold ChunkWriter.openChunk
  dsimp only
  split
  · exact entries
  · rw [index]
    exact entries.append (.fresh frames _)

theorem rotateIfNeeded (entries : Entries w.chunks frames) (io : WriteIo) :
    Entries (w.rotateIfNeeded io).2.chunks frames := by
  unfold ChunkWriter.rotateIfNeeded
  split
  · exact entries.openChunk io.reopen
  · split
    · exact entries
    · exact openChunk
        (w := { w.flush io.rotateFlush with chunkStream := _, currentChunkId := _ }) entries
          io.reopen

theorem write (entries : Entries w.chunks frames) (io : WriteIo) (frame : Bytes) :
    Entries (w.writeContractFrame io frame).2.chunks
      (frames ++ if (w.writeContractFrame io frame).1 then [frame] else []) := by
  have index (outcome : StreamWrite) (header : EgoFrameHeader) (w : ChunkWriter) :
      (w.appendContractIndex outcome header).chunks = w.chunks := by
    unfold ChunkWriter.appendContractIndex
    split <;> rfl
  have flushed (w : ChunkWriter) : (w.flushIfDue io).chunks = w.chunks := by
    unfold ChunkWriter.flushIfDue
    split <;> rfl
  have refused {w' : ChunkWriter} (entries : Entries w'.chunks frames) :
      Entries w'.chunks (frames ++ if false = true then [frame] else []) := by simpa using entries
  unfold ChunkWriter.writeContractFrame
  split
  · exact refused entries
  · have rotated := entries.rotateIfNeeded io
    revert rotated
    rcases w.rotateIfNeeded io with ⟨_ | _, next⟩ <;> intro rotated
    · exact refused rotated
    · dsimp only at rotated ⊢
      split
      · exact refused rotated
      · split
        · exact refused rotated
        · dsimp only
          rw [flushed, ChunkWriter.account, if_pos rfl]
          dsimp only
          rw [index]
          exact rotated.add frame

theorem step {run : WriterRun}
    (entries : Entries run.writer.chunks run.written) (call : WriterCall) :
    Entries (run.step call).writer.chunks (run.step call).written := by
  have same {chunks : List ChunkInfo} (entries : Entries chunks run.written) : Entries chunks
      (run.written ++ []) := by
    rwa [List.append_nil]
  cases call with
  | «open» io => exact same (entries.openChunk io)
  | write io frame => exact entries.write io frame
  | flush io => exact same entries
  | close io => exact same entries

end Entries

structure SavedAs (segments : List (List Bytes)) (dir : Dir) : Prop where
  files : ChunksOf segments dir
  some_ : segments ≠ []
  few : segments.length ≤ 2 ^ 32
  manifest : ∃ chunks, dir.lookup manifestName = some (manifestJson chunks) ∧
    chunks.map ChunkInfo.filename = (List.range segments.length).map chunkFilename ∧
      Entries chunks segments.flatten

theorem SavedAs.withTexts {segments : List (List Bytes)} {dir : Dir} (saved : SavedAs segments dir)
    (writes : List SideWrite) : SavedAs segments (dir.withTexts writes) where
  files := saved.files.transfer (.withTexts writes dir)
  some_ := saved.some_
  few := saved.few
  manifest := by
    rw [dir.lookup_withTexts notSide_manifest]
    exact saved.manifest

theorem AtEnd.close {older : List (List Bytes)} {last : List Bytes} {w : ChunkWriter}
    (here : AtEnd older last w) (entries : Entries w.chunks (older ++ [last]).flatten)
    {io : FlushIo} (written : io.manifest = .done) :
    SavedAs (older ++ [last]) (w.close io).dir where
  files := here.files.transfer (SameChunks.flush io w)
  some_ := List.append_ne_nil_of_right_ne_nil _ (List.cons_ne_nil _ _)
  few := by
    have bound := w.currentChunkId.toNat_lt
    rw [here.id] at bound
    rw [List.length_append, List.length_singleton]
    exact bound
  manifest := by
    refine ⟨w.chunks, ?_, ?_, entries⟩
    · show (writeTextAtomic io.manifest manifestName (manifestJson w.chunks) w.dir).2.lookup
        manifestName = _
      rw [written]
      exact AList.lookup_insert _
    · rw [List.length_append, List.length_singleton]
      exact here.names

namespace Daemon
variable {config : RuntimeConfig}

def manifestFails (s : Daemon config) (e : Event) : Bool :=
  match e, s.stop with
  | .stopStep io, some call =>
      match call.phase with
      | .closing => decide (io.close.manifest ≠ .done)
      | _ => false
  | _, _ => false

/-- No frame of the step is lost behind the buffer, and a session that it closes gets its manifest. -/
structure SavesSessions (s : Daemon config) (e : Event) : Prop extends KeepsFrames s e where
  manifest : s.manifestFails e = false

instance (s : Daemon config) (e : Event) : Decidable (SavesSessions s e) :=
  decidable_of_iff (KeepsFrames s e ∧ s.manifestFails e = false)
    ⟨fun h => ⟨h.1, h.2⟩, fun h => ⟨h.1, h.2⟩⟩

structure Sealed (s : Daemon config) : Prop where
  entries : ∀ run, s.service.writer = some run → Entries run.writer.chunks run.written
  saved : ∀ call, s.stop = some call → call.phase.writerClosed = true →
    ∀ run, s.service.writer = some run →
    ∃ segments : List (List Bytes), segments.flatten = run.written ∧ SavedAs segments run.writer.dir

namespace Sealed
variable {s s' : Daemon config}

theorem init : Sealed ({} : Daemon config) where
  entries _ none := by cases none
  saved _ none := by cases none

theorem releasesFiled (sealed : Sealed s) : ReleasesFiled SavedAs s :=
  fun call summary counted running here =>
  sealed.saved call running (by rw [here]; rfl)

theorem entries_step (sealed : Sealed s) {e : Event} (moves : WriterMoves s e s') (run' : WriterRun)
    (writer : s'.service.writer = some run') : Entries run'.writer.chunks run'.written := by
  rcases moves run' writer with start | ⟨run, held, move⟩
  · obtain ⟨io, rfl⟩ := start.fresh
    have fresh : Entries (WriterRun.fresh config io.now).writer.chunks
        (WriterRun.fresh config io.now).written :=
      fun c member => absurd member List.not_mem_nil
    exact fresh.step _
  · have entries := sealed.entries run held
    cases move with
    | keep none => exact entries
    | write io frame written => exact entries.step _
    | close io closes none => exact entries.step _

theorem saved_stop (sealed : Sealed s) (shape : Shape s) (sound : Sound s) {io : StopIo}
    {call : StopCall config.maxPayloadBytes} (running : s.stop = some call)
    (move : StopMove io call s s') (allowed : SavesSessions s (.stopStep io))
    (call' : StopCall config.maxPayloadBytes) (after : s'.stop = some call')
    (closed : call'.phase.writerClosed = true) (run' : WriterRun)
    (writer : s'.service.writer = some run') :
    ∃ segments :
    List (List Bytes), segments.flatten = run'.written ∧ SavedAs segments run'.writer.dir := by
  have phase := shape.busy call running
  have early {next : StopCall config.maxPayloadBytes} (goes : s'.stop = some next)
      (before : next.phase.writerClosed = false) : False := by
    obtain rfl := Option.some.inj (goes.symm.trans after)
    exact Bool.false_ne_true (before.symm.trans closed)
  cases move with
  | close here =>
      rw [here] at phase
      obtain ⟨buffer, run, queue, held, live⟩ := sound.live_of_running running phase.2.1
      obtain ⟨older, last, atEnd, frames⟩ := live.atEnd fun other same => by
        obtain rfl := Option.some.inj (running.symm.trans same)
        rw [here]
        rfl
      have written : io.close.manifest = .done := by
        simpa [manifestFails, running, here] using allowed.manifest
      have step : run.step (.close io.close) = run' := by
        have mapped : s.service.writer.map (fun run => run.step (.close io.close)) = some run' :=
          writer
        rw [held] at mapped
        exact Option.some.inj mapped
      rw [← step]
      exact ⟨older ++ [last], frames.trans (List.append_nil _).symm,
        atEnd.close (frames ▸ sealed.entries run held) written⟩
  | mark here => exact sealed.saved call running (by rw [here]; rfl) run' writer
  | summarize here => exact sealed.saved call running (by rw [here]; rfl) run' writer
  | release summary counted here => cases writer
  | finish session counted here => cases after
  | write attempt frame here =>
      rw [here] at phase
      obtain ⟨-, ⟨log, -, held⟩, -⟩ := phase
      obtain ⟨run, held⟩ := Option.isSome_iff_exists.mp held
      rcases drainWrite_cases held log io.write call attempt frame with ⟨-, next⟩ | ⟨-, next⟩
      all_goals
        rw [next] at early
        exact (early (goTo_stop ..) rfl).elim
  | enter here => exact (early (goTo_stop ..) rfl).elim
  | wait i here => exact (early (goTo_stop ..) rfl).elim
  | waited i here => exact (early (goTo_stop ..) rfl).elim
  | unequipped here exited missing => exact (early (goTo_stop ..) rfl).elim
  | joined here exited => exact (early (goTo_stop ..) rfl).elim
  | empty attempt wroteAny here none => exact (early (goTo_stop ..) rfl).elim
  | take attempt wroteAny here frame rest popped => exact (early (goTo_stop ..) rfl).elim
  | again attempt wroteAny here more => exact (early (goTo_stop ..) rfl).elim
  | leave attempt wroteAny here done => exact (early (goTo_stop ..) rfl).elim

theorem step (sealed : Sealed s) (shape : Shape s) (sound : Sound s) {e : Event}
    (moved : s.step e = some s') (allowed : SavesSessions s e) : Sealed s' := by
  refine ⟨sealed.entries_step (moves_step shape moved), fun call after closed run writer => ?_⟩
  have keep (stop : s'.stop = s.stop) (same : s'.service.writer = s.service.writer) :=
    sealed.saved call (stop.symm.trans after) closed run (same.symm.trans writer)
  have move := move_of_step moved
  cases move with
  | count io frame here => exact keep rfl (RuntimeService.sameSession_countFrame ..).writer
  | push io frame here buffer held =>
      obtain ⟨diagnostics, -, pushed⟩ := RuntimeService.pushFrame_some held frame
      rw [pushed] at keep
      exact keep rfl rfl
  | start io free pc same =>
      rcases s.startRecording_cases io with ⟨-, made⟩ | ⟨-, _, -, made⟩ | ⟨-, -, _, -, -, made⟩
      all_goals
        rw [made] at after
        exact absurd (free.symm.trans after) (Option.some_ne_none _).symm
  | stop free fromRx reason calls =>
      rcases s.stopRecording_cases fromRx reason with ⟨next, -⟩ | ⟨next, -⟩
      all_goals
        rw [next] at after
        cases after
      cases closed
  | write io frame here =>
      -- the writer thread has left its loop before the writer is closed
      obtain ⟨⟨log, -, held⟩, -⟩ := shape.holding here
      obtain ⟨run', held⟩ := Option.isSome_iff_exists.mp held
      have running : s.stop = some call := by
        rcases writeHeld_cases held log io frame with ⟨-, next⟩ | ⟨-, next⟩
        all_goals
          rw [next] at after
          exact after
      rcases shape.exited_or_early running with exited | early | ⟨i, early⟩ | early
      · rw [here] at exited
        cases exited
      all_goals
        rw [early] at closed
        cases closed
  | advance io call' running move =>
      exact sealed.saved_stop shape sound running move allowed call after closed run writer
  | _ => exact keep rfl rfl

end Sealed

theorem savedInOrder_of_reach {p : Daemon config × FrameTrace config.maxPayloadBytes}
    (reached : (tracedDaemon config).Reach (fun p e => SavesSessions p.1 e) p) :
    FiledInOrder SavedAs List.Sublist p.1 p.2 := by
  refine (reached.invariant
    (I := fun p => (Shape p.1 ∧ Sound p.1) ∧ Sealed p.1 ∧ FiledInOrder SavedAs List.Sublist p.1 p.2)
    (fun p start => ?_) fun p e q kept moved allowed => ?_).2.2
  · cases start
    exact ⟨⟨.init, .init⟩, .init, .init (.refl _)⟩
  · obtain ⟨⟨shape, sound⟩, sealed, filed⟩ := kept
    obtain ⟨moved, noted⟩ := Machine.recording_eq_some moved
    have move := move_of_step moved
    rw [noted]
    exact ⟨⟨shape.step move, sound.step shape move allowed.toKeepsFrames⟩,
      sealed.step shape sound moved allowed,
        filed.step (fun _ _ writes saved => saved.withTexts writes)
          (fun _ _ more within => within.append_right more)
            (dropsUnfinished_sublist _) shape sealed.releasesFiled moved⟩

/-- No write of a frame or of a last manifest fails, and no chunk file is opened twice. -/
structure SavesAll (s : Daemon config) (e : Event) : Prop extends WritesOnce s e where
  manifest : s.manifestFails e = false

instance (s : Daemon config) (e : Event) : Decidable (SavesAll s e) :=
  decidable_of_iff (WritesOnce s e ∧ s.manifestFails e = false)
    ⟨fun h => ⟨h.1, h.2⟩, fun h => ⟨h.1, h.2⟩⟩

theorem SavesAll.savesSessions {s : Daemon config} {e : Event}
    (all : SavesAll s e) : SavesSessions s e :=
  { all.toWritesOnce.keepsFrames with manifest := all.manifest }

def Rested (s : Daemon config) : Prop :=
  s.stop = none → s.service.state ≠ .kRecording → s.writing = []

namespace Rested
variable {s s' : Daemon config}

theorem transfer (rested : Rested s) (stop : s'.stop = s.stop)
    (state : s'.service.state = s.service.state) (writer : s'.service.writer = s.service.writer) :
    Rested s' := by
  intro free idle
  rw [writing, writer]
  exact rested (stop.symm.trans free) fun recording => idle (state.trans recording)

theorem busy {call : StopCall config.maxPayloadBytes} (stop : s'.stop = some call) :
    Rested s' := fun free =>
  absurd (stop.symm.trans free) (Option.some_ne_none _)

theorem step (rested : Rested s) (shape : Shape s) {e : Event} (move : Move s e s')
    (once : WritesOnce s e) : Rested s' := by
  cases move with
  | count io frame here =>
      have same := RuntimeService.sameSession_countFrame frame.header s.service
      exact rested.transfer rfl (congrArg SessionManager.state same.sessions) same.writer
  | push io frame here buffer held =>
      obtain ⟨diagnostics, -, pushed⟩ := RuntimeService.pushFrame_some held frame
      rw [pushed]
      exact rested.transfer rfl rfl rfl
  | start io free pc same =>
      rcases s.startRecording_cases io with ⟨-, made⟩ | ⟨-, _, -, made⟩ |
          ⟨-, -, sessions, state, -, made⟩
      · rw [made]
        exact rested.transfer rfl rfl rfl
      · rw [made]
        exact fun _ _ => rfl
      · rw [made]
        exact fun _ idle => absurd state idle
  | stop free fromRx reason calls =>
      rcases s.stopRecording_cases fromRx reason with ⟨next, -⟩ | ⟨next, -⟩
      · rw [next]
        exact rested.transfer free.symm rfl rfl
      · rw [next]
        exact .busy rfl
  | write io frame here =>
      obtain ⟨⟨log, -, writer⟩, -⟩ := shape.holding here
      obtain ⟨run, held⟩ := Option.isSome_iff_exists.mp writer
      rcases writeHeld_cases held log io frame with ⟨-, next⟩ | ⟨fails, next⟩
      · rw [next]
        intro free idle
        -- between sessions the writer thread has no frame
        have resting := shape.resting free idle
        rw [here] at resting
        exact resting.elim
      · have written := once.writes
        rw [writeFails_eq (frameWrite_writer here io) held, fails] at written
        cases written
  | advance io call running move =>
      have phase := shape.busy call running
      cases move with
      | finish session counted here =>
          rw [here] at phase
          intro _ _
          show (s.service.writer.map WriterRun.written).getD [] = []
          rw [phase.2.2.1]
          rfl
      | write attempt frame here =>
          rw [here] at phase
          obtain ⟨-, ⟨log, -, writer⟩, -⟩ := phase
          obtain ⟨run, held⟩ := Option.isSome_iff_exists.mp writer
          rcases drainWrite_cases held log io.write call attempt frame with ⟨-, next⟩ | ⟨-, next⟩
          all_goals
            rw [next]
            exact .busy (goTo_stop ..)
      | _ => exact .busy (goTo_stop ..)
  | _ => exact rested.transfer rfl rfl rfl

theorem drops (rested : Rested s) : DropsUnfinished (· = ·) s := by
  intro free idle frames stored same
  rwa [rested free idle, List.append_nil] at same

end Rested

theorem savedWhole_of_reach {p : Daemon config × FrameTrace config.maxPayloadBytes}
    (reached : (tracedDaemon config).Reach (fun p e => SavesAll p.1 e) p) :
    Rested p.1 ∧ FiledInOrder SavedAs (· = ·) p.1 p.2 := by
  refine (reached.invariant
    (I := fun p => (Shape p.1 ∧ Sound p.1 ∧ Sealed p.1) ∧ Rested p.1 ∧
      FiledInOrder SavedAs (· = ·) p.1 p.2)
    (fun p start => ?_) fun p e q kept moved allowed => ?_).2
  · cases start
    exact ⟨⟨.init, .init, .init⟩, fun _ _ => rfl, .init rfl⟩
  · obtain ⟨⟨shape, sound, sealed⟩, rested, filed⟩ := kept
    obtain ⟨moved, noted⟩ := Machine.recording_eq_some moved
    have move := move_of_step moved
    rw [noted]
    exact ⟨⟨shape.step move, sound.step shape move allowed.savesSessions.toKeepsFrames,
      sealed.step shape sound moved allowed.savesSessions⟩,
        rested.step shape move allowed.toWritesOnce,
      filed.step (fun _ _ writes saved => saved.withTexts writes)
        (fun _ _ more same => congrArg (· ++ more) same) rested.drops shape
          sealed.releasesFiled moved⟩

end Daemon
end LocalPC.Runtime
