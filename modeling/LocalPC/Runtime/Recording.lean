import LocalPC.Runtime.ChunkWriterRuns

namespace LocalPC.Runtime
open Lib Contract

variable {m : UInt32}

def recordingStart (config : RuntimeConfig) (now openNow : Int) : WriterRun :=
  (WriterRun.fresh config now).step (.open (.clean openNow))

def WriterRun.record (run : WriterRun) (write : WriteClock × ContractFrame m) : WriterRun :=
  run.step (.write (.clean write.1) write.2.bytes)

/-- `Open`, one `WriteContractFrame` for each frame, and `Close`. -/
def recording (config : RuntimeConfig) (now openNow : Int)
    (writes : List (WriteClock × ContractFrame m)) (closeNow : Int) : WriterRun :=
  (writes.foldl WriterRun.record (recordingStart config now openNow)).step
    (.close (.clean closeNow))

namespace ChunkWriter

def nextChunk (clock : WriteClock) (w : ChunkWriter) : ChunkWriter :=
  { w.flush (.clean clock.rotateFlushNow) with
    chunkStream := ⟨chunkFilename (w.currentChunkId + 1).toNat, true, true⟩
    currentChunkId := w.currentChunkId + 1
    currentChunkOffset := 0
    currentChunkBytes := 0
    chunkOpenedAt := clock.reopenNow
    chunks := w.chunks ++ [{ filename := chunkFilename (w.currentChunkId + 1).toNat }]
    dir := (w.flush (.clean clock.rotateFlushNow)).dir.insert
      (chunkFilename (w.currentChunkId + 1).toNat) [] }

def rotated (clock : WriteClock) (w : ChunkWriter) : ChunkWriter :=
  if w.mustRotate clock.rotateNow then w.nextChunk clock else w

def place (frame : Bytes) (w : ChunkWriter) : ChunkWriter :=
  account frame
    { w with
      dir := (w.dir.append w.chunkStream.path frame).append indexName
        (indexLine w.currentChunkOffset
          (EgoFrameHeader.decode frame) w.currentChunkId.toNat ++ [newline]) }

end ChunkWriter

structure Steady (w : ChunkWriter) : Prop where
  stream : w.chunkStream = ⟨chunkFilename w.currentChunkId.toNat, true, true⟩
  index : w.indexStream = ⟨indexName, true, true⟩

namespace Steady
variable {w : ChunkWriter}

theorem rotated (steady : Steady w) (clock : WriteClock) : Steady (w.rotated clock) := by
  unfold ChunkWriter.rotated
  split
  · exact ⟨rfl, steady.index⟩
  · exact steady

theorem place (steady : Steady w) (frame : Bytes) : Steady (w.place frame) :=
  ⟨steady.stream, steady.index⟩

theorem flushIfDue (steady : Steady w) (io : WriteIo) : Steady (w.flushIfDue io) := by
  unfold ChunkWriter.flushIfDue
  split
  · exact ⟨steady.stream, steady.index⟩
  · exact steady

theorem rotateIfNeeded (steady : Steady w) (clock : WriteClock) :
    w.rotateIfNeeded (.clean clock) = (true, w.rotated clock) := by
  unfold ChunkWriter.rotateIfNeeded ChunkWriter.rotated
  simp only [steady.stream, Bool.not_true, Bool.false_eq_true, if_false, WriteIo.clean]
  by_cases rotate : w.mustRotate clock.rotateNow
  · simp only [rotate, not_true_eq_false, if_false, if_true]
    simp [ChunkWriter.openChunk, ChunkWriter.openIndex, OutStream.openFile,
      OutStream.close, OpenIo.clean, ChunkWriter.nextChunk, ChunkWriter.flush,
        ChunkWriter.updateManifest, steady.index]
  · simp only [rotate, not_false_eq_true, if_true, if_false]

theorem write (steady : Steady w) (clock : WriteClock) (frame : ContractFrame m) :
    w.writeContractFrame (.clean clock) frame.bytes =
      (true, ((w.rotated clock).place frame.bytes).flushIfDue (.clean clock)) := by
  obtain ⟨long, magic, -⟩ := accepted_iff.mp frame.accepted
  have next := steady.rotated clock
  unfold ChunkWriter.writeContractFrame
  rw [if_neg (not_lt.mpr long), steady.rotateIfNeeded]
  dsimp only [WriteIo.clean]
  generalize w.rotated clock = r at next
  have written : r.chunkStream.write .done frame.bytes r.dir =
      (r.chunkStream, r.dir.append r.chunkStream.path frame.bytes) :=
    OutStream.write_done (by rw [next.stream]) (by rw [next.stream]) ..
  have good : r.chunkStream.good = true := by rw [next.stream]
  rw [if_neg (not_not.mpr magic), written]
  simp only [good, Bool.not_true, Bool.false_eq_true, if_false]
  rw [ChunkWriter.appendContractIndex_done (by exact next.index)]
  rfl

end Steady

section Run
variable {config : RuntimeConfig} {now openNow : Int}

theorem record_eq {run : WriterRun} (steady : Steady run.writer)
    (write : WriteClock × ContractFrame m) :
    run.record write =
      ⟨run.written ++ [write.2.bytes],
        ((run.writer.rotated write.1).place write.2.bytes).flushIfDue (.clean write.1)⟩ := by
  rw [WriterRun.record, WriterRun.step]
  simp only [WriterCall.written, WriterCall.apply, steady.write, if_true]

theorem steady_start : Steady (recordingStart config now openNow).writer := ⟨rfl, rfl⟩

theorem Steady.record {run : WriterRun} (steady : Steady run.writer)
    (write : WriteClock × ContractFrame m) :
    Steady (run.record write).writer := by
  rw [record_eq steady]
  exact ((steady.rotated write.1).place write.2.bytes).flushIfDue _

theorem steady_foldl (writes : List (WriteClock × ContractFrame m)) :
    Steady (writes.foldl WriterRun.record (recordingStart config now openNow)).writer := by
  induction writes using List.reverseRecOn with
  | nil => exact steady_start
  | append_singleton writes write ih =>
      rw [List.foldl_append]
      exact ih.record write

theorem recording_invariant {I : WriterRun → Prop} (start : I (recordingStart config now openNow))
    {writes : List (WriteClock × ContractFrame m)}
    (kept : ∀ (run : WriterRun), ∀ write ∈ writes, Steady run.writer → I run →
      I (run.record write)) :
    I (writes.foldl WriterRun.record (recordingStart config now openNow)) := by
  induction writes using List.reverseRecOn with
  | nil => exact start
  | append_singleton writes write ih =>
      rw [List.foldl_append]
      exact kept _ write (by simp) (steady_foldl writes)
        (ih fun run earlier member => kept run earlier (List.mem_append_left _ member))

theorem written_foldl (writes : List (WriteClock × ContractFrame m)) :
    (writes.foldl WriterRun.record (recordingStart config now openNow)).written =
      writes.map fun write => write.2.bytes := by
  induction writes using List.reverseRecOn with
  | nil => rfl
  | append_singleton writes write ih =>
      rw [List.foldl_append, List.foldl_cons, List.foldl_nil,
        record_eq (steady_foldl writes), ih, List.map_append, List.map_singleton]

theorem recording_written (writes : List (WriteClock × ContractFrame m)) (closeNow : Int) :
    (recording config now openNow writes closeNow).written =
      writes.map fun write => write.2.bytes := by
  rw [recording, WriterRun.step, written_foldl]
  exact List.append_nil _

/-- `segments` are the frames of the chunk files of a run. -/
structure WrittenTo (segments : List (List Bytes)) (run : WriterRun) : Prop where
  frames : segments.flatten = run.written
  count : segments.length = run.writer.chunks.length
  files : ∀ (i : Nat) frames, segments[i]? = some frames →
    run.writer.dir.lookup (chunkFilename i) = some frames.flatten

theorem writtenTo_history {logs : List ChunkLog} {run : WriterRun} (history : History logs run)
    (intact : Intact logs) : WrittenTo (framesOf logs) run where
  frames := history.2
  count := by rw [history.1.chunks, List.length_mapIdx, framesOf, List.length_map]
  files i frames found := by
    rw [framesOf, List.getElem?_map] at found
    obtain ⟨log, chunk, rfl⟩ := Option.map_eq_some_iff.mp found
    rw [history.1.files.chunk i log chunk, ChunkLog.data,
      intact log (List.mem_of_getElem? chunk), List.append_nil]

theorem length_names (w : ChunkWriter) : w.names.length = w.chunks.length := List.length_map ..

theorem history_start : ∃ logs, History logs (recordingStart config now openNow) ∧ Intact logs := by
  have healthy : (WriterCall.open (.clean openNow)).IndexHealthy := rfl
  have fresh : ¬ (WriterCall.open (.clean openNow)).Reopens
      (WriterRun.fresh config now).writer := by
    simp [WriterCall.Reopens, ChunkWriter.Lists, WriterRun.fresh, ChunkWriter.create]
  obtain ⟨logs, history, intact⟩ := (History.fresh config now).step healthy fresh
  exact ⟨logs, history, intact trivial (by simp [Intact])⟩

theorem length_chunks_step (run : WriterRun) (call : WriterCall) :
    (run.step call).writer.chunks.length =
      run.writer.chunks.length + (call.opened run.writer).length := by
  have names := congrArg List.length (call.names_apply run.writer)
  rw [List.length_append, length_names, length_names, List.length_map] at names
  exact names

theorem not_reopens {logs : List ChunkLog} {run : WriterRun} (history : History logs run)
    (steady : Steady run.writer) (write : WriteClock × ContractFrame m)
    (few : (run.record write).writer.chunks.length ≤ 2 ^ 32) :
    ¬ (WriterCall.write (.clean write.1) write.2.bytes).Reopens run.writer := by
  rintro ⟨id, opened, listed⟩
  have recorded := history.1
  have one : 0 < ((WriterCall.write (.clean write.1) write.2.bytes).opened run.writer).length :=
    List.length_pos_of_mem opened
  rw [WriterRun.record, length_chunks_step, recorded.chunks, List.length_mapIdx] at few
  have next : id = run.writer.currentChunkId + 1 := by
    simp only [WriterCall.opened, ChunkWriter.opensId, steady.stream] at opened
    split at opened
    · split at opened
      · rename_i closed
        cases closed
      · split at opened
        · exact List.mem_singleton.mp opened
        · cases opened
    · cases opened
  rcases recorded.position with ⟨older, last, rfl, here⟩ | ⟨closed, -⟩
  · have bound := (recorded.lists_iff id).mp listed
    rw [next, UInt32.toNat_add, here.id] at bound
    simp only [List.length_append, List.length_singleton, UInt32.reduceToNat] at bound few
    omega
  · rw [steady.stream] at closed
    cases closed

theorem history_foldl (writes : List (WriteClock × ContractFrame m))
    (few : (writes.foldl WriterRun.record
      (recordingStart config now openNow)).writer.chunks.length ≤ 2 ^ 32) :
    ∃ logs, History logs (writes.foldl WriterRun.record (recordingStart config now openNow)) ∧
      Intact logs := by
  refine recording_invariant (I := fun run => run.writer.chunks.length ≤ 2 ^ 32 →
    ∃ logs, History logs run ∧ Intact logs) (fun _ => history_start) ?_ few
  intro run write _ steady ih few
  have before : run.writer.chunks.length ≤ 2 ^ 32 :=
    (Nat.le.intro (length_chunks_step run _).symm).trans few
  obtain ⟨logs, history, whole⟩ := ih before
  have healthy : (WriterCall.write (.clean write.1) write.2.bytes).IndexHealthy := ⟨rfl, rfl⟩
  obtain ⟨logs', next, intact⟩ := history.step healthy (not_reopens history steady write few)
  exact ⟨logs', next, intact rfl whole⟩

theorem length_chunks_foldl_le (config : RuntimeConfig) (now openNow : Int)
    (writes : List (WriteClock × ContractFrame m)) :
    (writes.foldl WriterRun.record (recordingStart config now openNow)).writer.chunks.length ≤
      writes.length + 1 := by
  induction writes using List.reverseRecOn with
  | nil => exact le_rfl
  | append_singleton writes write ih =>
      have one : ((WriterCall.write (.clean write.1) write.2.bytes).opened
          (writes.foldl WriterRun.record (recordingStart config now openNow)).writer).length ≤
            1 := by
        rw [WriterCall.opened]
        split
        · exact Option.length_toList_le
        · exact Nat.zero_le 1
      rw [List.foldl_append, List.foldl_cons, List.foldl_nil, WriterRun.record,
        length_chunks_step, List.length_append, List.length_singleton]
      omega

theorem length_chunks_recording_le (config : RuntimeConfig) (now openNow : Int)
    (writes : List (WriteClock × ContractFrame m)) (closeNow : Int) :
    (recording config now openNow writes closeNow).writer.chunks.length ≤ writes.length + 1 :=
  length_chunks_foldl_le config now openNow writes

theorem history_recording (writes : List (WriteClock × ContractFrame m)) (closeNow : Int)
    (few : (recording config now openNow writes closeNow).writer.chunks.length ≤ 2 ^ 32) :
    ∃ logs, History logs (recording config now openNow writes closeNow) ∧ Intact logs := by
  have healthy : (WriterCall.close (.clean closeNow)).IndexHealthy := trivial
  obtain ⟨logs, history, whole⟩ := history_foldl writes few
  obtain ⟨logs', next, intact⟩ :=
    history.step healthy (by simp [WriterCall.Reopens, WriterCall.opened])
  exact ⟨logs', next, intact trivial whole⟩

end Run

section Files
variable {w : ChunkWriter}

theorem lookup_flush (io : FlushIo) {name : Bytes} (notManifest : name ≠ manifestName)
    (notTmp : name ≠ tmpName manifestName) : (w.flush io).dir.lookup name = w.dir.lookup name :=
  lookup_writeTextAtomic _ _ _ _ notManifest notTmp

theorem lookup_flushIfDue (io : WriteIo) {name : Bytes} (notManifest : name ≠ manifestName)
    (notTmp : name ≠ tmpName manifestName) :
    (w.flushIfDue io).dir.lookup name = w.dir.lookup name := by
  unfold ChunkWriter.flushIfDue
  split
  · exact lookup_flush _ notManifest notTmp
  · rfl

theorem index_ne_manifest : indexName ≠ manifestName := by decide

theorem index_ne_tmp : indexName ≠ tmpName manifestName := by decide

theorem lookup_rotated_index (clock : WriteClock) :
    (w.rotated clock).dir.lookup indexName = w.dir.lookup indexName := by
  unfold ChunkWriter.rotated
  split
  · exact (AList.lookup_insert_ne (Files.chunk_ne_index _).symm).trans
      (lookup_flush _ index_ne_manifest index_ne_tmp)
  · rfl

def Indexed (run : WriterRun) : Prop :=
  ∃ lines : List Bytes,
    run.writer.dir.lookup indexName = some (lines.flatMap fun line => line ++ [newline]) ∧
    lines.length = run.written.length ∧ ∀ line ∈ lines, newline ∉ line ∧ line ≠ []

theorem indexLine_ne_nil (offset : Nat) (header : EgoFrameHeader) (chunkId : Nat) :
    indexLine offset header chunkId ≠ [] := by
  simp [indexLine, decimal_ne_nil]

theorem Indexed.record {run : WriterRun} (steady : Steady run.writer) (indexed : Indexed run)
    (write : WriteClock × ContractFrame m) : Indexed (run.record write) := by
  obtain ⟨lines, content, count, clean⟩ := indexed
  rw [record_eq steady]
  let r := run.writer.rotated write.1
  let line := indexLine r.currentChunkOffset
    (EgoFrameHeader.decode write.2.bytes) r.currentChunkId.toNat
  refine ⟨lines ++ [line], ?_, by simp [count], ?_⟩
  · have chunk : indexName ≠ r.chunkStream.path := by
      rw [(steady.rotated write.1).stream]
      exact (Files.chunk_ne_index _).symm
    have old : Dir.content (r.dir.append r.chunkStream.path write.2.bytes) indexName =
        lines.flatMap fun line => line ++ [newline] := by
      rw [Dir.append, Dir.content_insert_ne _ chunk, Dir.content, lookup_rotated_index,
        content, Option.getD_some]
    rw [lookup_flushIfDue _ index_ne_manifest index_ne_tmp]
    refine (AList.lookup_insert _).trans ?_
    rw [old, List.flatMap_append, List.flatMap_singleton]
  · intro line member
    rcases List.mem_append.mp member with old | new
    · exact clean line old
    · rw [List.mem_singleton.mp new]
      exact ⟨indexLine_clean _ _ _, indexLine_ne_nil _ _ _⟩

theorem indexed_recording (config : RuntimeConfig) (now openNow : Int)
    (writes : List (WriteClock × ContractFrame m)) (closeNow : Int) :
    Indexed (recording config now openNow writes closeNow) := by
  have start : Indexed (recordingStart config now openNow) := ⟨[], rfl, rfl, by simp⟩
  obtain ⟨lines, content, count, clean⟩ :=
    recording_invariant start fun run write _ steady indexed => indexed.record steady write
  refine ⟨lines, ?_, ?_, clean⟩
  · exact (lookup_flush _ index_ne_manifest index_ne_tmp).trans content
  · rw [count, recording_written, written_foldl]

/-- No chunk file reaches `limit + frameSize` bytes, and the counter is that of the current one. -/
structure SmallFiles (limit frameSize : Nat) (w : ChunkWriter) : Prop where
  config : w.config.chunkMaxBytes.toNat = limit
  current : w.currentChunkBytes = (w.dir.content (chunkFilename w.currentChunkId.toNat)).length
  small : ∀ id : UInt32, (w.dir.content (chunkFilename id.toNat)).length < limit + frameSize

theorem content_flush_chunk (io : FlushIo) (id : Nat) :
    (w.flush io).dir.content (chunkFilename id) = w.dir.content (chunkFilename id) :=
  congrArg (Option.getD · []) (lookup_flush io (Files.chunk_ne_manifest id) (Files.chunk_ne_tmp id))

namespace SmallFiles
variable {limit frameSize : Nat}

theorem flush (small : SmallFiles limit frameSize w) (io : FlushIo) :
    SmallFiles limit frameSize (w.flush io) where
  config := small.config
  current := small.current.trans (congrArg List.length (content_flush_chunk io _).symm)
  small id := by
    rw [content_flush_chunk]
    exact small.small id

theorem flushIfDue (small : SmallFiles limit frameSize w) (io : WriteIo) :
    SmallFiles limit frameSize (w.flushIfDue io) := by
  unfold ChunkWriter.flushIfDue
  split
  · exact small.flush _
  · exact small

theorem rotated (small : SmallFiles limit frameSize w) (positive : 0 < limit) (clock : WriteClock) :
    SmallFiles limit frameSize (w.rotated clock) ∧ (w.rotated clock).currentChunkBytes < limit := by
  unfold ChunkWriter.rotated
  split
  · have flushed := small.flush (.clean clock.rotateFlushNow)
    have fresh : (w.nextChunk clock).dir.content
        (chunkFilename (w.currentChunkId + 1).toNat) = [] :=
      Dir.content_insert ..
    refine ⟨⟨flushed.config, (congrArg List.length fresh).symm, fun id => ?_⟩, positive⟩
    by_cases here : id = w.currentChunkId + 1
    · rw [here, fresh]
      exact Nat.lt_of_lt_of_le positive (Nat.le_add_right ..)
    · have other : chunkFilename id.toNat ≠ chunkFilename (w.currentChunkId + 1).toNat :=
        fun same =>
        here (UInt32.toNat_inj.mp (chunkFilename_injective same))
      exact (congrArg List.length (Dir.content_insert_ne _ other _)).trans_lt (flushed.small id)
  · rename_i room
    refine ⟨small, ?_⟩
    rw [← small.config]
    exact not_le.mp fun full => room (Or.inl full)

theorem place (small : SmallFiles limit frameSize w) (steady : Steady w)
    (room : w.currentChunkBytes < limit) {frame : Bytes} (size : frame.length ≤ frameSize) :
    SmallFiles limit frameSize (w.place frame) := by
  have content (id : UInt32) : (w.place frame).dir.content (chunkFilename id.toNat) =
      if id = w.currentChunkId then w.dir.content (chunkFilename id.toNat) ++ frame
      else w.dir.content (chunkFilename id.toNat) := by
    refine (Dir.content_insert_ne _ (Files.chunk_ne_index _) _).trans ?_
    rw [steady.stream]
    split
    · rename_i here
      rw [here, Dir.append, Dir.content_insert]
    · rename_i elsewhere
      exact Dir.content_insert_ne _
        (fun same => elsewhere (UInt32.toNat_inj.mp (chunkFilename_injective same))) _
  refine ⟨small.config, ?_, fun id => ?_⟩
  · have here := content w.currentChunkId
    rw [if_pos rfl] at here
    refine Eq.trans ?_ (congrArg List.length here).symm
    rw [List.length_append, ← small.current]
    rfl
  · rw [content id]
    split
    · rename_i here
      rw [here, List.length_append, ← small.current]
      omega
    · exact small.small id

end SmallFiles

theorem smallFiles_recording (config : RuntimeConfig) (now openNow : Int)
    {writes : List (WriteClock × ContractFrame m)} (closeNow : Int)
    (positive : 0 < config.chunkMaxBytes.toNat) {frameSize : Nat}
    (size : ∀ write ∈ writes, write.2.bytes.length ≤ frameSize) :
    SmallFiles config.chunkMaxBytes.toNat frameSize
      (recording config now openNow writes closeNow).writer := by
  have start : SmallFiles config.chunkMaxBytes.toNat frameSize
      (recordingStart config now openNow).writer := by
    refine ⟨rfl, rfl, fun id => ?_⟩
    have empty : (recordingStart config now openNow).writer.dir.content
        (chunkFilename id.toNat) = [] := by
      refine (Dir.content_insert_ne _ (Files.chunk_ne_index _) _).trans ?_
      by_cases first : id = 0
      · rw [first]
        exact Dir.content_insert ..
      · exact Dir.content_insert_ne _
          (fun same => first (UInt32.toNat_inj.mp (chunkFilename_injective same))) _
    rw [empty]
    exact Nat.lt_of_lt_of_le positive (Nat.le_add_right ..)
  have written : SmallFiles config.chunkMaxBytes.toNat frameSize
      (writes.foldl WriterRun.record (recordingStart config now openNow)).writer := by
    refine recording_invariant
      (I := fun run => SmallFiles config.chunkMaxBytes.toNat frameSize run.writer) start ?_
    intro run write member steady small
    rw [record_eq steady]
    obtain ⟨rotated, room⟩ := small.rotated positive write.1
    exact (rotated.place (steady.rotated _) room (size write member)).flushIfDue _
  exact { written.flush (.clean closeNow) with }

end Files

def tinyFrame : ContractFrame 65536 :=
  ⟨sealFrame 100 7 10 11 [], sealFrame_accepted _ _ _ _ (Nat.zero_le _)⟩

/-- With chunks of at most one byte, every frame gets a chunk of its own. -/
def tinyRecording (n : Nat) : WriterRun :=
  recording { chunkMaxBytes := 1 } 0 0 (List.replicate n ({}, tinyFrame)) 0

theorem length_tinyFrame : tinyFrame.bytes.length = egoFrameHeaderSize := by
  simp [tinyFrame, sealFrame]

theorem tinyRecording_written (n : Nat) :
    (tinyRecording n).written = List.replicate n tinyFrame.bytes := by
  rw [tinyRecording, recording_written, List.map_replicate]

theorem tinyRecording_small (n : Nat) (id : UInt32) :
    ((tinyRecording n).writer.dir.content (chunkFilename id.toNat)).length ≤
      egoFrameHeaderSize := by
  have size : ∀ write ∈ List.replicate n (({} : WriteClock), tinyFrame),
      write.2.bytes.length ≤ egoFrameHeaderSize := by
    intro write member
    rw [List.eq_of_mem_replicate member]
    exact length_tinyFrame.le
  have small := (smallFiles_recording { chunkMaxBytes := 1 } 0 0 0 (by decide) size).small id
  have limit : ({ chunkMaxBytes := 1 } : RuntimeConfig).chunkMaxBytes.toNat = 1 := rfl
  rw [limit] at small
  exact Nat.lt_succ_iff.mp (by rwa [Nat.add_comm] at small)

theorem tinyRecording_chunks_le (n : Nat) : (tinyRecording n).writer.chunks.length ≤ n + 1 := by
  have bound := length_chunks_recording_le { chunkMaxBytes := 1 } 0 0
    (List.replicate n (({} : WriteClock), tinyFrame)) 0
  rwa [List.length_replicate] at bound

def sampleWrites : List (WriteClock × ContractFrame 65536) :=
  [({}, sampleFrame 1 1000000000), ({}, sampleFrame 2 13000000000),
    ({}, sampleFrame 20 14000000000), ({}, sampleFrame 21 30000000000)]

def sampleRecording : WriterRun := recording sampleConfig 0 0 sampleWrites 0

theorem sampleRecording_chunks : sampleRecording.writer.chunks.length = 2 := by decide +kernel

end LocalPC.Runtime
