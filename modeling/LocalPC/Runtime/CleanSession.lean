import Mathlib.Algebra.Order.BigOperators.Group.List
import LocalPC.Runtime.Recording
import LocalPC.Runtime.SessionIntegrity

namespace LocalPC.Runtime
open Lib Contract

variable {m : UInt32}

def OwnNames (dir : Dir) : Prop :=
  ∀ name ∈ dir, name = indexName ∨ name = manifestName ∨
    ∃ id : UInt32, name = chunkFilename id.toNat

namespace OwnNames
variable {w : ChunkWriter}

theorem insert {dir : Dir} (own : OwnNames dir) {name : Bytes}
    (known : name = indexName ∨ name = manifestName ∨ ∃ id : UInt32, name = chunkFilename id.toNat)
    (bytes : Bytes) :
    OwnNames (AList.insert name bytes dir) := by
  intro other member
  rcases (AList.mem_insert _).mp member with rfl | old
  · exact known
  · exact own other old

theorem flush (own : OwnNames w.dir) (now : Int) : OwnNames (w.flush (.clean now)).dir := by
  have erased : OwnNames (w.dir.erase (tmpName manifestName)) :=
    fun name member => own name (AList.mem_erase.mp member).2
  exact erased.insert (Or.inr (Or.inl rfl)) _

theorem flushIfDue (own : OwnNames w.dir) (clock : WriteClock) :
    OwnNames (w.flushIfDue (.clean clock)).dir := by
  unfold ChunkWriter.flushIfDue
  split
  · exact own.flush clock.flushNow
  · exact own

theorem rotated (own : OwnNames w.dir) (clock : WriteClock) : OwnNames (w.rotated clock).dir := by
  unfold ChunkWriter.rotated
  split
  · exact (own.flush clock.rotateFlushNow).insert (Or.inr (Or.inr ⟨_, rfl⟩)) []
  · exact own

theorem place (own : OwnNames w.dir) (steady : Steady w) (frame : Bytes) :
    OwnNames (w.place frame).dir := by
  have chunk : ∃ id : UInt32, w.chunkStream.path = chunkFilename id.toNat :=
    ⟨w.currentChunkId, by rw [steady.stream]⟩
  exact (own.insert (Or.inr (Or.inr chunk)) _).insert (Or.inl rfl) _

theorem recording (config : RuntimeConfig) (now openNow : Int)
    (writes : List (WriteClock × ContractFrame m)) (closeNow : Int) :
    OwnNames (recording config now openNow writes closeNow).writer.dir := by
  have empty : OwnNames (∅ : Dir) := fun name member => absurd member (AList.notMem_empty name)
  have start : OwnNames (recordingStart config now openNow).writer.dir :=
    (empty.insert (Or.inr (Or.inr ⟨0, rfl⟩)) []).insert (Or.inl rfl) _
  have written : OwnNames
      (writes.foldl WriterRun.record (recordingStart config now openNow)).writer.dir := by
    refine recording_invariant
      (I := fun run => OwnNames run.writer.dir) start fun run write _ steady own => ?_
    rw [record_eq steady]
    exact ((own.rotated write.1).place (steady.rotated write.1) write.2.bytes).flushIfDue write.1
  exact written.flush closeNow

theorem noTmp {dir : Dir} (own : OwnNames dir) : ∀ name ∈ dir, extension name ≠ ascii ".tmp" := by
  intro name member
  rcases own name member with rfl | rfl | ⟨id, rfl⟩
  · decide
  · decide
  · rw [extension_chunkFilename]
    decide

theorem length_chunks_le {dir : Dir} (own : OwnNames dir) : dir.chunks.length ≤ 2 ^ 32 := by
  have distinct : ((dir.entries.filter fun e => isChunkFile e.1).map Sigma.fst).Nodup :=
    dir.nodupKeys.sublist List.filter_sublist
  have few (names : List Bytes) (nodup : names.Nodup) (count : Nat)
      (ids : ∀ name ∈ names, ∃ i < count, name = chunkFilename i) : names.length ≤ count := by
    have inside : names ⊆ (List.range count).map chunkFilename := by
      intro name member
      obtain ⟨i, bound, rfl⟩ := ids name member
      exact List.mem_map_of_mem (List.mem_range.mpr bound)
    have bound := (List.subperm_of_subset nodup inside).length_le
    rwa [List.length_map, List.length_range] at bound
  have bound := few _ distinct (2 ^ 32) fun name member => by
    obtain ⟨e, kept, rfl⟩ := List.mem_map.mp member
    obtain ⟨entry, chunk⟩ := List.mem_filter.mp kept
    rcases own e.1 (List.mem_keys_of_mem entry) with index | manifest | ⟨id, name⟩
    · rw [index] at chunk
      cases chunk.symm.trans isChunkFile_index
    · rw [manifest] at chunk
      cases chunk.symm.trans isChunkFile_manifest
    · exact ⟨id.toNat, id.toNat_lt, name⟩
  rw [List.length_map] at bound
  rwa [Dir.chunks, List.length_map]

end OwnNames

theorem nonemptyLines_indexed {run : WriterRun} (indexed : Indexed run) :
    nonemptyLines (run.writer.dir.content indexName) = run.written.length := by
  obtain ⟨lines, found, count, clean⟩ := indexed
  have kept : lines.filter (· ≠ []) = lines :=
    List.filter_eq_self.mpr fun line member => by simpa using (clean line member).2
  rw [Dir.content, found, Option.getD_some, nonemptyLines,
    getlines_lines fun line member => (clean line member).1, kept, count]

theorem accepts_of_history {logs : List ChunkLog} {run : WriterRun} (history : History logs run)
    (intact : Intact logs) (own : OwnNames run.writer.dir) (indexed : Indexed run)
    (manifest : manifestName ∈ run.writer.dir)
    (accepted : ∀ frame ∈ run.written, Accepted m frame) :
    Accepts run.writer.dir m := by
  have perm := history.1.files.chunks_perm
  have frames : ∀ log ∈ logs, ∀ frame ∈ log.frames, Accepted m frame := by
    intro log member frame inside
    refine accepted frame ?_
    rw [← history.2]
    exact List.mem_flatten.mpr ⟨log.frames, List.mem_map_of_mem member, inside⟩
  have leading : ∀ log ∈ logs, leadingFrames m log.data = log.frames := by
    intro log member
    rw [leadingFrames, ChunkLog.data, intact log member, List.append_nil]
    exact RecordFormat.records_of_flatten fun frame inside =>
      isRecord_iff.mpr (frames log member frame inside)
  refine ⟨own.noTmp, manifest, ?_, ?_, ?_⟩
  · obtain ⟨lines, found, -⟩ := indexed
    exact AList.lookup_isSome.mp (by simp [found])
  · intro bytes member nonempty
    obtain ⟨log, listed, rfl⟩ := List.mem_map.mp (perm.subset member)
    by_contra none
    rw [← leadingFrames_eq_nil_iff, leading log listed] at none
    rw [ChunkLog.data, none, intact log listed] at nonempty
    exact nonempty rfl
  · have counts : (logs.map ChunkLog.data).map (fun bytes => (leadingFrames m bytes).length) =
        (framesOf logs).map List.length := by
      rw [framesOf, List.map_map, List.map_map]
      exact List.map_congr_left fun log member => congrArg List.length (leading log member)
    rw [nonemptyLines_indexed indexed, (perm.map _).sum_eq, counts,
      ← List.length_flatten, history.2]

/-- A recording whose chunk ids do not wrap is accepted. -/
theorem recording_ok (config : RuntimeConfig) (now openNow : Int)
    (writes : List (WriteClock × ContractFrame m)) (closeNow : Int)
    (few : (recording config now openNow writes closeNow).writer.chunks.length ≤ 2 ^ 32) :
    (checkSessionIntegrity
      (some (recording config now openNow writes closeNow).writer.dir) m).result = .kOk := by
  obtain ⟨logs, history, intact⟩ := history_recording writes closeNow few
  have own := OwnNames.recording config now openNow writes closeNow
  have indexed := indexed_recording config now openNow writes closeNow
  have manifest : manifestName ∈ (recording config now openNow writes closeNow).writer.dir :=
    (AList.mem_insert _).mpr (Or.inl rfl)
  have accepted : ∀ frame ∈ (recording config now openNow writes closeNow).written,
      Accepted m frame := by
    rw [recording_written]
    intro frame member
    obtain ⟨write, -, rfl⟩ := List.mem_map.mp member
    exact write.2.accepted
  generalize recording config now openNow writes closeNow =
    run at history own indexed manifest accepted ⊢
  exact checkSessionIntegrity_ok_iff.mpr
    (accepts_of_history history intact own indexed manifest accepted)

theorem sampleRecording_ok : sampleRecording.writer.chunks.length = 2 ∧
    (checkSessionIntegrity (some sampleRecording.writer.dir) 65536).result = .kOk :=
  ⟨sampleRecording_chunks, recording_ok _ _ _ _ _ (sampleRecording_chunks.le.trans (by decide))⟩

theorem le_of_tinyRecording_ok {n : Nat}
    (ok : (checkSessionIntegrity (some (tinyRecording n).writer.dir) 65536).result = .kOk) :
    n ≤ 2 ^ 32 := by
  have counted := (checkSessionIntegrity_ok_iff.mp ok).counted
  have own : OwnNames (tinyRecording n).writer.dir := OwnNames.recording _ _ _ _ _
  have indexed : Indexed (tinyRecording n) := indexed_recording _ _ _ _ _
  rw [nonemptyLines_indexed indexed, tinyRecording_written, List.length_replicate] at counted
  have one : ∀ bytes ∈ (tinyRecording n).writer.dir.chunks,
      (leadingFrames 65536 bytes).length ≤ 1 := by
    intro bytes member
    obtain ⟨e, kept, rfl⟩ := List.mem_map.mp member
    obtain ⟨entry, chunk⟩ := List.mem_filter.mp kept
    have found := AList.mem_lookup_iff.mpr entry
    rcases own e.1 (List.mem_keys_of_mem entry) with index | manifest | ⟨id, name⟩
    · rw [index] at chunk
      cases chunk.symm.trans isChunkFile_index
    · rw [manifest] at chunk
      cases chunk.symm.trans isChunkFile_manifest
    · have size := tinyRecording_small n id
      rw [← name, Dir.content, found, Option.getD_some] at size
      have least : ∀ frame ∈ leadingFrames 65536 e.2, egoFrameHeaderSize ≤ frame.length :=
        fun frame listed =>
        (isRecord_iff.mp (RecordFormat.isRecord_of_mem_records e.2 frame listed)).long
      have split :=
        congrArg List.length (RecordFormat.records_flatten (F := contractFormat 65536) e.2)
      rw [List.length_append] at split
      have product := mul_length_le_flatten least
      unfold leadingFrames egoFrameHeaderSize at *
      omega
  have few := own.length_chunks_le
  have sum := List.sum_le_card_nsmul ((tinyRecording n).writer.dir.chunks.map fun bytes =>
    (leadingFrames 65536 bytes).length) 1 (by simpa using one)
  rw [List.length_map, nsmul_one] at sum
  exact counted.trans_le (sum.trans few)

theorem tinyRecording_not_ok :
    (checkSessionIntegrity (some (tinyRecording (2 ^ 32 + 1)).writer.dir) 65536).result ≠ .kOk :=
  fun ok =>
  absurd (le_of_tinyRecording_ok ok) (by decide)

end LocalPC.Runtime
