import LocalPC.Lib.SegmentedLog
import LocalPC.Runtime.ChunkWriter

namespace LocalPC.Runtime
open Lib Contract

structure ChunkLog where
  frames : List Bytes
  torn : Bytes := []

namespace ChunkLog

abbrev empty : ChunkLog := ⟨[], []⟩

def data (log : ChunkLog) : Bytes := log.frames.flatten ++ log.torn

def info (i : Nat) (log : ChunkLog) : ChunkInfo :=
  log.frames.foldl (fun c frame => c.add frame) { filename := chunkFilename i }

def addFrame (log : ChunkLog) (frame : Bytes) : ChunkLog :=
  { log with frames := log.frames ++ [frame] }

def tear (log : ChunkLog) (bytes : Bytes) : ChunkLog := { log with torn := log.torn ++ bytes }

@[simp] theorem data_empty : empty.data = [] := rfl

theorem data_addFrame {log : ChunkLog} (intact : log.torn = []) (frame : Bytes) :
    (log.addFrame frame).data = log.data ++ frame := by
  simp [data, addFrame, intact]

theorem data_tear (log : ChunkLog) (bytes : Bytes) : (log.tear bytes).data = log.data ++ bytes := by
  simp [data, tear]

theorem info_addFrame (i : Nat) (log : ChunkLog) (frame : Bytes) :
    (log.addFrame frame).info i = (log.info i).add frame := by
  simp [info, addFrame]

@[simp] theorem info_tear (i : Nat) (log : ChunkLog) (bytes : Bytes) :
    (log.tear bytes).info i = log.info i := rfl

private theorem info_fold (frames : List Bytes) (c : ChunkInfo) :
    (frames.foldl (fun c frame => c.add frame) c).filename = c.filename ∧
    (frames.foldl (fun c frame => c.add frame) c).bytes = c.bytes + frames.flatten.length ∧
    (frames.foldl (fun c frame => c.add frame) c).packetCount =
      c.packetCount + UInt32.ofNat frames.length := by
  induction frames generalizing c with
  | nil => simp
  | cons frame frames ih =>
      obtain ⟨name, bytes, count⟩ := ih (c.add frame)
      simp only [List.foldl_cons, name, bytes, count]
      refine ⟨rfl, by simp [ChunkInfo.add, Nat.add_assoc], ?_⟩
      rw [ChunkInfo.add, List.length_cons, Nat.add_comm frames.length 1, UInt32.ofNat_add]
      exact UInt32.add_assoc ..

theorem info_filename (i : Nat) (log : ChunkLog) : (log.info i).filename = chunkFilename i :=
  (info_fold log.frames _).1

theorem info_bytes (i : Nat) (log : ChunkLog) : (log.info i).bytes = log.frames.flatten.length := by
  rw [info, (info_fold log.frames _).2.1, Nat.zero_add]

theorem info_packetCount (i : Nat) (log : ChunkLog) :
    (log.info i).packetCount = UInt32.ofNat log.frames.length := by
  rw [info, (info_fold log.frames _).2.2, UInt32.zero_add]

end ChunkLog

def placementLine (p : Placement UInt8) : Bytes :=
  indexLine p.offset (EgoFrameHeader.decode p.record) p.segment

def framesOf (logs : List ChunkLog) : List (List Bytes) := logs.map ChunkLog.frames

def placementsOf (logs : List ChunkLog) : List (Placement UInt8) :=
  SegmentedLog.placements (framesOf logs)

def indexText (logs : List ChunkLog) : Bytes :=
  (placementsOf logs).flatMap fun p => placementLine p ++ [newline]

theorem indexText_newChunk (logs : List ChunkLog) :
    indexText (logs ++ [.empty]) = indexText logs := by
  simp [indexText, placementsOf, framesOf, SegmentedLog.placements_newSegment]

theorem placementsOf_addFrame (older : List ChunkLog) (last : ChunkLog) (frame : Bytes) :
    placementsOf (older ++ [last.addFrame frame]) =
      placementsOf (older ++ [last]) ++ [⟨older.length, last.frames.flatten.length, frame⟩] := by
  simp [placementsOf, framesOf, ChunkLog.addFrame, SegmentedLog.placements_append]

theorem indexText_addFrame (older : List ChunkLog) (last : ChunkLog) (frame : Bytes) :
    indexText (older ++ [last.addFrame frame]) = indexText (older ++ [last]) ++
      (indexLine last.frames.flatten.length
        (EgoFrameHeader.decode frame) older.length ++ [newline]) := by
  simp [indexText, placementsOf_addFrame, placementLine]

theorem indexText_tear (older : List ChunkLog) (last : ChunkLog) (bytes : Bytes) :
    indexText (older ++ [last.tear bytes]) = indexText (older ++ [last]) := by
  simp [indexText, placementsOf, framesOf, ChunkLog.tear]

structure Files (logs : List ChunkLog) (dir : Dir) : Prop where
  chunk : ∀ i log, logs[i]? = some log → dir.lookup (chunkFilename i) = some log.data
  index : dir.content indexName = indexText logs
  names : ∀ name ∈ dir, name = indexName ∨ name = manifestName ∨ name = tmpName manifestName ∨
    ∃ i < logs.length, name = chunkFilename i

namespace Files

theorem chunk_ne_index (i : Nat) : chunkFilename i ≠ indexName :=
  ne_of_isChunkFile (isChunkFile_chunkFilename i) isChunkFile_index

theorem chunk_ne_manifest (i : Nat) : chunkFilename i ≠ manifestName :=
  ne_of_isChunkFile (isChunkFile_chunkFilename i) isChunkFile_manifest

theorem chunk_ne_tmp (i : Nat) : chunkFilename i ≠ tmpName manifestName :=
  ne_of_isChunkFile (isChunkFile_chunkFilename i) (by decide)

theorem empty : Files [] (∅ : Dir) where
  chunk := by simp
  index := by decide
  names := by simp

variable {logs : List ChunkLog} {dir : Dir}

theorem manifest (files : Files logs dir) (outcome : TextWrite) (text : Bytes) :
    Files logs (writeTextAtomic outcome manifestName text dir).2 where
  chunk i log found := by
    rw [lookup_writeTextAtomic _ _ _ _ (chunk_ne_manifest i) (chunk_ne_tmp i)]
    exact files.chunk i log found
  index := by
    rw [Dir.content, lookup_writeTextAtomic _ _ _ _ (by decide) (by decide)]
    exact files.index
  names name member := by
    rcases mem_writeTextAtomic member with same | same | old
    · exact Or.inr (Or.inl same)
    · exact Or.inr (Or.inr (Or.inl same))
    · exact files.names name old

theorem openIndex (files : Files logs dir) :
    Files logs (dir.insert indexName (dir.content indexName)) where
  chunk i log found := by
    rw [AList.lookup_insert_ne (chunk_ne_index i)]
    exact files.chunk i log found
  index := by rw [Dir.content_insert, files.index]
  names name member := by
    rcases (AList.mem_insert _).mp member with same | old
    · exact Or.inl same
    · exact files.names name old

theorem newChunk (files : Files logs dir) :
    Files (logs ++ [.empty]) (dir.insert (chunkFilename logs.length) []) where
  chunk i log found := by
    by_cases last : i = logs.length
    · subst last
      rw [List.getElem?_concat_length] at found
      cases found
      exact AList.lookup_insert _
    · have short : i < logs.length := by
        have bound := (List.getElem?_eq_some_iff.mp found).1
        simp only [List.length_append, List.length_singleton] at bound
        omega
      rw [List.getElem?_append_left short] at found
      rw [AList.lookup_insert_ne (fun same => last (chunkFilename_injective same))]
      exact files.chunk i log found
  index := by
    rw [Dir.content_insert_ne _ (chunk_ne_index _).symm, files.index, indexText_newChunk]
  names name member := by
    rcases (AList.mem_insert _).mp member with same | old
    · exact Or.inr (Or.inr (Or.inr ⟨logs.length, by simp, same⟩))
    · have known := files.names name old
      simp only [List.length_append, List.length_singleton]
      rcases known with h | h | h | ⟨i, bound, h⟩
      · exact Or.inl h
      · exact Or.inr (Or.inl h)
      · exact Or.inr (Or.inr (Or.inl h))
      · exact Or.inr (Or.inr (Or.inr ⟨i, by omega, h⟩))

theorem append {older : List ChunkLog} {last changed : ChunkLog} {bytes : Bytes}
    (files : Files (older ++ [last]) dir) (data : changed.data = last.data ++ bytes) :
    (∀ i log, (older ++ [changed])[i]? = some log →
      (dir.append (chunkFilename older.length) bytes).lookup (chunkFilename i) = some log.data) ∧
    (dir.append (chunkFilename older.length) bytes).content indexName = dir.content indexName ∧
    ∀ name ∈ dir.append (chunkFilename older.length) bytes, name = indexName ∨ name = manifestName ∨
      name = tmpName manifestName ∨ ∃ i < (older ++ [changed]).length, name = chunkFilename i := by
  have current := files.chunk older.length last (by simp)
  have length : (older ++ [changed]).length = (older ++ [last]).length := by simp
  refine ⟨fun i log found => ?_, ?_, fun name member => ?_⟩
  · unfold Dir.append
    by_cases here : i = older.length
    · subst here
      rw [List.getElem?_concat_length] at found
      cases found
      rw [AList.lookup_insert, Dir.content, current, Option.getD_some, data]
    · rw [AList.lookup_insert_ne (fun same => here (chunkFilename_injective same))]
      have short : i < older.length := by
        have bound := (List.getElem?_eq_some_iff.mp found).1
        simp only [List.length_append, List.length_singleton] at bound
        omega
      rw [List.getElem?_append_left short] at found
      exact files.chunk i log (by rw [List.getElem?_append_left short, found])
  · exact Dir.content_insert_ne _ (chunk_ne_index _).symm _
  · rw [length]
    rcases (AList.mem_insert _).mp member with same | old
    · exact Or.inr (Or.inr (Or.inr ⟨older.length, by simp, same⟩))
    · exact files.names name old

theorem tear {older : List ChunkLog} {last : ChunkLog}
    (files : Files (older ++ [last]) dir) (bytes : Bytes) :
    Files (older ++ [last.tear bytes]) (dir.append (chunkFilename older.length) bytes) := by
  obtain ⟨chunk, index, names⟩ := files.append (last.data_tear bytes)
  exact ⟨chunk, by rw [index, files.index, indexText_tear], names⟩

theorem addFrame {older : List ChunkLog} {last : ChunkLog} (files : Files (older ++ [last]) dir)
    (intact : last.torn = []) (frame : Bytes) :
    Files (older ++ [last.addFrame frame])
      ((dir.append (chunkFilename older.length) frame).append indexName
        (indexLine last.frames.flatten.length
          (EgoFrameHeader.decode frame) older.length ++ [newline])) := by
  obtain ⟨chunk, index, names⟩ := files.append (ChunkLog.data_addFrame intact frame)
  refine ⟨fun i log found => ?_, ?_, fun name member => ?_⟩
  · rw [Dir.append, AList.lookup_insert_ne (chunk_ne_index i)]
    exact chunk i log found
  · rw [Dir.append, Dir.content_insert, index, files.index, indexText_addFrame]
  · rcases (AList.mem_insert _).mp member with same | old
    · exact Or.inl same
    · exact names name old

theorem chunks_perm (files : Files logs dir) : dir.chunks.Perm (logs.map ChunkLog.data) := by
  refine dir.chunks_numbered (fun i bytes found => ?_) fun name member chunk => ?_
  · rw [List.getElem?_map] at found
    obtain ⟨log, inside, rfl⟩ := Option.map_eq_some_iff.mp found
    exact files.chunk i log inside
  · rw [List.length_map]
    rcases files.names name member with rfl | rfl | rfl | numbered
    · cases chunk.symm.trans isChunkFile_index
    · cases chunk.symm.trans isChunkFile_manifest
    · exact absurd chunk (by decide)
    · exact numbered

end Files

end LocalPC.Runtime
