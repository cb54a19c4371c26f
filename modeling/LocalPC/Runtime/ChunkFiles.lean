import LocalPC.Runtime.ChunkNumbers
import LocalPC.Runtime.Recording

namespace LocalPC.Runtime
open Lib Contract

def SameChunks (dir dir' : Dir) : Prop :=
  ∀ name, isChunkFile name = true → dir'.lookup name = dir.lookup name

namespace SameChunks

theorem insert (dir : Dir) {name : Bytes} (other : isChunkFile name = false) (bytes : Bytes) :
    SameChunks dir (dir.insert name bytes) :=
  fun _ chunk => AList.lookup_insert_ne (ne_of_isChunkFile chunk other)

theorem flush (io : FlushIo) (w : ChunkWriter) : SameChunks w.dir (w.flush io).dir :=
  fun _ chunk => lookup_flush io (ne_of_isChunkFile chunk isChunkFile_manifest)
    (ne_of_isChunkFile chunk (by decide))

theorem openIndex (opens : Bool) (w : ChunkWriter) : SameChunks w.dir (w.openIndex opens).dir := by
  unfold ChunkWriter.openIndex
  split
  · exact fun _ _ => rfl
  · dsimp only
    split
    · exact insert w.dir isChunkFile_index _
    · exact fun _ _ => rfl

theorem write (outcome : StreamWrite) (bytes : Bytes) (s : OutStream) (dir : Dir)
    (other : isChunkFile s.path = false) :
    SameChunks dir (s.write outcome bytes dir).2 := by
  unfold OutStream.write
  split
  · cases outcome with
    | done => exact insert dir other _
    | failed written => exact insert dir other _
  · exact fun _ _ => rfl

end SameChunks

/-- The chunk files of a directory are those of `segments`, in the order of their ids. -/
structure ChunksOf (segments : List (List Bytes)) (dir : Dir) : Prop where
  file : ∀ (i : Nat) frames, segments[i]? = some frames →
    dir.lookup (chunkFilename i) = some frames.flatten
  only : ∀ name ∈ dir, isChunkFile name = true → ∃ i < segments.length, name = chunkFilename i

namespace ChunksOf
variable {segments : List (List Bytes)} {dir dir' : Dir}

theorem transfer (files : ChunksOf segments dir) (same : SameChunks dir dir') :
    ChunksOf segments dir' where
  file i frames found := (same _ (isChunkFile_chunkFilename i)).trans (files.file i frames found)
  only name member chunk := by
    refine files.only name ?_ chunk
    rw [← AList.lookup_isSome] at member ⊢
    rwa [← same name chunk]

theorem newChunk (files : ChunksOf segments dir) :
    ChunksOf (segments ++ [[]]) (dir.insert (chunkFilename segments.length) []) where
  file i frames found := by
    by_cases last : i = segments.length
    · subst last
      rw [List.getElem?_concat_length] at found
      cases found
      exact AList.lookup_insert _
    · rw [AList.lookup_insert_ne (fun same => last (chunkFilename_injective same))]
      rw [List.getElem?_append] at found
      split at found
      · exact files.file i frames found
      · rename_i beyond
        have bound := (List.getElem?_eq_some_iff.mp found).1
        rw [List.length_singleton] at bound
        omega
  only name member chunk := by
    rw [List.length_append, List.length_singleton]
    rcases (AList.mem_insert _).mp member with same | old
    · exact ⟨segments.length, Nat.lt_succ_self _, same⟩
    · obtain ⟨i, bound, named⟩ := files.only name old chunk
      exact ⟨i, Nat.lt_succ_of_lt bound, named⟩

theorem addFrame {older : List (List Bytes)} {last : List Bytes}
    (files : ChunksOf (older ++ [last]) dir) (frame : Bytes) :
    ChunksOf (older ++ [last ++ [frame]]) (dir.append (chunkFilename older.length) frame) where
  file i frames found := by
    have current := files.file older.length last (List.getElem?_concat_length ..)
    by_cases here : i = older.length
    · subst here
      rw [List.getElem?_concat_length] at found
      cases found
      rw [Dir.append, AList.lookup_insert, Dir.content, current,
        Option.getD_some, List.flatten_append, List.flatten_singleton]
    · rw [Dir.append, AList.lookup_insert_ne (fun same => here (chunkFilename_injective same))]
      refine files.file i frames ?_
      rw [List.getElem?_append] at found ⊢
      split at found
      · rename_i short
        rw [if_pos short]
        exact found
      · have bound := (List.getElem?_eq_some_iff.mp found).1
        rw [List.length_singleton] at bound
        omega
  only name member chunk := by
    rw [List.length_append, List.length_singleton]
    rcases (AList.mem_insert _).mp member with same | old
    · exact ⟨older.length, Nat.lt_succ_self _, same⟩
    · obtain ⟨i, bound, named⟩ := files.only name old chunk
      rw [List.length_append, List.length_singleton] at bound
      exact ⟨i, bound, named⟩

theorem empty : ChunksOf [] (∅ : Dir) where
  file _ _ found := by cases found
  only name member := absurd member (AList.notMem_empty name)

theorem chunks_perm (files : ChunksOf segments dir) :
    dir.chunks.Perm (segments.map List.flatten) := by
  refine dir.chunks_numbered (fun i bytes found => ?_) fun name member chunk => ?_
  · rw [List.getElem?_map] at found
    obtain ⟨frames, inside, rfl⟩ := Option.map_eq_some_iff.mp found
    exact files.file i frames inside
  · rw [List.length_map]
    exact files.only name member chunk

end ChunksOf

/-- A writer stands at the end of `last`, and its chunk list has an entry for each segment. -/
structure AtEnd (older : List (List Bytes)) (last : List Bytes) (w : ChunkWriter) : Prop where
  stream : w.chunkStream = ⟨chunkFilename older.length, true, true⟩
  id : w.currentChunkId.toNat = older.length
  names : w.names = (List.range (older.length + 1)).map chunkFilename
  index : isChunkFile w.indexStream.path = false
  files : ChunksOf (older ++ [last]) w.dir

section Write
variable {w : ChunkWriter}

theorem indexPath_openIndex (opens : Bool) (index : isChunkFile w.indexStream.path = false) :
    isChunkFile (w.openIndex opens).indexStream.path = false := by
  unfold ChunkWriter.openIndex OutStream.openFile
  split
  · exact index
  · cases opens with
    | false => exact index
    | true => exact isChunkFile_index

theorem openChunk_opened {io : OpenIo} (index : isChunkFile w.indexStream.path = false)
    (opened : (w.openChunk io).1 = true) :
    (w.openChunk io).2.chunkStream = ⟨chunkFilename w.currentChunkId.toNat, true, true⟩ ∧
    (w.openChunk io).2.currentChunkId = w.currentChunkId ∧
    (w.openChunk io).2.names = w.names ++ [chunkFilename w.currentChunkId.toNat] ∧
    isChunkFile (w.openChunk io).2.indexStream.path = false ∧
    SameChunks (w.dir.insert (chunkFilename w.currentChunkId.toNat) []) (w.openChunk io).2.dir := by
  obtain ⟨names, done⟩ := ChunkWriter.names_openChunk io w
  obtain ⟨closed, opens⟩ := done.mp opened
  rw [if_pos ⟨closed, opens⟩] at names
  have stream : w.chunkStream.openFile io.opens (chunkFilename w.currentChunkId.toNat) =
      ⟨chunkFilename w.currentChunkId.toNat, true, true⟩ := by
    simp [OutStream.openFile, closed, opens]
  let next : ChunkWriter := { w with
    chunkStream := ⟨chunkFilename w.currentChunkId.toNat, true, true⟩
    dir := w.dir.insert (chunkFilename w.currentChunkId.toNat) [] }
  have same := SameChunks.openIndex io.indexOpens next
  have path := indexPath_openIndex (w := next) io.indexOpens index
  refine ⟨?_, ?_, names, ?_, ?_⟩
  · simp [ChunkWriter.openChunk, stream, ChunkWriter.chunkStream_openIndex]
  · simp [ChunkWriter.openChunk, stream, ChunkWriter.openIndex_fields]
  · simpa only [ChunkWriter.openChunk, stream, Bool.not_true, Bool.false_eq_true, if_false]
      using path
  · simpa only [ChunkWriter.openChunk, stream, Bool.not_true, Bool.false_eq_true, if_false]
      using same

variable {older : List (List Bytes)} {last : List Bytes}

theorem AtEnd.next_id (here : AtEnd older last w) (fresh : ¬ w.Lists (w.currentChunkId + 1)) :
    (w.currentChunkId + 1).toNat = older.length + 1 := by
  have bound : (w.currentChunkId + 1).toNat ≤ older.length + 1 := by
    rw [UInt32.toNat_add, here.id]
    exact Nat.mod_le ..
  refine le_antisymm bound (not_lt.mp fun short => fresh ?_)
  show chunkFilename _ ∈ w.names
  rw [here.names]
  exact List.mem_map_of_mem (List.mem_range.mpr short)

theorem AtEnd.rotate (here : AtEnd older last w) {io : WriteIo}
    (accepted : (w.rotateIfNeeded io).1 = true)
    (fresh : ∀ id ∈ w.opensId io, io.reopen.opens = true → ¬ w.Lists id) :
    ∃ older' last', AtEnd older' last' (w.rotateIfNeeded io).2 ∧
      (older' ++ [last']).flatten = (older ++ [last]).flatten := by
  have isOpen : w.chunkStream.isOpen = true := by rw [here.stream]
  by_cases rotate : w.mustRotate io.rotateNow
  · let left : ChunkWriter := { w.flush io.rotateFlush with
      chunkStream := (w.flush io.rotateFlush).chunkStream.close
      currentChunkId := w.currentChunkId + 1 }
    have step : w.rotateIfNeeded io = left.openChunk io.reopen := by
      simp only [ChunkWriter.rotateIfNeeded, isOpen, Bool.not_true,
        Bool.false_eq_true, if_false, rotate, not_true_eq_false]
      rfl
    have opensId : w.opensId io =
        some (w.currentChunkId + 1) := by simp [ChunkWriter.opensId, isOpen, rotate]
    rw [step] at accepted ⊢
    obtain ⟨stream, id, names, index, dir⟩ := openChunk_opened (w := left) here.index accepted
    have opens := ((ChunkWriter.names_openChunk io.reopen left).2.mp accepted).2
    have next : (w.currentChunkId + 1).toNat = (older ++ [last]).length := by
      rw [here.next_id (fresh _ opensId opens), List.length_append, List.length_singleton]
    have listed : left.names = w.names := rfl
    have files := (here.files.transfer (SameChunks.flush io.rotateFlush w)).newChunk
    rw [← next] at files
    refine ⟨older ++ [last], [], ⟨?_, ?_, ?_, index, files.transfer dir⟩, by simp⟩
    · rw [stream]
      exact congrArg (fun i => OutStream.mk (chunkFilename i) true true) next
    · rw [id]
      exact next
    · rw [names, listed, here.names, ← next]
      show _ ++ [chunkFilename (w.currentChunkId + 1).toNat] = _
      rw [List.range_succ (n := (w.currentChunkId + 1).toNat), List.map_append,
        List.map_singleton, next, List.length_append, List.length_singleton]
  · have stay : w.rotateIfNeeded io = (true, w) := by
      simp [ChunkWriter.rotateIfNeeded, isOpen, rotate]
    rw [stay]
    exact ⟨older, last, here, rfl⟩

theorem path_write (outcome : StreamWrite) (bytes : Bytes) (s : OutStream) (dir : Dir) :
    (s.write outcome bytes dir).1.path = s.path := by
  unfold OutStream.write
  split
  · cases outcome <;> rfl
  · rfl

theorem AtEnd.account (here : AtEnd older last w) (io : WriteIo)
    (header : EgoFrameHeader) (frame : Bytes) :
    AtEnd older last
      (((w.appendContractIndex io.indexWrite header).account frame).flushIfDue io) := by
  have indexed : AtEnd older last (w.appendContractIndex io.indexWrite header) := by
    unfold ChunkWriter.appendContractIndex
    split
    · exact here
    · dsimp only
      exact ⟨here.stream, here.id, here.names,
        (congrArg isChunkFile (path_write ..)).trans here.index,
          here.files.transfer (SameChunks.write _ _ _ _ here.index)⟩
  have counted : AtEnd older last ((w.appendContractIndex io.indexWrite header).account frame) :=
    ⟨indexed.stream, indexed.id, (ChunkWriter.names_account ..).trans indexed.names,
      indexed.index, indexed.files⟩
  generalize (w.appendContractIndex io.indexWrite header).account frame = next at counted
  unfold ChunkWriter.flushIfDue
  split
  · exact ⟨counted.stream, counted.id, counted.names, counted.index,
      counted.files.transfer (SameChunks.flush io.flush next)⟩
  · exact counted

theorem AtEnd.write (here : AtEnd older last w) {io : WriteIo} {frame : Bytes}
    (done : (w.writeContractFrame io frame).1 = true)
    (fresh : ¬ (WriterCall.write io frame).Reopens w) :
    ∃ older' last', AtEnd older' last' (w.writeContractFrame io frame).2 ∧
      (older' ++ [last']).flatten = (older ++ [last]).flatten ++ [frame] := by
  unfold ChunkWriter.writeContractFrame at done ⊢
  by_cases short : frame.length < egoFrameHeaderSize
  · rw [if_pos short] at done
    cases done
  · have unlisted : ∀ id ∈ w.opensId io, io.reopen.opens = true → ¬ w.Lists id := by
      intro id member opens listed
      refine fresh ⟨id, ?_, listed⟩
      rw [WriterCall.opened, if_pos ⟨not_lt.mp short, opens⟩]
      exact Option.mem_toList.mpr member
    rw [if_neg short] at done ⊢
    have rotated : (w.rotateIfNeeded io).1 = true → _ := here.rotate
    generalize w.rotateIfNeeded io = result at done rotated
    obtain ⟨accepted, next⟩ := result
    cases accepted with
    | false => cases done
    | true =>
        obtain ⟨older', last', there, same⟩ := rotated rfl unlisted
        dsimp only at done there ⊢
        split at done
        · cases done
        · rename_i magic
          rw [if_neg magic]
          split at done
          · cases done
          · rename_i good
            rw [if_neg good]
            have written : io.chunkWrite = .done := (OutStream.write_good (by simpa using good)).2.2
            have stream := OutStream.write_done (s := next.chunkStream) (by rw [there.stream])
              (by rw [there.stream]) frame next.dir
            rw [written, stream]
            have placed : AtEnd older' (last' ++ [frame])
                { next with dir := next.dir.append next.chunkStream.path frame } :=
              ⟨there.stream, there.id, there.names, there.index, by
                rw [there.stream]
                exact there.files.addFrame frame⟩
            refine ⟨older', last' ++ [frame], placed.account io _ frame, ?_⟩
            rw [← same]
            simp

end Write

theorem AtEnd.opened {config : RuntimeConfig} {now : Int} {io : OpenIo}
    (opened : ((ChunkWriter.create config now ∅).open io).1 = true) :
    AtEnd [] [] ((ChunkWriter.create config now ∅).open io).2 := by
  obtain ⟨stream, id, names, index, dir⟩ :=
    openChunk_opened (w := .create config now ∅) (show isChunkFile [] = false by decide) opened
  exact ⟨stream, congrArg UInt32.toNat id, names, index, ChunksOf.empty.newChunk.transfer dir⟩

end LocalPC.Runtime
