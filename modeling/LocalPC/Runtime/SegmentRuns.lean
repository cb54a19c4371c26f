import LocalPC.Runtime.ChunkFiles

namespace LocalPC.Runtime
open Lib Contract

/-- The chunk files hold `segments`, one for each entry of the chunk list. -/
structure Holds (segments : List (List Bytes)) (w : ChunkWriter) : Prop where
  files : ChunksOf segments w.dir
  names : w.names = (List.range segments.length).map chunkFilename
  index : isChunkFile w.indexStream.path = false
  place : (∃ older last, segments = older ++ [last] ∧ w.chunkStream.isOpen = true ∧
      w.chunkStream.path = chunkFilename older.length ∧ w.currentChunkId.toNat = older.length) ∨
    w.chunkStream.isOpen = false ∧ w.currentChunkId.toNat ≤ segments.length

namespace Holds
variable {segments : List (List Bytes)} {w w' : ChunkWriter}

theorem create (config : RuntimeConfig) (now : Int) :
    Holds [] (ChunkWriter.create config now ∅) where
  files := .empty
  names := rfl
  index := show isChunkFile [] = false by decide
  place := Or.inr ⟨rfl, le_rfl⟩

theorem length_chunks (holds : Holds segments w) : w.chunks.length = segments.length := by
  have lengths := congrArg List.length holds.names
  rwa [length_names, List.length_map, List.length_range] at lengths

theorem filename (holds : Holds segments w) {i : Nat} {c : ChunkInfo}
    (found : w.chunks[i]? = some c) :
    c.filename = chunkFilename i := by
  have entry := congrArg (·[i]?) holds.names
  have bound := (List.getElem?_eq_some_iff.mp found).1
  rw [holds.length_chunks] at bound
  simpa [ChunkWriter.names, found, bound] using entry

theorem transfer (holds : Holds segments w) (same : SameChunks w.dir w'.dir)
    (names : w'.names = w.names) (index : isChunkFile w'.indexStream.path = false)
    (isOpen : w'.chunkStream.isOpen = w.chunkStream.isOpen)
    (path : w'.chunkStream.path = w.chunkStream.path) (id : w'.currentChunkId = w.currentChunkId) :
    Holds segments w' where
  files := holds.files.transfer same
  names := names.trans holds.names
  index := index
  place := by
    rw [isOpen, path, id]
    exact holds.place

theorem flush (holds : Holds segments w) (io : FlushIo) : Holds segments (w.flush io) :=
  holds.transfer (SameChunks.flush io w) rfl holds.index rfl rfl rfl

theorem flushIfDue (holds : Holds segments w) (io : WriteIo) :
    Holds segments (w.flushIfDue io) := by
  unfold ChunkWriter.flushIfDue
  split
  · exact holds.flush io.flush
  · exact holds

theorem close (holds : Holds segments w) (io : FlushIo) : Holds segments (w.close io) where
  files := holds.files.transfer (SameChunks.flush io w)
  names := holds.names
  index := holds.index
  place := by
    refine Or.inr ⟨rfl, ?_⟩
    rcases holds.place with ⟨older, last, rfl, -, -, id⟩ | ⟨-, id⟩
    · rw [List.length_append]
      exact id.le.trans (Nat.le_add_right ..)
    · exact id

theorem openChunk (holds : Holds segments w) {io : OpenIo}
    (fresh : w.chunkStream.isOpen = false → io.opens = true → ¬ w.Lists w.currentChunkId) :
    ∃ segments', Holds segments' (w.openChunk io).2 ∧ segments'.flatten = segments.flatten := by
  cases opened : (w.openChunk io).1 with
  | false =>
      refine ⟨segments, ?_, rfl⟩
      have refused : (w.openChunk io).2 = { w with
          chunkStream :=
            w.chunkStream.openFile io.opens (chunkFilename w.currentChunkId.toNat) } := by
        unfold ChunkWriter.openChunk at opened ⊢
        dsimp only at opened ⊢
        split at opened
        · rename_i bad
          rw [if_pos bad]
        · cases opened
      have kept : ∀ s : OutStream, ¬ (s.isOpen = false ∧ io.opens = true) → ∀ path,
          (s.openFile io.opens path).isOpen = s.isOpen ∧
            (s.openFile io.opens path).path = s.path := by
        intro s refuses path
        unfold OutStream.openFile
        split
        · exact ⟨rfl, rfl⟩
        · rename_i closed
          split
          · rename_i opens
            exact absurd ⟨by simpa using closed, opens⟩ refuses
          · exact ⟨rfl, rfl⟩
      have failed :=
        mt (ChunkWriter.names_openChunk io w).2.mpr (by rw [opened]; exact Bool.false_ne_true)
      obtain ⟨isOpen, path⟩ := kept w.chunkStream failed (chunkFilename w.currentChunkId.toNat)
      rw [refused]
      exact holds.transfer (fun _ _ => rfl) rfl holds.index isOpen path rfl
  | true =>
      obtain ⟨closed, opens⟩ := (ChunkWriter.names_openChunk io w).2.mp opened
      obtain ⟨stream, id, names, index, dir⟩ := openChunk_opened holds.index opened
      have next : w.currentChunkId.toNat = segments.length := by
        have bound : w.currentChunkId.toNat ≤ segments.length := by
          rcases holds.place with ⟨-, -, -, isOpen, -⟩ | ⟨-, bound⟩
          · rw [closed] at isOpen
            cases isOpen
          · exact bound
        refine le_antisymm bound (not_lt.mp fun short => fresh closed opens ?_)
        show chunkFilename _ ∈ w.names
        rw [holds.names]
        exact List.mem_map_of_mem (List.mem_range.mpr short)
      have files := holds.files.newChunk
      rw [← next] at files
      refine ⟨segments ++ [[]], ⟨files.transfer dir, ?_, index, ?_⟩, by simp⟩
      · rw [names, holds.names, next, List.length_append, List.length_singleton,
          List.range_succ, List.map_append, List.map_singleton]
      · refine Or.inl ⟨segments, [], rfl, ?_, ?_, ?_⟩
        · rw [stream]
        · rw [stream, next]
        · rw [id, next]

theorem rotateIfNeeded (holds : Holds segments w) {io : WriteIo}
    (fresh : ∀ id ∈ w.opensId io, io.reopen.opens = true → ¬ w.Lists id) :
    ∃ segments', Holds segments' (w.rotateIfNeeded io).2 ∧
      segments'.flatten = segments.flatten := by
  unfold ChunkWriter.rotateIfNeeded
  split
  · rename_i closed
    refine holds.openChunk fun _ opens => fresh _ ?_ opens
    rw [ChunkWriter.opensId, if_pos closed]
    rfl
  · rename_i isOpen
    split
    · exact ⟨segments, holds, rfl⟩
    · rename_i rotates
      have flushed := holds.flush io.rotateFlush
      let left : ChunkWriter := { w.flush io.rotateFlush with
        chunkStream := (w.flush io.rotateFlush).chunkStream.close
        currentChunkId := w.currentChunkId + 1 }
      have after : Holds segments left := by
        refine ⟨flushed.files, flushed.names, flushed.index, Or.inr ⟨rfl, ?_⟩⟩
        show (w.currentChunkId + 1).toNat ≤ _
        rcases holds.place with ⟨older, last, rfl, -, -, id⟩ | ⟨closed, -⟩
        · rw [UInt32.toNat_add, id, List.length_append]
          exact Nat.mod_le ..
        · simp [closed] at isOpen
      refine after.openChunk fun _ opens => ?_
      refine fresh (w.currentChunkId + 1) ?_ opens
      rw [ChunkWriter.opensId, if_neg isOpen, if_pos (not_not.mp rotates)]
      rfl

theorem account (holds : Holds segments w) (io : WriteIo)
    (header : EgoFrameHeader) (frame : Bytes) :
    Holds segments
      (((w.appendContractIndex io.indexWrite header).account frame).flushIfDue io) := by
  have indexed : Holds segments (w.appendContractIndex io.indexWrite header) := by
    unfold ChunkWriter.appendContractIndex
    split
    · exact holds
    · exact holds.transfer (SameChunks.write _ _ _ _ holds.index) rfl
        ((congrArg isChunkFile (path_write ..)).trans holds.index) rfl rfl rfl
  have counted : Holds segments ((w.appendContractIndex io.indexWrite header).account frame) :=
    indexed.transfer (fun _ _ => rfl) (ChunkWriter.names_account ..) indexed.index rfl rfl rfl
  exact counted.flushIfDue io

def Adds (segments : List (List Bytes)) (frame : Bytes) (result : Bool × ChunkWriter) : Prop :=
  ∃ segments', Holds segments' result.2 ∧
    segments'.flatten = segments.flatten ++ if result.1 then [frame] else []

theorem refused (holds : Holds segments w) (frame : Bytes) : Adds segments frame (false, w) :=
  ⟨segments, holds, (List.append_nil _).symm⟩

theorem write (holds : Holds segments w) {io : WriteIo} {frame : Bytes}
    (undamaged : io.chunkWrite = .done) (fresh : ¬ (WriterCall.write io frame).Reopens w) :
    Adds segments frame (w.writeContractFrame io frame) := by
  unfold ChunkWriter.writeContractFrame
  by_cases short : frame.length < egoFrameHeaderSize
  · rw [if_pos short]
    exact holds.refused frame
  · rw [if_neg short]
    obtain ⟨segments', rotated, same⟩ :=
      @rotateIfNeeded _ _ holds io fun id member opens listed => fresh ⟨id, by
      rw [WriterCall.opened, if_pos ⟨not_lt.mp short, opens⟩]
      exact Option.mem_toList.mpr member, listed⟩
    generalize w.rotateIfNeeded io = result at rotated
    obtain ⟨accepted, next⟩ := result
    unfold Adds
    rw [← same]
    show Adds segments' frame _
    cases accepted with
    | false => exact rotated.refused frame
    | true =>
        dsimp only at rotated ⊢
        by_cases magic : (EgoFrameHeader.decode frame).magic ≠ egoFrameMagic
        · rw [if_pos magic]
          exact rotated.refused frame
        · rw [if_neg magic, undamaged]
          by_cases usable : next.chunkStream.isOpen = true ∧ next.chunkStream.good = true
          · rw [OutStream.write_done usable.1 usable.2]
            dsimp only
            rw [usable.2]
            obtain ⟨older, last, rfl, isOpen, path, id⟩ :=
              rotated.place.resolve_right fun closed =>
                Bool.false_ne_true (closed.1.symm.trans usable.1)
            have placed : Holds (older ++ [last ++ [frame]])
                { next with dir := next.dir.append next.chunkStream.path frame } := by
              refine ⟨?_, ?_, rotated.index, Or.inl ⟨older, _, rfl, isOpen, path, id⟩⟩
              · rw [path]
                exact rotated.files.addFrame frame
              · have names := rotated.names
                rw [List.length_append, List.length_singleton] at names ⊢
                exact names
            exact ⟨_, placed.account io _ frame, by simp⟩
          · have unwritten : next.chunkStream.write .done frame next.dir =
                ({ next.chunkStream with good := false }, next.dir) := by
              unfold OutStream.write
              rw [if_neg (by simpa using usable)]
            have after : Holds segments'
                { next with chunkStream := { next.chunkStream with good := false } } :=
              rotated.transfer (fun _ _ => rfl) rfl rotated.index rfl rfl rfl
            rw [unwritten]
            exact after.refused frame

theorem apply (holds : Holds segments w) {call : WriterCall} (undamaged : call.Undamaged)
    (fresh : ¬ call.Reopens w) :
    ∃ segments', Holds segments' (call.apply w).2 ∧
      segments'.flatten = segments.flatten ++ call.written w := by
  cases call with
  | «open» io =>
      obtain ⟨segments', opened, same⟩ := @openChunk _ _ holds io fun closed opens listed =>
        fresh ⟨w.currentChunkId, by simp [WriterCall.opened, closed, opens], listed⟩
      exact ⟨segments', opened, same.trans (List.append_nil _).symm⟩
  | write io frame => exact holds.write undamaged fresh
  | flush io => exact ⟨segments, holds.flush io, (List.append_nil _).symm⟩
  | close io => exact ⟨segments, holds.close io, (List.append_nil _).symm⟩

end Holds

def WriterCall.Carries (m : UInt32) : WriterCall → Prop
  | .write _ frame => Accepted m frame
  | _ => True

/-- No chunk file gets a part of a frame, none is opened twice, and all frames are accepted ones. -/
structure SoundCall (m : UInt32) (run : WriterRun) (call : WriterCall) : Prop where
  undamaged : call.Undamaged
  fresh : ¬ call.Reopens run.writer
  carries : call.Carries m

theorem holds_of_reach {config : RuntimeConfig} {now : Int} {m : UInt32} {run : WriterRun}
    (reached : (writerMachine config now).Reach (SoundCall m) run) :
    (∃ segments, Holds segments run.writer ∧ segments.flatten = run.written) ∧
      ∀ frame ∈ run.written, Accepted m frame := by
  refine reached.invariant
    (I := fun run => (∃ segments, Holds segments run.writer ∧ segments.flatten = run.written) ∧
    ∀ frame ∈ run.written, Accepted m frame) ?_ ?_
  · rintro _ rfl
    exact ⟨⟨[], .create config now, rfl⟩, nofun⟩
  · rintro run call _ ⟨⟨segments, holds, frames⟩, accepted⟩ rfl sound
    obtain ⟨segments', next, written⟩ := holds.apply sound.undamaged sound.fresh
    refine ⟨⟨segments', next, by rw [written, frames]; rfl⟩, fun frame member => ?_⟩
    rcases List.mem_append.mp member with old | new
    · exact accepted frame old
    · cases call with
      | write io bytes =>
          unfold WriterCall.written at new
          dsimp only at new
          split at new
          · rw [List.mem_singleton.mp new]
            exact sound.carries
          · cases new
      | _ => cases new

end LocalPC.Runtime
