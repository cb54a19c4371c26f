import LocalPC.Runtime.ChunkWriterRuns

namespace LocalPC.Runtime
open Lib Contract

/-- How a call moves a writer from chunk to chunk: it opens no file and keeps the id, or steps to
the next id without a file, or opens the file of the id that it is at. -/
inductive ChunkMove (w w' : ChunkWriter) : List UInt32 → Prop
  | keep (same : w'.currentChunkId = w.currentChunkId)
      (opened : w'.chunkStream.isOpen = true → w.chunkStream.isOpen = true) : ChunkMove w w' []
  | leave (opened : w.chunkStream.isOpen = true) (next : w'.currentChunkId = w.currentChunkId + 1)
      (closed : w'.chunkStream.isOpen = false) : ChunkMove w w' []
  | reopen (closed : w.chunkStream.isOpen = false) (same : w'.currentChunkId = w.currentChunkId)
      (opens : w'.chunkStream.isOpen = true) : ChunkMove w w' [w.currentChunkId]
  | next (opened : w.chunkStream.isOpen = true) (next : w'.currentChunkId = w.currentChunkId + 1)
      (opens : w'.chunkStream.isOpen = true) : ChunkMove w w' [w.currentChunkId + 1]

namespace ChunkWriter

def SamePlace (w w' : ChunkWriter) : Prop :=
  w'.currentChunkId = w.currentChunkId ∧ w'.chunkStream.isOpen = w.chunkStream.isOpen

theorem chunkStream_openIndex (opens : Bool) (w : ChunkWriter) :
    (w.openIndex opens).chunkStream = w.chunkStream := by
  unfold openIndex
  split
  · rfl
  · dsimp only
    split <;> rfl

theorem place_openChunk (io : OpenIo) (w : ChunkWriter) :
    (w.openChunk io).2.currentChunkId = w.currentChunkId ∧
      ((w.openChunk io).2.chunkStream.isOpen = true ↔
        w.chunkStream.isOpen = true ∨ w.chunkStream.isOpen = false ∧ io.opens = true) := by
  unfold openChunk OutStream.openFile
  by_cases opened : w.chunkStream.isOpen = true
  · simp [opened]
  · by_cases opens : io.opens = true
    · simp [opened, opens, openIndex_fields, chunkStream_openIndex]
    · simp [opened, opens]

theorem isOpen_write (outcome : StreamWrite) (bytes : Bytes) (s : OutStream) (dir : Dir) :
    (s.write outcome bytes dir).1.isOpen = s.isOpen := by
  unfold OutStream.write
  split
  · cases outcome <;> rfl
  · rfl

theorem samePlace_written (io : WriteIo) (frame : Bytes)
    (header : EgoFrameHeader) (w : ChunkWriter) :
    w.SamePlace (((w.appendContractIndex io.indexWrite header).account frame).flushIfDue io) := by
  have index : w.SamePlace ((w.appendContractIndex io.indexWrite header).account frame) := by
    unfold appendContractIndex
    split <;> exact ⟨rfl, rfl⟩
  generalize (w.appendContractIndex io.indexWrite header).account frame = counted at index
  unfold flushIfDue
  split
  · exact index
  · exact index

end ChunkWriter

namespace ChunkMove
variable {w w' w'' : ChunkWriter} {ids : List UInt32}

theorem refl (w : ChunkWriter) : ChunkMove w w [] := .keep rfl fun opened => opened

theorem then_stay (move : ChunkMove w w' ids) (stay : w'.SamePlace w'') : ChunkMove w w'' ids := by
  obtain ⟨same, opened⟩ := stay
  cases move with
  | keep keeps opens => exact .keep (same.trans keeps) (fun now => opens (opened ▸ now))
  | leave was next closed => exact .leave was (same.trans next) (opened.trans closed)
  | reopen was keeps opens => exact .reopen was (same.trans keeps) (opened.trans opens)
  | next was next opens => exact .next was (same.trans next) (opened.trans opens)

theorem openChunk (io : OpenIo) (w : ChunkWriter) :
    ChunkMove w (w.openChunk io).2
      (if w.chunkStream.isOpen = false ∧ io.opens = true then [w.currentChunkId] else []) := by
  obtain ⟨same, opened⟩ := w.place_openChunk io
  split
  · next opens => exact .reopen opens.1 same (opened.mpr (Or.inr opens))
  · next refused => exact .keep same fun now => (opened.mp now).resolve_right refused

theorem rotateIfNeeded (io : WriteIo) (w : ChunkWriter) :
    ChunkMove w (w.rotateIfNeeded io).2
      (if io.reopen.opens then (w.opensId io).toList else []) := by
  unfold ChunkWriter.rotateIfNeeded ChunkWriter.opensId
  by_cases closed : w.chunkStream.isOpen = false
  · simpa [closed] using openChunk io.reopen w
  · have opened : w.chunkStream.isOpen = true := by simpa using closed
    by_cases rotate : w.mustRotate io.rotateNow
    · simp only [opened, rotate, Bool.not_true, Bool.false_eq_true, if_false,
        not_true_eq_false, if_true, Option.toList_some]
      generalize left : ({ w.flush io.rotateFlush with
          chunkStream := (w.flush io.rotateFlush).chunkStream.close
          currentChunkId := (w.flush io.rotateFlush).currentChunkId + 1 } : ChunkWriter) = w'
      have next : w'.currentChunkId = w.currentChunkId + 1 := by rw [← left]; rfl
      have out : w'.chunkStream.isOpen = false := by rw [← left]; rfl
      obtain ⟨same, now⟩ := w'.place_openChunk io.reopen
      split
      · next opens => exact .next opened (same.trans next) (now.mpr (Or.inr ⟨out, opens⟩))
      · next refused =>
          refine .leave opened (same.trans next) (Bool.eq_false_iff.mpr fun still => ?_)
          rcases now.mp still with before | opens
          · rw [out] at before
            cases before
          · exact refused opens.2
    · simp only [opened, rotate, Bool.not_true, Bool.false_eq_true, if_false,
        not_false_eq_true, if_true, Option.toList_none, ite_self]
      exact refl w

theorem apply (call : WriterCall) (w : ChunkWriter) :
    ChunkMove w (call.apply w).2 (call.opened w) := by
  cases call with
  | «open» io => exact openChunk io w
  | flush io => exact .keep rfl fun opened => opened
  | close io => exact .keep rfl fun opened => (Bool.noConfusion opened : _)
  | write io frame =>
      simp only [WriterCall.apply, WriterCall.opened, ChunkWriter.writeContractFrame]
      by_cases short : frame.length < egoFrameHeaderSize
      · rw [if_pos short, if_neg fun long => absurd long.1 (by omega)]
        exact refl w
      · have move := rotateIfNeeded io w
        rw [if_neg short]
        simp only [not_lt.mp short, true_and]
        generalize w.rotateIfNeeded io = result at move
        obtain ⟨rotated, next⟩ := result
        cases rotated with
        | false => exact move
        | true =>
            dsimp only at move ⊢
            split
            · exact move
            · have stream := ChunkWriter.isOpen_write io.chunkWrite frame next.chunkStream next.dir
              split
              · exact move.then_stay ⟨rfl, stream⟩
              · have stay := ChunkWriter.samePlace_written io frame (EgoFrameHeader.decode frame)
                  { next with
                    chunkStream := (next.chunkStream.write io.chunkWrite frame next.dir).1
                    dir := (next.chunkStream.write io.chunkWrite frame next.dir).2 }
                exact move.then_stay ⟨stay.1, stay.2.trans stream⟩

end ChunkMove

/-- The chunk files that a writer has opened, in order. As long as no file was opened twice they
are those of the numbers from 0 on, and the writer stands at the last or at the next one. -/
structure Numbered (ids : List UInt32) (w : ChunkWriter) : Prop where
  names : w.names = ids.map fun id => chunkFilename id.toNat
  counted : ids.Nodup → ids.map UInt32.toNat = List.range ids.length
  position : ids.Nodup → if w.chunkStream.isOpen then w.currentChunkId.toNat + 1 = ids.length
    else w.currentChunkId.toNat ≤ ids.length

theorem toNat_not_mem {ids : List UInt32}
    (counted : ids.map UInt32.toNat = List.range ids.length) {id : UInt32} (fresh : id ∉ ids)
    (bound : id.toNat ≤ ids.length) : id.toNat = ids.length := by
  by_contra other
  have listed : id.toNat ∈ ids.map UInt32.toNat := by
    rw [counted, List.mem_range]
    omega
  obtain ⟨same, member, equal⟩ := List.mem_map.mp listed
  rw [UInt32.toNat_inj] at equal
  exact fresh (equal ▸ member)

theorem Numbered.append {ids : List UInt32} {w w' : ChunkWriter} {id : UInt32}
    (numbered : Numbered ids w) (bound : ids.Nodup → id.toNat ≤ ids.length)
    (names : w'.names = w.names ++ [chunkFilename id.toNat]) (at_ : w'.currentChunkId = id)
    (opened : w'.chunkStream.isOpen = true) : Numbered (ids ++ [id]) w' := by
  have next (distinct : (ids ++ [id]).Nodup) : ids.Nodup ∧ id.toNat = ids.length := by
    rw [List.nodup_append] at distinct
    have before := distinct.1
    refine ⟨before, toNat_not_mem (numbered.counted before) ?_ (bound before)⟩
    exact fun member => distinct.2.2 id member id (by simp) rfl
  refine ⟨?_, fun distinct => ?_, fun distinct => ?_⟩
  · rw [names, numbered.names]
    simp
  · obtain ⟨before, number⟩ := next distinct
    rw [List.map_append, numbered.counted before, List.length_append,
      List.length_singleton, List.range_succ]
    simp [number]
  · obtain ⟨before, number⟩ := next distinct
    rw [opened, if_pos rfl, at_, number]
    simp

theorem Numbered.apply {ids : List UInt32} {w : ChunkWriter}
    (numbered : Numbered ids w) (call : WriterCall) :
    Numbered (ids ++ call.opened w) (call.apply w).2 := by
  have names := call.names_apply w
  have move := ChunkMove.apply call w
  generalize call.opened w = opened at names move
  generalize (call.apply w).2 = w' at names move
  have current (distinct : ids.Nodup) : w.currentChunkId.toNat ≤ ids.length ∧
      (w.chunkStream.isOpen = true → w.currentChunkId.toNat + 1 = ids.length) := by
    have position := numbered.position distinct
    split at position
    · exact ⟨by omega, fun _ => position⟩
    · next closed => exact ⟨position, fun opened => absurd opened closed⟩
  have after : (w.currentChunkId + 1).toNat ≤ w.currentChunkId.toNat + 1 := by
    rw [UInt32.toNat_add]
    exact Nat.mod_le ..
  cases move with
  | keep same opened =>
      rw [List.append_nil]
      refine ⟨by simpa [numbered.names] using names, numbered.counted, fun distinct => ?_⟩
      obtain ⟨bound, exact_⟩ := current distinct
      rw [same]
      split
      · next now => exact exact_ (opened now)
      · exact bound
  | leave opened next closed =>
      rw [List.append_nil]
      refine ⟨by simpa [numbered.names] using names, numbered.counted, fun distinct => ?_⟩
      obtain ⟨bound, exact_⟩ := current distinct
      have position := exact_ opened
      rw [closed, next]
      simp only [Bool.false_eq_true, if_false]
      omega
  | reopen closed same opens =>
      exact numbered.append (fun distinct => (current distinct).1) (by simpa using names) same opens
  | next opened next opens =>
      refine numbered.append (fun distinct => ?_) (by simpa using names) next opens
      have position := (current distinct).2 opened
      omega

theorem numbered_of_reach {config : RuntimeConfig} {now : Int} {run : WriterRun}
    {allowed : WriterRun → WriterCall → Prop}
    (reached : (writerMachine config now).Reach allowed run) :
    ∃ ids, Numbered ids run.writer := by
  refine reached.invariant (I := fun run => ∃ ids, Numbered ids run.writer) ?_ ?_
  · rintro _ rfl
    exact ⟨[], rfl, fun _ => rfl, fun _ => le_rfl⟩
  · rintro run call _ ⟨ids, numbered⟩ rfl -
    exact ⟨_, numbered.apply call⟩

theorem Numbered.name {ids : List UInt32} {w : ChunkWriter} (numbered : Numbered ids w)
    (distinct : w.names.Nodup) {i : Nat} {name : Bytes} (found : w.names[i]? = some name) :
    name = chunkFilename i := by
  rw [numbered.names] at distinct found
  have counted := congrArg (·[i]?) (numbered.counted distinct.of_map)
  obtain ⟨id, listed, rfl⟩ := Option.map_eq_some_iff.mp (List.getElem?_map .. ▸ found)
  have short : i < ids.length := (List.getElem?_eq_some_iff.mp listed).1
  simp only [List.getElem?_map, listed, Option.map_some, List.getElem?_range short,
    Option.some.injEq] at counted
  rw [counted]

end LocalPC.Runtime
