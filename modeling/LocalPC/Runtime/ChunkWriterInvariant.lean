import LocalPC.Runtime.ChunkLog

namespace LocalPC.Runtime
open Lib Contract

structure OnChunk (older : List ChunkLog) (last : ChunkLog) (w : ChunkWriter) : Prop where
  isOpen : w.chunkStream.isOpen = true
  path : w.chunkStream.path = chunkFilename older.length
  id : w.currentChunkId.toNat = older.length
  offset : w.currentChunkOffset = last.frames.flatten.length
  bytes : w.currentChunkBytes = last.frames.flatten.length
  intact : w.chunkStream.good = true → last.torn = []
  indexOpen : w.indexStream.isOpen = true

/-- The counters, the chunk list and the files of a writer are those of the history `logs`. -/
structure Recorded (logs : List ChunkLog) (w : ChunkWriter) : Prop where
  chunks : w.chunks = logs.mapIdx ChunkLog.info
  files : Files logs w.dir
  totalBytes : w.totalBytes = (framesOf logs).flatten.flatten.length
  totalPackets : w.totalPackets = UInt32.ofNat (framesOf logs).flatten.length
  limit : 0 < w.config.chunkMaxBytes.toNat →
    ∀ log ∈ logs, log.frames.dropLast.flatten.length < w.config.chunkMaxBytes.toNat
  indexGood : w.indexStream.good = true
  indexPath : w.indexStream.isOpen = true → w.indexStream.path = indexName
  position : (∃ older last, logs = older ++ [last] ∧ OnChunk older last w) ∨
    w.chunkStream.isOpen = false ∧ w.currentChunkId.toNat ≤ logs.length

def Intact (logs : List ChunkLog) : Prop := ∀ log ∈ logs, log.torn = []

structure Extends (logs : List ChunkLog) (written : List Bytes) (clean : Prop)
    (logs' : List ChunkLog) :
    Prop where
  frames : (framesOf logs').flatten = (framesOf logs).flatten ++ written
  intact : clean → Intact logs → Intact logs'

namespace ChunkWriter

def opensId (io : WriteIo) (w : ChunkWriter) : Option UInt32 :=
  if !w.chunkStream.isOpen then some w.currentChunkId
  else if w.mustRotate io.rotateNow then some (w.currentChunkId + 1)
  else none

def Lists (id : UInt32) (w : ChunkWriter) : Prop :=
  chunkFilename id.toNat ∈ w.chunks.map ChunkInfo.filename

instance (id : UInt32) (w : ChunkWriter) : Decidable (w.Lists id) :=
  inferInstanceAs (Decidable (_ ∈ _))

def names (w : ChunkWriter) : List Bytes := w.chunks.map ChunkInfo.filename

@[simp] theorem names_flush (io : FlushIo) (w : ChunkWriter) : (w.flush io).names = w.names := rfl

@[simp] theorem names_close (io : FlushIo) (w : ChunkWriter) : (w.close io).names = w.names := rfl

@[simp] theorem names_flushIfDue (io : WriteIo) (w : ChunkWriter) :
    (w.flushIfDue io).names = w.names := by
  unfold flushIfDue
  split <;> rfl

@[simp] theorem names_appendContractIndex (outcome : StreamWrite)
    (header : EgoFrameHeader) (w : ChunkWriter) :
    (w.appendContractIndex outcome header).names = w.names := by
  unfold appendContractIndex
  split <;> rfl

@[simp] theorem names_account (frame : Bytes) (w : ChunkWriter) :
    (w.account frame).names = w.names := by
  unfold names account
  rcases List.eq_nil_or_concat w.chunks with empty | ⟨older, last, split⟩
  · rw [empty]
    rfl
  · simp [split, List.modifyLast_concat, ChunkInfo.add]

theorem openIndex_fields (opens : Bool) (w : ChunkWriter) :
    (w.openIndex opens).chunks = w.chunks ∧
      (w.openIndex opens).currentChunkId = w.currentChunkId := by
  unfold openIndex
  split
  · exact ⟨rfl, rfl⟩
  · dsimp only
    split <;> exact ⟨rfl, rfl⟩

theorem names_openChunk (io : OpenIo) (w : ChunkWriter) :
    (w.openChunk io).2.names =
      w.names ++ (if w.chunkStream.isOpen = false ∧ io.opens = true then
        [chunkFilename w.currentChunkId.toNat]
        else []) ∧
    ((w.openChunk io).1 = true ↔ w.chunkStream.isOpen = false ∧ io.opens = true) := by
  unfold openChunk OutStream.openFile names
  by_cases opened : w.chunkStream.isOpen = true
  · simp [opened]
  · by_cases opens : io.opens = true
    · simp [opened, opens, openIndex_fields]
    · simp [opened, opens]

theorem names_rotateIfNeeded (io : WriteIo) (w : ChunkWriter) :
    (w.rotateIfNeeded io).2.names =
      w.names ++ if io.reopen.opens then (w.opensId io).toList.map fun id => chunkFilename id.toNat
        else [] := by
  unfold rotateIfNeeded opensId
  by_cases closed : w.chunkStream.isOpen = false
  · simp [closed, names_openChunk]
  · by_cases rotate : w.mustRotate io.rotateNow
    · have kept : names { w.flush io.rotateFlush with
          chunkStream := (w.flush io.rotateFlush).chunkStream.close
          currentChunkId := (w.flush io.rotateFlush).currentChunkId + 1 } = w.names := rfl
      simp only [closed, rotate, Bool.not_true, Bool.false_eq_true, if_false, not_true_eq_false,
        names_openChunk, kept]
      simp [OutStream.close, flush, updateManifest]
    · simp [closed, rotate]

theorem names_writeContractFrame (io : WriteIo) (frame : Bytes) (w : ChunkWriter) :
    (w.writeContractFrame io frame).2.names =
      w.names ++ if egoFrameHeaderSize ≤ frame.length ∧ io.reopen.opens = true then
        (w.opensId io).toList.map fun id => chunkFilename id.toNat else [] := by
  unfold writeContractFrame
  by_cases short : frame.length < egoFrameHeaderSize
  · rw [if_pos short, if_neg (fun long => by omega), List.append_nil]
  · have rotated := names_rotateIfNeeded io w
    rw [if_neg short]
    simp only [not_lt.mp short, true_and]
    rw [← rotated]
    generalize w.rotateIfNeeded io = result
    obtain ⟨accepted, next⟩ := result
    cases accepted with
    | false => rfl
    | true =>
        dsimp only
        split
        · rfl
        · split
          · rfl
          · simp only [names_flushIfDue, names_account, names_appendContractIndex]
            rfl

end ChunkWriter

namespace Extends

theorem refl (logs : List ChunkLog) (clean : Prop) : Extends logs [] clean logs :=
  ⟨by simp, fun _ intact => intact⟩

theorem newChunk (logs : List ChunkLog) (clean : Prop) :
    Extends logs [] clean (logs ++ [.empty]) where
  frames := by simp [framesOf]
  intact _ intact log member := by
    rcases List.mem_append.mp member with old | new
    · exact intact log old
    · rw [List.mem_singleton.mp new]

theorem trans {first second third : List ChunkLog} {before after : List Bytes} {clean : Prop}
    (earlier : Extends first before clean second) (later : Extends second after clean third) :
    Extends first (before ++ after) clean third where
  frames := by rw [later.frames, earlier.frames, List.append_assoc]
  intact ok intact := later.intact ok (earlier.intact ok intact)

theorem addFrame (older : List ChunkLog) (last : ChunkLog) (frame : Bytes) (clean : Prop) :
    Extends (older ++ [last]) [frame] clean (older ++ [last.addFrame frame]) where
  frames := by simp [framesOf, ChunkLog.addFrame]
  intact _ intact log member := by
    rcases List.mem_append.mp member with old | new
    · exact intact log (List.mem_append_left _ old)
    · rw [List.mem_singleton.mp new]
      exact intact last (by simp)

theorem tear (older : List ChunkLog) (last : ChunkLog) (bytes : Bytes)
    {clean : Prop} (failed : ¬ clean) :
    Extends (older ++ [last]) [] clean (older ++ [last.tear bytes]) where
  frames := by simp [framesOf, ChunkLog.tear]
  intact ok := absurd ok failed

end Extends

theorem infos_append (older : List ChunkLog) (last : ChunkLog) :
    (older ++ [last]).mapIdx ChunkLog.info =
      older.mapIdx ChunkLog.info ++ [last.info older.length] := by
  rw [List.mapIdx_append, List.mapIdx_cons, List.mapIdx_nil, Nat.zero_add]

namespace Recorded
variable {logs : List ChunkLog} {w : ChunkWriter}

theorem create (config : RuntimeConfig) (now : Int) :
    Recorded [] (ChunkWriter.create config now ∅) where
  chunks := rfl
  files := Files.empty
  totalBytes := rfl
  totalPackets := rfl
  limit := by simp
  indexGood := rfl
  indexPath := by simp [ChunkWriter.create]
  position := Or.inr ⟨rfl, le_rfl⟩

theorem flush (recorded : Recorded logs w) (io : FlushIo) : Recorded logs (w.flush io) where
  chunks := recorded.chunks
  files := recorded.files.manifest io.manifest _
  totalBytes := recorded.totalBytes
  totalPackets := recorded.totalPackets
  limit := recorded.limit
  indexGood := recorded.indexGood
  indexPath := recorded.indexPath
  position := recorded.position.imp_left fun ⟨older, last, split, here⟩ =>
    ⟨older, last, split, here.isOpen, here.path, here.id, here.offset, here.bytes,
      here.intact, here.indexOpen⟩

theorem id_le (recorded : Recorded logs w) : w.currentChunkId.toNat ≤ logs.length := by
  rcases recorded.position with ⟨older, last, rfl, here⟩ | ⟨-, bound⟩
  · simp [here.id]
  · exact bound

theorem id_succ_le (recorded : Recorded logs w) (opened : w.chunkStream.isOpen = true) :
    (w.currentChunkId + 1).toNat ≤ logs.length := by
  rcases recorded.position with ⟨older, last, rfl, here⟩ | ⟨closed, -⟩
  · rw [UInt32.toNat_add, here.id, List.length_append]
    exact Nat.mod_le ..
  · rw [closed] at opened
    cases opened

theorem leaveChunk (recorded : Recorded logs w) {id : UInt32} (bound : id.toNat ≤ logs.length) :
    Recorded logs { w with chunkStream := w.chunkStream.close, currentChunkId := id } :=
  { recorded with position := Or.inr ⟨rfl, bound⟩ }

theorem close (recorded : Recorded logs w) (io : FlushIo) : Recorded logs (w.close io) :=
  { recorded.flush io with
    indexGood := recorded.indexGood
    indexPath := fun opened => by simp [ChunkWriter.close, OutStream.close] at opened
    position := Or.inr ⟨rfl, recorded.id_le⟩ }

theorem lists_iff (recorded : Recorded logs w) (id : UInt32) :
    w.Lists id ↔ id.toNat < logs.length := by
  unfold ChunkWriter.Lists
  rw [recorded.chunks]
  constructor
  · intro listed
    obtain ⟨c, member, name⟩ := List.mem_map.mp listed
    obtain ⟨i, bound, rfl⟩ := List.mem_mapIdx.mp member
    rw [ChunkLog.info_filename] at name
    exact chunkFilename_injective name ▸ bound
  · intro short
    exact List.mem_map.mpr
      ⟨_, List.mem_mapIdx.mpr ⟨id.toNat, short, rfl⟩, ChunkLog.info_filename ..⟩

theorem next_id (recorded : Recorded logs w) {id : UInt32} (bound : id.toNat ≤ logs.length)
    (unlisted : ¬ w.Lists id) : id.toNat = logs.length :=
  le_antisymm bound (not_lt.mp (mt (recorded.lists_iff id).mpr unlisted))

theorem openChunk_failed (recorded : Recorded logs w) {io : OpenIo}
    (failed : w.chunkStream.isOpen = true ∨ io.opens = false) :
    (w.openChunk io).1 = false ∧ Recorded logs (w.openChunk io).2 := by
  have stream (path : Bytes) : w.chunkStream.openFile io.opens path =
      { w.chunkStream with good := false } := by
    rcases failed with opened | refused
    · simp [OutStream.openFile, opened]
    · simp [OutStream.openFile, refused]
  simp only [ChunkWriter.openChunk, stream, Bool.not_false, if_true]
  refine ⟨trivial, { recorded with position := recorded.position.imp_left ?_ }⟩
  rintro ⟨older, last, split, here⟩
  exact ⟨older, last, split, { here with intact := fun good => by cases good }⟩

theorem openIndex (recorded : Recorded logs w) (next : ChunkWriter)
    (same : next.indexStream = w.indexStream) :
    ∃ dir, next.openIndex true = { next with indexStream := ⟨indexName, true, true⟩, dir := dir } ∧
      (dir = next.dir ∨ dir = next.dir.insert indexName (next.dir.content indexName)) := by
  by_cases opened : w.indexStream.isOpen = true
  · have stream : next.indexStream = ⟨indexName, true, true⟩ := by
      rw [same, ← recorded.indexPath opened]
      exact congrArg₂ (OutStream.mk _) opened recorded.indexGood
    refine ⟨next.dir, ?_, Or.inl rfl⟩
    rw [ChunkWriter.openIndex, stream, if_pos rfl, ← stream]
  · refine ⟨_, ?_, Or.inr rfl⟩
    simp [ChunkWriter.openIndex, OutStream.openFile, same, opened]

theorem openChunk_done (recorded : Recorded logs w) {io : OpenIo}
    (closed : w.chunkStream.isOpen = false) (opens : io.opens = true)
    (healthy : io.indexOpens = true) (unlisted : ¬ w.Lists w.currentChunkId) :
    (w.openChunk io).1 = true ∧ Recorded (logs ++ [.empty]) (w.openChunk io).2 ∧
      OnChunk logs .empty (w.openChunk io).2 ∧ (w.openChunk io).2.config = w.config ∧
      (w.openChunk io).2.chunkStream.good = true := by
  have id := recorded.next_id recorded.id_le unlisted
  have stream : w.chunkStream.openFile io.opens (chunkFilename w.currentChunkId.toNat) =
      ⟨chunkFilename logs.length, true, true⟩ := by
    simp [OutStream.openFile, closed, opens, id]
  obtain ⟨dir, index, kept⟩ := recorded.openIndex { w with
    chunkStream := ⟨chunkFilename logs.length, true, true⟩
    dir := w.dir.insert (chunkFilename logs.length) [] } rfl
  have files : Files (logs ++ [.empty]) dir := by
    rcases kept with rfl | rfl
    · exact recorded.files.newChunk
    · exact recorded.files.newChunk.openIndex
  have chunks : w.chunks ++ [{ filename := chunkFilename logs.length }] =
      (logs ++ [ChunkLog.empty]).mapIdx ChunkLog.info := by
    rw [infos_append, recorded.chunks]
    rfl
  have frames : (framesOf (logs ++ [.empty])).flatten =
      (framesOf logs).flatten := by simp [framesOf]
  have opened : w.openChunk io = (true, { w with
      chunkStream := ⟨chunkFilename logs.length, true, true⟩
      indexStream := ⟨indexName, true, true⟩
      currentChunkOffset := 0
      currentChunkBytes := 0
      chunkOpenedAt := io.now
      chunks := w.chunks ++ [{ filename := chunkFilename logs.length }]
      dir := dir }) := by
    unfold ChunkWriter.openChunk
    dsimp only
    rw [stream, id, healthy, index]
    rfl
  rw [opened]
  refine ⟨rfl, ⟨chunks, files, ?_, ?_, fun positive log member => ?_, rfl, fun _ => rfl,
    Or.inl ⟨logs, _, rfl, ⟨rfl, rfl, id, rfl, rfl, fun _ => rfl, rfl⟩⟩⟩,
    ⟨rfl, rfl, id, rfl, rfl, fun _ => rfl, rfl⟩, rfl, rfl⟩
  · rw [frames]
    exact recorded.totalBytes
  · rw [frames]
    exact recorded.totalPackets
  · rcases List.mem_append.mp member with old | new
    · exact recorded.limit positive log old
    · rw [List.mem_singleton.mp new]
      exact positive

theorem openChunk (recorded : Recorded logs w) {io : OpenIo} (healthy : io.indexOpens = true)
    (unlisted : w.chunkStream.isOpen = false → io.opens = true → ¬ w.Lists w.currentChunkId)
    (clean : Prop) :
    ∃ logs', Recorded logs' (w.openChunk io).2 ∧ Extends logs [] clean logs' := by
  by_cases opened : w.chunkStream.isOpen = true
  · exact ⟨logs, (recorded.openChunk_failed (Or.inl opened)).2, Extends.refl ..⟩
  · by_cases opens : io.opens = true
    · have closed : w.chunkStream.isOpen = false := by simpa using opened
      exact ⟨_, (recorded.openChunk_done closed opens healthy (unlisted closed opens)).2.1,
        Extends.newChunk ..⟩
    · exact ⟨logs, (recorded.openChunk_failed (Or.inr (by simpa using opens))).2, Extends.refl ..⟩

structure Ready (logs : List ChunkLog) (clean : Prop) (w : ChunkWriter) (older : List ChunkLog)
    (last : ChunkLog) : Prop where
  recorded : Recorded (older ++ [last]) w
  here : OnChunk older last w
  extend : Extends logs [] clean (older ++ [last])
  room : 0 < w.config.chunkMaxBytes.toNat →
    last.frames.flatten.length < w.config.chunkMaxBytes.toNat

theorem reopen (recorded : Recorded logs w) {io : OpenIo} (closed : w.chunkStream.isOpen = false)
    (healthy : io.indexOpens = true)
    (unlisted : io.opens = true → ¬ w.Lists w.currentChunkId) (clean : Prop) :
    ((w.openChunk io).1 = false ∧ io.opens = false ∧ Recorded logs (w.openChunk io).2) ∨
    ((w.openChunk io).1 = true ∧ (w.openChunk io).2.chunkStream.good = true ∧
      Ready logs clean (w.openChunk io).2 logs .empty) := by
  by_cases opens : io.opens = true
  · obtain ⟨done, next, here, config, good⟩ :=
      recorded.openChunk_done closed opens healthy (unlisted opens)
    exact Or.inr ⟨done, good, next, here, Extends.newChunk .., fun positive => positive⟩
  · have refused : io.opens = false := by simpa using opens
    obtain ⟨failed, same⟩ := recorded.openChunk_failed (Or.inr refused)
    exact Or.inl ⟨failed, refused, same⟩

theorem rotateIfNeeded (recorded : Recorded logs w) {io : WriteIo}
    (healthy : io.reopen.indexOpens = true)
    (unlisted : ∀ id ∈ w.opensId io, io.reopen.opens = true → ¬ w.Lists id) (clean : Prop) :
    ((w.rotateIfNeeded io).1 = false ∧ io.reopen.opens = false ∧
      Recorded logs (w.rotateIfNeeded io).2) ∨
    ((w.rotateIfNeeded io).1 = true ∧
      ((w.chunkStream.isOpen = true → w.chunkStream.good = true) →
        (w.rotateIfNeeded io).2.chunkStream.good = true) ∧
      ∃ older last, Ready logs clean (w.rotateIfNeeded io).2 older last) := by
  by_cases opened : w.chunkStream.isOpen = true
  · by_cases rotate : w.mustRotate io.rotateNow
    · have left := (recorded.flush io.rotateFlush).leaveChunk (recorded.id_succ_le opened)
      have step : w.rotateIfNeeded io =
          ChunkWriter.openChunk io.reopen { w.flush io.rotateFlush with
          chunkStream := (w.flush io.rotateFlush).chunkStream.close
          currentChunkId := w.currentChunkId + 1 } := by
        simp only [ChunkWriter.rotateIfNeeded, opened, Bool.not_true,
          Bool.false_eq_true, if_false, rotate, not_true_eq_false]
        rfl
      have fresh : w.currentChunkId + 1 ∈
          w.opensId io := by simp [ChunkWriter.opensId, opened, rotate]
      rw [step]
      rcases left.reopen rfl healthy
          (unlisted _ fresh) clean with ⟨refused, failed, same⟩ | ⟨done, good, ready⟩
      · exact Or.inl ⟨refused, failed, same⟩
      · exact Or.inr ⟨done, fun _ => good, _, _, ready⟩
    · rcases recorded.position with ⟨older, last, rfl, here⟩ | ⟨closed, -⟩
      · have stay : w.rotateIfNeeded io = (true, w) := by
          simp [ChunkWriter.rotateIfNeeded, opened, rotate]
        rw [stay]
        refine Or.inr
          ⟨rfl, fun good => good opened, older, last, recorded, here, Extends.refl .., fun _ => ?_⟩
        rw [← here.bytes]
        exact not_le.mp fun full => rotate (Or.inl full)
      · rw [opened] at closed
        cases closed
  · have closed : w.chunkStream.isOpen = false := by simpa using opened
    have step : w.rotateIfNeeded io = w.openChunk io.reopen := by
      simp [ChunkWriter.rotateIfNeeded, closed]
    have fresh : w.currentChunkId ∈ w.opensId io := by simp [ChunkWriter.opensId, closed]
    rw [step]
    rcases recorded.reopen closed healthy
        (unlisted _ fresh) clean with ⟨refused, failed, same⟩ | ⟨done, good, ready⟩
    · exact Or.inl ⟨refused, failed, same⟩
    · exact Or.inr ⟨done, fun _ => good, _, _, ready⟩

theorem torn {older : List ChunkLog} {last : ChunkLog} (recorded : Recorded (older ++ [last]) w)
    (here : OnChunk older last w) (outcome : StreamWrite) (frame : Bytes)
    (failed : (w.chunkStream.write outcome frame w.dir).1.good = false) :
    ∃ logs', Recorded logs' { w with
        chunkStream := (w.chunkStream.write outcome frame w.dir).1
        dir := (w.chunkStream.write outcome frame w.dir).2 } ∧
      Extends (older ++ [last]) [] (outcome = .done) logs' := by
  by_cases good : w.chunkStream.good = true
  · cases outcome with
    | done =>
        rw [OutStream.write_done here.isOpen good, good] at failed
        cases failed
    | failed written =>
        have files := recorded.files.tear (frame.take written)
        have frames : framesOf (older ++ [last.tear (frame.take written)]) =
            framesOf (older ++ [last]) := by
          simp [framesOf, ChunkLog.tear]
        rw [← here.path] at files
        refine ⟨older ++ [last.tear (frame.take written)], ?_, Extends.tear _ _ _ (by simp)⟩
        simp only [OutStream.write, here.isOpen, good, Bool.and_self, if_true]
        exact
          { chunks := by rw [infos_append, ChunkLog.info_tear, ← infos_append]; exact recorded.chunks
            files := files
            totalBytes := by rw [frames]; exact recorded.totalBytes
            totalPackets := by rw [frames]; exact recorded.totalPackets
            limit := fun positive log member => by
              rcases List.mem_append.mp member with old | new
              · exact recorded.limit positive log (List.mem_append_left _ old)
              · rw [List.mem_singleton.mp new]
                exact recorded.limit positive last (by simp)
            indexGood := recorded.indexGood
            indexPath := recorded.indexPath
            position := Or.inl ⟨older, _, rfl,
              rfl, here.path, here.id, here.offset, here.bytes,
                fun good => Bool.noConfusion good, here.indexOpen⟩ }
  · refine ⟨older ++ [last], ?_, Extends.refl ..⟩
    simp only [OutStream.write, good, Bool.and_false, Bool.false_eq_true, if_false]
    exact { recorded with
      position := Or.inl ⟨older, last, rfl, { here with intact := fun good => by cases good }⟩ }

theorem appended {older : List ChunkLog} {last : ChunkLog} (recorded : Recorded (older ++ [last]) w)
    (here : OnChunk older last w) (good : w.chunkStream.good = true)
    (room : 0 < w.config.chunkMaxBytes.toNat →
      last.frames.flatten.length < w.config.chunkMaxBytes.toNat)
    (frame : Bytes) :
    Recorded (older ++ [last.addFrame frame])
      (({ w with dir := w.dir.append w.chunkStream.path frame }.appendContractIndex .done
        (EgoFrameHeader.decode frame)).account frame) := by
  have index : w.indexStream = ⟨indexName, true, true⟩ := by
    rw [← recorded.indexPath here.indexOpen]
    exact congrArg₂ (OutStream.mk _) here.indexOpen recorded.indexGood
  have files := recorded.files.addFrame (here.intact good) frame
  have frames : (framesOf (older ++ [last.addFrame frame])).flatten =
      (framesOf (older ++ [last])).flatten ++ [frame] := by
    simp [framesOf, ChunkLog.addFrame]
  rw [ChunkWriter.appendContractIndex_done (by exact index)]
  exact
    { chunks := by
        rw [infos_append, ChunkLog.info_addFrame]
        simp only [ChunkWriter.account, recorded.chunks, infos_append, List.modifyLast_concat]
      files := by
        simp only [ChunkWriter.account, here.path, here.offset, here.id]
        exact files
      totalBytes := by
        simp only [ChunkWriter.account, frames, recorded.totalBytes,
          List.flatten_append, List.length_append, List.flatten_singleton]
      totalPackets := by
        simp only [ChunkWriter.account, frames, recorded.totalPackets,
          List.length_append, List.length_singleton, UInt32.ofNat_add]
        rfl
      limit := fun positive log member => by
        rcases List.mem_append.mp member with old | new
        · exact recorded.limit positive log (List.mem_append_left _ old)
        · rw [List.mem_singleton.mp new, ChunkLog.addFrame, List.dropLast_concat]
          exact room positive
      indexGood := recorded.indexGood
      indexPath := recorded.indexPath
      position := Or.inl ⟨older, _, rfl, here.isOpen, here.path, here.id,
        by simp [ChunkWriter.account, here.offset, ChunkLog.addFrame],
        by simp [ChunkWriter.account, here.bytes, ChunkLog.addFrame], here.intact, here.indexOpen⟩ }

theorem flushIfDue (recorded : Recorded logs w) (io : WriteIo) :
    Recorded logs (w.flushIfDue io) := by
  unfold ChunkWriter.flushIfDue
  split
  · exact recorded.flush io.flush
  · exact recorded

theorem write (recorded : Recorded logs w) {io : WriteIo} (reopen : io.reopen.indexOpens = true)
    (index : io.indexWrite = .done)
    {frame : Bytes} (unlisted : egoFrameHeaderSize ≤ frame.length →
      ∀ id ∈ w.opensId io, io.reopen.opens = true → ¬ w.Lists id) :
    ∃ logs', Recorded logs' (w.writeContractFrame io frame).2 ∧
      Extends logs (if (w.writeContractFrame io frame).1 then [frame] else [])
        (io.chunkWrite = .done) logs' := by
  unfold ChunkWriter.writeContractFrame
  by_cases short : frame.length < egoFrameHeaderSize
  · rw [if_pos short]
    exact ⟨logs, recorded, Extends.refl ..⟩
  · rw [if_neg short]
    rcases recorded.rotateIfNeeded reopen (unlisted (not_lt.mp short)) (io.chunkWrite = .done) with
      ⟨refused, -, same⟩ | ⟨accepted, -, older, last, ready⟩
    · generalize w.rotateIfNeeded io = result at refused same
      obtain ⟨_, next⟩ := result
      cases refused
      exact ⟨logs, same, Extends.refl ..⟩
    · generalize w.rotateIfNeeded io = result at accepted ready
      obtain ⟨_, next⟩ := result
      cases accepted
      dsimp only
      split
      · exact ⟨_, ready.recorded, ready.extend⟩
      · by_cases failed : (next.chunkStream.write io.chunkWrite frame next.dir).1.good = false
        · obtain ⟨logs', after, extend⟩ := ready.recorded.torn ready.here io.chunkWrite frame failed
          simp only [failed, Bool.not_false, if_true]
          exact ⟨logs', after, ready.extend.trans extend⟩
        · obtain ⟨opened, good, done⟩ := OutStream.write_good (Bool.of_not_eq_false failed)
          simp only [done, OutStream.write_done opened good, good, Bool.not_true,
            Bool.false_eq_true, if_false, if_true, index]
          have extend :=
            ready.extend.trans (Extends.addFrame older last frame (io.chunkWrite = .done))
          simp only [done] at extend
          exact ⟨_, (ready.recorded.appended ready.here good ready.room frame).flushIfDue io,
            extend⟩

end Recorded
end LocalPC.Runtime
