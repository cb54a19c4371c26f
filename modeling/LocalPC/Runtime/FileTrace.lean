import LocalPC.Lib.FileOps
import LocalPC.Runtime.Recording

namespace LocalPC.Runtime
open Lib Contract

abbrev Disk := FileSystem Bytes UInt8

def writeTextOps (path text : Bytes) : List (FileOp Bytes UInt8) :=
  replaceOps (tmpName path) path text

namespace ChunkWriter

def flushOps (w : ChunkWriter) : List (FileOp Bytes UInt8) :=
  [.sync w.chunkStream.path, .sync w.indexStream.path] ++
    writeTextOps manifestName (manifestJson w.chunks)

def openOps : List (FileOp Bytes UInt8) := [.create (chunkFilename 0), .touch indexName]

def rotateOps (clock : WriteClock) (w : ChunkWriter) : List (FileOp Bytes UInt8) :=
  if w.mustRotate clock.rotateNow then
    w.flushOps ++ [.sync w.chunkStream.path, .create (chunkFilename (w.currentChunkId + 1).toNat)]
  else []

def placeOps (frame : Bytes) (w : ChunkWriter) : List (FileOp Bytes UInt8) :=
  [.append w.chunkStream.path frame,
    .append w.indexStream.path
      (indexLine w.currentChunkOffset
        (EgoFrameHeader.decode frame) w.currentChunkId.toNat ++ [newline])]

def FlushDue (now : Int) (w : ChunkWriter) : Prop :=
  w.config.flushPackets ≤ w.packetsSinceFlush ∨
    (w.config.flushIntervalSec.toNat : Int) ≤ elapsedSec now w.lastFlushTime

instance (now : Int) (w : ChunkWriter) : Decidable (w.FlushDue now) :=
  inferInstanceAs (Decidable (_ ∨ _))

theorem flushIfDue_clean (clock : WriteClock) (w : ChunkWriter) :
    w.flushIfDue (.clean clock) =
      if w.FlushDue clock.flushCheckNow then w.flush (.clean clock.flushNow) else w := rfl

def dueOps (clock : WriteClock) (w : ChunkWriter) : List (FileOp Bytes UInt8) :=
  if w.FlushDue clock.flushCheckNow then w.flushOps else []

def writeOps (clock : WriteClock) (frame : Bytes) (w : ChunkWriter) : List (FileOp Bytes UInt8) :=
  w.rotateOps clock ++
    ((w.rotated clock).placeOps frame ++ ((w.rotated clock).place frame).dueOps clock)

def closeOps (w : ChunkWriter) : List (FileOp Bytes UInt8) :=
  w.flushOps ++ [.sync w.chunkStream.path, .sync w.indexStream.path]

end ChunkWriter

variable {m : UInt32}

def writesOps : WriterRun → List (WriteClock × ContractFrame m) → List (FileOp Bytes UInt8)
  | _, [] => []
  | run, write :: rest =>
      run.writer.writeOps write.1 write.2.bytes ++ writesOps (run.record write) rest

theorem writesOps_concat (run : WriterRun) (writes : List (WriteClock × ContractFrame m))
    (write : WriteClock × ContractFrame m) :
    writesOps run (writes ++ [write]) =
      writesOps run writes ++ (writes.foldl WriterRun.record run).writer.writeOps
        write.1 write.2.bytes := by
  induction writes generalizing run with
  | nil => exact List.append_nil _
  | cons first rest ih =>
      rw [List.cons_append, writesOps, ih, writesOps, List.append_assoc, List.foldl_cons]

/-- The files after `Open` and these writes, in a directory that was empty. -/
def diskAfter (config : RuntimeConfig) (now openNow : Int)
    (writes : List (WriteClock × ContractFrame m)) : Disk :=
  runOps (ChunkWriter.openOps ++ writesOps (recordingStart config now openNow) writes) fun _ => none

theorem diskAfter_concat (config : RuntimeConfig) (now openNow : Int)
    (writes : List (WriteClock × ContractFrame m)) (write : WriteClock × ContractFrame m) :
    diskAfter config now openNow (writes ++ [write]) =
      runOps ((writes.foldl WriterRun.record (recordingStart config now openNow)).writer.writeOps
        write.1 write.2.bytes) (diskAfter config now openNow writes) := by
  rw [diskAfter, writesOps_concat, ← List.append_assoc, runOps_append]
  rfl

def Shows (disk : Disk) (dir : Dir) : Prop :=
  ∀ name, (disk name).map BufferedFile.data = dir.lookup name

namespace Shows
variable {disk : Disk} {dir : Dir}

theorem update (shows : Shows disk dir) {name content : Bytes} {file : BufferedFile UInt8}
    (same : file.data = content) :
    Shows (Function.update disk name (some file)) (dir.insert name content) := by
  intro other
  by_cases here : other = name
  · subst here
    rw [Function.update_self, AList.lookup_insert, Option.map_some, same]
  · rw [Function.update_of_ne here, AList.lookup_insert_ne here]
    exact shows other

theorem content (shows : Shows disk dir) (name : Bytes) :
    ((disk name).getD {}).data = dir.content name := by
  rw [Dir.content, ← shows name]
  cases disk name <;> rfl

theorem create (shows : Shows disk dir) (name : Bytes) :
    Shows ((FileOp.create name).apply disk) (dir.insert name []) := shows.update rfl

theorem touch (shows : Shows disk dir) (name : Bytes) :
    Shows ((FileOp.touch name).apply disk) (dir.insert name (dir.content name)) :=
  shows.update (shows.content name)

theorem append (shows : Shows disk dir) (name bytes : Bytes) :
    Shows ((FileOp.append name bytes).apply disk) (dir.append name bytes) :=
  shows.update (congrArg (· ++ bytes) (shows.content name))

theorem sync (shows : Shows disk dir) (name : Bytes) :
    Shows ((FileOp.sync name).apply disk) dir := by
  intro other
  rw [← shows other, FileOp.apply]
  by_cases here : other = name
  · subst here
    rw [Function.update_self]
    cases disk other <;> rfl
  · rw [Function.update_of_ne here]

theorem writeText (shows : Shows disk dir) (path text : Bytes) :
    Shows (runOps (writeTextOps path text) disk) (writeTextAtomic .done path text dir).2 := by
  have differ : tmpName path ≠ path := by simp [tmpName, ascii]
  rw [writeTextOps, runOps_replaceOps _ _ differ]
  refine Shows.update (fun other => ?_) rfl
  by_cases here : other = tmpName path
  · subst here
    rw [Function.update_self, AList.lookup_erase]
    rfl
  · rw [Function.update_of_ne here, AList.lookup_erase_ne here]
    exact shows other

theorem leaves (shows : Shows disk dir) : Leaves disk fun name => dir.lookup name := by
  intro name
  dsimp only
  rw [← shows name]
  cases disk name with
  | none => exact .none
  | some file =>
      exact .some ⟨max file.synced file.data.length, Nat.le_max_left ..,
        (List.take_of_length_le (Nat.le_max_right ..)).symm⟩

theorem leaves_cut (shows : Shows disk dir) {name : Bytes} {synced n : Nat}
    (buffered : (disk name).map BufferedFile.synced = some synced) (kept : synced ≤ n) :
    Leaves disk fun other => (dir.insert name ((dir.content name).take n)).lookup other := by
  intro other
  dsimp only
  by_cases here : other = name
  · subst here
    obtain ⟨file, found, rfl⟩ := Option.map_eq_some_iff.mp buffered
    rw [AList.lookup_insert, ← shows.content, found]
    exact .some ⟨n, kept, rfl⟩
  · rw [AList.lookup_insert_ne here]
    exact shows.leaves other

section Writer
variable {w : ChunkWriter}

theorem flush (shows : Shows disk w.dir) (now : Int) :
    Shows (runOps w.flushOps disk) (w.flush (.clean now)).dir := by
  rw [ChunkWriter.flushOps, runOps_append]
  exact ((shows.sync _).sync _).writeText _ _

theorem rotated (shows : Shows disk w.dir) (clock : WriteClock) :
    Shows (runOps (w.rotateOps clock) disk) (w.rotated clock).dir := by
  unfold ChunkWriter.rotateOps ChunkWriter.rotated
  split
  · rw [runOps_append]
    exact ((shows.flush clock.rotateFlushNow).sync _).create _
  · exact shows

theorem place (shows : Shows disk w.dir) (steady : Steady w) (frame : Bytes) :
    Shows (runOps (w.placeOps frame) disk) (w.place frame).dir := by
  have placed := (shows.append w.chunkStream.path frame).append w.indexStream.path
    (indexLine w.currentChunkOffset
      (EgoFrameHeader.decode frame) w.currentChunkId.toNat ++ [newline])
  rw [steady.index] at placed
  rw [ChunkWriter.placeOps, steady.index]
  exact placed

theorem due (shows : Shows disk w.dir) (clock : WriteClock) :
    Shows (runOps (w.dueOps clock) disk) (w.flushIfDue (.clean clock)).dir := by
  rw [ChunkWriter.dueOps, ChunkWriter.flushIfDue_clean]
  split
  · exact shows.flush _
  · exact shows

theorem write (shows : Shows disk w.dir) (steady : Steady w) (clock : WriteClock)
    (frame : ContractFrame m) :
    Shows (runOps (w.writeOps clock frame.bytes) disk)
      (w.writeContractFrame (.clean clock) frame.bytes).2.dir := by
  rw [steady.write, ChunkWriter.writeOps, runOps_append, runOps_append]
  exact ((shows.rotated clock).place (steady.rotated clock) frame.bytes).due clock

end Writer
end Shows

theorem shows_diskAfter (config : RuntimeConfig) (now openNow : Int)
    (writes : List (WriteClock × ContractFrame m)) :
    Shows (diskAfter config now openNow writes)
      (writes.foldl WriterRun.record (recordingStart config now openNow)).writer.dir := by
  induction writes using List.reverseRecOn with
  | nil =>
      have start : Shows (fun _ => none) (∅ : Dir) := fun _ => rfl
      exact (start.create _).touch _
  | append_singleton writes write ih =>
      rw [diskAfter_concat, List.foldl_append]
      exact ih.write (steady_foldl writes) write.1 write.2

end LocalPC.Runtime
