import Mathlib.Data.List.Induction
import LocalPC.Lib.Runs
import LocalPC.Runtime.ContractFrameIo
import LocalPC.Runtime.ChunkWriterInvariant

namespace LocalPC.Runtime
open Lib Contract

inductive WriterCall
  | open (io : OpenIo)
  | write (io : WriteIo) (frame : Bytes)
  | flush (io : FlushIo)
  | close (io : FlushIo)

structure WriteClock where
  rotateNow : Int := 0
  rotateFlushNow : Int := 0
  reopenNow : Int := 0
  flushCheckNow : Int := 0
  flushNow : Int := 0

def OpenIo.clean (now : Int) : OpenIo := ⟨true, true, now⟩

def FlushIo.clean (now : Int) : FlushIo := ⟨now, .done⟩

def WriteIo.clean (clock : WriteClock) : WriteIo where
  rotateNow := clock.rotateNow
  rotateFlush := .clean clock.rotateFlushNow
  reopen := .clean clock.reopenNow
  chunkWrite := .done
  indexWrite := .done
  flushCheckNow := clock.flushCheckNow
  flush := .clean clock.flushNow

namespace WriterCall

def apply : WriterCall → ChunkWriter → Bool × ChunkWriter
  | .open io, w => w.open io
  | .write io frame, w => w.writeContractFrame io frame
  | .flush io, w => (true, w.flush io)
  | .close io, w => (true, w.close io)

def written : WriterCall → ChunkWriter → List Bytes
  | .write io frame, w => if (w.writeContractFrame io frame).1 then [frame] else []
  | _, _ => []

def IndexHealthy : WriterCall → Prop
  | .open io => io.indexOpens = true
  | .write io _ => io.reopen.indexOpens = true ∧ io.indexWrite = .done
  | _ => True

def Undamaged : WriterCall → Prop
  | .write io _ => io.chunkWrite = .done
  | _ => True

def opened : WriterCall → ChunkWriter → List UInt32
  | .open io, w => if w.chunkStream.isOpen = false ∧ io.opens = true then [w.currentChunkId] else []
  | .write io frame, w =>
      if egoFrameHeaderSize ≤ frame.length ∧ io.reopen.opens = true then (w.opensId io).toList
      else []
  | _, _ => []

/-- The call opens a chunk file that the chunk list has an entry for. -/
def Reopens (call : WriterCall) (w : ChunkWriter) : Prop := ∃ id ∈ call.opened w, w.Lists id

instance (call : WriterCall) (w : ChunkWriter) : Decidable (call.Reopens w) :=
  inferInstanceAs (Decidable (∃ _ ∈ _, _))

theorem names_apply (call : WriterCall) (w : ChunkWriter) :
    (call.apply w).2.names = w.names ++ (call.opened w).map fun id => chunkFilename id.toNat := by
  cases call with
  | «open» io =>
      simp only [apply, ChunkWriter.open, ChunkWriter.names_openChunk, opened]
      split <;> rfl
  | write io frame =>
      simp only [apply, ChunkWriter.names_writeContractFrame, opened]
      split <;> rfl
  | flush io => simp [apply, opened]
  | close io => simp [apply, opened]

end WriterCall

/-- A writer together with the frames that its calls have reported as written. -/
structure WriterRun where
  written : List Bytes
  writer : ChunkWriter

namespace WriterRun

def fresh (config : RuntimeConfig) (now : Int) : WriterRun := ⟨[], ChunkWriter.create config now ∅⟩

def step (run : WriterRun) (call : WriterCall) : WriterRun :=
  ⟨run.written ++ call.written run.writer, (call.apply run.writer).2⟩

end WriterRun

def writerMachine (config : RuntimeConfig) (now : Int) : Machine WriterRun WriterCall :=
  Machine.ofFun (WriterRun.fresh config now) WriterRun.step

def History (logs : List ChunkLog) (run : WriterRun) : Prop :=
  Recorded logs run.writer ∧ (framesOf logs).flatten = run.written

theorem History.fresh (config : RuntimeConfig) (now : Int) : History [] (.fresh config now) :=
  ⟨Recorded.create config now, rfl⟩

theorem History.step {logs : List ChunkLog} {run : WriterRun}
    (history : History logs run) {call : WriterCall} (healthy : call.IndexHealthy)
    (fresh : ¬ call.Reopens run.writer) :
    ∃ logs', History logs' (run.step call) ∧ (call.Undamaged → Intact logs → Intact logs') := by
  obtain ⟨recorded, frames⟩ := history
  have unlisted (id : UInt32) (member : id ∈ call.opened run.writer) : ¬ run.writer.Lists id :=
    fun listed => fresh ⟨id, member, listed⟩
  have close {logs' : List ChunkLog} (next : Recorded logs' (call.apply run.writer).2)
      (extend : Extends logs (call.written run.writer) call.Undamaged logs') :
      ∃ logs', History logs' (run.step call) ∧ (call.Undamaged → Intact logs → Intact logs') :=
    ⟨logs', ⟨next, by rw [extend.frames, frames]; rfl⟩, extend.intact⟩
  cases call with
  | «open» io =>
      obtain ⟨logs', next, extend⟩ := recorded.openChunk healthy (fun closed opens =>
        unlisted _ (by simp [WriterCall.opened, closed, opens])) True
      exact close next extend
  | write io frame =>
      obtain ⟨logs', next, extend⟩ := recorded.write healthy.1 healthy.2 fun long id member opens =>
        unlisted id (by simpa [WriterCall.opened, opens, long] using ⟨long, member⟩)
      exact close next extend
  | flush io => exact close (recorded.flush io) (Extends.refl logs True)
  | close io => exact close (recorded.close io) (Extends.refl logs True)

theorem history_of_reach {config : RuntimeConfig} {now : Int} {run : WriterRun}
    (reached : (writerMachine config now).Reach
      (fun run call => call.IndexHealthy ∧ ¬ call.Reopens run.writer) run) :
    ∃ logs, History logs run := by
  refine reached.invariant (I := fun run => ∃ logs, History logs run) ?_ ?_
  · rintro _ rfl
    exact ⟨[], History.fresh config now⟩
  · rintro run call _ ⟨logs, history⟩ rfl ⟨healthy, fresh⟩
    obtain ⟨logs', next, -⟩ := history.step healthy fresh
    exact ⟨logs', next⟩

theorem indexLine_clean (offset : Nat) (header : EgoFrameHeader) (chunkId : Nat) :
    newline ∉ indexLine offset header chunkId := by
  have digits (n : Nat) : newline ∉ decimal n := by
    intro member
    have digit := isDigit_of_mem_decimal _ member
    exact absurd digit (by decide)
  have separator : newline ∉ ascii "," := by decide
  simp [indexLine, digits, separator]

theorem getlines_indexText (logs : List ChunkLog) :
    getlines newline (indexText logs) = (placementsOf logs).map placementLine := by
  unfold indexText
  rw [← List.flatMap_map placementLine (fun line => line ++ [newline])]
  refine getlines_lines fun line member => ?_
  obtain ⟨p, -, rfl⟩ := List.mem_map.mp member
  exact indexLine_clean _ _ _

/-- What the writer's counters, chunk list and index say about the chunk files; `segments` are the
frames in each of them. -/
structure BookkeepingOf (segments : List (List Bytes)) (run : WriterRun) : Prop where
  frames : segments.flatten = run.written
  filenames : ∀ (i : Nat) c, run.writer.chunks[i]? = some c → c.filename = chunkFilename i
  chunkBytes : run.writer.chunks.map ChunkInfo.bytes =
    segments.map fun frames => frames.flatten.length
  totalBytes : run.writer.totalBytes = (run.writer.chunks.map ChunkInfo.bytes).sum
  totalPackets : run.writer.totalPackets.toNat =
    (run.writer.chunks.map fun c => c.packetCount.toNat).sum % 2 ^ 32
  offset : run.writer.chunkStream.isOpen = true →
    ∃ c, run.writer.chunks.getLast? = some c ∧ run.writer.currentChunkOffset = c.bytes
  index : getlines newline (run.writer.dir.content indexName) =
    (SegmentedLog.placements segments).map placementLine
  lineCount : (getlines newline (run.writer.dir.content indexName)).length = run.written.length
  located : ∀ p ∈ SegmentedLog.placements segments,
    ((run.writer.dir.content (chunkFilename p.segment)).drop p.offset).take p.record.length =
      p.record
  disjoint : (SegmentedLog.placements segments).Pairwise Placement.Before
  limit : 0 < run.writer.config.chunkMaxBytes.toNat → ∀ frames ∈ segments,
    frames.dropLast.flatten.length < run.writer.config.chunkMaxBytes.toNat

def Bookkeeping (run : WriterRun) : Prop := ∃ segments, BookkeepingOf segments run

theorem packetCounts_infos (logs : List ChunkLog) :
    ((logs.mapIdx ChunkLog.info).map fun c => c.packetCount.toNat).sum % 2 ^ 32 =
      (framesOf logs).flatten.length % 2 ^ 32 := by
  induction logs using List.reverseRecOn with
  | nil => rfl
  | append_singleton older last ih =>
      rw [infos_append]
      simp only [List.map_append, List.sum_append, List.map_singleton, List.sum_singleton, framesOf,
        List.flatten_append, List.length_append, List.flatten_singleton, ChunkLog.info_packetCount,
        UInt32.toNat_ofNat']
      rw [framesOf] at ih
      omega

theorem bytes_infos (logs : List ChunkLog) :
    ((logs.mapIdx ChunkLog.info).map ChunkInfo.bytes) = (framesOf logs).map fun frames =>
      frames.flatten.length := by
  induction logs using List.reverseRecOn with
  | nil => rfl
  | append_singleton older last ih =>
      rw [infos_append]
      simp [ih, framesOf, ChunkLog.info_bytes]

theorem History.bookkeeping {logs : List ChunkLog} {run : WriterRun} (history : History logs run) :
    BookkeepingOf (framesOf logs) run := by
  obtain ⟨recorded, frames⟩ := history
  have lines : getlines newline (run.writer.dir.content indexName) =
      (placementsOf logs).map placementLine := by
    rw [recorded.files.index, getlines_indexText]
  exact
    { frames := frames
      filenames := fun i c found => by
        rw [recorded.chunks, List.getElem?_mapIdx] at found
        obtain ⟨log, -, rfl⟩ := Option.map_eq_some_iff.mp found
        exact ChunkLog.info_filename i log
      chunkBytes := by rw [recorded.chunks, bytes_infos]
      totalBytes := by
        rw [recorded.totalBytes, recorded.chunks, bytes_infos, List.flatten_flatten,
          List.length_flatten, List.map_map]
        rfl
      totalPackets := by
        rw [recorded.totalPackets, recorded.chunks, packetCounts_infos, UInt32.toNat_ofNat']
      offset := fun opened => by
        rcases recorded.position with ⟨older, last, rfl, here⟩ | ⟨closed, -⟩
        · refine ⟨last.info older.length, ?_, ?_⟩
          · rw [recorded.chunks, infos_append, List.getLast?_concat]
          · rw [here.offset, ChunkLog.info_bytes]
        · rw [opened] at closed
          cases closed
      index := lines
      lineCount := by
        rw [lines, List.length_map, ← frames, placementsOf, SegmentedLog.length_placements]
      located := fun p member => by
        obtain ⟨inside, found, at'⟩ := SegmentedLog.located member
        obtain ⟨log, chunk, rfl⟩ := List.getElem?_map .. ▸ found |> Option.map_eq_some_iff.mp
        rw [Dir.content, recorded.files.chunk _ _ chunk]
        exact at' log.torn
      disjoint := SegmentedLog.placements_ordered _
      limit := fun positive frames member => by
        obtain ⟨log, found, rfl⟩ := List.mem_map.mp member
        exact recorded.limit positive log found }

theorem BookkeepingOf.names {segments : List (List Bytes)} {run : WriterRun}
    (book : BookkeepingOf segments run) (i : Nat) (name : Bytes)
    (found : run.writer.names[i]? = some name) : name = chunkFilename i := by
  rw [ChunkWriter.names, List.getElem?_map] at found
  obtain ⟨c, entry, rfl⟩ := Option.map_eq_some_iff.mp found
  exact book.filenames i c entry

theorem reopened_breaks {run : WriterRun} {call : WriterCall} (reopens : call.Reopens run.writer) :
    ¬ Bookkeeping (run.step call) := by
  rintro ⟨segments, book⟩
  obtain ⟨id, opened, listed⟩ := reopens
  obtain ⟨i, old⟩ := List.getElem?_of_mem listed
  obtain ⟨j, new⟩ :=
    List.getElem?_of_mem (List.mem_map_of_mem (f := fun id => chunkFilename id.toNat) opened)
  have names := call.names_apply run.writer
  have short : i < run.writer.names.length := (List.getElem?_eq_some_iff.mp old).1
  have first := book.names i (chunkFilename id.toNat) (by
    rw [WriterRun.step, names, List.getElem?_append_left short]
    exact old)
  have second := book.names (run.writer.names.length + j) (chunkFilename id.toNat) (by
    rw [WriterRun.step, names, List.getElem?_append_right (Nat.le_add_right ..),
      Nat.add_sub_cancel_left]
    exact new)
  have same := chunkFilename_injective (first.symm.trans second)
  omega

/-- The bookkeeping is right in every run that opens no chunk file twice, and wrong after the first
call that does. -/
theorem bookkeeping_until_reopened {config : RuntimeConfig} {now : Int} {run : WriterRun}
    (reached : (writerMachine config now).Reach
      (fun run call => call.IndexHealthy ∧ ¬ call.Reopens run.writer) run) :
    Bookkeeping run ∧
      ∀ call : WriterCall, call.IndexHealthy →
        (Bookkeeping (run.step call) ↔ ¬ call.Reopens run.writer) := by
  obtain ⟨logs, history⟩ := history_of_reach reached
  refine ⟨⟨_, history.bookkeeping⟩,
    fun call healthy => ⟨fun book reopens => reopened_breaks reopens book, ?_⟩⟩
  intro fresh
  obtain ⟨logs', next, -⟩ := history.step healthy fresh
  exact ⟨_, next.bookkeeping⟩

def closedCalls : List WriterCall :=
  [.open (.clean 0), .write (.clean {}) (sealFrame 100 7 10 11 [1]), .close (.clean 0)]

def closedRun : WriterRun := closedCalls.foldl WriterRun.step (.fresh {} 0)

theorem closedRun_bookkeeping :
    Bookkeeping closedRun ∧ ∀ call : WriterCall, call.IndexHealthy →
      (Bookkeeping (closedRun.step call) ↔ ¬ call.Reopens closedRun.writer) :=
  bookkeeping_until_reopened
    (.foldl ⟨⟨rfl, by decide⟩, ⟨⟨rfl, rfl⟩, by decide⟩, ⟨trivial, by decide⟩, trivial⟩)

def lateWrite : WriterCall := .write (.clean {}) (sealFrame 100 8 12 13 [2])

/-- A write after `Close` opens the chunk file again, and empties it. -/
theorem bookkeeping_lost_after_close :
    (writerMachine {} 0).Reach (fun _ call => call.IndexHealthy) (closedRun.step lateWrite) ∧
    ¬ Bookkeeping (closedRun.step lateWrite) :=
  have reached : (writerMachine {} 0).Reach (fun _ call => call.IndexHealthy) closedRun :=
    .foldl ⟨rfl, ⟨rfl, rfl⟩, trivial, trivial⟩
  ⟨reached.step rfl ⟨rfl, rfl⟩, reopened_breaks (by decide)⟩

def sampleFrame (seq t0Ns : UInt64) : ContractFrame 65536 :=
  ⟨sealFrame 100 seq t0Ns t0Ns [1], sealFrame_accepted _ _ _ _ (by decide)⟩

def sampleConfig : RuntimeConfig := { chunkMaxBytes := 100, flushPackets := 2 }

end LocalPC.Runtime
