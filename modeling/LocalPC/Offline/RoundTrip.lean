import LocalPC.Runtime.Recording
import LocalPC.Offline.ReadRange
import LocalPC.Offline.IndexFile

namespace LocalPC.Offline
open Lib Contract LocalPC.Runtime

def manifestOf (w : ChunkWriter) : List ChunkInfo :=
  w.chunks.mapIdx fun i c => { path := c.filename, chunkId := toInt32 i }

structure Carries (p : Placement UInt8) (pkt : RawPacket) : Prop where
  isContract : pkt.isContract = true
  header : pkt.contractHeader = EgoFrameHeader.decode p.record
  bytes : pkt.contractHeader.encode ++ pkt.payload = p.record
  chunkId : pkt.chunkId = p.segment
  fileOffset : pkt.fileOffset = p.offset

/-- A scan of a closed recording delivers the frames written, each with its place. -/
def RoundTrip (run : WriterRun) : Prop :=
  ∃ segments, WrittenTo segments run ∧
    List.Forall₂ Carries (SegmentedLog.placements segments)
      ((EgoLogReader.create run.writer.dir (manifestOf run.writer)).scan run.writer.dir
        (fun pkt seen => (true, seen ++ [pkt])) [])

theorem toInt32_of_lt {n : Nat} (small : n < 2 ^ 31) : toInt32 n = n := by
  rw [toInt32]
  split <;> omega

theorem toInt32_lt (n : Nat) : toInt32 n < 2 ^ 31 := by
  rw [toInt32]
  split <;> omega

section Chunk
variable {m : UInt32} {frames : List Bytes} {dir : Dir} {path : Bytes}

theorem detectFormat_frames (accepted : ∀ frame ∈ frames, Accepted m frame)
    (found : dir.lookup path = some frames.flatten) :
    detectFormat dir path = .kContract ∨ frames = [] ∧ detectFormat dir path = .kUnknown := by
  unfold detectFormat
  rw [found]
  cases frames with
  | nil => exact Or.inr ⟨rfl, by decide⟩
  | cons frame rest =>
      left
      obtain ⟨long, magic, -⟩ := accepted_iff.mp (accepted frame (by simp))
      have head : u32At 0 (frame :: rest).flatten = egoFrameMagic := by
        rw [List.flatten_cons, contractPackets.magic_append _ _ long]
        exact magic
      dsimp only
      rw [if_pos head]

theorem packets_nil (F : PacketFormat) (chunkId : Int) : F.packets chunkId [] = [] := by
  rw [PacketFormat.packets, RecordFormat.records_nil]
  rfl

theorem chunkPackets_frames {reader : EgoLogReader} {chunkId : Int}
    (format : reader.format = .kContract ∨ reader.format = .kUnknown)
    (accepted : ∀ frame ∈ frames, Accepted m frame)
    (found : dir.lookup path = some frames.flatten) :
    reader.chunkPackets dir { path, chunkId } =
      (SegmentedLog.placeFrom 0 0 frames).map (contractPackets.ofPlacement chunkId) := by
  rw [← packets_flatten accepted, EgoLogReader.chunkPackets, found]
  dsimp only
  rcases format with contract | unknown
  · rw [EgoLogReader.formatOf, contract]
    rfl
  · rw [EgoLogReader.formatOf, if_pos unknown]
    rcases detectFormat_frames accepted found with contract | ⟨rfl, empty⟩
    · rw [contract]
      rfl
    · rw [List.flatten_nil, packets_nil, packets_nil]

end Chunk

theorem map_placeFrom_segment (F : PacketFormat) (chunkId : Int)
    (segment offset : Nat) (rs : List Bytes) :
    (SegmentedLog.placeFrom 0 offset rs).map (F.ofPlacement chunkId) =
      (SegmentedLog.placeFrom segment offset rs).map (F.ofPlacement chunkId) := by
  induction rs generalizing offset with
  | nil => rfl
  | cons r rs ih =>
      rw [SegmentedLog.placeFrom, SegmentedLog.placeFrom, List.map_cons, List.map_cons, ih]
      rfl

theorem carries_ofPlacement {m : UInt32} {p : Placement UInt8} (valid : Accepted m p.record)
    (small : p.segment < 2 ^ 31) :
    Carries p (contractPackets.ofPlacement (toInt32 p.segment) p) where
  isContract := rfl
  header := EgoFrameHeader.decode_take _ _ le_rfl
  bytes := by
    have header : EgoFrameHeader.decode (p.record.take egoFrameHeaderSize) =
        EgoFrameHeader.decode p.record :=
      EgoFrameHeader.decode_take _ _ le_rfl
    have whole := List.take_append_drop egoFrameHeaderSize p.record
    rw [← EgoFrameHeader.encode_decode _ valid.long, ← header] at whole
    exact whole
  chunkId := toInt32_of_lt small
  fileOffset := rfl

section Log
variable {m : UInt32} {logs : List ChunkLog} {run : WriterRun}

theorem manifestOf_eq (history : History logs run) :
    manifestOf run.writer = logs.mapIdx fun i _ =>
      { path := chunkFilename i, chunkId := toInt32 i } := by
  rw [manifestOf, history.1.chunks]
  refine List.ext_getElem? fun i => ?_
  simp only [List.getElem?_mapIdx, Option.map_map]
  congr 1
  funext log
  simp [ChunkLog.info_filename]

theorem format_create (history : History logs run) (intact : Intact logs)
    (accepted : ∀ frame ∈ run.written, Accepted m frame) :
    (EgoLogReader.create run.writer.dir (manifestOf run.writer)).format = .kContract ∨
      (EgoLogReader.create run.writer.dir (manifestOf run.writer)).format = .kUnknown := by
  rw [manifestOf_eq history]
  cases logs with
  | nil => exact Or.inr rfl
  | cons log rest =>
      have valid : ∀ frame ∈ log.frames, Accepted m frame := by
        intro frame member
        refine accepted frame ?_
        rw [← history.2]
        simp [framesOf, member]
      have found : run.writer.dir.lookup (chunkFilename 0) = some log.frames.flatten :=
        (writtenTo_history history intact).files 0 _ rfl
      rw [List.mapIdx_cons]
      rcases detectFormat_frames valid found with contract | ⟨-, empty⟩
      · exact Or.inl contract
      · exact Or.inr empty

theorem packets_history (history : History logs run) (intact : Intact logs)
    (accepted : ∀ frame ∈ run.written, Accepted m frame) :
    (EgoLogReader.create run.writer.dir (manifestOf run.writer)).packets run.writer.dir =
      (placementsOf logs).map fun p => contractPackets.ofPlacement (toInt32 p.segment) p := by
  have format := format_create history intact accepted
  have chunk (i : Nat) (log : ChunkLog) (found : logs[i]? = some log) :
      (EgoLogReader.create run.writer.dir (manifestOf run.writer)).chunkPackets run.writer.dir
          { path := chunkFilename i, chunkId := toInt32 i } =
        (SegmentedLog.placeFrom i 0 log.frames).map fun p =>
          contractPackets.ofPlacement (toInt32 p.segment) p := by
    have valid : ∀ frame ∈ log.frames, Accepted m frame := by
      intro frame member
      refine accepted frame ?_
      rw [← history.2]
      exact List.mem_flatten.mpr
        ⟨log.frames, List.mem_map_of_mem (List.mem_of_getElem? found), member⟩
    have file := (writtenTo_history history intact).files i log.frames (by simp [framesOf, found])
    rw [chunkPackets_frames format valid file, map_placeFrom_segment _ _ i]
    refine List.map_congr_left fun p member => ?_
    rw [(SegmentedLog.mem_placeFrom member).1]
  rw [EgoLogReader.packets, placementsOf, SegmentedLog.placements_eq_mapIdx,
    List.map_flatten, List.flatMap_def]
  congr 1
  rw [show (EgoLogReader.create run.writer.dir (manifestOf run.writer)).chunks =
    manifestOf run.writer from rfl, manifestOf_eq history]
  refine List.ext_getElem? fun i => ?_
  simp only [List.getElem?_map, List.getElem?_mapIdx, framesOf]
  cases found : logs[i]? with
  | none => rfl
  | some log =>
      simp only [Option.map_some]
      rw [← manifestOf_eq history, chunk i log found]

end Log

/-- The round trip of a recording whose chunk ids fit the reader's. -/
theorem scan_recording {m : UInt32} (config : RuntimeConfig) (now openNow : Int)
    (writes : List (WriteClock × ContractFrame m)) (closeNow : Int)
    (few : (recording config now openNow writes closeNow).writer.chunks.length ≤ 2 ^ 31) :
    (recording config now openNow writes closeNow).written =
      writes.map (fun write => write.2.bytes) ∧
      RoundTrip (recording config now openNow writes closeNow) := by
  refine ⟨recording_written writes closeNow, ?_⟩
  obtain ⟨logs, history, intact⟩ := history_recording writes closeNow (few.trans (by decide))
  have accepted : ∀ frame ∈ (recording config now openNow writes closeNow).written,
      Accepted m frame := by
    rw [recording_written]
    intro frame member
    obtain ⟨write, -, rfl⟩ := List.mem_map.mp member
    exact write.2.accepted
  refine ⟨framesOf logs, writtenTo_history history intact, ?_⟩
  have scanned := (EgoLogReader.create (recording config now openNow writes closeNow).writer.dir
    (manifestOf (recording config now openNow writes closeNow).writer)).scan_collect
      (recording config now openNow writes closeNow).writer.dir some
  rw [List.filterMap_some, packets_history history intact accepted] at scanned
  refine scanned ▸ List.forall₂_map_right_iff.mpr (List.forall₂_same.mpr fun p member => ?_)
  obtain ⟨older, frames, newer, split, segment, before, after, inside, -⟩ :=
    SegmentedLog.mem_placements member
  have valid : Accepted m p.record := by
    refine accepted _ ?_
    rw [← history.2, split, inside]
    simp
  have small : p.segment < 2 ^ 31 := by
    have count := (writtenTo_history history intact).count
    rw [split, List.length_append, List.length_cons] at count
    omega
  exact carries_ofPlacement valid small

theorem scan_sampleRecording : sampleRecording.writer.chunks.length = 2 ∧
    sampleRecording.written = (sampleWrites.map fun write => write.2.bytes) ∧
      RoundTrip sampleRecording :=
  ⟨sampleRecording_chunks,
    scan_recording sampleConfig 0 0 sampleWrites 0 (sampleRecording_chunks.le.trans (by decide))⟩

theorem chunkId_lt {dir : Dir} {w : ChunkWriter} {pkt : RawPacket}
    (member : pkt ∈ (EgoLogReader.create dir (manifestOf w)).packets dir) :
    pkt.chunkId < 2 ^ 31 := by
  obtain ⟨chunk, listed, bytes, -, contract | legacy⟩ := EgoLogReader.mem_packets member
  all_goals
    obtain ⟨i, bound, same⟩ := List.mem_mapIdx.mp listed
  · obtain ⟨offset, record, tail, -, -, rfl⟩ := PacketFormat.mem_packets contract
    rw [← same]
    exact toInt32_lt i
  · obtain ⟨offset, record, tail, -, -, rfl⟩ := PacketFormat.mem_packets legacy
    rw [← same]
    exact toInt32_lt i

theorem le_of_roundTrip_tiny {n : Nat} (bound : n < 2 ^ 32)
    (roundTrip : RoundTrip (tinyRecording n)) :
    n ≤ 2 ^ 31 := by
  obtain ⟨segments, written, carried⟩ := roundTrip
  have total : (SegmentedLog.placements segments).length = n := by
    rw [SegmentedLog.length_placements, written.frames, tinyRecording_written,
      List.length_replicate]
  have inside : ∀ p ∈ SegmentedLog.placements segments, p.segment < 2 ^ 31 := by
    intro p member
    obtain ⟨i, rfl⟩ := List.mem_iff_get.mp member
    have scanned :=
      (EgoLogReader.create (tinyRecording n).writer.dir
        (manifestOf (tinyRecording n).writer)).scan_collect
      (tinyRecording n).writer.dir some
    rw [List.filterMap_some] at scanned
    have packets : List.Forall₂ Carries (SegmentedLog.placements segments)
        ((EgoLogReader.create (tinyRecording n).writer.dir
          (manifestOf (tinyRecording n).writer)).packets
          (tinyRecording n).writer.dir) := by
      rw [← scanned]
      exact carried
    have short : i < ((EgoLogReader.create (tinyRecording n).writer.dir
        (manifestOf (tinyRecording n).writer)).packets (tinyRecording n).writer.dir).length :=
      i.isLt.trans_eq packets.length_eq
    have small := chunkId_lt (List.get_mem _ ⟨i, short⟩)
    rw [(packets.get i.isLt short).chunkId] at small
    exact Int.ofNat_lt.mp small
  have limited : ∀ frames ∈ segments, frames.length ≤ 1 := by
    intro frames member
    obtain ⟨i, found⟩ := List.getElem?_of_mem member
    have short : i < segments.length := (List.getElem?_eq_some_iff.mp found).1
    rw [written.count] at short
    have chunks := tinyRecording_chunks_le n
    have id : (UInt32.ofNat i).toNat = i := by
      rw [UInt32.toNat_ofNat']
      omega
    have size := tinyRecording_small n (UInt32.ofNat i)
    rw [id, Dir.content, written.files i frames found, Option.getD_some] at size
    have least : ∀ frame ∈ frames, egoFrameHeaderSize ≤ frame.length := by
      intro frame listed
      have all := written.frames ▸ List.mem_flatten.mpr ⟨frames, member, listed⟩
      rw [tinyRecording_written] at all
      rw [List.eq_of_mem_replicate all, length_tinyFrame]
    have product := (mul_length_le_flatten least).trans size
    exact Nat.le_of_mul_le_mul_right (product.trans_eq (Nat.one_mul _).symm) (by decide)
  have few := SegmentedLog.length_placements_le inside limited
  omega

theorem roundTrip_fails : ¬ RoundTrip (tinyRecording (2 ^ 31 + 1)) := fun roundTrip =>
  absurd (le_of_roundTrip_tiny (by decide) roundTrip) (by decide)

end LocalPC.Offline
