import LocalPC.Offline.EgoLogReader

namespace LocalPC.Offline
open Lib Contract LocalPC.Runtime

theorem PacketHeader.decode_append (front back : Bytes) (fits : kHeaderSize ≤ front.length) :
    PacketHeader.decode (front ++ back) = PacketHeader.decode front := by
  have inside (offset width : Nat) (le : offset + width ≤ 34) :
      field offset width (front ++ back) = field offset width front :=
    field_append_left _ _ _ _ (le.trans fits)
  simp [PacketHeader.decode, u16At, u32At, u64At, inside]

theorem PacketFormat.mem_packets {F : PacketFormat} {chunkId : Int}
    {bytes : Bytes} {pkt : RawPacket} (member : pkt ∈ F.packets chunkId bytes) :
    ∃ offset record tail, F.stream.IsRecord record ∧ bytes.drop offset = record ++ tail ∧
      pkt = F.packet chunkId offset (record.take F.headerSize) (record.drop F.headerSize) := by
  obtain ⟨p, placed, rfl⟩ := List.mem_map.mp member
  obtain ⟨-, before, after, split, offset⟩ := SegmentedLog.mem_placeFrom placed
  have record : F.stream.IsRecord p.record :=
    RecordFormat.isRecord_of_mem_records bytes p.record (by rw [split]; simp)
  have whole := RecordFormat.records_flatten (F := F.stream) bytes
  rw [split, List.flatten_append, List.flatten_cons] at whole
  refine ⟨p.offset, p.record, after.flatten ++ F.stream.remainder bytes, record, ?_, rfl⟩
  generalize F.stream.remainder bytes = torn at whole
  rw [← whole, offset, Nat.zero_add, List.append_assoc, List.append_assoc, List.drop_left]

namespace EgoLogReader
variable {reader : EgoLogReader} {dir : Dir}

theorem find_chunk {chunks : List ChunkInfo} (distinct : (chunks.map ChunkInfo.chunkId).Nodup)
    {chunk : ChunkInfo} (member : chunk ∈ chunks) :
    chunks.find? (fun c => c.chunkId = chunk.chunkId) = some chunk := by
  induction chunks with
  | nil => simp at member
  | cons first rest ih =>
      rw [List.map_cons, List.nodup_cons] at distinct
      rcases List.mem_cons.mp member with rfl | later
      · simp
      · have other : first.chunkId ≠ chunk.chunkId :=
          fun same => distinct.1 (same ▸ List.mem_map_of_mem later)
        rw [List.find?_cons_of_neg (by simpa using other), ih distinct.2 later]

theorem mem_packets {pkt : RawPacket} (member : pkt ∈ reader.packets dir) :
    ∃ chunk ∈ reader.chunks, ∃ bytes, dir.lookup chunk.path = some bytes ∧
      (pkt ∈ contractPackets.packets chunk.chunkId bytes ∨
        pkt ∈ legacyPackets.packets chunk.chunkId bytes) := by
  obtain ⟨chunk, listed, inside⟩ := List.mem_flatMap.mp member
  refine ⟨chunk, listed, ?_⟩
  unfold chunkPackets at inside
  cases found : dir.lookup chunk.path with
  | none => simp [found] at inside
  | some bytes =>
      rw [found] at inside
      dsimp only at inside
      split at inside
      · exact ⟨bytes, rfl, Or.inl inside⟩
      · exact ⟨bytes, rfl, Or.inr inside⟩

theorem readEntry_legacy (distinct : (reader.chunks.map ChunkInfo.chunkId).Nodup) {pkt : RawPacket}
    (member : pkt ∈ reader.packets dir) (legacy : pkt.isContract = false) :
    reader.readEntry dir (entryOf pkt) = some pkt := by
  obtain ⟨chunk, listed, bytes, found, contract | inside⟩ := mem_packets member
  · obtain ⟨offset, record, tail, -, -, rfl⟩ := PacketFormat.mem_packets contract
    cases legacy
  · obtain ⟨offset, record, tail, valid, position, rfl⟩ := PacketFormat.mem_packets inside
    obtain ⟨long, -, size, -⟩ := PacketFormat.stream_some valid
    have header : PacketHeader.decode (record.take kHeaderSize) = PacketHeader.decode record := by
      conv_rhs => rw [← List.take_append_drop kHeaderSize record]
      rw [PacketHeader.decode_append _ _
        (by rw [List.length_take]; exact (Nat.min_eq_left long).ge)]
    have payload : (record.drop kHeaderSize).length =
        (PacketHeader.decode record).payloadSize.toNat := by
      rw [List.length_drop, size]
      exact Nat.add_sub_cancel_left ..
    have reread : PacketHeader.decode (record ++ tail) = PacketHeader.decode record :=
      PacketHeader.decode_append _ _ long
    have rest : (record ++ tail).drop kHeaderSize = record.drop kHeaderSize ++ tail :=
      List.drop_append_of_le_length long
    have there : ¬ (record ++ tail).length < kHeaderSize := by
      rw [List.length_append]
      exact not_lt.mpr (long.trans (Nat.le_add_right ..))
    have fits : ¬ (record.drop kHeaderSize ++ tail).length <
        (PacketHeader.decode record).payloadSize.toNat := by
      rw [List.length_append, payload]
      exact not_lt.mpr (Nat.le_add_right ..)
    have taken : (record.drop kHeaderSize ++ tail).take
        (PacketHeader.decode record).payloadSize.toNat =
        record.drop kHeaderSize := by
      rw [← payload, List.take_left]
    simp only [readEntry, entryOf, legacyPackets, find_chunk distinct listed,
      found, Option.bind_eq_bind, Option.bind_some, position, there, if_false, reread,
        rest, fits, taken, header]
    rfl

theorem readEntry_isContract {e : IndexEntry} {pkt : RawPacket}
    (read : reader.readEntry dir e = some pkt) :
    pkt.isContract = false := by
  simp only [readEntry, Option.bind_eq_bind, Option.bind_eq_some_iff] at read
  obtain ⟨chunk, -, bytes, -, read⟩ := read
  split at read
  · cases read
  · split at read
    · cases read
    · cases read
      rfl

theorem BuildIndex.unnamed {result : Except StdException EgoLogReader}
    (built : BuildIndex reader dir [] result) :
    ∃ index, IsSorted (reader.unsortedIndex dir) index ∧
      result = .ok { reader with index, indexBuilt := true } := by
  cases built with
  | file bytes named => exact absurd rfl named
  | scan index absent sorted => exact ⟨index, sorted, rfl⟩

/-- `read_range` returns the packets that the scan finds in the interval, up to their order. -/
def Agrees (indexed fresh : EgoLogReader) (dir : Dir) (tStart tEnd : Int) : Prop :=
  ∃ fast slow, indexed.readRange dir tStart tEnd = some fast ∧
    fresh.readRange dir tStart tEnd = some slow ∧
    fast.Perm slow

theorem readRange_indexed (reader : EgoLogReader) {index : List IndexEntry}
    (ordered : SortedBy IndexEntry.tsNs index) (dir : Dir) (tStart tEnd : Int) :
    readRange { reader with index, indexBuilt := true } dir tStart tEnd =
      if lowerBound IndexEntry.tsNs tStart index ≤ upperBound IndexEntry.tsNs tEnd index then
        some ((index.filter fun e => tStart ≤ e.tsNs ∧ e.tsNs ≤ tEnd).filterMap
          (readEntry { reader with index, indexBuilt := true } dir))
      else none := by
  rw [← ordered.range_eq_filter]
  simp only [readRange, Bool.not_true, Bool.false_eq_true, if_false]
  by_cases le : lowerBound IndexEntry.tsNs tStart index ≤ upperBound IndexEntry.tsNs tEnd index
  · rw [if_pos le, if_neg (not_lt.mpr le)]
  · rw [if_neg le, if_pos (not_le.mp le)]

def InRange (tStart tEnd : Int) (pkt : RawPacket) : Prop :=
  tStart ≤ toInt64 pkt.header.tsNs ∧ toInt64 pkt.header.tsNs ≤ tEnd

instance (tStart tEnd : Int) (pkt : RawPacket) : Decidable (InRange tStart tEnd pkt) :=
  inferInstanceAs (Decidable (_ ∧ _))

theorem not_agrees_of_contract {indexed : EgoLogReader} {chunks : List ChunkInfo}
    (built : BuildIndex (create dir chunks) dir [] (.ok indexed))
    {tStart tEnd : Int} {pkt : RawPacket} (member : pkt ∈ (create dir chunks).packets dir)
    (inside : InRange tStart tEnd pkt) (contract : pkt.isContract = true) :
    ¬ Agrees indexed (create dir chunks) dir tStart tEnd := by
  rintro ⟨fast, slow, read, same, agree⟩
  obtain ⟨index, ⟨-, ordered⟩, built⟩ := built.unnamed
  cases built
  rw [readRange_scan rfl] at same
  cases same
  rw [readRange_indexed _ ordered] at read
  split at read
  · cases read
    have again := agree.symm.subset (List.mem_filter.mpr ⟨member, by simpa [InRange] using inside⟩)
    obtain ⟨e, -, read⟩ := List.mem_filterMap.mp again
    rw [readEntry_isContract read] at contract
    cases contract
  · cases read

/-- Indexed access agrees with the scan exactly when the interval holds legacy packets only, and,
if its ends are in the wrong order, no packet lies between them. -/
theorem readRange_agrees_iff {chunks : List ChunkInfo}
    (distinct : (chunks.map ChunkInfo.chunkId).Nodup) {indexed : EgoLogReader}
    (built : BuildIndex (create dir chunks) dir [] (.ok indexed)) (tStart tEnd : Int) :
    Agrees indexed (create dir chunks) dir tStart tEnd ↔
      (∀ pkt ∈ (create dir chunks).packets dir, InRange tStart tEnd pkt → pkt.isContract = false) ∧
      ∀ pkt ∈ (create dir chunks).packets dir,
        ¬ (tEnd < toInt64 pkt.header.tsNs ∧ toInt64 pkt.header.tsNs < tStart) := by
  have lost (pkt : RawPacket) (member : pkt ∈ (create dir chunks).packets dir)
      (inside : InRange tStart tEnd pkt)
      (contract : pkt.isContract = true) := not_agrees_of_contract built member inside contract
  obtain ⟨index, ⟨perm, ordered⟩, same⟩ := built.unnamed
  cases same
  rw [unsortedIndex_eq] at perm
  have slow : (create dir chunks).readRange dir tStart tEnd =
      some (((create dir chunks).packets dir).filter
      fun pkt => tStart ≤ toInt64 pkt.header.tsNs ∧ toInt64 pkt.header.tsNs ≤ tEnd) :=
          readRange_scan rfl ..
  have crossed : (lowerBound IndexEntry.tsNs tStart index ≤ upperBound IndexEntry.tsNs tEnd index) ↔
      ∀ pkt ∈ (create dir chunks).packets dir,
        ¬ (tEnd < toInt64 pkt.header.tsNs ∧ toInt64 pkt.header.tsNs < tStart) := by
    rw [ordered.lowerBound_le_upperBound_iff]
    constructor
    · intro none pkt member
      rw [← entryOf_tsNs]
      exact none (entryOf pkt) (perm.mem_iff.mpr (List.mem_map_of_mem member))
    · intro none e member
      obtain ⟨pkt, listed, rfl⟩ := List.mem_map.mp (perm.mem_iff.mp member)
      rw [entryOf_tsNs]
      exact none pkt listed
  have fast := (create dir chunks).readRange_indexed ordered dir tStart tEnd
  rw [← crossed]
  constructor
  · intro agrees
    refine ⟨fun pkt member inside => ?_, ?_⟩
    · cases contract : pkt.isContract with
      | false => rfl
      | true => exact absurd agrees (lost pkt member inside contract)
    · obtain ⟨found, -, read, -⟩ := agrees
      rw [fast] at read
      split at read
      · assumption
      · cases read
  · rintro ⟨legacy, le⟩
    rw [if_pos le] at fast
    refine ⟨_, _, fast, slow, ((perm.filter _).filterMap _).trans (List.Perm.of_eq ?_)⟩
    have same (pkt : RawPacket) (member : pkt ∈ (create dir chunks).packets dir)
        (inside : InRange tStart tEnd pkt) :
        readEntry { create dir chunks with index := index, indexBuilt := true } dir
          (entryOf pkt) = some pkt :=
      readEntry_legacy distinct member (legacy pkt member inside)
    rw [List.filter_map, List.filterMap_map]
    refine (List.filterMap_congr fun pkt member => ?_).trans List.filterMap_some
    obtain ⟨listed, inside⟩ := List.mem_filter.mp member
    rw [Function.comp_apply] at inside
    have within := of_decide_eq_true inside
    rw [entryOf_tsNs] at within
    exact same pkt listed within

def audioFrame : Bytes := sealFrame 100 7 10 11 [1]

def audioLog : Dir := (∅ : Dir).insert (chunkFilename 0) audioFrame

def audioChunks : List ChunkInfo := [{ path := chunkFilename 0 }]

def audioIndex : EgoLogReader :=
  { create audioLog audioChunks with
    index := sortedIndex (create audioLog audioChunks) audioLog, indexBuilt := true }

theorem audioIndex_built : BuildIndex (create audioLog audioChunks) audioLog [] (.ok audioIndex) :=
  .scan _ (Or.inl rfl) (isSorted_sortedIndex _ _)

theorem readRange_agrees_iff_audioLog :
    Agrees audioIndex (create audioLog audioChunks) audioLog 0 20 ↔
      (∀ pkt ∈ (create audioLog audioChunks).packets audioLog, InRange 0 20 pkt →
        pkt.isContract = false) ∧
      ∀ pkt ∈ (create audioLog audioChunks).packets audioLog,
        ¬ (20 < toInt64 pkt.header.tsNs ∧ toInt64 pkt.header.tsNs < 0) :=
  readRange_agrees_iff (by decide) audioIndex_built 0 20

/-- The frame is in the interval, and comes back without its contract header. -/
theorem audioLog_disagrees :
    BuildIndex (create audioLog audioChunks) audioLog [] (.ok audioIndex) ∧
      ¬ Agrees audioIndex (create audioLog audioChunks) audioLog 0 20 := by
  have accepted : Accepted 65536 audioFrame := sealFrame_accepted _ _ _ _ (by decide)
  have found : audioLog.lookup (chunkFilename 0) = some audioFrame := AList.lookup_insert _
  have format : detectFormat audioLog (chunkFilename 0) = .kContract := by decide
  have chunk : chunkPackets (create audioLog audioChunks) audioLog { path := chunkFilename 0 } =
      contractPackets.packets 0 [audioFrame].flatten := by
    simp only [chunkPackets, formatOf, create, audioChunks, found, format, List.flatten_singleton]
    rfl
  have member : contractPackets.ofPlacement 0 ⟨0, 0, audioFrame⟩ ∈
      (create audioLog audioChunks).packets audioLog := by
    refine List.mem_flatMap.mpr ⟨_, List.mem_singleton_self _, ?_⟩
    rw [chunk, packets_flatten (by simpa using accepted)]
    exact List.mem_singleton_self _
  exact ⟨audioIndex_built, not_agrees_of_contract audioIndex_built member (by decide +kernel) rfl⟩

end EgoLogReader
end LocalPC.Offline
