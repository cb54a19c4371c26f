import LocalPC.Runtime.CleanSession
import LocalPC.Offline.EgoLogReader

namespace LocalPC.Offline
open Lib Contract LocalPC.Runtime

structure Describes (p : Placement UInt8) (e : IndexEntry) : Prop where
  offset : e.offset = p.offset
  tsNs : e.tsNs = (EgoFrameHeader.decode p.record).t0Ns.toNat
  type : e.type.toNat = (EgoFrameHeader.decode p.record).frameType.toNat
  seq : e.seq.toNat = (EgoFrameHeader.decode p.record).seq.toNat
  chunkId : e.chunkId = p.segment

/-- `build_index` of the index file gives one entry for each frame, in the order of their times. -/
def IndexRoundTrip (reader : EgoLogReader) (run : WriterRun) : Prop :=
  ∃ segments placed indexed, WrittenTo segments run ∧
    placed.Perm (SegmentedLog.placements segments) ∧
    reader.BuildIndex run.writer.dir indexName (.ok indexed) ∧
    List.Forall₂ Describes placed indexed.index ∧ SortedBy IndexEntry.tsNs indexed.index

theorem length_mapM_except {α β ε : Type*} {f : α → Except ε β} {xs : List α} {ys : List β}
    (done : xs.mapM f = .ok ys) : ys.length = xs.length := by
  induction xs generalizing ys with
  | nil =>
      cases done
      rfl
  | cons x xs ih =>
      rw [List.mapM_cons] at done
      cases head : f x with
      | error e => simp [head, bind, Except.bind] at done
      | ok y =>
          cases tail : xs.mapM f with
          | error e => simp [head, tail, bind, Except.bind] at done
          | ok zs =>
              simp only [head, tail, bind, Except.bind, pure, Except.pure] at done
              cases done
              rw [List.length_cons, List.length_cons, ih tail]

theorem length_indexEntries {lines : List Bytes}
    (clean : ∀ line ∈ lines, newline ∉ line ∧ line ≠ []) {index : List IndexEntry}
    (read : EgoLogReader.indexEntries (lines.flatMap fun line => line ++ [newline]) = .ok index) :
    index.length = lines.length - 1 := by
  have split := getlines_lines fun line member => (clean line member).1
  have kept : lines.tail.filter (· ≠ []) = lines.tail := by
    refine List.filter_eq_self.mpr fun line member => ?_
    simpa using (clean line (List.mem_of_mem_tail member)).2
  rw [EgoLogReader.indexEntries, split, kept] at read
  rw [length_mapM_except read, List.length_tail]

theorem EgoLogReader.BuildIndex.named {reader : EgoLogReader} {dir : Dir} {path bytes : Bytes}
    {result : Except StdException EgoLogReader}
    (built : reader.BuildIndex dir path result) (named : path ≠ [])
    (found : dir.lookup path = some bytes) : result = reader.loadIndex bytes := by
  cases built with
  | file other _ here =>
      rw [found] at here
      cases here
      rfl
  | scan index absent => simp [named, found] at absent

theorem writes_eq_nil_of_roundTrip {m : UInt32} {reader : EgoLogReader}
    {config : RuntimeConfig} {now openNow : Int}
    {writes : List (WriteClock × ContractFrame m)} {closeNow : Int}
    (roundTrip : IndexRoundTrip reader (recording config now openNow writes closeNow)) :
    writes = [] := by
  obtain ⟨lines, found, count, clean⟩ := indexed_recording config now openNow writes closeNow
  obtain ⟨segments, placed, indexed, written, perm, built, described, -⟩ := roundTrip
  have loaded := (built.named (by decide) found).symm
  cases entries : EgoLogReader.indexEntries (lines.flatMap fun line => line ++ [newline]) with
  | error e => simp [EgoLogReader.loadIndex, entries, bind, Except.bind] at loaded
  | ok index =>
      simp only [EgoLogReader.loadIndex, entries, bind, Except.bind, pure, Except.pure,
        Except.ok.injEq] at loaded
      have short := length_indexEntries clean entries
      have same := described.length_eq
      rw [perm.length_eq, SegmentedLog.length_placements, written.frames, ← loaded, short,
        count, recording_written, List.length_map] at same
      exact List.length_eq_zero_iff.mp (by omega)

/-- The index of a recording comes back only if there is nothing in it. -/
theorem index_roundTrip_iff {m : UInt32} (reader : EgoLogReader)
    (config : RuntimeConfig) (now openNow : Int)
    (writes : List (WriteClock × ContractFrame m)) (closeNow : Int) :
    IndexRoundTrip reader (recording config now openNow writes closeNow) ↔ writes = [] := by
  constructor
  · exact writes_eq_nil_of_roundTrip
  · rintro rfl
    obtain ⟨lines, found, count, -⟩ := indexed_recording config now openNow
      ([] : List (WriteClock × ContractFrame m)) closeNow
    rw [recording_written, List.map_nil, List.length_nil, List.length_eq_zero_iff] at count
    subst count
    refine ⟨[[]], [], { reader with index := [], indexBuilt := false }, ⟨?_, rfl, ?_⟩, .nil,
      .file [] (by decide) found, .nil, .nil⟩
    · rw [recording_written]
      rfl
    · intro i frames inside
      match i, inside with
      | 0, rfl =>
          exact (lookup_flush _ (Files.chunk_ne_manifest 0) (Files.chunk_ne_tmp 0)).trans rfl

def audioRecording : WriterRun :=
  recording {} 0 0
    [({}, (⟨sealFrame 100 7 10 11 [1], sealFrame_accepted _ _ _ _ (by decide)⟩ :
      ContractFrame 65536))] 0

theorem audioRecording_index_lost :
    ¬ IndexRoundTrip
      (.create audioRecording.writer.dir [{ path := chunkFilename 0 }]) audioRecording :=
  fun roundTrip => absurd (writes_eq_nil_of_roundTrip roundTrip) (List.cons_ne_nil _ _)

end LocalPC.Offline
