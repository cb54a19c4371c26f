import LocalPC.Runtime.SegmentRuns
import LocalPC.Offline.GapEvents
import LocalPC.Offline.PacketLoss

namespace LocalPC.Offline
open Lib Contract LocalPC.Runtime Json

def verifyPacketCount (manifest : EgoManifest) (dir : Dir) : UInt64 × Bool :=
  let actual :=
    (EgoLogReader.create dir manifest.chunks).scan dir (fun _ (n : UInt64) => (true, n + 1)) 0
  (actual, manifest.packetCount = 0 ∨ actual = manifest.packetCount)

def ShowsLoss (cfg : Config) (manifest : EgoManifest) (dir : Dir) : Prop :=
  (verifyPacketCount manifest dir).2 = false ∨
  ∃ sv, scanEgo cfg manifest dir = some sv ∧
    (0 < sv.packetsLost ∨ sv.gapEvents ≠ [] ∨ sv.fileOk = false)

/-- Reading the session shows a loss. Where `from_json` throws, none of the checks runs. -/
def ReadingShowsLoss (cfg : Config) (dir : Dir) : Prop :=
  ∃ manifest, EgoManifest.fromJson [] dir manifestName = .ok manifest ∧ ShowsLoss cfg manifest dir

/-- Chunk file `k` is replaced by its first `cut` bytes. -/
def truncateChunk (k cut : Nat) (dir : Dir) : Dir :=
  dir.insert (chunkFilename k) ((dir.content (chunkFilename k)).take cut)

def wholeWithin : Nat → List Bytes → List Bytes
  | _, [] => []
  | cut, frame :: rest =>
      if frame.length ≤ cut then frame :: wholeWithin (cut - frame.length) rest else []

/-- The frames that are left when the file of segment `k` is cut. -/
def framesLeft (segments : List (List Bytes)) (k cut : Nat) : List Bytes :=
  (segments.modify k (wholeWithin cut)).flatten

/-- The scan gets through the frames, and two of them stand next to each other that should not. -/
def ScanNotices (cfg : Config) (frames : List Bytes) : Prop :=
  (∀ frame ∈ frames, audioTraps (packetOf frame) = false) ∧ Breaks cfg (frames.map packetOf)

def Torn (m : UInt32) (torn : Bytes) : Prop :=
  torn = [] ∨ ∃ rest, Accepted m (torn ++ rest) ∧ rest ≠ []

def HoldsCut (m : UInt32) (dir : Dir) (path : Bytes) (frames : List Bytes) : Prop :=
  ∃ torn, Torn m torn ∧ dir.lookup path = some (frames.flatten ++ torn)

theorem take_flatten {m : UInt32} {frames : List Bytes}
    (accepted : ∀ frame ∈ frames, Accepted m frame) (cut : Nat) :
    ∃ torn, Torn m torn ∧ frames.flatten.take cut = (wholeWithin cut frames).flatten ++ torn := by
  induction frames generalizing cut with
  | nil => exact ⟨[], Or.inl rfl, by simp [wholeWithin]⟩
  | cons frame rest ih =>
      obtain ⟨here, later⟩ := List.forall_mem_cons.mp accepted
      rw [wholeWithin, List.flatten_cons]
      split
      · rename_i fits
        obtain ⟨torn, part, split⟩ := ih later (cut - frame.length)
        refine ⟨torn, part, ?_⟩
        rw [List.take_append, List.take_of_length_le fits, split,
          List.flatten_cons, List.append_assoc]
      · rename_i short
        refine ⟨frame.take cut, Or.inr ⟨frame.drop cut, ?_, ?_⟩, ?_⟩
        · rwa [List.take_append_drop]
        · rw [Ne, List.drop_eq_nil_iff]
          exact short
        · rw [List.take_append_of_le_length (by omega)]
          rfl

namespace Torn
variable {m : UInt32} {torn : Bytes}

theorem contract_none (part : Torn m torn) : contractPackets.stream.size? torn = none := by
  rcases part with rfl | ⟨rest, accepted, more⟩
  · exact RecordFormat.size_nil
  · exact (contractPackets_isRecord accepted).cut more

theorem magic (part : Torn m torn) : u32At 0 torn = egoFrameMagic ∨ torn.length < 4 := by
  rcases part with rfl | ⟨rest, accepted, -⟩
  · exact Or.inr (by decide)
  · by_cases short : torn.length < 4
    · exact Or.inr short
    · left
      have whole := (accepted_iff.mp accepted).2.1
      rw [← whole]
      show u32At 0 torn = u32At 0 (torn ++ rest)
      rw [u32At, u32At, field_append_left _ _ _ _ (by omega)]

theorem short_magic (short : torn.length < 4) :
    u32At 0 torn ≠ egoFrameMagic ∧ u32At 0 torn ≠ kMagic := by
  have bound : field 0 4 torn < 256 ^ 3 := by
    have few : torn.take 4 = torn.take 3 := by
      rw [List.take_of_length_le (by omega), List.take_of_length_le (by omega)]
    have below := field_lt 0 3 torn
    unfold field at below ⊢
    rwa [List.drop_zero, few]
  have value : (u32At 0 torn).toNat = field 0 4 torn := u32At_toNat 0 torn
  constructor <;>
  · intro same
    rw [same] at value
    rw [← value] at bound
    exact absurd bound (by decide)

end Torn

section Chunk
variable {m : UInt32} {frames : List Bytes} {dir : Dir} {path : Bytes}

theorem detectFormat_cut (accepted : ∀ frame ∈ frames, Accepted m frame)
    {torn : Bytes} (part : Torn m torn) (found : dir.lookup path = some (frames.flatten ++ torn)) :
    detectFormat dir path = .kContract ∨ detectFormat dir path = .kUnknown ∧
      frames = [] ∧ torn.length < 4 := by
  unfold detectFormat
  rw [found]
  dsimp only
  cases frames with
  | nil =>
      rw [List.flatten_nil, List.nil_append]
      by_cases short : torn.length < 4
      · obtain ⟨notContract, notLegacy⟩ := Torn.short_magic short
        rw [if_neg notContract, if_neg notLegacy]
        exact Or.inr ⟨rfl, rfl, short⟩
      · rw [if_pos (part.magic.resolve_right short)]
        exact Or.inl rfl
  | cons frame rest =>
      obtain ⟨long, magic, -⟩ := accepted_iff.mp (accepted frame List.mem_cons_self)
      have head : u32At 0 ((frame :: rest).flatten ++ torn) = egoFrameMagic := by
        rw [List.flatten_cons, List.append_assoc, contractPackets.magic_append _ _ long]
        exact magic
      rw [if_pos head]
      exact Or.inl rfl

theorem chunkPackets_cut {reader : EgoLogReader} {chunk : ChunkInfo}
    (format : reader.format = .kContract ∨ reader.format = .kUnknown)
    (accepted : ∀ frame ∈ frames, Accepted m frame) (holds : HoldsCut m dir chunk.path frames) :
    reader.chunkPackets dir chunk =
      (SegmentedLog.placeFrom 0 0 frames).map (contractPackets.ofPlacement chunk.chunkId) := by
  obtain ⟨torn, part, found⟩ := holds
  have contract : contractPackets.packets chunk.chunkId (frames.flatten ++ torn) =
      (SegmentedLog.placeFrom 0 0 frames).map (contractPackets.ofPlacement chunk.chunkId) := by
    rw [PacketFormat.packets, RecordFormat.records_append fun frame member =>
      contractPackets_isRecord (accepted frame member),
        RecordFormat.records_of_none part.contract_none, List.append_nil]
  rw [EgoLogReader.chunkPackets, found]
  dsimp only
  rcases format with known | unknown
  · rw [EgoLogReader.formatOf, known,
      if_neg (by decide : ¬ EgoBinFormat.kContract = .kUnknown), if_pos rfl, contract]
  · rw [EgoLogReader.formatOf, if_pos unknown]
    rcases detectFormat_cut accepted part found with contracted | ⟨nothing, rfl, short⟩
    · rw [contracted, if_pos rfl, contract]
    · have stop : legacyPackets.stream.size? torn = none := by
        simp only [PacketFormat.stream]
        rw [if_pos (short.trans (by decide))]
      rw [nothing, if_neg (by decide), List.flatten_nil, List.nil_append, PacketFormat.packets,
        RecordFormat.records_of_none stop]
      rfl

end Chunk

def unplaced (raw : RawPacket) : RawPacket := { raw with chunkId := 0, fileOffset := 0 }

theorem feedAll_unplaced (cfg : Config) (pkts : List RawPacket) (acc : ScanAccumulator) :
    ScanAccumulator.feedAll cfg (pkts.map unplaced) acc = ScanAccumulator.feedAll cfg pkts acc := by
  unfold ScanAccumulator.feedAll
  rw [List.foldl_map]
  rfl

theorem unplaced_placeFrom (chunkId : Int) (frames : List Bytes) :
    ((SegmentedLog.placeFrom 0 0 frames).map (contractPackets.ofPlacement chunkId)).map unplaced =
      frames.map packetOf := by
  rw [List.map_map]
  conv_rhs => rw [← SegmentedLog.map_record_placeFrom 0 0 frames, List.map_map]
  rfl

section Log
variable {m : UInt32} {segments : List (List Bytes)} {chunks : List ChunkInfo} {dir : Dir}

theorem create_format_cut
    (files : List.Forall₂ (fun chunk frames => HoldsCut m dir chunk.path frames) chunks segments)
    (accepted : ∀ frame ∈ segments.flatten, Accepted m frame) :
    (EgoLogReader.create dir chunks).format = .kContract ∨
      (EgoLogReader.create dir chunks).format = .kUnknown := by
  cases files with
  | nil => exact Or.inr rfl
  | cons file rest =>
      obtain ⟨torn, part, found⟩ := file
      have valid :=
        fun frame member => accepted frame (List.mem_flatten_of_mem List.mem_cons_self member)
      exact (detectFormat_cut valid part found).imp_right And.left

theorem flatMap_chunkPackets_cut {reader : EgoLogReader}
    (format : reader.format = .kContract ∨ reader.format = .kUnknown)
    (files : List.Forall₂ (fun chunk frames => HoldsCut m dir chunk.path frames) chunks segments)
    (accepted : ∀ frame ∈ segments.flatten, Accepted m frame) :
    (chunks.flatMap (reader.chunkPackets dir)).map unplaced = segments.flatten.map packetOf := by
  induction files with
  | nil => rfl
  | @cons chunk frames chunks segments file files ih =>
      have here :=
        fun frame member => accepted frame (List.mem_flatten_of_mem List.mem_cons_self member)
      have later := ih fun frame member => accepted frame (List.mem_append_right _ member)
      rw [List.flatMap_cons, List.flatten_cons, List.map_append, List.map_append, later,
        chunkPackets_cut format here file, unplaced_placeFrom]

theorem packets_cut
    (files : List.Forall₂ (fun chunk frames => HoldsCut m dir chunk.path frames) chunks segments)
    (accepted : ∀ frame ∈ segments.flatten, Accepted m frame) :
    ((EgoLogReader.create dir chunks).packets dir).map unplaced = segments.flatten.map packetOf :=
  flatMap_chunkPackets_cut (create_format_cut files accepted) files accepted

end Log

theorem showsLoss_iff (cfg : Config) {m : UInt32} {manifest : EgoManifest}
    {dir : Dir} {frames : List Bytes} (accepted : ∀ frame ∈ frames, Accepted m frame)
    (packets : ((EgoLogReader.create dir manifest.chunks).packets dir).map unplaced =
      frames.map packetOf)
    (noTotal : manifest.packetCount = 0) (chunks : manifest.chunks ≠ []) :
    ShowsLoss cfg manifest dir ↔ ScanNotices cfg frames := by
  have ok : ∀ raw ∈ frames.map packetOf, packetOk raw = true := by
    intro raw member
    obtain ⟨frame, inside, rfl⟩ := List.mem_map.mp member
    exact packetOk_packetOf (accepted frame inside)
  have counted : (verifyPacketCount manifest dir).2 = true := by simp [verifyPacketCount, noTotal]
  have scanned : scanEgo cfg manifest dir =
      (ScanAccumulator.feedAll cfg (frames.map packetOf) { sv := { fileOk := true } }).map
        fun acc => acc.sv := by
    rw [scanEgo_eq, ← feedAll_unplaced, packets, decide_eq_true chunks]
  have passes :
      (ScanAccumulator.feedAll cfg (frames.map packetOf) { sv := { fileOk := true } }).isSome =
        true ↔
      ∀ frame ∈ frames, audioTraps (packetOf frame) = false := by
    rw [ScanAccumulator.feedAll_isSome]
    exact ⟨fun untrapped frame member =>
      untrapped _ (List.mem_map_of_mem member) (packetOk_packetOf (accepted frame member)),
        fun untrapped raw member _ => by
        obtain ⟨frame, inside, rfl⟩ := List.mem_map.mp member
        exact untrapped frame inside⟩
  unfold ShowsLoss ScanNotices
  rw [counted, scanned, ← passes]
  constructor
  · rintro (wrong | ⟨sv, result, shown⟩)
    · cases wrong
    · obtain ⟨acc, fed, rfl⟩ := Option.map_eq_some_iff.mp result
      have finds := ScanAccumulator.finds_of_feedAll ok fed
      refine ⟨Option.isSome_iff_exists.mpr ⟨acc, fed⟩, finds.events.mp ?_⟩
      rcases shown with lost | events | bad
      · exact finds.lost (UInt64.pos_iff_ne_zero.mp lost)
      · exact events
      · rw [ScanAccumulator.fileOk_of_feedAll fed] at bad
        cases bad
  · rintro ⟨some_, breaks⟩
    obtain ⟨acc, fed⟩ := Option.isSome_iff_exists.mp some_
    exact Or.inr
      ⟨acc.sv, by rw [fed]; rfl,
        Or.inr (Or.inl ((ScanAccumulator.finds_of_feedAll ok fed).events.mpr breaks))⟩

theorem manifest_of_session {chunks : List Runtime.ChunkInfo} {dir : Dir} {manifest : EgoManifest}
    (found : dir.lookup manifestName = some (manifestJson chunks))
    (named : ∀ (i : Nat) c, chunks[i]? = some c → c.filename = chunkFilename i)
    (read : EgoManifest.fromJson [] dir manifestName = .ok manifest) :
    manifest.packetCount = 0 ∧
      manifest.chunks.map ChunkInfo.path = (List.range chunks.length).map chunkFilename := by
  unfold EgoManifest.fromJson at read
  rw [found] at read
  dsimp only at read
  cases all : allRead (chunks.mapIdx chunkRead) with
  | none =>
      obtain ⟨e, failed⟩ := jsonParse_manifestJson_error all
      rw [failed] at read
      cases read
  | some vs =>
      rw [jsonParse_manifestJson all] at read
      cases read
      refine ⟨rfl, ?_⟩
      have signed := (allRead_chunks_iff chunks).mp ⟨vs, all⟩
      rw [chunks_ofJson, List.map_map]
      refine List.ext_getElem? fun i => ?_
      have entry := congrArg (·[i]?) (allRead_mapIdx all)
      simp only [List.getElem?_mapIdx, List.getElem?_map] at entry ⊢
      cases inside : chunks[i]? with
      | none =>
          rw [inside] at entry
          have short := List.getElem?_eq_none_iff.mp inside
          rw [Option.map_eq_none_iff.mp entry.symm, List.getElem?_eq_none (by simpa using short)]
          rfl
      | some c =>
          rw [inside] at entry
          obtain ⟨v, value, here⟩ := Option.map_eq_some_iff.mp entry.symm
          have short := (List.getElem?_eq_some_iff.mp inside).1
          rw [value, List.getElem?_range short, Option.map_some,
            Option.map_some, Function.comp_apply,
              chunkOfJson_signed (signed i c inside) ⟨i, named i c inside⟩ here.symm,
                named i c inside]
          show some (joinPath [] (chunkFilename i)) = _
          rw [joinPath, if_pos (Or.inr rfl)]

theorem wholeWithin_subset (cut : Nat) (frames : List Bytes) : wholeWithin cut frames ⊆ frames := by
  induction frames generalizing cut with
  | nil => exact List.Subset.refl _
  | cons frame rest ih =>
      rw [wholeWithin]
      split
      · exact List.cons_subset_cons frame (ih _)
      · exact List.nil_subset _

theorem framesLeft_subset (segments : List (List Bytes)) (k cut : Nat) :
    framesLeft segments k cut ⊆ segments.flatten := by
  intro frame member
  obtain ⟨frames, listed, inside⟩ := List.mem_flatten.mp member
  obtain ⟨i, bound, rfl⟩ := List.mem_iff_getElem.mp listed
  rw [List.length_modify] at bound
  refine List.mem_flatten.mpr ⟨segments[i], List.getElem_mem bound, ?_⟩
  rw [List.getElem_modify] at inside
  split at inside
  · exact wholeWithin_subset cut _ inside
  · exact inside

section Session
variable {segments : List (List Bytes)} {w : ChunkWriter}

theorem lookup_updateManifest (w : ChunkWriter) (i : Nat) :
    (w.updateManifest .done).dir.lookup (chunkFilename i) = w.dir.lookup (chunkFilename i) :=
  lookup_writeTextAtomic _ _ _ _ (Files.chunk_ne_manifest i) (Files.chunk_ne_tmp i)

theorem lookup_truncateChunk (k cut : Nat) (w : ChunkWriter) :
    (truncateChunk k cut (w.updateManifest .done).dir).lookup manifestName =
      some (manifestJson w.chunks) := by
  rw [truncateChunk, AList.lookup_insert_ne (Files.chunk_ne_manifest k).symm]
  exact AList.lookup_insert _

theorem holdsCut_truncateChunk {m : UInt32} (holds : Runtime.Holds segments w)
    (accepted : ∀ frame ∈ segments.flatten, Accepted m frame) (k cut : Nat) :
    List.Forall₂
      (fun i frames =>
        HoldsCut m (truncateChunk k cut (w.updateManifest .done).dir) (chunkFilename i) frames)
          (List.range segments.length) (segments.modify k (wholeWithin cut)) := by
  refine List.forall₂_iff_get.mpr ⟨by simp, fun i bound _ => ?_⟩
  rw [List.length_range] at bound
  have file : (w.updateManifest .done).dir.lookup (chunkFilename i) = some segments[i].flatten :=
    (lookup_updateManifest w i).trans (holds.files.file i _ (List.getElem?_eq_getElem bound))
  rw [List.get_eq_getElem, List.get_eq_getElem, List.getElem_range, List.getElem_modify]
  by_cases here : k = i
  · subst here
    have valid :=
      fun frame member => accepted frame (List.mem_flatten_of_mem (List.getElem_mem bound) member)
    obtain ⟨torn, part, split⟩ := take_flatten valid cut
    refine ⟨torn, part, ?_⟩
    rw [if_pos rfl, ← split, truncateChunk, AList.lookup_insert,
      Dir.content, file, Option.getD_some]
  · refine ⟨[], Or.inl rfl, ?_⟩
    rw [if_neg here, truncateChunk,
      AList.lookup_insert_ne (fun same => here (chunkFilename_injective same).symm), file,
        List.append_nil]

theorem showsLoss_truncateChunk {m : UInt32} (holds : Runtime.Holds segments w)
    (accepted : ∀ frame ∈ segments.flatten, Accepted m frame) (cfg : Config) {k : Nat} (cut : Nat)
    {manifest : EgoManifest} (inside : k < segments.length)
    (read : EgoManifest.fromJson []
      (truncateChunk k cut (w.updateManifest .done).dir) manifestName = .ok manifest) :
    ShowsLoss cfg manifest (truncateChunk k cut (w.updateManifest .done).dir) ↔
      ScanNotices cfg (framesLeft segments k cut) := by
  obtain ⟨noTotal, paths⟩ :=
    manifest_of_session (lookup_truncateChunk k cut w) (fun i c => holds.filename) read
  rw [holds.length_chunks] at paths
  have files : List.Forall₂
      (fun chunk frames =>
        HoldsCut m (truncateChunk k cut (w.updateManifest .done).dir) chunk.path frames)
      manifest.chunks (segments.modify k (wholeWithin cut)) := by
    rw [← List.forall₂_map_left_iff, paths, List.forall₂_map_left_iff]
    exact holdsCut_truncateChunk holds accepted k cut
  have left : ∀ frame ∈ (segments.modify k (wholeWithin cut)).flatten, Accepted m frame :=
    fun frame member => accepted frame (framesLeft_subset segments k cut member)
  refine showsLoss_iff cfg left (packets_cut files left) noTotal fun none => ?_
  rw [none] at paths
  have lengths := congrArg List.length paths
  rw [List.map_nil, List.length_nil, List.length_map, List.length_range] at lengths
  omega

end Session

theorem fromJson_truncateChunk_iff (k cut : Nat) (w : ChunkWriter) :
    (∃ manifest,
      EgoManifest.fromJson []
        (truncateChunk k cut (w.updateManifest .done).dir) manifestName = .ok manifest) ↔
      ∀ i c, w.chunks[i]? = some c → Signed i c := by
  rw [← allRead_chunks_iff]
  unfold EgoManifest.fromJson
  rw [lookup_truncateChunk]
  dsimp only
  cases all : allRead (w.chunks.mapIdx chunkRead) with
  | none =>
      obtain ⟨e, failed⟩ := jsonParse_manifestJson_error all
      rw [failed]
      exact ⟨fun ⟨_, read⟩ => (by cases read), fun ⟨_, read⟩ => (by cases read)⟩
  | some vs =>
      rw [jsonParse_manifestJson all]
      exact ⟨fun _ => ⟨vs, rfl⟩, fun _ => ⟨_, rfl⟩⟩

/-- Reading a session of which one chunk file is cut short shows a loss if and only if its manifest
is read and the scan finds a break between two frames that are left. -/
theorem truncation_shown_iff {config : RuntimeConfig} {now : Int} {run : WriterRun} {m : UInt32}
    (reached : (writerMachine config now).Reach (SoundCall m) run) :
    ∃ segments, WrittenTo segments run ∧
      ∀ (cfg : Config) (k cut : Nat) (frames : List Bytes),
        segments[k]? = some frames → cut < frames.flatten.length →
        (ReadingShowsLoss cfg (truncateChunk k cut (run.writer.updateManifest .done).dir) ↔
          (∀ i c, run.writer.chunks[i]? = some c → Signed i c) ∧
            ScanNotices cfg (framesLeft segments k cut)) := by
  obtain ⟨⟨segments, holds, written⟩, accepted⟩ := holds_of_reach reached
  rw [← written] at accepted
  refine ⟨segments, ⟨written, holds.length_chunks.symm, holds.files.file⟩,
    fun cfg k cut frames found _ => ?_⟩
  have inside : k < segments.length := (List.getElem?_eq_some_iff.mp found).1
  constructor
  · rintro ⟨manifest, read, shown⟩
    exact ⟨(fromJson_truncateChunk_iff k cut run.writer).mp ⟨manifest, read⟩,
      (showsLoss_truncateChunk holds accepted cfg cut inside read).mp shown⟩
  · rintro ⟨signed, noticed⟩
    obtain ⟨manifest, read⟩ := (fromJson_truncateChunk_iff k cut run.writer).mpr signed
    exact ⟨manifest, read, (showsLoss_truncateChunk holds accepted cfg cut inside read).mpr noticed⟩

def seqFrame (seq : UInt64) : Bytes := sealFrame 100 seq 10 11 [1]

def seqCalls (seqs : List UInt64) : List WriterCall :=
  .open (.clean 0) :: seqs.map fun seq => .write (.clean {}) (seqFrame seq)

def seqRun (seqs : List UInt64) : WriterRun := (seqCalls seqs).foldl WriterRun.step (.fresh {} 0)

theorem seqFrame_accepted (seq : UInt64) : Accepted 65536 (seqFrame seq) :=
  sealFrame_accepted _ _ _ _ (by decide)

theorem signed_of_forall {chunks : List Runtime.ChunkInfo} (few : chunks.length ≤ 2 ^ 63)
    (small : ∀ c ∈ chunks, c.bytes < 2 ^ 63 ∧ c.firstTsNs.toNat < 2 ^ 63 ∧
      c.lastTsNs.toNat < 2 ^ 63)
    (i : Nat) (c : Runtime.ChunkInfo) (found : chunks[i]? = some c) : Signed i c := by
  obtain ⟨bytes, first, last⟩ := small c (List.mem_of_getElem? found)
  exact ⟨by have := (List.getElem?_eq_some_iff.mp found).1; omega, bytes, first, last⟩

theorem segments_of_single {frames : List Bytes} {segments : List (List Bytes)}
    (one : segments.length = 1) (flat : segments.flatten = frames) : segments = [frames] := by
  obtain ⟨only, rfl⟩ := List.length_eq_one_iff.mp one
  rw [← flat, List.flatten_singleton]

theorem gappedRun_shown :
    ReadingShowsLoss {}
      (truncateChunk 0 154 ((seqRun [7, 9, 10]).writer.updateManifest .done).dir) := by
  have reached : (writerMachine {} 0).Reach (SoundCall 65536) (seqRun [7, 9, 10]) :=
    .foldl ⟨⟨trivial, by decide, trivial⟩, ⟨rfl, by decide, seqFrame_accepted 7⟩,
      ⟨rfl, by decide, seqFrame_accepted 9⟩, ⟨rfl, by decide, seqFrame_accepted 10⟩, trivial⟩
  obtain ⟨segments, written, shown⟩ := truncation_shown_iff reached
  have one : segments = [[seqFrame 7, seqFrame 9, seqFrame 10]] :=
    segments_of_single (written.count.trans (by decide)) written.frames
  have left : framesLeft segments 0 154 = [seqFrame 7, seqFrame 9] := by
    rw [one]
    decide +kernel
  refine (shown {} 0 154 [seqFrame 7, seqFrame 9, seqFrame 10] ?_ ?_).mpr
    ⟨signed_of_forall (by decide) (by decide), ?_⟩
  · rw [one]
    rfl
  · decide +kernel
  · rw [left]
    exact ⟨by decide,
      Or.inl ⟨[], packetOf (seqFrame 7), packetOf (seqFrame 9), [], rfl, Or.inl (by decide)⟩⟩

/-- The last frame of a session is cut off, and nothing shows it. -/
theorem lastFrame_unnoticed :
    (writerMachine {} 0).Reach (SoundCall 65536) (seqRun [7, 8]) ∧
    77 < (((seqRun [7, 8]).writer.updateManifest .done).dir.content (chunkFilename 0)).length ∧
    (∀ i c, (seqRun [7, 8]).writer.chunks[i]? = some c → Signed i c) ∧
    ¬ ReadingShowsLoss {}
      (truncateChunk 0 77 ((seqRun [7, 8]).writer.updateManifest .done).dir) := by
  have reached : (writerMachine {} 0).Reach (SoundCall 65536) (seqRun [7, 8]) :=
    .foldl ⟨⟨trivial, by decide, trivial⟩, ⟨rfl, by decide, seqFrame_accepted 7⟩,
      ⟨rfl, by decide, seqFrame_accepted 8⟩, trivial⟩
  obtain ⟨⟨segments, holds, written⟩, accepted⟩ := holds_of_reach reached
  have one : segments = [[seqFrame 7, seqFrame 8]] :=
    segments_of_single (holds.length_chunks.symm.trans (by decide)) written
  have left : framesLeft segments 0 77 = [seqFrame 7] := by
    rw [one]
    decide +kernel
  rw [← written] at accepted
  refine ⟨reached, by decide, signed_of_forall (by decide) (by decide),
    fun ⟨manifest, read, shown⟩ => ?_⟩
  have noticed := (showsLoss_truncateChunk holds accepted {} 77 (by rw [one]; decide) read).mp shown
  rw [left] at noticed
  exact not_breaks_singleton {} (packetOf (seqFrame 7)) noticed.2

end LocalPC.Offline
