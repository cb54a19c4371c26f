import LocalPC.Offline.Checksum
import LocalPC.Offline.StreamValidation

/-!
# The single scan of the pipeline

`pipeline.cpp`: the scan callback of `run_validate`, which `run_full` repeats word for word, and the
accumulator that it feeds. The demuxers of the callback only touch the decoded streams.
-/

namespace LocalPC.Offline
open Lib Contract LocalPC.Runtime

/-! ## The checks of the callback -/

inductive ParseStatus
  | ok
  | badMagic
  | badVersion
  | truncated
  | crcFail
  | sizeExceeded
  deriving DecidableEq, Repr

def kProtocolVersion : UInt16 := 1
def kMaxPayloadSize : UInt32 := 8192

/-- The status that `BinaryParser::validate` finds. -/
def BinaryParser.validate (raw : RawPacket) : ParseStatus :=
  if raw.header.magic ≠ kMagic then .badMagic
  else if raw.header.protocolVersion ≠ kProtocolVersion then .badVersion
  else if kMaxPayloadSize < raw.header.payloadSize then .sizeExceeded
  else if raw.payload.length < raw.header.payloadSize.toNat then .truncated
  else if 0 < raw.header.payloadSize ∧
      crc32 (raw.payload.take raw.header.payloadSize.toNat) ≠ raw.header.checksum then .crcFail
  else .ok

def contractOk (raw : RawPacket) : Bool :=
  let h := raw.contractHeader
  h.magic = egoFrameMagic ∧ h.payloadSize.toNat = raw.payload.length ∧
    (0 < h.payloadSize → crc32 (raw.payload.take h.payloadSize.toNat) = h.payloadCrc32) ∧
    crc32 { h with headerCrc32 := 0 }.encode = h.headerCrc32

def packetOk (raw : RawPacket) : Bool :=
  if raw.isContract then contractOk raw else BinaryParser.validate raw = .ok

/-! ## The accumulator -/

structure ScanAccumulator extends ScanState where
  prevSeq : UInt32 := 0
  deriving DecidableEq, Repr

namespace ScanAccumulator

def feed (cfg : Config) (raw : RawPacket) (crcOk : Bool) (acc : ScanAccumulator) :
    Option ScanAccumulator :=
  let acc := { acc with sv.packetsTotal := acc.sv.packetsTotal + 1 }
  if crcOk = false then
    some { acc with
      sv.packetsCrcFailed := acc.sv.packetsCrcFailed + 1
      sv.packetsLost := acc.sv.packetsLost + 1 }
  else
    let acc := { acc with sv.packetsValid := acc.sv.packetsValid + 1 }
    let ts := toInt64 raw.header.tsNs
    let sv := if acc.first then acc.sv
      else acc.sv.seqGap "ego" (acc.prevSeq + 1) raw.header.seq ts acc.prevTs
    let sv := if ts = 0 then { sv with timestampViolations := sv.timestampViolations + 1 } else sv
    if audioTraps raw then none
    else some { toScanState := { acc.toScanState with sv }.checkTimes cfg raw ts,
                prevSeq := raw.header.seq }

/-- The accumulator after these packets, each with the result of the callback's check. -/
def feedAll (cfg : Config) (pkts : List RawPacket) (acc : ScanAccumulator) :
    Option ScanAccumulator :=
  pkts.foldl (fun acc raw => acc.bind (feed cfg raw (packetOk raw))) (some acc)

end ScanAccumulator

/-- The scan of the ego log in `run_validate` and in `run_full`. -/
def scanEgo (cfg : Config) (manifest : EgoManifest) (dir : Dir) : Option StreamValidation :=
  let acc := (EgoLogReader.create dir manifest.chunks).scan dir
    (fun raw acc => (true, acc.bind (ScanAccumulator.feed cfg raw (packetOk raw))))
    (some { sv := { fileOk := manifest.chunks ≠ [] } })
  acc.map fun acc => acc.sv

/-! ## Recorded frames pass the check -/

theorem contractOk_iff {raw : RawPacket} :
    contractOk raw = true ↔
      raw.contractHeader.magic = egoFrameMagic ∧
        raw.contractHeader.payloadSize.toNat = raw.payload.length ∧
      (0 < raw.contractHeader.payloadSize.toNat →
        crc32 raw.payload = raw.contractHeader.payloadCrc32) ∧
      crc32 { raw.contractHeader with headerCrc32 := 0 }.encode =
        raw.contractHeader.headerCrc32 := by
  unfold contractOk
  dsimp only
  rw [decide_eq_true_iff, UInt32.lt_iff_toNat_lt]
  apply and_congr_right
  intro _
  apply and_congr_right
  intro size
  rw [size, List.take_length]
  rfl

theorem ofPlacement_contractHeader {p : Placement UInt8} (chunkId : Int) :
    (contractPackets.ofPlacement chunkId p).contractHeader = EgoFrameHeader.decode p.record :=
  EgoFrameHeader.decode_take p.record egoFrameHeaderSize (le_refl _)

theorem ofPlacement_payload {p : Placement UInt8} (chunkId : Int) :
    (contractPackets.ofPlacement chunkId p).payload = p.record.drop egoFrameHeaderSize := rfl

theorem contractOk_of_accepted {m : UInt32} {p : Placement UInt8}
    (accepted : Accepted m p.record) (chunkId : Int) :
    contractOk (contractPackets.ofPlacement chunkId p) = true := by
  obtain ⟨-, magic, -, -, size, payload, header⟩ := accepted_iff.mp accepted
  rw [contractOk_iff, ofPlacement_contractHeader, ofPlacement_payload, crc32_eq, crc32_eq]
  refine ⟨magic, ?_, payload, header⟩
  rw [List.length_drop]
  omega

/-- The chunk files of a manifest hold accepted frames and nothing else. -/
def HoldsFrames (chunks : List ChunkInfo) (dir : Dir) : Prop :=
  ∀ chunk ∈ chunks, ∀ bytes, dir.lookup chunk.path = some bytes →
    ∃ frames : List Bytes, (∀ frame ∈ frames, ∃ m, Accepted m frame) ∧ bytes = frames.flatten

theorem detectFormat_of_frames {dir : Dir} {path : Bytes} {frames : List Bytes}
    (accepted : ∀ frame ∈ frames, ∃ m, Accepted m frame)
    (found : dir.lookup path = some frames.flatten) :
    detectFormat dir path = if frames = [] then .kUnknown else .kContract := by
  unfold detectFormat
  rw [found]
  cases frames with
  | nil => rfl
  | cons frame rest =>
      obtain ⟨m, valid⟩ := accepted frame List.mem_cons_self
      obtain ⟨long, magic, -⟩ := accepted_iff.mp valid
      have head : u32At 0 (frame :: rest).flatten = egoFrameMagic := by
        show u32At 0 (frame ++ rest.flatten) = egoFrameMagic
        rw [← magic, u32At, field_append_left _ _ _ _ (le_trans (by decide) long)]
        rfl
      dsimp only
      rw [if_pos head, if_neg (List.cons_ne_nil _ _)]

theorem create_format {chunks : List ChunkInfo} {dir : Dir} (holds : HoldsFrames chunks dir) :
    (EgoLogReader.create dir chunks).format ≠ .kLegacy := by
  cases chunks with
  | nil => exact EgoBinFormat.noConfusion
  | cons first rest =>
      show detectFormat dir first.path ≠ .kLegacy
      cases found : dir.lookup first.path with
      | none =>
          rw [detectFormat, found]
          exact EgoBinFormat.noConfusion
      | some bytes =>
          obtain ⟨frames, accepted, rfl⟩ := holds first List.mem_cons_self bytes found
          rw [detectFormat_of_frames accepted found]
          split <;> exact EgoBinFormat.noConfusion

theorem chunkPackets_of_frames {chunks : List ChunkInfo} {dir : Dir}
    (holds : HoldsFrames chunks dir) {chunk : ChunkInfo} {frames : List Bytes}
    (accepted : ∀ frame ∈ frames, ∃ m, Accepted m frame)
    (found : dir.lookup chunk.path = some frames.flatten) :
    (EgoLogReader.create dir chunks).chunkPackets dir chunk =
      (SegmentedLog.placeFrom 0 0 frames).map (contractPackets.ofPlacement chunk.chunkId) := by
  have contract : contractPackets.packets chunk.chunkId frames.flatten =
      (SegmentedLog.placeFrom 0 0 frames).map (contractPackets.ofPlacement chunk.chunkId) := by
    rw [PacketFormat.packets, RecordFormat.records_of_flatten fun frame member =>
      (accepted frame member).elim fun m valid => contractPackets_isRecord valid]
  have format := create_format holds
  have detected := detectFormat_of_frames accepted found
  unfold EgoLogReader.chunkPackets EgoLogReader.formatOf
  rw [found]
  dsimp only
  by_cases empty : frames = []
  · subst empty
    have nothing (F : PacketFormat) : F.packets chunk.chunkId [].flatten = [] := by
      show (SegmentedLog.placeFrom 0 0 (F.stream.records [])).map _ = []
      rw [RecordFormat.records_nil]
      rfl
    exact nothing _
  · rw [if_neg empty] at detected
    cases known : (EgoLogReader.create dir chunks).format with
    | kUnknown => rw [if_pos rfl, detected, if_pos rfl, contract]
    | kLegacy => exact absurd known format
    | kContract =>
        rw [if_neg (by decide : ¬ EgoBinFormat.kContract = .kUnknown), if_pos rfl, contract]

theorem packet_of_frames {chunks : List ChunkInfo} {dir : Dir}
    (holds : HoldsFrames chunks dir) {pkt : RawPacket}
    (member : pkt ∈ (EgoLogReader.create dir chunks).packets dir) :
    ∃ m chunkId, ∃ p :
    Placement UInt8, Accepted m p.record ∧ pkt = contractPackets.ofPlacement chunkId p := by
  obtain ⟨chunk, listed, inside⟩ := List.mem_flatMap.mp member
  cases found : dir.lookup chunk.path with
  | none => simp [EgoLogReader.chunkPackets, found] at inside
  | some bytes =>
      obtain ⟨frames, accepted, rfl⟩ := holds chunk listed bytes found
      rw [chunkPackets_of_frames holds accepted found] at inside
      obtain ⟨p, placed, rfl⟩ := List.mem_map.mp inside
      obtain ⟨-, before, after, split, -⟩ := SegmentedLog.mem_placeFrom placed
      obtain ⟨m, valid⟩ := accepted p.record (by rw [split]; simp)
      exact ⟨m, chunk.chunkId, p, valid, rfl⟩

/-! ## Counting -/

namespace ScanAccumulator

theorem foldl_none (cfg : Config) (pkts : List RawPacket) :
    pkts.foldl (fun acc raw => acc.bind (feed cfg raw (packetOk raw))) none = none := by
  induction pkts with
  | nil => rfl
  | cons raw pkts ih => exact ih

theorem feedAll_cons (cfg : Config) (raw : RawPacket) (pkts : List RawPacket)
    (acc : ScanAccumulator) :
    feedAll cfg (raw :: pkts) acc = (feed cfg raw (packetOk raw) acc).bind (feedAll cfg pkts) := by
  unfold feedAll
  rw [List.foldl_cons]
  show pkts.foldl _ (feed cfg raw (packetOk raw) acc) = _
  cases feed cfg raw (packetOk raw) acc with
  | none => exact foldl_none cfg pkts
  | some acc => rfl

def countSeq (raw : RawPacket) (acc : ScanAccumulator) : StreamValidation :=
  let sv := { acc.sv with
    packetsTotal := acc.sv.packetsTotal + 1, packetsValid := acc.sv.packetsValid + 1 }
  let ts := toInt64 raw.header.tsNs
  let sv := if acc.first then sv else sv.seqGap "ego" (acc.prevSeq + 1) raw.header.seq ts acc.prevTs
  if ts = 0 then { sv with timestampViolations := sv.timestampViolations + 1 } else sv

theorem feed_true (cfg : Config) (raw : RawPacket) (acc : ScanAccumulator) :
    feed cfg raw true acc =
      if audioTraps raw then none
      else some
        { toScanState := { acc.toScanState with sv := acc.countSeq raw }.checkTimes cfg raw
            (toInt64 raw.header.tsNs)
          prevSeq := raw.header.seq } := rfl

theorem countSeq_eq (raw : RawPacket) (acc : ScanAccumulator) :
    ∃ lost events, acc.countSeq raw =
      { acc.sv with
        packetsTotal := acc.sv.packetsTotal + 1
        packetsValid := acc.sv.packetsValid + 1
        packetsLost := lost
        timestampViolations :=
          acc.sv.timestampViolations + (if toInt64 raw.header.tsNs = 0 then 1 else 0)
        gapEvents := events } := by
  unfold countSeq
  obtain ⟨lost, events, gap⟩ := StreamValidation.seqGap_eq "ego" (acc.prevSeq + 1) raw.header.seq
    (toInt64 raw.header.tsNs) acc.prevTs
    { acc.sv with packetsTotal := acc.sv.packetsTotal + 1, packetsValid := acc.sv.packetsValid + 1 }
  dsimp only
  rw [gap]
  by_cases zero : toInt64 raw.header.tsNs = 0
  · rw [if_pos zero, if_pos zero]
    split <;> exact ⟨_, _, rfl⟩
  · rw [if_neg zero, if_neg zero]
    split <;> exact ⟨_, _, rfl⟩

theorem feed_packets {cfg : Config} {raw : RawPacket} {ok : Bool} {acc after : ScanAccumulator}
    (fed : feed cfg raw ok acc = some after) :
    after.packets = (acc.sv.packetsTotal + 1, acc.sv.packetsValid + (if ok then 1 else 0),
      acc.sv.packetsCrcFailed + (if ok then 0 else 1)) := by
  cases ok with
  | false =>
      cases fed
      rfl
  | true =>
      rw [feed_true] at fed
      split at fed
      · cases fed
      · cases fed
        obtain ⟨lost, events, counted⟩ := countSeq_eq raw acc
        apply ((ScanState.quiet_checkTimes cfg raw _).packets _).trans
        rw [counted]
        rfl

theorem feedAll_packets {cfg : Config} {pkts : List RawPacket} {acc after : ScanAccumulator}
    (fed : feedAll cfg pkts acc = some after) :
    after.packets = (acc.sv.packetsTotal + pkts.length, acc.sv.packetsValid + pkts.countP packetOk,
      acc.sv.packetsCrcFailed + pkts.countP (!packetOk ·)) := by
  induction pkts generalizing acc with
  | nil =>
      cases fed
      rfl
  | cons raw pkts ih =>
      rw [feedAll_cons] at fed
      obtain ⟨next, first, rest⟩ := Option.bind_eq_some_iff.mp fed
      have here := feed_packets first
      unfold ScanState.packets at here
      rw [Prod.mk.injEq, Prod.mk.injEq] at here
      rw [ih rest, here.1, here.2.1, here.2.2, List.length_cons, List.countP_cons, List.countP_cons]
      cases packetOk raw <;> simp +arith

theorem feed_isSome (cfg : Config) (raw : RawPacket) (acc : ScanAccumulator) :
    (feed cfg raw (packetOk raw) acc).isSome = true ↔
      (packetOk raw = true → audioTraps raw = false) := by
  cases ok : packetOk raw with
  | false =>
      constructor
      · intro _ passes
        exact absurd passes Bool.false_ne_true
      · intro _
        rfl
  | true =>
      rw [feed_true]
      cases audioTraps raw <;> simp

theorem feedAll_isSome (cfg : Config) (pkts : List RawPacket) (acc : ScanAccumulator) :
    (feedAll cfg pkts acc).isSome = true ↔ ∀ raw ∈ pkts, packetOk raw = true →
      audioTraps raw = false := by
  induction pkts generalizing acc with
  | nil => exact ⟨fun _ raw member => absurd member List.not_mem_nil, fun _ => rfl⟩
  | cons raw pkts ih =>
      rw [feedAll_cons, List.forall_mem_cons, ← feed_isSome cfg raw acc]
      cases feed cfg raw (packetOk raw) acc with
      | none => simp
      | some next => exact (ih next).trans (by simp)

end ScanAccumulator

theorem scanEgo_eq (cfg : Config) (manifest : EgoManifest) (dir : Dir) :
    scanEgo cfg manifest dir =
      (ScanAccumulator.feedAll cfg ((EgoLogReader.create dir manifest.chunks).packets dir)
        { sv := { fileOk := manifest.chunks ≠ [] } }).map fun acc => acc.sv := by
  unfold scanEgo ScanAccumulator.feedAll
  rw [EgoLogReader.scan_all]

theorem scanContractChunk_frames {frames : List Bytes}
    (accepted : ∀ frame ∈ frames, ∃ m, Accepted m frame) (chunkId : Int) :
    scanContractChunk chunkId (fun raw oks => (true, oks ++ [contractOk raw])) frames.flatten [] =
      frames.map fun _ => true := by
  unfold scanContractChunk
  rw [PacketFormat.scanChunk_all chunkId (fun raw oks => oks ++ [contractOk raw]),
    PacketFormat.packets, RecordFormat.records_of_flatten fun frame member =>
      (accepted frame member).elim fun m valid => contractPackets_isRecord valid]
  have collect (pkts : List RawPacket) (oks : List Bool) :
      pkts.foldl (fun oks raw => oks ++ [contractOk raw]) oks = oks ++ pkts.map contractOk := by
    induction pkts generalizing oks with
    | nil => simp
    | cons raw pkts ih => rw [List.foldl_cons, ih, List.append_assoc]; rfl
  rw [collect, List.nil_append, List.map_map]
  have passes : ∀ p ∈ SegmentedLog.placeFrom 0 0 frames,
      (contractOk ∘ contractPackets.ofPlacement chunkId) p = true := by
    intro p placed
    obtain ⟨-, before, after, split, -⟩ := SegmentedLog.mem_placeFrom placed
    obtain ⟨m, valid⟩ := accepted p.record (by rw [split]; simp)
    exact contractOk_of_accepted valid chunkId
  rw [List.map_congr_left passes, List.map_const', List.map_const']
  have length := congrArg List.length (SegmentedLog.map_record_placeFrom 0 0 frames)
  rw [List.length_map] at length
  rw [length]

/-- Every frame that the recorder accepts passes the check, and a scan of recorded frames has
counted no checksum failure, wherever it is. -/
theorem recordedFrames_pass :
    (∀ frames : List Bytes, (∀ frame ∈ frames, ∃ m, Accepted m frame) → ∀ chunkId,
      scanContractChunk chunkId (fun raw oks => (true, oks ++ [contractOk raw])) frames.flatten [] =
        frames.map fun _ => true) ∧
    (∀ cfg (manifest : EgoManifest) dir, HoldsFrames manifest.chunks dir →
      ∀ seen, seen <+: (EgoLogReader.create dir manifest.chunks).packets dir →
      ∀ acc, ScanAccumulator.feedAll cfg seen { sv := { fileOk := manifest.chunks ≠ [] } } =
        some acc →
        acc.sv.packetsCrcFailed = 0) := by
  refine ⟨fun frames accepted chunkId => scanContractChunk_frames accepted chunkId, ?_⟩
  intro cfg manifest dir holds seen seenPart acc fed
  have counted := ScanAccumulator.feedAll_packets fed
  have intact : ∀ raw ∈ seen, ¬ (!packetOk raw) = true := by
    intro raw member
    obtain ⟨m, chunkId, p, valid, rfl⟩ := packet_of_frames holds (seenPart.subset member)
    have passes : packetOk (contractPackets.ofPlacement chunkId p) = true :=
      contractOk_of_accepted valid chunkId
    rw [passes]
    decide
  rw [List.countP_eq_zero.mpr intact] at counted
  exact congrArg (fun counts => counts.2.2) counted

def shortFrames : List Bytes :=
  [sealFrame frameSessionStarted 5 0 0 [], sealFrame frameSessionEnded 6 9 9 [7]]
def shortDir : Dir := AList.singleton [99] shortFrames.flatten
def shortManifest : EgoManifest := { chunks := [{ path := [99] }] }

theorem shortFrames_accepted : ∀ frame ∈ shortFrames, ∃ m, Accepted m frame := by
  intro frame member
  refine ⟨100, ?_⟩
  rcases List.mem_cons.mp member with rfl | rest
  · exact sealFrame_accepted _ _ _ _ (by decide)
  · rw [List.mem_singleton.mp rest]
    exact sealFrame_accepted _ _ _ _ (by decide)

theorem shortDir_holds : HoldsFrames shortManifest.chunks shortDir := by
  intro chunk listed bytes found
  rw [List.mem_singleton.mp listed] at found
  refine ⟨shortFrames, shortFrames_accepted, ?_⟩
  cases found
  rfl

theorem shortDir_packets : (EgoLogReader.create shortDir shortManifest.chunks).packets shortDir =
    (SegmentedLog.placeFrom 0 0 shortFrames).map (contractPackets.ofPlacement 0) := by
  show List.flatMap _ [_] = _
  rw [List.flatMap_singleton]
  exact chunkPackets_of_frames shortDir_holds shortFrames_accepted rfl

theorem shortLog_pass :
    scanContractChunk 0 (fun raw oks => (true, oks ++ [contractOk raw])) shortFrames.flatten [] =
      [true, true] ∧
    ∃ acc, ScanAccumulator.feedAll {}
      ((EgoLogReader.create shortDir shortManifest.chunks).packets shortDir)
        { sv := { fileOk := shortManifest.chunks ≠ [] } } = some acc ∧
          acc.sv.packetsCrcFailed = 0 := by
  have untrapped : ∀ raw ∈ (SegmentedLog.placeFrom 0 0 shortFrames).map
      (contractPackets.ofPlacement 0),
      packetOk raw = true → audioTraps raw = false := by
    intro raw member _
    rcases List.mem_cons.mp member with rfl | rest
    · rfl
    · rw [List.mem_singleton.mp rest]
      rfl
  rw [← shortDir_packets] at untrapped
  obtain ⟨acc, fed⟩ :=
    Option.isSome_iff_exists.mp ((ScanAccumulator.feedAll_isSome {} _ _).mpr untrapped)
  exact ⟨recordedFrames_pass.1 shortFrames shortFrames_accepted 0, acc, fed,
    recordedFrames_pass.2 {} shortManifest shortDir shortDir_holds _ (List.prefix_refl _) acc fed⟩

end LocalPC.Offline
