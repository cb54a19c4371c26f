import LocalPC.Offline.KilledRecorder
import LocalPC.Offline.PipelineRun
import LocalPC.Offline.SingleScan
import LocalPC.Runtime.CleanSession

namespace LocalPC.Offline
open Lib Contract LocalPC.Runtime

/-- Nothing lies behind this frame's payload that the scan would read, and no sample rate of zero in
it. -/
structure Harmless (frame : Bytes) : Prop where
  noTrap : audioTraps (packetOf frame) = false
  noOverrun : ¬ ((EgoFrameHeader.decode frame).frameType = 100 ∧
    ContractDemuxer.AudioOverrun (frame.drop egoFrameHeaderSize))

def stampOf (frame : Bytes) : UInt32 × Int :=
  ((EgoFrameHeader.decode frame).seq.toUInt32, toInt64 (EgoFrameHeader.decode frame).t0Ns)

def Jumps (previous seq : UInt32) : Prop := previous + 1 < seq ∧ 10 < seq - (previous + 1)

instance (previous seq : UInt32) : Decidable (Jumps previous seq) :=
  inferInstanceAs (Decidable (_ ∧ _))

def jumpTimes : List (UInt32 × Int) → List Int
  | (previous, _) :: (seq, t) :: rest =>
      (if Jumps previous seq then [t] else []) ++ jumpTimes ((seq, t) :: rest)
  | [_] => []
  | [] => []

def firstTime : List Int → Int
  | [] => 0
  | t :: rest => rest.foldl min t

def recordedSpans (stamps : List (UInt32 × Int)) : List (Int × Int) :=
  let first := firstTime (stamps.map Prod.snd)
  let last := (stamps.map Prod.snd).foldl max 0
  if last ≤ first then [] else pieces last first ((jumpTimes stamps).mergeSort fun a b => a ≤ b)

theorem errorTimes_jump (streamId : String) (previous seq : UInt32) (t prevT : Int) :
    (StreamValidation.seqGap streamId (previous + 1) seq t prevT {}).errorTimes =
      if Jumps previous seq then [t] else [] := by
  unfold StreamValidation.seqGap
  by_cases higher : previous + 1 < seq
  · have differ : seq ≠ previous + 1 := fun same => absurd (same ▸ higher) (UInt32.lt_irrefl _)
    rw [if_pos ⟨differ, higher⟩]
    by_cases many : 10 < seq - (previous + 1)
    · rw [if_pos (show Jumps previous seq from ⟨higher, many⟩)]
      simp only [StreamValidation.errorTimes, StreamValidation.push, many, if_true]
      rfl
    · rw [if_neg (show ¬ Jumps previous seq from fun jump => many jump.2)]
      simp only [StreamValidation.errorTimes, StreamValidation.push, many, if_false]
      rfl
  · rw [if_neg fun both => higher both.2,
      if_neg (show ¬ Jumps previous seq from fun jump => higher jump.1)]
    rfl

theorem errorTimes_jumps (streamId : String) (stamps : List (UInt32 × Int)) :
    (checkSeqGaps streamId stamps {}).errorTimes = jumpTimes stamps := by
  induction stamps with
  | nil => rfl
  | cons head rest ih =>
      cases rest with
      | nil => rfl
      | cons next rest =>
          rw [jumpTimes, ← ih, ← errorTimes_jump streamId head.1 next.1 next.2 head.2]
          exact errorTimes_checkSeqGaps streamId (next :: rest) (List.append_nil _).symm

namespace ScanAccumulator

theorem range_feedAll {cfg : Config} {pkts : List RawPacket} {acc after : ScanAccumulator}
    (intact : ∀ raw ∈ pkts, packetOk raw = true) (fed : feedAll cfg pkts acc = some after) :
    (acc.first = false → after.sv.tFirstNs = (pkts.map nsOf).foldl min acc.sv.tFirstNs) ∧
      (acc.first = true → acc.sv.tFirstNs = 0 → after.sv.tFirstNs = firstTime (pkts.map nsOf)) ∧
      after.sv.tLastNs = (pkts.map nsOf).foldl max acc.sv.tLastNs := by
  induction pkts generalizing acc with
  | nil =>
      cases fed
      exact ⟨fun _ => rfl, fun _ zero => zero, rfl⟩
  | cons raw pkts ih =>
      obtain ⟨ok, later⟩ := List.forall_mem_cons.mp intact
      rw [feedAll_cons, ok] at fed
      obtain ⟨next, here, rest⟩ := Option.bind_eq_some_iff.mp fed
      obtain ⟨-, begun, first, last⟩ := range_feed here
      obtain ⟨started, -, stop⟩ := ih later rest
      rw [ScanState.updateRange] at first last
      dsimp only at first last
      refine ⟨fun old => ?_, fun fresh _ => ?_, ?_⟩
      · have least :
            (if toInt64 raw.header.tsNs < acc.sv.tFirstNs then toInt64 raw.header.tsNs
              else acc.sv.tFirstNs) =
            min acc.sv.tFirstNs (nsOf raw) := by
          rw [min_def, nsOf]
          split <;> split <;> omega
        rw [started begun, List.map_cons, List.foldl_cons, first, old]
        simp only [Bool.false_eq_true, false_or, least]
      · rw [started begun, first, fresh, if_pos (.inl rfl)]
        rfl
      · have most :
            (if acc.sv.tLastNs < toInt64 raw.header.tsNs then toInt64 raw.header.tsNs
              else acc.sv.tLastNs) =
            max acc.sv.tLastNs (nsOf raw) := by
          rw [max_def, nsOf]
          split <;> split <;> omega
        rw [stop, List.map_cons, List.foldl_cons, last, most]

end ScanAccumulator

theorem packetsOf_intact {frames : List Bytes}
    (accepted : ∀ frame ∈ frames, ∃ m, Accepted m frame) :
    ∀ raw ∈ frames.map packetOf, packetOk raw = true := by
  intro raw member
  obtain ⟨frame, inside, rfl⟩ := List.mem_map.mp member
  exact (accepted frame inside).elim fun m valid => packetOk_packetOf valid

structure ScannedAs (frames : List Bytes) (sv : StreamValidation) : Prop where
  fileOk : sv.fileOk = true
  total : sv.packetsTotal = frames.length
  valid : sv.packetsValid = frames.length
  bad : sv.packetsCrcFailed = 0
  first : sv.tFirstNs = firstTime ((frames.map stampOf).map Prod.snd)
  last : sv.tLastNs = ((frames.map stampOf).map Prod.snd).foldl max 0
  errors : sv.errorTimes = jumpTimes (frames.map stampOf)

theorem ScannedAs.of_feedAll {cfg : Config} {frames : List Bytes} {acc : ScanAccumulator}
    (accepted : ∀ frame ∈ frames, ∃ m, Accepted m frame)
    (fed : ScanAccumulator.feedAll cfg
      (frames.map packetOf) { sv := { fileOk := true } } = some acc) :
    ScannedAs frames acc.sv := by
  have intact := packetsOf_intact accepted
  have header (frame : Bytes) : EgoFrameHeader.decode (frame.take egoFrameHeaderSize) =
      EgoFrameHeader.decode frame :=
    EgoFrameHeader.decode_take _ _ le_rfl
  have stamp (frame : Bytes) : ((packetOf frame).header.seq, nsOf (packetOf frame)) =
      stampOf frame := by
    show ((EgoFrameHeader.decode (frame.take egoFrameHeaderSize)).seq.toUInt32,
      toInt64 (EgoFrameHeader.decode (frame.take egoFrameHeaderSize)).t0Ns) = _
    rw [header]
    rfl
  have times : (frames.map packetOf).map nsOf = (frames.map stampOf).map Prod.snd := by
    rw [List.map_map, List.map_map]
    exact List.map_congr_left fun frame _ => congrArg Prod.snd (stamp frame)
  have stamps : seqTs (frames.map packetOf) = frames.map stampOf := by
    rw [seqTs, List.filter_eq_self.mpr intact, List.map_map]
    exact List.map_congr_left fun frame _ => stamp frame
  have none : (frames.map packetOf).countP (!packetOk ·) = 0 :=
    List.countP_eq_zero.mpr fun raw member => by rw [intact raw member]; decide
  have counted := ScanAccumulator.feedAll_packets fed
  rw [List.countP_eq_length.mpr intact, none, List.length_map] at counted
  unfold ScanState.packets at counted
  simp only [Prod.mk.injEq, Nat.zero_add] at counted
  obtain ⟨-, first, last⟩ := ScanAccumulator.range_feedAll intact fed
  have errors := (ScanAccumulator.tracked_of_feedAll fed).loss.2
  rw [stamps] at errors
  rw [times] at first last
  exact
    { fileOk := ScanAccumulator.fileOk_of_feedAll fed
      total := counted.1
      valid := counted.2.1
      bad := counted.2.2
      first := first rfl rfl
      last := last
      errors := errors.trans (errorTimes_jumps "ego" _) }

theorem ReadsFrames.packets {dir : Dir} {frames : List Bytes} (reads : ReadsFrames dir frames) :
    ∃ manifest, EgoManifest.fromJson [] dir manifestName = .ok manifest ∧ manifest.chunks ≠ [] ∧
      ((EgoLogReader.create dir manifest.chunks).packets dir).map unplaced =
        frames.map packetOf := by
  obtain ⟨manifest, read, chunks, scanned⟩ := reads
  refine ⟨manifest, read, chunks, ?_⟩
  rw [← List.filterMap_eq_map]
  exact ((EgoLogReader.create dir manifest.chunks).scan_collect dir fun pkt =>
    some (unplaced pkt)).symm.trans scanned

namespace Pipeline

theorem feedWith_eq_ok {σ : Type} {cfg : Config} {ok : Bool}
    {demux : RawPacket → σ → Reading σ} {raw : RawPacket} {s t : ScanAccumulator × σ} :
    feedWith cfg ok demux raw s = .ok t ↔
      (if ok then demux raw s.2 = .ok t.2 else s.2 = t.2) ∧ s.1.feed cfg raw ok = some t.1 := by
  unfold feedWith
  cases ok with
  | false => cases s.1.feed cfg raw false <;> simp [bind, Except.bind, Prod.ext_iff, and_comm]
  | true =>
      cases demux raw s.2 with
      | error fault => simp [Except.mapError, bind, Except.bind]
      | ok out =>
          cases s.1.feed cfg raw true <;>
            simp [Except.mapError, bind, Except.bind, Prod.ext_iff, and_comm]

theorem demuxEgo_inBounds_iff {m : UInt32} {frame : Bytes} (accepted : Accepted m frame)
    (out : DecodedEgoStreams) :
    InBounds (demuxEgo (packetOf frame) out) ↔
      ¬ ((EgoFrameHeader.decode frame).frameType = 100 ∧
        ContractDemuxer.AudioOverrun (frame.drop egoFrameHeaderSize)) := by
  obtain ⟨-, -, -, -, size, -, -⟩ := accepted_iff.mp accepted
  have header : (packetOf frame).contractHeader = EgoFrameHeader.decode frame :=
    ofPlacement_contractHeader 0
  have payload : (packetOf frame).payload = frame.drop egoFrameHeaderSize := rfl
  have length : (EgoFrameHeader.decode frame).payloadSize.toNat =
      (frame.drop egoFrameHeaderSize).length := by
    rw [List.length_drop]
    omega
  rw [demuxEgo, if_pos (show (packetOf frame).isContract = true from rfl), header, payload, length]
  refine Iff.trans ?_ (ContractDemuxer.demux_inBounds_iff (EgoFrameHeader.decode frame) _ out)
  cases ContractDemuxer.demux (EgoFrameHeader.decode frame) (frame.drop egoFrameHeaderSize)
    (frame.drop egoFrameHeaderSize).length out with
  | error fault => exact iff_of_false (not_inBounds_error fault) (not_inBounds_error fault)
  | ok value => exact iff_of_true (inBounds_ok value.2) (inBounds_ok value)

theorem callback_ok_iff (cfg : Config) {m : UInt32} {frame : Bytes} (accepted : Accepted m frame)
    (s : ScanAccumulator × DecodedEgoStreams) :
    (∃ t, egoCallback cfg (packetOf frame) (.ok s) = .ok t) ↔ Harmless frame := by
  have ok := packetOk_packetOf accepted
  have fed := ScanAccumulator.feed_isSome cfg (packetOf frame) s.1
  have read := demuxEgo_inBounds_iff accepted s.2
  show (∃ t, feedWith cfg (packetOk (packetOf frame)) demuxEgo (packetOf frame) s = .ok t) ↔ _
  simp only [ok, feedWith_eq_ok, if_true, forall_const] at fed ⊢
  constructor
  · rintro ⟨t, demuxed, counted⟩
    exact ⟨fed.mp (Option.isSome_iff_exists.mpr ⟨_, counted⟩), read.mp ⟨_, demuxed⟩⟩
  · rintro ⟨noTrap, noOverrun⟩
    obtain ⟨acc, counted⟩ := Option.isSome_iff_exists.mp (fed.mpr noTrap)
    obtain ⟨out, demuxed⟩ := read.mpr noOverrun
    exact ⟨(acc, out), demuxed, counted⟩

theorem foldl_callback_error (cfg : Config) (fault : RunFault) (pkts : List RawPacket) :
    pkts.foldl (fun s raw => egoCallback cfg raw s) (.error fault) = .error fault := by
  induction pkts with
  | nil => rfl
  | cons raw pkts ih => exact ih

theorem foldl_callback (cfg : Config) {frames : List Bytes}
    (accepted : ∀ frame ∈ frames, ∃ m, Accepted m frame) (s : ScanAccumulator × DecodedEgoStreams) :
    ((∃ t, (frames.map packetOf).foldl (fun s raw => egoCallback cfg raw s) (.ok s) = .ok t) ↔
        ∀ frame ∈ frames, Harmless frame) ∧
      ∀ t, (frames.map packetOf).foldl (fun s raw => egoCallback cfg raw s) (.ok s) = .ok t →
        ScanAccumulator.feedAll cfg (frames.map packetOf) s.1 = some t.1 := by
  induction frames generalizing s with
  | nil =>
      exact ⟨⟨fun _ frame member => absurd member List.not_mem_nil, fun _ => ⟨s, rfl⟩⟩,
        fun t same => by cases same; rfl⟩
  | cons frame frames ih =>
      obtain ⟨⟨m, valid⟩, later⟩ := List.forall_mem_cons.mp accepted
      have here := callback_ok_iff cfg valid s
      rw [List.map_cons, List.foldl_cons, List.forall_mem_cons, ScanAccumulator.feedAll_cons]
      cases stepped : egoCallback cfg (packetOf frame) (.ok s) with
      | error fault =>
          rw [foldl_callback_error]
          rw [stepped] at here
          have harms : ¬ Harmless frame := fun harmless => by
            obtain ⟨t, ⟨⟩⟩ := here.mpr harmless
          exact ⟨iff_of_false (by rintro ⟨t, ⟨⟩⟩) fun harmless => harms harmless.1, by rintro t ⟨⟩⟩
      | ok next =>
          rw [stepped] at here
          obtain ⟨passes, feeds⟩ := ih later next
          refine ⟨passes.trans (and_iff_right (here.mp ⟨next, rfl⟩)).symm, fun t same => ?_⟩
          have counted := (feedWith_eq_ok.mp stepped).2
          rw [counted]
          exact feeds t same

section Log
variable {manifest : EgoManifest} {dir : Dir} {frames : List Bytes}

theorem scanEgoLog_eq (cfg : Config)
    (packets : ((EgoLogReader.create dir manifest.chunks).packets dir).map unplaced =
      frames.map packetOf) :
    scanEgoLog cfg manifest dir =
      ((frames.map packetOf).foldl (fun s raw => egoCallback cfg raw s)
        (.ok ({ sv := { fileOk := manifest.chunks ≠ [] } }, {}))).map fun s => (s.1.sv, s.2) := by
  rw [scanEgoLog, EgoLogReader.scan_all, ← packets, List.foldl_map]
  rfl

theorem scanEgoLog_accepted (cfg : Config) (accepted : ∀ frame ∈ frames, ∃ m, Accepted m frame)
    (packets : ((EgoLogReader.create dir manifest.chunks).packets dir).map unplaced =
      frames.map packetOf)
    (chunks : manifest.chunks ≠ []) :
    scanEgoLog cfg manifest dir =
      ((frames.map packetOf).foldl
        (fun (s : Scanning DecodedEgoStreams) raw => s.bind (feedWith cfg true demuxEgo raw))
        (.ok ({ sv := { fileOk := true } }, {}))).map fun s => (s.1.sv, s.2) := by
  rw [scanEgoLog_eq cfg packets, decide_eq_true chunks]
  refine congrArg (Except.map _) (List.foldl_ext _ _ _ fun s raw member => ?_)
  rw [egoCallback, packetsOf_intact accepted raw member]

theorem scanEgoLog_frames (cfg : Config) (accepted : ∀ frame ∈ frames, ∃ m, Accepted m frame)
    (packets : ((EgoLogReader.create dir manifest.chunks).packets dir).map unplaced =
      frames.map packetOf)
    (chunks : manifest.chunks ≠ []) :
    ((∃ scanned, scanEgoLog cfg manifest dir = .ok scanned) ↔ ∀ frame ∈ frames, Harmless frame) ∧
      ∀ scanned, scanEgoLog cfg manifest dir = .ok scanned → ScannedAs frames scanned.1 := by
  rw [scanEgoLog_eq cfg packets, decide_eq_true chunks]
  obtain ⟨passes, feeds⟩ := foldl_callback cfg accepted ({ sv := { fileOk := true } }, {})
  revert passes feeds
  cases (frames.map packetOf).foldl (fun s raw => egoCallback cfg raw s)
    (.ok ({ sv := { fileOk := true } }, {})) with
  | error fault =>
      intro passes _
      exact ⟨Iff.trans (iff_of_false (by rintro ⟨_, ⟨⟩⟩) (by rintro ⟨_, ⟨⟩⟩)) passes,
        fun _ same => by cases same⟩
  | ok after =>
      intro passes feeds
      refine ⟨Iff.trans (iff_of_true ⟨_, rfl⟩ ⟨_, rfl⟩) passes, fun scanned same => ?_⟩
      cases same
      exact .of_feedAll accepted (feeds after rfl)

end Log

theorem scanSourceLog_missing (cfg : Config) {srcBin missing : Bytes} {dir : Dir}
    (absent : srcBin ∉ dir) :
    scanSourceLog cfg srcBin missing dir = .ok ({ fileOk := false, fileErrors := [missing] }, {}) :=
  if_neg absent

theorem validRanges_noSource {cfg : Config} {sv source : StreamValidation}
    (absent : source.fileOk = false) :
    extractValidRanges cfg sv source = rangesWith (isLong cfg) sv .ego := by
  have none : rangesWith (isLong cfg) source .source = [] := if_pos (.inl absent)
  have alone (ranges : List TimeRange) : ranges.foldl (fun combined _ => combined)
      ([] : List TimeRange) = [] := by
    induction ranges with
    | nil => rfl
    | cons r ranges ih => exact ih
  rw [extractValidRanges_eq, validRangesWith, none]
  dsimp only
  exact if_pos (alone _)

theorem ranges_of_scanned {frames : List Bytes} {sv : StreamValidation}
    (scanned : ScannedAs frames sv) (isLong : TimeRange → Bool) :
    rangesWith isLong sv .ego = keptRanges isLong .ego (recordedSpans (frames.map stampOf)) := by
  rw [rangesWith_eq, scanned.fileOk, scanned.first, scanned.last, StreamValidation.breaks,
    scanned.errors, recordedSpans]
  simp only [Bool.true_eq_false, false_or]
  split
  · rfl
  · rfl

/-- What the validation of a session with these frames and without a source returns. -/
structure ValidatedAs (cfg : PipelineConfig) (frames : List Bytes) (run : ValidateRun) : Prop where
  report : ∃ report, run.report = some report ∧ ScannedAs frames report.ego ∧
    report.validRanges = keptRanges (isLong cfg.scan) .ego (recordedSpans (frames.map stampOf))
  exit : run.exit =
    if cfg.failOnNoValidRanges ∧
      totalDurationS (keptRanges (isLong cfg.scan) .ego (recordedSpans (frames.map stampOf))) <
      cfg.scan.minValidDurationS then .validationError else .success

theorem failed_iff {cfg : Config} {ego source : StreamValidation} {ranges : List TimeRange}
    (fileOk : ego.fileOk = true) :
    computeIntegrity cfg ego source ranges = .failed ↔
      totalDurationS ranges < cfg.minValidDurationS := by
  unfold computeIntegrity
  rw [fileOk, if_neg (by decide)]
  split
  · rename_i short
    exact iff_of_true rfl short
  · rename_i long
    dsimp only
    split
    · exact iff_of_false (by decide) long
    · split <;> exact iff_of_false (by decide) long

theorem runValidate_frames (cfg : PipelineConfig) (opts : RunOptions)
    {dir : Dir} {frames : List Bytes} (accepted : ∀ frame ∈ frames, ∃ m, Accepted m frame)
    (reads : ReadsFrames dir frames) (absent : sourcePath opts ∉ dir) :
    ((∃ run, runValidate cfg opts dir = .ok run) ↔ ∀ frame ∈ frames, Harmless frame) ∧
      ∀ run, runValidate cfg opts dir = .ok run → ValidatedAs cfg frames run := by
  obtain ⟨manifest, read, chunks, packets⟩ := reads.packets
  obtain ⟨passes, scans⟩ := scanEgoLog_frames cfg.scan accepted packets chunks
  have source := @scanSourceLog_missing cfg.scan _
    (ascii "source.bin not found (optional " ++ emDash ++ ascii " skipping)") _ absent
  have manifestRead : EgoManifest.fromJson [] dir (ascii "ego_manifest.json") = .ok manifest := read
  rw [← passes]
  unfold runValidate
  rw [manifestRead, source]
  dsimp only
  cases scanned : scanEgoLog cfg.scan manifest dir with
  | error fault => exact ⟨iff_of_false (by rintro ⟨_, ⟨⟩⟩) (by rintro ⟨_, ⟨⟩⟩), by rintro _ ⟨⟩⟩
  | ok result =>
      have as := scans result scanned
      refine ⟨iff_of_true ⟨_, rfl⟩ ⟨_, rfl⟩, ?_⟩
      rintro run ⟨⟩
      let source : StreamValidation :=
        { fileOk := false,
          fileErrors := [ascii "source.bin not found (optional " ++ emDash ++ ascii " skipping)"] }
      have ranges : extractValidRanges cfg.scan result.1 source =
          keptRanges (isLong cfg.scan) .ego (recordedSpans (frames.map stampOf)) :=
        (validRanges_noSource rfl).trans (ranges_of_scanned as _)
      refine ⟨⟨_, rfl, as, ranges⟩, ?_⟩
      rw [← ranges]
      refine if_congr ?_ rfl rfl
      rw [rejects, decide_eq_true_iff]
      exact (and_congr_left' (failed_iff as.fileOk)).trans and_comm

end Pipeline

section Closed
variable {m : UInt32} {config : RuntimeConfig} {now openNow : Int}

theorem reads_recording (writes : List (WriteClock × ContractFrame m)) (closeNow : Int) {dir : Dir}
    (inTime : ∀ write ∈ writes, InTime write.2.bytes)
    (small : (writes.map fun write => write.2.bytes).flatten.length < 2 ^ 63)
    (few : (recording config now openNow writes closeNow).writer.chunks.length ≤ 2 ^ 32)
    (files : ∀ name ∈ (recording config now openNow writes closeNow).writer.dir,
      dir.lookup name = (recording config now openNow writes closeNow).writer.dir.lookup name) :
    ReadsFrames dir (writes.map fun write => write.2.bytes) := by
  obtain ⟨older, early, late, between⟩ :=
    @between_foldl _ config now openNow writes inTime small few
  obtain ⟨-, saved, lists⟩ :=
    flush_throughout between.tracks between.steady
      (between.small small) between.saved between.listed
  have shows := (shows_diskAfter config now openNow writes).flush closeNow
  obtain ⟨text, chunks, manifest, listing⟩ := lists.left shows.leaves
  have present {name : Bytes} {file : BufferedFile UInt8}
      (found : runOps
        (writes.foldl WriterRun.record (recordingStart config now openNow)).writer.flushOps
        (diskAfter config now openNow writes) name = some file) :
      name ∈ (recording config now openNow writes closeNow).writer.dir := by
    have here := shows name
    rw [found] at here
    exact AList.lookup_isSome.mp (Option.isSome_iff_exists.mpr ⟨_, here.symm⟩)
  have same (i : Nat) (bound : i ≤ older.length) : dir.lookup (chunkFilename i) =
      (recording config now openNow writes closeNow).writer.dir.lookup (chunkFilename i) := by
    rcases bound.lt_or_eq with before | rfl
    · obtain ⟨file, found, -⟩ := saved.whole i _ (List.getElem?_eq_getElem before)
      exact files _ (present found)
    · obtain ⟨file, found, -⟩ := saved.last
      exact files _ (present found)
  have listed : dir.lookup manifestName = some text :=
    (files _ (lists.elim fun file rest => rest.elim fun _ found => present found.1)).trans manifest
  have accepted : ∀ frame ∈ writes.map fun write => write.2.bytes, Accepted m frame := by
    intro frame member
    obtain ⟨write, -, rfl⟩ := List.mem_map.mp member
    exact write.2.accepted
  have whole : older.flatten ++ (early ++ late) = writes.map fun write => write.2.bytes := by
    rw [← List.append_assoc]
    exact between.frames
  have within : older.flatten ++ (early ++ late) ++ [] <+:
      writes.map fun write => write.2.bytes := by
    rw [List.append_nil, whole]
  have few : (writes.map fun write => write.2.bytes).length <
      (older.flatten ++ (early ++ late)).length + 1 := by
    rw [whole]
    exact Nat.lt_succ_self _
  obtain ⟨frames, reads, recorded, all⟩ :=
    saved.found shows.leaves same accepted within few listed listing
  exact recorded.eq_of_length_le (Nat.le_of_lt_succ all) ▸ reads

/-- The validation of a closed recording goes through when all of its frames are harmless. Then it
counts every frame and finds the time between the jumps of the sequence numbers. -/
theorem recording_validated (cfg : PipelineConfig) (opts : RunOptions)
    (writes : List (WriteClock × ContractFrame m)) (closeNow : Int) {dir : Dir}
    (inTime : ∀ write ∈ writes, InTime write.2.bytes)
    (small : (writes.map fun write => write.2.bytes).flatten.length < 2 ^ 63)
    (few : (recording config now openNow writes closeNow).writer.chunks.length ≤ 2 ^ 32)
    (files : ∀ name ∈ (recording config now openNow writes closeNow).writer.dir,
      dir.lookup name = (recording config now openNow writes closeNow).writer.dir.lookup name)
    (absent : Pipeline.sourcePath opts ∉ dir) :
    ((∃ run, Pipeline.runValidate cfg opts dir = .ok run) ↔
      ∀ write ∈ writes, Harmless write.2.bytes) ∧
      ∀ run, Pipeline.runValidate cfg opts dir = .ok run →
        Pipeline.ValidatedAs cfg (writes.map fun write => write.2.bytes) run := by
  have reads := reads_recording writes closeNow inTime small few files
  have accepted : ∀ frame ∈ writes.map fun write => write.2.bytes, ∃ m, Accepted m frame := by
    intro frame member
    obtain ⟨write, -, rfl⟩ := List.mem_map.mp member
    exact ⟨m, write.2.accepted⟩
  obtain ⟨passes, validated⟩ := Pipeline.runValidate_frames cfg opts accepted reads absent
  rw [List.forall_mem_map] at passes
  exact ⟨passes, validated⟩

end Closed

theorem sampleFrames_harmless : ∀ write ∈ sampleWrites, Harmless write.2.bytes := by
  have noTrap : ∀ write ∈ sampleWrites,
      audioTraps (packetOf write.2.bytes) = false := by decide +kernel
  have noOverrun : ∀ write ∈ sampleWrites,
      ¬ ((EgoFrameHeader.decode write.2.bytes).frameType = 100 ∧
      ContractDemuxer.AudioOverrun (write.2.bytes.drop egoFrameHeaderSize)) := by
    decide +kernel
  exact fun write member => ⟨noTrap write member, noOverrun write member⟩

theorem sampleRecording_validated :
    recordedSpans (sampleWrites.map fun write => stampOf write.2.bytes) =
      [(1000000000, 14000000000), (14000000000, 30000000000)] ∧
    ∃ run, Pipeline.runValidate {} {} sampleRecording.writer.dir = .ok run ∧
      Pipeline.ValidatedAs {} (sampleWrites.map fun write => write.2.bytes) run := by
  have absent : Pipeline.sourcePath {} ∉ sampleRecording.writer.dir := fun member => by
    rcases OwnNames.recording sampleConfig 0 0 sampleWrites 0 _ member with index | manifest |
        ⟨id, chunk⟩
    · exact absurd index (by decide)
    · exact absurd manifest (by decide)
    · exact absurd chunk.symm (ne_of_isChunkFile (isChunkFile_chunkFilename _) (by decide))
  obtain ⟨passes, validated⟩ :=
    recording_validated {} {} sampleWrites 0 sampleWrites_inTime (by decide +kernel)
    (sampleRecording_chunks.le.trans (by decide)) (fun _ _ => rfl) absent
  obtain ⟨run, ran⟩ := passes.mpr sampleFrames_harmless
  exact ⟨by decide +kernel, run, ran, validated run ran⟩

end LocalPC.Offline
