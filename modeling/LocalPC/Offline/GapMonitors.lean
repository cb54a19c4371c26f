import LocalPC.Offline.GapEvents
import LocalPC.Offline.LostPackets

namespace LocalPC.Offline
open Lib Contract LocalPC.Runtime

/-- A packet as `scan_contract_chunk` makes it from a frame. -/
structure OfContract (raw : RawPacket) : Prop where
  isContract : raw.isContract = true
  time : raw.header.tsNs = raw.contractHeader.t0Ns
  type : raw.header.type = raw.contractHeader.frameType.toUInt16

theorem ofContract_ofPlacement (chunkId : Int) (p : Placement UInt8) :
    OfContract (contractPackets.ofPlacement chunkId p) :=
  ⟨rfl, rfl, rfl⟩

def isFrame (type : FrameType) (raw : RawPacket) : Bool :=
  packetOk raw ∧ FrameType.ofCode raw.contractHeader.frameType = some type

def t0Of (raw : RawPacket) : Int := raw.contractHeader.t0Ns.toNat

/-- Two IMU windows whose times differ by more than `telemetry_gap_ms`. -/
def LateImuWindow (cfg : Config) (_ : List RawPacket) (p q : RawPacket) : Prop :=
  cfg.telemetryGapMs * kNsPerMs < |t0Of q - t0Of p|

/-- `frames_count / sample_rate_hz` of the first audio block, in nanoseconds. -/
def contractPeriod (blocks : List RawPacket) : Nat :=
  match blocks with
  | [] => 0
  | raw :: _ =>
    let ah := AudioBlockBinaryHeader.decode raw.payload
    ah.framesCount.toNat * kNsPerSec / ah.sampleRateHz.toNat

/-- An audio block more than `audio_gap_factor` periods after the one before it. -/
def LateAudioBlock (cfg : Config) (blocks : List RawPacket) (p q : RawPacket) : Prop :=
  castInt64 (cfg.audioGapFactor * Float.ofNat (contractPeriod blocks)) < t0Of q - t0Of p

instance (cfg : Config) (before : List RawPacket) (p q : RawPacket) :
    Decidable (LateImuWindow cfg before p q) :=
  inferInstanceAs (Decidable (_ < _))

instance (cfg : Config) (before : List RawPacket) (p q : RawPacket) :
    Decidable (LateAudioBlock cfg before p q) :=
  inferInstanceAs (Decidable (_ < _))

instance (cfg : Config) (before : List RawPacket) (p q : RawPacket) :
    Decidable (ImuBreak cfg before p q) :=
  inferInstanceAs (Decidable (_ ∧ _))

instance (cfg : Config) (before : List RawPacket) (p q : RawPacket) :
    Decidable (AudioBreak cfg before p q) :=
  inferInstanceAs (Decidable (_ ∧ _))

def ScanState.gapCounts (s : ScanState) : Nat × Nat := (s.sv.telemetryGapCount, s.sv.audioGapCount)

/-- The scan ends, counts the late IMU windows and the late audio blocks, and no frame of another
type changes a count. -/
def FollowsContract (cfg : Config) (pkts : List RawPacket) : Prop :=
  (∃ acc, ScanAccumulator.feedAll cfg pkts {} = some acc ∧
    acc.sv.telemetryGapCount = countNeighbours (LateImuWindow cfg)
      (pkts.filter (isFrame .kImuWindow)) ∧
    acc.sv.audioGapCount = countNeighbours (LateAudioBlock cfg)
      (pkts.filter (isFrame .kAudioBlock))) ∧
  ∀ before raw after, pkts = before ++ raw :: after → isFrame .kImuWindow raw = false →
    isFrame .kAudioBlock raw = false →
    ∀ acc next, ScanAccumulator.feedAll cfg before {} = some acc →
      ScanAccumulator.feed cfg raw (packetOk raw) acc = some next → next.gapCounts = acc.gapCounts

namespace ScanState

theorem gapCounts_checkMonotonic (ts : Int) (s : ScanState) :
    (s.checkMonotonic ts).gapCounts = s.gapCounts := by
  unfold checkMonotonic
  split <;> rfl

theorem gapCounts_checkJump (cfg : Config) (ts : Int) (s : ScanState) :
    (s.checkJump cfg ts).gapCounts = s.gapCounts := by
  unfold checkJump
  dsimp only
  split <;> rfl

theorem gapCounts_checkAudio (cfg : Config) (raw : RawPacket) (ts : Int) (s : ScanState) :
    (s.checkAudio cfg raw ts).gapCounts = (s.sv.telemetryGapCount, s.sv.audioGapCount +
      (isAudio raw && decide (s.prevAudioTs ≠ 0 ∧
        0 < nominalPeriod (AudioBlockHeader.decode raw.payload) s.nominalAudioPeriodNs ∧
        audioThresh cfg
          (nominalPeriod (AudioBlockHeader.decode raw.payload) s.nominalAudioPeriodNs) <
          ts - s.prevAudioTs)).toNat) := by
  unfold checkAudio isAudio
  dsimp only
  split
  · rename_i block
    split
    · rename_i far
      simp only [block, far, gapCounts, StreamValidation.push, decide_true, Bool.and_true,
        Bool.toNat_true, and_self, ne_eq, not_false_iff]
    · rename_i near
      simp only [block, near, gapCounts, decide_true, decide_false, Bool.and_false,
        Bool.toNat_false, and_self, Nat.add_zero]
  · rename_i other
    simp only [other, gapCounts, decide_false, Bool.false_and, Bool.toNat_false, Nat.add_zero]

theorem gapCounts_checkImu (cfg : Config) (raw : RawPacket) (ts : Int) (s : ScanState) :
    (s.checkImu cfg raw ts).gapCounts = (s.sv.telemetryGapCount +
      (isImu raw &&
        decide (s.prevImuTs ≠ 0 ∧ cfg.telemetryGapMs * kNsPerMs < ts - s.prevImuTs)).toNat,
      s.sv.audioGapCount) := by
  unfold checkImu isImu
  dsimp only
  split
  · rename_i sample
    split
    · rename_i far
      simp only [sample, far, gapCounts, StreamValidation.push, decide_true, Bool.and_true,
        Bool.toNat_true, and_self, ne_eq, not_false_iff]
    · rename_i near
      simp only [sample, near, gapCounts, decide_true, decide_false, Bool.and_false,
        Bool.toNat_false, Nat.add_zero]
  · rename_i other
    simp only [other, gapCounts, decide_false, Bool.false_and, Bool.toNat_false, Nat.add_zero]

theorem gapCounts_checkTimes (cfg : Config) (raw : RawPacket) (ts : Int) (s : ScanState) :
    (s.checkTimes cfg raw ts).gapCounts = (
      s.sv.telemetryGapCount +
        (isImu raw &&
          decide (s.prevImuTs ≠ 0 ∧ cfg.telemetryGapMs * kNsPerMs < ts - s.prevImuTs)).toNat,
      s.sv.audioGapCount + (isAudio raw && decide (s.prevAudioTs ≠ 0 ∧
        0 < nominalPeriod (AudioBlockHeader.decode raw.payload) s.nominalAudioPeriodNs ∧
        audioThresh cfg
          (nominalPeriod (AudioBlockHeader.decode raw.payload) s.nominalAudioPeriodNs) <
          ts - s.prevAudioTs)).toNat) := by
  let monotonic := s.checkMonotonic ts
  let range := (monotonic.checkJump cfg ts).updateRange ts
  have marked : ScanAccumulator.marks range = ScanAccumulator.marks s :=
    (ScanAccumulator.marks_checkJump cfg ts monotonic).trans
      (ScanAccumulator.marks_checkMonotonic ts s)
  have counts : range.gapCounts = s.gapCounts :=
    (gapCounts_checkJump cfg ts monotonic).trans (gapCounts_checkMonotonic ts s)
  have imuSame : (range.checkAudio cfg raw ts).prevImuTs = range.prevImuTs := by
    unfold checkAudio
    dsimp only
    split
    · split <;> rfl
    · rfl
  have audio := gapCounts_checkAudio cfg raw ts range
  unfold ScanAccumulator.marks at marked
  unfold gapCounts at counts audio
  rw [Prod.mk.injEq, Prod.mk.injEq] at marked
  rw [Prod.mk.injEq] at counts audio
  show ((range.checkAudio cfg raw ts).checkImu cfg raw ts).gapCounts = _
  rw [gapCounts_checkImu, imuSame, audio.1, audio.2, counts.1, counts.2,
    marked.1, marked.2.1, marked.2.2]

end ScanState

namespace ScanAccumulator

theorem gapCounts_countSeq (raw : RawPacket) (acc : ScanAccumulator) :
    (acc.countSeq raw).telemetryGapCount = acc.sv.telemetryGapCount ∧
    (acc.countSeq raw).audioGapCount = acc.sv.audioGapCount := by
  obtain ⟨lost, events, counted⟩ := countSeq_eq raw acc
  rw [counted]
  exact ⟨rfl, rfl⟩

structure Monitors (cfg : Config) (pkts : List RawPacket) (acc : ScanAccumulator) : Prop where
  keeps : Keeps pkts acc
  period : acc.nominalAudioPeriodNs = firstPeriod (pkts.filter isAudio)
  counts : acc.gapCounts =
    (countNeighbours (ImuBreak cfg) (pkts.filter isImu),
      countNeighbours (AudioBreak cfg) (pkts.filter isAudio))

theorem monitors_nil (cfg : Config) (fileOk : Bool) : Monitors cfg [] { sv := { fileOk } } :=
  ⟨keeps_nil fileOk, rfl, rfl⟩

theorem any_imuBreak (cfg : Config) (samples : List RawPacket) (raw : RawPacket) :
    (samples.getLast?.any fun last => decide (ImuBreak cfg samples last raw)) =
      decide ((samples.getLast?.map nsOf).getD 0 ≠ 0 ∧
        cfg.telemetryGapMs * kNsPerMs < nsOf raw - (samples.getLast?.map nsOf).getD 0) := by
  cases samples.getLast? with
  | none => simp
  | some last => rfl

theorem any_audioBreak (cfg : Config) (blocks : List RawPacket) (raw : RawPacket) :
    (blocks.getLast?.any fun last => decide (AudioBreak cfg blocks last raw)) =
      decide ((blocks.getLast?.map nsOf).getD 0 ≠ 0 ∧ 0 < firstPeriod (blocks ++ [raw]) ∧
        ScanState.audioThresh cfg (firstPeriod (blocks ++ [raw])) <
          nsOf raw - (blocks.getLast?.map nsOf).getD 0) := by
  cases blocks.getLast? with
  | none => simp
  | some last => rfl

theorem Monitors.good {cfg : Config} {pkts : List RawPacket} {raw : RawPacket}
    {acc after : ScanAccumulator} (monitors : Monitors cfg pkts acc)
    (fed : feed cfg raw true acc = some after) : Monitors cfg (pkts ++ [raw]) after := by
  refine ⟨monitors.keeps.good fed, period_of_feed monitors.period fed, ?_⟩
  have telemetry := congrArg Prod.fst monitors.counts
  have audio := congrArg Prod.snd monitors.counts
  obtain ⟨countedImu, countedAudio⟩ := gapCounts_countSeq raw acc
  rw [feed_true] at fed
  split at fed
  · cases fed
  · cases fed
    refine (ScanState.gapCounts_checkTimes cfg raw
      (nsOf raw) { acc.toScanState with sv := acc.countSeq raw }).trans ?_
    dsimp only [ScanState.gapCounts] at telemetry audio ⊢
    rw [countNeighbours_filter_concat, countNeighbours_filter_concat, countedImu,
      countedAudio, telemetry, audio, monitors.keeps.prevAudioTs, monitors.keeps.prevImuTs,
        monitors.period, ← firstPeriod_concat]
    rw [any_imuBreak, any_audioBreak]

theorem Monitors.bad {cfg : Config} {pkts : List RawPacket} {raw : RawPacket}
    {acc after : ScanAccumulator} (monitors : Monitors cfg pkts acc)
    (fed : feed cfg raw false acc = some after) : Monitors cfg pkts after := by
  refine ⟨monitors.keeps.bad fed, ?_, ?_⟩
  · cases fed
    exact monitors.period
  · cases fed
    exact monitors.counts

theorem monitors_of_feedAll {cfg : Config} {pkts : List RawPacket} {acc : ScanAccumulator}
    (fed : feedAll cfg pkts {} = some acc) : Monitors cfg (pkts.filter packetOk) acc := by
  induction pkts using List.reverseRecOn generalizing acc with
  | nil =>
      cases fed
      exact monitors_nil cfg true
  | append_singleton pkts raw ih =>
      rw [feedAll_concat] at fed
      obtain ⟨mid, before, last⟩ := Option.bind_eq_some_iff.mp fed
      rw [List.filter_append]
      cases ok : packetOk raw with
      | true =>
          rw [ok] at last
          rw [List.filter_cons_of_pos ok, List.filter_nil]
          exact (ih before).good last
      | false =>
          rw [ok] at last
          rw [List.filter_cons_of_neg (by simp [ok]), List.filter_nil, List.append_nil]
          exact (ih before).bad last

end ScanAccumulator

theorem OfContract.unmonitored {raw : RawPacket} (contract : OfContract raw)
    (frame : isFrame .kImuWindow raw = true ∨ isFrame .kAudioBlock raw = true) :
    isImu raw = false ∧ isAudio raw = false := by
  have type : raw.header.type = 101 ∨ raw.header.type = 100 := by
    rw [contract.type]
    unfold isFrame at frame
    rw [decide_eq_true_iff, decide_eq_true_iff, FrameType.ofCode_eq_some_iff,
      FrameType.ofCode_eq_some_iff] at frame
    rcases frame with ⟨-, code⟩ | ⟨-, code⟩
    · exact Or.inl (congrArg UInt32.toUInt16 code)
    · exact Or.inr (congrArg UInt32.toUInt16 code)
  unfold isImu isAudio
  rcases type with type | type
  · simp [type]
  · simp [type]

section Log
variable {cfg : Config} {pkts : List RawPacket}

theorem gapCounts_of_feed {raw : RawPacket} {acc next : ScanAccumulator} (imu : isImu raw = false)
    (audio : isAudio raw = false)
    (fed : ScanAccumulator.feed cfg raw (packetOk raw) acc = some next) :
    next.gapCounts = acc.gapCounts := by
  cases ok : packetOk raw with
  | false =>
      rw [ok] at fed
      cases fed
      rfl
  | true =>
      rw [ok, ScanAccumulator.feed_true] at fed
      split at fed
      · cases fed
      · cases fed
        obtain ⟨telemetry, audios⟩ := ScanAccumulator.gapCounts_countSeq raw acc
        refine (ScanState.gapCounts_checkTimes ..).trans ?_
        simp [imu, audio, telemetry, audios, ScanState.gapCounts]

theorem FollowsContract.counts_eq_zero (contract : ∀ raw ∈ pkts, OfContract raw)
    (follows : FollowsContract cfg pkts) {seen rest : List RawPacket}
    (split : pkts = seen ++ rest) {acc : ScanAccumulator}
    (fed : ScanAccumulator.feedAll cfg seen {} = some acc) : acc.gapCounts = (0, 0) := by
  induction seen using List.reverseRecOn generalizing rest acc with
  | nil =>
      cases fed
      rfl
  | append_singleton seen raw ih =>
      have here : pkts =
          seen ++ raw :: rest := by rw [split, List.append_assoc, List.singleton_append]
      rw [ScanAccumulator.feedAll_concat] at fed
      obtain ⟨mid, before, last⟩ := Option.bind_eq_some_iff.mp fed
      rw [← ih here before]
      by_cases frame : isFrame .kImuWindow raw = true ∨ isFrame .kAudioBlock raw = true
      · have member : raw ∈ pkts := by simp [here]
        obtain ⟨imu, audio⟩ := (contract raw member).unmonitored frame
        exact gapCounts_of_feed imu audio last
      · rw [not_or, Bool.not_eq_true, Bool.not_eq_true] at frame
        exact follows.2 seen raw rest here frame.1 frame.2 mid acc before last

/-- No packet of the types 1 and 3 is late for a monitor. -/
def QuietMonitors (cfg : Config) (pkts : List RawPacket) : Prop :=
  ¬ Neighbours (ImuBreak cfg) ((pkts.filter packetOk).filter isImu) ∧
  ¬ Neighbours (AudioBreak cfg) ((pkts.filter packetOk).filter isAudio)

theorem quietMonitors_iff {acc : ScanAccumulator}
    (fed : ScanAccumulator.feedAll cfg pkts {} = some acc) :
    acc.gapCounts = (0, 0) ↔ QuietMonitors cfg pkts := by
  rw [(ScanAccumulator.monitors_of_feedAll fed).counts, Prod.mk.injEq, countNeighbours_eq_zero,
    countNeighbours_eq_zero]
  rfl

theorem QuietMonitors.before {seen rest : List RawPacket}
    (quiet : QuietMonitors cfg (seen ++ rest)) :
    QuietMonitors cfg seen := by
  unfold QuietMonitors at quiet
  rw [List.filter_append, List.filter_append, List.filter_append] at quiet
  exact ⟨fun late => quiet.1 (late.append _), fun late => quiet.2 (late.append _)⟩

end Log

def imuWindow (t0Ns : UInt64) : RawPacket := packetOf (sealFrame 101 1 t0Ns t0Ns [])

theorem imuWindow_ok (t0Ns : UInt64) : packetOk (imuWindow t0Ns) = true :=
  packetOk_packetOf (@sealFrame_accepted 0 101 1 t0Ns t0Ns [] (Nat.zero_le _))

theorem imuWindow_header (t0Ns : UInt64) :
    (imuWindow t0Ns).contractHeader.frameType = 101 ∧
      (imuWindow t0Ns).contractHeader.t0Ns = t0Ns := by
  have header : (imuWindow t0Ns).contractHeader =
      EgoFrameHeader.decode (sealFrame 101 1 t0Ns t0Ns []) :=
    ofPlacement_contractHeader (p := ⟨0, 0, _⟩) 0
  rw [header, sealFrame, EgoFrameHeader.decode_encode]
  exact ⟨rfl, rfl⟩

theorem imuWindow_frame (t0Ns : UInt64) (type : FrameType) :
    isFrame type (imuWindow t0Ns) = decide (type = .kImuWindow) := by
  unfold isFrame
  rw [decide_eq_decide, imuWindow_ok, (imuWindow_header t0Ns).1, eq_self_iff_true, true_and]
  exact ⟨fun found => (Option.some.inj found).symm, fun same => by rw [same]; rfl⟩

def twoWindows (first second : UInt64) : List RawPacket := [imuWindow first, imuWindow second]

section Windows
variable (first second : UInt64)

theorem twoWindows_contract : ∀ raw ∈ twoWindows first second, OfContract raw := by
  unfold twoWindows
  rw [List.forall_mem_cons, List.forall_mem_singleton]
  exact ⟨ofContract_ofPlacement 0 _, ofContract_ofPlacement 0 _⟩

theorem twoWindows_unmonitored :
    ∀ raw ∈ twoWindows first second, isImu raw = false ∧ isAudio raw = false := by
  intro raw member
  refine (twoWindows_contract first second raw member).unmonitored (Or.inl ?_)
  unfold twoWindows at member
  rcases List.mem_pair.mp member with rfl | rfl <;> simp [imuWindow_frame]

theorem twoWindows_late (cfg : Config) :
    countNeighbours (LateImuWindow cfg) ((twoWindows first second).filter (isFrame .kImuWindow)) =
      (decide (cfg.telemetryGapMs * kNsPerMs < |(second.toNat : Int) - first.toNat|)).toNat := by
  have all : (twoWindows first second).filter (isFrame .kImuWindow) =
      [imuWindow first, imuWindow second] := by
    simp [twoWindows, imuWindow_frame]
  rw [all]
  simp [countNeighbours, countFrom, LateImuWindow, t0Of, (imuWindow_header _).2]

end Windows

end LocalPC.Offline
