import LocalPC.Lib.SignedInt
import LocalPC.Offline.DecodedStreams
import LocalPC.Offline.Manifest

/-!
# Validation of one stream

The result of a validation and the checks that `ScanAccumulator::feed` (`pipeline.cpp`) and
`LogValidator::validate_ego` (`log_validator.cpp`) both contain, block by block in the same words.
Counters that grow by one per packet and signed times are unbounded here.
-/

namespace LocalPC.Offline
open Lib Contract LocalPC.Runtime

structure Config where
  telemetryGapMs : Int := 50
  audioGapFactor : Float := 1.5
  maxTimestampJumpMs : Int := 1000
  minValidDurationS : Float := 10.0

def kNsPerSec : Nat := 1000000000
def kNsPerMs : Int := 1000000

inductive GapType
  | seq
  | timestamp
  | audioBlock
  | telemetry
  | fileTruncated
  deriving DecidableEq, Repr

inductive GapSeverity
  | info
  | warning
  | error
  deriving DecidableEq, Repr

structure GapEvent where
  tNs : Int := 0
  streamId : String := ""
  gapType : GapType := .seq
  expectedSeq : UInt32 := 0
  actualSeq : UInt32 := 0
  gapDurationNs : Int := 0
  severity : GapSeverity := .warning
  deriving DecidableEq, Repr

structure StreamValidation where
  fileOk : Bool := true
  packetsTotal : Nat := 0
  packetsValid : Nat := 0
  packetsLost : UInt64 := 0
  packetsCrcFailed : Nat := 0
  timestampViolations : Nat := 0
  monotonicViolations : Nat := 0
  audioGapCount : Nat := 0
  telemetryGapCount : Nat := 0
  tFirstNs : Int := 0
  tLastNs : Int := 0
  fileErrors : List Bytes := []
  gapEvents : List GapEvent := []
  deriving DecidableEq, Repr

namespace StreamValidation

def push (g : GapEvent) (sv : StreamValidation) : StreamValidation :=
  { sv with gapEvents := sv.gapEvents ++ [g] }

def seqGap (streamId : String) (expected actual : UInt32) (t prevT : Int)
    (sv : StreamValidation) : StreamValidation :=
  if actual ≠ expected ∧ expected < actual then
    let lost := actual - expected
    push
      { tNs := t
        streamId := streamId
        gapType := .seq
        expectedSeq := expected
        actualSeq := actual
        gapDurationNs := t - prevT
        severity := if 10 < lost then .error else .warning }
      { sv with packetsLost := sv.packetsLost + lost.toUInt64 }
  else sv

theorem seqGap_eq (streamId : String) (expected actual : UInt32) (t prevT : Int)
    (sv : StreamValidation) :
    ∃ lost events, sv.seqGap streamId expected actual t prevT =
      { sv with packetsLost := lost, gapEvents := events } := by
  unfold seqGap
  split
  · exact ⟨_, _, rfl⟩
  · exact ⟨_, _, rfl⟩

def errorTimes (sv : StreamValidation) : List Int :=
  (sv.gapEvents.filter fun g => g.severity = .error).map GapEvent.tNs

def breaks (sv : StreamValidation) : List Int := sv.errorTimes.mergeSort fun a b => a ≤ b

end StreamValidation

/-! ## Valid ranges -/

inductive Stream
  | ego
  | source
  | both
  deriving DecidableEq, Repr

structure TimeRange where
  tStartNs : Int := 0
  tEndNs : Int := 0
  stream : Stream := .both
  deriving DecidableEq, Repr

def TimeRange.durationS (r : TimeRange) : Float := Float.ofInt (r.tEndNs - r.tStartNs) / 1000000000

def keepLong (cfg : Config) (ranges : List TimeRange) (r : TimeRange) : List TimeRange :=
  if cfg.minValidDurationS ≤ r.durationS then ranges ++ [r] else ranges

def buildRanges (cfg : Config) (sv : StreamValidation) (stream : Stream) : List TimeRange :=
  if sv.fileOk = false ∨ sv.tLastNs ≤ sv.tFirstNs then []
  else
    let cut := sv.breaks.foldl (fun (ranges, curStart) bp =>
      if bp ≤ curStart then (ranges, curStart)
      else (keepLong cfg ranges { tStartNs := curStart, tEndNs := bp, stream }, bp))
        ([], sv.tFirstNs)
    keepLong cfg cut.1 { tStartNs := cut.2, tEndNs := sv.tLastNs, stream }

def extractValidRanges (cfg : Config) (egoVal srcVal : StreamValidation) : List TimeRange :=
  let egoRanges := buildRanges cfg egoVal .ego
  let srcRanges := buildRanges cfg srcVal .source
  let combined := egoRanges.foldl (fun combined er => srcRanges.foldl (fun combined sr =>
    let t0 := max er.tStartNs sr.tStartNs
    let t1 := min er.tEndNs sr.tEndNs
    if t0 < t1 then keepLong cfg combined { tStartNs := t0, tEndNs := t1 }
    else combined) combined) []
  if combined = [] then egoRanges else combined

/-! ## Checks of one packet -/

structure ScanState where
  sv : StreamValidation := {}
  first : Bool := true
  prevTs : Int := 0
  prevAudioTs : Int := 0
  prevImuTs : Int := 0
  nominalAudioPeriodNs : UInt32 := 0
  deriving DecidableEq, Repr

/-- The division by the sample rate of an audio block traps. -/
def audioTraps (raw : RawPacket) : Bool :=
  raw.header.type = 1 ∧ AudioBlockHeader.size ≤ raw.payload.length ∧
    (AudioBlockHeader.decode raw.payload).sampleRateHz = 0

namespace ScanState

def checkMonotonic (ts : Int) (s : ScanState) : ScanState :=
  if s.first = false ∧ ts < s.prevTs then
    { s with
      sv := .push { tNs := ts, streamId := "ego", gapType := .timestamp,
                    gapDurationNs := s.prevTs - ts }
        { s.sv with monotonicViolations := s.sv.monotonicViolations + 1 } }
  else s

def checkJump (cfg : Config) (ts : Int) (s : ScanState) : ScanState :=
  let jump := ts - s.prevTs
  if s.first = false ∧ cfg.maxTimestampJumpMs * kNsPerMs < jump then
    { s with
      sv := .push { tNs := ts, streamId := "ego", gapType := .timestamp, gapDurationNs := jump }
        { s.sv with timestampViolations := s.sv.timestampViolations + 1 } }
  else s

def updateRange (ts : Int) (s : ScanState) : ScanState :=
  { s with
    sv.tFirstNs := if s.first ∨ ts < s.sv.tFirstNs then ts else s.sv.tFirstNs
    sv.tLastNs := if s.sv.tLastNs < ts then ts else s.sv.tLastNs }

/-- `static_cast<ns_t>(cfg->audio_gap_factor * nominal_audio_period_ns)`. -/
def audioThresh (cfg : Config) (nominal : UInt32) : Int :=
  castInt64 (cfg.audioGapFactor * nominal.toFloat)

def nominalPeriod (ahdr : AudioBlockHeader) (nominal : UInt32) : UInt32 :=
  let period := ahdr.frameCount.toNat * kNsPerSec / ahdr.sampleRateHz.toNat
  if nominal = 0 then UInt32.ofNat period else nominal

def checkAudio (cfg : Config) (raw : RawPacket) (ts : Int) (s : ScanState) : ScanState :=
  if raw.header.type = 1 ∧ AudioBlockHeader.size ≤ raw.payload.length then
    let nominal := nominalPeriod (AudioBlockHeader.decode raw.payload) s.nominalAudioPeriodNs
    let gap := ts - s.prevAudioTs
    if s.prevAudioTs ≠ 0 ∧ 0 < nominal ∧ audioThresh cfg nominal < gap then
      { s with
        sv := .push { tNs := ts, streamId := "ego.audio",
                      gapType := .audioBlock, gapDurationNs := gap }
          { s.sv with audioGapCount := s.sv.audioGapCount + 1 }
        nominalAudioPeriodNs := nominal
        prevAudioTs := ts }
    else { s with nominalAudioPeriodNs := nominal, prevAudioTs := ts }
  else s

def checkImu (cfg : Config) (raw : RawPacket) (ts : Int) (s : ScanState) : ScanState :=
  if raw.header.type = 3 then
    let gap := ts - s.prevImuTs
    if s.prevImuTs ≠ 0 ∧ cfg.telemetryGapMs * kNsPerMs < gap then
      { s with
        sv := .push { tNs := ts, streamId := "ego.imu",
                      gapType := .telemetry, gapDurationNs := gap }
          { s.sv with telemetryGapCount := s.sv.telemetryGapCount + 1 }
        prevImuTs := ts }
    else { s with prevImuTs := ts }
  else s

def remember (ts : Int) (s : ScanState) : ScanState := { s with prevTs := ts, first := false }

def checkTimes (cfg : Config) (raw : RawPacket) (ts : Int) (s : ScanState) : ScanState :=
  (((((s.checkMonotonic ts).checkJump cfg ts).updateRange ts).checkAudio cfg raw ts).checkImu cfg
    raw ts).remember ts

/-! ### What the checks leave alone -/

def withLoss (lost : UInt64) (events : List GapEvent) (s : ScanState) : ScanState :=
  { s with sv.packetsLost := lost, sv.gapEvents := events }

def bare (s : ScanState) : ScanState := s.withLoss 0 []

/-- What is counted for every packet, whatever the checks of an intact packet say. -/
def packets (s : ScanState) : Nat × Nat × Nat :=
  (s.sv.packetsTotal, s.sv.packetsValid, s.sv.packetsCrcFailed)

structure Quiet (check : ScanState → ScanState) : Prop where
  packets : ∀ s, (check s).packets = s.packets
  bare : ∀ s lost events, (check (s.withLoss lost events)).bare = (check s).bare
  lost : ∀ s, (check s).sv.packetsLost = s.sv.packetsLost
  errors : ∀ s, (check s).sv.errorTimes = s.sv.errorTimes

namespace Quiet

theorem comp {f g : ScanState → ScanState} (outer : Quiet g) (inner : Quiet f) :
    Quiet fun s => g (f s) where
  bare s lost events := by
    calc (g (f (s.withLoss lost events))).bare
        = (g (f (s.withLoss lost events)).bare).bare := (outer.bare _ _ _).symm
      _ = (g (f s).bare).bare := by rw [inner.bare]
      _ = (g (f s)).bare := outer.bare _ _ _
  packets s := (outer.packets _).trans (inner.packets s)
  lost s := (outer.lost _).trans (inner.lost s)
  errors s := (outer.errors _).trans (inner.errors s)

theorem bare_congr {f : ScanState → ScanState} (quiet : Quiet f) {s t : ScanState}
    (same : s.bare = t.bare) :
    (f s).bare = (f t).bare := by
  calc (f s).bare = (f s.bare).bare := (quiet.bare s 0 []).symm
    _ = (f t.bare).bare := by rw [same]
    _ = (f t).bare := quiet.bare t 0 []

end Quiet

theorem errorTimes_push_warning {g : GapEvent}
    (warning : g.severity = .warning) (sv : StreamValidation) :
    (sv.push g).errorTimes = sv.errorTimes := by
  simp [StreamValidation.errorTimes, StreamValidation.push, warning]

theorem quiet_checkMonotonic (ts : Int) : Quiet (checkMonotonic ts) where
  bare s lost events := by
    unfold checkMonotonic withLoss
    dsimp only
    split <;> rfl
  packets s := by unfold checkMonotonic; split <;> rfl
  lost s := by unfold checkMonotonic; split <;> rfl
  errors s := by
    unfold checkMonotonic
    split
    · exact errorTimes_push_warning rfl _
    · rfl

theorem quiet_checkJump (cfg : Config) (ts : Int) : Quiet (checkJump cfg ts) where
  bare s lost events := by
    unfold checkJump withLoss
    dsimp only
    split <;> rfl
  packets s := by unfold checkJump; dsimp only; split <;> rfl
  lost s := by unfold checkJump; dsimp only; split <;> rfl
  errors s := by
    unfold checkJump
    dsimp only
    split
    · exact errorTimes_push_warning rfl _
    · rfl

theorem quiet_updateRange (ts : Int) : Quiet (updateRange ts) :=
  ⟨fun _ => rfl, fun _ _ _ => rfl, fun _ => rfl, fun _ => rfl⟩

theorem quiet_checkAudio (cfg : Config) (raw : RawPacket) (ts : Int) :
    Quiet (checkAudio cfg raw ts) where
  bare s lost events := by
    unfold checkAudio withLoss
    dsimp only
    split
    · split <;> rfl
    · rfl
  packets s := by
    unfold checkAudio
    dsimp only
    split
    · split <;> rfl
    · rfl
  lost s := by
    unfold checkAudio
    dsimp only
    split
    · split <;> rfl
    · rfl
  errors s := by
    unfold checkAudio
    dsimp only
    split
    · split
      · exact errorTimes_push_warning rfl _
      · rfl
    · rfl

theorem quiet_checkImu (cfg : Config) (raw : RawPacket) (ts : Int) :
    Quiet (checkImu cfg raw ts) where
  bare s lost events := by
    unfold checkImu withLoss
    dsimp only
    split
    · split <;> rfl
    · rfl
  packets s := by
    unfold checkImu
    dsimp only
    split
    · split <;> rfl
    · rfl
  lost s := by
    unfold checkImu
    dsimp only
    split
    · split <;> rfl
    · rfl
  errors s := by
    unfold checkImu
    dsimp only
    split
    · split
      · exact errorTimes_push_warning rfl _
      · rfl
    · rfl

theorem quiet_remember (ts : Int) : Quiet (remember ts) :=
  ⟨fun _ => rfl, fun _ _ _ => rfl, fun _ => rfl, fun _ => rfl⟩

theorem quiet_checkTimes (cfg : Config) (raw : RawPacket) (ts : Int) :
    Quiet (checkTimes cfg raw ts) :=
  (quiet_remember ts).comp <| (quiet_checkImu cfg raw ts).comp <|
    (quiet_checkAudio cfg raw ts).comp <|
    (quiet_updateRange ts).comp <| (quiet_checkJump cfg ts).comp (quiet_checkMonotonic ts)

end ScanState
end LocalPC.Offline
