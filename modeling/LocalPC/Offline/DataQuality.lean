import LocalPC.Offline.PacketLoss
import LocalPC.Offline.ValidRanges
import Mathlib.Algebra.Order.Field.Basic
import Mathlib.Data.Rat.Cast.Order
import Mathlib.Tactic.Linarith
import Mathlib.Tactic.NormNum

/-!
# The data quality report

`stream_score` and `ReportBuilder::build_data_quality_report` (`report_builder.cpp`) over numbers of any type,
less the names and the time of the report, and `build_report` over the same numbers. With doubles they compute
what the source does, and over a field their figures are exact.
-/

namespace LocalPC.Offline.Exact
open Lib Contract LocalPC.Runtime

/-! ## The reports -/

structure ValidationReport (K : Type) where
  ego : StreamValidation
  source : StreamValidation
  validRanges : List TimeRange
  totalValidDurationS : K
  validFraction : K

structure StreamQuality (K : Type) where
  present : Bool
  score : K
  sampleCount : Nat
  gapCount : Nat
  meanRateHz : K

structure ValidTime (K : Type) where
  totalDurationS : K
  validDurationS : K
  validFraction : K
  rangeCount : Nat

structure PacketLoss (K : Type) where
  egoPacketsLost : UInt64
  sourcePacketsLost : UInt64
  egoLossFraction : K
  sourceLossFraction : K

structure DataQualityReport (K : Type) where
  overallScore : K
  usableForTraining : Bool
  streams : List (Bytes × StreamQuality K)
  validTime : ValidTime K
  packetLoss : PacketLoss K
  flags : List Bytes

/-! ## How they are made -/

section Build
variable {K : Type} [OfNat K 0] [OfNat K 1000000000] [OfScientific K] [Add K] [Sub K] [Mul K]
  [Div K] [LT K] [DecidableLT K] [LE K] [DecidableLE K]
-- casts to numbers
variable (ofInt : Int → K) (ofNat : Nat → K)

def durationS (r : TimeRange) : K := ofInt (r.tEndNs - r.tStartNs) / 1000000000

def buildReport (minValidDurationS : K) (egoVal srcVal : StreamValidation) : ValidationReport K :=
  let validRanges := validRangesWith (fun r => minValidDurationS ≤ durationS ofInt r) egoVal srcVal
  let totalDur := ofInt (egoVal.tLastNs - egoVal.tFirstNs) / 1000000000
  let validDur := validRanges.foldl (fun total r => total + durationS ofInt r) 0.0
  { ego := egoVal
    source := srcVal
    validRanges
    totalValidDurationS := validDur
    validFraction := if 0 < totalDur then validDur / totalDur else 0.0 }

def stdMin (a b : K) : K := if b < a then b else a

def streamScore (sv : StreamValidation) : K :=
  if sv.fileOk = false ∨ sv.packetsTotal = 0 then 0.0
  else
    let lossOk := 1.0 - stdMin 1.0 (ofNat sv.packetsLost.toNat / ofNat sv.packetsTotal)
    let monoOk := if 0 < sv.monotonicViolations then 0.9 else 1.0
    let gapOk :=
      1.0 - stdMin 1.0
        (ofNat (sv.audioGapCount + sv.telemetryGapCount) / ofNat (max 1 (sv.packetsTotal / 100)))
    lossOk * monoOk * gapOk

def streamQuality (sv : StreamValidation) (sampleCount : Nat) (rate : K)
    (present : Bool) : StreamQuality K where
  present := present && sv.fileOk
  score := if present then streamScore ofNat sv else 0.0
  sampleCount := sampleCount
  gapCount := sv.audioGapCount + sv.telemetryGapCount + sv.gapEvents.length
  meanRateHz := rate

def qualityStreams (rpt : ValidationReport K) : List (Bytes × StreamQuality K) :=
  let ego := fun rate => streamQuality ofNat rpt.ego rpt.ego.packetsValid rate rpt.ego.fileOk
  let source :=
    fun rate => streamQuality ofNat rpt.source rpt.source.packetsValid rate rpt.source.fileOk
  [(ascii "audio", ego 48000.0), (ascii "gps_ego", ego 1.0), (ascii "gps_source", source 1.0),
    (ascii "imu", ego 100.0), (ascii "source_events", source 0.0)]

def lossFraction (sv : StreamValidation) : K :=
  if 0 < sv.packetsTotal then ofNat sv.packetsLost.toNat / ofNat sv.packetsTotal else 0.0

def overallScore (streams : List (Bytes × StreamQuality K)) : K :=
  let sums := streams.foldl
    (fun (total, cnt) (_, v) => if v.present then (total + v.score, cnt + 1) else (total, cnt))
      (0.0, 0)
  if 0 < sums.2 then sums.1 / ofNat sums.2 else 0.0

def buildDataQualityReport (rpt : ValidationReport K) : DataQualityReport K :=
  let streams := qualityStreams ofNat rpt
  let overall := overallScore ofNat streams
  { overallScore := overall
    usableForTraining := 0.7 ≤ overall ∧ 0.8 ≤ rpt.validFraction
    streams
    validTime :=
      { totalDurationS := ofInt (rpt.ego.tLastNs - rpt.ego.tFirstNs) / 1000000000
        validDurationS := rpt.totalValidDurationS
        validFraction := rpt.validFraction
        rangeCount := rpt.validRanges.length }
    packetLoss :=
      { egoPacketsLost := rpt.ego.packetsLost
        sourcePacketsLost := rpt.source.packetsLost
        egoLossFraction := lossFraction ofNat rpt.ego
        sourceLossFraction := lossFraction ofNat rpt.source }
    flags :=
      (if 0 < rpt.ego.packetsCrcFailed then [ascii "ego_crc_errors"] else []) ++
      (if 0 < rpt.source.packetsCrcFailed then [ascii "source_crc_errors"] else []) ++
      (if rpt.source.fileOk then [] else [ascii "source_missing"]) ++
      (if rpt.validFraction < 0.5 then [ascii "low_valid_fraction"] else []) }

end Build

def ofReport (rpt : Offline.ValidationReport) : ValidationReport Float :=
  ⟨rpt.ego, rpt.source, rpt.validRanges, rpt.totalValidDurationS, rpt.validFraction⟩

theorem buildReport_eq (cfg : Offline.Config) (egoVal srcVal : StreamValidation) :
    ofReport (Offline.buildReport cfg egoVal srcVal) =
      buildReport Float.ofInt cfg.minValidDurationS egoVal srcVal := by
  unfold Offline.buildReport
  rw [extractValidRanges_eq]
  rfl

/-! ## Fractions -/

section Fractions
variable {K : Type} [Field K] [LinearOrder K]

def IsFraction (x : K) : Prop := 0 ≤ x ∧ x ≤ 1

structure AreFractions (rpt : DataQualityReport K) : Prop where
  streams : ∀ stream ∈ rpt.streams, IsFraction stream.2.score
  overall : IsFraction rpt.overallScore
  valid : IsFraction rpt.validTime.validFraction
  egoLoss : IsFraction rpt.packetLoss.egoLossFraction
  sourceLoss : IsFraction rpt.packetLoss.sourceLossFraction

variable [IsStrictOrderedRing K]

theorem isFraction_zero : IsFraction (0.0 : K) := by
  unfold IsFraction
  norm_num

theorem IsFraction.mul {x y : K} (left : IsFraction x)
    (right : IsFraction y) : IsFraction (x * y) :=
  ⟨mul_nonneg left.1 right.1, mul_le_one₀ left.2 right.1 right.2⟩

theorem isFraction_one_sub {x : K} (nonneg : 0 ≤ x) : IsFraction (1.0 - stdMin 1.0 x) := by
  have one : (1.0 : K) = 1 := by norm_num
  rw [one]
  unfold stdMin IsFraction
  split
  · constructor <;> linarith
  · constructor <;> linarith

theorem isFraction_ratio {a b : ℕ} :
    IsFraction (if 0 < b then (a : K) / (b : K) else 0.0) ↔ 0 < b → a ≤ b := by
  split
  next some_ =>
    have pos : (0 : K) < b := Nat.cast_pos.mpr some_
    unfold IsFraction
    rw [div_le_one pos, Nat.cast_le]
    exact ⟨fun both _ => both.2, fun le => ⟨div_nonneg (Nat.cast_nonneg a) pos.le, le some_⟩⟩
  next none => exact ⟨fun _ some_ => absurd some_ none, fun _ => isFraction_zero⟩

theorem isFraction_streamScore (sv : StreamValidation) :
    IsFraction (streamScore Nat.cast sv : K) := by
  unfold streamScore
  dsimp only
  split
  · exact isFraction_zero
  · have mono : IsFraction (if 0 < sv.monotonicViolations then 0.9 else 1.0 : K) := by
      unfold IsFraction
      split <;> norm_num
    have ratio (a b : ℕ) : (0 : K) ≤ (a : K) / (b : K) :=
      div_nonneg (Nat.cast_nonneg a) (Nat.cast_nonneg b)
    exact ((isFraction_one_sub (ratio _ _)).mul mono).mul (isFraction_one_sub (ratio _ _))

theorem isFraction_quality (sv : StreamValidation) (sampleCount : Nat) (rate : K) (present : Bool) :
    IsFraction (streamQuality Nat.cast sv sampleCount rate present).score := by
  unfold streamQuality
  dsimp only
  split
  · exact isFraction_streamScore sv
  · exact isFraction_zero

theorem isFraction_streams (rpt : ValidationReport K) :
    ∀ stream ∈ qualityStreams Nat.cast rpt, IsFraction stream.2.score := by
  unfold qualityStreams
  simp only [List.forall_mem_cons, List.not_mem_nil, false_implies, implies_true, and_true]
  exact ⟨isFraction_quality .., isFraction_quality .., isFraction_quality ..,
    isFraction_quality .., isFraction_quality ..⟩

theorem scores_le (streams : List (Bytes × StreamQuality K))
    (each : ∀ stream ∈ streams, IsFraction stream.2.score) {total : K} {cnt : ℕ}
    (nonneg : 0 ≤ total) (le : total ≤ cnt) :
    let sums := streams.foldl
      (fun (total, cnt) (_, v) => if v.present then (total + v.score, cnt + 1) else (total, cnt))
        (total, cnt)
    0 ≤ sums.1 ∧ sums.1 ≤ (sums.2 : K) := by
  induction streams generalizing total cnt with
  | nil => exact ⟨nonneg, le⟩
  | cons stream rest ih =>
      obtain ⟨here, later⟩ := List.forall_mem_cons.mp each
      rw [List.foldl_cons]
      dsimp only
      split
      · apply ih later (add_nonneg nonneg here.1)
        push_cast
        linarith [here.2]
      · exact ih later nonneg le

theorem isFraction_overallScore {streams : List (Bytes × StreamQuality K)}
    (each : ∀ stream ∈ streams, IsFraction stream.2.score) :
    IsFraction (overallScore Nat.cast streams) := by
  have zero : (0.0 : K) = 0 := by norm_num
  obtain ⟨nonneg, le⟩ := scores_le streams each (le_refl (0 : K)) (Nat.cast_nonneg 0)
  unfold overallScore
  dsimp only
  rw [zero]
  split
  next some_ =>
    have pos := Nat.cast_pos (α := K).mpr some_
    exact ⟨div_nonneg nonneg pos.le, (div_le_one pos).mpr le⟩
  next =>
    rw [← zero]
    exact isFraction_zero

/-! ## The valid time -/

theorem validDuration_eq (ranges : List TimeRange) :
    ranges.foldl (fun total r => total + durationS Int.cast r) (0.0 : K) =
      ((ranges.map fun r => r.tEndNs - r.tStartNs).sum : Int) / 1000000000 := by
  have zero : (0.0 : K) = 0 := by norm_num
  have from_ (start : K) : ranges.foldl (fun total r => total + durationS Int.cast r) start =
      start + ((ranges.map fun r => r.tEndNs - r.tStartNs).sum : Int) / 1000000000 := by
    induction ranges generalizing start with
    | nil => simp
    | cons r rest ih =>
        rw [List.foldl_cons, ih, List.map_cons, List.sum_cons, durationS,
          Int.cast_add, add_div, add_assoc]
  rw [from_, zero, zero_add]

theorem isFraction_valid {egoVal srcVal : StreamValidation} (ego : ErrorsInside egoVal)
    (src : ErrorsInside srcVal) (minValidDurationS : K) :
    IsFraction (buildReport Int.cast minValidDurationS egoVal srcVal).validFraction := by
  have pass :=
    validRangesWith_pass (fun r => decide (minValidDurationS ≤ durationS Int.cast r)) ego src
  unfold buildReport
  dsimp only
  split
  next some_ =>
    have nonneg : 0 ≤
        ((validRangesWith
          (fun r => decide (minValidDurationS ≤ durationS Int.cast r)) egoVal srcVal).map
        fun r => r.tEndNs - r.tStartNs).sum := by
      refine List.sum_nonneg fun d member => ?_
      obtain ⟨r, inside, rfl⟩ := List.mem_map.mp member
      exact sub_nonneg.mpr (pass.proper r inside)
    have billion : (0 : K) < 1000000000 := by norm_num
    rw [validDuration_eq, div_div_div_cancel_right₀ billion.ne']
    have whole : (0 : K) < ((egoVal.tLastNs - egoVal.tFirstNs : Int) : K) := by
      rwa [div_pos_iff_of_pos_right billion] at some_
    exact ⟨div_nonneg (Int.cast_nonneg nonneg) whole.le,
      (div_le_one whole).mpr (Int.cast_le.mpr (pass.total_le ego.ordered))⟩
  next => exact isFraction_zero

theorem areFractions_iff {egoVal srcVal : StreamValidation} (ego : ErrorsInside egoVal)
    (src : ErrorsInside srcVal) (minValidDurationS : K) :
    AreFractions
      (buildDataQualityReport Int.cast Nat.cast
        (buildReport Int.cast minValidDurationS egoVal srcVal)) ↔
      (0 < egoVal.packetsTotal → egoVal.packetsLost.toNat ≤ egoVal.packetsTotal) ∧
        (0 < srcVal.packetsTotal → srcVal.packetsLost.toNat ≤ srcVal.packetsTotal) := by
  rw [← isFraction_ratio (K := K), ← isFraction_ratio (K := K)]
  refine ⟨fun all => ⟨all.egoLoss, all.sourceLoss⟩, fun losses => ?_⟩
  exact {
    streams := isFraction_streams _
    overall := isFraction_overallScore (isFraction_streams _)
    valid := isFraction_valid ego src minValidDurationS
    egoLoss := losses.1
    sourceLoss := losses.2 }

end Fractions

/-! ## What the scan counts -/

def countedLost : Option UInt32 → List (RawPacket × Bool) → UInt64
  | _, [] => 0
  | previous, (_, false) :: rest => 1 + countedLost previous rest
  | previous, (raw, true) :: rest =>
      (match previous with
        | some seq => gapBetween seq raw.header.seq
        | none => 0) + countedLost (some raw.header.seq) rest

def lastSeq (acc : ScanAccumulator) : Option UInt32 := if acc.first then none else some acc.prevSeq

theorem lost_feed {cfg : Offline.Config} {raw : RawPacket} {acc after : ScanAccumulator}
    (fed : acc.feed cfg raw true = some after) :
    after.sv.packetsLost = acc.sv.packetsLost +
        (match lastSeq acc with
          | some seq => gapBetween seq raw.header.seq
          | none => 0) ∧
      lastSeq after = some raw.header.seq := by
  have begun := (ScanAccumulator.range_feed fed).2.1
  rw [ScanAccumulator.feed_true] at fed
  split at fed
  · cases fed
  have quiet := ScanState.quiet_checkTimes cfg raw (toInt64 raw.header.tsNs)
  cases fed
  refine ⟨(quiet.lost _).trans ?_, ?_⟩
  · unfold lastSeq
    cases first : acc.first with
    | true => exact (ScanAccumulator.countSeq_of_first first).1.trans (UInt64.add_zero _).symm
    | false => exact (ScanAccumulator.countSeq_of_later first).1.trans (lost_seqGap ..)
  · unfold lastSeq
    rw [begun]
    rfl

theorem counts_feedEach {cfg : Offline.Config} {pkts : List (RawPacket × Bool)}
    {acc after : ScanAccumulator} (fed : acc.feedEach cfg pkts = some after) :
    after.sv.packetsLost = acc.sv.packetsLost + countedLost (lastSeq acc) pkts ∧
      after.sv.packetsTotal = acc.sv.packetsTotal + pkts.length := by
  induction pkts generalizing acc with
  | nil =>
      cases fed
      exact ⟨(UInt64.add_zero _).symm, rfl⟩
  | cons x pkts ih =>
      obtain ⟨raw, ok⟩ := x
      unfold ScanAccumulator.feedEach at fed
      rw [List.foldlM_cons] at fed
      obtain ⟨next, here, rest⟩ := Option.bind_eq_some_iff.mp fed
      obtain ⟨lost, total⟩ := ih rest
      have counted : next.sv.packetsTotal = acc.sv.packetsTotal + 1 :=
        congrArg Prod.fst (ScanAccumulator.feed_packets here)
      refine ⟨?_, by rw [total, counted, List.length_cons]; omega⟩
      cases ok with
      | false =>
          cases here
          rw [lost, countedLost, ← UInt64.add_assoc]
          rfl
      | true =>
          obtain ⟨gap, seq⟩ := lost_feed here
          rw [lost, gap, seq, UInt64.add_assoc]
          cases lastSeq acc with
          | none => rfl
          | some _ => rfl

/-! ## The figures of a scan -/

/-- All figures are fractions exactly when neither stream has more losses than packets. -/
theorem figures_areFractions_iff {K : Type} [Field K] [LinearOrder K]
    [IsStrictOrderedRing K] {cfg : Offline.Config} {egoOk srcOk : Bool}
    {egoPkts srcPkts : List (RawPacket × Bool)} {ego src : ScanAccumulator}
    (egoFed : ScanAccumulator.feedEach cfg egoPkts { sv.fileOk := egoOk } = some ego)
    (srcFed : ScanAccumulator.feedEach cfg srcPkts { sv.fileOk := srcOk } = some src)
    (minValidDurationS : K) :
    AreFractions
      (buildDataQualityReport Int.cast Nat.cast
        (buildReport Int.cast minValidDurationS ego.sv src.sv)) ↔
      (countedLost none egoPkts).toNat ≤ egoPkts.length ∧
        (countedLost none srcPkts).toNat ≤ srcPkts.length := by
  have counts {fileOk : Bool} {pkts : List (RawPacket × Bool)} {acc : ScanAccumulator}
      (fed : ScanAccumulator.feedEach cfg pkts { sv.fileOk := fileOk } = some acc) :
      (0 < acc.sv.packetsTotal → acc.sv.packetsLost.toNat ≤ acc.sv.packetsTotal) ↔
        (countedLost none pkts).toNat ≤ pkts.length := by
    obtain ⟨lost, total⟩ := counts_feedEach fed
    rw [lost, total]
    show (0 < 0 + pkts.length → (0 + countedLost none pkts).toNat ≤ 0 + pkts.length) ↔ _
    rw [UInt64.zero_add, Nat.zero_add]
    cases pkts with
    | nil => exact ⟨fun _ => le_rfl, fun _ some_ => absurd some_ (lt_irrefl 0)⟩
    | cons x rest => exact ⟨fun all => all (Nat.succ_pos _), fun le _ => le⟩
  rw [areFractions_iff (ScanAccumulator.feedEach_inside egoFed)
    (ScanAccumulator.feedEach_inside srcFed), counts egoFed, counts srcFed]

theorem neighbours_areFractions :
    ∃ (ego src : ScanAccumulator),
      ScanAccumulator.feedEach {} [(timedPacket 0 0, true), (timedPacket 1 20000000000, true)] {} =
        some ego ∧
      ScanAccumulator.feedEach {} [] {} = some src ∧
      AreFractions
        (buildDataQualityReport Int.cast Nat.cast
          (buildReport Int.cast (10 : ℚ) ego.sv src.sv)) := by
  obtain ⟨ego, fed⟩ : ∃ ego,
      ScanAccumulator.feedEach {} [(timedPacket 0 0, true), (timedPacket 1 20000000000, true)] {} =
      some ego := Option.isSome_iff_exists.mp (by decide)
  have figures := @figures_areFractions_iff ℚ _ _ _ {} true true _ [] ego {} fed rfl 10
  exact ⟨ego, {}, fed, rfl, figures.mpr (by decide)⟩

/-- Two packets with 999 numbers between them. -/
theorem leftOut_notFractions :
    ∃ (ego src : ScanAccumulator),
      ScanAccumulator.feedEach {}
        [(timedPacket 0 0, true), (timedPacket 1000 20000000000, true)] {} = some ego ∧
      ScanAccumulator.feedEach {} [] {} = some src ∧
      ¬ AreFractions
        (buildDataQualityReport Int.cast Nat.cast
          (buildReport Int.cast (10 : ℚ) ego.sv src.sv)) := by
  obtain ⟨ego, fed⟩ : ∃ ego,
      ScanAccumulator.feedEach {}
        [(timedPacket 0 0, true), (timedPacket 1000 20000000000, true)] {} =
      some ego := Option.isSome_iff_exists.mp (by decide)
  refine ⟨ego, {}, fed, rfl, fun all => ?_⟩
  have inside := ScanAccumulator.feedEach_inside fed
  have losses :=
    (areFractions_iff inside (ScanAccumulator.bounded_init true).inside (10 : ℚ)).mp all
  obtain ⟨lost, total⟩ := counts_feedEach fed
  rw [lost, total] at losses
  exact absurd losses.1 (by decide)

end LocalPC.Offline.Exact
