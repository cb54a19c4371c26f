import LocalPC.Lib.Neighbours
import LocalPC.Offline.LogValidator
import LocalPC.Offline.ScanArithmetic

namespace LocalPC.Offline
open Lib Contract LocalPC.Runtime

def firstPeriod (blocks : List RawPacket) : UInt32 := ((blocks.map periodOf).find? (· ≠ 0)).getD 0

def PacketBreak (cfg : Config) (_ : List RawPacket) (p q : RawPacket) : Prop :=
  p.header.seq + 1 < q.header.seq ∨ nsOf q < nsOf p ∨
    cfg.maxTimestampJumpMs * kNsPerMs < nsOf q - nsOf p

def AudioBreak (cfg : Config) (blocks : List RawPacket) (p q : RawPacket) : Prop :=
  nsOf p ≠ 0 ∧ 0 < firstPeriod (blocks ++ [q]) ∧
    ScanState.audioThresh cfg (firstPeriod (blocks ++ [q])) < nsOf q - nsOf p

def ImuBreak (cfg : Config) (_ : List RawPacket) (p q : RawPacket) : Prop :=
  nsOf p ≠ 0 ∧ cfg.telemetryGapMs * kNsPerMs < nsOf q - nsOf p

def Breaks (cfg : Config) (pkts : List RawPacket) : Prop :=
  Neighbours (PacketBreak cfg) pkts ∨ Neighbours (AudioBreak cfg) (pkts.filter isAudio) ∨
    Neighbours (ImuBreak cfg) (pkts.filter isImu)

theorem not_breaks_nil (cfg : Config) : ¬ Breaks cfg [] := by
  rintro (packet | audio | imu)
  · exact not_neighbours_nil packet
  · exact not_neighbours_nil audio
  · exact not_neighbours_nil imu

theorem not_neighbours_filter_singleton
    {R : List RawPacket → RawPacket → RawPacket → Prop} (p : RawPacket → Bool) (raw : RawPacket) :
    ¬ Neighbours R ([raw].filter p) := by
  cases passes : p raw with
  | true =>
      rw [List.filter_cons_of_pos passes]
      exact not_neighbours_singleton raw
  | false =>
      rw [List.filter_cons_of_neg (by simp [passes])]
      exact not_neighbours_nil

theorem not_breaks_singleton (cfg : Config) (raw : RawPacket) : ¬ Breaks cfg [raw] := by
  rintro (packet | audio | imu)
  · exact not_neighbours_singleton raw packet
  · exact not_neighbours_filter_singleton isAudio raw audio
  · exact not_neighbours_filter_singleton isImu raw imu

namespace ScanState

theorem events_checkMonotonic (ts : Int) (s : ScanState) :
    (s.checkMonotonic ts).sv.gapEvents ≠ [] ↔ s.sv.gapEvents ≠ [] ∨
      s.first = false ∧ ts < s.prevTs := by
  unfold checkMonotonic
  split
  · rename_i back
    simp [StreamValidation.push, back]
  · rename_i forward
    simp [forward]

theorem events_checkJump (cfg : Config) (ts : Int) (s : ScanState) :
    (s.checkJump cfg ts).sv.gapEvents ≠ [] ↔
      s.sv.gapEvents ≠ [] ∨ s.first = false ∧
        cfg.maxTimestampJumpMs * kNsPerMs < ts - s.prevTs := by
  unfold checkJump
  dsimp only
  split
  · rename_i far
    simp [StreamValidation.push, far]
  · rename_i near
    simp [near]

theorem events_checkAudio (cfg : Config) (raw : RawPacket) (ts : Int) (s : ScanState) :
    (s.checkAudio cfg raw ts).sv.gapEvents ≠ [] ↔ s.sv.gapEvents ≠ [] ∨
      isAudio raw = true ∧ s.prevAudioTs ≠ 0 ∧
      0 < nominalPeriod (AudioBlockHeader.decode raw.payload) s.nominalAudioPeriodNs ∧
      audioThresh cfg (nominalPeriod (AudioBlockHeader.decode raw.payload) s.nominalAudioPeriodNs) <
        ts - s.prevAudioTs := by
  unfold checkAudio isAudio
  rw [decide_eq_true_iff]
  dsimp only
  split
  · rename_i block
    split
    · rename_i far
      simp only [StreamValidation.push, block, far, ne_eq, List.append_eq_nil_iff,
        List.cons_ne_nil, and_false, not_false_iff, and_true, or_true]
    · rename_i near
      simp only [block, true_and, near, or_false]
  · rename_i other
    simp only [other, false_and, or_false]

theorem events_checkImu (cfg : Config) (raw : RawPacket) (ts : Int) (s : ScanState) :
    (s.checkImu cfg raw ts).sv.gapEvents ≠ [] ↔
      s.sv.gapEvents ≠ [] ∨ isImu raw = true ∧ s.prevImuTs ≠ 0 ∧
        cfg.telemetryGapMs * kNsPerMs < ts - s.prevImuTs := by
  unfold checkImu isImu
  rw [decide_eq_true_iff]
  dsimp only
  split
  · rename_i sample
    split
    · rename_i far
      simp only [StreamValidation.push, sample, far, ne_eq, List.append_eq_nil_iff,
        List.cons_ne_nil, and_false, not_false_iff, and_true, or_true]
    · rename_i near
      simp only [sample, true_and, near, or_false]
  · rename_i other
    simp only [other, false_and, or_false]

def Marks (cfg : Config) (raw : RawPacket) (ts : Int) (s : ScanState) : Prop :=
  s.first = false ∧ (ts < s.prevTs ∨ cfg.maxTimestampJumpMs * kNsPerMs < ts - s.prevTs) ∨
  isAudio raw = true ∧ s.prevAudioTs ≠ 0 ∧
    0 < nominalPeriod (AudioBlockHeader.decode raw.payload) s.nominalAudioPeriodNs ∧
    audioThresh cfg (nominalPeriod (AudioBlockHeader.decode raw.payload) s.nominalAudioPeriodNs) <
      ts - s.prevAudioTs ∨
  isImu raw = true ∧ s.prevImuTs ≠ 0 ∧ cfg.telemetryGapMs * kNsPerMs < ts - s.prevImuTs

theorem events_checkTimes (cfg : Config) (raw : RawPacket) (ts : Int) (s : ScanState) :
    (s.checkTimes cfg raw ts).sv.gapEvents ≠ [] ↔ s.sv.gapEvents ≠ [] ∨ s.Marks cfg raw ts := by
  let monotonic := s.checkMonotonic ts
  let jump := monotonic.checkJump cfg ts
  let range := jump.updateRange ts
  have same : monotonic.first = s.first ∧ monotonic.prevTs = s.prevTs := by
    unfold monotonic checkMonotonic
    split <;> exact ⟨rfl, rfl⟩
  have marked : ScanAccumulator.marks range = ScanAccumulator.marks s :=
    (ScanAccumulator.marks_checkJump cfg ts monotonic).trans
      (ScanAccumulator.marks_checkMonotonic ts s)
  have imuSame : (range.checkAudio cfg raw ts).prevImuTs = range.prevImuTs := by
    unfold checkAudio
    dsimp only
    split
    · split <;> rfl
    · rfl
  unfold ScanAccumulator.marks at marked
  rw [Prod.mk.injEq, Prod.mk.injEq] at marked
  obtain ⟨audioTs, imuTs, nominal⟩ := marked
  show ((range.checkAudio cfg raw ts).checkImu cfg raw ts).sv.gapEvents ≠ [] ↔ _
  rw [events_checkImu, events_checkAudio, imuSame, audioTs, imuTs, nominal]
  show ((jump.sv.gapEvents ≠ [] ∨ _) ∨ _) ↔ _
  rw [events_checkJump, events_checkMonotonic, same.1, same.2]
  rw [Marks, and_or_left]
  simp only [or_assoc]

end ScanState

theorem firstPeriod_concat (blocks : List RawPacket) (raw : RawPacket) :
    firstPeriod (blocks ++ [raw]) =
      ScanState.nominalPeriod (AudioBlockHeader.decode raw.payload) (firstPeriod blocks) := by
  unfold firstPeriod ScanState.nominalPeriod
  rw [List.map_append, List.find?_append]
  cases found : (blocks.map periodOf).find? (· ≠ 0) with
  | none =>
      rw [Option.none_or, List.map_singleton, List.find?_singleton, Option.getD_none, if_pos rfl]
      by_cases zero : periodOf raw = 0
      · rw [if_neg (by simpa using zero), Option.getD_none]
        exact zero.symm
      · rw [if_pos (by simpa using zero)]
        rfl
  | some period =>
      have nonzero : period ≠ 0 := by simpa using List.find?_some found
      rw [Option.some_or, Option.getD_some, if_neg nonzero]

theorem breaks_concat (cfg : Config) (pkts : List RawPacket) (raw : RawPacket) :
    Breaks cfg (pkts ++ [raw]) ↔ Breaks cfg pkts ∨
      (∃ prev ∈ pkts.getLast?, PacketBreak cfg pkts prev raw) ∨
      (isAudio raw = true ∧ ∃ prev ∈ (pkts.filter isAudio).getLast?,
        AudioBreak cfg (pkts.filter isAudio) prev raw) ∨
      (isImu raw = true ∧ ∃ prev ∈ (pkts.filter isImu).getLast?,
        ImuBreak cfg (pkts.filter isImu) prev raw) := by
  unfold Breaks
  rw [neighbours_concat, neighbours_filter_concat, neighbours_filter_concat]
  exact (or_congr_right or_or_or_comm).trans or_or_or_comm

theorem events_seqGap (streamId : String) (expected actual : UInt32) (t prevT : Int)
    (sv : StreamValidation) :
    (sv.seqGap streamId expected actual t prevT).gapEvents ≠ [] ↔
      sv.gapEvents ≠ [] ∨ expected < actual := by
  unfold StreamValidation.seqGap
  split
  · rename_i gap
    simp [StreamValidation.push, gap.2]
  · rename_i near
    have notAbove : ¬ expected < actual := fun above =>
      near ⟨fun same => (UInt32.lt_irrefl _ (same ▸ above)).elim, above⟩
    simp [notAbove]

namespace ScanAccumulator

theorem events_countSeq (raw : RawPacket) (acc : ScanAccumulator) :
    (acc.countSeq raw).gapEvents ≠ [] ↔
      acc.sv.gapEvents ≠ [] ∨ acc.first = false ∧ acc.prevSeq + 1 < raw.header.seq := by
  have stamp (sv : StreamValidation) :
      (if toInt64 raw.header.tsNs = 0 then { sv with
        timestampViolations := sv.timestampViolations + 1 } else sv).gapEvents =
        sv.gapEvents := by
    split <;> rfl
  unfold countSeq
  dsimp only
  rw [stamp]
  cases acc.first with
  | true => simp
  | false =>
      rw [if_neg Bool.false_ne_true, events_seqGap]
      simp

theorem lost_countSeq {raw : RawPacket} {acc : ScanAccumulator}
    (before : acc.sv.packetsLost ≠ 0 → acc.sv.gapEvents ≠ [])
    (lost : (acc.countSeq raw).packetsLost ≠ 0) : (acc.countSeq raw).gapEvents ≠ [] := by
  rw [events_countSeq]
  by_contra none
  rw [not_or, not_not] at none
  refine absurd (mt before (not_not.mpr none.1)) (not_not.mpr ?_)
  have stamp (sv : StreamValidation) :
      (if toInt64 raw.header.tsNs = 0 then { sv with
        timestampViolations := sv.timestampViolations + 1 } else sv).packetsLost =
        sv.packetsLost := by
    split <;> rfl
  unfold countSeq at lost
  dsimp only at lost
  rw [stamp] at lost
  cases first : acc.first with
  | true => simpa [first] using lost
  | false =>
      have near : ¬ acc.prevSeq + 1 < raw.header.seq := fun above => none.2 ⟨first, above⟩
      simpa [first, StreamValidation.seqGap, near] using lost

structure Finds (cfg : Config) (pkts : List RawPacket) (acc : ScanAccumulator) : Prop where
  keeps : Keeps pkts acc
  seq : ∀ prev ∈ pkts.getLast?, acc.prevSeq = prev.header.seq
  period : acc.nominalAudioPeriodNs = firstPeriod (pkts.filter isAudio)
  events : acc.sv.gapEvents ≠ [] ↔ Breaks cfg pkts
  lost : acc.sv.packetsLost ≠ 0 → acc.sv.gapEvents ≠ []

theorem finds_init (cfg : Config) (fileOk : Bool) : Finds cfg [] { sv := { fileOk } } where
  keeps := ⟨rfl, nofun, rfl, rfl, by simp⟩
  seq := nofun
  period := rfl
  events := by simp [not_breaks_nil]
  lost := by simp

theorem Finds.marks_iff {cfg : Config} {pkts : List RawPacket} {acc : ScanAccumulator}
    (finds : Finds cfg pkts acc) (raw : RawPacket) :
    (acc.first = false ∧ acc.prevSeq + 1 < raw.header.seq) ∨
      acc.toScanState.Marks cfg raw (nsOf raw) ↔
      (∃ prev ∈ pkts.getLast?, PacketBreak cfg pkts prev raw) ∨
      (isAudio raw = true ∧ ∃ prev ∈ (pkts.filter isAudio).getLast?,
        AudioBreak cfg (pkts.filter isAudio) prev raw) ∨
      (isImu raw = true ∧ ∃ prev ∈ (pkts.filter isImu).getLast?,
        ImuBreak cfg (pkts.filter isImu) prev raw) := by
  have packet : acc.first = false ∧ (acc.prevSeq + 1 < raw.header.seq ∨ nsOf raw < acc.prevTs ∨
      cfg.maxTimestampJumpMs * kNsPerMs < nsOf raw - acc.prevTs) ↔
        ∃ prev ∈ pkts.getLast?, PacketBreak cfg pkts prev raw := by
    cases last : pkts.getLast? with
    | none =>
        have first := finds.keeps.first
        rw [List.getLast?_eq_none_iff.mp last] at first
        simp [first]
    | some prev =>
        have first := finds.keeps.first
        obtain ⟨front, split⟩ := List.getLast?_eq_some_iff.mp last
        rw [split] at first
        rw [finds.seq prev last, finds.keeps.prevTs prev last, first]
        simp [PacketBreak]
  have audio : acc.prevAudioTs ≠ 0 ∧
      0 < ScanState.nominalPeriod (AudioBlockHeader.decode raw.payload) acc.nominalAudioPeriodNs ∧
      ScanState.audioThresh cfg
        (ScanState.nominalPeriod (AudioBlockHeader.decode raw.payload) acc.nominalAudioPeriodNs) <
        nsOf raw - acc.prevAudioTs ↔
      ∃ prev ∈ (pkts.filter isAudio).getLast?, AudioBreak cfg (pkts.filter isAudio) prev raw := by
    rw [finds.keeps.prevAudioTs, finds.period, ← firstPeriod_concat]
    cases (pkts.filter isAudio).getLast? with
    | none => simp
    | some prev => simp [AudioBreak]
  have imu : acc.prevImuTs ≠ 0 ∧ cfg.telemetryGapMs * kNsPerMs < nsOf raw - acc.prevImuTs ↔
      ∃ prev ∈ (pkts.filter isImu).getLast?, ImuBreak cfg (pkts.filter isImu) prev raw := by
    rw [finds.keeps.prevImuTs]
    cases (pkts.filter isImu).getLast? with
    | none => simp
    | some prev => simp [ImuBreak]
  unfold ScanState.Marks
  rw [← or_assoc, ← and_or_left, packet, audio, imu]

theorem period_of_feed {cfg : Config} {pkts : List RawPacket} {raw : RawPacket}
    {acc after : ScanAccumulator}
    (period : acc.nominalAudioPeriodNs = firstPeriod (pkts.filter isAudio))
    (fed : feed cfg raw true acc = some after) :
    after.nominalAudioPeriodNs = firstPeriod ((pkts ++ [raw]).filter isAudio) := by
  have marked := congrArg (fun marks => marks.2.2) (feed_marks fed).2.2
  rw [show after.nominalAudioPeriodNs = _ from marked, List.filter_append]
  cases audio : isAudio raw with
  | true =>
      rw [List.filter_cons_of_pos audio, List.filter_nil, firstPeriod_concat, ← period]
      rfl
  | false =>
      rw [List.filter_cons_of_neg (by simp [audio]), List.filter_nil, List.append_nil, ← period,
        if_neg Bool.false_ne_true]
      split <;> rfl

theorem Finds.step {cfg : Config} {pkts : List RawPacket} {raw : RawPacket}
    {acc after : ScanAccumulator} (finds : Finds cfg pkts acc)
    (fed : feed cfg raw true acc = some after) : Finds cfg (pkts ++ [raw]) after := by
  have keeps := finds.keeps.good fed
  have period := period_of_feed finds.period fed
  rw [feed_true] at fed
  split at fed
  · cases fed
  · cases fed
    let counted : ScanState := { acc.toScanState with sv := acc.countSeq raw }
    have events : (counted.checkTimes cfg raw (nsOf raw)).sv.gapEvents ≠ [] ↔
        (acc.countSeq raw).gapEvents ≠ [] ∨ acc.toScanState.Marks cfg raw (nsOf raw) :=
      ScanState.events_checkTimes cfg raw (nsOf raw) counted
    refine ⟨keeps, ?_, ?_, ?_, fun lost => ?_⟩
    · rw [List.getLast?_concat]
      rintro prev ⟨⟩
      rfl
    · exact period
    · show (counted.checkTimes cfg raw (nsOf raw)).sv.gapEvents ≠ [] ↔ _
      rw [events, events_countSeq, breaks_concat, finds.events, or_assoc, finds.marks_iff]
    · change (counted.checkTimes cfg raw (nsOf raw)).sv.packetsLost ≠ 0 at lost
      rw [(ScanState.quiet_checkTimes cfg raw (nsOf raw)).lost] at lost
      exact events.mpr (Or.inl (lost_countSeq finds.lost lost))

theorem finds_of_feedAll {cfg : Config} {pkts : List RawPacket}
    (ok : ∀ raw ∈ pkts, packetOk raw = true) {fileOk : Bool} {acc : ScanAccumulator}
    (fed : feedAll cfg pkts { sv := { fileOk } } = some acc) :
    Finds cfg pkts acc := by
  induction pkts using List.reverseRecOn generalizing acc with
  | nil =>
      cases fed
      exact finds_init cfg fileOk
  | append_singleton pkts raw ih =>
      rw [feedAll_concat] at fed
      obtain ⟨mid, before, last⟩ := Option.bind_eq_some_iff.mp fed
      rw [ok raw (by simp)] at last
      exact (ih (fun raw' member => ok raw' (List.mem_append_left _ member)) before).step last

theorem fileOk_checkTimes (cfg : Config) (raw : RawPacket) (ts : Int) (s : ScanState) :
    (s.checkTimes cfg raw ts).sv.fileOk = s.sv.fileOk := by
  have monotonic (s : ScanState) : (s.checkMonotonic ts).sv.fileOk = s.sv.fileOk := by
    unfold ScanState.checkMonotonic
    split <;> rfl
  have jump (s : ScanState) : (s.checkJump cfg ts).sv.fileOk = s.sv.fileOk := by
    unfold ScanState.checkJump
    dsimp only
    split <;> rfl
  have audio (s : ScanState) : (s.checkAudio cfg raw ts).sv.fileOk = s.sv.fileOk := by
    unfold ScanState.checkAudio
    split
    · dsimp only
      split <;> rfl
    · rfl
  have imu (s : ScanState) : (s.checkImu cfg raw ts).sv.fileOk = s.sv.fileOk := by
    unfold ScanState.checkImu
    split
    · dsimp only
      split <;> rfl
    · rfl
  exact (imu _).trans ((audio _).trans ((jump _).trans (monotonic s)))

theorem fileOk_of_feed {cfg : Config} {raw : RawPacket} {ok : Bool} {acc after : ScanAccumulator}
    (fed : feed cfg raw ok acc = some after) : after.sv.fileOk = acc.sv.fileOk := by
  cases ok with
  | false =>
      cases fed
      rfl
  | true =>
      rw [feed_true] at fed
      split at fed
      · cases fed
      · cases fed
        obtain ⟨lost, events, counted⟩ := countSeq_eq raw acc
        refine (fileOk_checkTimes ..).trans ?_
        rw [counted]

theorem fileOk_of_feedAll {cfg : Config} {pkts : List RawPacket} {acc after : ScanAccumulator}
    (fed : feedAll cfg pkts acc = some after) : after.sv.fileOk = acc.sv.fileOk := by
  induction pkts generalizing acc with
  | nil =>
      cases fed
      rfl
  | cons raw pkts ih =>
      rw [feedAll_cons] at fed
      obtain ⟨mid, first, rest⟩ := Option.bind_eq_some_iff.mp fed
      exact (ih rest).trans (fileOk_of_feed first)

end ScanAccumulator
end LocalPC.Offline
