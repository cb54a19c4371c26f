import LocalPC.Offline.LogValidator
import LocalPC.Offline.ReadRange

namespace LocalPC.Offline
open Lib Contract LocalPC.Runtime

/-- The counters, the range, the break points and what follows from them. -/
structure Agree (cfg : Config) (a b : StreamValidation) : Prop where
  packetsTotal : a.packetsTotal = b.packetsTotal
  packetsValid : a.packetsValid = b.packetsValid
  packetsLost : a.packetsLost = b.packetsLost
  packetsCrcFailed : a.packetsCrcFailed = b.packetsCrcFailed
  timestampViolations : a.timestampViolations = b.timestampViolations
  monotonicViolations : a.monotonicViolations = b.monotonicViolations
  audioGapCount : a.audioGapCount = b.audioGapCount
  telemetryGapCount : a.telemetryGapCount = b.telemetryGapCount
  tFirstNs : a.tFirstNs = b.tFirstNs
  tLastNs : a.tLastNs = b.tLastNs
  breaks : a.breaks = b.breaks
  ranges : ∀ src, extractValidRanges cfg a src = extractValidRanges cfg b src

structure Healthy (raw : RawPacket) : Prop where
  legacy : raw.isContract = false
  intact : BinaryParser.validate raw = .ok
  dated : toInt64 raw.header.tsNs ≠ 0
  untrapped : audioTraps raw = false

def MissingChunk (manifest : EgoManifest) (dir : Dir) : Prop :=
  ∃ chunk ∈ manifest.chunks, dir.lookup chunk.path = none

/-- The logs on which both validations say the same. -/
structure Comparable (manifest : EgoManifest) (dir : Dir) : Prop where
  healthy : ∀ raw ∈ (EgoLogReader.create dir manifest.chunks).packets dir, Healthy raw
  missing : MissingChunk manifest dir → (EgoLogReader.create dir manifest.chunks).packets dir = []
  count : ¬ MissingChunk manifest dir →
    manifest.packetCount.toNat ≤ ((EgoLogReader.create dir manifest.chunks).packets dir).length

theorem Healthy.packetOk {raw : RawPacket} (healthy : Healthy raw) : packetOk raw = true := by
  unfold Offline.packetOk
  rw [healthy.legacy, healthy.intact]
  rfl

def bump (s : ScanState) : ScanState :=
  { s with sv.packetsTotal := s.sv.packetsTotal + 1, sv.packetsValid := s.sv.packetsValid + 1 }

theorem bare_step (cfg : Config) {raw : RawPacket} (healthy : Healthy raw)
    {acc : ScanAccumulator} {s : EgoScan} (same : acc.bare = s.bare) :
    ∃ acc' s', acc.feed cfg raw (packetOk raw) = some acc' ∧ s.see cfg raw = some s' ∧
      acc'.bare = s'.bare := by
  rw [healthy.packetOk, ScanAccumulator.feed_true,
    EgoScan.see_ok cfg healthy.intact, healthy.untrapped]
  refine ⟨_, _, rfl, rfl, ?_⟩
  apply (ScanState.quiet_checkTimes cfg raw _).bare_congr
  have left : ({ acc.toScanState with sv := acc.countSeq raw } : ScanState).bare =
      bump acc.bare := by
    obtain ⟨lost, events, counted⟩ := ScanAccumulator.countSeq_eq raw acc
    rw [counted, if_neg healthy.dated]
    rfl
  have right : ({ s.toScanState with sv := s.countTs raw } : ScanState).bare = bump s.bare := by
    unfold EgoScan.countTs
    dsimp only
    rw [if_neg healthy.dated]
    rfl
  rw [left, right, same]

theorem bare_run (cfg : Config) {pkts : List RawPacket} (healthy : ∀ raw ∈ pkts, Healthy raw)
    (acc : ScanAccumulator) (s : EgoScan) (same : acc.bare = s.bare) :
    ∃ acc' s', acc.feedAll cfg pkts = some acc' ∧ s.seeAll cfg pkts = some s' ∧
      acc'.bare = s'.bare := by
  induction pkts generalizing acc s with
  | nil => exact ⟨acc, s, rfl, rfl, same⟩
  | cons raw pkts ih =>
      obtain ⟨here, rest⟩ := List.forall_mem_cons.mp healthy
      obtain ⟨next, next', fed, seen, same'⟩ := bare_step cfg here same
      rw [ScanAccumulator.feedAll_cons, EgoScan.seeAll_cons, fed, seen]
      exact ih rest next next' same'

theorem agree_of_bare {cfg : Config} {a b : ScanState} (same : a.bare = b.bare)
    (loss : SameLoss a.sv b.sv) :
    Agree cfg a.sv b.sv := by
  have fields := congrArg ScanState.sv same
  simp only [ScanState.bare, ScanState.withLoss, StreamValidation.mk.injEq] at fields
  obtain ⟨file, total, valid, -, crcFailed, timestamps, monotonic, audio, telemetry,
      first, last, -⟩ := fields
  have breaks : a.sv.breaks = b.sv.breaks := by rw [StreamValidation.breaks, loss.2]; rfl
  refine ⟨total, valid, loss.1, crcFailed, timestamps, monotonic, audio,
    telemetry, first, last, breaks, fun src => ?_⟩
  have ranges : buildRanges cfg a.sv .ego = buildRanges cfg b.sv .ego := by
    unfold buildRanges
    rw [file, first, last, breaks]
  unfold extractValidRanges
  rw [ranges]

theorem agree_of_empty (cfg : Config) {a b : StreamValidation}
    (left : ∃ fileOk errors, a = { fileOk := fileOk, fileErrors := errors })
    (right : ∃ fileOk errors, b = { fileOk := fileOk, fileErrors := errors }) : Agree cfg a b := by
  obtain ⟨ok, errors, rfl⟩ := left
  obtain ⟨ok', errors', rfl⟩ := right
  refine ⟨rfl, rfl, rfl, rfl, rfl, rfl, rfl, rfl, rfl, rfl, rfl, fun src => ?_⟩
  have none (fileOk : Bool) (errors : List Bytes) :
      buildRanges cfg { fileOk := fileOk, fileErrors := errors } .ego = [] :=
    if_pos (Or.inr (le_refl 0))
  unfold extractValidRanges
  rw [none, none]

theorem seqTs_healthy {pkts : List RawPacket} (healthy : ∀ raw ∈ pkts, Healthy raw) :
    seqTs pkts = (pkts.filter (BinaryParser.validate · = .ok)).map
      fun raw => (raw.header.seq, toInt64 raw.header.tsNs) := by
  unfold seqTs
  congr 1
  apply List.filter_congr
  intro raw member
  rw [(healthy raw member).packetOk, (healthy raw member).intact]
  rfl

theorem loss_healthy {cfg : Config} {pkts : List RawPacket}
    (healthy : ∀ raw ∈ pkts, Healthy raw) {fileOk : Bool} {acc : ScanAccumulator} {s : EgoScan}
    (fed : ScanAccumulator.feedAll cfg pkts { sv := { fileOk } } = some acc)
    (seen : EgoScan.seeAll cfg pkts {} = some s) :
    SameLoss acc.sv (checkSeqGaps "ego" s.seqTsList s.sv) := by
  have left := (ScanAccumulator.tracked_of_feedAll fed).loss
  have right := EgoScan.seen_of_seeAll seen
  have noBad : pkts.countP (!packetOk ·) = 0 := by
    apply List.countP_eq_zero.mpr
    intro raw member
    rw [(healthy raw member).packetOk]
    decide
  have noFail : pkts.countP (BinaryParser.validate · ≠ .ok) = 0 := by
    apply List.countP_eq_zero.mpr
    intro raw member
    simp [(healthy raw member).intact]
  have noMark : pkts.countP EgoScan.marksError = 0 := by
    apply List.countP_eq_zero.mpr
    intro raw member
    simp [EgoScan.marksError, (healthy raw member).intact, (healthy raw member).dated]
  have start : SameLoss s.sv {} := by
    refine ⟨?_, List.eq_nil_of_length_eq_zero ?_⟩
    · rw [right.lost, noFail]
      rfl
    · rw [right.errors, noMark]
  rw [noBad, seqTs_healthy healthy, ← right.seqTs] at left
  have base : SameLoss acc.sv (checkSeqGaps "ego" s.seqTsList {}) :=
    left.trans ⟨UInt64.add_zero _, rfl⟩
  have same := start.checkSeqGaps "ego" s.seqTsList
  exact base.trans ⟨same.1.symm, same.2.symm⟩

theorem agree_of_comparable (cfg : Config) {manifest : EgoManifest} {dir : Dir}
    (log : Comparable manifest dir) :
    ∃ a b, scanEgo cfg manifest dir = some a ∧
      validateEgo cfg manifest dir = some b ∧ Agree cfg a b := by
  rw [scanEgo_eq]
  by_cases missing : MissingChunk manifest dir
  · obtain ⟨chunk, listed, absent⟩ := missing
    obtain ⟨errors, failed⟩ := validateEgo_missing cfg listed absent
    rw [log.missing ⟨chunk, listed, absent⟩, failed]
    exact ⟨_, _, rfl, rfl, agree_of_empty cfg ⟨_, _, rfl⟩ ⟨_, _, rfl⟩⟩
  · have present : ∀ chunk ∈ manifest.chunks, dir.lookup chunk.path ≠ none :=
      fun chunk listed absent => missing ⟨chunk, listed, absent⟩
    have healthy := log.healthy
    have count := log.count missing
    rw [validateEgo_present cfg present]
    by_cases chunks : manifest.chunks = []
    · have empty : (EgoLogReader.create dir manifest.chunks).packets dir = [] := by
        rw [chunks]
        rfl
      rw [empty] at count ⊢
      have start : compareManifest manifest (checkSeqGaps "ego" [] {}) = {} := by
        unfold compareManifest
        rw [if_neg (by rintro ⟨-, fewer⟩; exact absurd fewer (not_lt.mpr count))]
        rfl
      exact ⟨_, _, rfl, rfl, agree_of_empty cfg ⟨_, _, rfl⟩ ⟨true, [], start⟩⟩
    · obtain ⟨acc, s, fed, seen, same⟩ := bare_run cfg healthy
        { sv := { fileOk := manifest.chunks ≠ [] } } {} (by rw [decide_eq_true chunks])
      have loss := loss_healthy healthy fed seen
      obtain ⟨lost, events, gaps⟩ := checkSeqGaps_eq "ego" s.seqTsList s.sv
      have valid : (checkSeqGaps "ego" s.seqTsList s.sv).packetsValid =
          ((EgoLogReader.create dir manifest.chunks).packets dir).length := by
        have counted := (EgoScan.seen_of_seeAll seen).packets
        rw [gaps]
        show s.packets.2.1 = _
        rw [counted]
        apply List.countP_eq_length.mpr
        intro raw member
        exact decide_eq_true (healthy raw member).intact
      have unchanged : compareManifest manifest (checkSeqGaps "ego" s.seqTsList s.sv) =
          checkSeqGaps "ego" s.seqTsList s.sv := by
        unfold compareManifest
        rw [if_neg (by rw [valid]; rintro ⟨-, fewer⟩; exact absurd fewer (not_lt.mpr count))]
      rw [fed, seen]
      refine ⟨_, _, rfl, rfl, ?_⟩
      show Agree cfg acc.sv (compareManifest manifest _)
      rw [unchanged]
      have bare : acc.bare =
          ({ s.toScanState with sv := checkSeqGaps "ego" s.seqTsList s.sv } : ScanState).bare := by
        rw [gaps, same]
        rfl
      exact agree_of_bare bare loss

theorem imp_of_countP_eq {α : Type*} {p q : α → Bool} {l : List α}
    (inside : ∀ x ∈ l, p x = true → q x = true) (same : l.countP p = l.countP q) :
    ∀ x ∈ l, q x = true → p x = true := by
  induction l with
  | nil => exact fun x member => absurd member List.not_mem_nil
  | cons head l ih =>
      obtain ⟨here, rest⟩ := List.forall_mem_cons.mp inside
      have fewer := List.countP_mono_left rest
      rw [List.countP_cons, List.countP_cons] at same
      rw [List.forall_mem_cons]
      cases left : p head with
      | true =>
          rw [left, here left] at same
          exact ⟨fun _ => rfl, ih rest (by simpa using same)⟩
      | false =>
          cases right : q head with
          | true =>
              rw [left, right, if_neg Bool.false_ne_true, if_pos rfl] at same
              omega
          | false =>
              rw [left, right] at same
              exact ⟨fun is => absurd is Bool.false_ne_true, ih rest (by simpa using same)⟩

theorem errorTimes_seqGap (streamId : String) (expected actual : UInt32)
    (t prevT : Int) {pre : List Int} {a b : StreamValidation}
    (more : a.errorTimes = pre ++ b.errorTimes) :
    (a.seqGap streamId expected actual t prevT).errorTimes =
      pre ++ (b.seqGap streamId expected actual t prevT).errorTimes := by
  unfold StreamValidation.seqGap
  split
  · unfold StreamValidation.errorTimes at more
    simp only [StreamValidation.errorTimes, StreamValidation.push,
      List.filter_append, List.map_append, more, List.append_assoc]
  · exact more

theorem errorTimes_checkSeqGaps (streamId : String) (seqTs : List (UInt32 × Int)) {pre : List Int}
    {a b : StreamValidation} (more : a.errorTimes = pre ++ b.errorTimes) :
    (checkSeqGaps streamId seqTs a).errorTimes =
      pre ++ (checkSeqGaps streamId seqTs b).errorTimes := by
  induction seqTs generalizing a b with
  | nil => exact more
  | cons head rest ih =>
      cases rest with
      | nil => exact more
      | cons next rest => exact ih (errorTimes_seqGap _ _ _ _ _ more)

theorem validate_contract {reader : EgoLogReader} {dir : Dir} {raw : RawPacket}
    (member : raw ∈ reader.packets dir) (contract : raw.isContract = true) :
    BinaryParser.validate raw = .badMagic := by
  obtain ⟨chunk, -, bytes, -, inside | inside⟩ := EgoLogReader.mem_packets member
  · obtain ⟨offset, record, tail, -, -, rfl⟩ := PacketFormat.mem_packets inside
    exact if_pos (show (0 : UInt32) ≠ kMagic by decide)
  · obtain ⟨offset, record, tail, -, -, rfl⟩ := PacketFormat.mem_packets inside
    exact absurd contract Bool.false_ne_true

theorem packetOk_legacy {raw : RawPacket} (legacy : raw.isContract = false) :
    packetOk raw = decide (BinaryParser.validate raw = .ok) := by
  unfold packetOk
  rw [legacy]
  rfl

theorem healthy_of_agree {cfg : Config} {manifest : EgoManifest} {dir : Dir}
    {fileOk : Bool} {acc : ScanAccumulator} {s : EgoScan}
    (fed : ScanAccumulator.feedAll cfg ((EgoLogReader.create dir manifest.chunks).packets dir)
      { sv := { fileOk } } = some acc)
    (seen : EgoScan.seeAll cfg ((EgoLogReader.create dir manifest.chunks).packets dir) {} = some s)
    (valid : acc.sv.packetsValid = s.sv.packetsValid)
    (crcFailed : acc.sv.packetsCrcFailed = s.sv.packetsCrcFailed)
    (breaks : acc.sv.breaks = (checkSeqGaps "ego" s.seqTsList s.sv).breaks) :
    ∀ raw ∈ (EgoLogReader.create dir manifest.chunks).packets dir, Healthy raw := by
  have contract : ∀ raw ∈ (EgoLogReader.create dir manifest.chunks).packets dir,
      raw.isContract = true → BinaryParser.validate raw = .badMagic :=
    fun raw member => validate_contract member
  have untrapped := (ScanAccumulator.feedAll_isSome cfg _ _).mp (Option.isSome_of_eq_some fed)
  generalize (EgoLogReader.create dir manifest.chunks).packets dir = pkts at *
  have left := ScanAccumulator.feedAll_packets fed
  have right := EgoScan.seen_of_seeAll seen
  have counts := right.packets
  unfold ScanState.packets at left counts
  rw [Prod.mk.injEq, Prod.mk.injEq] at left counts
  -- Neither side counts a packet as intact that the other rejects.
  have accepts : ∀ raw ∈ pkts, packetOk raw = true →
      decide (BinaryParser.validate raw = .ok) = true := by
    refine imp_of_countP_eq (fun raw member intact => ?_) ?_
    · cases kind : raw.isContract with
      | true =>
          rw [contract raw member kind] at intact
          exact absurd intact (by decide)
      | false => rwa [packetOk_legacy kind]
    · have same := left.2.1.symm.trans (valid.trans counts.2.1)
      exact (same.symm.trans (Nat.zero_add _))
  -- So a rejected packet is one with a wrong checksum,
  have rejects : ∀ raw ∈ pkts, (!packetOk raw) = true →
      decide (BinaryParser.validate raw = .crcFail) = true := by
    refine imp_of_countP_eq (fun raw member failed => ?_) ?_
    · cases kind : raw.isContract with
      | true =>
          rw [contract raw member kind] at failed
          exact absurd failed (by decide)
      | false => rw [packetOk_legacy kind, of_decide_eq_true failed]; rfl
    · have same := left.2.2.symm.trans (crcFailed.trans counts.2.2)
      exact (same.symm.trans (Nat.zero_add _))
  have legacy : ∀ raw ∈ pkts, raw.isContract = false := by
    intro raw member
    cases kind : raw.isContract with
    | false => rfl
    | true =>
        have bad := contract raw member kind
        cases ok : packetOk raw with
        | true => exact absurd (of_decide_eq_true (accepts raw member ok)) (by rw [bad]; decide)
        | false =>
            exact absurd
              (of_decide_eq_true (rejects raw member (by rw [ok]; rfl))) (by rw [bad]; decide)
  -- and the break points leave no room for one, nor for a packet without a time.
  have same : seqTs pkts = s.seqTsList := by
    rw [right.seqTs]
    unfold seqTs
    congr 1
    exact List.filter_congr fun raw member => packetOk_legacy (legacy raw member)
  have marks : pkts.countP EgoScan.marksError = 0 := by
    have lengths := congrArg List.length breaks
    unfold StreamValidation.breaks at lengths
    rw [List.length_mergeSort, List.length_mergeSort,
      (ScanAccumulator.tracked_of_feedAll fed).loss.2, same,
        errorTimes_checkSeqGaps "ego" s.seqTsList (List.append_nil s.sv.errorTimes).symm (b := {}),
          List.length_append,
      right.errors] at lengths
    exact Nat.left_eq_add.mp (lengths.trans (Nat.add_comm _ _))
  intro raw member
  have unmarked := List.countP_eq_zero.mp marks raw member
  unfold EgoScan.marksError at unmarked
  rw [decide_eq_true_iff, not_or, not_not] at unmarked
  have ok : packetOk raw = true := by rw [packetOk_legacy (legacy raw member), unmarked.1]; rfl
  exact ⟨legacy raw member, unmarked.1, unmarked.2, untrapped raw member ok⟩

theorem count_of_unchanged {manifest : EgoManifest} {sv : StreamValidation} {n : Nat}
    (valid : sv.packetsValid = n)
    (unchanged : (compareManifest manifest sv).packetsLost = sv.packetsLost) :
    manifest.packetCount.toNat ≤ n := by
  by_contra more
  have bound := manifest.packetCount.toNat_lt
  have zero : (0 : UInt64).toNat = 0 := rfl
  unfold compareManifest at unchanged
  rw [if_pos ⟨UInt64.lt_iff_toNat_lt.mpr (by omega), by omega⟩] at unchanged
  have difference : manifest.packetCount - UInt64.ofNat sv.packetsValid = 0 := by
    simpa using unchanged
  have counted := congrArg UInt64.toNat difference
  rw [UInt64.toNat_sub, UInt64.toNat_ofNat', valid, zero] at counted
  omega

theorem comparable_of_agree {cfg : Config} {manifest : EgoManifest} {dir : Dir}
    {a b : StreamValidation} (scanned : scanEgo cfg manifest dir = some a)
    (validated : validateEgo cfg manifest dir = some b) (agree : Agree cfg a b) :
    Comparable manifest dir := by
  rw [scanEgo_eq] at scanned
  obtain ⟨acc, fed, rfl⟩ := Option.map_eq_some_iff.mp scanned
  have left := ScanAccumulator.feedAll_packets fed
  unfold ScanState.packets at left
  rw [Prod.mk.injEq] at left
  by_cases missing : MissingChunk manifest dir
  · obtain ⟨chunk, listed, absent⟩ := missing
    obtain ⟨errors, failed⟩ := validateEgo_missing cfg listed absent
    cases failed.symm.trans validated
    have empty : (EgoLogReader.create dir manifest.chunks).packets dir = [] := by
      have total := left.1.symm.trans agree.packetsTotal
      rw [Nat.zero_add] at total
      exact List.eq_nil_of_length_eq_zero total
    refine ⟨fun raw member => ?_, fun _ => empty,
      fun present => absurd ⟨chunk, listed, absent⟩ present⟩
    rw [empty] at member
    exact absurd member List.not_mem_nil
  · have present : ∀ chunk ∈ manifest.chunks, dir.lookup chunk.path ≠ none :=
      fun chunk listed absent => missing ⟨chunk, listed, absent⟩
    rw [validateEgo_present cfg present] at validated
    obtain ⟨s, seen, rfl⟩ := Option.map_eq_some_iff.mp validated
    obtain ⟨lost, events, gaps⟩ := checkSeqGaps_eq "ego" s.seqTsList s.sv
    -- The comparison with the manifest touches the losses only.
    have compared : ∃ more, compareManifest manifest (checkSeqGaps "ego" s.seqTsList s.sv) =
        { checkSeqGaps "ego" s.seqTsList s.sv with packetsLost := more } := by
      unfold compareManifest
      split <;> exact ⟨_, rfl⟩
    obtain ⟨more, compare⟩ := compared
    have valid := agree.packetsValid
    have crcFailed := agree.packetsCrcFailed
    have breaks := agree.breaks
    rw [compare] at valid crcFailed breaks
    rw [gaps] at valid crcFailed
    have healthy := healthy_of_agree fed seen valid crcFailed breaks
    refine ⟨healthy, fun there => absurd there missing, fun _ => ?_⟩
    have counted : (checkSeqGaps "ego" s.seqTsList s.sv).packetsValid =
        ((EgoLogReader.create dir manifest.chunks).packets dir).length := by
      rw [gaps]
      show s.packets.2.1 = _
      rw [(EgoScan.seen_of_seeAll seen).packets]
      apply List.countP_eq_length.mpr
      intro raw member
      exact decide_eq_true (healthy raw member).intact
    exact count_of_unchanged counted
      (agree.packetsLost.symm.trans (loss_healthy healthy fed seen).1)

/-- The single scan means the same as the two passes on these logs, and on no other. -/
theorem singleScan_agrees_iff (cfg : Config) (manifest : EgoManifest) (dir : Dir) :
    (∃ a b, scanEgo cfg manifest dir = some a ∧
      validateEgo cfg manifest dir = some b ∧ Agree cfg a b) ↔
      Comparable manifest dir :=
  ⟨fun ⟨_, _, scanned, validated, agree⟩ => comparable_of_agree scanned validated agree,
    agree_of_comparable cfg⟩

/-- A log of two frames from the recorder: the accumulator takes both, the validator none. -/
theorem shortLog_disagrees :
    ¬ ∀ cfg manifest dir, ∃ a b,
      scanEgo cfg manifest dir = some a ∧
        validateEgo cfg manifest dir = some b ∧ Agree cfg a b := by
  intro always
  obtain ⟨a, b, scanned, validated, agree⟩ := always {} shortManifest shortDir
  have healthy := (comparable_of_agree scanned validated agree).healthy
  rw [shortDir_packets] at healthy
  have legacy := (healthy _ List.mem_cons_self).legacy
  exact absurd legacy (by decide)

end LocalPC.Offline
