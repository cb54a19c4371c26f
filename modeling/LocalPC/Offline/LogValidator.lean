import LocalPC.Offline.ScanAccumulator

namespace LocalPC.Offline
open Lib Contract LocalPC.Runtime

def checkSeqGaps (streamId : String) : List (UInt32 × Int) → StreamValidation → StreamValidation
  | (prev, prevT) :: (actual, t) :: rest, out =>
      checkSeqGaps streamId ((actual, t) :: rest) (out.seqGap streamId (prev + 1) actual t prevT)
  | [_], out => out
  | [], out => out

structure EgoScan extends ScanState where
  seqTsList : List (UInt32 × Int) := []
  deriving DecidableEq, Repr

namespace EgoScan

def see (cfg : Config) (raw : RawPacket) (s : EgoScan) : Option EgoScan :=
  let s := { s with sv.packetsTotal := s.sv.packetsTotal + 1 }
  let status := BinaryParser.validate raw
  let ts := toInt64 raw.header.tsNs
  if status ≠ .ok then
    let sv := if status = .crcFail then { s.sv with packetsCrcFailed := s.sv.packetsCrcFailed + 1 }
      else s.sv
    some { s with
      sv := .push { tNs := ts, streamId := "ego", gapType := .fileTruncated, severity := .error }
        { sv with packetsLost := sv.packetsLost + 1 } }
  else
    let sv := { s.sv with packetsValid := s.sv.packetsValid + 1 }
    let sv := if ts = 0
      then .push { tNs := ts, streamId := "ego", gapType := .timestamp, severity := .error }
        { sv with timestampViolations := sv.timestampViolations + 1 }
      else sv
    if audioTraps raw then none
    else some
      { toScanState := { s.toScanState with sv }.checkTimes cfg raw ts
        seqTsList := s.seqTsList ++ [(raw.header.seq, ts)] }

def seeAll (cfg : Config) (pkts : List RawPacket) (s : EgoScan) : Option EgoScan :=
  pkts.foldl (fun s raw => s.bind (see cfg raw)) (some s)

end EgoScan

def compareManifest (manifest : EgoManifest) (sv : StreamValidation) : StreamValidation :=
  if 0 < manifest.packetCount ∧ sv.packetsValid < manifest.packetCount.toNat then
    { sv with
      packetsLost := sv.packetsLost + (manifest.packetCount - UInt64.ofNat sv.packetsValid) }
  else sv

def validateEgo (cfg : Config) (manifest : EgoManifest) (dir : Dir) : Option StreamValidation :=
  let missing := manifest.chunks.filter fun chunk => (dir.lookup chunk.path).isNone
  if missing ≠ [] then
    some { fileOk := false, fileErrors := missing.map fun chunk =>
      ascii "Missing chunk: " ++ chunk.path }
  else
    let scanned := (EgoLogReader.create dir manifest.chunks).scan dir
      (fun raw s => (true, s.bind (EgoScan.see cfg raw))) (some {})
    scanned.map fun s => compareManifest manifest (checkSeqGaps "ego" s.seqTsList s.sv)

theorem checkSeqGaps_concat (streamId : String) (front : List (UInt32 × Int))
    (prev actual : UInt32) (prevT t : Int) (out : StreamValidation) :
    checkSeqGaps streamId (front ++ [(prev, prevT), (actual, t)]) out =
      (checkSeqGaps streamId (front ++ [(prev, prevT)]) out).seqGap streamId
        (prev + 1) actual t prevT := by
  induction front generalizing out with
  | nil => rfl
  | cons head front ih =>
      cases front with
      | nil => rfl
      | cons next front => exact ih _

theorem checkSeqGaps_eq (streamId : String) (seqTs : List (UInt32 × Int)) (out : StreamValidation) :
    ∃ lost events,
      checkSeqGaps streamId seqTs out = { out with packetsLost := lost, gapEvents := events } := by
  induction seqTs generalizing out with
  | nil => exact ⟨_, _, rfl⟩
  | cons head rest ih =>
      cases rest with
      | nil => exact ⟨_, _, rfl⟩
      | cons next rest =>
          obtain ⟨lost, events, gap⟩ :=
            StreamValidation.seqGap_eq streamId (head.1 + 1) next.1 next.2 head.2 out
          obtain ⟨lost', events', later⟩ :=
            ih (out.seqGap streamId (head.1 + 1) next.1 next.2 head.2)
          refine ⟨lost', events', ?_⟩
          show checkSeqGaps streamId (next :: rest) _ = _
          rw [later, gap]

def SameLoss (a b : StreamValidation) : Prop :=
  a.packetsLost = b.packetsLost ∧ a.errorTimes = b.errorTimes

theorem SameLoss.seqGap {a b : StreamValidation} (same : SameLoss a b) (streamId : String)
    (expected actual : UInt32) (t prevT : Int) :
    SameLoss (a.seqGap streamId expected actual t prevT)
      (b.seqGap streamId expected actual t prevT) := by
  obtain ⟨lost, errors⟩ := same
  unfold StreamValidation.seqGap
  split
  · unfold StreamValidation.errorTimes at errors
    refine ⟨congrArg (· + _) lost, ?_⟩
    simp only [StreamValidation.errorTimes, StreamValidation.push, List.filter_append,
      List.map_append, errors]
  · exact ⟨lost, errors⟩

theorem SameLoss.checkSeqGaps {a b : StreamValidation} (same : SameLoss a b) (streamId : String)
    (seqTs : List (UInt32 × Int)) :
    SameLoss (checkSeqGaps streamId seqTs a) (checkSeqGaps streamId seqTs b) := by
  induction seqTs generalizing a b with
  | nil => exact same
  | cons head rest ih =>
      cases rest with
      | nil => exact same
      | cons next rest => exact ih (same.seqGap ..)

theorem SameLoss.trans {a b c : StreamValidation} (first : SameLoss a b)
    (second : SameLoss b c) : SameLoss a c :=
  ⟨first.1.trans second.1, first.2.trans second.2⟩

def addLost (more : UInt64) (sv : StreamValidation) : StreamValidation :=
  { sv with packetsLost := sv.packetsLost + more }

theorem addLost_seqGap (more : UInt64) (streamId : String)
    (expected actual : UInt32) (t prevT : Int) (sv : StreamValidation) :
    (addLost more sv).seqGap streamId expected actual t prevT =
      addLost more (sv.seqGap streamId expected actual t prevT) := by
  unfold StreamValidation.seqGap addLost
  split
  · have swap (a b c : UInt64) : a + b + c = a + c + b := by
      rw [UInt64.add_assoc, UInt64.add_comm b c, UInt64.add_assoc]
    simp only [StreamValidation.push, swap]
  · rfl

def seqTs (pkts : List RawPacket) : List (UInt32 × Int) :=
  (pkts.filter packetOk).map fun raw => (raw.header.seq, toInt64 raw.header.tsNs)

namespace ScanAccumulator

theorem countSeq_of_first {raw : RawPacket} {acc : ScanAccumulator} (first : acc.first = true) :
    SameLoss (acc.countSeq raw) acc.sv := by
  unfold countSeq
  rw [first]
  dsimp only
  split <;> exact ⟨rfl, rfl⟩

theorem countSeq_of_later {raw : RawPacket} {acc : ScanAccumulator} (later : acc.first = false) :
    SameLoss (acc.countSeq raw)
      (acc.sv.seqGap "ego" (acc.prevSeq + 1) raw.header.seq
        (toInt64 raw.header.tsNs) acc.prevTs) := by
  have counted : SameLoss
      { acc.sv with
        packetsTotal := acc.sv.packetsTotal + 1, packetsValid := acc.sv.packetsValid + 1 } acc.sv :=
    ⟨rfl, rfl⟩
  apply SameLoss.trans _
    (counted.seqGap "ego" (acc.prevSeq + 1) raw.header.seq (toInt64 raw.header.tsNs) acc.prevTs)
  unfold countSeq
  rw [later]
  dsimp only
  split <;> exact ⟨rfl, rfl⟩

structure Tracked (pkts : List RawPacket) (acc : ScanAccumulator) : Prop where
  first : acc.first = (seqTs pkts).isEmpty
  last : ∀ x ∈ (seqTs pkts).getLast?, x = (acc.prevSeq, acc.prevTs)
  loss : SameLoss acc.sv
    (addLost (UInt64.ofNat (pkts.countP (!packetOk ·))) (checkSeqGaps "ego" (seqTs pkts) {}))

theorem Tracked.bad {cfg : Config} {pkts : List RawPacket} {raw : RawPacket}
    {acc after : ScanAccumulator} (tracked : Tracked pkts acc) (ok : packetOk raw = false)
    (fed : feed cfg raw false acc = some after) :
    Tracked (pkts ++ [raw]) after := by
  have same : seqTs (pkts ++ [raw]) = seqTs pkts := by
    simp [seqTs, ok]
  cases fed
  refine ⟨?_, ?_, ?_, ?_⟩
  · rw [same]
    exact tracked.first
  · rw [same]
    exact tracked.last
  · rw [same, List.countP_append, List.countP_singleton, ok]
    show acc.sv.packetsLost + 1 = _ + UInt64.ofNat (_ + 1)
    rw [tracked.loss.1, UInt64.ofNat_add, ← UInt64.add_assoc]
    rfl
  · rw [same]
    exact tracked.loss.2

theorem Tracked.good {cfg : Config} {pkts : List RawPacket} {raw : RawPacket}
    {acc after : ScanAccumulator} (tracked : Tracked pkts acc) (ok : packetOk raw = true)
    (fed : feed cfg raw true acc = some after) :
    Tracked (pkts ++ [raw]) after := by
  have more : seqTs (pkts ++ [raw]) =
      seqTs pkts ++ [(raw.header.seq, toInt64 raw.header.tsNs)] := by
    simp [seqTs, ok]
  have count : (pkts ++ [raw]).countP (!packetOk ·) = pkts.countP (!packetOk ·) := by
    simp [ok]
  have quiet := ScanState.quiet_checkTimes cfg raw (toInt64 raw.header.tsNs)
  rw [feed_true] at fed
  split at fed
  · cases fed
  cases fed
  refine ⟨?_, ?_, ?_⟩
  · rw [more]
    simp [ScanState.checkTimes, ScanState.remember]
  · rw [more, List.getLast?_concat]
    rintro x ⟨⟩
    rfl
  · rw [more, count]
    refine SameLoss.trans ⟨quiet.lost _, quiet.errors _⟩ ?_
    rcases List.eq_nil_or_concat (seqTs pkts) with empty | ⟨front, x, split⟩
    · have first : acc.first = true := by rw [tracked.first, empty]; rfl
      have loss := tracked.loss
      rw [empty] at loss ⊢
      exact (countSeq_of_first first).trans loss
    · have later : acc.first = false := by
        rw [tracked.first, split]
        simp
      have last := tracked.last x (by rw [split, List.concat_eq_append, List.getLast?_concat]; rfl)
      have loss := tracked.loss
      rw [split, List.concat_eq_append, last] at loss ⊢
      rw [List.append_assoc]
      show SameLoss _ (addLost _ (checkSeqGaps "ego" (front ++ [_, _]) {}))
      rw [checkSeqGaps_concat, ← addLost_seqGap]
      exact (countSeq_of_later later).trans (loss.seqGap ..)

theorem feedAll_concat (cfg : Config) (pkts : List RawPacket) (raw : RawPacket)
    (acc : ScanAccumulator) :
    feedAll cfg (pkts ++ [raw]) acc =
      (feedAll cfg pkts acc).bind (feed cfg raw (packetOk raw)) := by
  unfold feedAll
  rw [List.foldl_append]
  rfl

theorem tracked_of_feedAll {cfg : Config} {pkts : List RawPacket}
    {fileOk : Bool} {acc : ScanAccumulator}
    (fed : feedAll cfg pkts { sv := { fileOk } } = some acc) : Tracked pkts acc := by
  induction pkts using List.reverseRecOn generalizing acc with
  | nil =>
      cases fed
      exact ⟨rfl, fun x member => (Option.not_mem_none x member).elim, rfl, rfl⟩
  | append_singleton pkts raw ih =>
      rw [feedAll_concat] at fed
      obtain ⟨before, earlier, last⟩ := Option.bind_eq_some_iff.mp fed
      cases ok : packetOk raw with
      | false => exact (ih earlier).bad ok (ok ▸ last)
      | true => exact (ih earlier).good ok (ok ▸ last)

end ScanAccumulator

namespace EgoScan

def countTs (raw : RawPacket) (s : EgoScan) : StreamValidation :=
  let sv := { s.sv with
    packetsTotal := s.sv.packetsTotal + 1, packetsValid := s.sv.packetsValid + 1 }
  let ts := toInt64 raw.header.tsNs
  if ts = 0 then .push { tNs := ts, streamId := "ego", gapType := .timestamp, severity := .error }
    { sv with timestampViolations := sv.timestampViolations + 1 }
  else sv

theorem see_ok (cfg : Config) {raw : RawPacket}
    (ok : BinaryParser.validate raw = .ok) (s : EgoScan) :
    see cfg raw s =
      if audioTraps raw then none
      else some
        { toScanState := { s.toScanState with sv := s.countTs raw }.checkTimes cfg raw
            (toInt64 raw.header.tsNs)
          seqTsList := s.seqTsList ++ [(raw.header.seq, toInt64 raw.header.tsNs)] } := by
  unfold see
  dsimp only
  rw [if_neg (not_not.mpr ok)]
  rfl

def countBad (raw : RawPacket) (s : EgoScan) : StreamValidation :=
  .push { tNs := toInt64 raw.header.tsNs, streamId := "ego",
          gapType := .fileTruncated, severity := .error }
    { s.sv with
      packetsTotal := s.sv.packetsTotal + 1
      packetsCrcFailed :=
        s.sv.packetsCrcFailed + (if BinaryParser.validate raw = .crcFail then 1 else 0)
      packetsLost := s.sv.packetsLost + 1 }

theorem see_bad (cfg : Config) {raw : RawPacket}
    (bad : BinaryParser.validate raw ≠ .ok) (s : EgoScan) :
    see cfg raw s = some { s with sv := s.countBad raw } := by
  unfold see countBad
  dsimp only
  rw [if_pos bad]
  by_cases crc : BinaryParser.validate raw = .crcFail
  · rw [if_pos crc, if_pos crc]
  · rw [if_neg crc, if_neg crc]
    rfl

def marksError (raw : RawPacket) : Bool :=
  BinaryParser.validate raw ≠ .ok ∨ toInt64 raw.header.tsNs = 0

structure Seen (pkts : List RawPacket) (s : EgoScan) : Prop where
  packets : s.packets =
    (pkts.length, pkts.countP (BinaryParser.validate · = .ok),
      pkts.countP (BinaryParser.validate · = .crcFail))
  seqTs : s.seqTsList = (pkts.filter (BinaryParser.validate · = .ok)).map
    fun raw => (raw.header.seq, toInt64 raw.header.tsNs)
  errors : s.sv.errorTimes.length = pkts.countP marksError
  lost : s.sv.packetsLost = UInt64.ofNat (pkts.countP (BinaryParser.validate · ≠ .ok))

theorem errorTimes_push_error {g : GapEvent} (error : g.severity = .error) (sv : StreamValidation) :
    (sv.push g).errorTimes.length = sv.errorTimes.length + 1 := by
  simp [StreamValidation.errorTimes, StreamValidation.push, error]

theorem Seen.bad {cfg : Config} {pkts : List RawPacket} {raw : RawPacket} {s after : EgoScan}
    (seen : Seen pkts s)
    (bad : BinaryParser.validate raw ≠ .ok) (step : see cfg raw s = some after) :
    Seen (pkts ++ [raw]) after := by
  have marked : marksError raw = true := by simp [marksError, bad]
  have packets := seen.packets
  unfold ScanState.packets at packets
  rw [Prod.mk.injEq, Prod.mk.injEq] at packets
  obtain ⟨total, valid, crcFailed⟩ := packets
  rw [see_bad cfg bad] at step
  cases step
  refine ⟨?_, ?_, ?_, ?_⟩
  · rw [List.length_append, List.countP_append, List.countP_append,
      List.countP_singleton, List.countP_singleton, ← total, ← valid, ← crcFailed,
        if_neg (by simpa using bad)]
    simp only [ScanState.packets, countBad, StreamValidation.push, decide_eq_true_iff]
    rfl
  · rw [List.filter_append, seen.seqTs]
    simp [bad]
  · rw [List.countP_append, List.countP_singleton, if_pos marked, ← seen.errors]
    exact errorTimes_push_error rfl _
  · rw [List.countP_append, List.countP_singleton, if_pos (by simpa using bad),
      UInt64.ofNat_add, ← seen.lost]
    rfl

theorem Seen.good {cfg : Config} {pkts : List RawPacket} {raw : RawPacket} {s after : EgoScan}
    (seen : Seen pkts s)
    (ok : BinaryParser.validate raw = .ok) (step : see cfg raw s = some after) :
    Seen (pkts ++ [raw]) after := by
  have quiet := ScanState.quiet_checkTimes cfg raw (toInt64 raw.header.tsNs)
  have packets := seen.packets
  unfold ScanState.packets at packets
  rw [Prod.mk.injEq, Prod.mk.injEq] at packets
  obtain ⟨total, valid, crcFailed⟩ := packets
  have notCrc : ¬ BinaryParser.validate raw = .crcFail := by rw [ok]; decide
  rw [see_ok cfg ok] at step
  split at step
  · cases step
  cases step
  refine ⟨(quiet.packets _).trans ?_, ?_, (congrArg List.length (quiet.errors _)).trans ?_,
    (quiet.lost _).trans ?_⟩
  · rw [List.length_append, List.countP_append, List.countP_append,
      List.countP_singleton, List.countP_singleton, ← total, ← valid, ← crcFailed,
        if_pos (by simpa using ok), if_neg (by simpa using notCrc)]
    unfold countTs
    dsimp only
    split <;> rfl
  · rw [List.filter_append, seen.seqTs]
    simp [ok]
  · rw [List.countP_append, List.countP_singleton, ← seen.errors]
    unfold countTs marksError
    dsimp only
    by_cases zero : toInt64 raw.header.tsNs = 0
    · rw [if_pos zero, if_pos (by simp [zero])]
      exact errorTimes_push_error rfl _
    · rw [if_neg zero, if_neg (by simp [zero, ok])]
      rfl
  · rw [List.countP_append, List.countP_singleton, if_neg (by simp [ok]), Nat.add_zero, ← seen.lost]
    unfold countTs
    dsimp only
    split <;> rfl

theorem seeAll_concat (cfg : Config) (pkts : List RawPacket) (raw : RawPacket) (s : EgoScan) :
    seeAll cfg (pkts ++ [raw]) s = (seeAll cfg pkts s).bind (see cfg raw) := by
  unfold seeAll
  rw [List.foldl_append]
  rfl

theorem seen_of_seeAll {cfg : Config} {pkts : List RawPacket} {s : EgoScan}
    (all : seeAll cfg pkts {} = some s) :
    Seen pkts s := by
  induction pkts using List.reverseRecOn generalizing s with
  | nil =>
      cases all
      exact ⟨rfl, rfl, rfl, rfl⟩
  | append_singleton pkts raw ih =>
      rw [seeAll_concat] at all
      obtain ⟨before, earlier, last⟩ := Option.bind_eq_some_iff.mp all
      by_cases ok : BinaryParser.validate raw = .ok
      · exact (ih earlier).good ok last
      · exact (ih earlier).bad ok last

theorem foldl_none (cfg : Config) (pkts : List RawPacket) :
    pkts.foldl (fun s raw => s.bind (see cfg raw)) none = none := by
  induction pkts with
  | nil => rfl
  | cons raw pkts ih => exact ih

theorem seeAll_cons (cfg : Config) (raw : RawPacket) (pkts : List RawPacket) (s : EgoScan) :
    seeAll cfg (raw :: pkts) s = (see cfg raw s).bind (seeAll cfg pkts) := by
  unfold seeAll
  rw [List.foldl_cons]
  show pkts.foldl _ (see cfg raw s) = _
  cases see cfg raw s with
  | none => exact foldl_none cfg pkts
  | some s => rfl

end EgoScan

theorem validateEgo_missing (cfg : Config) {manifest : EgoManifest} {dir : Dir} {chunk : ChunkInfo}
    (listed : chunk ∈ manifest.chunks) (missing : dir.lookup chunk.path = none) :
    ∃ errors, validateEgo cfg manifest dir = some { fileOk := false, fileErrors := errors } := by
  have some_missing : manifest.chunks.filter
      (fun chunk => (dir.lookup chunk.path).isNone) ≠ [] := by
    exact List.ne_nil_of_mem <| List.mem_filter.mpr ⟨listed, by rw [missing]; rfl⟩
  unfold validateEgo
  dsimp only
  rw [if_pos some_missing]
  exact ⟨_, rfl⟩

theorem validateEgo_present (cfg : Config) {manifest : EgoManifest} {dir : Dir}
    (present : ∀ chunk ∈ manifest.chunks, dir.lookup chunk.path ≠ none) :
    validateEgo cfg manifest dir =
      (EgoScan.seeAll cfg ((EgoLogReader.create dir manifest.chunks).packets dir) {}).map
        fun s => compareManifest manifest (checkSeqGaps "ego" s.seqTsList s.sv) := by
  have none_missing : manifest.chunks.filter
      (fun chunk => (dir.lookup chunk.path).isNone) = [] := by
    apply List.filter_eq_nil_iff.mpr
    intro chunk listed missing
    exact present chunk listed (Option.isNone_iff_eq_none.mp missing)
  unfold validateEgo
  dsimp only
  rw [if_neg (not_not.mpr none_missing), EgoLogReader.scan_all]
  rfl

end LocalPC.Offline
