import LocalPC.Offline.ScanAccumulator

namespace LocalPC.Offline
open Lib

inductive ArithmeticFault
  | divisionByZero
  | signedOverflow
  deriving DecidableEq, Repr

def Fits64 (x : Int) : Prop := -2 ^ 63 ≤ x ∧ x < 2 ^ 63

instance (x : Int) : Decidable (Fits64 x) := inferInstanceAs (Decidable (_ ∧ _))

inductive NsOp
  | sub (a b : Int)
  | mul (a b : Int)
  | div (a b : Int)
  deriving DecidableEq, Repr

namespace NsOp

def fit (x : Int) : Except ArithmeticFault Int := if Fits64 x then .ok x else .error .signedOverflow

def run : NsOp → Except ArithmeticFault Int
  | sub a b => fit (a - b)
  | mul a b => fit (a * b)
  | div a b => if b = 0 then .error .divisionByZero else fit (a.tdiv b)

def Defined : NsOp → Prop
  | sub a b => Fits64 (a - b)
  | mul a b => Fits64 (a * b)
  | div a b => b ≠ 0 ∧ Fits64 (a.tdiv b)

theorem run_ok_iff (op : NsOp) : (∃ x, op.run = .ok x) ↔ op.Defined := by
  have fits (x : Int) : (∃ y, fit x = .ok y) ↔ Fits64 x := by
    unfold fit
    split <;> simp_all
  cases op with
  | sub a b => exact fits _
  | mul a b => exact fits _
  | div a b =>
      by_cases zero : b = 0
      · simp [run, Defined, zero]
      · rw [run, if_neg zero]
        exact (fits _).trans (by simp [Defined, zero])

def runAll : List NsOp → Except ArithmeticFault Unit
  | [] => .ok ()
  | op :: ops =>
      match op.run with
      | .error fault => .error fault
      | .ok _ => runAll ops

theorem runAll_ok_iff (ops : List NsOp) : runAll ops = .ok () ↔ ∀ op ∈ ops, op.Defined := by
  induction ops with
  | nil => simp [runAll]
  | cons op ops ih =>
      rw [List.forall_mem_cons, ← run_ok_iff op, ← ih, runAll]
      cases op.run with
      | error fault => simp
      | ok x => simp

end NsOp

structure IntConfig extends Config where
  jumpInt : -2 ^ 31 ≤ maxTimestampJumpMs ∧ maxTimestampJumpMs < 2 ^ 31
  telemetryInt : -2 ^ 31 ≤ telemetryGapMs ∧ telemetryGapMs < 2 ^ 31

def isAudio (raw : RawPacket) : Bool :=
  raw.header.type = 1 ∧ AudioBlockHeader.size ≤ raw.payload.length
def isImu (raw : RawPacket) : Bool := raw.header.type = 3

namespace ScanAccumulator

/-- The operations that `feed` makes for an intact packet, in the order of the source. -/
def operations (cfg : Config) (raw : RawPacket) (acc : ScanAccumulator) : List NsOp :=
  let ts := toInt64 raw.header.tsNs
  let expected := acc.prevSeq + 1
  let ahdr := AudioBlockHeader.decode raw.payload
  let scaled : Int := ahdr.frameCount.toNat * kNsPerSec
  (if acc.first = false ∧ raw.header.seq ≠ expected ∧ expected < raw.header.seq
    then [.sub ts acc.prevTs] else []) ++
  (if acc.first = false ∧ ts < acc.prevTs then [.sub acc.prevTs ts] else []) ++
  (if acc.first = false then [.sub ts acc.prevTs, .mul cfg.maxTimestampJumpMs kNsPerMs] else []) ++
  (if isAudio raw then
    [.mul ahdr.frameCount.toNat kNsPerSec, .div scaled ahdr.sampleRateHz.toNat] ++
    (if acc.prevAudioTs ≠ 0 ∧ 0 < ScanState.nominalPeriod ahdr acc.nominalAudioPeriodNs
      then [.sub ts acc.prevAudioTs] else [])
  else []) ++
  (if isImu raw ∧ acc.prevImuTs ≠ 0 then [.sub ts acc.prevImuTs, .mul cfg.telemetryGapMs kNsPerMs]
    else [])

def feedChecked (cfg : Config) (raw : RawPacket) (crcOk : Bool) (acc : ScanAccumulator) :
    Except ArithmeticFault ScanAccumulator := do
  if crcOk then NsOp.runAll (acc.operations cfg raw)
  match acc.feed cfg raw crcOk with
  | none => throw .divisionByZero
  | some acc => return acc

/-- `feed` for packet after packet, each with the result of its check. -/
def runChecked (cfg : Config) (pkts : List (RawPacket × Bool)) (acc : ScanAccumulator) :
    Except ArithmeticFault ScanAccumulator :=
  pkts.foldlM (fun acc x => acc.feedChecked cfg x.1 x.2) acc

end ScanAccumulator

def intact (pkts : List (RawPacket × Bool)) : List RawPacket := (pkts.filter (·.2)).map (·.1)

def nsOf (raw : RawPacket) : Int := toInt64 raw.header.tsNs

def periodOf (raw : RawPacket) : UInt32 :=
  let ahdr := AudioBlockHeader.decode raw.payload
  UInt32.ofNat (ahdr.frameCount.toNat * kNsPerSec / ahdr.sampleRateHz.toNat)

structure TimesFit (before : List RawPacket) (raw : RawPacket) : Prop where
  rate : isAudio raw → (AudioBlockHeader.decode raw.payload).sampleRateHz ≠ 0
  times : ∀ prev ∈ before.getLast?, -2 ^ 63 < nsOf raw - nsOf prev ∧ nsOf raw - nsOf prev < 2 ^ 63
  audio : isAudio raw → ∀ prev ∈ (before.filter isAudio).getLast?, nsOf prev ≠ 0 →
    (∃ block ∈ before.filter isAudio ++ [raw], periodOf block ≠ 0) → Fits64 (nsOf raw - nsOf prev)
  imu : isImu raw → ∀ prev ∈ (before.filter isImu).getLast?, nsOf prev ≠ 0 →
    Fits64 (nsOf raw - nsOf prev)

def AllTimesFit (pkts : List RawPacket) : Prop :=
  ∀ before raw after, pkts = before ++ raw :: after → TimesFit before raw

namespace ScanAccumulator

structure Keeps (before : List RawPacket) (acc : ScanAccumulator) : Prop where
  first : acc.first = before.isEmpty
  prevTs : ∀ prev ∈ before.getLast?, acc.prevTs = nsOf prev
  prevAudioTs : acc.prevAudioTs = ((before.filter isAudio).getLast?.map nsOf).getD 0
  prevImuTs : acc.prevImuTs = ((before.filter isImu).getLast?.map nsOf).getD 0
  nominal : acc.nominalAudioPeriodNs ≠ 0 ↔ ∃ block ∈ before.filter isAudio, periodOf block ≠ 0

theorem forall_mem_ite {c : Prop} [Decidable c] {ops : List NsOp} {P : NsOp → Prop} :
    (∀ op ∈ if c then ops else [], P op) ↔ (c → ∀ op ∈ ops, P op) := by
  split <;> simp_all

theorem nominalPeriod_ne_zero (raw : RawPacket) (nominal : UInt32) :
    ScanState.nominalPeriod (AudioBlockHeader.decode raw.payload) nominal ≠ 0 ↔
      nominal ≠ 0 ∨ periodOf raw ≠ 0 := by
  unfold ScanState.nominalPeriod periodOf
  dsimp only
  split <;> simp_all

theorem scaled_fits (n : UInt32) : Fits64 ((n.toNat : Int) * (kNsPerSec : Nat)) := by
  have small := n.toNat_lt
  unfold Fits64 kNsPerSec
  omega

theorem millis_fits {ms : Int} (int : -2 ^ 31 ≤ ms ∧ ms < 2 ^ 31) : Fits64 (ms * kNsPerMs) := by
  unfold Fits64 kNsPerMs
  omega

theorem period_fits (n rate : UInt32) :
    Fits64 (((n.toNat : Int) * (kNsPerSec : Nat)).tdiv rate.toNat) := by
  have small := n.toNat_lt
  have quotient : ((n.toNat : Int) * (kNsPerSec : Nat)).tdiv rate.toNat =
      ((n.toNat * kNsPerSec / rate.toNat : Nat) : Int) := by
    rw [← Nat.cast_mul]
    exact (Int.ofNat_tdiv ..).symm
  have bound : n.toNat * kNsPerSec / rate.toNat ≤ n.toNat * kNsPerSec := Nat.div_le_self ..
  rw [quotient]
  unfold kNsPerSec at bound ⊢
  generalize n.toNat * 1000000000 / rate.toNat = period at bound ⊢
  unfold Fits64
  omega

theorem operations_defined_iff (cfg : IntConfig) {before : List RawPacket} {acc : ScanAccumulator}
    (keeps : Keeps before acc) (raw : RawPacket) :
    (∀ op ∈ acc.operations cfg.toConfig raw, op.Defined) ↔ TimesFit before raw := by
  simp only [operations, List.forall_mem_append, forall_mem_ite, List.forall_mem_cons,
    NsOp.Defined, scaled_fits, period_fits, millis_fits cfg.jumpInt, millis_fits cfg.telemetryInt,
      and_true, true_and, List.not_mem_nil, false_imp_iff,
    implies_true]
  have rate : ((AudioBlockHeader.decode raw.payload).sampleRateHz.toNat : Int) ≠ 0 ↔
      (AudioBlockHeader.decode raw.payload).sampleRateHz ≠ 0 := by
    rw [Int.natCast_ne_zero, ne_eq, ne_eq, ← UInt32.toNat_inj]
    rfl
  have gap (packets : List RawPacket) (kept : Int)
      (is : kept = (packets.getLast?.map nsOf).getD 0) (c : Prop) :
      (kept ≠ 0 ∧ c → Fits64 (nsOf raw - kept)) ↔
        ∀ prev ∈ packets.getLast?, nsOf prev ≠ 0 → c → Fits64 (nsOf raw - nsOf prev) := by
    rw [is]
    cases packets.getLast? with
    | none => simp
    | some prev => simp
  have nominal : 0 <
      ScanState.nominalPeriod (AudioBlockHeader.decode raw.payload) acc.nominalAudioPeriodNs ↔
      ∃ block ∈ before.filter isAudio ++ [raw], periodOf block ≠ 0 := by
    rw [UInt32.pos_iff_ne_zero, nominalPeriod_ne_zero, keeps.nominal]
    simp only [List.mem_append, List.mem_singleton, or_and_right, exists_or, exists_eq_left]
  have audio := gap (before.filter isAudio) acc.prevAudioTs keeps.prevAudioTs
    (∃ block ∈ before.filter isAudio ++ [raw], periodOf block ≠ 0)
  have imu := gap (before.filter isImu) acc.prevImuTs keeps.prevImuTs True
  simp only [and_true, true_imp_iff] at imu
  rw [rate, nominal]
  constructor
  · rintro ⟨⟨⟨⟨-, back⟩, jump⟩, audio_⟩, imu_⟩
    refine ⟨fun is => (audio_ is).1, fun prev last => ?_,
      fun is => audio.mp (audio_ is).2, fun is => ?_⟩
    · have later : acc.first = false := by
        rw [keeps.first]
        cases before with
        | nil => cases last
        | cons => rfl
      have same := keeps.prevTs prev last
      rw [same] at back jump
      have forward := jump later
      by_cases earlier : nsOf raw < nsOf prev
      · have backward := back ⟨later, earlier⟩
        exact ⟨by have := backward.2; unfold nsOf at *; omega, forward.2⟩
      · exact ⟨by unfold nsOf at *; omega, forward.2⟩
    · exact imu.mp fun set_ => imu_ ⟨is, set_⟩
  · rintro ⟨rate_, times, audio_, imu_⟩
    have jump (later : acc.first = false) :
        -2 ^ 63 < nsOf raw - acc.prevTs ∧ nsOf raw - acc.prevTs < 2 ^ 63 := by
      rw [keeps.first] at later
      obtain ⟨prev, last⟩ : ∃ prev, prev ∈ before.getLast? := by
        cases before with
        | nil => cases later
        | cons x rest => exact ⟨_, List.getLast?_eq_some_getLast (List.cons_ne_nil x rest)⟩
      rw [keeps.prevTs prev last]
      exact times prev last
    have fits (later : acc.first = false) : Fits64 (nsOf raw - acc.prevTs) :=
      ⟨(jump later).1.le, (jump later).2⟩
    refine ⟨⟨⟨⟨fun c => fits c.1, fun c => ?_⟩, fits⟩, fun is => ⟨rate_ is, audio.mpr (audio_ is)⟩⟩,
      fun c =>
      imu.mpr (imu_ c.1) c.2⟩
    have := jump c.1
    unfold nsOf at this
    unfold Fits64
    omega

def marks (s : ScanState) : Int × Int × UInt32 :=
  (s.prevAudioTs, s.prevImuTs, s.nominalAudioPeriodNs)

theorem marks_checkMonotonic (ts : Int) (s : ScanState) :
    marks (s.checkMonotonic ts) = marks s := by
  unfold ScanState.checkMonotonic
  split <;> rfl

theorem marks_checkJump (cfg : Config) (ts : Int) (s : ScanState) :
    marks (s.checkJump cfg ts) = marks s := by
  unfold ScanState.checkJump
  dsimp only
  split <;> rfl

theorem marks_checkAudio (cfg : Config) (raw : RawPacket) (ts : Int) (s : ScanState) :
    marks (s.checkAudio cfg raw ts) =
      if isAudio raw then
        (ts, s.prevImuTs,
          ScanState.nominalPeriod (AudioBlockHeader.decode raw.payload) s.nominalAudioPeriodNs)
      else marks s := by
  unfold ScanState.checkAudio isAudio
  by_cases audio : raw.header.type = 1 ∧ AudioBlockHeader.size ≤ raw.payload.length
  · rw [if_pos audio, decide_eq_true audio, if_pos rfl]
    dsimp only
    split <;> rfl
  · rw [if_neg audio, decide_eq_false audio, if_neg Bool.false_ne_true]

theorem marks_checkImu (cfg : Config) (raw : RawPacket) (ts : Int) (s : ScanState) :
    marks (s.checkImu cfg raw ts) = if isImu raw then (s.prevAudioTs, ts, s.nominalAudioPeriodNs)
      else marks s := by
  unfold ScanState.checkImu isImu
  by_cases imu : raw.header.type = 3
  · rw [if_pos imu, decide_eq_true imu, if_pos rfl]
    dsimp only
    split <;> rfl
  · rw [if_neg imu, decide_eq_false imu, if_neg Bool.false_ne_true]

theorem not_isImu_of_isAudio {raw : RawPacket}
    (audio : isAudio raw = true) : isImu raw = false := by
  have type : raw.header.type = 1 := (of_decide_eq_true audio).1
  rw [isImu, type]
  rfl

theorem marks_checkTimes (cfg : Config) (raw : RawPacket) (ts : Int) (s : ScanState) :
    marks (s.checkTimes cfg raw ts) =
      if isAudio raw then
        (ts, s.prevImuTs,
          ScanState.nominalPeriod (AudioBlockHeader.decode raw.payload) s.nominalAudioPeriodNs)
      else if isImu raw then (s.prevAudioTs, ts, s.nominalAudioPeriodNs)
      else marks s := by
  let early := ((s.checkMonotonic ts).checkJump cfg ts).updateRange ts
  have before : marks early = marks s :=
    (marks_checkJump cfg ts _).trans (marks_checkMonotonic ts s)
  have audio := marks_checkAudio cfg raw ts early
  have imu := marks_checkImu cfg raw ts (early.checkAudio cfg raw ts)
  unfold marks at before audio imu
  rw [Prod.mk.injEq, Prod.mk.injEq] at before
  obtain ⟨audioTs, imuTs, nominal⟩ := before
  show marks ((early.checkAudio cfg raw ts).checkImu cfg raw ts) = _
  unfold marks
  rw [imu]
  cases is : isAudio raw with
  | true =>
      rw [is, if_pos rfl, imuTs, nominal] at audio
      rw [not_isImu_of_isAudio is, if_neg Bool.false_ne_true, if_pos rfl, audio]
  | false =>
      rw [is, if_neg Bool.false_ne_true, audioTs, imuTs, nominal] at audio
      rw [Prod.mk.injEq, Prod.mk.injEq] at audio
      rw [if_neg Bool.false_ne_true, audio.1, audio.2.1, audio.2.2]

theorem Keeps.bad {cfg : Config} {before : List RawPacket} {raw : RawPacket}
    {acc after : ScanAccumulator} (keeps : Keeps before acc)
    (fed : feed cfg raw false acc = some after) : Keeps before after := by
  cases fed
  exact ⟨keeps.first, keeps.prevTs, keeps.prevAudioTs, keeps.prevImuTs, keeps.nominal⟩

theorem feed_marks {cfg : Config} {raw : RawPacket} {acc after : ScanAccumulator}
    (fed : feed cfg raw true acc = some after) :
    after.first = false ∧ after.prevTs = nsOf raw ∧ marks after.toScanState =
      if isAudio raw then
        (nsOf raw, acc.prevImuTs,
          ScanState.nominalPeriod (AudioBlockHeader.decode raw.payload) acc.nominalAudioPeriodNs)
      else if isImu raw then (acc.prevAudioTs, nsOf raw, acc.nominalAudioPeriodNs)
      else marks acc.toScanState := by
  rw [feed_true] at fed
  split at fed
  · cases fed
  · cases fed
    exact ⟨rfl, rfl,
      marks_checkTimes cfg raw (nsOf raw) { acc.toScanState with sv := acc.countSeq raw }⟩

theorem Keeps.good {cfg : Config} {before : List RawPacket} {raw : RawPacket}
    {acc after : ScanAccumulator} (keeps : Keeps before acc)
    (fed : feed cfg raw true acc = some after) : Keeps (before ++ [raw]) after := by
  obtain ⟨first, prevTs, marked⟩ := feed_marks fed
  have some_ : after.first = (before ++ [raw]).isEmpty := by
    rw [first]
    simp
  have last : ∀ prev ∈ (before ++ [raw]).getLast?, after.prevTs = nsOf prev := by
    rw [List.getLast?_concat]
    rintro prev ⟨⟩
    exact prevTs
  cases audio : isAudio raw with
  | true =>
      have imu := not_isImu_of_isAudio audio
      have audios : (before ++ [raw]).filter isAudio =
          before.filter isAudio ++ [raw] := by simp [audio]
      have imus : (before ++ [raw]).filter isImu = before.filter isImu := by simp [imu]
      rw [audio, if_pos rfl, marks, Prod.mk.injEq, Prod.mk.injEq] at marked
      obtain ⟨audioTs, imuTs, nominal⟩ := marked
      refine ⟨some_, last, ?_, ?_, ?_⟩
      · rw [audios, List.getLast?_concat, audioTs]
        rfl
      · rw [imus, imuTs, keeps.prevImuTs]
      · rw [audios, nominal, nominalPeriod_ne_zero, keeps.nominal]
        simp only [List.mem_append, List.mem_singleton, or_and_right, exists_or, exists_eq_left]
  | false =>
      have audios : (before ++ [raw]).filter isAudio = before.filter isAudio := by simp [audio]
      rw [audio, if_neg Bool.false_ne_true] at marked
      cases imu : isImu raw with
      | true =>
          have imus : (before ++ [raw]).filter isImu = before.filter isImu ++ [raw] := by simp [imu]
          rw [imu, if_pos rfl, marks, Prod.mk.injEq, Prod.mk.injEq] at marked
          obtain ⟨audioTs, imuTs, nominal⟩ := marked
          refine ⟨some_, last, ?_, ?_, ?_⟩
          · rw [audios, audioTs, keeps.prevAudioTs]
          · rw [imus, List.getLast?_concat, imuTs]
            rfl
          · rw [audios, nominal, keeps.nominal]
      | false =>
          have imus : (before ++ [raw]).filter isImu = before.filter isImu := by simp [imu]
          rw [imu, if_neg Bool.false_ne_true, marks, marks, Prod.mk.injEq, Prod.mk.injEq] at marked
          obtain ⟨audioTs, imuTs, nominal⟩ := marked
          refine ⟨some_, last, ?_, ?_, ?_⟩
          · rw [audios, audioTs, keeps.prevAudioTs]
          · rw [imus, imuTs, keeps.prevImuTs]
          · rw [audios, nominal, keeps.nominal]

theorem keeps_nil (fileOk : Bool) : Keeps [] { sv := { fileOk } } :=
  ⟨rfl, fun prev last => (Option.not_mem_none prev last).elim, rfl, rfl, by simp⟩

theorem error_ne_ok {ε α : Type} {fault : ε} {a : α} :
    (Except.error fault : Except ε α) ≠ .ok a := by
  intro same
  cases same

theorem feedChecked_bad (cfg : Config) (raw : RawPacket) (acc : ScanAccumulator) :
    ∃ after, acc.feedChecked cfg raw false = .ok after ∧ feed cfg raw false acc = some after :=
  ⟨_, rfl, rfl⟩

theorem feedChecked_good (cfg : IntConfig) {before : List RawPacket} {acc : ScanAccumulator}
    (keeps : Keeps before acc) (raw : RawPacket) :
    (∀ after, acc.feedChecked cfg.toConfig raw true = .ok after →
      feed cfg.toConfig raw true acc = some after) ∧
    ((∃ after, acc.feedChecked cfg.toConfig raw true = .ok after) ↔ TimesFit before raw) := by
  have defined := operations_defined_iff cfg keeps raw
  rw [← NsOp.runAll_ok_iff] at defined
  unfold feedChecked
  rw [if_pos rfl]
  cases ran : NsOp.runAll (acc.operations cfg.toConfig raw) with
  | error fault =>
      rw [ran] at defined
      exact ⟨fun _ returned => absurd returned error_ne_ok,
        ⟨fun ⟨_, returned⟩ => absurd returned error_ne_ok,
          fun fits => absurd (defined.mpr fits) error_ne_ok⟩⟩
  | ok u =>
      rw [ran] at defined
      have fits := defined.mp rfl
      have divides : audioTraps raw = false := by
        unfold audioTraps
        refine decide_eq_false fun ⟨type, size, zero⟩ => ?_
        exact fits.rate (decide_eq_true ⟨type, size⟩) zero
      rw [feed_true, divides, if_neg Bool.false_ne_true]
      exact ⟨fun after returned => congrArg some (Except.ok.inj returned),
        ⟨fun _ => fits, fun _ => ⟨_, rfl⟩⟩⟩

theorem runChecked_concat (cfg : Config) (pkts : List (RawPacket × Bool)) (x : RawPacket × Bool)
    (acc : ScanAccumulator) :
    runChecked cfg (pkts ++ [x]) acc = (runChecked cfg pkts acc).bind fun acc =>
      acc.feedChecked cfg x.1 x.2 := by
  unfold runChecked
  rw [List.foldlM_append]
  show (_ >>= _) = _
  cases pkts.foldlM (fun acc x => acc.feedChecked cfg x.1 x.2) acc with
  | error fault => rfl
  | ok acc =>
      show (do let s ← acc.feedChecked cfg x.1 x.2; List.foldlM _ s []) =
        acc.feedChecked cfg x.1 x.2
      exact bind_pure _

theorem allTimesFit_concat {pkts : List RawPacket} {raw : RawPacket} :
    AllTimesFit (pkts ++ [raw]) ↔ AllTimesFit pkts ∧ TimesFit pkts raw := by
  constructor
  · intro fit
    refine ⟨fun before x after split => fit before x (after ++ [raw]) (by rw [split]; simp),
      fit pkts raw [] (by simp)⟩
  · rintro ⟨earlier, last⟩ before x after split
    rcases List.eq_nil_or_concat after with rfl | ⟨front, y, rfl⟩
    · obtain ⟨rfl, same⟩ := List.append_inj' split rfl
      cases same
      exact last
    · rw [List.concat_eq_append, ← List.cons_append, ← List.append_assoc] at split
      obtain ⟨same, -⟩ := List.append_inj' split rfl
      exact earlier before x front same

theorem runChecked_spec (cfg : IntConfig) (fileOk : Bool) (pkts : List (RawPacket × Bool)) :
    (∀ acc, runChecked cfg.toConfig pkts { sv := { fileOk } } = .ok acc → Keeps (intact pkts) acc) ∧
    ((∃ acc, runChecked cfg.toConfig pkts { sv := { fileOk } } = .ok acc) ↔
      AllTimesFit (intact pkts)) := by
  induction pkts using List.reverseRecOn with
  | nil =>
      refine ⟨?_, ⟨fun _ before x after split => ?_, fun _ => ⟨_, rfl⟩⟩⟩
      · rintro acc ⟨⟩
        exact keeps_nil fileOk
      · simp [intact] at split
  | append_singleton pkts x ih =>
      obtain ⟨keeps, fit⟩ := ih
      obtain ⟨raw, ok⟩ := x
      rw [runChecked_concat]
      cases ran : runChecked cfg.toConfig pkts { sv := { fileOk } } with
      | error fault =>
          rw [ran] at fit
          refine ⟨fun _ returned => absurd returned error_ne_ok,
            ⟨fun ⟨_, returned⟩ => absurd returned error_ne_ok, fun all => ?_⟩⟩
          have earlier : AllTimesFit (intact pkts) := by
            cases ok with
            | false => simpa [intact] using all
            | true =>
                have more : intact (pkts ++ [(raw, true)]) =
                    intact pkts ++ [raw] := by simp [intact]
                rw [more, allTimesFit_concat] at all
                exact all.1
          obtain ⟨_, returned⟩ := fit.mpr earlier
          exact absurd returned error_ne_ok
      | ok acc =>
          have kept := keeps acc ran
          have earlier : AllTimesFit (intact pkts) := fit.mp ⟨acc, ran⟩
          show (∀ after, acc.feedChecked cfg.toConfig raw ok = .ok after → _) ∧
            ((∃ after, acc.feedChecked cfg.toConfig raw ok = .ok after) ↔ _)
          cases ok with
          | false =>
              have same : intact (pkts ++ [(raw, false)]) = intact pkts := by simp [intact]
              obtain ⟨after, returned, fed⟩ := feedChecked_bad cfg.toConfig raw acc
              rw [same, returned]
              refine ⟨?_, ⟨fun _ => earlier, fun _ => ⟨after, rfl⟩⟩⟩
              rintro _ ⟨⟩
              exact kept.bad fed
          | true =>
              have more : intact (pkts ++ [(raw, true)]) = intact pkts ++ [raw] := by simp [intact]
              obtain ⟨agrees, taken⟩ := feedChecked_good cfg kept raw
              rw [more, allTimesFit_concat, taken]
              exact ⟨fun after returned => kept.good (agrees after returned),
                ⟨fun fits => ⟨earlier, fits⟩, fun both => both.2⟩⟩

/-- The scan makes no arithmetic fault exactly where no intact audio block has the rate zero and the
times of the packets that are compared are less than 2^63 ns apart. -/
theorem runChecked_ok_iff (cfg : IntConfig) (fileOk : Bool) (pkts : List (RawPacket × Bool)) :
    (∃ acc, runChecked cfg.toConfig pkts { sv := { fileOk } } = .ok acc) ↔
      AllTimesFit (intact pkts) :=
  (runChecked_spec cfg fileOk pkts).2

end ScanAccumulator

def defaultConfig : IntConfig := { jumpInt := by decide, telemetryInt := by decide }

/-- An audio block of the legacy format with the sample rate zero. -/
def zeroRateBlock : RawPacket where
  header :=
    { magic := kMagic, protocolVersion := 1, type := 1, payloadSize := 10, tsNs := 1,
      checksum := crc32 (List.replicate 10 0) }
  payload := List.replicate 10 0
  chunkId := 0
  fileOffset := 0

def motionAt (tsNs : UInt64) : RawPacket where
  header := { magic := kMagic, protocolVersion := 1, type := 4, tsNs }
  payload := []
  chunkId := 0
  fileOffset := 0

/-- An intact block with the rate zero divides by zero, and two intact packets 2^63 ns apart
overflow. -/
theorem zeroRateBlock_faults :
    BinaryParser.validate zeroRateBlock = .ok ∧
    ScanAccumulator.runChecked defaultConfig.toConfig [(zeroRateBlock, true)]
      { sv := { fileOk := true } } =
      .error .divisionByZero ∧
    BinaryParser.validate (motionAt 0) = .ok ∧
      BinaryParser.validate (motionAt 0x8000000000000000) = .ok ∧
    ScanAccumulator.runChecked defaultConfig.toConfig
      [(motionAt 0, true), (motionAt 0x8000000000000000, true)]
        { sv := { fileOk := true } } =
      .error .signedOverflow := by
  refine ⟨by decide +kernel, rfl, by decide +kernel, by decide +kernel, by decide +kernel⟩

end LocalPC.Offline
