import LocalPC.Lib.FloatArithmetic
import LocalPC.Lib.Intervals
import LocalPC.Offline.ScanAccumulator

namespace LocalPC.Offline
open Lib Contract LocalPC.Runtime

inductive Integrity
  | ok
  | warning
  | failed
  deriving DecidableEq, Repr

/-- `for (const auto& r : ranges) total_valid += r.duration_s();` -/
def totalDurationS (ranges : List TimeRange) : Float :=
  ranges.foldl (fun total r => total + r.durationS) 0.0

def computeIntegrity (cfg : Config) (egoVal srcVal : StreamValidation)
    (ranges : List TimeRange) : Integrity :=
  if egoVal.fileOk = false then .failed
  else if totalDurationS ranges < cfg.minValidDurationS then .failed
  else
    let hasErrors :=
      egoVal.gapEvents.any (·.severity = .error) || srcVal.gapEvents.any (·.severity = .error)
    if 0 < egoVal.packetsCrcFailed ∨ 5 < egoVal.monotonicViolations then .warning
    else if hasErrors then .warning
    else .ok

structure ValidationReport where
  integrity : Integrity
  ego : StreamValidation
  source : StreamValidation
  validRanges : List TimeRange
  totalValidDurationS : Float
  validFraction : Float

def buildReport (cfg : Config) (egoVal srcVal : StreamValidation) : ValidationReport :=
  let validRanges := extractValidRanges cfg egoVal srcVal
  let totalDur := Float.ofInt (egoVal.tLastNs - egoVal.tFirstNs) / 1000000000
  let validDur := totalDurationS validRanges
  { integrity := computeIntegrity cfg egoVal srcVal validRanges
    ego := egoVal
    source := srcVal
    validRanges
    totalValidDurationS := validDur
    validFraction := if 0 < totalDur then validDur / totalDur else 0.0 }

namespace ScanAccumulator

/-- `feed` for packet after packet, each with the result of its check. -/
def feedEach (cfg : Config) (pkts : List (RawPacket × Bool)) (acc : ScanAccumulator) :
    Option ScanAccumulator :=
  pkts.foldlM (fun acc x => acc.feed cfg x.1 x.2) acc

end ScanAccumulator

structure ErrorsInside (sv : StreamValidation) : Prop where
  errors : ∀ t ∈ sv.errorTimes, sv.tFirstNs ≤ t ∧ t ≤ sv.tLastNs
  ordered : sv.tFirstNs ≤ sv.tLastNs
  least : -2 ^ 63 ≤ sv.tFirstNs
  most : sv.tLastNs < 2 ^ 63

theorem toInt64_mem (x : UInt64) : -2 ^ 63 ≤ toInt64 x ∧ toInt64 x < 2 ^ 63 := by
  have := x.toNat_lt
  unfold toInt64
  split <;> omega

def ScanState.range (s : ScanState) : Bool × Int × Int := (s.first, s.sv.tFirstNs, s.sv.tLastNs)

theorem range_checkTimes (cfg : Config) (raw : RawPacket) (ts : Int) (s : ScanState) :
    (s.checkTimes cfg raw ts).range =
      (false, (s.updateRange ts).sv.tFirstNs, (s.updateRange ts).sv.tLastNs) := by
  have monotonic (s : ScanState) : (s.checkMonotonic ts).range = s.range := by
    unfold ScanState.checkMonotonic
    split <;> rfl
  have jump (s : ScanState) : (s.checkJump cfg ts).range = s.range := by
    unfold ScanState.checkJump
    dsimp only
    split <;> rfl
  have audio (s : ScanState) : (s.checkAudio cfg raw ts).range = s.range := by
    unfold ScanState.checkAudio
    dsimp only
    split
    · split <;> rfl
    · rfl
  have imu (s : ScanState) : (s.checkImu cfg raw ts).range = s.range := by
    unfold ScanState.checkImu
    dsimp only
    split
    · split <;> rfl
    · rfl
  have update {s t : ScanState} (same : s.range = t.range) : (s.updateRange ts).range =
      (t.updateRange ts).range := by
    simp only [ScanState.range, Prod.mk.injEq] at same
    simp only [ScanState.range, ScanState.updateRange, same.1, same.2.1, same.2.2]
  have here := (imu _).trans ((audio _).trans (update ((jump _).trans (monotonic s))))
  unfold ScanState.checkTimes ScanState.remember ScanState.range at *
  simp only [Prod.mk.injEq, true_and] at here ⊢
  exact here.2

theorem errorTimes_seqGap_subset (streamId : String) (expected actual : UInt32)
    (t prevT : Int) (sv : StreamValidation) {u : Int}
    (member : u ∈ (sv.seqGap streamId expected actual t prevT).errorTimes) :
    u ∈ sv.errorTimes ∨ u = t := by
  unfold StreamValidation.seqGap at member
  split at member
  · simp only [StreamValidation.errorTimes, StreamValidation.push,
      List.filter_append, List.map_append, List.mem_append] at member
    rcases member with before | new
    · exact Or.inl before
    · obtain ⟨g, listed, rfl⟩ := List.mem_map.mp new
      exact Or.inr (congrArg GapEvent.tNs (List.mem_singleton.mp (List.mem_filter.mp listed).1))
  · exact Or.inl member

namespace ScanAccumulator

structure Bounded (acc : ScanAccumulator) : Prop where
  fresh : acc.first = true → acc.sv.errorTimes = []
  inside : ErrorsInside acc.sv

theorem errorTimes_countSeq_subset (raw : RawPacket) (acc : ScanAccumulator) {u : Int}
    (member : u ∈ (acc.countSeq raw).errorTimes) :
    u ∈ acc.sv.errorTimes ∨ acc.first = false ∧ u = toInt64 raw.header.tsNs := by
  have counted : u ∈
      (if acc.first then acc.sv else StreamValidation.seqGap "ego" (acc.prevSeq + 1) raw.header.seq
      (toInt64 raw.header.tsNs) acc.prevTs { acc.sv with
        packetsTotal := acc.sv.packetsTotal + 1
        packetsValid := acc.sv.packetsValid + 1 }).errorTimes := by
    unfold countSeq at member
    dsimp only at member
    split at member <;> split at member <;> rename_i first <;>
      simp only [first, if_true] <;> exact member
  cases first : acc.first with
  | true =>
      rw [first, if_pos rfl] at counted
      exact Or.inl counted
  | false =>
      rw [first, if_neg Bool.false_ne_true] at counted
      exact (errorTimes_seqGap_subset _ _ _ _ _ _ counted).imp_right fun is => ⟨rfl, is⟩

theorem range_feed {cfg : Config} {raw : RawPacket} {acc after : ScanAccumulator}
    (fed : feed cfg raw true acc = some after) :
    after.sv.errorTimes = (acc.countSeq raw).errorTimes ∧ after.first = false ∧
      after.sv.tFirstNs = (acc.updateRange (toInt64 raw.header.tsNs)).sv.tFirstNs ∧
      after.sv.tLastNs = (acc.updateRange (toInt64 raw.header.tsNs)).sv.tLastNs := by
  rw [feed_true] at fed
  split at fed
  · cases fed
  · cases fed
    have range :=
      range_checkTimes cfg raw
        (toInt64 raw.header.tsNs) { acc.toScanState with sv := acc.countSeq raw }
    obtain ⟨lost, events, counted⟩ := countSeq_eq raw acc
    have same : (ScanState.updateRange
        (toInt64 raw.header.tsNs) { acc.toScanState with sv := acc.countSeq raw }).range =
        (acc.updateRange (toInt64 raw.header.tsNs)).range := by
      rw [counted]
      rfl
    simp only [ScanState.range, Prod.mk.injEq] at range same
    exact ⟨(ScanState.quiet_checkTimes cfg raw _).errors _, range.1, range.2.1.trans same.2.1,
      range.2.2.trans same.2.2⟩

theorem Bounded.feed {cfg : Config} {raw : RawPacket} {ok : Bool}
    {acc after : ScanAccumulator} (bounded : acc.Bounded) (fed : feed cfg raw ok acc = some after) :
    after.Bounded := by
  obtain ⟨fresh, errors, ordered, least, most⟩ := bounded
  cases ok with
  | false =>
      cases fed
      exact ⟨fresh, errors, ordered, least, most⟩
  | true =>
      obtain ⟨same, started, tFirst, tLast⟩ := range_feed fed
      obtain ⟨low, high⟩ := toInt64_mem raw.header.tsNs
      have known := @errorTimes_countSeq_subset raw acc
      unfold ScanState.updateRange at tFirst tLast
      dsimp only at tFirst tLast
      generalize toInt64 raw.header.tsNs = ts at *
      have first' : after.sv.tFirstNs ≤ ts ∧
          (acc.first = false → after.sv.tFirstNs ≤ acc.sv.tFirstNs) ∧
          (after.sv.tFirstNs = ts ∨ after.sv.tFirstNs = acc.sv.tFirstNs) := by
        rw [tFirst]
        cases acc.first with
        | true => simp
        | false =>
            simp only [Bool.false_eq_true, false_or]
            split <;> omega
      have last' : ts ≤ after.sv.tLastNs ∧ acc.sv.tLastNs ≤ after.sv.tLastNs ∧
          (after.sv.tLastNs = ts ∨ after.sv.tLastNs = acc.sv.tLastNs) := by
        rw [tLast]
        split <;> omega
      refine ⟨fun is => absurd (is.symm.trans started) Bool.noConfusion,
        ?_, by omega, by omega, by omega⟩
      intro u member
      rw [same] at member
      rcases known member with old | ⟨-, rfl⟩
      · cases begun : acc.first with
        | true =>
            rw [fresh begun] at old
            cases old
        | false =>
            have := errors u old
            have := first'.2.1 begun
            omega
      · exact ⟨first'.1, last'.1⟩

theorem Bounded.feedEach {cfg : Config} {pkts : List (RawPacket × Bool)}
    {acc after : ScanAccumulator} (bounded : acc.Bounded)
    (fed : acc.feedEach cfg pkts = some after) : after.Bounded := by
  induction pkts generalizing acc with
  | nil =>
      cases fed
      exact bounded
  | cons x pkts ih =>
      unfold ScanAccumulator.feedEach at fed
      rw [List.foldlM_cons] at fed
      obtain ⟨next, here, rest⟩ := Option.bind_eq_some_iff.mp fed
      exact ih (bounded.feed here) rest

theorem bounded_init (fileOk : Bool) : Bounded { sv := { fileOk } } where
  fresh _ := rfl
  inside := ⟨fun _ member => absurd member List.not_mem_nil, le_rfl,
    Int.negSucc_lt_zero _ |>.le, by norm_num⟩

theorem feedEach_inside {cfg : Config} {fileOk : Bool} {pkts : List (RawPacket × Bool)}
    {after : ScanAccumulator} (fed : feedEach cfg pkts { sv := { fileOk } } = some after) :
    ErrorsInside after.sv :=
  ((bounded_init fileOk).feedEach fed).inside

end ScanAccumulator

def TimeRange.span (r : TimeRange) : Int × Int := (r.tStartNs, r.tEndNs)

def rangeOf (stream : Stream) (p : Int × Int) : TimeRange :=
  { tStartNs := p.1, tEndNs := p.2, stream }

def isLong (cfg : Config) (r : TimeRange) : Bool := cfg.minValidDurationS ≤ r.durationS

section Kept
variable (isLong : TimeRange → Bool)

def keepIf (ranges : List TimeRange) (r : TimeRange) : List TimeRange :=
  if isLong r then ranges ++ [r] else ranges

/-- `build_ranges`, where `isLong` says which ranges are long enough. -/
def rangesWith (sv : StreamValidation) (stream : Stream) : List TimeRange :=
  if sv.fileOk = false ∨ sv.tLastNs ≤ sv.tFirstNs then []
  else
    let cut := sv.breaks.foldl (fun (ranges, curStart) bp =>
      if bp ≤ curStart then (ranges, curStart)
      else (keepIf isLong ranges { tStartNs := curStart, tEndNs := bp, stream }, bp))
        ([], sv.tFirstNs)
    keepIf isLong cut.1 { tStartNs := cut.2, tEndNs := sv.tLastNs, stream }

def validRangesWith (egoVal srcVal : StreamValidation) : List TimeRange :=
  let egoRanges := rangesWith isLong egoVal .ego
  let srcRanges := rangesWith isLong srcVal .source
  let combined := egoRanges.foldl (fun combined er => srcRanges.foldl (fun combined sr =>
    let t0 := max er.tStartNs sr.tStartNs
    let t1 := min er.tEndNs sr.tEndNs
    if t0 < t1 then keepIf isLong combined { tStartNs := t0, tEndNs := t1 }
    else combined) combined) []
  if combined = [] then egoRanges else combined

def keptRanges (stream : Stream) (spans : List (Int × Int)) : List TimeRange :=
  (spans.map (rangeOf stream)).filter isLong

theorem keepIf_eq (ranges : List TimeRange) (stream : Stream) (p : Int × Int) :
    keepIf isLong ranges (rangeOf stream p) = ranges ++ keptRanges isLong stream [p] := by
  unfold keepIf keptRanges
  cases long : isLong (rangeOf stream p) with
  | true => simp [long]
  | false => simp [long]

theorem keptRanges_append (stream : Stream) (l m : List (Int × Int)) :
    keptRanges isLong stream (l ++ m) =
      keptRanges isLong stream l ++ keptRanges isLong stream m := by
  rw [keptRanges, List.map_append, List.filter_append]
  rfl

variable {isLong} in
theorem mem_keptRanges {stream : Stream} {spans : List (Int × Int)} {r : TimeRange} :
    r ∈ keptRanges isLong stream spans ↔ r.span ∈ spans ∧ r.stream = stream ∧ isLong r = true := by
  rw [keptRanges, List.mem_filter, List.mem_map]
  constructor
  · rintro ⟨⟨p, member, rfl⟩, long⟩
    exact ⟨member, rfl, long⟩
  · rintro ⟨member, rfl, long⟩
    exact ⟨⟨r.span, member, rfl⟩, long⟩

theorem spans_keptRanges_sublist (stream : Stream) (spans : List (Int × Int)) :
    ((keptRanges isLong stream spans).map TimeRange.span).Sublist spans := by
  have all : (spans.map (rangeOf stream)).map TimeRange.span = spans := by
    rw [List.map_map]
    exact List.map_id _
  have kept : ((keptRanges isLong stream spans).map TimeRange.span).Sublist
      ((spans.map (rangeOf stream)).map TimeRange.span) := List.filter_sublist.map _
  rwa [all] at kept

theorem cut_eq (stream : Stream) (stop : Int) (breaks : List Int)
    (ranges : List TimeRange) (start : Int) :
    let cut := breaks.foldl (fun (ranges, curStart) bp =>
      if bp ≤ curStart then (ranges, curStart)
      else (keepIf isLong ranges { tStartNs := curStart, tEndNs := bp, stream }, bp))
        (ranges, start)
    keepIf isLong cut.1 { tStartNs := cut.2, tEndNs := stop, stream } =
      ranges ++ keptRanges isLong stream (pieces stop start breaks) := by
  induction breaks generalizing ranges start with
  | nil => exact keepIf_eq isLong ranges stream (start, stop)
  | cons bp breaks ih =>
      rw [List.foldl_cons, pieces]
      dsimp only
      split
      · exact ih ranges start
      · have appended := keepIf_eq isLong ranges stream (start, bp)
        rw [← List.singleton_append, keptRanges_append, ← List.append_assoc, ← appended]
        exact ih _ bp

theorem rangesWith_eq (sv : StreamValidation) (stream : Stream) :
    rangesWith isLong sv stream =
      if sv.fileOk = false ∨ sv.tLastNs ≤ sv.tFirstNs then []
      else keptRanges isLong stream (pieces sv.tLastNs sv.tFirstNs sv.breaks) := by
  unfold rangesWith
  split
  · rfl
  · exact cut_eq isLong stream sv.tLastNs sv.breaks [] sv.tFirstNs

theorem intersect_eq (er : TimeRange) (srcRanges combined : List TimeRange) :
    srcRanges.foldl (fun combined sr =>
      let t0 := max er.tStartNs sr.tStartNs
      let t1 := min er.tEndNs sr.tEndNs
      if t0 < t1 then keepIf isLong combined { tStartNs := t0, tEndNs := t1 }
      else combined) combined =
      combined ++
        keptRanges isLong
          .both (((srcRanges.map TimeRange.span).map (overlap er.span)).filter fun p =>
            p.1 < p.2) := by
  induction srcRanges generalizing combined with
  | nil => exact (List.append_nil _).symm
  | cons sr srcRanges ih =>
      have appended := keepIf_eq isLong combined .both (overlap er.span sr.span)
      rw [List.foldl_cons, List.map_cons, List.map_cons]
      dsimp only
      by_cases proper : max er.tStartNs sr.tStartNs < min er.tEndNs sr.tEndNs
      · have kept : decide ((overlap er.span sr.span).1 < (overlap er.span sr.span).2) = true :=
          decide_eq_true proper
        rw [if_pos proper, List.filter_cons, if_pos kept, ← List.singleton_append,
          keptRanges_append, ← List.append_assoc, ← appended]
        exact ih _
      · have left_ : ¬ decide ((overlap er.span sr.span).1 < (overlap er.span sr.span).2) = true :=
          fun is => proper (of_decide_eq_true is)
        rw [if_neg proper, List.filter_cons, if_neg left_]
        exact ih _

theorem combined_eq (egoRanges srcRanges combined : List TimeRange) :
    egoRanges.foldl (fun combined er => srcRanges.foldl (fun combined sr =>
      let t0 := max er.tStartNs sr.tStartNs
      let t1 := min er.tEndNs sr.tEndNs
      if t0 < t1 then keepIf isLong combined { tStartNs := t0, tEndNs := t1 }
      else combined) combined) combined =
      combined ++ keptRanges isLong
        .both (overlaps (egoRanges.map TimeRange.span) (srcRanges.map TimeRange.span)) := by
  induction egoRanges generalizing combined with
  | nil => exact (List.append_nil _).symm
  | cons er egoRanges ih =>
      rw [List.foldl_cons, intersect_eq, ih, List.map_cons, overlaps_cons,
        keptRanges_append, List.append_assoc]

end Kept

theorem extractValidRanges_eq (cfg : Config) (egoVal srcVal : StreamValidation) :
    extractValidRanges cfg egoVal srcVal = validRangesWith (isLong cfg) egoVal srcVal := by
  have keep : keepLong cfg = keepIf (isLong cfg) := by
    funext ranges r
    simp only [keepLong, keepIf, isLong, decide_eq_true_iff]
  unfold extractValidRanges validRangesWith buildRanges rangesWith
  rw [keep]

structure Clear (sv : StreamValidation) (r : TimeRange) : Prop where
  start : sv.tFirstNs ≤ r.tStartNs
  stop : r.tEndNs ≤ sv.tLastNs
  clear : ∀ t ∈ sv.errorTimes, ¬ (r.tStartNs < t ∧ t < r.tEndNs)

theorem breaks_sorted (sv : StreamValidation) : sv.breaks.Pairwise (· ≤ ·) := by
  have sorted : sv.breaks.Pairwise fun a b => decide (a ≤ b) = true :=
    List.pairwise_mergeSort (fun a b c => by simpa using le_trans)
      (fun a b => by simpa using le_total a b) sv.errorTimes
  exact sorted.imp fun le => by simpa using le

theorem mem_breaks {sv : StreamValidation} {t : Int} : t ∈ sv.breaks ↔ t ∈ sv.errorTimes :=
  List.mem_mergeSort

section Build
variable {isLong : TimeRange → Bool} {sv : StreamValidation} {stream : Stream}

theorem rangesWith_ascending (inside : ErrorsInside sv) :
    Ascending ((rangesWith isLong sv stream).map TimeRange.span) := by
  rw [rangesWith_eq]
  split
  · exact List.Pairwise.nil
  · have all := pieces_ascending (breaks_sorted sv) inside.ordered
      fun t member => (inside.errors t (mem_breaks.mp member)).2
    exact all.sublist (spans_keptRanges_sublist _ _ _)

theorem mem_rangesWith (inside : ErrorsInside sv) {r : TimeRange}
    (member : r ∈ rangesWith isLong sv stream) :
    r.stream = stream ∧ r.tStartNs ≤ r.tEndNs ∧ isLong r = true ∧ Clear sv r := by
  rw [rangesWith_eq] at member
  split at member
  · cases member
  · obtain ⟨piece, tag, long⟩ := mem_keptRanges.mp member
    have within (t : Int) (listed : t ∈ sv.breaks) : t ≤ sv.tLastNs :=
      (inside.errors t (mem_breaks.mp listed)).2
    obtain ⟨start, proper, stop⟩ := mem_pieces (breaks_sorted sv) inside.ordered within piece
    have uncut := pieces_uncut (breaks_sorted sv) inside.ordered within piece
    exact ⟨tag, proper, long, start, stop, fun t error => uncut t (mem_breaks.mpr error)⟩

end Build

structure SoundRanges (cfg : Config) (egoVal srcVal : StreamValidation)
    (ranges : List TimeRange) : Prop where
  ascending : ranges.Pairwise fun a b => a.tEndNs ≤ b.tStartNs
  proper : ∀ r ∈ ranges, r.tStartNs ≤ r.tEndNs
  long : ∀ r ∈ ranges, cfg.minValidDurationS ≤ r.durationS
  ego : ∀ r ∈ ranges, Clear egoVal r
  tagged : ∀ r ∈ ranges, r.stream = .ego ∨ r.stream = .both ∧ Clear srcVal r

theorem Clear.part {sv : StreamValidation} {r part : TimeRange} (whole : Clear sv r)
    (start : r.tStartNs ≤ part.tStartNs) (stop : part.tEndNs ≤ r.tEndNs) : Clear sv part where
  start := whole.start.trans start
  stop := stop.trans whole.stop
  clear t error inside := whole.clear t error ⟨start.trans_lt inside.1, inside.2.trans_le stop⟩

structure RangesPass (isLong : TimeRange → Bool) (egoVal srcVal : StreamValidation)
    (ranges : List TimeRange) : Prop where
  ascending : ranges.Pairwise fun a b => a.tEndNs ≤ b.tStartNs
  proper : ∀ r ∈ ranges, r.tStartNs ≤ r.tEndNs
  long : ∀ r ∈ ranges, isLong r = true
  ego : ∀ r ∈ ranges, Clear egoVal r
  tagged : ∀ r ∈ ranges, r.stream = .ego ∨ r.stream = .both ∧ Clear srcVal r

theorem validRangesWith_pass (isLong : TimeRange → Bool) {egoVal srcVal : StreamValidation}
    (ego : ErrorsInside egoVal) (src : ErrorsInside srcVal) :
    RangesPass isLong egoVal srcVal (validRangesWith isLong egoVal srcVal) := by
  unfold validRangesWith
  dsimp only
  rw [combined_eq, List.nil_append]
  split
  · have member {r : TimeRange} := @mem_rangesWith isLong egoVal .ego ego r
    have ascending := @rangesWith_ascending isLong egoVal .ego ego
    exact ⟨List.pairwise_map.mp ascending, fun r listed => (member listed).2.1,
      fun r listed => (member listed).2.2.1, fun r listed => (member listed).2.2.2,
        fun r listed => Or.inl (member listed).1⟩
  · have ascending := (overlaps_ascending (@rangesWith_ascending isLong egoVal .ego ego)
      (@rangesWith_ascending isLong srcVal .source src)).sublist
        (spans_keptRanges_sublist isLong .both _)
    have parts (r : TimeRange) (listed : r ∈ keptRanges isLong .both (overlaps
        ((rangesWith isLong egoVal .ego).map TimeRange.span)
          ((rangesWith isLong srcVal .source).map TimeRange.span))) :
        r.stream = .both ∧ r.tStartNs ≤ r.tEndNs ∧ isLong r = true ∧
          Clear egoVal r ∧ Clear srcVal r := by
      obtain ⟨part, tag, long⟩ := mem_keptRanges.mp listed
      obtain ⟨_, left, _, right, is, proper⟩ := mem_overlaps.mp part
      obtain ⟨er, egoListed, rfl⟩ := List.mem_map.mp left
      obtain ⟨sr, srcListed, rfl⟩ := List.mem_map.mp right
      have starts : max er.tStartNs sr.tStartNs = r.tStartNs := congrArg Prod.fst is
      have stops : min er.tEndNs sr.tEndNs = r.tEndNs := congrArg Prod.snd is
      exact ⟨tag, proper.le, long,
        (mem_rangesWith ego egoListed).2.2.2.part (by omega) (by omega),
        (mem_rangesWith src srcListed).2.2.2.part (by omega) (by omega)⟩
    exact ⟨List.pairwise_map.mp ascending, fun r listed => (parts r listed).2.1,
      fun r listed => (parts r listed).2.2.1, fun r listed => (parts r listed).2.2.2.1,
        fun r listed => Or.inr ⟨(parts r listed).1, (parts r listed).2.2.2.2⟩⟩

theorem RangesPass.total_le {isLong : TimeRange → Bool} {egoVal srcVal : StreamValidation}
    {ranges : List TimeRange} (pass : RangesPass isLong egoVal srcVal ranges)
    (ordered : egoVal.tFirstNs ≤ egoVal.tLastNs) :
    (ranges.map fun r => r.tEndNs - r.tStartNs).sum ≤ egoVal.tLastNs - egoVal.tFirstNs := by
  have spans : Ascending (ranges.map TimeRange.span) := List.pairwise_map.mpr pass.ascending
  have within : ∀ p ∈ ranges.map TimeRange.span, egoVal.tFirstNs ≤ p.1 ∧ p.2 ≤ egoVal.tLastNs := by
    rintro p listed
    obtain ⟨r, member, rfl⟩ := List.mem_map.mp listed
    exact ⟨(pass.ego r member).start, (pass.ego r member).stop⟩
  have total := spans.sum_length_le ordered within
  rwa [List.map_map] at total

theorem extractValidRanges_pass (cfg : Config) {egoVal srcVal : StreamValidation}
    (ego : ErrorsInside egoVal) (src : ErrorsInside srcVal) :
    RangesPass (isLong cfg) egoVal srcVal (extractValidRanges cfg egoVal srcVal) := by
  rw [extractValidRanges_eq]
  exact validRangesWith_pass (isLong cfg) ego src

theorem RangesPass.sound {cfg : Config} {egoVal srcVal : StreamValidation} {ranges : List TimeRange}
    (pass : RangesPass (isLong cfg) egoVal srcVal ranges) :
    SoundRanges cfg egoVal srcVal ranges where
  ascending := pass.ascending
  proper := pass.proper
  long r member := of_decide_eq_true (pass.long r member)
  ego := pass.ego
  tagged := pass.tagged

theorem hasValue_seconds {d : Int} (some_ : 0 < d) (word : d < 2 ^ 64) :
    HasValue (Float.ofInt d / 1000000000) (rounded (rounded d / 1000000000)) ∧
      2 ^ (-30 : ℤ) ≤ rounded (d : ℚ) / 1000000000 ∧
        rounded (d : ℚ) / 1000000000 ≤ 2 ^ (64 : ℤ) := by
  obtain ⟨n, rfl⟩ := Int.eq_ofNat_of_zero_le some_.le
  have positive : 0 < n := by omega
  have small : n < 2 ^ 64 := by omega
  have billion : HasValue 1000000000 1000000000 := by
    have value := @hasValue_ofNat 1000000000 (by norm_num) (by norm_num)
    have fixed := @rounded_eq_self 1000000000 0 (by norm_num) (by norm_num)
    rw [zpow_zero, mul_one] at fixed
    rw [fixed, Nat.cast_ofNat] at value
    exact value
  obtain ⟨low, high⟩ := rounded_mem (word_mem positive small).1 (word_mem positive small).2
  rw [zpow_zero] at low
  have above : (2 : ℚ) ^ (-30 : ℤ) ≤ rounded n / 1000000000 := by
    rw [le_div_iff₀ (by norm_num)]
    exact le_trans (by norm_num) low
  have below : rounded n / 1000000000 ≤ (2 : ℚ) ^ (64 : ℤ) :=
    (div_le_self ((zero_le_one).trans low) (by norm_num)).trans high
  rw [Int.cast_natCast]
  exact ⟨(hasValue_ofNat positive small).div billion
    (inRange_of_between above below (by norm_num) (by norm_num)), above, below⟩

theorem ofInt_zero_div : Float.ofInt 0 / 1000000000 = 0 := by decide

theorem isNonneg_seconds {d : Int} (nonneg : 0 ≤ d) (word : d < 2 ^ 64) :
    Nonneg (Float.ofInt d / 1000000000) := by
  rcases nonneg.eq_or_lt with rfl | some_
  · rw [ofInt_zero_div]
    exact nonneg_zero
  · exact (hasValue_seconds some_ word).1.isNonneg

theorem totalDurationS_isNonneg {ranges : List TimeRange}
    (durations : ∀ r ∈ ranges, 0 ≤ r.tEndNs - r.tStartNs ∧ r.tEndNs - r.tStartNs < 2 ^ 64) :
    Nonneg (totalDurationS ranges) := by
  have sum (ranges : List TimeRange) (durations : ∀ r ∈ ranges, Nonneg r.durationS) (total : Float)
      (sofar : Nonneg total) :
      Nonneg (ranges.foldl (fun total r => total + r.durationS) total) := by
    induction ranges generalizing total with
    | nil => exact sofar
    | cons r ranges ih =>
        obtain ⟨here, later⟩ := List.forall_mem_cons.mp durations
        exact ih later _ (sofar.add here)
  exact sum ranges
    (fun r member => isNonneg_seconds (durations r member).1 (durations r member).2) _ nonneg_zero

theorem seconds_div_le_one {d whole : Int} (some_ : 0 < d) (le : d ≤ whole)
    (word : whole < 2 ^ 64) :
    (0.0 + Float.ofInt d / 1000000000) / (Float.ofInt whole / 1000000000) ≤ 1.0 := by
  obtain ⟨part, low, high⟩ := hasValue_seconds some_ (le.trans_lt word)
  obtain ⟨all, low', high'⟩ := hasValue_seconds (some_.trans_le le) word
  obtain ⟨least, most⟩ := rounded_mem low high
  obtain ⟨least', most'⟩ := rounded_mem low' high'
  have scaled : rounded (d : ℚ) / 1000000000 ≤ rounded (whole : ℚ) / 1000000000 :=
    div_le_div_of_nonneg_right
      (rounded_mono (Int.cast_pos.mpr some_) (Int.cast_le.mpr le)) (by norm_num)
  have smaller := rounded_mono ((two_zpow_pos _).trans_le low) scaled
  have sum := part.zero_add (inRange_of_between least most (by norm_num) (by norm_num))
  generalize rounded (rounded (d : ℚ) / 1000000000) = x at *
  generalize rounded (rounded (whole : ℚ) / 1000000000) = y at *
  have positive : 0 < y := (two_zpow_pos _).trans_le least'
  have above : 2 ^ (-94 : ℤ) ≤ x / y := by
    rw [le_div_iff₀ positive]
    calc (2 : ℚ) ^ (-94 : ℤ) * y ≤ 2 ^ (-94 : ℤ) * 2 ^ (64 : ℤ) :=
      mul_le_mul_of_nonneg_left most' (two_zpow_pos _).le
      _ = 2 ^ (-30 : ℤ) := by norm_num
      _ ≤ x := least
  have below : x / y ≤ 2 ^ (0 : ℤ) := by
    rw [zpow_zero]
    exact (div_le_one positive).mpr smaller
  have quotient := sum.div all (inRange_of_between above below (by norm_num) (by norm_num))
  rw [quotient.le_iff hasValue_one]
  exact (rounded_mem above below).2.trans_eq (zpow_zero 2)

section Fraction
variable {cfg : Config} {egoVal srcVal : StreamValidation}

theorem positive_of_seconds {d : Int} (nonneg : 0 ≤ d) (positive : 0 < Float.ofInt d / 1000000000) :
    0 < d := by
  apply lt_of_le_of_ne nonneg
  rintro rfl
  rw [ofInt_zero_div] at positive
  exact absurd positive (by decide)

theorem validFraction_nonneg (ego : ErrorsInside egoVal) (src : ErrorsInside srcVal) :
    0 ≤ (buildReport cfg egoVal srcVal).validFraction := by
  have sound := extractValidRanges_pass cfg ego src
  have ordered := ego.ordered
  have least := ego.least
  have most := ego.most
  unfold buildReport
  dsimp only
  split
  next positive =>
    have some_ := positive_of_seconds (by omega) positive
    have sum : Nonneg (totalDurationS (extractValidRanges cfg egoVal srcVal)) := by
      apply totalDurationS_isNonneg
      intro r member
      have := sound.proper r member
      have := (sound.ego r member).start
      have := (sound.ego r member).stop
      omega
    exact (sum.div (hasValue_seconds some_ (by omega)).1).nonneg
  · exact nonneg_zero.nonneg

theorem validFraction_le_one (ego : ErrorsInside egoVal) (src : ErrorsInside srcVal)
    (one : (buildReport cfg egoVal srcVal).validRanges.length ≤ 1) :
    (buildReport cfg egoVal srcVal).validFraction ≤ 1.0 := by
  have sound := extractValidRanges_pass cfg ego src
  have ordered := ego.ordered
  have least := ego.least
  have most := ego.most
  have zero : (0 : Float) ≤ 1.0 := by decide
  unfold buildReport at one ⊢
  dsimp only at one ⊢
  split
  next positive =>
    have some_ := positive_of_seconds (by omega) positive
    have all := (hasValue_seconds some_ (by omega)).1
    generalize extractValidRanges cfg egoVal srcVal = ranges at sound one
    match ranges, one with
    | [], _ =>
        change 0 / _ ≤ _
        rw [all.zero_div]
        exact zero
    | [r], _ =>
        have proper := sound.proper r (List.mem_singleton_self r)
        have start := (sound.ego r (List.mem_singleton_self r)).start
        have stop := (sound.ego r (List.mem_singleton_self r)).stop
        change (0.0 + Float.ofInt (r.tEndNs - r.tStartNs) / 1000000000) / _ ≤ _
        rcases proper.eq_or_lt with empty | long
        · rw [← empty, sub_self, ofInt_zero_div]
          have sum : (0.0 : Float) + 0 = 0 := by decide
          rw [sum, all.zero_div]
          exact zero
        · exact seconds_div_le_one (by omega) (by omega) (by omega)
  · exact zero

end Fraction

/-- For every scan the valid ranges are sound and together no longer than the ego stream. Their
fraction is not negative, and not above one unless it is the rounded sum of several ranges. -/
theorem validRanges_sound {cfg : Config} {egoOk srcOk : Bool}
    {egoPkts srcPkts : List (RawPacket × Bool)} {ego src : ScanAccumulator}
    (egoFed : ScanAccumulator.feedEach cfg egoPkts { sv.fileOk := egoOk } = some ego)
    (srcFed : ScanAccumulator.feedEach cfg srcPkts { sv.fileOk := srcOk } = some src) :
    let report := buildReport cfg ego.sv src.sv
    SoundRanges cfg ego.sv src.sv report.validRanges ∧
    (report.validRanges.map fun r => r.tEndNs - r.tStartNs).sum ≤ ego.sv.tLastNs - ego.sv.tFirstNs ∧
    0 ≤ report.validFraction ∧ (report.validRanges.length ≤ 1 → report.validFraction ≤ 1.0) := by
  have egoInside := ScanAccumulator.feedEach_inside egoFed
  have srcInside := ScanAccumulator.feedEach_inside srcFed
  have pass := extractValidRanges_pass cfg egoInside srcInside
  exact ⟨pass.sound, pass.total_le egoInside.ordered, validFraction_nonneg egoInside srcInside,
    validFraction_le_one egoInside srcInside⟩

def timedPacket (seq : UInt32) (tsNs : UInt64) : RawPacket :=
  { header := { magic := kMagic, protocolVersion := kProtocolVersion, tsNs, seq }, payload := [],
    chunkId := 0, fileOffset := 0 }

theorem oneRange_sound :
    ∃ (cfg : Config) (ego src : ScanAccumulator),
      ScanAccumulator.feedEach cfg
        ([timedPacket 0 0, timedPacket 1 20000000000].map fun raw => (raw, packetOk raw)) {} =
        some ego ∧
      ScanAccumulator.feedEach cfg [] {} = some src ∧
        (buildReport cfg ego.sv src.sv).validRanges.length = 1 ∧
      SoundRanges cfg ego.sv src.sv (buildReport cfg ego.sv src.sv).validRanges ∧
      (buildReport cfg ego.sv src.sv).validFraction ≤ 1.0 := by
  have one : (ScanAccumulator.feedEach {}
      ([timedPacket 0 0, timedPacket 1 20000000000].map fun raw =>
      (raw, packetOk raw)) {}).any
        (fun ego => (buildReport {} ego.sv {}).validRanges.length = 1) = true := by
    decide +kernel
  obtain ⟨ego, fed, length⟩ := (Option.any_eq_true _ _).mp one
  have length := of_decide_eq_true length
  obtain ⟨sound, -, -, bounded⟩ := @validRanges_sound {} true true _ [] ego {} fed rfl
  exact ⟨{}, ego, {}, fed, rfl, length, sound, bounded length.le⟩

/-- An error after 0.1 s of 0.3 s: the two ranges add up to more than the whole, as 0.1 + 0.2 does
in doubles. -/
theorem twoRanges_exceedOne :
    ∃ (cfg : Config) (ego src : ScanAccumulator),
      ScanAccumulator.feedEach cfg
        ([timedPacket 0 0, timedPacket 20 100000000, timedPacket 21 300000000].map fun raw =>
        (raw, packetOk raw)) {} = some ego ∧
      ScanAccumulator.feedEach cfg [] {} = some src ∧
        1.0 < (buildReport cfg ego.sv src.sv).validFraction := by
  have exceeds :
      (ScanAccumulator.feedEach { minValidDurationS := 0.05 }
        ([timedPacket 0 0, timedPacket 20 100000000, timedPacket 21 300000000].map fun raw =>
          (raw, packetOk raw)) {}).any (fun ego =>
        decide (1.0 < (buildReport { minValidDurationS := 0.05 } ego.sv {}).validFraction)) =
          true := by
    decide +kernel
  obtain ⟨ego, fed, more⟩ := (Option.any_eq_true _ _).mp exceeds
  exact ⟨_, ego, {}, fed, rfl, of_decide_eq_true more⟩

end LocalPC.Offline
