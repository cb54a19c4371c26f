import LocalPC.Offline.Demuxers

namespace LocalPC.Offline
open Lib

namespace SourceDemuxer

def readText (bytes : Bytes) : Bytes × Bytes :=
  if bytes.length < 2 then ([], bytes)
  else if 64 < field 0 2 bytes ∨ bytes.length < 2 + field 0 2 bytes then ([], bytes.drop 2)
  else ((bytes.drop 2).take (field 0 2 bytes), bytes.drop (2 + field 0 2 bytes))

theorem readStr_eq (payload : Bytes) {off : Nat} (inside : off ≤ payload.length) :
    ∃ off', readStr payload payload.length off = .ok ((readText (payload.drop off)).1, off') ∧
      off' ≤ payload.length ∧ payload.drop off' = (readText (payload.drop off)).2 := by
  have length : (payload.drop off).length = payload.length - off := List.length_drop
  have prefixed : (u16At 0 ((payload.drop off).take 2)).toNat = field 0 2 (payload.drop off) := by
    rw [u16At_toNat, field_take _ _ _ _ le_rfl]
  unfold readStr readText
  by_cases short : payload.length < off + 2
  · rw [if_pos short, if_pos (by omega)]
    exact ⟨off, rfl, inside, rfl⟩
  rw [if_neg short, if_neg (by omega), copy_ok (by omega)]
  simp only [bind, Except.bind, prefixed]
  by_cases refused : field 0 2 (payload.drop off) > 64 ∨
    off + 2 + field 0 2 (payload.drop off) > payload.length
  · rw [if_pos refused, if_pos (by omega)]
    exact ⟨off + 2, rfl, by omega, List.drop_drop.symm⟩
  · rw [if_neg refused, if_neg (by omega), copy_ok (by omega), List.drop_drop, List.drop_drop]
    exact ⟨_, rfl, by omega, congrArg payload.drop (by omega)⟩

def scenarioMeta (tsNs : Int) (payload : Bytes) : ScenarioMeta :=
  let first := readText payload
  let second := readText first.2
  { tsNs := tsNs, scenarioId := first.1, sourceId := second.1,
    configVersion := (readText second.2).1 }

theorem demuxScenarioMeta_eq (tsNs : Int) {payload : Bytes} (large : 2 ≤ payload.length)
    (out : DecodedSourceStreams) :
    demuxScenarioMeta tsNs payload payload.length out =
      .ok { out with scenarioMetas := out.scenarioMetas ++ [scenarioMeta tsNs payload] } := by
  obtain ⟨off₁, first, inside₁, rest₁⟩ := readStr_eq payload (Nat.zero_le _)
  obtain ⟨off₂, second, inside₂, rest₂⟩ := readStr_eq payload inside₁
  obtain ⟨off₃, third, -, -⟩ := readStr_eq payload inside₂
  rw [rest₂, rest₁] at third
  rw [rest₁] at second
  rw [demuxScenarioMeta, if_neg (not_lt.mpr large)]
  simp only [bind, Except.bind, first, second, third]
  rfl

def lengthPrefixed (text : Bytes) : Bytes := leBytes 2 text.length ++ text

/-- `scenario_id`, `source_id` and `config_version`, one after another. -/
def encodeScenario (scenarioId sourceId configVersion : Bytes) : Bytes :=
  lengthPrefixed scenarioId ++ (lengthPrefixed sourceId ++ lengthPrefixed configVersion)

/-- Every string is the written one or empty, and all three are the written ones exactly when each
is at most 64 bytes long. -/
structure Faithful (scenarioId sourceId configVersion : Bytes) (read : ScenarioMeta) : Prop where
  first : read.scenarioId = scenarioId ∨ read.scenarioId = []
  second : read.sourceId = sourceId ∨ read.sourceId = []
  third : read.configVersion = configVersion ∨ read.configVersion = []
  all : (read.scenarioId = scenarioId ∧ read.sourceId = sourceId ∧
    read.configVersion = configVersion) ↔
    scenarioId.length ≤ 64 ∧ sourceId.length ≤ 64 ∧ configVersion.length ≤ 64

/-- The bytes start with a length that a read accepts, and what it measures is neither empty nor
`text`. -/
def Fabricates (bytes text : Bytes) : Prop :=
  0 < field 0 2 bytes ∧ field 0 2 bytes ≤ 64 ∧ 2 + field 0 2 bytes ≤ bytes.length ∧
    (bytes.drop 2).take (field 0 2 bytes) ≠ text

instance (bytes text : Bytes) : Decidable (Fabricates bytes text) :=
  inferInstanceAs (Decidable (_ ∧ _))

def behindLength (bytes : Bytes) : Bytes :=
  if field 0 2 bytes ≤ 64 ∧ 2 + field 0 2 bytes ≤ bytes.length then bytes.drop (2 + field 0 2 bytes)
  else bytes.drop 2

def NoFabrication (scenarioId sourceId configVersion : Bytes) : Prop :=
  (64 < scenarioId.length →
    let bytes := scenarioId ++ (lengthPrefixed sourceId ++ lengthPrefixed configVersion)
    ¬ Fabricates bytes sourceId ∧ ¬ Fabricates (behindLength bytes) configVersion) ∧
  (scenarioId.length ≤ 64 → 64 < sourceId.length →
    ¬ Fabricates (sourceId ++ lengthPrefixed configVersion) configVersion)

section
variable {text bytes rest : Bytes}

theorem lengthPrefixed_length : (lengthPrefixed text).length = 2 + text.length := by
  simp [lengthPrefixed]

theorem field_lengthPrefixed (small : text.length ≤ 65535) :
    field 0 2 (lengthPrefixed text ++ rest) = text.length := by
  rw [lengthPrefixed, List.append_assoc]
  exact (field_of_split List.length_nil 2 text.length (text ++ rest)).trans
    (Nat.mod_eq_of_lt (by omega))

theorem drop_lengthPrefixed : (lengthPrefixed text ++ rest).drop 2 = text ++ rest := by
  rw [lengthPrefixed, List.append_assoc]
  exact List.drop_left' (leBytes_length 2 text.length)

theorem readText_short (short : text.length ≤ 64) :
    readText (lengthPrefixed text ++ rest) = (text, rest) := by
  have announced : field 0 2 (lengthPrefixed text ++ rest) = text.length :=
    field_lengthPrefixed (by omega)
  have length : (lengthPrefixed text ++ rest).length = 2 + text.length + rest.length := by
    rw [List.length_append, lengthPrefixed_length]
  rw [readText, announced, if_neg (by omega), if_neg (by omega), ← List.drop_drop,
    drop_lengthPrefixed, List.take_left, List.drop_left]

theorem readText_long (long : 64 < text.length) (small : text.length ≤ 65535) :
    readText (lengthPrefixed text ++ rest) = ([], text ++ rest) := by
  have announced : field 0 2 (lengthPrefixed text ++ rest) = text.length :=
    field_lengthPrefixed small
  have length : (lengthPrefixed text ++ rest).length = 2 + text.length + rest.length := by
    rw [List.length_append, lengthPrefixed_length]
  rw [readText, announced, if_neg (by omega), if_pos (.inl long), drop_lengthPrefixed]

theorem readText_last (small : text.length ≤ 65535) :
    (readText (lengthPrefixed text)).1 = if text.length ≤ 64 then text else [] := by
  have whole : lengthPrefixed text ++ [] = lengthPrefixed text := List.append_nil _
  split
  next short => rw [← whole, readText_short short]
  next long => rw [← whole, readText_long (not_le.mp long) small]

theorem readText_harmless_iff :
    ((readText bytes).1 = text ∨ (readText bytes).1 = []) ↔ ¬ Fabricates bytes text := by
  unfold readText Fabricates
  have nonempty : 2 ≤ bytes.length → 2 + field 0 2 bytes ≤ bytes.length →
      ((bytes.drop 2).take (field 0 2 bytes) = [] ↔ field 0 2 bytes = 0) := by
    intro two fits
    rw [← List.length_eq_zero_iff, List.length_take, List.length_drop, Nat.min_eq_left (by omega)]
  split
  next cut => exact iff_of_true (.inr rfl) fun fabricated => by omega
  split
  next refused => exact iff_of_true (.inr rfl) fun fabricated => by omega
  next accepted =>
    rw [nonempty (by omega) (by omega)]
    by_cases zero : field 0 2 bytes = 0
    · exact iff_of_true (.inr zero) fun fabricated => by omega
    · simp only [zero, or_false, not_and, not_not]
      exact ⟨fun same _ _ _ => same, fun same => same (by omega) (by omega) (by omega)⟩

theorem readText_snd (large : 2 ≤ bytes.length) : (readText bytes).2 = behindLength bytes := by
  unfold readText behindLength
  rw [if_neg (not_lt.mpr large)]
  by_cases refused : 64 < field 0 2 bytes ∨ bytes.length < 2 + field 0 2 bytes
  · rw [if_pos refused, if_neg (by omega)]
  · rw [if_neg refused, if_pos (by omega)]

end

section
variable {a b c : Bytes} (tsNs : Int)

theorem faithful_short (first : a.length ≤ 64) (second : b.length ≤ 64) (small : c.length ≤ 65535) :
    Faithful a b c (scenarioMeta tsNs (encodeScenario a b c)) := by
  have read : scenarioMeta tsNs (encodeScenario a b c) =
      { tsNs := tsNs, scenarioId := a, sourceId := b,
        configVersion := if c.length ≤ 64 then c else [] } := by
    simp only [scenarioMeta, encodeScenario, readText_short first,
      readText_short second, readText_last small]
  rw [read]
  by_cases third : c.length ≤ 64
  · rw [if_pos third]
    exact ⟨.inl rfl, .inl rfl, .inl rfl, iff_of_true ⟨rfl, rfl, rfl⟩ ⟨first, second, third⟩⟩
  · rw [if_neg third]
    refine ⟨.inl rfl, .inl rfl, .inr rfl, iff_of_false ?_ fun short => third short.2.2⟩
    rintro ⟨-, -, (empty : [] = c)⟩
    exact third (by simp [← empty])

theorem faithful_second (first : a.length ≤ 64) (second : 64 < b.length)
    (small : b.length ≤ 65535) :
    Faithful a b c (scenarioMeta tsNs (encodeScenario a b c)) ↔
      ¬ Fabricates (b ++ lengthPrefixed c) c := by
  have read : scenarioMeta tsNs (encodeScenario a b c) =
      { tsNs := tsNs, scenarioId := a, sourceId := [],
        configVersion := (readText (b ++ lengthPrefixed c)).1 } := by
    simp only [scenarioMeta, encodeScenario, readText_short first, readText_long second small]
  rw [read, ← readText_harmless_iff]
  constructor
  · intro faithful
    exact faithful.third
  · intro harmless
    refine ⟨.inl rfl, .inr rfl, harmless, iff_of_false ?_ fun short => by omega⟩
    rintro ⟨-, (empty : [] = b), -⟩
    simp [← empty] at second

theorem faithful_first (first : 64 < a.length) (small : a.length ≤ 65535) :
    Faithful a b c (scenarioMeta tsNs (encodeScenario a b c)) ↔
      ¬ Fabricates (a ++ (lengthPrefixed b ++ lengthPrefixed c)) b ∧
        ¬ Fabricates (behindLength (a ++ (lengthPrefixed b ++ lengthPrefixed c))) c := by
  have large : 2 ≤ (a ++ (lengthPrefixed b ++ lengthPrefixed c)).length := by
    rw [List.length_append]
    omega
  have read : scenarioMeta tsNs (encodeScenario a b c) =
      { tsNs := tsNs, scenarioId := [],
        sourceId := (readText (a ++ (lengthPrefixed b ++ lengthPrefixed c))).1, configVersion :=
          (readText (behindLength (a ++ (lengthPrefixed b ++ lengthPrefixed c)))).1 } := by
    simp only [scenarioMeta, encodeScenario, readText_long first small, readText_snd large]
  rw [read, ← readText_harmless_iff, ← readText_harmless_iff]
  constructor
  · intro faithful
    exact ⟨faithful.second, faithful.third⟩
  · rintro ⟨second, third⟩
    refine ⟨.inr rfl, second, third, iff_of_false ?_ fun short => by omega⟩
    rintro ⟨(empty : [] = a), -, -⟩
    simp [← empty] at first

/-- The decoded strings are the written or empty ones exactly when no refused string holds what a
later read takes for a string. -/
theorem scenarioMeta_faithful_iff (out : DecodedSourceStreams)
    (a b c : Bytes) (ha : a.length ≤ 65535) (hb : b.length ≤ 65535) (hc : c.length ≤ 65535) :
    (∃ read, demuxScenarioMeta tsNs (encodeScenario a b c) (encodeScenario a b c).length out =
        .ok { out with scenarioMetas := out.scenarioMetas ++ [read] } ∧ Faithful a b c read) ↔
      NoFabrication a b c := by
  have large : 2 ≤ (encodeScenario a b c).length := by
    rw [encodeScenario, List.length_append, lengthPrefixed_length]
    omega
  have decoded :
      (∃ read, demuxScenarioMeta tsNs (encodeScenario a b c) (encodeScenario a b c).length out =
        .ok { out with scenarioMetas := out.scenarioMetas ++ [read] } ∧ Faithful a b c read) ↔
      Faithful a b c (scenarioMeta tsNs (encodeScenario a b c)) := by
    rw [demuxScenarioMeta_eq tsNs large out]
    constructor
    · rintro ⟨read, same, faithful⟩
      rw [Except.ok.injEq] at same
      have metas := List.append_cancel_left (congrArg DecodedSourceStreams.scenarioMetas same)
      rwa [(List.cons.inj metas).1]
    · intro faithful
      exact ⟨_, rfl, faithful⟩
  rw [decoded, NoFabrication]
  rcases le_or_gt a.length 64 with first | first
  · rcases le_or_gt b.length 64 with second | second
    · exact iff_of_true (faithful_short tsNs first second hc)
        ⟨fun long => by omega, fun _ long => by omega⟩
    · rw [faithful_second tsNs first second hb]
      exact ⟨fun none => ⟨fun long => by omega, fun _ _ => none⟩, fun none => none.2 first second⟩
  · rw [faithful_first tsNs first ha]
    exact ⟨fun none => ⟨fun _ => none, fun short => by omega⟩, fun none => none.1 first⟩

end

/-- A scenario name of 65 bytes that starts with the length of two letters. -/
def longScenarioId : Bytes := leBytes 2 2 ++ List.replicate 63 65

theorem longScenarioId_faithful_iff :
    (∃ read, demuxScenarioMeta 0 (encodeScenario longScenarioId [66] [67])
        (encodeScenario longScenarioId [66] [67]).length {} =
        .ok { ({} : DecodedSourceStreams) with scenarioMetas := [] ++ [read] } ∧
          Faithful longScenarioId [66] [67] read) ↔
      NoFabrication longScenarioId [66] [67] :=
  scenarioMeta_faithful_iff 0 {} longScenarioId [66] [67] (by decide) (by decide) (by decide)

/-- Two letters of the refused name come out as the source's name. -/
theorem longScenarioId_fabricated :
    demuxScenarioMeta 0 (encodeScenario longScenarioId [66] [67])
      (encodeScenario longScenarioId [66] [67]).length {} =
        .ok { ({} : DecodedSourceStreams) with
          scenarioMetas :=
  [{ tsNs := 0, scenarioId := [], sourceId := [65, 65], configVersion := [] }] } ∧
      ¬ Faithful longScenarioId [66] [67]
        { tsNs := 0, scenarioId := [], sourceId := [65, 65], configVersion := [] } := by
  constructor
  · have read : scenarioMeta 0 (encodeScenario longScenarioId [66] [67]) =
        { tsNs := 0, scenarioId := [], sourceId := [65, 65], configVersion := [] } := by decide
    rw [demuxScenarioMeta_eq 0 (by decide), read]
    rfl
  · intro faithful
    exact absurd faithful.second (by decide)

end SourceDemuxer

end LocalPC.Offline
