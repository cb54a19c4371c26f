import Mathlib.Data.List.DropRight
import LocalPC.Lib.Search
import LocalPC.Offline.JsonText

namespace LocalPC.Offline
open Lib Json

def isSpaceOrTab (c : UInt8) : Bool := c == space || c == 9

def keyNeedle (key : Bytes) : Bytes := quote :: (key ++ [quote, colon])

def readValue : Bytes → Bytes
  | [] => []
  | c :: tail =>
      if c = quote then if quote ∈ tail then tail.takeWhile (· ≠ quote) else []
      else ((c :: tail).takeWhile fun c => c ≠ comma ∧ c ≠ closeBrace ∧ c ≠ newline).rdropWhile
        isSpaceOrTab

def jsonGetString (json key : Bytes) : Bytes :=
  match findText (keyNeedle key) json with
  | none => []
  | some pos => readValue ((json.drop (pos + (keyNeedle key).length)).dropWhile isSpaceOrTab)

namespace SessionReport

structure InputPaths where
  sessionDir : Bytes := []
  egoManifest : Bytes := []
  sourceBin : Bytes := []
  config : Bytes := []

structure Outputs where
  outDir : Bytes := []
  sessionMf4 : Bytes := []
  validationReport : Bytes := []
  syncReport : Bytes := []
  sceneEvents : Bytes := []
  sceneSegments : Bytes := []

structure Meta where
  vehicleId : Bytes := []
  scenarioId : Bytes := []
  sourceId : Bytes := []
  startedAtUtc : Bytes := []
  stoppedAtUtc : Bytes := []
  durationS : Float := 0

structure Timing where
  totalWallS : Float := 0
  stagesS : List (Bytes × Float) := []

end SessionReport

structure SessionReport where
  offlinePipelineVersion : Bytes := []
  sessionId : Bytes := []
  generatedAtUtc : Bytes := []
  pipelineStatus : Bytes := []
  syncStatus : Bytes := []
  validationIntegrity : Bytes := []
  inputPaths : SessionReport.InputPaths := {}
  outputs : SessionReport.Outputs := {}
  metadata : SessionReport.Meta := {}
  timing : SessionReport.Timing := {}
  errors : List Bytes := []

namespace SessionReport

def calls (report : SessionReport) : List Call :=
  [ .field (ascii "offline_pipeline_version") (.str report.offlinePipelineVersion),
    .field (ascii "session_id") (.str report.sessionId),
    .field (ascii "generated_at_utc") (.str report.generatedAtUtc),
    .field (ascii "pipeline_status") (.str report.pipelineStatus),
    .field (ascii "sync_status") (.str report.syncStatus),
    .field (ascii "validation_integrity") (.str report.validationIntegrity),
    .object (ascii "input_paths")
      [ .field (ascii "session_dir") (.str report.inputPaths.sessionDir),
        .field (ascii "ego_manifest") (.str report.inputPaths.egoManifest),
        .field (ascii "source_bin") (.str report.inputPaths.sourceBin),
        .field (ascii "config") (.str report.inputPaths.config) ],
    .object (ascii "outputs")
      [ .field (ascii "out_dir") (.str report.outputs.outDir),
        .field (ascii "session_mf4") (.str report.outputs.sessionMf4),
        .field (ascii "validation_report") (.str report.outputs.validationReport),
        .field (ascii "sync_report") (.str report.outputs.syncReport),
        .field (ascii "scene_events") (.str report.outputs.sceneEvents),
        .field (ascii "scene_segments") (.str report.outputs.sceneSegments) ],
    .object (ascii "metadata")
      [ .field (ascii "vehicle_id") (.str report.metadata.vehicleId),
        .field (ascii "scenario_id") (.str report.metadata.scenarioId),
        .field (ascii "source_id") (.str report.metadata.sourceId),
        .field (ascii "started_at_utc") (.str report.metadata.startedAtUtc),
        .field (ascii "stopped_at_utc") (.str report.metadata.stoppedAtUtc),
        .field (ascii "duration_s") (.double report.metadata.durationS 3) ],
    .object (ascii "timing")
      [ .field (ascii "total_wall_s") (.double report.timing.totalWallS 3),
        .object (ascii "stages_s")
          (report.timing.stagesS.map fun stage => .field stage.1 (.double stage.2 3)) ],
    .array (ascii "errors") (report.errors.map .str) ]

def toJson (report : SessionReport) : Bytes := (Built.mk 2 0 report.calls).text

end SessionReport

def KeyChars (key : Bytes) : Prop := ∀ c ∈ key, c ≠ quote ∧ c ≠ backslash ∧ c ≠ space ∧ c ≠ colon

instance (key : Bytes) : Decidable (KeyChars key) := inferInstanceAs (Decidable (∀ c ∈ key, _))

def Plain (c : UInt8) : Prop := c ≠ quote ∧ c ≠ backslash ∧ c ≠ newline ∧ c ≠ 13 ∧ c ≠ 9

def Unescaped (value : Bytes) : Prop := ∀ c ∈ value, Plain c

instance (c : UInt8) : Decidable (Plain c) := inferInstanceAs (Decidable (_ ∧ _))

instance (value : Bytes) : Decidable (Unescaped value) :=
  inferInstanceAs (Decidable (∀ c ∈ value, _))

section
variable {key : Bytes}

theorem escape_of_plain {c : UInt8} (plain : Plain c) : escape c = [c] := by
  obtain ⟨quoteFree, backslashFree, line, carriage, tab⟩ := plain
  simp [escape, quoteFree, backslashFree, line, carriage, tab]

theorem eq_of_quoted {front other behind rest : Bytes} (quoteFree : quote ∉ front)
    (quoteFree' : quote ∉ other) (starts : front ++ quote :: behind <+: other ++ quote :: rest) :
    front = other := by
  induction front generalizing other with
  | nil =>
      cases other with
      | nil => rfl
      | cons c other =>
          have same : quote = c := (List.cons_prefix_cons.mp starts).1
          exact absurd (same ▸ List.mem_cons_self) quoteFree'
  | cons d front ih =>
      cases other with
      | nil =>
          have same : d = quote := (List.cons_prefix_cons.mp starts).1
          exact absurd (same ▸ List.mem_cons_self) quoteFree
      | cons c other =>
          have same : d = c := (List.cons_prefix_cons.mp starts).1
          have behind := (List.cons_prefix_cons.mp starts).2
          rw [same, ih (fun mem => quoteFree (List.mem_cons_of_mem _ mem))
            (fun mem => quoteFree' (List.mem_cons_of_mem _ mem)) behind]

theorem escape_cases (c : UInt8) :
    (∃ d, escape c = [backslash, d]) ∨ (escape c = [c] ∧ c ≠ quote ∧ c ≠ backslash) := by
  unfold escape
  split
  · exact .inl ⟨_, rfl⟩
  next quoteFree =>
    split
    · exact .inl ⟨_, rfl⟩
    next backslashFree =>
      split
      · exact .inl ⟨_, rfl⟩
      split
      · exact .inl ⟨_, rfl⟩
      split
      · exact .inl ⟨_, rfl⟩
      · exact .inr ⟨rfl, quoteFree, backslashFree⟩

theorem not_prefix_cons (chars : KeyChars key) {c : UInt8}
    (other : c = space ∨ c = colon) (rest : Bytes) :
    ¬ key ++ [quote, colon] <+: c :: rest := by
  intro starts
  cases key with
  | nil =>
      have same := (List.cons_prefix_cons.mp starts).1
      rcases other with rfl | rfl <;> exact absurd same (by decide)
  | cons k key =>
      have same := (List.cons_prefix_cons.mp starts).1
      have head := (chars k List.mem_cons_self).2.2
      rcases other with rfl | rfl
      · exact head.1 same
      · exact head.2 same

theorem not_prefix_escaped (chars : KeyChars key) (value rest : Bytes) :
    ¬ key ++ [quote, colon] <+: value.flatMap escape ++ quote :: space :: rest := by
  induction value generalizing key with
  | nil =>
      cases key with
      | nil =>
          intro starts
          exact absurd (List.cons_prefix_cons.mp (List.cons_prefix_cons.mp starts).2).1 (by decide)
      | cons k key =>
          intro starts
          exact (chars k List.mem_cons_self).1 (List.cons_prefix_cons.mp starts).1
  | cons c value ih =>
      rw [List.flatMap_cons]
      obtain ⟨d, special⟩ | ⟨same, other, -⟩ := escape_cases c
      · rw [special]
        cases key with
        | nil =>
            intro starts
            exact absurd (List.cons_prefix_cons.mp starts).1 (by decide)
        | cons k key =>
            intro starts
            exact (chars k List.mem_cons_self).2.1 (List.cons_prefix_cons.mp starts).1
      · rw [same]
        cases key with
        | nil =>
            intro starts
            exact other (List.cons_prefix_cons.mp starts).1.symm
        | cons k key =>
            intro starts
            exact ih (fun c mem => chars c (List.mem_cons_of_mem _ mem))
              (List.cons_prefix_cons.mp starts).2

theorem startsNot_str (chars : KeyChars key) (value rest : Bytes) :
    StartsNot (keyNeedle key) (str value) (space :: rest) := by
  have inside (value : Bytes) : StartsNot (keyNeedle key)
      (value.flatMap escape ++ [quote]) (space :: rest) := by
    induction value with
    | nil =>
        refine ⟨fun starts => ?_, trivial⟩
        exact not_prefix_cons chars (.inl rfl) rest (List.cons_prefix_cons.mp starts).2
    | cons c value ih =>
        rw [List.flatMap_cons, List.append_assoc]
        obtain ⟨d, special⟩ | ⟨same, other, -⟩ := escape_cases c
        · rw [special]
          refine ⟨fun starts =>
            absurd (List.cons_prefix_cons.mp starts).1 (by decide), fun starts => ?_, ih⟩
          have behind : key ++ [quote, colon] <+:
              value.flatMap escape ++ [quote] ++ space :: rest :=
            (List.cons_prefix_cons.mp starts).2
          rw [List.append_assoc] at behind
          exact not_prefix_escaped chars value rest behind
        · rw [same]
          exact ⟨fun starts => other (List.cons_prefix_cons.mp starts).1.symm, ih⟩
  refine ⟨fun starts => ?_, inside value⟩
  have behind : key ++ [quote, colon] <+: value.flatMap escape ++ [quote] ++ space :: rest :=
    (List.cons_prefix_cons.mp starts).2
  rw [List.append_assoc] at behind
  exact not_prefix_escaped chars value rest behind

theorem str_unescaped {value : Bytes} (plain : Unescaped value) :
    str value = quote :: (value ++ [quote]) := by
  have same : value.flatMap escape = value := by
    induction value with
    | nil => rfl
    | cons c value ih =>
        rw [List.flatMap_cons, escape_of_plain (plain c List.mem_cons_self),
          ih fun c mem => plain c (List.mem_cons_of_mem _ mem)]
        rfl
  rw [str, same]
  rfl

theorem startsNot_keyText {other : Bytes} (chars : KeyChars key)
    (plain : Unescaped other) (differ : key ≠ other) (indent depth : Nat) (rest : Bytes) :
    StartsNot (keyNeedle key) (keyText indent depth other) rest := by
  have quoteFree : quote ∉ other := fun mem => (plain quote mem).1 rfl
  rw [keyText_eq, str_unescaped plain, List.append_assoc]
  apply StartsNot.append
  · exact startsNot_of_not_mem (fun mem => absurd (List.eq_of_mem_replicate mem) (by decide)) _
  refine ⟨fun starts => ?_, ?_⟩
  · -- both quotes would have to match, and the keys between them
    have behind : key ++ quote :: [colon] <+: other ++ quote :: (colon :: space :: rest) := by
      simpa using (List.cons_prefix_cons.mp starts).2
    exact differ (eq_of_quoted (fun mem => (chars quote mem).1 rfl) quoteFree behind)
  · show StartsNot (keyNeedle key) (other ++ [quote] ++ [colon, space]) rest
    rw [List.append_assoc]
    apply StartsNot.append (startsNot_of_not_mem quoteFree _)
    refine ⟨fun starts => ?_, startsNot_of_not_mem (by decide) rest⟩
    exact not_prefix_cons chars (.inr rfl) (space :: rest) (List.cons_prefix_cons.mp starts).2

end

def cutValue (value : Bytes) : Bytes := (value.flatMap escape).takeWhile (· ≠ quote)

theorem takeWhile_quote (text rest : Bytes) :
    (text ++ quote :: rest).takeWhile (· ≠ quote) = text.takeWhile (· ≠ quote) := by
  induction text with
  | nil => rfl
  | cons c text ih => simp only [List.cons_append, List.takeWhile_cons, ih]

theorem length_escaped (value : Bytes) : value.length ≤ (value.flatMap escape).length := by
  induction value with
  | nil => exact Nat.zero_le _
  | cons c value ih =>
      rw [List.flatMap_cons, List.length_append, List.length_cons]
      obtain ⟨d, special⟩ | ⟨same, -⟩ := escape_cases c
      · rw [special, List.length_cons, List.length_singleton]
        omega
      · rw [same, List.length_singleton]
        omega

theorem unescaped_of_length {value : Bytes} (same : (value.flatMap escape).length = value.length) :
    Unescaped value := by
  induction value with
  | nil => exact fun c mem => absurd mem List.not_mem_nil
  | cons c value ih =>
      have longer := length_escaped value
      rw [List.flatMap_cons, List.length_append, List.length_cons] at same
      have single : (escape c).length = 1 := by
        obtain ⟨d, special⟩ | ⟨kept, -⟩ := escape_cases c
        · rw [special, List.length_cons, List.length_singleton] at same
          omega
        · rw [kept, List.length_singleton]
      have plain : Plain c := by
        unfold escape at single
        refine ⟨?_, ?_, ?_, ?_, ?_⟩ <;> rintro rfl <;> exact absurd single (by decide)
      rw [single] at same
      intro d mem
      rcases List.mem_cons.mp mem with rfl | behind
      · exact plain
      · exact ih (by omega) d behind

theorem quote_not_mem_escaped {value : Bytes} (quoteFree : quote ∉ value) :
    quote ∉ value.flatMap escape := by
  intro mem
  obtain ⟨c, inside, listed⟩ := List.mem_flatMap.mp mem
  have other : c ≠ quote := fun same => quoteFree (same ▸ inside)
  unfold escape at listed
  rw [if_neg other] at listed
  split at listed
  · exact absurd listed (by decide)
  split at listed
  · exact absurd listed (by decide)
  split at listed
  · exact absurd listed (by decide)
  split at listed
  · exact absurd listed (by decide)
  · exact other (List.mem_singleton.mp listed).symm

theorem cutValue_eq_iff (value : Bytes) : cutValue value = value ↔ Unescaped value := by
  have uncut (quoteFree : quote ∉ value) : cutValue value = value.flatMap escape := by
    have escaped := quote_not_mem_escaped quoteFree
    exact List.takeWhile_eq_self_iff.mpr fun c mem =>
      decide_eq_true fun same => escaped (same ▸ mem)
  constructor
  · intro same
    have quoteFree : quote ∉ value := by
      intro mem
      rw [← same] at mem
      simpa using List.mem_takeWhile_imp mem
    rw [uncut quoteFree] at same
    exact unescaped_of_length (congrArg List.length same)
  · intro plain
    rw [uncut fun mem => (plain quote mem).1 rfl]
    have text := str_unescaped plain
    rw [str] at text
    exact List.append_cancel_right (List.cons.inj text).2

theorem jsonGetString_field {key front : Bytes} (plain : Unescaped key) (value rest : Bytes)
    (absent : StartsNot (keyNeedle key) front (keyText 2 0 key ++ (str value ++ rest))) :
    jsonGetString (front ++ (keyText 2 0 key ++ (str value ++ rest))) key = cutValue value := by
  have shape : keyText 2 0 key ++ (str value ++ rest) =
      spaces 2 ++ (keyNeedle key ++ (space :: (str value ++ rest))) := by
    rw [keyText_eq, str_unescaped plain]
    simp [keyNeedle]
  rw [shape] at absent ⊢
  have before : StartsNot (keyNeedle key) (front ++ spaces 2)
      (keyNeedle key ++ (space :: (str value ++ rest))) :=
    absent.append (startsNot_of_not_mem (by decide) _)
  rw [← List.append_assoc, jsonGetString, findText_append before,
    findText_of_prefix (List.prefix_append _ _)]
  dsimp only [Option.map_some]
  rw [Nat.zero_add, ← List.drop_drop, List.drop_left, List.drop_left]
  show readValue (quote :: (value.flatMap escape ++ [quote] ++ rest)) = cutValue value
  rw [readValue, if_pos rfl, if_pos (by simp), cutValue, List.append_assoc]
  exact takeWhile_quote _ _

namespace SessionReport
variable (report : SessionReport)

theorem startsNot_field {key other : Bytes} (chars : KeyChars key)
    (plain : Unescaped other) (differ : key ≠ other) (value rest : Bytes) :
    StartsNot (keyNeedle key) (keyText 2 0 other ++ str value) (space :: rest) :=
  (startsNot_keyText chars plain differ 2 0 _).append (startsNot_str chars value rest)

theorem toJson_eq : ∃ behind, report.toJson =
    [openBrace, newline] ++
      (keyText 2 0 (ascii "offline_pipeline_version") ++ str report.offlinePipelineVersion ++
      (keyText 2 0 (ascii "session_id") ++ (str report.sessionId ++
      (keyText 2 0 (ascii "generated_at_utc") ++ str report.generatedAtUtc ++
      (keyText 2 0 (ascii "pipeline_status") ++
        (str report.pipelineStatus ++ space :: behind)))))) := by
  have split : report.calls =
      .field (ascii "offline_pipeline_version") (.str report.offlinePipelineVersion) ::
      .field (ascii "session_id") (.str report.sessionId) ::
      .field (ascii "generated_at_utc") (.str report.generatedAtUtc) ::
      .field (ascii "pipeline_status") (.str report.pipelineStatus) ::
      .field (ascii "sync_status") (.str report.syncStatus) :: report.calls.drop 5 := rfl
  obtain ⟨behind, blank⟩ : ∃ behind,
      bodyText 2 0 (.field (ascii "sync_status") (.str report.syncStatus) :: report.calls.drop 5) ++
        (spaces (0 * 2) ++ [closeBrace]) = space :: behind := ⟨_, rfl⟩
  refine ⟨behind, ?_⟩
  rw [toJson, split, Built.text_eq, ← blank]
  simp only [bodyText, Call.key, Call.valueText, Scalar.text, List.append_assoc,
    List.cons_append, List.nil_append]

set_option maxRecDepth 4000 in
theorem jsonGetString_sessionId :
    jsonGetString report.toJson (ascii "session_id") = cutValue report.sessionId := by
  obtain ⟨behind, text⟩ := report.toJson_eq
  have chars : KeyChars (ascii "session_id") := by decide
  rw [text, ← List.append_assoc]
  refine jsonGetString_field (by decide) _ _ ?_
  apply StartsNot.append
  · exact startsNot_of_not_mem (by decide) _
  · exact startsNot_field chars (by decide) (by decide) _ _

set_option maxRecDepth 4000 in
theorem jsonGetString_pipelineStatus :
    jsonGetString report.toJson (ascii "pipeline_status") = cutValue report.pipelineStatus := by
  obtain ⟨behind, text⟩ := report.toJson_eq
  have chars : KeyChars (ascii "pipeline_status") := by decide
  have apart : report.toJson =
      ([openBrace, newline] ++
        ((keyText 2 0 (ascii "offline_pipeline_version") ++ str report.offlinePipelineVersion) ++
        ((keyText 2 0 (ascii "session_id") ++ str report.sessionId) ++
        (keyText 2 0 (ascii "generated_at_utc") ++ str report.generatedAtUtc)))) ++
      (keyText 2 0 (ascii "pipeline_status") ++
        (str report.pipelineStatus ++ space :: behind)) := by
    rw [text]
    simp only [List.append_assoc]
  rw [apart]
  refine jsonGetString_field (by decide) _ _ ?_
  apply StartsNot.append
  · exact startsNot_of_not_mem (by decide) _
  apply StartsNot.append
  · exact startsNot_field chars (by decide) (by decide) _ _
  apply StartsNot.append
  · exact startsNot_field chars (by decide) (by decide) _ _
  · exact startsNot_field chars (by decide) (by decide) _ _

/-- The uploader reads back the pipeline status and the session id exactly when neither holds a
character that is escaped in the report. -/
theorem readBack_iff :
    (jsonGetString report.toJson (ascii "pipeline_status") = report.pipelineStatus ∧
      jsonGetString report.toJson (ascii "session_id") = report.sessionId) ↔
      Unescaped report.pipelineStatus ∧ Unescaped report.sessionId := by
  rw [jsonGetString_pipelineStatus, jsonGetString_sessionId, cutValue_eq_iff, cutValue_eq_iff]

def quotedReport : SessionReport where
  sessionId := ascii "car" ++ quote :: ascii "7"
  pipelineStatus := ascii "success"

theorem quotedReport_cut :
    jsonGetString quotedReport.toJson (ascii "session_id") = ascii "car" ++ [backslash] ∧
      ascii "car" ++ [backslash] ≠ quotedReport.sessionId := by
  rw [jsonGetString_sessionId]
  decide

end SessionReport

end LocalPC.Offline
