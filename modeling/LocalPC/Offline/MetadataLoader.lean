import LocalPC.Runtime.SessionMetadata
import LocalPC.Offline.Manifest

/-!
# The metadata loader

`metadata_loader.cpp`, on a directory whose contents are `dir`.
-/

namespace LocalPC.Offline
open Lib LocalPC.Runtime JsonParser Json

/-- `json_load` of the file `name` in the directory `baseDir`, whose contents are `dir`. -/
def jsonLoad (baseDir : Bytes) (dir : Dir) (name : Bytes) : Except ManifestError JsonValue :=
  match dir.lookup name with
  | none => .error (.cannotOpen (joinPath baseDir name))
  | some text => (jsonParse text).mapError .json

structure SessionMetadata where
  sessionId : Bytes := []
  vehicleId : Bytes := []
  startedAtUtc : Bytes := []
  stoppedAtUtc : Bytes := []
  runtimeVersion : Bytes := []
  protocolVersion : Bytes := []
  durationS : Float := 0

def SessionMetadata.ofJson (j : JsonValue) : SessionMetadata where
  sessionId := j.valueString (ascii "session_id") []
  vehicleId := j.valueString (ascii "vehicle_id") []
  startedAtUtc := j.valueString (ascii "started_at_utc") []
  stoppedAtUtc := j.valueString (ascii "stopped_at_utc") []
  runtimeVersion := j.valueString (ascii "runtime_version") []
  protocolVersion := j.valueString (ascii "protocol_version") []
  durationS := j.valueDouble (ascii "duration_s") 0

structure ScenarioMetadata where
  scenarioId : Bytes := []
  operatorId : Bytes := []
  notes : Bytes := []

def ScenarioMetadata.ofJson (j : JsonValue) : ScenarioMetadata where
  scenarioId := j.valueString (ascii "scenario_id") []
  operatorId :=
    let op := j.valueString (ascii "operator_id") []
    if op = [] then j.valueString (ascii "operator") [] else op
  notes := j.valueString (ascii "notes") []

structure SourceMetadata where
  sourceId : Bytes := []
  configVersion : Bytes := []
  softwareVersion : Bytes := []

def SourceMetadata.ofJson (j : JsonValue) : SourceMetadata where
  sourceId := j.valueString (ascii "source_id") []
  configVersion := j.valueString (ascii "config_version") []
  softwareVersion := j.valueString (ascii "software_version") []

structure SessionBundle where
  session : SessionMetadata
  scenario : Option ScenarioMetadata := none
  source : Option SourceMetadata := none

namespace SessionBundle

def loadOptional {α : Type} (ofJson : JsonValue → α) (baseDir : Bytes) (dir : Dir)
    (name : Bytes) : Option α :=
  if name ∈ dir then ((jsonLoad baseDir dir name).map ofJson).toOption else none

/-- `SessionBundle::load`. An unreadable `session_metadata.json` is an error. -/
def load (sessionDir : Bytes) (dir : Dir) : Except ManifestError SessionBundle := do
  let session ← (jsonLoad sessionDir dir (ascii "session_metadata.json")).map SessionMetadata.ofJson
  return {
    session
    scenario := loadOptional ScenarioMetadata.ofJson sessionDir dir (ascii "scenario_metadata.json")
    source := loadOptional SourceMetadata.ofJson sessionDir dir (ascii "source_metadata.json") }

end SessionBundle

/-! ## Lookup in what was read -/

namespace Json

theorem lookupKey_insertAll {key : Bytes} {v : JsonValue} {members obj : List (Bytes × JsonValue)}
    (distinct : (members.map Prod.fst).Nodup) (listed : (key, v) ∈ members) :
    lookupKey key (insertAll obj members) = some v := by
  induction members using List.reverseRecOn with
  | nil => simp at listed
  | append_singleton members last ih =>
      rw [List.map_append, List.nodup_append] at distinct
      obtain ⟨before, -, apart⟩ := distinct
      have step : insertAll obj (members ++ [last]) =
          insertKey last.1 last.2 (insertAll obj members) := by
        simp [insertAll, List.foldl_append]
      rw [step, lookupKey_insertKey]
      rcases List.mem_append.mp listed with early | final
      · have other : key ≠ last.1 := apart key (List.mem_map_of_mem early) last.1 (by simp)
        rw [if_neg other, ih before early]
      · obtain rfl := List.mem_singleton.mp final
        rw [if_pos rfl]

theorem lookupKey_insertAll_absent {key : Bytes} {members obj : List (Bytes × JsonValue)}
    (absent : key ∉ members.map Prod.fst) :
    lookupKey key (insertAll obj members) = lookupKey key obj := by
  induction members generalizing obj with
  | nil => rfl
  | cons member members ih =>
      rw [List.map_cons, List.mem_cons, not_or] at absent
      have later : insertAll obj (member :: members) =
          insertAll (insertKey member.1 member.2 obj) members := rfl
      rw [later, ih absent.2, lookupKey_insertKey, if_neg absent.1]

/-! ## An object of scalars -/

def objectText (entries : List (Bytes × Scalar)) : Bytes :=
  openBrace :: newline ::
    (itemLines ((entries.map fun entry => (entry.1, entry.2.text)).map (memberLine 2)) ++
      [closeBrace, newline])

def objectValue (entries : List (Bytes × Scalar)) : JsonValue :=
  .object (insertAll [] (entries.map fun entry => (entry.1, entry.2.value)))

theorem readsAs_scalar (v : Scalar) : ReadsAs v.text v.read where
  printed := scalar_skipWs v
  reads _ _ _ stops enough := reads_scalar v stops enough

theorem length_le_itemLines (lines : List Bytes) : lines.length ≤ (itemLines lines).length := by
  induction lines with
  | nil => exact Nat.le_refl 0
  | cons line lines ih =>
      cases lines with
      | nil => simp [itemLines]
      | cons next lines =>
          rw [itemLines_cons, List.length_append, List.length_append, List.length_cons]
          have separator : List.length [comma, newline] = 2 := rfl
          omega

theorem allRead_survives {entries : List (Bytes × Scalar)}
    (survives : ∀ entry ∈ entries, entry.2.Survives) :
    allRead (entries.map fun entry => entry.2.read) =
      some (entries.map fun entry => entry.2.value) := by
  have reads : (entries.map fun entry => entry.2.read) =
      (entries.map fun entry => entry.2.value).map some := by
    rw [List.map_map]
    exact List.map_congr_left fun entry listed =>
      (Scalar.read_eq_iff entry.2).mpr (survives entry listed)
  rw [reads, allRead_map_some]

theorem jsonParse_objectText {entries : List (Bytes × Scalar)} (some_ : entries ≠ [])
    (survives : ∀ entry ∈ entries, entry.2.Survives) :
    jsonParse (objectText entries) = .ok (objectValue entries) := by
  have each : List.Forall₂ (fun (member : Bytes × Bytes) read => ReadsAs member.2 read)
      (entries.map fun entry => (entry.1, entry.2.text))
        (entries.map fun entry => entry.2.read) := by
    rw [List.forall₂_map_left_iff, List.forall₂_map_right_iff, List.forall₂_same]
    exact fun entry _ => readsAs_scalar entry.2
  have long : entries.length + 4 ≤ (objectText entries).length := by
    have lines :=
      length_le_itemLines ((entries.map fun entry => (entry.1, entry.2.text)).map (memberLine 2))
    simp only [List.length_map] at lines
    simp only [objectText, List.length_cons, List.length_append, List.length_nil]
    omega
  have start : skipWs (objectText entries) = objectText entries := skipWs_of_peek rfl
  have members_ : (entries.map fun entry => (entry.1, entry.2.text)) ≠ [] := by simpa using some_
  have enough : (entries.map fun entry => (entry.1, entry.2.text)).length + 5 ≤
      3 * (objectText entries).length + 3 := by
    rw [List.length_map]
    omega
  have read := @reads_object (objectText entries).length 2 0 _ [newline] _ _ each members_ enough
  rw [allRead_survives survives] at read
  have parsed : parseValue (objectText entries).length
      (3 * (objectText entries).length + 3) (objectText entries) =
      .ok (_, [newline]) := read
  have members : ((entries.map fun entry => (entry.1, entry.2.text)).map Prod.fst).zip
      (entries.map fun entry => entry.2.value) = entries.map fun entry =>
        (entry.1, entry.2.value) := by
    rw [List.map_map, List.zip_map']
    rfl
  rw [jsonParse, start, parsed, objectValue, ← members]
  rfl

section Members
variable {entries : List (Bytes × Scalar)} {key : Bytes}

theorem valueString_objectValue {s : Bytes} (distinct : (entries.map Prod.fst).Nodup)
    (listed : (key, Scalar.str s) ∈ entries) (default : Bytes) :
    (objectValue entries).valueString key default = s := by
  have keys : ((entries.map fun entry => (entry.1, entry.2.value)).map Prod.fst).Nodup := by
    rwa [List.map_map]
  have member : (key, JsonValue.string s) ∈ entries.map fun entry => (entry.1, entry.2.value) :=
    List.mem_map.mpr ⟨_, listed, rfl⟩
  have found : lookupKey key (objectValue entries).obj = some (.string s) :=
    lookupKey_insertAll keys member
  rw [JsonValue.valueString, JsonValue.contains, JsonValue.member, found]
  rfl

theorem contains_objectValue (absent : key ∉ entries.map Prod.fst) :
    (objectValue entries).contains key = false := by
  have missing : lookupKey key (objectValue entries).obj = none :=
    lookupKey_insertAll_absent (by rwa [List.map_map])
  rw [JsonValue.contains, missing]
  rfl

end Members

end Json

/-! ## The recorder's files -/

def sessionEntries (config : ConfigTexts) (info : SessionTexts) : List (Bytes × Scalar) :=
  [(ascii "session_id", .str info.sessionId), (ascii "started_at_utc", .str info.startedAtUtc),
    (ascii "stopped_at_utc", .str info.stoppedAtUtc), (ascii "vehicle_id", .str config.vehicleId),
    (ascii "test_stand_config",
      .str (if config.testStandConfig = [] then ascii "default" else config.testStandConfig)),
    (ascii "software_version", .str config.softwareVersion),
      (ascii "runtime_version", .str config.softwareVersion),
    (ascii "protocol_version", .str (ascii "1")), (ascii "prod_protocol_version", .uint64 1),
    (ascii "source_ip", .str info.sourceIp), (ascii "storage_path", .str info.storagePath),
    (ascii "stop_reason", .str info.stopReason)]

def scenarioEntries (scenario : Runtime.ScenarioMetadata) : List (Bytes × Scalar) :=
  [(ascii "scenario_id", .str scenario.scenarioId),
    (ascii "scenario_name", .str scenario.scenarioName),
      (ascii "operator", .str scenario.operatorName), (ascii "notes", .str scenario.notes)]

theorem sessionMetadataJson_eq (config : ConfigTexts) (info : SessionTexts) :
    sessionMetadataJson config info = objectText (sessionEntries config info) := by
  have sessionId : ascii "  \"session_id\": \"" =
      keyText 2 0 (ascii "session_id") ++ [quote] := by decide
  have started : ascii "  \"started_at_utc\": \"" =
      keyText 2 0 (ascii "started_at_utc") ++ [quote] := by decide
  have stopped : ascii "  \"stopped_at_utc\": \"" =
      keyText 2 0 (ascii "stopped_at_utc") ++ [quote] := by decide
  have vehicle : ascii "  \"vehicle_id\": \"" =
      keyText 2 0 (ascii "vehicle_id") ++ [quote] := by decide
  have testStand : ascii "  \"test_stand_config\": \"" =
      keyText 2 0 (ascii "test_stand_config") ++ [quote] := by decide
  have software : ascii "  \"software_version\": \"" =
      keyText 2 0 (ascii "software_version") ++ [quote] := by decide
  have runtime : ascii "  \"runtime_version\": \"" =
      keyText 2 0 (ascii "runtime_version") ++ [quote] := by decide
  have sourceIp : ascii "  \"source_ip\": \"" =
      keyText 2 0 (ascii "source_ip") ++ [quote] := by decide
  have storage : ascii "  \"storage_path\": \"" =
      keyText 2 0 (ascii "storage_path") ++ [quote] := by decide
  have reason : ascii "  \"stop_reason\": \"" =
      keyText 2 0 (ascii "stop_reason") ++ [quote] := by decide
  have protocol : ascii "  \"protocol_version\": \"1\",\n" =
      keyText 2 0 (ascii "protocol_version") ++ str (ascii "1") ++ [comma, newline] := by decide
  have prodProtocol : ascii "  \"prod_protocol_version\": 1,\n" =
      keyText 2 0 (ascii "prod_protocol_version") ++ decimal
        (UInt64.toNat 1) ++ [comma, newline] := by decide
  have marks : ascii "\x7b\n" = [openBrace, newline] ∧ ascii "\x7d\n" = [closeBrace, newline] ∧
      ascii "\",\n" = [quote, comma, newline] ∧ ascii "\"\n" = [quote, newline] := by decide
  obtain ⟨opened, closed, separator, ending⟩ := marks
  unfold sessionMetadataJson
  rw [sessionId, started, stopped, vehicle, testStand, software, runtime, protocol,
    prodProtocol, sourceIp, storage, reason, opened, closed, separator, ending]
  simp only [jsonEscape_eq, objectText, sessionEntries, Scalar.text, memberLine,
    itemLines, str, List.map_cons, List.map_nil, List.append_assoc,
      List.cons_append, List.nil_append]

theorem scenarioMetadataJson_eq (scenario : Runtime.ScenarioMetadata) :
    scenarioMetadataJson scenario = objectText (scenarioEntries scenario) := by
  have keys : ascii "  \"scenario_id\": \"" = keyText 2 0 (ascii "scenario_id") ++ [quote] ∧
      ascii "  \"scenario_name\": \"" = keyText 2 0 (ascii "scenario_name") ++ [quote] ∧
      ascii "  \"operator\": \"" = keyText 2 0 (ascii "operator") ++ [quote] ∧
      ascii "  \"notes\": \"" = keyText 2 0 (ascii "notes") ++ [quote] := by decide
  have marks : ascii "\x7b\n" = [openBrace, newline] ∧ ascii "\x7d\n" = [closeBrace, newline] ∧
      ascii "\",\n" = [quote, comma, newline] ∧ ascii "\"\n" = [quote, newline] := by decide
  obtain ⟨scenarioId, scenarioName, operator, notes⟩ := keys
  obtain ⟨opened, closed, separator, ending⟩ := marks
  simp only [scenarioMetadataJson, scenarioId, scenarioName, operator, notes, opened,
    closed, separator, ending, jsonEscape_eq, objectText, scenarioEntries, Scalar.text, memberLine,
      itemLines, str, List.map_cons, List.map_nil,
    List.append_assoc, List.cons_append, List.nil_append]

theorem ofJson_sessionEntries (config : ConfigTexts) (info : SessionTexts) :
    SessionMetadata.ofJson (objectValue (sessionEntries config info)) =
      { sessionId := info.sessionId
        vehicleId := config.vehicleId
        startedAtUtc := info.startedAtUtc
        stoppedAtUtc := info.stoppedAtUtc
        runtimeVersion := config.softwareVersion
        protocolVersion := ascii "1" } := by
  have distinct : ((sessionEntries config info).map Prod.fst).Nodup := by
    simp only [sessionEntries, List.map_cons, List.map_nil]
    decide
  have text {key s : Bytes} (listed : (key, Scalar.str s) ∈ sessionEntries config info) :
      (objectValue (sessionEntries config info)).valueString key [] = s :=
    valueString_objectValue distinct listed []
  have duration : (objectValue (sessionEntries config info)).contains
      (ascii "duration_s") = false := by
    refine contains_objectValue ?_
    simp only [sessionEntries, List.map_cons, List.map_nil]
    decide
  rw [SessionMetadata.ofJson, text (s := info.sessionId) (by simp [sessionEntries]),
    text (s := config.vehicleId) (by simp [sessionEntries]),
      text (s := info.startedAtUtc) (by simp [sessionEntries]),
    text (s := info.stoppedAtUtc) (by simp [sessionEntries]),
    text (s := config.softwareVersion) (by simp [sessionEntries]),
      text (s := ascii "1") (by simp [sessionEntries]),
    JsonValue.valueDouble, duration, if_neg Bool.false_ne_true]

theorem ofJson_scenarioEntries (scenario : Runtime.ScenarioMetadata) :
    ScenarioMetadata.ofJson (objectValue (scenarioEntries scenario)) =
      { scenarioId := scenario.scenarioId, operatorId := scenario.operatorName,
        notes := scenario.notes } := by
  have distinct : ((scenarioEntries scenario).map Prod.fst).Nodup := by
    simp only [scenarioEntries, List.map_cons, List.map_nil]
    decide
  have text {key s : Bytes} (listed : (key, Scalar.str s) ∈ scenarioEntries scenario) :
      (objectValue (scenarioEntries scenario)).valueString key [] = s :=
    valueString_objectValue distinct listed []
  have operatorId : (objectValue (scenarioEntries scenario)).contains
      (ascii "operator_id") = false := by
    refine contains_objectValue ?_
    simp only [scenarioEntries, List.map_cons, List.map_nil]
    decide
  have unnamed : (objectValue (scenarioEntries scenario)).valueString
      (ascii "operator_id") [] = [] := by
    rw [JsonValue.valueString, operatorId, if_neg Bool.false_ne_true]
  rw [ScenarioMetadata.ofJson, unnamed, if_pos rfl,
    text (s := scenario.scenarioId) (by simp [scenarioEntries]),
      text (s := scenario.operatorName) (by simp [scenarioEntries]),
        text (s := scenario.notes) (by simp [scenarioEntries])]

/-! ## The round trip -/

theorem jsonLoad_objectText {dir : Dir} {name : Bytes}
    {entries : List (Bytes × Scalar)} (some_ : entries ≠ [])
    (survives : ∀ entry ∈ entries, entry.2.Survives)
    (found : dir.lookup name = some (objectText entries)) (baseDir : Bytes) :
    jsonLoad baseDir dir name = .ok (objectValue entries) := by
  rw [jsonLoad, found]
  dsimp only
  rw [jsonParse_objectText some_ survives]
  rfl

theorem sessionEntries_survive (config : ConfigTexts) (info : SessionTexts) :
    ∀ entry ∈ sessionEntries config info, entry.2.Survives := by
  simp [sessionEntries, Scalar.Survives]

theorem scenarioEntries_survive (scenario : Runtime.ScenarioMetadata) :
    ∀ entry ∈ scenarioEntries scenario, entry.2.Survives := by
  simp [scenarioEntries, Scalar.Survives]

theorem SessionBundle.load_of_files {dir : Dir} {config : ConfigTexts} {info : SessionTexts}
    {scenario : Runtime.ScenarioMetadata}
    (session : dir.lookup SideFile.sessionMetadata.name = some (sessionMetadataJson config info))
    (scenario_ : dir.lookup SideFile.scenarioMetadata.name = some (scenarioMetadataJson scenario))
    (sessionDir : Bytes) :
    SessionBundle.load sessionDir dir = .ok
      { session :=
          { sessionId := info.sessionId
            vehicleId := config.vehicleId
            startedAtUtc := info.startedAtUtc
            stoppedAtUtc := info.stoppedAtUtc
            runtimeVersion := config.softwareVersion
            protocolVersion := ascii "1" }
        scenario := some
          { scenarioId := scenario.scenarioId, operatorId := scenario.operatorName,
            notes := scenario.notes }
        source := loadOptional SourceMetadata.ofJson sessionDir dir
          (ascii "source_metadata.json") } := by
  rw [sessionMetadataJson_eq] at session
  rw [scenarioMetadataJson_eq] at scenario_
  have sessionRead : jsonLoad sessionDir dir (ascii "session_metadata.json") = _ :=
    jsonLoad_objectText (List.cons_ne_nil _ _)
      (sessionEntries_survive config info) session sessionDir
  have scenarioRead : jsonLoad sessionDir dir (ascii "scenario_metadata.json") = _ :=
    jsonLoad_objectText (List.cons_ne_nil _ _)
      (scenarioEntries_survive scenario) scenario_ sessionDir
  have present : ascii "scenario_metadata.json" ∈ dir :=
    AList.lookup_isSome.mp (Option.isSome_iff_exists.mpr ⟨_, scenario_⟩)
  have optional : loadOptional ScenarioMetadata.ofJson sessionDir dir
      (ascii "scenario_metadata.json") =
      some (ScenarioMetadata.ofJson (objectValue (scenarioEntries scenario))) := by
    rw [loadOptional, if_pos present, scenarioRead]
    rfl
  rw [SessionBundle.load, sessionRead, optional, ofJson_scenarioEntries, ← ofJson_sessionEntries]
  rfl

/-- The scenario is written when the recording starts and the session when it ends. -/
theorem metadata_roundTrip (config : ConfigTexts) (started stopped : SessionTexts)
    (scenario : Runtime.ScenarioMetadata) (sessionDir : Bytes) (dir : Dir) :
    ∃ bundle read,
      SessionBundle.load sessionDir (writeSessionMetadata .done config (some stopped)
        (writeScenarioMetadata .done (some started) scenario dir)) = .ok bundle ∧
      bundle.session.sessionId = stopped.sessionId ∧
      bundle.session.vehicleId = config.vehicleId ∧
      bundle.session.startedAtUtc = stopped.startedAtUtc ∧
      bundle.session.stoppedAtUtc = stopped.stoppedAtUtc ∧
      bundle.session.runtimeVersion = config.softwareVersion ∧
      bundle.scenario = some read ∧
      read.scenarioId = scenario.scenarioId ∧
      read.operatorId = scenario.operatorName ∧
      read.notes = scenario.notes := by
  have session : (writeSessionMetadata .done config (some stopped)
      (writeScenarioMetadata .done (some started) scenario dir)).lookup
        SideFile.sessionMetadata.name =
      some (sessionMetadataJson config stopped) := AList.lookup_insert _
  have other : SideFile.scenarioMetadata.name ≠ SideFile.sessionMetadata.name ∧
      SideFile.scenarioMetadata.name ≠ tmpName SideFile.sessionMetadata.name := by decide
  have kept : (writeSessionMetadata .done config (some stopped)
      (writeScenarioMetadata .done (some started) scenario dir)).lookup
        SideFile.scenarioMetadata.name =
      some (scenarioMetadataJson scenario) :=
    (lookup_writeTextAtomic .done _ _ _ other.1 other.2).trans (AList.lookup_insert _)
  exact ⟨_, _, SessionBundle.load_of_files session kept sessionDir, rfl, rfl, rfl, rfl,
    rfl, rfl, rfl, rfl, rfl⟩

end LocalPC.Offline
