import LocalPC.Runtime.ChunkFiles
import LocalPC.Runtime.SessionManager

/-!
# The text files of a session

The files that are kept beside those of the writer, and the two of them that `session_manager.cpp`
writes: `WriteSessionMetadata` and `WriteScenarioMetadata`. Any of their texts may be any bytes.
-/

namespace LocalPC.Runtime
open Lib

inductive SideFile
  | sessionMetadata
  | scenarioMetadata
  | runtimeReport
  | finalSummary
  deriving DecidableEq, Repr

def SideFile.name : SideFile → Bytes
  | .sessionMetadata => ascii "session_metadata.json"
  | .scenarioMetadata => ascii "scenario_metadata.json"
  | .runtimeReport => ascii "runtime_report.json"
  | .finalSummary => ascii "final_runtime_summary.json"

structure SideWrite where
  file : SideFile
  outcome : TextWrite
  text : Bytes

def Dir.withTexts (writes : List SideWrite) (dir : Dir) : Dir :=
  writes.foldl (fun dir w => (writeTextAtomic w.outcome w.file.name w.text dir).2) dir

/-! ## The metadata -/

def sessionMetadataJson (config : ConfigTexts) (info : SessionTexts) : Bytes :=
  ascii "\x7b\n" ++
  ascii "  \"session_id\": \"" ++ jsonEscape info.sessionId ++ ascii "\",\n" ++
  ascii "  \"started_at_utc\": \"" ++ jsonEscape info.startedAtUtc ++ ascii "\",\n" ++
  ascii "  \"stopped_at_utc\": \"" ++ jsonEscape info.stoppedAtUtc ++ ascii "\",\n" ++
  ascii "  \"vehicle_id\": \"" ++ jsonEscape config.vehicleId ++ ascii "\",\n" ++
  ascii "  \"test_stand_config\": \"" ++
    jsonEscape (if config.testStandConfig = [] then ascii "default" else config.testStandConfig) ++
      ascii "\",\n" ++
  ascii "  \"software_version\": \"" ++ jsonEscape config.softwareVersion ++ ascii "\",\n" ++
  ascii "  \"runtime_version\": \"" ++ jsonEscape config.softwareVersion ++ ascii "\",\n" ++
  ascii "  \"protocol_version\": \"1\",\n" ++
  ascii "  \"prod_protocol_version\": 1,\n" ++
  ascii "  \"source_ip\": \"" ++ jsonEscape info.sourceIp ++ ascii "\",\n" ++
  ascii "  \"storage_path\": \"" ++ jsonEscape info.storagePath ++ ascii "\",\n" ++
  ascii "  \"stop_reason\": \"" ++ jsonEscape info.stopReason ++ ascii "\"\n" ++
  ascii "\x7d\n"

def scenarioMetadataJson (scenario : ScenarioMetadata) : Bytes :=
  ascii "\x7b\n" ++
  ascii "  \"scenario_id\": \"" ++ jsonEscape scenario.scenarioId ++ ascii "\",\n" ++
  ascii "  \"scenario_name\": \"" ++ jsonEscape scenario.scenarioName ++ ascii "\",\n" ++
  ascii "  \"operator\": \"" ++ jsonEscape scenario.operatorName ++ ascii "\",\n" ++
  ascii "  \"notes\": \"" ++ jsonEscape scenario.notes ++ ascii "\"\n" ++
  ascii "\x7d\n"

/-- What `WriteSessionMetadata` writes to the directory at the session's `storage_path`. -/
def sessionMetadataWrites (outcome : TextWrite) (config : ConfigTexts)
    (active : Option SessionTexts) : List SideWrite :=
  match active with
  | none => []
  | some info => [⟨.sessionMetadata, outcome, sessionMetadataJson config info⟩]

def scenarioMetadataWrites (outcome : TextWrite) (active : Option SessionTexts)
    (scenario : ScenarioMetadata) :
    List SideWrite :=
  match active with
  | none => []
  | some _ => [⟨.scenarioMetadata, outcome, scenarioMetadataJson scenario⟩]

def writeSessionMetadata (outcome : TextWrite) (config : ConfigTexts)
    (active : Option SessionTexts) (dir : Dir) : Dir :=
  dir.withTexts (sessionMetadataWrites outcome config active)

def writeScenarioMetadata (outcome : TextWrite) (active : Option SessionTexts)
    (scenario : ScenarioMetadata) (dir : Dir) : Dir :=
  dir.withTexts (scenarioMetadataWrites outcome active scenario)

/-! ## What the writes leave alone -/

theorem isChunkFile_side (file : SideFile) :
    isChunkFile file.name = false ∧ isChunkFile (tmpName file.name) = false := by
  cases file <;> decide

def NotSide (name : Bytes) : Prop := ∀ file : SideFile, name ≠ file.name ∧ name ≠ tmpName file.name

theorem notSide_of_isChunkFile {name : Bytes} (chunk : isChunkFile name = true) :
    NotSide name := fun file =>
  ⟨ne_of_isChunkFile chunk (isChunkFile_side file).1,
    ne_of_isChunkFile chunk (isChunkFile_side file).2⟩

theorem notSide_manifest : NotSide manifestName := fun file => by cases file <;> decide

theorem sideFile_ne {file other : SideFile} (ne : file ≠ other) :
    file.name ≠ other.name ∧ file.name ≠ tmpName other.name := by
  cases file <;> cases other <;> first | exact absurd rfl ne | decide

namespace Dir
variable (dir : Dir)

@[simp] theorem withTexts_nil : dir.withTexts [] = dir := rfl

theorem withTexts_append (writes more : List SideWrite) :
    dir.withTexts (writes ++ more) = (dir.withTexts writes).withTexts more := List.foldl_append

theorem withTexts_cons (w : SideWrite) (writes : List SideWrite) :
    dir.withTexts (w :: writes) =
      (writeTextAtomic w.outcome w.file.name w.text dir).2.withTexts writes := rfl

theorem lookup_withTexts {name : Bytes} (other : NotSide name) (writes : List SideWrite) :
    (dir.withTexts writes).lookup name = dir.lookup name := by
  induction writes generalizing dir with
  | nil => rfl
  | cons w writes ih =>
      rw [withTexts_cons, ih]
      exact lookup_writeTextAtomic _ _ _ _ (other w.file).1 (other w.file).2

theorem chunks_withTexts (writes : List SideWrite) :
    (dir.withTexts writes).chunks = dir.chunks := by
  induction writes generalizing dir with
  | nil => rfl
  | cons w writes ih =>
      rw [withTexts_cons, ih]
      exact chunks_writeTextAtomic _ (isChunkFile_side w.file).1 (isChunkFile_side w.file).2 _ _

end Dir

def LastWrite (writes : List SideWrite) (w : SideWrite) : Prop :=
  ∃ before after : List SideWrite, writes = before ++ w :: after ∧ ∀ w' ∈ after, w'.file ≠ w.file

namespace LastWrite
variable {writes : List SideWrite} {w : SideWrite}

theorem new (before : List SideWrite) (w : SideWrite) : LastWrite (before ++ [w]) w :=
  ⟨before, [], rfl, nofun⟩

theorem append (last : LastWrite writes w) {more : List SideWrite}
    (others : ∀ w' ∈ more, w'.file ≠ w.file) :
    LastWrite (writes ++ more) w := by
  obtain ⟨before, after, rfl, later⟩ := last
  refine ⟨before, after ++ more, by simp, fun w' member => ?_⟩
  rcases List.mem_append.mp member with old | new
  · exact later w' old
  · exact others w' new

theorem lookup (last : LastWrite writes w) (done : w.outcome = .done) (dir : Dir) :
    (dir.withTexts writes).lookup w.file.name = some w.text := by
  obtain ⟨before, after, rfl, later⟩ := last
  rw [Dir.withTexts_append, Dir.withTexts_cons, done]
  have written : (writeTextAtomic .done w.file.name w.text (dir.withTexts before)).2.lookup
      w.file.name = some w.text :=
    AList.lookup_insert _
  generalize (writeTextAtomic .done w.file.name w.text (dir.withTexts before)).2 = dir at written
  induction after generalizing dir with
  | nil => exact written
  | cons next after ih =>
      rw [Dir.withTexts_cons]
      refine ih (fun w' more => later w' (List.mem_cons_of_mem _ more)) _ ?_
      have ne := sideFile_ne (later next List.mem_cons_self).symm
      exact (lookup_writeTextAtomic _ _ _ _ ne.1 ne.2).trans written

end LastWrite

theorem SameChunks.withTexts (writes : List SideWrite) (dir : Dir) :
    SameChunks dir (dir.withTexts writes) :=
  fun _ chunk => dir.lookup_withTexts (notSide_of_isChunkFile chunk) writes

end LocalPC.Runtime
