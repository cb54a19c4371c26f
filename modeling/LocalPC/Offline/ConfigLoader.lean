import LocalPC.Lib.Text

/-!
# The configuration file

`config.cpp`: the line reader of `parse_yaml_file`, with the integers and the switch that the stages
behind the synchronisation read. A value that `std::stoi` refuses leaves the setting as it is.
-/

namespace LocalPC.Offline
open Lib

structure SceneConfig where
  segmentMinDurationMs : Int := 500
  classifyUnknownWhenDegraded : Bool := true
  deriving DecidableEq, Repr

structure StageConfig where
  gridDtMs : Int := 10
  joinToleranceMs : Int := 5
  scene : SceneConfig := {}
  deriving DecidableEq, Repr

/-! ## Lines -/

def isBlank (c : UInt8) : Bool := c = 32 || c = 9 || c = 13 || c = 10

def trim (s : Bytes) : Bytes := ((s.dropWhile isBlank).reverse.dropWhile isBlank).reverse

def stripComment (s : Bytes) : Bytes :=
  go false [] s
where
  go (inStr : Bool) (seen : Bytes) : Bytes → Bytes
    | [] => s
    | c :: rest =>
        let inStr := if c = 34 then !inStr else inStr
        if !inStr && c = 35 then (seen.dropWhile fun c => c = 32 || c = 9).reverse
        else go inStr (c :: seen) rest

def leadingSpaces (s : Bytes) : Nat := (s.takeWhile (· = 32)).length

def unquote (v : Bytes) : Bytes :=
  if 2 ≤ v.length ∧ v.head? = some 34 ∧ v.getLast? = some 34 then v.tail.dropLast else v

def dropReturn (line : Bytes) : Bytes := if line.getLast? = some 13 then line.dropLast else line

/-! ## Settings -/

def parseBool (v : Bytes) : Bool := v = ascii "true" || v = ascii "yes" || v = ascii "1"

def parseInt (v : Bytes) (set : Int → StageConfig) (cfg : StageConfig) : StageConfig :=
  match stoi v with
  | .ok n => set n
  | .error _ => cfg

def applyYamlLine (cfg : StageConfig) (fullKey val : Bytes) : StageConfig :=
  if fullKey = ascii "grid_dt_ms" then parseInt val (fun n => { cfg with gridDtMs := n }) cfg
  else if fullKey = ascii "join_tolerance_ms" then parseInt val
    (fun n => { cfg with joinToleranceMs := n }) cfg
  else if fullKey = ascii "scene.segment_min_duration_ms" then
    parseInt val (fun n => { cfg with scene.segmentMinDurationMs := n }) cfg
  else if fullKey = ascii "scene.classify_unknown_when_degraded" then
    { cfg with scene.classifyUnknownWhenDegraded := parseBool val }
  else cfg

/-- The body of the loop over the lines; the state is `cur_section` and the configuration. -/
def yamlLine (s : Bytes × StageConfig) (line : Bytes) : Bytes × StageConfig :=
  let line := dropReturn line
  if line = [] ∨ (trim line).head? = some 35 then s
  else
    let indent := leadingSpaces line
    let line := stripComment line
    let curSection := if indent = 0 then [] else s.1
    let tl := trim line
    if tl = [] ∨ 58 ∉ tl then (curSection, s.2)
    else
      let key := trim (tl.takeWhile (· ≠ 58))
      let val := trim (tl.dropWhile (· ≠ 58)).tail
      if val = [] then (if indent = 0 then key else curSection, s.2)
      else
        let fullKey := if curSection = [] then key else curSection ++ ascii "." ++ key
        (curSection, applyYamlLine s.2 fullKey (unquote val))

def fromYaml (text : Bytes) : StageConfig := ((getlines newline text).foldl yamlLine ([], {})).2

/-! ## Machine integers -/

def IsInt32 (n : Int) : Prop := -2 ^ 31 ≤ n ∧ n < 2 ^ 31

structure StageConfig.Stored (cfg : StageConfig) : Prop where
  gridDtMs : IsInt32 cfg.gridDtMs
  joinToleranceMs : IsInt32 cfg.joinToleranceMs
  segmentMinDurationMs : IsInt32 cfg.scene.segmentMinDurationMs

theorem signedIn_mem {bound : Nat} {v : Bytes} {n : Int} (read : signedIn bound v = .ok n) :
    -(bound : Int) ≤ n ∧ n < bound := by
  unfold signedIn at read
  rcases number : leadingNumber v with _ | ⟨negative, magnitude⟩
  · rw [number] at read
    cases read
  · rw [number] at read
    dsimp only at read
    generalize (if negative then -(magnitude : Int) else magnitude) = value at read
    by_cases inside : -(bound : Int) ≤ value ∧ value < bound
    · rw [if_pos inside] at read
      cases read
      exact inside
    · rw [if_neg inside] at read
      cases read

theorem stoi_mem {v : Bytes} {n : Int} (read : stoi v = .ok n) : IsInt32 n := signedIn_mem read

theorem parseInt_stored {v : Bytes} {set : Int → StageConfig}
    {cfg : StageConfig} (stored : cfg.Stored) (sets : ∀ n, IsInt32 n → (set n).Stored) :
    (parseInt v set cfg).Stored := by
  unfold parseInt
  split
  next n read => exact sets n (stoi_mem read)
  · exact stored

theorem StageConfig.Stored.applyYamlLine {cfg : StageConfig}
    (stored : cfg.Stored) (fullKey val : Bytes) :
    (applyYamlLine cfg fullKey val).Stored := by
  unfold Offline.applyYamlLine
  split_ifs
  · exact parseInt_stored stored fun n small => { stored with gridDtMs := small }
  · exact parseInt_stored stored fun n small => { stored with joinToleranceMs := small }
  · exact parseInt_stored stored fun n small => { stored with segmentMinDurationMs := small }
  · exact { stored with }
  · exact stored

theorem StageConfig.Stored.yamlLine {s : Bytes × StageConfig} (stored : s.2.Stored) (line : Bytes) :
    (yamlLine s line).2.Stored := by
  unfold Offline.yamlLine
  dsimp only
  split
  · exact stored
  · split
    · exact stored
    · split
      · exact stored
      · exact stored.applyYamlLine _ _

theorem stored_default : StageConfig.Stored {} where
  gridDtMs := by constructor <;> norm_num
  joinToleranceMs := by constructor <;> norm_num
  segmentMinDurationMs := by constructor <;> norm_num

theorem fromYaml_stored (text : Bytes) : (fromYaml text).Stored := by
  unfold fromYaml
  generalize getlines newline text = lines
  have go (s : Bytes × StageConfig) (stored : s.2.Stored) : (lines.foldl yamlLine s).2.Stored := by
    induction lines generalizing s with
    | nil => exact stored
    | cons line lines ih => exact ih _ (stored.yamlLine line)
  exact go _ stored_default

example : (fromYaml (ascii "grid_dt_ms: -5 # ms\nscene:\n  segment_min_duration_ms: \"250\"\n")) =
    { gridDtMs := -5, scene := { segmentMinDurationMs := 250 } } := by decide

end LocalPC.Offline
