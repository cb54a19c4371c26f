import LocalPC.Offline.PipelineRun

namespace LocalPC.Offline
open Lib

/-- `get_opt` without a default: the argument behind the first `flag`. -/
def getOpt (flag : Bytes) : List Bytes → Bytes
  | arg :: value :: args => if arg = flag then value else getOpt flag (value :: args)
  | _ => []

def hasFlag (args : List Bytes) (flag : Bytes) : Bool := decide (flag ∈ args)

structure CommandOptions extends RunOptions where
  sessionDir : Bytes := []
  configPath : Bytes := []
  s3ConfigPath : Bytes := []
  outDir : Bytes := []

def commandOptions (args : List Bytes) : CommandOptions where
  sessionDir := getOpt (ascii "--session-dir") args
  sourceBin := getOpt (ascii "--source-bin") args
  configPath := getOpt (ascii "--config") args
  s3ConfigPath := getOpt (ascii "--s3-config") args
  outDir := getOpt (ascii "--out") args
  skipS3 := hasFlag args (ascii "--skip-s3")
  uploadDryRun := hasFlag args (ascii "--dry-run")

def CommandOptions.withOnly (opts : CommandOptions) (only : Bytes) : CommandOptions :=
  if only = [] then opts
  else
    { opts with
      onlyValidate := decide (only = ascii "validate")
      onlySync := decide (only = ascii "sync")
      onlyMdf4 := decide (only = ascii "mdf4")
      onlyScenes := decide (only = ascii "scenes") }

inductive MainAction
  | exit (code : ExitCode)
  | run (opts : CommandOptions)
  | upload (opts : CommandOptions)

/-- `main`, with the configuration left to what it comes to. -/
def mainAction (sessionExists : Bytes → Bool) : List Bytes → MainAction
  | _ :: cmd :: args =>
      if cmd = ascii "--help" ∨ cmd = ascii "-h" then .exit .success
      else if cmd = ascii "--version" then .exit .success
      else
        let opts := commandOptions args
        if opts.sessionDir = [] then .exit .internalError
        else if ¬ sessionExists opts.sessionDir then .exit .internalError
        else
          let opts := opts.withOnly (getOpt (ascii "--only") args)
          if cmd = ascii "upload" then .upload opts
          else if cmd = ascii "validate" then .run { opts with onlyValidate := true }
          else if cmd = ascii "process" then .run opts
          else if cmd = ascii "export-mdf4" then .run { opts with onlyMdf4 := true }
          else .exit .internalError
  | _ => .exit .internalError

structure OfflineHook where
  enabled : Bool := true
  binary : Bytes := ascii "/usr/local/bin/ego-offline"
  configPath : Bytes := ascii "/etc/ego-offline/config.yaml"
  s3ConfigPath : Bytes := ascii "/etc/ego-offline/s3.local.yaml"
  skipS3 : Bool := false

section Trigger
variable (isRegularFile : Bytes → Bool)

def fileExists (path : Bytes) : Bool := !path.isEmpty && isRegularFile path

def OfflineHook.s3Args (hook : OfflineHook) : List Bytes :=
  if !hook.skipS3 && fileExists isRegularFile hook.s3ConfigPath then
    [ascii "--s3-config", hook.s3ConfigPath]
  else if hook.skipS3 then [ascii "--skip-s3"]
  else []

def buildArgv (hook : OfflineHook) (sessionDir : Bytes) : List Bytes :=
  [hook.binary, ascii "process", ascii "--session-dir", sessionDir] ++
    (if hook.configPath = [] then [] else [ascii "--config", hook.configPath]) ++
      hook.s3Args isRegularFile

/-- The command line of the process that is started, or the error. -/
def triggerOfflinePipeline (hook : OfflineHook) (sessionDir : Bytes) : Except Bytes (List Bytes) :=
  if ¬ hook.enabled then .error (ascii "offline hook disabled")
  else if sessionDir = [] then .error (ascii "empty session_dir")
  else if ¬ fileExists isRegularFile hook.binary then
    .error (ascii "ego-offline binary not found: " ++ hook.binary)
  else if hook.configPath ≠ [] ∧ ¬ fileExists isRegularFile hook.configPath then
    .error (ascii "offline config not found: " ++ hook.configPath)
  else .ok (buildArgv isRegularFile hook sessionDir)

end Trigger

theorem getOpt_here (flag value : Bytes) (args : List Bytes) :
    getOpt flag (flag :: value :: args) = value :=
  if_pos rfl

theorem getOpt_skip {flag arg : Bytes} (other : arg ≠ flag) (args : List Bytes) :
    getOpt flag (arg :: args) = getOpt flag args := by
  cases args with
  | nil => rfl
  | cons value args => exact if_neg other

def commandFlags : List Bytes :=
  [ascii "--session-dir", ascii "--source-bin", ascii "--config", ascii "--s3-config",
    ascii "--out", ascii "--only", ascii "--skip-s3", ascii "--dry-run"]

def argsOf (settings : List (Bytes × Option Bytes)) : List Bytes :=
  settings.flatMap fun s => s.1 :: s.2.toList

def PlainSettings (settings : List (Bytes × Option Bytes)) : Prop :=
  ∀ s ∈ settings, s.1 ∈ commandFlags ∧ ∀ value ∈ s.2, value ∉ commandFlags

section Settings
variable {settings : List (Bytes × Option Bytes)} {flag : Bytes} (plain : PlainSettings settings)
  (known : flag ∈ commandFlags)
include plain known

theorem getOpt_argsOf (valued : (flag, none) ∉ settings) :
    getOpt flag (argsOf settings) = ((settings.lookup flag).bind id).getD [] := by
  induction settings with
  | nil => rfl
  | cons s settings ih =>
      obtain ⟨other, value⟩ := s
      have here := plain (other, value) List.mem_cons_self
      have rest := ih (fun s member => plain s (List.mem_cons_of_mem _ member))
        fun member => valued (List.mem_cons_of_mem _ member)
      rw [argsOf, List.flatMap_cons]
      by_cases same : flag = other
      · subst same
        cases value with
        | none => exact absurd List.mem_cons_self valued
        | some value =>
            rw [List.lookup_cons_self]
            exact getOpt_here flag value _
      · have differs : (flag == other) = false := beq_false_of_ne same
        rw [List.lookup_cons, differs, List.cons_append, getOpt_skip (Ne.symm same)]
        cases value with
        | none => exact rest
        | some value =>
            have apart : value ≠ flag := fun is => here.2 value rfl (is ▸ known)
            rw [Option.toList_some, List.singleton_append, getOpt_skip apart]
            exact rest

theorem hasFlag_argsOf :
    hasFlag (argsOf settings) flag = decide (flag ∈ settings.map Prod.fst) := by
  refine decide_eq_decide.mpr ?_
  rw [argsOf, List.mem_flatMap, List.mem_map]
  constructor
  · rintro ⟨s, member, inside⟩
    rcases List.mem_cons.mp inside with is | value
    · exact ⟨s, member, is.symm⟩
    · exact absurd known ((plain s member).2 flag (Option.mem_toList.mp value))
  · rintro ⟨s, member, rfl⟩
    exact ⟨s, member, List.mem_cons_self⟩

end Settings

section Run
variable {isRegularFile : Bytes → Bool} {hook : OfflineHook} {sessionDir : Bytes}

def OfflineHook.settings (isRegularFile : Bytes → Bool) (hook : OfflineHook) (sessionDir : Bytes) :
    List (Bytes × Option Bytes) :=
  (ascii "--session-dir", some sessionDir) ::
    ((if hook.configPath = [] then [] else [(ascii "--config", some hook.configPath)]) ++
      if hook.skipS3 then [(ascii "--skip-s3", none)]
      else if fileExists isRegularFile hook.s3ConfigPath then
        [(ascii "--s3-config", some hook.s3ConfigPath)]
      else [])

theorem buildArgv_eq : buildArgv isRegularFile hook sessionDir =
    hook.binary :: ascii "process" :: argsOf (hook.settings isRegularFile sessionDir) := by
  unfold buildArgv OfflineHook.s3Args OfflineHook.settings
  by_cases config : hook.configPath = [] <;> cases skip : hook.skipS3 <;>
    cases s3 : fileExists isRegularFile hook.s3ConfigPath <;> simp [config, argsOf]

/-- The values of a command line that is composed for this session. -/
def OfflineHook.values (hook : OfflineHook) (sessionDir : Bytes) : List Bytes :=
  [sessionDir, hook.configPath, hook.s3ConfigPath]

theorem plain_settings (plain : ∀ value ∈ hook.values sessionDir, value ∉ commandFlags) :
    PlainSettings (hook.settings isRegularFile sessionDir) := by
  have session := plain sessionDir (by simp [OfflineHook.values])
  have config := plain hook.configPath (by simp [OfflineHook.values])
  have s3 := plain hook.s3ConfigPath (by simp [OfflineHook.values])
  have known : ascii "--session-dir" ∈ commandFlags ∧ ascii "--config" ∈ commandFlags ∧
      ascii "--skip-s3" ∈ commandFlags ∧ ascii "--s3-config" ∈ commandFlags := by decide
  intro s member
  unfold OfflineHook.settings at member
  rcases List.mem_cons.mp member with rfl | member
  · exact ⟨known.1, by rintro _ ⟨⟩; exact session⟩
  rcases List.mem_append.mp member with member | member
  · split at member
    · cases member
    · rw [List.mem_singleton.mp member]
      exact ⟨known.2.1, by rintro _ ⟨⟩; exact config⟩
  · split at member
    · rw [List.mem_singleton.mp member]
      exact ⟨known.2.2.1, nofun⟩
    · split at member
      · rw [List.mem_singleton.mp member]
        exact ⟨known.2.2.2, by rintro _ ⟨⟩; exact s3⟩
      · cases member

theorem getOpt_settings
    (plain : ∀ value ∈ hook.values sessionDir, value ∉ commandFlags) {flag : Bytes}
    (known : flag ∈ commandFlags) (other : flag ≠ ascii "--skip-s3") :
    getOpt flag (argsOf (hook.settings isRegularFile sessionDir)) =
      (((hook.settings isRegularFile sessionDir).lookup flag).bind id).getD [] := by
  refine getOpt_argsOf (plain_settings plain) known ?_
  unfold OfflineHook.settings
  split <;> split <;> try split
  all_goals simp [other]

theorem commandOptions_settings (plain : ∀ value ∈ hook.values sessionDir, value ∉ commandFlags) :
    (commandOptions (argsOf (hook.settings isRegularFile sessionDir))).withOnly
      (getOpt (ascii "--only") (argsOf (hook.settings isRegularFile sessionDir))) =
      { sessionDir := sessionDir
        configPath := hook.configPath
        s3ConfigPath :=
          if !hook.skipS3 && fileExists isRegularFile hook.s3ConfigPath then hook.s3ConfigPath
          else []
        skipS3 := hook.skipS3 } := by
  have option {flag : Bytes} (known : flag ∈ commandFlags) (other : flag ≠ ascii "--skip-s3") :=
    @getOpt_settings isRegularFile hook sessionDir plain flag known other
  have switch {flag : Bytes} (known : flag ∈ commandFlags) :=
    hasFlag_argsOf (@plain_settings isRegularFile hook sessionDir plain) known
  unfold commandOptions
  rw [option (by decide) (by decide), option (by decide) (by decide),
    option (by decide) (by decide), option (by decide) (by decide), option (by decide) (by decide),
      option (by decide) (by decide), switch (by decide),
    switch (by decide)]
  unfold OfflineHook.settings
  by_cases config : hook.configPath = [] <;> cases skip : hook.skipS3 <;>
    cases s3 : fileExists isRegularFile hook.s3ConfigPath
  all_goals
    simp only [config, ↓reduceIte]
    rfl

theorem triggers_iff : (∃ argv, triggerOfflinePipeline isRegularFile hook sessionDir = .ok argv) ↔
    hook.enabled = true ∧ sessionDir ≠ [] ∧ fileExists isRegularFile hook.binary = true ∧
      (hook.configPath = [] ∨ fileExists isRegularFile hook.configPath = true) := by
  unfold triggerOfflinePipeline
  cases hook.enabled <;> by_cases session : sessionDir = [] <;>
    cases fileExists isRegularFile hook.binary <;> by_cases config : hook.configPath = [] <;>
    cases fileExists isRegularFile hook.configPath <;> simp [session, config]

theorem triggered_action {argv : List Bytes} {sessionExists : Bytes → Bool}
    (triggered : triggerOfflinePipeline isRegularFile hook sessionDir = .ok argv)
    (there : sessionExists sessionDir = true)
    (plain : ∀ value ∈ hook.values sessionDir, value ∉ commandFlags) :
    mainAction sessionExists argv = .run {
      sessionDir := sessionDir
      configPath := hook.configPath
      s3ConfigPath :=
        if !hook.skipS3 && fileExists isRegularFile hook.s3ConfigPath then hook.s3ConfigPath else []
      skipS3 := hook.skipS3 } := by
  obtain ⟨enabled, session, binary, config⟩ := triggers_iff.mp ⟨argv, triggered⟩
  have composed : argv = buildArgv isRegularFile hook sessionDir := by
    have found : ¬(hook.configPath ≠ [] ∧ ¬fileExists isRegularFile hook.configPath = true) :=
      fun missing =>
      config.elim missing.1 missing.2
    unfold triggerOfflinePipeline at triggered
    rw [if_neg (not_not.mpr enabled), if_neg session, if_neg (not_not.mpr binary), if_neg found]
      at triggered
    exact (Except.ok.inj triggered).symm
  have given : (commandOptions (argsOf (hook.settings isRegularFile sessionDir))).sessionDir =
      sessionDir :=
    @getOpt_settings isRegularFile hook sessionDir plain
      (ascii "--session-dir") (by decide) (by decide)
  rw [composed, buildArgv_eq, mainAction, if_neg (by decide), if_neg (by decide)]
  dsimp only
  rw [given, if_neg session, if_neg (not_not.mpr there),
    commandOptions_settings plain, if_neg (by decide), if_neg (by decide), if_pos rfl]

/-- What the daemon starts behind a session is a full run over that session, with the configuration
of the hook; it uploads exactly when the hook does not skip that and the configuration has it
enabled. -/
theorem triggered_run {argv : List Bytes} {sessionExists : Bytes → Bool}
    (triggered : triggerOfflinePipeline isRegularFile hook sessionDir = .ok argv)
    (there : sessionExists sessionDir = true)
    (plain : ∀ value ∈ hook.values sessionDir, value ∉ commandFlags) :
    ∃ opts, mainAction sessionExists argv = .run opts ∧ opts.sessionDir = sessionDir ∧
      opts.configPath = hook.configPath ∧ opts.outDir = [] ∧
        (∀ cfg io dir, Pipeline.run cfg opts.toRunOptions io dir =
          Pipeline.runFull cfg { skipS3 := hook.skipS3 } io dir) ∧
        ∀ cfg, Pipeline.uploads cfg opts.toRunOptions = (!hook.skipS3 && cfg.s3.enabled) :=
  ⟨_, triggered_action triggered there plain, rfl, rfl, rfl, fun _ _ _ => rfl,
    fun cfg => by simp [Pipeline.uploads]⟩

theorem installed_run : ∃ argv opts,
    triggerOfflinePipeline (fun path => path != ascii "/etc/ego-offline/s3.local.yaml") {}
      (ascii "/data/s1") = .ok argv ∧
      mainAction (fun _ => true) argv = .run opts ∧ opts.sessionDir = ascii "/data/s1" ∧
        ∀ cfg, Pipeline.uploads cfg opts.toRunOptions = cfg.s3.enabled := by
  have triggered : triggerOfflinePipeline
      (fun path => path != ascii "/etc/ego-offline/s3.local.yaml") {}
      (ascii "/data/s1") =
        .ok (buildArgv (fun path => path != ascii "/etc/ego-offline/s3.local.yaml") {}
        (ascii "/data/s1")) := by
    decide
  obtain ⟨opts, action, session, -, -, -, uploads⟩ :=
    @triggered_run _ {} _ _ (fun _ => true) triggered rfl (by decide)
  exact ⟨_, opts, triggered, action, session, uploads⟩

end Run

end LocalPC.Offline
