import LocalPC.Runtime.ChunkWriter

/-!
# The session manager

`session_manager.cpp`. Sessions are numbered here, and each has a directory of its own: the text of a
session id is made of the time and a random number, and is taken to be new.
-/

namespace LocalPC.Runtime
open Lib

inductive SessionState
  | kIdle
  | kRecording
  | kStopping
  | kClosed
  | kError
  deriving DecidableEq, Repr

inductive RuntimeErrorCode
  | kOk
  | kSessionBusy
  | kNotRecording
  | kStorageCritical
  | kConfigError
  | kInternalError
  deriving DecidableEq, Repr

structure ScenarioMetadata where
  scenarioId : Bytes
  scenarioName : Bytes
  operatorName : Bytes
  notes : Bytes
  deriving DecidableEq, Repr

structure SessionTexts where
  sessionId : Bytes := []
  storagePath : Bytes := []
  startedAtUtc : Bytes := []
  stoppedAtUtc : Bytes := []
  sourceIp : Bytes := []
  stopReason : Bytes := []
  deriving DecidableEq, Repr

structure SessionInfo extends SessionTexts where
  number : Nat
  state : SessionState := .kIdle
  deriving DecidableEq, Repr

/-- The texts of `RuntimeConfig` that are recorded with a session. -/
structure ConfigTexts where
  vehicleId : Bytes
  testStandConfig : Bytes
  softwareVersion : Bytes
  deriving DecidableEq, Repr

def RuntimeConfig.texts (config : RuntimeConfig) : ConfigTexts where
  vehicleId := config.vehicleId
  testStandConfig := config.testStandConfig
  softwareVersion := config.softwareVersion

/-- `DefaultScenario`, and `ScenarioFromConfig` of `main.cpp`. -/
def RuntimeConfig.defaultScenario (config : RuntimeConfig) : ScenarioMetadata where
  scenarioId := if config.scenarioId = [] then ascii "default" else config.scenarioId
  scenarioName := if config.scenarioName = [] then ascii "session" else config.scenarioName
  operatorName := if config.operatorName = [] then ascii "operator" else config.operatorName
  notes := config.notes

structure SessionClock where
  utcMs : UInt64 := 0
  random : Nat := 1000
  utc : Bytes := []

def makeSessionId (clock : SessionClock) : Bytes :=
  ascii "session-" ++ decimal clock.utcMs.toNat ++ ascii "-" ++ decimal clock.random

def SessionInfo.fresh (config : RuntimeConfig) (clock : SessionClock)
    (number : Nat) : SessionInfo where
  sessionId := makeSessionId clock
  startedAtUtc := clock.utc
  storagePath := joinPath (joinPath config.dataRoot (ascii "sessions")) (makeSessionId clock)
  number := number
  state := .kRecording

structure SessionManager where
  active : Option SessionInfo := none
  ids : Nat := 0
  deriving DecidableEq, Repr

namespace SessionManager

def state (s : SessionManager) : SessionState :=
  match s.active with
  | none => .kIdle
  | some info => info.state

/-- The texts of the active session, empty when there is none. -/
def texts (s : SessionManager) : SessionTexts := (s.active.map SessionInfo.toSessionTexts).getD {}

def sessionDir (s : SessionManager) : Bytes := s.texts.storagePath

def start (config : RuntimeConfig) (clock : SessionClock) (s : SessionManager) :
    RuntimeErrorCode × SessionManager :=
  if s.state = .kRecording then (.kSessionBusy, s)
  else (.kOk, { active := some (.fresh config clock s.ids), ids := s.ids + 1 })

def stop (reason : Bytes) (s : SessionManager) : RuntimeErrorCode × SessionManager :=
  match s.active with
  | none => (.kNotRecording, s)
  | some info =>
      if info.state ≠ .kRecording then (.kNotRecording, s)
      else (.kOk, { s with active := some { info with state := .kStopping, stopReason := reason } })

def markStopped (utc reason : Bytes) (s : SessionManager) : SessionManager :=
  { s with
    active := s.active.map fun info =>
      { info with stoppedAtUtc := utc, stopReason := reason, state := .kClosed } }

def setError (reason : Bytes) (s : SessionManager) : SessionManager :=
  { s with active := s.active.map fun info => { info with stopReason := reason, state := .kError } }

def activeId (s : SessionManager) : Option Nat := s.active.map SessionInfo.number

@[simp] theorem activeId_stop (reason : Bytes) (s : SessionManager) :
    (s.stop reason).2.activeId = s.activeId := by
  unfold activeId stop
  cases active : s.active with
  | none => simp [active]
  | some info =>
      dsimp only
      split
      · simp [active]
      · rfl

@[simp] theorem activeId_markStopped (utc reason : Bytes) (s : SessionManager) :
    (s.markStopped utc reason).activeId = s.activeId := by
  simp [activeId, markStopped, Function.comp_def]

@[simp] theorem activeId_setError (reason : Bytes) (s : SessionManager) :
    (s.setError reason).activeId = s.activeId := by
  simp [activeId, setError, Function.comp_def]

theorem activeId_isSome {s : SessionManager} (started : s.state ≠ .kIdle) :
    ∃ id, s.activeId = some id := by
  unfold state at started
  cases active : s.active with
  | none => simp [active] at started
  | some info => exact ⟨info.number, by simp [activeId, active]⟩

theorem state_setError {s : SessionManager} (started : s.state ≠ .kIdle) (reason : Bytes) :
    (s.setError reason).state = .kError := by
  unfold state setError at *
  cases active : s.active with
  | none => simp [active] at started
  | some info => rfl

theorem state_markStopped {s : SessionManager} (started : s.state ≠ .kIdle) (utc reason : Bytes) :
    (s.markStopped utc reason).state = .kClosed := by
  unfold state markStopped at *
  cases active : s.active with
  | none => simp [active] at started
  | some info => rfl

theorem state_stop (reason : Bytes) (s : SessionManager) :
    (s.stop reason).2.state = if s.state = .kRecording then .kStopping else s.state := by
  unfold state stop
  cases active : s.active with
  | none => simp [active]
  | some info =>
      by_cases recording : info.state = .kRecording
      · simp [recording]
      · simp [recording, active]

/-! ## The directory of a session -/

@[simp] theorem sessionDir_stop (reason : Bytes) (s : SessionManager) :
    (s.stop reason).2.sessionDir = s.sessionDir := by
  unfold sessionDir texts stop
  cases active : s.active with
  | none => simp [active]
  | some info =>
      dsimp only
      split
      · simp [active]
      · rfl

@[simp] theorem sessionDir_markStopped (utc reason : Bytes) (s : SessionManager) :
    (s.markStopped utc reason).sessionDir = s.sessionDir := by
  unfold sessionDir texts markStopped
  cases s.active <;> rfl

@[simp] theorem sessionDir_setError (reason : Bytes) (s : SessionManager) :
    (s.setError reason).sessionDir = s.sessionDir := by
  unfold sessionDir texts setError
  cases s.active <;> rfl

theorem storagePath_fresh (config : RuntimeConfig) (clock : SessionClock) (number : Nat) :
    (SessionInfo.fresh config clock number).storagePath ≠ [] := by
  refine joinPath_ne_nil ?_ _
  unfold joinPath
  split_ifs <;> simp [ascii]

end SessionManager
end LocalPC.Runtime
