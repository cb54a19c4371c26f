import Mathlib.Data.List.Destutter
import Mathlib.Data.List.Forall2
import LocalPC.Lib.Retry
import LocalPC.Offline.Manifest
import LocalPC.Offline.SessionReport
import LocalPC.Offline.SyncStage

/-!
# Upload to S3

`s3_client.cpp` and `s3_uploader.cpp`. A file's size, checksum and body are read one after another, and
every PUT goes through a temporary file and a run of curl. What the file system and curl do is given
with each file and each attempt; an exception that nobody catches ends the run. The command line of curl,
the waits between the attempts and the files that reports are written to are left out.
-/

namespace LocalPC.Offline
open Lib

/-! ## One PUT -/

structure S3PutResult where
  ok : Bool := false
  httpStatus : Int := 0
  etag : Bytes := []
  error : Bytes := []
  deriving DecidableEq

structure PutIo where
  tempDirectory : Bool := true
  tempOpens : Bool := true
  written : Nat
  curlOutput : Option Bytes

structure Put where
  objectKey : Bytes
  body : Bytes
  httpStatus : Int
  deriving DecidableEq

/-- `std::atoi`; a number that is not an `int` has no defined value. -/
def atoi (text : Bytes) : Int :=
  match leadingNumber text with
  | none => 0
  | some (negative, n) => if negative then -n else n

def httpStatus (output : Bytes) : Option Int :=
  (rfindText (ascii "HTTP_CODE:") output).map fun pos => atoi (output.drop (pos + 10))

def isSuccess (status : Int) : Bool := decide (200 ≤ status) && decide (status < 300)

def s3PutObject (accessKey secretKey objectKey body : Bytes) (io : PutIo) :
    Except Bytes (S3PutResult × Option Put) := do
  if accessKey = [] ∨ secretKey = [] then
    return ({ error := ascii "missing S3 credentials" }, none)
  if ¬ io.tempDirectory then throw (ascii "temp_directory_path")
  if ¬ io.tempOpens then
    return ({ error := ascii "failed to write temp upload body" }, none)
  match io.curlOutput with
  | none => return ({ error := ascii "failed to run curl" }, none)
  | some output =>
      match httpStatus output with
      | none => return ({ error := ascii "curl produced no HTTP status" }, none)
      | some status =>
          let ok := isSuccess status
          let error := if ok then [] else ascii "HTTP " ++ Json.toString status
          return ({ ok := ok, httpStatus := status, error := error },
            some { objectKey := objectKey, body := body.take io.written, httpStatus := status })

/-! ## The uploader -/

structure S3Config where
  enabled : Bool := true
  bucket : Bytes := []
  keyPrefix : Bytes := ascii "ego-sessions"
  accessKey : Bytes := []
  secretKey : Bytes := []
  requirePipelineSuccess : Bool := false
  requireRealMdf4 : Bool := true
  maxRetries : Int := 5
  includeSessionFiles : Bool := false
  includeFiles : List Bytes := []
  sessionIncludeFiles : List Bytes := []

structure UploadFileResult where
  localPath : Bytes := []
  objectKey : Bytes := []
  sizeBytes : Nat := 0
  sha256 : Bytes := []
  etag : Bytes := []
  status : Bytes := []
  message : Bytes := []
  deriving DecidableEq

structure UploadReport where
  uploadManifestVersion : Bytes := ascii "1.0"
  sessionId : Bytes := []
  generatedAtUtc : Bytes := []
  bucket : Bytes := []
  keyPrefix : Bytes := []
  uploadStatus : Bytes := []
  blockedReason : Bytes := []
  files : List UploadFileResult := []
  deriving DecidableEq

structure SourceFile where
  path : Bytes
  content : Bytes
  sized : Bool := true
  sha256 : Bytes := []
  opens : Bool := true
  seekable : Bool := true
  got : Nat
  put : Nat → PutIo

/-- What is found in the directory of a session and in that of its reports. -/
structure SessionIo where
  sessionDirName : Bytes := []
  generatedAtUtc : Bytes := []
  /-- The text of `session_report.json`, when it exists. -/
  reportText : Option Bytes := none
  mf4Size : Option Nat := none
  mf4Placeholder : Bool := false
  offlineFile : Bytes → Option SourceFile
  sessionFile : Bytes → Option SourceFile
  sessionEntries : List SourceFile := []

def filename (path : Bytes) : Bytes := (path.splitOn slash).getLastD []

def pathLe (a b : Bytes) : Bool := decide (a.splitOn slash ≤ b.splitOn slash)

def trimSlashes (keyPrefix : Bytes) : Bytes := keyPrefix.rdropWhile (· == slash)

def readFileBytes (file : SourceFile) : Except Bytes Bytes :=
  if ¬ file.opens then .ok []
  -- `tellg` gives -1, and the vector's constructor throws
  else if ¬ file.seekable then .error (ascii "vector")
  else .ok (file.content.take file.got ++ List.replicate (file.content.length - file.got) 0)

namespace S3Uploader
variable (config : S3Config)

def readPipelineStatus (io : SessionIo) : Bytes :=
  match io.reportText with
  | none => ascii "unknown"
  | some text => jsonGetString text (ascii "pipeline_status")

def readSessionId (io : SessionIo) : Bytes :=
  match io.reportText with
  | none => io.sessionDirName
  | some text =>
      let id := jsonGetString text (ascii "session_id")
      if id ≠ [] then id else io.sessionDirName

def gateBlocked (io : SessionIo) (pipelineStatus : Bytes) : Option Bytes :=
  if config.requireRealMdf4 ∧ io.mf4Size.getD 0 = 0 then some (ascii "session.mf4 missing")
  else if config.requireRealMdf4 ∧ io.mf4Placeholder then some (ascii "mdf4_stub")
  else if config.requirePipelineSuccess ∧ pipelineStatus ≠ ascii "success" then
    some (ascii "pipeline_status=" ++ pipelineStatus)
  else if config.bucket = [] then some (ascii "s3.bucket not configured")
  else if config.accessKey = [] ∨ config.secretKey = [] then some (ascii "s3 credentials missing")
  else none

def collectFiles (io : SessionIo) : List SourceFile :=
  config.includeFiles.filterMap fun name =>
    if name = ascii "upload_manifest.json" then none else io.offlineFile name

def isEgoChunk (name : Bytes) : Bool :=
  decide (8 ≤ name.length) && name.take 4 == ascii "ego_" && name.drop
    (name.length - 4) == ascii ".bin"

def collectSessionFiles (io : SessionIo) : List SourceFile :=
  if ¬ config.includeSessionFiles then []
  else
    let found := config.sessionIncludeFiles.filterMap io.sessionFile ++
      io.sessionEntries.filter fun file => isEgoChunk (filename file.path)
    (found.mergeSort fun a b => pathLe a.path b.path).destutter fun a b => a.path ≠ b.path

def objectKey (sessionId subdir basename : Bytes) : Bytes :=
  if subdir = [] then trimSlashes config.keyPrefix ++ slash :: sessionId ++ slash :: basename
  else trimSlashes config.keyPrefix ++ slash :: sessionId ++ slash :: subdir ++ slash :: basename

def endsAttempts (outcome : S3PutResult × Option Put) : Bool :=
  outcome.1.ok || outcome.1.httpStatus == 403 || outcome.1.httpStatus == 404

/-- The body of the loop over the files, with the PUTs that it makes. -/
def uploadFile (sessionId subdir : Bytes) (file : SourceFile) :
    Except Bytes (UploadFileResult × List Put) := do
  let basename := filename file.path
  let key := objectKey config sessionId subdir basename
  if ¬ file.sized then throw (ascii "file_size")
  let body ← readFileBytes file
  let outcomes ← attempts
      (fun attempt => s3PutObject config.accessKey config.secretKey key body (file.put attempt))
    endsAttempts (config.maxRetries + 1).toNat 0
  let last := ((outcomes.getLast?.map Prod.fst).getD {} : S3PutResult)
  let result : UploadFileResult :=
    { localPath := file.path
      objectKey := key
      sizeBytes := file.content.length
      sha256 := file.sha256
      etag := last.etag
      status := if last.ok then ascii "ok" else ascii "failed"
      message := if last.ok then [] else last.error }
  return (result, outcomes.filterMap Prod.snd)

/-- The exit code, the report with the results of the files, and `all_ok`. -/
def uploadFileBatch (sessionId subdir : Bytes) :
    List SourceFile → UploadReport → Bool → Except Bytes (ExitCode × UploadReport × Bool)
  | [], report, allOk => .ok (if allOk then .success else .uploadFailed, report, allOk)
  | file :: files, report, allOk => do
      let (result, _) ← uploadFile config sessionId subdir file
      uploadFileBatch sessionId subdir files { report with files := report.files ++ [result] }
        (allOk && result.status == ascii "ok")

def dryRunResult (sessionId subdir : Bytes) (file : SourceFile) : UploadFileResult where
  localPath := file.path
  objectKey := objectKey config sessionId subdir (filename file.path)
  status := ascii "dry_run"

/-- The exit code, and the report when one is written. -/
def uploadSession (io : SessionIo) (dryRun : Bool) :
    Except Bytes (ExitCode × Option UploadReport) := do
  if ¬ config.enabled then return (.success, none)
  let sessionId := readSessionId io
  let report : UploadReport :=
    { generatedAtUtc := io.generatedAtUtc
      bucket := config.bucket
      sessionId := sessionId
      keyPrefix := trimSlashes config.keyPrefix ++ slash :: sessionId }
  match gateBlocked config io (readPipelineStatus io) with
  | some reason =>
      return (.uploadBlocked,
        some { report with uploadStatus := ascii "blocked", blockedReason := reason })
  | none =>
      let offlineFiles := collectFiles config io
      let sessionFiles := collectSessionFiles config io
      if offlineFiles = [] ∧ sessionFiles = [] then
        return (.uploadFailed,
          some { report with
            uploadStatus := ascii "failed", blockedReason := ascii "no files to upload" })
      if dryRun then
        return (.success, some { report with
          uploadStatus := ascii "skipped"
          files := offlineFiles.map (dryRunResult config sessionId (ascii "offline")) ++
            sessionFiles.map (dryRunResult config sessionId []) })
      let (_, report, allOk) ← uploadFileBatch config sessionId [] sessionFiles report true
      let (_, report, allOk) ← uploadFileBatch config sessionId
          (ascii "offline") offlineFiles report allOk
      return (if allOk then .success else .uploadFailed,
        some { report with uploadStatus := if allOk then ascii "ok" else ascii "failed" })

/-! ## What a PUT answers -/

def answer (io : PutIo) : Option Int :=
  if config.accessKey = [] ∨ config.secretKey = [] ∨ ¬ io.tempOpens then none
  else io.curlOutput.bind httpStatus

def PutReturns (io : PutIo) : Prop :=
  config.accessKey = [] ∨ config.secretKey = [] ∨ io.tempDirectory = true

section
variable {config}

theorem s3PutObject_eq {io : PutIo} (returns : PutReturns config io) (key body : Bytes) :
    ∃ outcome, s3PutObject config.accessKey config.secretKey key body io = .ok outcome ∧
      outcome.1.ok = (answer config io).any isSuccess ∧
        outcome.1.httpStatus = (answer config io).getD 0 ∧
        outcome.2 = (answer config io).map fun status =>
          { objectKey := key, body := body.take io.written, httpStatus := status } := by
  unfold s3PutObject answer
  by_cases missing : config.accessKey = [] ∨ config.secretKey = []
  · rw [if_pos missing, if_pos (by tauto)]
    exact ⟨_, rfl, rfl, rfl, rfl⟩
  have directory : io.tempDirectory = true := by
    rw [PutReturns] at returns
    tauto
  rw [if_neg missing, if_neg (not_not.mpr directory)]
  by_cases opens : io.tempOpens = true
  · rw [if_neg (not_not.mpr opens), if_neg (by tauto)]
    cases io.curlOutput with
    | none => exact ⟨_, rfl, rfl, rfl, rfl⟩
    | some output =>
        dsimp only [Option.bind_some]
        cases httpStatus output with
        | none => exact ⟨_, rfl, rfl, rfl, rfl⟩
        | some status => exact ⟨_, rfl, rfl, rfl, rfl⟩
  · rw [if_pos opens, if_pos (by tauto)]
    exact ⟨_, rfl, rfl, rfl, rfl⟩

theorem putReturns_of_ok {key body : Bytes} {io : PutIo} {outcome : S3PutResult × Option Put}
    (run : s3PutObject config.accessKey config.secretKey key body io = .ok outcome) :
    PutReturns config io := by
  by_contra throws
  rw [PutReturns, not_or, not_or] at throws
  rw [s3PutObject, if_neg (by tauto), if_pos throws.2.2] at run
  cases run

def isFinal (status : Int) : Bool := isSuccess status || status == 403 || status == 404

theorem endsAttempts_eq {io : PutIo} {outcome : S3PutResult × Option Put}
    (ok : outcome.1.ok = (answer config io).any isSuccess)
    (status : outcome.1.httpStatus = (answer config io).getD 0) :
    endsAttempts outcome = (answer config io).any isFinal := by
  rw [endsAttempts, ok, status]
  cases answer config io <;> rfl

end

/-! ## When a file is sent as a whole -/

def SucceedsAt (file : SourceFile) (k : Nat) : Prop :=
  k < (config.maxRetries + 1).toNat ∧ PutReturns config (file.put k) ∧
    (answer config (file.put k)).any isSuccess = true ∧
      ∀ j, j < k → PutReturns config (file.put j) ∧ (answer config (file.put j)).any isFinal = false

def ReadsWhole (file : SourceFile) : Prop :=
  if file.opens then ∀ b ∈ file.content.drop file.got, b = 0 else file.content = []

/-- The attempt that succeeds sends the whole content. -/
def SendsWhole (file : SourceFile) : Prop :=
  file.sized = true → (file.opens = true → file.seekable = true) → ∀ k, SucceedsAt config file k →
    ReadsWhole file ∧ file.content.length ≤ (file.put k).written

def Delivered (sessionId subdir : Bytes) (file : SourceFile) (result : UploadFileResult) : Prop :=
  ∃ puts, uploadFile config sessionId subdir file = .ok (result, puts) ∧
    ∃ put ∈ puts, isSuccess put.httpStatus = true ∧ put.objectKey = result.objectKey ∧
      put.body = file.content ∧
      put.body.length = result.sizeBytes

section
variable {config} {sessionId subdir : Bytes} {file : SourceFile} {body : Bytes}

theorem readFileBytes_eq (seekable : file.opens = true → file.seekable = true) :
    ∃ body, readFileBytes file = .ok body := by
  unfold readFileBytes
  by_cases opens : file.opens = true
  · rw [if_neg (not_not.mpr opens), if_neg (not_not.mpr (seekable opens))]
    exact ⟨_, rfl⟩
  · exact ⟨[], if_pos opens⟩

theorem seekable_of_read (read : readFileBytes file = .ok body) (opens : file.opens = true) :
    file.seekable = true := by
  by_contra broken
  rw [readFileBytes, if_neg (not_not.mpr opens), if_pos broken] at read
  cases read

theorem sent_whole_iff (read : readFileBytes file = .ok body) (written : Nat) :
    body.take written = file.content ↔ ReadsWhole file ∧ file.content.length ≤ written := by
  unfold readFileBytes at read
  unfold ReadsWhole
  split at read
  next closed =>
    cases read
    rw [if_neg closed, List.take_nil]
    constructor
    · intro empty
      exact ⟨empty.symm, by rw [← empty]; exact Nat.zero_le _⟩
    · intro whole
      exact whole.1.symm
  next opens =>
    split at read
    · cases read
    · cases read
      rw [if_pos (not_not.mp opens)]
      have length :
          (file.content.take file.got ++ List.replicate
            (file.content.length - file.got) (0 : UInt8)).length =
          file.content.length := by
        rw [List.length_append, List.length_take, List.length_replicate]
        omega
      have zeros : file.content.take file.got ++ List.replicate
          (file.content.length - file.got) 0 = file.content ↔
          ∀ b ∈ file.content.drop file.got, b = 0 := by
        have parts := List.take_append_drop file.got file.content
        constructor
        · intro same
          have tail := List.append_cancel_left (same.trans parts.symm)
          exact (List.eq_replicate_iff.mp tail.symm).2
        · intro zero
          have tail := List.eq_replicate_iff.mpr ⟨List.length_drop, zero⟩
          exact (congrArg (file.content.take file.got ++ ·) tail.symm).trans parts
      constructor
      · intro same
        have short := congrArg List.length same
        rw [List.length_take, length] at short
        have all : file.content.length ≤ written := by omega
        rw [List.take_of_length_le (by omega)] at same
        exact ⟨zeros.mp same, all⟩
      · rintro ⟨tail, all⟩
        rw [List.take_of_length_le (by omega)]
        exact zeros.mpr tail

theorem stopsAt_iff_succeedsAt {key : Bytes} {k : Nat} :
    (∃ outcome, outcome.1.ok = true ∧
      StopsAt (fun attempt =>
        s3PutObject config.accessKey config.secretKey key body (file.put attempt)) endsAttempts
        (config.maxRetries + 1).toNat 0 k outcome) ↔ SucceedsAt config file k := by
  constructor
  · rintro ⟨outcome, ok, inside, here, -, earlier⟩
    rw [Nat.zero_add] at here
    have returns := putReturns_of_ok here
    obtain ⟨same, run, okEq, -⟩ := s3PutObject_eq returns key body
    obtain rfl : outcome = same := Except.ok.inj (here.symm.trans run)
    refine ⟨inside, returns, okEq.symm.trans ok, fun j before => ?_⟩
    obtain ⟨other, there, goesOn⟩ := earlier j before
    rw [Nat.zero_add] at there
    have returned := putReturns_of_ok there
    obtain ⟨same, run, okEq, statusEq, -⟩ := s3PutObject_eq returned key body
    obtain rfl : other = same := Except.ok.inj (there.symm.trans run)
    exact ⟨returned, (endsAttempts_eq okEq statusEq).symm.trans goesOn⟩
  · rintro ⟨inside, returns, success, earlier⟩
    obtain ⟨outcome, run, okEq, -⟩ := s3PutObject_eq returns key body
    have ok : outcome.1.ok = true := okEq.trans success
    refine ⟨outcome, ok,
      inside, by rw [Nat.zero_add]; exact run, by rw [endsAttempts, ok]; rfl, fun j before => ?_⟩
    obtain ⟨returned, goesOn⟩ := earlier j before
    obtain ⟨other, run, okEq, statusEq, -⟩ := s3PutObject_eq returned key body
    exact ⟨other, by rw [Nat.zero_add]; exact run, (endsAttempts_eq okEq statusEq).trans goesOn⟩

theorem uploadFile_cases {result : UploadFileResult} {puts : List Put}
    (run : uploadFile config sessionId subdir file = .ok (result, puts)) :
    file.sized = true ∧ ∃ body outcomes, readFileBytes file = .ok body ∧
      attempts (fun attempt => s3PutObject config.accessKey config.secretKey
        (objectKey config sessionId subdir (filename file.path)) body (file.put attempt))
          endsAttempts
        (config.maxRetries + 1).toNat 0 = .ok outcomes ∧
      puts = outcomes.filterMap Prod.snd ∧
        result.objectKey = objectKey config sessionId subdir (filename file.path) ∧
      result.sizeBytes = file.content.length ∧
      (result.status = ascii "ok" ↔ ∃ outcome, outcomes.getLast? = some outcome ∧
        outcome.1.ok = true) := by
  unfold uploadFile at run
  dsimp only at run
  split at run
  · cases run
  next sized =>
    refine ⟨not_not.mp sized, ?_⟩
    cases read : readFileBytes file with
    | error e =>
        rw [read] at run
        cases run
    | ok body =>
        rw [read] at run
        simp only [bind, Except.bind] at run
        split at run
        · cases run
        next outcomes tried =>
          cases run
          refine ⟨body, outcomes, rfl, tried, rfl, rfl, rfl, ?_⟩
          cases outcomes.getLast? with
          | none =>
              show (if false then ascii "ok" else ascii "failed") = ascii "ok" ↔ _
              exact iff_of_false (by decide) (by simp)
          | some last =>
              show (if last.1.ok then ascii "ok" else ascii "failed") = ascii "ok" ↔ _
              cases ok : last.1.ok with
              | false => exact iff_of_false (by decide) (by simp [ok])
              | true => exact iff_of_true rfl ⟨last, rfl, ok⟩

theorem uploadFile_of_stopsAt (sized : file.sized = true)
    (read : readFileBytes file = .ok body) {k : Nat} {outcome : S3PutResult × Option Put}
    (ok : outcome.1.ok = true)
    (stopped : StopsAt (fun attempt => s3PutObject config.accessKey config.secretKey
      (objectKey config sessionId subdir (filename file.path)) body (file.put attempt)) endsAttempts
      (config.maxRetries + 1).toNat 0 k outcome) :
    ∃ front result, uploadFile config sessionId subdir file =
      .ok (result, (front ++ [outcome]).filterMap Prod.snd) ∧
      result.status = ascii "ok" ∧ ∀ earlier ∈ front, endsAttempts earlier = false ∧ ∃ j,
        s3PutObject config.accessKey config.secretKey
          (objectKey config sessionId subdir (filename file.path)) body
          (file.put j) = .ok earlier := by
  obtain ⟨front, tried, quiet⟩ := stopped.attempts_eq
  have run : uploadFile config sessionId subdir file = .ok (
      { localPath := file.path
        objectKey := objectKey config sessionId subdir (filename file.path)
        sizeBytes := file.content.length
        sha256 := file.sha256
        etag := outcome.1.etag
        status := if outcome.1.ok then ascii "ok" else ascii "failed"
        message := if outcome.1.ok then [] else outcome.1.error },
          (front ++ [outcome]).filterMap Prod.snd) := by
    unfold uploadFile
    dsimp only
    rw [if_neg (not_not.mpr sized), read]
    simp only [bind, Except.bind]
    rw [tried]
    dsimp only
    rw [List.getLast?_concat]
    rfl
  exact ⟨front, _, run, by rw [if_pos ok], quiet⟩

theorem not_isSuccess_of_goesOn {key : Bytes} {io : PutIo}
    {outcome : S3PutResult × Option Put} {put : Put}
    (run : s3PutObject config.accessKey config.secretKey key body io = .ok outcome)
    (goesOn : endsAttempts outcome = false) (mem : outcome.2 = some put) :
    isSuccess put.httpStatus = false := by
  obtain ⟨same, run', okEq, statusEq, putEq⟩ := s3PutObject_eq (putReturns_of_ok run) key body
  obtain rfl : outcome = same := Except.ok.inj (run.symm.trans run')
  rw [endsAttempts_eq okEq statusEq] at goesOn
  rw [putEq, Option.map_eq_some_iff] at mem
  obtain ⟨status, answered, rfl⟩ := mem
  rw [answered, Option.any_some, isFinal, Bool.or_eq_false_iff, Bool.or_eq_false_iff] at goesOn
  exact goesOn.1.1

theorem put_of_ok {key : Bytes} {io : PutIo} {outcome : S3PutResult × Option Put}
    (run : s3PutObject config.accessKey config.secretKey key body io = .ok outcome)
    (ok : outcome.1.ok = true) :
    ∃ put, outcome.2 = some put ∧ isSuccess put.httpStatus = true ∧ put.objectKey = key ∧
      put.body = body.take io.written := by
  obtain ⟨same, run', okEq, -, putEq⟩ := s3PutObject_eq (putReturns_of_ok run) key body
  obtain rfl : outcome = same := Except.ok.inj (run.symm.trans run')
  rw [ok] at okEq
  cases answered : answer config io with
  | none =>
      rw [answered] at okEq
      cases okEq
  | some status =>
      rw [answered, Option.any_some] at okEq
      rw [answered, Option.map_some] at putEq
      exact ⟨_, putEq, okEq.symm, rfl, rfl⟩

theorem delivered_iff :
    (∀ result puts, uploadFile config sessionId subdir file = .ok (result, puts) →
      result.status = ascii "ok" →
      Delivered config sessionId subdir file result) ↔ SendsWhole config file := by
  constructor
  · intro delivered sized seekable k succeeds
    obtain ⟨body, read⟩ := readFileBytes_eq seekable
    obtain ⟨outcome, ok, stopped⟩ := stopsAt_iff_succeedsAt.mpr succeeds
    have here := stopped.2.1
    rw [Nat.zero_add] at here
    obtain ⟨front, result, run, status, quiet⟩ := uploadFile_of_stopsAt sized read ok stopped
    obtain ⟨puts, run', put, mem, success, -, whole, -⟩ := delivered _ _ run status
    rw [run] at run'
    cases run'
    obtain ⟨attempt, tried, made⟩ := List.mem_filterMap.mp mem
    -- only the last attempt has a PUT that succeeded
    rcases List.mem_append.mp tried with early | late
    · obtain ⟨goesOn, j, there⟩ := quiet attempt early
      exact absurd success (ne_true_of_eq_false (not_isSuccess_of_goesOn there goesOn made))
    · cases List.mem_singleton.mp late
      obtain ⟨last, lastEq, -, -, sent⟩ := put_of_ok here ok
      obtain rfl : last = put := Option.some.inj (lastEq.symm.trans made)
      exact (sent_whole_iff read _).mp (sent.symm.trans whole)
  · intro sends result puts run status
    obtain ⟨sized, body, outcomes, read, tried, putsEq, keyEq, sizeEq, statusIff⟩ :=
      uploadFile_cases run
    obtain ⟨outcome, last, ok⟩ := statusIff.mp status
    have final : endsAttempts outcome = true := by
      rw [endsAttempts, ok]
      rfl
    obtain ⟨k, stopped⟩ := stopsAt_of_attempts tried last final
    have here := stopped.2.1
    rw [Nat.zero_add] at here
    have succeeds := stopsAt_iff_succeedsAt.mp ⟨outcome, ok, stopped⟩
    obtain ⟨put, made, success, key, sent⟩ := put_of_ok here ok
    have whole := (sent_whole_iff read _).mpr (sends sized (seekable_of_read read) k succeeds)
    refine ⟨puts, run, put, ?_, success, key.trans keyEq.symm, sent.trans whole, ?_⟩
    · rw [putsEq]
      exact List.mem_filterMap.mpr ⟨outcome, List.mem_of_getLast? last, made⟩
    · rw [sent, whole, sizeEq]

end

/-! ## Batches and sessions -/

/-- A result that is marked ok is one of a delivered file. -/
def OkDelivered (sessionId : Bytes) (job : Bytes × SourceFile) (result : UploadFileResult) : Prop :=
  result.status = ascii "ok" → Delivered config sessionId job.1 job.2 result

/-- The files of a session, as they are uploaded, with the subdirectory that each of them goes to. -/
def jobs (io : SessionIo) : List (Bytes × SourceFile) :=
  (collectSessionFiles config io).map (Prod.mk []) ++ (collectFiles config io).map
    (Prod.mk (ascii "offline"))

/-- Results that are marked ok are of delivered files, and the report is ok only if all files are
delivered. -/
def OkMeansUploaded (io : SessionIo) (report : UploadReport) : Prop :=
  (∀ (i : Nat) result, report.files[i]? = some result → result.status = ascii "ok" →
    ∃ job, (jobs config io)[i]? = some job ∧
      Delivered config (readSessionId io) job.1 job.2 result) ∧
  (report.uploadStatus = ascii "ok" → ∀ (i : Nat) job, (jobs config io)[i]? = some job →
    ∃ result, report.files[i]? = some result ∧ result.status = ascii "ok" ∧
      Delivered config (readSessionId io) job.1 job.2 result)

section
variable {config} {sessionId subdir : Bytes} {files : List SourceFile}
  {report report' : UploadReport} {allOk allOk' : Bool} {code : ExitCode}

theorem uploadFileBatch_cases
    (run : uploadFileBatch config sessionId subdir files report allOk =
      .ok (code, report', allOk')) :
    ∃ results, report' = { report with files := report.files ++ results } ∧
      List.Forall₂
        (fun file result => ∃ puts, uploadFile config sessionId subdir file = .ok (result, puts))
          files results ∧
      (allOk' = true ↔ allOk = true ∧ ∀ result ∈ results, result.status = ascii "ok") := by
  induction files generalizing report allOk with
  | nil =>
      cases run
      exact ⟨[], by rw [List.append_nil], .nil, by simp⟩
  | cons file files ih =>
      rw [uploadFileBatch] at run
      cases upload : uploadFile config sessionId subdir file with
      | error e =>
          rw [upload] at run
          cases run
      | ok made =>
          rw [upload] at run
          obtain ⟨results, rfl, uploads, all⟩ := ih run
          refine ⟨made.1 :: results, by simp, .cons ⟨made.2, upload⟩ uploads, ?_⟩
          rw [all, List.forall_mem_cons, Bool.and_eq_true, beq_iff_eq, and_assoc]

theorem okDelivered_iff {job : Bytes × SourceFile} {result : UploadFileResult} {puts : List Put}
    (run : uploadFile config sessionId job.1 job.2 = .ok (result, puts)) :
    OkDelivered config sessionId job result ↔ SendsWhole config job.2 := by
  rw [← @delivered_iff config sessionId job.1 job.2]
  constructor
  · intro delivered result' puts' run' status
    rw [run] at run'
    cases run'
    exact delivered status
  · intro delivered
    exact delivered result puts run

theorem forall₂_okDelivered_iff {todo : List (Bytes × SourceFile)} {results : List UploadFileResult}
    (uploads : List.Forall₂
      (fun job result => ∃ puts, uploadFile config sessionId job.1 job.2 = .ok (result, puts))
      todo results) :
    List.Forall₂ (OkDelivered config sessionId) todo results ↔
      ∀ job ∈ todo, SendsWhole config job.2 := by
  induction uploads with
  | nil => exact iff_of_true .nil fun job mem => absurd mem List.not_mem_nil
  | cons upload _ ih =>
      obtain ⟨puts, run⟩ := upload
      rw [List.forall₂_cons, List.forall_mem_cons, okDelivered_iff run, ih]

theorem batches_cases {io : SessionIo} {first second : ExitCode × UploadReport × Bool}
    (ranFirst : uploadFileBatch config sessionId []
      (collectSessionFiles config io) report true = .ok first)
    (ranSecond : uploadFileBatch config sessionId (ascii "offline")
      (collectFiles config io) first.2.1 first.2.2 = .ok second) :
    ∃ results, second.2.1.files = report.files ++ results ∧
      List.Forall₂
        (fun job result => ∃ puts, uploadFile config sessionId job.1 job.2 = .ok (result, puts))
          (jobs config io) results ∧
      (second.2.2 = true → ∀ result ∈ results, result.status = ascii "ok") := by
  obtain ⟨fromSession, filesEq, uploadsFirst, okFirst⟩ := uploadFileBatch_cases ranFirst
  obtain ⟨fromOffline, filesEq', uploadsSecond, okSecond⟩ := uploadFileBatch_cases ranSecond
  refine ⟨fromSession ++ fromOffline, ?_, ?_, fun all result mem => ?_⟩
  · rw [filesEq', filesEq]
    exact List.append_assoc ..
  · rw [jobs]
    exact List.rel_append (List.forall₂_map_left_iff.mpr uploadsFirst)
      (List.forall₂_map_left_iff.mpr uploadsSecond)
  · obtain ⟨allFirst, allSecond⟩ := okSecond.mp all
    rcases List.mem_append.mp mem with mem | mem
    · exact (okFirst.mp allFirst).2 result mem
    · exact allSecond result mem

theorem uploadSession_cases {io : SessionIo} {dryRun : Bool}
    (run : uploadSession config io dryRun = .ok (code, some report)) :
    ((gateBlocked config io (readPipelineStatus io) = none → dryRun = false → jobs config io = []) ∧
      report.uploadStatus ≠ ascii "ok" ∧ ∀ result ∈ report.files, result.status ≠ ascii "ok") ∨
    (gateBlocked config io (readPipelineStatus io) = none ∧ dryRun = false ∧
      List.Forall₂
        (fun job result => ∃ puts, uploadFile config (readSessionId io) job.1 job.2 =
          .ok (result, puts)) (jobs config io) report.files ∧
      (report.uploadStatus = ascii "ok" →
        ∀ result ∈ report.files, result.status = ascii "ok")) := by
  unfold uploadSession at run
  by_cases enabled : config.enabled = true
  swap
  · rw [if_pos enabled] at run
    cases run
  rw [if_neg (not_not.mpr enabled)] at run
  dsimp only at run
  split at run
  next reason gate =>
    cases run
    refine .inl ⟨fun free => ?_, (by decide : ascii "blocked" ≠ ascii "ok"),
      fun result mem => absurd mem List.not_mem_nil⟩
    rw [gate] at free
    cases free
  next gate =>
    split at run
    next none =>
      cases run
      refine .inl ⟨fun _ _ => ?_, (by decide : ascii "failed" ≠ ascii "ok"),
        fun result mem => absurd mem List.not_mem_nil⟩
      rw [jobs, none.1, none.2]
      rfl
    split at run
    next dry =>
      cases run
      refine .inl ⟨fun _ real => absurd (dry.symm.trans real) (by decide),
        (by decide : ascii "skipped" ≠ ascii "ok"), ?_⟩
      intro result mem
      have marked : result.status = ascii "dry_run" := by
        rcases List.mem_append.mp mem with mem | mem
        all_goals
          obtain ⟨file, -, rfl⟩ := List.mem_map.mp mem
          rfl
      rw [marked]
      decide
    next real =>
      simp only [bind, Except.bind] at run
      split at run
      · cases run
      next first ranFirst =>
        split at run
        · cases run
        next second ranSecond =>
          cases run
          obtain ⟨results, filesEq, uploads, ok⟩ := batches_cases ranFirst ranSecond
          refine .inr ⟨gate, Bool.not_eq_true _ ▸ real, ?_, fun status => ?_⟩
          · show List.Forall₂ _ _ second.2.1.files
            rw [filesEq]
            exact uploads
          · show ∀ result ∈ second.2.1.files, _
            have all : second.2.2 = true := by
              by_contra failed
              exact absurd ((if_neg failed).symm.trans status) (by decide)
            rw [filesEq]
            exact ok all

theorem okMeansUploaded_of_uploads {io : SessionIo}
    (uploads : List.Forall₂
      (fun job result => ∃ puts,
        uploadFile config (readSessionId io) job.1 job.2 = .ok (result, puts))
      (jobs config io) report.files)
    (all : report.uploadStatus = ascii "ok" → ∀ result ∈ report.files, result.status = ascii "ok") :
    OkMeansUploaded config io report ↔
      List.Forall₂ (OkDelivered config (readSessionId io)) (jobs config io) report.files := by
  have length := uploads.length_eq
  constructor
  · intro uploaded
    refine List.forall₂_iff_get.mpr ⟨length, fun i inside inside' status => ?_⟩
    obtain ⟨job, at_i, delivered⟩ := uploaded.1 i _ (List.getElem?_eq_getElem inside') status
    rw [List.getElem?_eq_getElem inside, Option.some.injEq] at at_i
    rw [List.get_eq_getElem, at_i]
    exact delivered
  · intro each
    obtain ⟨-, each⟩ := List.forall₂_iff_get.mp each
    constructor
    · intro i result at_i status
      obtain ⟨inside, rfl⟩ := List.getElem?_eq_some_iff.mp at_i
      have inside' : i < (jobs config io).length := length ▸ inside
      exact ⟨_, List.getElem?_eq_getElem inside', each i inside' inside status⟩
    · intro status i job at_i
      obtain ⟨inside, rfl⟩ := List.getElem?_eq_some_iff.mp at_i
      have inside' : i < report.files.length := length ▸ inside
      have ok := all status _ (List.getElem_mem inside')
      exact ⟨_, List.getElem?_eq_getElem inside', ok, each i inside inside' ok⟩

end

/-- What is reported as ok has been uploaded exactly when each file that is sent with success is
sent whole. -/
theorem okMeansUploaded_iff (config : S3Config) :
    (∀ sessionId subdir files report allOk code report' allOk',
      uploadFileBatch config sessionId subdir files report allOk = .ok (code, report', allOk') →
        ((∃ results, report'.files = report.files ++ results ∧
            List.Forall₂ (fun file => OkDelivered config sessionId (subdir, file)) files results) ↔
          ∀ file ∈ files, SendsWhole config file)) ∧
    ∀ io dryRun code report, uploadSession config io dryRun = .ok (code, some report) →
      (OkMeansUploaded config io report ↔
        (gateBlocked config io (readPipelineStatus io) = none → dryRun = false →
          ∀ job ∈ jobs config io, SendsWhole config job.2)) := by
  constructor
  · intro sessionId subdir files report allOk code report' allOk' run
    obtain ⟨results, rfl, uploads, -⟩ := uploadFileBatch_cases run
    have each := @forall₂_okDelivered_iff config sessionId (files.map (Prod.mk subdir)) results
      (List.forall₂_map_left_iff.mpr uploads)
    rw [List.forall₂_map_left_iff, List.forall_mem_map] at each
    rw [← each]
    constructor
    · rintro ⟨same, filesEq, delivered⟩
      rw [List.append_cancel_left filesEq]
      exact delivered
    · intro delivered
      exact ⟨results, rfl, delivered⟩
  · intro io dryRun code report run
    rcases uploadSession_cases run with ⟨nothing, status, none⟩ | ⟨gate, real, uploads, all⟩
    · refine iff_of_true
        ⟨fun i result at_i ok => absurd ok (none result (List.mem_of_getElem? at_i)),
          fun ok => absurd ok status⟩ fun gate real => ?_
      rw [nothing gate real]
      exact fun job mem => absurd mem List.not_mem_nil
    · rw [okMeansUploaded_of_uploads uploads all, forall₂_okDelivered_iff uploads]
      exact ⟨fun sends _ _ => sends, fun sends => sends gate real⟩

def answered : PutIo where
  written := 100
  curlOutput := some (ascii "HTTP_CODE:200")

def uploadConfig : S3Config where
  bucket := ascii "raw"
  accessKey := ascii "id"
  secretKey := ascii "key"
  requireRealMdf4 := false
  includeFiles := [ascii "session.mf4", ascii "session.mf4.sha256"]

def openFile : SourceFile where
  path := ascii "out/session.mf4"
  content := [1, 2, 3]
  got := 3
  put := fun _ => answered

/-- A file that can no longer be opened when its body is read. -/
def closedFile : SourceFile := { openFile with opens := false, got := 0 }

def sessionOf (file : SourceFile) : SessionIo where
  sessionDirName := ascii "s1"
  offlineFile := fun name => if name = ascii "session.mf4" then some file else none
  sessionFile := fun _ => none

def uploadedResult : UploadFileResult where
  localPath := ascii "out/session.mf4"
  objectKey := ascii "ego-sessions/s1/offline/session.mf4"
  sizeBytes := 3
  status := ascii "ok"

def uploadedReport : UploadReport where
  sessionId := ascii "s1"
  bucket := ascii "raw"
  keyPrefix := ascii "ego-sessions/s1"
  uploadStatus := ascii "ok"
  files := [uploadedResult]

def refusedFile : SourceFile where
  path := ascii "out/session.mf4.sha256"
  content := [4, 5]
  got := 2
  put := fun attempt =>
    if attempt = 0 then { answered with curlOutput := some (ascii "HTTP_CODE:503") } else answered

def twoFiles : SessionIo where
  sessionDirName := ascii "s1"
  offlineFile := fun name =>
    if name = ascii "session.mf4" then some openFile
    else if name = ascii "session.mf4.sha256" then some refusedFile
    else none
  sessionFile := fun _ => none

def refusedResult : UploadFileResult where
  localPath := ascii "out/session.mf4.sha256"
  objectKey := ascii "ego-sessions/s1/offline/session.mf4.sha256"
  sizeBytes := 2
  status := ascii "ok"

def twoFilesReport : UploadReport :=
  { uploadedReport with files := [uploadedResult, refusedResult] }

theorem twoFiles_okMeansUploaded :
    (∃ first second, uploadFile uploadConfig (ascii "s1") (ascii "offline") refusedFile =
      .ok (refusedResult, [first, second]) ∧ first.httpStatus = 503 ∧ second.httpStatus = 200) ∧
    OkMeansUploaded uploadConfig twoFiles twoFilesReport := by
  refine ⟨⟨_, _, rfl, rfl, rfl⟩, ?_⟩
  refine ((okMeansUploaded_iff uploadConfig).2 twoFiles false .success twoFilesReport rfl).mpr
    fun _ _ job mem => ?_
  rcases List.mem_cons.mp mem with rfl | mem
  · intro _ _ k _
    have room : 3 ≤ 100 := by decide
    exact ⟨fun b dropped => absurd dropped List.not_mem_nil, room⟩
  · obtain rfl : job = (ascii "offline", refusedFile) := List.mem_singleton.mp mem
    intro _ _ k _
    have room : 2 ≤ (refusedFile.put k).written := by
      rcases Nat.eq_zero_or_pos k with rfl | later
      · decide
      · have others : refusedFile.put k = answered := if_neg later.ne'
        rw [others]
        decide
    exact ⟨fun b dropped => absurd dropped List.not_mem_nil, room⟩

/-- An empty object is sent in place of a file that cannot be opened, and everything is reported as
ok. -/
theorem closedFile_reportedOk :
    uploadSession uploadConfig (sessionOf closedFile) false = .ok (.success, some uploadedReport) ∧
      uploadFile uploadConfig (ascii "s1") (ascii "offline") closedFile =
        .ok (uploadedResult,
          [{ objectKey := uploadedResult.objectKey, body := [], httpStatus := 200 }]) ∧
      ¬ OkMeansUploaded uploadConfig (sessionOf closedFile) uploadedReport := by
  have sent : uploadFile uploadConfig (ascii "s1") (ascii "offline") closedFile =
      .ok (uploadedResult,
        [{ objectKey := uploadedResult.objectKey, body := [], httpStatus := 200 }]) := rfl
  refine ⟨rfl, sent, fun uploaded => ?_⟩
  obtain ⟨job, at_0, puts, run, put, mem, -, -, whole, -⟩ := uploaded.1 0 uploadedResult rfl rfl
  obtain rfl : (ascii "offline", closedFile) = job := Option.some.inj at_0
  have same := run.symm.trans sent
  cases same
  cases List.mem_singleton.mp mem
  exact absurd whole (by decide)

end S3Uploader

end LocalPC.Offline
