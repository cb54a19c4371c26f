import Mathlib.Data.List.Sort
import LocalPC.Lib.UncertainWrites
import LocalPC.Offline.S3Uploader

namespace LocalPC.Offline
open Lib

theorem filename_joinPath {base name : Bytes} (plain : slash ∉ name) :
    filename (joinPath base name) = name := by
  have behind (front : Bytes) : filename (front ++ slash :: name) = name := by
    rw [filename, List.splitOn_append_cons_self,
      List.splitOn_eq_singleton plain, List.getLastD_concat]
  unfold joinPath
  split
  · rw [filename, List.splitOn_eq_singleton plain]
    rfl
  · split
    next ends =>
      obtain ⟨front, rfl⟩ := List.getLast?_eq_some_iff.mp ends
      rw [List.append_assoc]
      exact behind front
    next => exact behind base

theorem pathLe_antisymm {a b : Bytes} (le : pathLe a b = true)
    (ge : pathLe b a = true) : a = b := by
  rw [pathLe, decide_eq_true_iff] at le ge
  have parts := List.le_antisymm le ge
  rw [← @List.intercalate_splitOn _ a _ _ slash, parts, List.intercalate_splitOn]

theorem pathLe_trans {a b c : Bytes} (le : pathLe a b = true)
    (le' : pathLe b c = true) : pathLe a c = true := by
  rw [pathLe, decide_eq_true_iff] at *
  exact List.le_trans le le'

theorem pathLe_total (a b : Bytes) : (pathLe a b || pathLe b a) = true := by
  rw [Bool.or_eq_true, pathLe, pathLe, decide_eq_true_iff, decide_eq_true_iff]
  exact List.le_total ..

namespace S3Uploader
variable {config : S3Config}

def IsSubdir (subdir : Bytes) : Prop := subdir = [] ∨ subdir = ascii "offline"

theorem objectKey_injective {sessionId subdir subdir' name name' : Bytes} (known : IsSubdir subdir)
    (known' : IsSubdir subdir') (plain : slash ∉ name) (plain' : slash ∉ name')
    (same : objectKey config sessionId subdir name = objectKey config sessionId subdir' name') :
    subdir = subdir' ∧ name = name' := by
  have offline : ascii "offline" ≠ [] := by decide
  have inner {x y : Bytes} (plain : slash ∉ x) : x ≠ ascii "offline" ++ slash :: y := fun is =>
    plain (is ▸ List.mem_append_right _ List.mem_cons_self)
  have deep (name : Bytes) : trimSlashes config.keyPrefix ++ slash :: sessionId ++ slash ::
      ascii "offline" ++ slash :: name =
      trimSlashes config.keyPrefix ++ slash :: sessionId ++ slash ::
        (ascii "offline" ++ slash :: name) := by
    rw [List.append_assoc _ (slash :: ascii "offline")]
    rfl
  rcases known with rfl | rfl <;> rcases known' with rfl | rfl <;> unfold objectKey at same
  · rw [if_pos rfl, if_pos rfl] at same
    exact ⟨rfl, List.cons_injective (List.append_cancel_left same)⟩
  · rw [if_pos rfl, if_neg offline, deep] at same
    exact absurd (List.cons_injective (List.append_cancel_left same)) (inner plain)
  · rw [if_pos rfl, if_neg offline, deep] at same
    exact absurd (List.cons_injective (List.append_cancel_left same)).symm (inner plain')
  · rw [if_neg offline, if_neg offline] at same
    exact ⟨rfl, List.cons_injective (List.append_cancel_left same)⟩

theorem nodup_collectSessionFiles (config : S3Config) (io : SessionIo) :
    ((collectSessionFiles config io).map SourceFile.path).Nodup := by
  unfold collectSessionFiles
  split
  · exact List.nodup_nil
  dsimp only
  generalize config.sessionIncludeFiles.filterMap io.sessionFile ++
    io.sessionEntries.filter (fun file => isEgoChunk (filename file.path)) = found
  let le (a b : SourceFile) : Bool := pathLe a.path b.path
  have sorted : (found.mergeSort le).Pairwise fun a b => le a b = true :=
    @List.pairwise_mergeSort _ le (fun _ _ _ => pathLe_trans)
      (fun a b => pathLe_total a.path b.path) found
  let once := (found.mergeSort le).destutter fun a b => a.path ≠ b.path
  have chain : once.IsChain fun a b => a.path ≠ b.path := List.isChain_destutter _ _
  have ordered : once.Pairwise fun a b => le a b = true :=
    sorted.sublist (List.destutter_sublist _ _)
  let before (a b : SourceFile) : Prop := le a b = true ∧ a.path ≠ b.path
  have trans : Trans before before before :=
    ⟨fun {a b c} ab bc =>
      ⟨pathLe_trans ab.1 bc.1, fun same => ab.2 (pathLe_antisymm ab.1 (same ▸ bc.1))⟩⟩
  have both : once.IsChain before := List.isChain_iff_getElem.mpr fun i bound =>
    ⟨List.pairwise_iff_getElem.mp ordered i (i + 1) (by omega) bound (Nat.lt_succ_self i),
      chain.getElem i bound⟩
  exact List.pairwise_map.mpr (both.pairwise.imp And.right)

theorem found_of_collected {io : SessionIo} {file : SourceFile}
    (member : file ∈ collectSessionFiles config io) :
    (∃ name ∈ config.sessionIncludeFiles, io.sessionFile name = some file) ∨
      file ∈ io.sessionEntries ∧ isEgoChunk (filename file.path) = true := by
  unfold collectSessionFiles at member
  split at member
  · cases member
  have found := List.mem_mergeSort.mp ((List.destutter_sublist _ _).subset member)
  exact (List.mem_append.mp found).imp List.mem_filterMap.mp List.mem_filter.mp

/-- What the attempts for a file write, whether they are answered or not. An attempt that throws
ends the run. -/
def fileWrites (config : S3Config) (sessionId subdir : Bytes) (file : SourceFile) :
    List (Write Bytes Bytes) :=
  let key := objectKey config sessionId subdir (filename file.path)
  match readFileBytes file with
  | .error _ => []
  | .ok body =>
      match attempts
        (fun attempt => s3PutObject config.accessKey config.secretKey key body (file.put attempt))
          endsAttempts
          (config.maxRetries + 1).toNat 0 with
      | .error _ => []
      | .ok outcomes => (List.range outcomes.length).map fun attempt =>
          { key
            value := body.take (file.put attempt).written
            confirmed := (answer config (file.put attempt)).any isSuccess }

def sessionWrites (config : S3Config) (io : SessionIo) : List (Write Bytes Bytes) :=
  (jobs config io).flatMap fun job => fileWrites config (readSessionId io) job.1 job.2

theorem key_of_mem_fileWrites {sessionId subdir : Bytes} {file : SourceFile} {w : Write Bytes Bytes}
    (member : w ∈ fileWrites config sessionId subdir file) :
    w.key = objectKey config sessionId subdir (filename file.path) := by
  unfold fileWrites at member
  dsimp only at member
  split at member
  · cases member
  · split at member
    · cases member
    · obtain ⟨attempt, -, rfl⟩ := List.mem_map.mp member
      rfl

theorem confirms_fileWrites {sessionId subdir : Bytes} {file : SourceFile}
    {result : UploadFileResult} {puts : List Put}
    (run : uploadFile config sessionId subdir file = .ok (result, puts))
    (status : result.status = ascii "ok") (sends : SendsWhole config file) :
    Confirms (objectKey config sessionId subdir (filename file.path)) file.content
      (fileWrites config sessionId subdir file) := by
  refine ⟨fun w member => key_of_mem_fileWrites member, ?_⟩
  obtain ⟨sized, body, outcomes, read, tried, -, -, -, statusIff⟩ := uploadFile_cases run
  obtain ⟨outcome, last, ok⟩ := statusIff.mp status
  obtain ⟨front, rfl⟩ := List.getLast?_eq_some_iff.mp last
  obtain ⟨few, actions, goOn⟩ := attempts_spec tried
  have stopped : StopsAt (fun attempt => s3PutObject config.accessKey config.secretKey
      (objectKey config sessionId subdir (filename file.path)) body (file.put attempt)) endsAttempts
      (config.maxRetries + 1).toNat 0 front.length outcome := by
    rw [List.length_append, List.length_singleton] at few goOn
    refine ⟨few,
      actions _ _ List.getElem?_concat_length, by rw [endsAttempts, ok]; rfl, fun j before => ?_⟩
    have found : (front ++ [outcome])[j]? = some front[j] := by
      rw [List.getElem?_append_left before, List.getElem?_eq_getElem before]
    exact ⟨_, actions j _ found, goOn j _ found (Nat.succ_lt_succ before)⟩
  have succeeds := stopsAt_iff_succeedsAt.mp ⟨outcome, ok, stopped⟩
  have whole :=
    (sent_whole_iff read _).mpr (sends sized (seekable_of_read read) front.length succeeds)
  unfold fileWrites
  rw [read]
  dsimp only
  rw [tried]
  dsimp only
  rw [List.length_append, List.length_singleton, List.range_succ,
    List.map_append, List.map_singleton, List.getLast?_concat]
  exact ⟨_, rfl, succeeds.2.2.1, whole⟩

/-- The uploader finds the files in two directories, under names without slashes. -/
structure LaidOut (config : S3Config) (io : SessionIo) (sessionDir offlineDir : Bytes) : Prop where
  offlineFile : ∀ name file, io.offlineFile name = some file → file.path = joinPath offlineDir name
  sessionFile : ∀ name file, io.sessionFile name = some file → file.path = joinPath sessionDir name
  entries : ∀ file ∈ io.sessionEntries, ∃ name, slash ∉ name ∧ file.path = joinPath sessionDir name
  offlineNames : ∀ name ∈ config.includeFiles, slash ∉ name
  sessionNames : ∀ name ∈ config.sessionIncludeFiles, slash ∉ name

section
variable {io : SessionIo} {sessionDir offlineDir : Bytes}
  (laid : LaidOut config io sessionDir offlineDir)
include laid

theorem LaidOut.offline_name {file : SourceFile} (member : file ∈ collectFiles config io) :
    ∃ name, slash ∉ name ∧ filename file.path = name ∧ io.offlineFile name = some file := by
  obtain ⟨name, listed, found⟩ := List.mem_filterMap.mp member
  split at found
  · cases found
  · have plain := laid.offlineNames name listed
    refine ⟨name, plain, ?_, found⟩
    rw [laid.offlineFile name file found, filename_joinPath plain]

theorem LaidOut.session_name {file : SourceFile} (member : file ∈ collectSessionFiles config io) :
    ∃ name, slash ∉ name ∧ filename file.path = name ∧ file.path = joinPath sessionDir name := by
  have named {name : Bytes} (plain : slash ∉ name) (path : file.path = joinPath sessionDir name) :
      ∃ name, slash ∉ name ∧ filename file.path = name ∧ file.path = joinPath sessionDir name :=
    ⟨name, plain, by rw [path, filename_joinPath plain], path⟩
  rcases found_of_collected member with ⟨name, listed, isFile⟩ | ⟨listed, -⟩
  · exact named (laid.sessionNames name listed) (laid.sessionFile name file isFile)
  · obtain ⟨name, plain, path⟩ := laid.entries file listed
    exact named plain path

theorem LaidOut.eq_of_key {job job' : Bytes × SourceFile} (member : job ∈ jobs config io)
    (member' : job' ∈ jobs config io)
    (same : objectKey config (readSessionId io) job.1 (filename job.2.path) =
      objectKey config (readSessionId io) job'.1 (filename job'.2.path)) : job = job' := by
  have offline : ascii "offline" ≠ [] := by decide
  have session {file : SourceFile} (member : file ∈ collectSessionFiles config io) : slash ∉
      filename file.path := by
    obtain ⟨name, plain, is, -⟩ := laid.session_name member
    exact is ▸ plain
  have reported {file : SourceFile} (member : file ∈ collectFiles config io) : slash ∉
      filename file.path := by
    obtain ⟨name, plain, is, -⟩ := laid.offline_name member
    exact is ▸ plain
  rcases List.mem_append.mp member with inside | inside <;>
    rcases List.mem_append.mp member' with inside' | inside' <;>
    obtain ⟨a, listed, rfl⟩ := List.mem_map.mp inside <;>
    obtain ⟨b, listed', rfl⟩ := List.mem_map.mp inside'
  · have names :=
      (objectKey_injective (.inl rfl) (.inl rfl) (session listed) (session listed') same).2
    obtain ⟨name, -, is, path⟩ := laid.session_name listed
    obtain ⟨name', -, is', path'⟩ := laid.session_name listed'
    have paths : a.path = b.path := by rw [path, path', ← is, ← is', names]
    rw [List.inj_on_of_nodup_map (nodup_collectSessionFiles config io) listed listed' paths]
  · exact absurd
      (objectKey_injective (.inl rfl) (.inr rfl) (session listed) (reported listed') same).1
        offline.symm
  · exact absurd
      (objectKey_injective (.inr rfl) (.inl rfl) (reported listed) (session listed') same).1 offline
  · have names :=
      (objectKey_injective (.inr rfl) (.inr rfl) (reported listed) (reported listed') same).2
    obtain ⟨name, -, is, found⟩ := laid.offline_name listed
    obtain ⟨name', -, is', found'⟩ := laid.offline_name listed'
    rw [← is, names, is', found'] at found
    cases found
    rfl

end

theorem object_of_job {io : SessionIo} {sessionDir offlineDir : Bytes}
    {code : ExitCode} {report : UploadReport} {before after : Bytes → Option Bytes}
    (run : uploadSession config io false = .ok (code, some report))
    (status : report.uploadStatus = ascii "ok") (laid : LaidOut config io sessionDir offlineDir)
    (sends : ∀ job ∈ jobs config io, SendsWhole config job.2)
    (writes : AfterWrites (sessionWrites config io) before after) {job : Bytes × SourceFile}
    (member : job ∈ jobs config io) :
    after (objectKey config (readSessionId io) job.1 (filename job.2.path)) =
      some job.2.content := by
  rcases uploadSession_cases run with ⟨-, failed, -⟩ | ⟨-, -, uploads, all⟩
  · exact absurd status failed
  have each {job : Bytes × SourceFile} (member : job ∈ jobs config io) :
      Confirms (objectKey config (readSessionId io) job.1 (filename job.2.path)) job.2.content
        (fileWrites config (readSessionId io) job.1 job.2) := by
    obtain ⟨i, bound, rfl⟩ := List.getElem_of_mem member
    have bound' : i < report.files.length := uploads.length_eq ▸ bound
    obtain ⟨puts, run⟩ := uploads.get bound bound'
    exact confirms_fileWrites run (all status _ (List.getElem_mem bound')) (sends _ member)
  rw [sessionWrites, List.flatMap_def] at writes
  refine writes.blocks ⟨_, List.mem_map_of_mem member, each member⟩ fun block listed => ?_
  obtain ⟨other, inside, rfl⟩ := List.mem_map.mp listed
  by_cases same : objectKey config (readSessionId io) job.1 (filename job.2.path) =
      objectKey config (readSessionId io) other.1 (filename other.2.path)
  · obtain rfl := laid.eq_of_key member inside same
    exact .inl (each inside)
  · exact .inr fun w written => (key_of_mem_fileWrites written).trans_ne (Ne.symm same)

theorem object_of_others {io : SessionIo} {before after : Bytes → Option Bytes} {key : Bytes}
    (writes : AfterWrites (sessionWrites config io) before after)
    (absent : ∀ job ∈ jobs config io,
      objectKey config (readSessionId io) job.1 (filename job.2.path) ≠ key) :
    after key = before key := by
  refine writes.other fun w written => ?_
  obtain ⟨job, member, inside⟩ := List.mem_flatMap.mp written
  exact (key_of_mem_fileWrites inside).trans_ne (absent job member)

/-- Whatever the attempts that failed have left in the bucket, behind an upload that is reported as
ok it holds the content of every file, each under a key of its own, and nothing else has changed. -/
theorem uploaded_objects {io : SessionIo} {sessionDir offlineDir : Bytes}
    {code : ExitCode} {report : UploadReport} {before after : Bytes → Option Bytes}
    (run : uploadSession config io false = .ok (code, some report))
    (status : report.uploadStatus = ascii "ok") (laid : LaidOut config io sessionDir offlineDir)
    (sends : ∀ job ∈ jobs config io, SendsWhole config job.2)
    (writes : AfterWrites (sessionWrites config io) before after) :
    (∀ job ∈ jobs config io,
      after (objectKey config (readSessionId io) job.1 (filename job.2.path)) =
        some job.2.content) ∧
      ∀ key, (∀ job ∈ jobs config io,
        objectKey config (readSessionId io) job.1 (filename job.2.path) ≠ key) →
        after key = before key :=
  ⟨fun _ member => object_of_job run status laid sends writes member,
    fun _ absent => object_of_others writes absent⟩

def retriedFile : SourceFile :=
  { openFile with
    put := fun attempt => if attempt = 0 then { answered with curlOutput := none } else answered }

theorem retriedFile_stored :
    ∃ after, AfterWrites
      (sessionWrites uploadConfig (sessionOf retriedFile)) (fun _ => none) after ∧
      after (ascii "ego-sessions/s1/offline/session.mf4") = some [1, 2, 3] := by
  let key := ascii "ego-sessions/s1/offline/session.mf4"
  have twice : sessionWrites uploadConfig (sessionOf retriedFile) =
      [{ key, value := [1, 2, 3], confirmed := false },
        { key, value := [1, 2, 3], confirmed := true }] := rfl
  have writes : AfterWrites (sessionWrites uploadConfig (sessionOf retriedFile)) (fun _ => none)
      (Function.update (fun _ => none) key (some [1, 2, 3])) := by
    rw [twice]
    exact .inr ⟨rfl, .inl rfl⟩
  have run : uploadSession uploadConfig (sessionOf retriedFile) false =
      .ok (.success, some uploadedReport) := rfl
  have laid : LaidOut uploadConfig (sessionOf retriedFile) [] (ascii "out") :=
    { offlineFile := fun name file found => by
        obtain ⟨rfl, is⟩ := Option.ite_none_right_eq_some.mp found
        cases is
        rfl
      sessionFile := fun name file found => nomatch found
      entries := fun file member => nomatch member
      offlineNames := by decide
      sessionNames := by decide }
  refine ⟨_, writes,
    (uploaded_objects run rfl laid (fun job member => ?_) writes).1 (ascii "offline", retriedFile)
    (List.mem_singleton_self _)⟩
  obtain rfl : job = (ascii "offline", retriedFile) := List.mem_singleton.mp member
  intro _ _ k _
  have room : 3 ≤ (retriedFile.put k).written := by
    show 3 ≤ (if k = 0 then _ else _ : PutIo).written
    split <;> decide
  exact ⟨fun b dropped => absurd dropped List.not_mem_nil, room⟩

end S3Uploader
end LocalPC.Offline
