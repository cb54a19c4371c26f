import LocalPC.Offline.DaemonSessions
import LocalPC.Offline.UploadedObjects

namespace LocalPC.Offline
open Lib Contract LocalPC.Runtime

/-- The files that are uploaded where the configuration names none: `resolve_s3_credentials`. -/
def S3Config.resolveFiles (config : S3Config) : S3Config :=
  { config with
    includeFiles :=
      if config.includeFiles = [] then
        [ascii "session.mf4", ascii "session.mf4.sha256", ascii "session_report.json",
          ascii "validation_report.json", ascii "sync_report.json", ascii "scene_events.json",
            ascii "scene_segments.json",
          ascii "data_quality_report.json", ascii "events_report.json",
            ascii "upload_manifest.json"]
      else config.includeFiles
    sessionIncludeFiles :=
      if config.sessionIncludeFiles = [] then
        [ascii "ego_manifest.json", ascii "session_metadata.json", ascii "scenario_metadata.json",
          ascii "source_metadata.json", ascii "final_runtime_summary.json",
            ascii "source.bin", ascii "ego.index"]
      else config.sessionIncludeFiles }

theorem slash_notMem_chunkFilename (i : Nat) : slash ∉ chunkFilename i := by
  rw [chunkFilename, List.append_assoc, List.mem_append, List.mem_append]
  rintro (front | digits | back)
  · exact absurd front (by decide)
  · exact absurd (isDigit_of_mem_decimal slash digits) (by decide)
  · exact absurd back (by decide)

namespace S3Uploader

theorem isEgoChunk_chunkFilename (i : Nat) : isEgoChunk (chunkFilename i) = true := by
  have front : (chunkFilename i).take 4 = ascii "ego_" := by
    rw [chunkFilename, List.append_assoc]
    exact List.take_left' rfl
  have back : (chunkFilename i).drop ((chunkFilename i).length - 4) = ascii ".bin" := by
    have size : (chunkFilename i).length - 4 = (ascii "ego_" ++ decimal i).length := by
      rw [chunkFilename, List.length_append]
      rfl
    rw [size, chunkFilename]
    exact List.drop_left
  have long : 8 ≤ (chunkFilename i).length := by
    rw [chunkFilename, List.length_append, List.length_append]
    show 8 ≤ 4 + (decimal i).length + 4
    omega
  rw [isEgoChunk, front, back, decide_eq_true long]
  rfl

theorem exists_mem_destutter {α β : Type*} [DecidableEq β] (f : α → β) {l : List α}
    {a : α} (member : a ∈ l) :
    ∃ b ∈ l.destutter fun a b => f a ≠ f b, f b = f a := by
  have go (b : α) (l : List α) {a : α} (member : a ∈ b :: l) :
      ∃ c ∈ l.destutter' (fun a b => f a ≠ f b) b, f c = f a := by
    induction l generalizing b with
    | nil => exact ⟨b, List.mem_destutter' _ _ _, congrArg f (List.mem_singleton.mp member).symm⟩
    | cons head l ih =>
        by_cases differs : f b ≠ f head
        · rw [List.destutter'_cons_pos l differs]
          rcases List.mem_cons.mp member with rfl | later
          · exact ⟨a, List.mem_cons_self, rfl⟩
          · obtain ⟨c, kept, same⟩ := ih head later
            exact ⟨c, List.mem_cons_of_mem _ kept, same⟩
        · rw [List.destutter'_cons_neg l differs]
          have equal : f b = f head := not_not.mp differs
          rcases List.mem_cons.mp member with rfl | later
          · exact ih a List.mem_cons_self
          rcases List.mem_cons.mp later with rfl | later
          · exact ⟨b, List.mem_destutter' _ _ _, equal⟩
          · exact ih b (List.mem_cons_of_mem _ later)
  cases l with
  | nil => cases member
  | cons b l => exact go b l member

structure FindsIn (io : SessionIo) (sessionDir : Bytes) (session : Dir) : Prop where
  opened : ∀ name file, io.sessionFile name = some file → session.lookup name = some file.content
  present : ∀ name ∈ session, (io.sessionFile name).isSome = true
  entry : ∀ name, slash ∉ name → ∀ file ∈ io.sessionEntries, file.path = joinPath sessionDir name →
    session.lookup name = some file.content
  listed : ∀ name ∈ session, ∃ file ∈ io.sessionEntries, file.path = joinPath sessionDir name

section Objects
variable {config : S3Config} {io : SessionIo} {session : Dir} {sessionDir offlineDir name : Bytes}
  (laid : LaidOut config io sessionDir offlineDir) (finds : FindsIn io sessionDir session)
include laid finds

theorem content_of_collected {file : SourceFile} (member : file ∈ collectSessionFiles config io) :
    session.lookup (filename file.path) = some file.content ∧
      (filename file.path ∈ config.sessionIncludeFiles ∨
        isEgoChunk (filename file.path) = true) := by
  rcases found_of_collected member with ⟨name, listed, isFile⟩ | ⟨listed, isChunk⟩
  · rw [laid.sessionFile name file isFile, filename_joinPath (laid.sessionNames name listed)]
    exact ⟨finds.opened name file isFile, .inl listed⟩
  · obtain ⟨name, plain, path⟩ := laid.entries file listed
    rw [path, filename_joinPath plain] at isChunk ⊢
    exact ⟨finds.entry name plain file listed path, .inr isChunk⟩

theorem collected_iff (on : config.includeSessionFiles = true) (plain : slash ∉ name) :
    (∃ file ∈ collectSessionFiles config io, filename file.path = name) ↔
      name ∈ session ∧ (name ∈ config.sessionIncludeFiles ∨ isEgoChunk name = true) := by
  constructor
  · rintro ⟨file, member, rfl⟩
    obtain ⟨content, kind⟩ := content_of_collected laid finds member
    exact ⟨AList.lookup_isSome.mp (content ▸ rfl), kind⟩
  · rintro ⟨member, kind⟩
    have found : ∃ file ∈ config.sessionIncludeFiles.filterMap io.sessionFile ++
        io.sessionEntries.filter (fun file => isEgoChunk (filename file.path)),
          file.path = joinPath sessionDir name := by
      rcases kind with included | chunk
      · obtain ⟨file, isFile⟩ := Option.isSome_iff_exists.mp (finds.present name member)
        exact ⟨file, List.mem_append_left _ (List.mem_filterMap.mpr ⟨name, included, isFile⟩),
          laid.sessionFile name file isFile⟩
      · obtain ⟨file, listed, path⟩ := finds.listed name member
        have isChunk : isEgoChunk (filename file.path) =
            true := by rw [path, filename_joinPath plain, chunk]
        exact ⟨file, List.mem_append_right _ (List.mem_filter.mpr ⟨listed, isChunk⟩), path⟩
    obtain ⟨file, listed, path⟩ := found
    obtain ⟨kept, inside, same⟩ :=
      exists_mem_destutter SourceFile.path (List.mem_mergeSort.mpr listed)
    refine ⟨kept, ?_, by rw [same, path, filename_joinPath plain]⟩
    rw [collectSessionFiles, if_neg (not_not.mpr on)]
    exact inside

end Objects

structure Uploaded (config : S3Config) (io : SessionIo) (before after : Bytes → Option Bytes) :
    Prop where
  ok : ∃ code report, uploadSession config io false = .ok (code, some report) ∧
    report.uploadStatus = ascii "ok"
  sends : ∀ job ∈ jobs config io, SendsWhole config job.2
  writes : AfterWrites (sessionWrites config io) before after

def sessionKey (config : S3Config) (io : SessionIo) (name : Bytes) : Bytes :=
  objectKey config (readSessionId io) [] name

section Objects
variable {config : S3Config} {io : SessionIo} {session : Dir} {sessionDir offlineDir name : Bytes}
  {before after : Bytes → Option Bytes} (laid : LaidOut config io sessionDir offlineDir)
  (finds : FindsIn io sessionDir session) (uploaded : Uploaded config io before after)
include laid finds uploaded

theorem Uploaded.object_eq (on : config.includeSessionFiles = true) (plain : slash ∉ name) :
    after (sessionKey config io name) =
      if name ∈ session ∧ (name ∈ config.sessionIncludeFiles ∨ isEgoChunk name = true) then
        session.lookup name
      else before (sessionKey config io name) := by
  obtain ⟨code, report, run, status⟩ := uploaded.ok
  split
  next kind =>
    obtain ⟨file, member, named⟩ := (collected_iff laid finds on plain).mpr kind
    have job : ([], file) ∈ jobs config io := List.mem_append_left _ (List.mem_map_of_mem member)
    have content := (content_of_collected laid finds member).1
    rw [named] at content
    rw [content, sessionKey, ← named]
    exact object_of_job run status laid uploaded.sends uploaded.writes job
  next kind =>
    refine object_of_others uploaded.writes fun job member same => ?_
    rcases List.mem_append.mp member with inside | inside
    · obtain ⟨file, listed, rfl⟩ := List.mem_map.mp inside
      obtain ⟨other, plain', is, -⟩ := laid.session_name listed
      have names := (objectKey_injective (.inl rfl) (.inl rfl) (is ▸ plain') plain same).2
      exact kind ((collected_iff laid finds on plain).mp ⟨file, listed, names⟩)
    · obtain ⟨file, listed, rfl⟩ := List.mem_map.mp inside
      obtain ⟨other, plain', is, -⟩ := laid.offline_name listed
      have apart := (objectKey_injective (.inr rfl) (.inl rfl) (is ▸ plain') plain same).1
      exact absurd apart (by decide)

end Objects

def CopyOf (config : S3Config) (io : SessionIo) (bucket : Bytes → Option Bytes) (dir : Dir) :
    Prop :=
  ∀ name, slash ∉ name → dir.lookup name = bucket (sessionKey config io name)

/-- A session that was uploaded, in whose place in the bucket there was nothing else, and its copy. -/
structure Fetched (config : S3Config) (session dir : Dir) : Prop where
  on : config.includeSessionFiles = true
  copied : ∃ (io : SessionIo) (sessionDir offlineDir : Bytes) (before after : Bytes → Option Bytes),
    LaidOut config io sessionDir offlineDir ∧ FindsIn io sessionDir session ∧
      Uploaded config io before after ∧
      (∀ name, slash ∉ name → name ∉ session → before (sessionKey config io name) = none) ∧
        CopyOf config io after dir

theorem Fetched.lookup_eq {config : S3Config} {session dir : Dir} {name : Bytes}
    (fetched : Fetched config session dir) (plain : slash ∉ name)
    (kind : name ∈ config.sessionIncludeFiles ∨ isEgoChunk name = true) :
    dir.lookup name = session.lookup name := by
  obtain ⟨io, sessionDir, offlineDir, before, after, laid, finds, uploaded, clean, copy⟩ :=
    fetched.copied
  rw [copy name plain, uploaded.object_eq laid finds fetched.on plain]
  by_cases member : name ∈ session
  · rw [if_pos ⟨member, kind⟩]
  · rw [if_neg fun both => member both.1, clean name plain member, AList.lookup_eq_none.mpr member]

theorem Fetched.names {config : S3Config} {session dir : Dir}
    (fetched : Fetched config session dir) :
    ∀ name ∈ config.sessionIncludeFiles, slash ∉ name := by
  obtain ⟨io, sessionDir, offlineDir, before, after, laid, -⟩ := fetched.copied
  exact laid.sessionNames

end S3Uploader

theorem backed_resolveFiles {config : S3Config}
    (unset : config.sessionIncludeFiles = []) {opts : RunOptions} (own : opts.sourceBin = []) :
    ∀ name ∈ manifestName :: Pipeline.sideFiles opts,
      name ∈ config.resolveFiles.sessionIncludeFiles := by
  have source : Pipeline.sourcePath opts = ascii "source.bin" := if_pos own
  rw [Pipeline.sideFiles, source, S3Config.resolveFiles, if_pos unset]
  dsimp only
  decide

section Copies

theorem exists_of_forall₂ {α β : Type*} {R : α → β → Prop} {as : List α} {bs : List β}
    (all : List.Forall₂ R as bs) {b : β} (member : b ∈ bs) : ∃ a ∈ as, R a b := by
  induction all with
  | nil => cases member
  | cons here rest ih =>
      rcases List.mem_cons.mp member with rfl | later
      · exact ⟨_, List.mem_cons_self, here⟩
      · obtain ⟨a, listed, related⟩ := ih later
        exact ⟨a, List.mem_cons_of_mem _ listed, related⟩

variable {config : RuntimeConfig} {p : Daemon config × FrameTrace config.maxPayloadBytes}

/-- In the copy of a session that the daemon has finished, the pipeline finds frames that were
received, in their order, and up to an upload its run is that on the session itself. -/
theorem copies_alike (reached : (tracedDaemon config).Reach (fun p e => p.1.SavesSessions e) p)
    (inTime : ∀ frame ∈ p.2.received, InTime frame.bytes)
    (small : (p.2.received.map ContractFrame.bytes).flatten.length < 2 ^ 63)
    {session : ClosedSession config.maxPayloadBytes} (finished : session ∈ p.1.closed)
    {s3 : S3Config} {dir : Dir}
    (fetched : S3Uploader.Fetched s3 session.dir dir) {opts : RunOptions}
    (backed : ∀ name ∈ manifestName :: Pipeline.sideFiles opts, name ∈ s3.sessionIncludeFiles) :
    ∃ frames, frames.Sublist (p.2.received.map ContractFrame.bytes) ∧
      ReadsFrames session.dir frames ∧
      ReadsFrames dir frames ∧
        ∀ (cfg : PipelineConfig) (io : Pipeline.RunIo),
          Pipeline.RunAlike cfg opts io session.dir dir := by
  obtain ⟨sessions, saved, below⟩ := savedIn_of_reach reached
  obtain ⟨segments, listed, here⟩ := exists_of_forall₂ saved finished
  have known : segments.flatten.Sublist (p.2.received.map ContractFrame.bytes) :=
    (List.sublist_flatten_of_mem listed).flatten.trans below
  have named {name : Bytes} (member : name ∈ manifestName :: Pipeline.sideFiles opts) :
      dir.lookup name = session.dir.lookup name :=
    fetched.lookup_eq (fetched.names name (backed name member)) (.inl (backed name member))
  have chunk (i : Nat) : dir.lookup (chunkFilename i) = session.dir.lookup (chunkFilename i) :=
    fetched.lookup_eq (slash_notMem_chunkFilename i) (.inr (S3Uploader.isEgoChunk_chunkFilename i))
  have reads := readsFrames_of_known here (fun _ _ _ found => found) known inTime small
  have copied : ReadsFrames dir segments.flatten := by
    refine readsFrames_of_known here (fun name text kind found => ?_) known inTime small
    rcases kind with rfl | ⟨i, rfl⟩
    · exact (named List.mem_cons_self).trans found
    · exact (chunk i).trans found
  exact ⟨_, known, reads, copied, fun cfg io =>
    Pipeline.runAlike reads copied (fun name member => named (List.mem_cons_of_mem _ member)) io⟩

end Copies

namespace S3Uploader

def sentFile (name content : Bytes) : SourceFile where
  path := joinPath (ascii "s1") name
  content := content
  got := content.length
  put := fun _ => { answered with written := content.length }

def filesOf (session : Dir) : SessionIo where
  sessionDirName := ascii "s1"
  offlineFile := fun _ => none
  sessionFile := fun name => (session.lookup name).map (sentFile name)
  sessionEntries := session.keys.map fun name => sentFile name ((session.lookup name).getD [])

def sessionConfig : S3Config :=
  S3Config.resolveFiles { uploadConfig with includeSessionFiles := true }

section Sent
variable {session : Dir}

theorem laidOut_filesOf (plain : ∀ name ∈ session, slash ∉ name) :
    LaidOut sessionConfig (filesOf session) (ascii "s1") (ascii "out") where
  offlineFile _ _ found := absurd found.symm (Option.some_ne_none _)
  sessionFile name file found := by
    obtain ⟨content, -, rfl⟩ := Option.map_eq_some_iff.mp found
    rfl
  entries file member := by
    obtain ⟨name, key, rfl⟩ := List.mem_map.mp member
    exact ⟨name, plain name (AList.mem_keys.mpr key), rfl⟩
  offlineNames := by decide
  sessionNames := by decide

theorem findsIn_filesOf (plain : ∀ name ∈ session, slash ∉ name) :
    FindsIn (filesOf session) (ascii "s1") session where
  opened name file found := by
    obtain ⟨content, listed, rfl⟩ := Option.map_eq_some_iff.mp found
    exact listed
  present name member := by
    show ((session.lookup name).map (sentFile name)).isSome = true
    rw [Option.isSome_map]
    exact AList.lookup_isSome.mpr member
  entry name plainName file member path := by
    obtain ⟨other, key, rfl⟩ := List.mem_map.mp member
    have inside : other ∈ session := AList.mem_keys.mpr key
    obtain rfl : other = name := by
      rw [← filename_joinPath (plain other inside), ← filename_joinPath plainName, ← path]
      rfl
    obtain ⟨content, found⟩ := Option.isSome_iff_exists.mp (AList.lookup_isSome.mpr inside)
    rw [found]
    rfl
  listed name member := ⟨_, List.mem_map_of_mem (AList.mem_keys.mp member), rfl⟩

theorem exists_sentFile {file : SourceFile}
    (member : file ∈ collectSessionFiles sessionConfig (filesOf session)) :
    ∃ name content, file = sentFile name content := by
  rcases found_of_collected member with ⟨name, -, isFile⟩ | ⟨listed, -⟩
  · obtain ⟨content, -, rfl⟩ := Option.map_eq_some_iff.mp isFile
    exact ⟨name, content, rfl⟩
  · obtain ⟨name, -, rfl⟩ := List.mem_map.mp listed
    exact ⟨name, _, rfl⟩

theorem uploadFileBatch_sent (sessionId subdir : Bytes) {files : List SourceFile}
    (sent : ∀ file ∈ files, ∃ name content, file = sentFile name content) (report : UploadReport) :
    ∃ code report', uploadFileBatch sessionConfig sessionId subdir files report true =
      .ok (code, report', true) := by
  induction files generalizing report with
  | nil => exact ⟨_, _, rfl⟩
  | cons file files ih =>
      obtain ⟨name, content, rfl⟩ := sent _ List.mem_cons_self
      have here : ∃ result puts,
          uploadFile sessionConfig sessionId subdir (sentFile name content) = .ok (result, puts) ∧
          result.status = ascii "ok" := ⟨_, _, rfl, rfl⟩
      obtain ⟨result, puts, ran, status⟩ := here
      obtain ⟨code, report', rest⟩ :=
        ih (fun file member => sent file (List.mem_cons_of_mem _ member))
        { report with files := report.files ++ [result] }
      refine ⟨code, report', ?_⟩
      rw [uploadFileBatch, ran]
      show uploadFileBatch _ _ _ _ _ (true && result.status == ascii "ok") = _
      rw [status]
      exact rest

theorem uploaded_filesOf (plain : ∀ name ∈ session, slash ∉ name)
    (listed : manifestName ∈ session) :
    ∃ after, Uploaded sessionConfig (filesOf session) (fun _ => none) after := by
  have gate : gateBlocked sessionConfig (filesOf session)
      (readPipelineStatus (filesOf session)) = none := rfl
  have reports : collectFiles sessionConfig (filesOf session) = [] := rfl
  have included : manifestName ∈ sessionConfig.sessionIncludeFiles := by decide
  obtain ⟨file, member, -⟩ :=
    (collected_iff (laidOut_filesOf plain) (findsIn_filesOf plain) rfl (by decide)).mpr
    ⟨listed, .inl included⟩
  have some_ :
      ¬(collectFiles sessionConfig (filesOf session) = [] ∧
        collectSessionFiles sessionConfig (filesOf session) = []) :=
    fun both => List.not_mem_nil (both.2 ▸ member)
  have sent {file : SourceFile}
      (member : file ∈ collectSessionFiles sessionConfig (filesOf session)) :=
        exists_sentFile member
  obtain ⟨after, writes⟩ :=
    AfterWrites.exists_after (sessionWrites sessionConfig (filesOf session)) fun _ => none
  refine ⟨after, ?_, fun job member => ?_, writes⟩
  · unfold uploadSession
    rw [if_neg (by decide)]
    dsimp only
    rw [gate]
    dsimp only
    rw [if_neg some_, reports]
    obtain ⟨code, report, sessionBatch⟩ :=
      @uploadFileBatch_sent (readSessionId (filesOf session)) []
      (collectSessionFiles sessionConfig (filesOf session)) (fun file member => sent member)
      { generatedAtUtc := (filesOf session).generatedAtUtc
        bucket := sessionConfig.bucket
        sessionId := readSessionId (filesOf session)
        keyPrefix :=
          trimSlashes sessionConfig.keyPrefix ++ slash :: readSessionId (filesOf session) }
    rw [sessionBatch]
    exact ⟨_, _, rfl, rfl⟩
  · rcases List.mem_append.mp member with inside | inside
    · obtain ⟨file, listed, rfl⟩ := List.mem_map.mp inside
      obtain ⟨name, content, rfl⟩ := sent listed
      intro _ _ k _
      exact ⟨fun b dropped => absurd dropped (by simp [sentFile]), le_rfl⟩
    · rw [reports] at inside
      cases inside

theorem fetched_filesOf (listed : manifestName ∈ session)
    (kinds : ∀ name ∈ session, slash ∉ name ∧
      (name = SideFile.runtimeReport.name ∨ name ∈ sessionConfig.sessionIncludeFiles ∨
        isEgoChunk name = true)) :
    Fetched sessionConfig session (session.erase SideFile.runtimeReport.name) := by
  have plain : ∀ name ∈ session, slash ∉ name := fun name member => (kinds name member).1
  obtain ⟨after, uploaded⟩ := uploaded_filesOf plain listed
  refine ⟨rfl, filesOf session, ascii "s1", ascii "out", fun _ => none,
    after, laidOut_filesOf plain, findsIn_filesOf plain, uploaded, fun _ _ _ => rfl,
      fun name plainName => ?_⟩
  rw [uploaded.object_eq (laidOut_filesOf plain) (findsIn_filesOf plain) rfl plainName]
  by_cases report : name = SideFile.runtimeReport.name
  · have left : ¬(SideFile.runtimeReport.name ∈ sessionConfig.sessionIncludeFiles ∨
        isEgoChunk SideFile.runtimeReport.name = true) := by
      decide
    rw [report, AList.lookup_erase, if_neg fun both => left both.2]
  · rw [AList.lookup_erase_ne report]
    split
    next => rfl
    next none =>
      exact AList.lookup_eq_none.mpr fun member =>
        none ⟨member, (kinds name member).2.resolve_left report⟩

end Sent
end S3Uploader

theorem recordedTrace_copied : Daemon.recordedTrace.1.closed.length = 2 ∧
    ∀ session ∈ Daemon.recordedTrace.1.closed, ∃ frames,
      ReadsFrames (session.dir.erase SideFile.runtimeReport.name) frames ∧
        Pipeline.RunAlike {} {} offlineIo session.dir
          (session.dir.erase SideFile.runtimeReport.name) := by
  refine ⟨Daemon.recordedTrace_keepsFrames.2.2.2.2, fun session finished => ?_⟩
  obtain ⟨-, -, inTime, small⟩ := recordedTrace_savesAll
  have files : ∀ session ∈ Daemon.recordedTrace.1.closed, manifestName ∈ session.dir.keys ∧
      ∀ name ∈ session.dir.keys,
      slash ∉ name ∧ (name = SideFile.runtimeReport.name ∨
        name ∈ S3Uploader.sessionConfig.sessionIncludeFiles ∨
          S3Uploader.isEgoChunk name = true) := by
    decide +kernel
  obtain ⟨listed, kinds⟩ := files session finished
  obtain ⟨frames, -, -, copied, alike⟩ :=
    copies_alike recordedTrace_reach_savesSessions inTime small finished
    (S3Uploader.fetched_filesOf (AList.mem_keys.mpr listed) fun name member =>
      kinds name (AList.mem_keys.mp member))
    (show ∀ name ∈ manifestName :: Pipeline.sideFiles {}, _ from backed_resolveFiles rfl rfl)
  exact ⟨frames, copied, alike {} offlineIo⟩

end LocalPC.Offline
