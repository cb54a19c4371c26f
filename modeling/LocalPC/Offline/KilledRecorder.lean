import LocalPC.Runtime.FileTrace
import LocalPC.Offline.Truncation

namespace LocalPC.Offline
open Lib Contract LocalPC.Runtime Json

/-- The pipeline finds these frames in the chunk files of the session, in this order. -/
def ReadsFrames (dir : Dir) (frames : List Bytes) : Prop :=
  ∃ manifest, EgoManifest.fromJson [] dir manifestName = .ok manifest ∧ manifest.chunks ≠ [] ∧
    (EgoLogReader.create dir manifest.chunks).scan dir
      (fun pkt seen => (true, seen ++ [unplaced pkt])) [] =
      frames.map packetOf

/-- All but fewer than `most` of the frames of the calls that have returned are found; `all` has
also the frame of the last call. -/
structure Found (returned all : List Bytes) (most : Nat) (dir : Dir)
    (frames : List Bytes) : Prop where
  reads : ReadsFrames dir frames
  recorded : frames <+: all
  few : returned.length < frames.length + most

/-- What a session directory offers after the recorder has been killed. -/
inductive Recovers (returned all : List Bytes) (most : Nat) (dir : Dir) : Prop
  | manifest {frames : List Bytes} (found : Found returned all most dir frames)
  | temporary (gone : dir.lookup manifestName = none) {text : Bytes}
      (moved : dir.lookup (tmpName manifestName) = some text) {frames : List Bytes}
      (found : Found returned all most (dir.insert manifestName text) frames)
  | neverFlushed (gone : dir.lookup manifestName = none) (few : returned.length < most)

structure Listing (count : Nat) (text : Bytes) (chunks : List Runtime.ChunkInfo) : Prop where
  text : text = manifestJson chunks
  count : chunks.length = count
  named : ∀ (i : Nat) c, chunks[i]? = some c → c.filename = chunkFilename i
  signed : ∀ (i : Nat) c, chunks[i]? = some c → Signed i c

theorem readsFrames_of_files {m : UInt32} {dir : Dir} {segments : List (List Bytes)} {text : Bytes}
    {chunks : List Runtime.ChunkInfo} (found : dir.lookup manifestName = some text)
    (listing : Listing segments.length text chunks) (some_ : segments ≠ [])
    (files : List.Forall₂ (fun i frames => HoldsCut m dir (chunkFilename i) frames)
      (List.range segments.length) segments)
    (accepted : ∀ frame ∈ segments.flatten, Accepted m frame) :
    ReadsFrames dir segments.flatten := by
  rw [listing.text] at found
  obtain ⟨vs, all⟩ := (allRead_chunks_iff chunks).mpr listing.signed
  have read : EgoManifest.fromJson [] dir manifestName =
      .ok (EgoManifest.ofJson [] dir (.object [(ascii "chunks", .array vs)])) := by
    rw [EgoManifest.fromJson, found]
    dsimp only
    rw [jsonParse_manifestJson all]
  obtain ⟨-, paths⟩ := manifest_of_session found listing.named read
  rw [listing.count] at paths
  refine ⟨_, read, fun none => ?_, ?_⟩
  · rw [none] at paths
    exact some_ (List.length_eq_zero_iff.mp
      (List.range_eq_nil.mp (List.map_eq_nil_iff.mp paths.symm)))
  have cut := packets_cut (m := m)
    (List.forall₂_map_left_iff.mp (paths ▸ List.forall₂_map_left_iff.mpr files)) accepted
  rw [← cut]
  have scanned :=
    (EgoLogReader.create dir
      (EgoManifest.ofJson [] dir (.object [(ascii "chunks", .array vs)])).chunks).scan_collect
    dir fun pkt => some (unplaced pkt)
  rw [← List.filterMap_eq_map]
  exact scanned

theorem wholeWithin_isPrefix (cut : Nat) (frames : List Bytes) :
    wholeWithin cut frames <+: frames := by
  induction frames generalizing cut with
  | nil => exact List.prefix_rfl
  | cons frame rest ih =>
      rw [wholeWithin]
      split
      · exact (List.prefix_cons_inj frame).mpr (ih _)
      · exact List.nil_prefix

theorem isPrefix_wholeWithin {cut : Nat} {early late : List Bytes}
    (fits : early.flatten.length ≤ cut) :
    early <+: wholeWithin cut (early ++ late) := by
  induction early generalizing cut with
  | nil => exact List.nil_prefix
  | cons frame rest ih =>
      rw [List.flatten_cons, List.length_append] at fits
      rw [List.cons_append, wholeWithin, if_pos (by omega)]
      exact (List.prefix_cons_inj frame).mpr (ih (by omega))

/-- The chunk files hold the frames of `older` and, in the last one, `early` and `late`; all but
`late` are out of the buffers. -/
structure Saved (older : List (List Bytes)) (early late : List Bytes) (disk : Disk) : Prop where
  whole : ∀ (i : Nat) frames, older[i]? = some frames →
    ∃ file, disk (chunkFilename i) = some file ∧ file.data = frames.flatten ∧ file.Kept
  last : ∃ file, disk (chunkFilename older.length) = some file ∧
    file.data = (early ++ late).flatten ∧
    early.flatten.length ≤ file.synced

def Lists (count : Nat) (name : Bytes) (disk : Disk) : Prop :=
  ∃ file chunks, disk name = some file ∧ file.Kept ∧ Listing count file.data chunks

/-- The manifest between two flushes: it lists all chunk files, or all but one just opened, or there
is none yet. -/
inductive Listed (older : List (List Bytes)) (early : List Bytes) (disk : Disk) : Prop
  | all (lists : Lists (older.length + 1) manifestName disk)
  | rotated (lists : Lists older.length manifestName disk) (some_ : older ≠ []) (empty : early = [])
  | never (gone : disk manifestName = none) (first : older = []) (empty : early = [])

def Renaming (older : List (List Bytes)) (disk : Disk) : Prop :=
  disk manifestName = none ∧ Lists (older.length + 1) (tmpName manifestName) disk

def Safe (returned all : List Bytes) (most : Nat) (disk : Disk) : Prop :=
  ∃ older early late, Saved older early late disk ∧
    (Listed older early disk ∨ Renaming older disk) ∧
    older.flatten ++ early ++ late <+: all ∧
      returned.length < (older.flatten ++ early).length + most

section Recovery
variable {m : UInt32} {older : List (List Bytes)} {early late : List Bytes}
  {disk : Disk} {dir dir' : Dir}

theorem Lists.left {count : Nat} {name : Bytes} (lists : Lists count name disk)
    (leaves : Leaves disk fun name => dir.lookup name) :
    ∃ text chunks, dir.lookup name = some text ∧ Listing count text chunks := by
  obtain ⟨file, chunks, found, kept, listing⟩ := lists
  exact ⟨_, chunks, leaves.kept found kept, listing⟩

theorem Saved.olderFiles (saved : Saved older early late disk)
    (leaves : Leaves disk fun name => dir.lookup name)
    (same : ∀ i ≤ older.length, dir'.lookup (chunkFilename i) = dir.lookup (chunkFilename i)) :
    List.Forall₂ (fun i frames => HoldsCut m dir' (chunkFilename i) frames)
      (List.range older.length) older := by
  refine List.forall₂_iff_get.mpr ⟨List.length_range, fun i bound _ => ?_⟩
  rw [List.length_range] at bound
  obtain ⟨file, found, data, kept⟩ := saved.whole i _ (List.getElem?_eq_getElem bound)
  have content : dir.lookup (chunkFilename i) = some file.data := leaves.kept found kept
  refine ⟨[], Or.inl rfl, ?_⟩
  rw [List.get_eq_getElem, List.get_eq_getElem, List.getElem_range, same i bound.le,
    content, data, List.append_nil]

theorem Saved.files (saved : Saved older early late disk)
    (leaves : Leaves disk fun name => dir.lookup name)
    (same : ∀ i ≤ older.length, dir'.lookup (chunkFilename i) = dir.lookup (chunkFilename i))
    (accepted : ∀ frame ∈ early ++ late, Accepted m frame) :
    ∃ last, early <+: last ∧ last <+: early ++ late ∧
      List.Forall₂ (fun i frames => HoldsCut m dir' (chunkFilename i) frames)
        (List.range (older.length + 1)) (older ++ [last]) := by
  obtain ⟨file, found, data, synced⟩ := saved.last
  obtain ⟨cut, bound, content⟩ := leaves.cut found
  obtain ⟨torn, part, split⟩ := take_flatten accepted cut
  have file' : HoldsCut m dir' (chunkFilename older.length) (wholeWithin cut (early ++ late)) := by
    refine ⟨torn, part, ?_⟩
    rw [same _ le_rfl, ← split, ← data]
    exact content
  refine ⟨_, isPrefix_wholeWithin (le_trans synced bound), wholeWithin_isPrefix cut _, ?_⟩
  rw [List.range_succ]
  exact List.rel_append (saved.olderFiles leaves same) (.cons file' .nil)

theorem Saved.found {returned all : List Bytes} {most : Nat} {text : Bytes}
    {chunks : List Runtime.ChunkInfo} (saved : Saved older early late disk)
    (leaves : Leaves disk fun name => dir.lookup name)
    (same : ∀ i ≤ older.length, dir'.lookup (chunkFilename i) = dir.lookup (chunkFilename i))
    (accepted : ∀ frame ∈ all, Accepted m frame) (recorded : older.flatten ++ early ++ late <+: all)
    (few : returned.length < (older.flatten ++ early).length + most)
    (manifest : dir'.lookup manifestName = some text)
    (listing : Listing (older.length + 1) text chunks) :
    ∃ frames, Found returned all most dir' frames := by
  have inside : ∀ frame ∈ early ++ late, Accepted m frame := fun frame member =>
    accepted frame
      (recorded.subset (by rw [List.append_assoc]; exact List.mem_append_right _ member))
  obtain ⟨last, covers, within, files⟩ := saved.files leaves same inside
  have whole : (older ++ [last]).flatten = older.flatten ++ last := by
    rw [List.flatten_append, List.flatten_singleton]
  have below : (older ++ [last]).flatten <+: all := by
    rw [whole]
    refine List.IsPrefix.trans ?_ recorded
    rw [List.append_assoc]
    exact (List.prefix_append_right_inj _).mpr within
  rw [← List.length_singleton (a := last), ← List.length_append] at listing files
  have some_ : older ++ [last] ≠ [] := List.append_ne_nil_of_right_ne_nil _ (List.cons_ne_nil _ _)
  refine ⟨_, readsFrames_of_files manifest listing some_ files fun frame member =>
    accepted frame (below.subset member), below, ?_⟩
  have more := covers.length_le
  rw [List.length_append] at few
  rw [whole, List.length_append]
  omega

theorem Safe.recovers {returned all : List Bytes} {most : Nat} (safe : Safe returned all most disk)
    (leaves : Leaves disk fun name => dir.lookup name)
    (accepted : ∀ frame ∈ all, Accepted m frame) :
    Recovers returned all most dir := by
  obtain ⟨older, early, late, saved, listed | ⟨gone, lists⟩, recorded, few⟩ := safe
  · cases listed with
    | all lists =>
        obtain ⟨text, chunks, manifest, listing⟩ := lists.left leaves
        obtain ⟨frames, found⟩ :=
          saved.found leaves (fun _ _ => rfl) accepted recorded few manifest listing
        exact .manifest found
    | rotated lists some_ empty =>
        obtain ⟨text, chunks, manifest, listing⟩ := lists.left leaves
        have below : older.flatten <+: all := by
          refine List.IsPrefix.trans ?_ recorded
          rw [List.append_assoc]
          exact List.prefix_append _ _
        refine .manifest
          ⟨readsFrames_of_files manifest listing some_ (saved.olderFiles leaves fun _ _ => rfl)
          fun frame member => accepted frame (below.subset member), below, ?_⟩
        rwa [empty, List.append_nil] at few
    | never gone first empty =>
        refine .neverFlushed (leaves.none gone) ?_
        rwa [first, empty, List.flatten_nil, List.append_nil, List.length_nil, Nat.zero_add] at few
  · obtain ⟨text, chunks, moved, listing⟩ := lists.left leaves
    obtain ⟨frames, found⟩ := saved.found leaves
      (fun i _ => AList.lookup_insert_ne (Files.chunk_ne_manifest i)) accepted recorded few
        (AList.lookup_insert dir) listing
    exact .temporary (leaves.none gone) moved found

end Recovery

structure Tracks (older : List (List Bytes)) (last : List Bytes) (w : ChunkWriter) : Prop where
  id : w.currentChunkId.toNat = older.length
  count : w.chunks.length = older.length + 1
  named : ∀ (i : Nat) c, w.chunks[i]? = some c → c.filename = chunkFilename i
  bytes : ∀ c ∈ w.chunks, c.bytes ≤ (older.flatten ++ last).flatten.length
  times : ∀ c ∈ w.chunks, c.firstTsNs.toNat < 2 ^ 63 ∧ c.lastTsNs.toNat < 2 ^ 63

/-- The times of a frame are numbers that the reader of the manifest takes. -/
def InTime (frame : Bytes) : Prop :=
  (EgoFrameHeader.decode frame).t0Ns.toNat < 2 ^ 63 ∧
    (EgoFrameHeader.decode frame).t1Ns.toNat < 2 ^ 63

namespace Tracks
variable {older : List (List Bytes)} {last : List Bytes} {w : ChunkWriter}

theorem start (config : RuntimeConfig) (now openNow : Int) :
    Tracks [] [] (recordingStart config now openNow).writer := by
  have chunks : (recordingStart config now openNow).writer.chunks =
      [{ filename := chunkFilename 0 }] := rfl
  refine ⟨rfl, rfl, fun i c found => ?_, fun c member => ?_, fun c member => ?_⟩
  · rw [chunks, List.getElem?_singleton] at found
    split at found
    · rename_i zero
      rw [zero]
      cases found
      rfl
    · cases found
  all_goals
    rw [chunks, List.mem_singleton] at member
    subst member
    decide

theorem listing (tracks : Tracks older last w)
    (small : (older.flatten ++ last).flatten.length < 2 ^ 63) :
    Listing (older.length + 1) (manifestJson w.chunks) w.chunks where
  text := rfl
  count := tracks.count
  named := tracks.named
  signed i c found := by
    have short := (List.getElem?_eq_some_iff.mp found).1
    have bound := w.currentChunkId.toNat_lt
    have member := List.mem_of_getElem? found
    rw [tracks.id] at bound
    rw [tracks.count] at short
    exact ⟨by omega, (tracks.bytes c member).trans_lt small, (tracks.times c member).1,
      (tracks.times c member).2⟩

theorem next (tracks : Tracks older last w) (clock : WriteClock) (few : older.length + 2 ≤ 2 ^ 32) :
    Tracks (older ++ [last]) [] (w.nextChunk clock) := by
  have id : (w.currentChunkId + 1).toNat = older.length + 1 := by
    rw [UInt32.toNat_add, tracks.id]
    exact Nat.mod_eq_of_lt (by simp only [UInt32.reduceToNat]; omega)
  have flat : ((older ++ [last]).flatten ++ []) = older.flatten ++ last := by
    rw [List.flatten_append, List.flatten_singleton, List.append_nil]
  have chunks : (w.nextChunk clock).chunks =
      w.chunks ++ [{ filename := chunkFilename (w.currentChunkId + 1).toNat }] := rfl
  have zero : (0 : UInt64).toNat < 2 ^ 63 := by decide
  refine ⟨by rw [List.length_append]; exact id, ?_, fun i c found => ?_,
    fun c member => ?_, fun c member => ?_⟩
  · rw [chunks, List.length_append, tracks.count, List.length_append]
    rfl
  · rw [chunks, List.getElem?_append] at found
    split at found
    · exact tracks.named i c found
    · rename_i late
      rw [List.getElem?_singleton] at found
      split at found
      · rename_i here
        cases found
        rw [tracks.count] at late here
        rw [id, show i = older.length + 1 by omega]
      · cases found
  · rw [chunks] at member
    rw [flat]
    rcases List.mem_append.mp member with old | new
    · exact tracks.bytes c old
    · rw [List.mem_singleton.mp new]
      exact Nat.zero_le _
  · rw [chunks] at member
    rcases List.mem_append.mp member with old | new
    · exact tracks.times c old
    · rw [List.mem_singleton.mp new]
      exact ⟨zero, zero⟩

theorem place (tracks : Tracks older last w) {frame : Bytes} (inTime : InTime frame) :
    Tracks older (last ++ [frame]) (w.place frame) := by
  have chunks : (w.place frame).chunks = w.chunks.modifyLast (Runtime.ChunkInfo.add frame) := rfl
  have nonempty : w.chunks ≠ [] := fun none => by
    have count := tracks.count
    rw [none] at count
    cases count
  obtain ⟨front, newest, split⟩ := w.chunks.eq_nil_or_concat.resolve_left nonempty
  rw [List.concat_eq_append] at split
  have placed : (w.place frame).chunks = front ++ [newest.add frame] := by
    rw [chunks, split, List.modifyLast_concat]
  have member : newest ∈ w.chunks := by
    rw [split]
    exact List.mem_append_right _ (List.mem_singleton_self _)
  have flat : (older.flatten ++ (last ++ [frame])).flatten.length =
      (older.flatten ++ last).flatten.length + frame.length := by
    simp [Nat.add_assoc]
  refine ⟨tracks.id, ?_, fun i c found => ?_, fun c listed => ?_, fun c listed => ?_⟩
  · have count := tracks.count
    rw [split, List.length_append] at count
    rw [placed, List.length_append, ← count]
    rfl
  · rw [placed, List.getElem?_append] at found
    split at found
    · rename_i before
      exact tracks.named i c (by rw [split, List.getElem?_append_left before, found])
    · rename_i behind
      rw [List.getElem?_singleton] at found
      split at found
      · rename_i here
        cases found
        exact tracks.named i newest (by
          rw [split, List.getElem?_append_right (Nat.le_of_not_lt behind),
            List.getElem?_singleton, if_pos here])
      · cases found
  · rw [flat]
    rw [placed] at listed
    rcases List.mem_append.mp listed with old | new
    · exact (tracks.bytes c (split ▸ List.mem_append_left _ old)).trans (Nat.le_add_right ..)
    · rw [List.mem_singleton.mp new]
      exact Nat.add_le_add_right (tracks.bytes newest member) frame.length
  · rw [placed] at listed
    rcases List.mem_append.mp listed with old | new
    · exact tracks.times c (split ▸ List.mem_append_left _ old)
    · rw [List.mem_singleton.mp new]
      refine ⟨?_, inTime.2⟩
      simp only [Runtime.ChunkInfo.add]
      split
      · exact inTime.1
      · exact (tracks.times newest member).1

end Tracks

section Stages
variable {older : List (List Bytes)} {early late : List Bytes} {disk disk' : Disk} {w : ChunkWriter}

namespace Saved

theorem congr (saved : Saved older early late disk)
    (same : ∀ i, disk' (chunkFilename i) = disk (chunkFilename i)) :
    Saved older early late disk' where
  whole i frames found := by
    rw [same]
    exact saved.whole i frames found
  last := by
    rw [same]
    exact saved.last

theorem weaken (saved : Saved older (early ++ late) [] disk) : Saved older early late disk where
  whole := saved.whole
  last := by
    obtain ⟨file, found, data, synced⟩ := saved.last
    rw [List.append_nil] at data
    refine ⟨file, found, data, le_trans ?_ synced⟩
    rw [List.flatten_append, List.length_append]
    exact Nat.le_add_right ..

theorem sync (saved : Saved older early late disk) :
    Saved older (early ++ late) [] ((FileOp.sync (chunkFilename older.length)).apply disk) where
  whole i frames found := by
    have other : chunkFilename i ≠ chunkFilename older.length := fun same => by
      rw [chunkFilename_injective same, List.getElem?_eq_none le_rfl] at found
      cases found
    rw [FileOp.apply_other (.sync _) rfl other]
    exact saved.whole i frames found
  last := by
    obtain ⟨file, found, data, synced⟩ := saved.last
    refine ⟨{ file with synced := file.data.length },
      ?_, by rw [List.append_nil]; exact data, data ▸ le_rfl⟩
    rw [FileOp.apply, Function.update_self, found]
    rfl

theorem append (saved : Saved older early late disk) (frame : Bytes) :
    Saved older early (late ++ [frame])
      ((FileOp.append (chunkFilename older.length) frame).apply disk) where
  whole i frames found := by
    have other : chunkFilename i ≠ chunkFilename older.length := fun same => by
      rw [chunkFilename_injective same, List.getElem?_eq_none le_rfl] at found
      cases found
    rw [FileOp.apply_other (.append _ _) rfl other]
    exact saved.whole i frames found
  last := by
    obtain ⟨file, found, data, synced⟩ := saved.last
    refine ⟨{ file with data := file.data ++ frame }, ?_, ?_, synced⟩
    · rw [FileOp.apply, Function.update_self, found]
      rfl
    · rw [data]
      simp

theorem create (saved : Saved older (early ++ late) [] disk) :
    Saved (older ++ [early ++ late]) [] []
      ((FileOp.create (chunkFilename (older.length + 1))).apply disk) where
  whole i frames found := by
    have short := (List.getElem?_eq_some_iff.mp found).1
    rw [List.length_append, List.length_singleton] at short
    have other : chunkFilename i ≠ chunkFilename (older.length + 1) := fun same => by
      have here := chunkFilename_injective same
      omega
    rw [FileOp.apply_other (.create _) rfl other]
    rw [List.getElem?_append] at found
    split at found
    · exact saved.whole i frames found
    · rename_i behind
      obtain ⟨file, inside, data, synced⟩ := saved.last
      rw [List.append_nil] at data
      rw [show i = older.length by omega, Nat.sub_self] at found
      rw [show i = older.length by omega]
      cases found
      refine ⟨file, inside, data, ?_⟩
      rw [BufferedFile.Kept, data]
      exact synced
  last := ⟨{}, by rw [List.length_append]; exact Function.update_self .., rfl, le_rfl⟩

end Saved

theorem Listed.congr (listed : Listed older early disk)
    (same : disk' manifestName = disk manifestName) :
    Listed older early disk' := by
  cases listed with
  | all lists =>
      unfold Lists at lists
      rw [← same] at lists
      exact .all lists
  | rotated lists some_ empty =>
      unfold Lists at lists
      rw [← same] at lists
      exact .rotated lists some_ empty
  | never gone first empty => exact .never (same.trans gone) first empty

def Flushing (older : List (List Bytes)) (early late : List Bytes) (disk : Disk) : Prop :=
  Saved older early late disk ∧ Listed older early disk ∨
    Saved older (early ++ late) [] disk ∧ (Listed older (early ++ late) disk ∨ Renaming older disk)

theorem tmp_ne_manifest : tmpName manifestName ≠ manifestName := by decide

theorem flush_throughout (tracks : Tracks older (early ++ late) w) (steady : Steady w)
    (small : (older.flatten ++ (early ++ late)).flatten.length < 2 ^ 63)
    (saved : Saved older early late disk) (listed : Listed older early disk) :
    Throughout (Flushing older early late) w.flushOps disk ∧
      Saved older (early ++ late) [] (runOps w.flushOps disk) ∧
      Lists (older.length + 1) manifestName (runOps w.flushOps disk) := by
  let chunkSynced := (FileOp.sync (chunkFilename older.length)).apply disk
  let synced := (FileOp.sync indexName).apply chunkSynced
  have ops : w.flushOps = [.sync (chunkFilename older.length), .sync indexName] ++
      replaceOps (tmpName manifestName) manifestName (manifestJson w.chunks) := by
    rw [ChunkWriter.flushOps, steady.stream, steady.index, tracks.id]
    rfl
  have kept : Saved older (early ++ late) [] synced :=
    saved.sync.congr fun i => FileOp.apply_other (.sync _) rfl (Files.chunk_ne_index i)
  have manifestFirst : chunkSynced manifestName = disk manifestName :=
    FileOp.apply_other (.sync _) rfl (Files.chunk_ne_manifest _).symm
  have manifest : synced manifestName = disk manifestName :=
    (FileOp.apply_other (.sync _) rfl index_ne_manifest.symm).trans manifestFirst
  have chunkFiles (k : Nat) (i : Nat) :=
    others_throughout (manifestJson w.chunks) synced (Files.chunk_ne_tmp i)
      (Files.chunk_ne_manifest i) k
  have listing := tracks.listing small
  rw [ops]
  refine ⟨.append
    (.cons (.inl ⟨saved, listed⟩) (.cons (.inl ⟨saved.sync.weaken, listed.congr manifestFirst⟩)
    (.nil (.inl ⟨kept.weaken, listed.congr manifest⟩)))) fun k => ?_, ?_⟩
  · have all := kept.congr (chunkFiles k)
    cases replacing_throughout (manifestJson w.chunks) synced tmp_ne_manifest k with
    | old same => exact .inl ⟨all.weaken, listed.congr (same.trans manifest)⟩
    | between gone found whole kept =>
        exact .inr ⟨all, .inr ⟨gone, _, _, found, kept, whole ▸ listing⟩⟩
    | new found whole kept => exact .inr ⟨all, .inl (.all ⟨_, _, found, kept, whole ▸ listing⟩)⟩
  · rw [runOps_append]
    have last := runOps_replaceOps (manifestJson w.chunks) synced tmp_ne_manifest
    refine ⟨kept.congr fun i => ?_, ?_⟩
    · exact (congrFun last _).trans ((Function.update_of_ne (Files.chunk_ne_manifest i) ..).trans
        (Function.update_of_ne (Files.chunk_ne_tmp i) ..))
    · exact ⟨_, w.chunks, (congrFun last _).trans (Function.update_self ..), le_rfl, listing⟩

end Stages

/-- At most this many frames have not been flushed when a write returns. -/
def flushLimit (config : RuntimeConfig) : Nat := max config.flushPackets.toNat 1

structure Between (older : List (List Bytes)) (early late returned : List Bytes) (w : ChunkWriter)
    (disk : Disk) : Prop where
  tracks : Tracks older (early ++ late) w
  steady : Steady w
  saved : Saved older early late disk
  listed : Listed older early disk
  frames : older.flatten ++ early ++ late = returned
  pending : late.length = w.packetsSinceFlush.toNat
  few : late.length < flushLimit w.config

section Write
variable {older : List (List Bytes)} {early late returned all : List Bytes}
  {disk : Disk} {w : ChunkWriter}

theorem Between.safe (between : Between older early late returned w disk)
    (within : returned <+: all) :
    Safe returned all (flushLimit w.config) disk := by
  refine ⟨older, early, late, between.saved, .inl between.listed, between.frames ▸ within, ?_⟩
  have few := between.few
  rw [← between.frames, List.length_append]
  omega

theorem Between.small (between : Between older early late returned w disk)
    (small : returned.flatten.length < 2 ^ 63) :
    (older.flatten ++ (early ++ late)).flatten.length < 2 ^ 63 := by
  rwa [← List.append_assoc, between.frames]

theorem Flushing.safe {most : Nat} (flushing : Flushing older early late disk)
    (within : older.flatten ++ early ++ late <+: all)
    (few : returned.length < (older.flatten ++ early).length + most) :
    Safe returned all most disk := by
  rcases flushing with ⟨saved, listed⟩ | ⟨saved, listed⟩
  · exact ⟨older, early, late, saved, .inl listed, within, few⟩
  · refine ⟨older, early ++ late, [], saved, listed, ?_, ?_⟩
    · rwa [List.append_nil, ← List.append_assoc]
    · rw [← List.append_assoc, @List.length_append _ (older.flatten ++ early)]
      omega

theorem Between.rotate (between : Between older early late returned w disk) (clock : WriteClock)
    (small : returned.flatten.length < 2 ^ 63) (few : (w.rotated clock).chunks.length ≤ 2 ^ 32)
    (within : returned <+: all) :
    Throughout (Safe returned all (flushLimit w.config)) (w.rotateOps clock) disk ∧
      ∃ older early late,
        Between older early late returned (w.rotated clock) (runOps (w.rotateOps clock) disk) ∧
        (w.rotated clock).config = w.config := by
  have safe := between.safe within
  have steady := between.steady.rotated clock
  by_cases rotates : w.mustRotate clock.rotateNow
  · have next : w.rotated clock = w.nextChunk clock := if_pos rotates
    have bound : older.length + 2 ≤ 2 ^ 32 := by
      rw [next] at few
      have count : (w.nextChunk clock).chunks.length = w.chunks.length + 1 := List.length_append ..
      rw [count, between.tracks.count] at few
      exact few
    have id : (w.currentChunkId + 1).toNat = older.length + 1 := by
      rw [UInt32.toNat_add, between.tracks.id]
      exact Nat.mod_eq_of_lt (by simp only [UInt32.reduceToNat]; omega)
    have ops : w.rotateOps clock =
        w.flushOps ++
          [.sync (chunkFilename older.length), .create (chunkFilename (older.length + 1))] := by
      rw [ChunkWriter.rotateOps, if_pos rotates, between.steady.stream, between.tracks.id, id]
    obtain ⟨through, saved, lists⟩ :=
      flush_throughout between.tracks between.steady
        (between.small small) between.saved between.listed
    have length := between.few
    have sum := congrArg List.length between.frames
    rw [List.length_append] at sum
    have synced := saved.sync
    rw [List.append_nil] at synced
    have listsSynced : Lists (older.length + 1) manifestName
        ((FileOp.sync (chunkFilename older.length)).apply (runOps w.flushOps disk)) := by
      obtain ⟨file, chunks, found, rest⟩ := lists
      exact ⟨file, chunks,
        (FileOp.apply_other (.sync _) rfl (Files.chunk_ne_manifest _).symm).trans found, rest⟩
    let rotatedDisk := (FileOp.create (chunkFilename (older.length + 1))).apply
      ((FileOp.sync (chunkFilename older.length)).apply (runOps w.flushOps disk))
    have created : Saved (older ++ [early ++ late]) [] [] rotatedDisk := synced.create
    have listed : Listed (older ++ [early ++ late]) [] rotatedDisk := by
      obtain ⟨file, chunks, found, rest⟩ := listsSynced
      refine .rotated ⟨file, chunks,
        (FileOp.apply_other (.create _) rfl (Files.chunk_ne_manifest _).symm).trans found, ?_⟩
        (List.append_ne_nil_of_right_ne_nil _ (List.cons_ne_nil _ _)) rfl
      rw [List.length_append]
      exact rest
    have frames : (older ++ [early ++ late]).flatten ++ [] ++ [] = returned := by
      rw [List.flatten_append, List.flatten_singleton, List.append_nil,
        List.append_nil, ← List.append_assoc]
      exact between.frames
    have after : Between (older ++ [early ++ late]) [] [] returned
        (w.nextChunk clock) rotatedDisk :=
      ⟨between.tracks.next clock bound, next ▸ steady, created, listed, frames, rfl, by
        rw [flushLimit]
        exact lt_of_lt_of_le Nat.zero_lt_one (le_max_right ..)⟩
    have safe' : Safe returned all (flushLimit w.config) rotatedDisk := after.safe within
    have middle : Safe returned all (flushLimit w.config)
        ((FileOp.sync (chunkFilename older.length)).apply (runOps w.flushOps disk)) := by
      have flushing : Flushing older early late _ := .inr ⟨synced, .inl (.all listsSynced)⟩
      exact flushing.safe (between.frames ▸ within) (by omega)
    have flushed : Safe returned all (flushLimit w.config) (runOps w.flushOps disk) := by
      have flushing : Flushing older early late _ := .inr ⟨saved, .inl (.all lists)⟩
      exact flushing.safe (between.frames ▸ within) (by omega)
    rw [ops, runOps_append, next]
    refine ⟨.append
      (through.mono fun _ flushing => flushing.safe (between.frames ▸ within) (by omega))
      (.cons flushed (.cons middle (.nil safe'))), _, _, _, after, rfl⟩
  · have same : w.rotated clock = w := if_neg rotates
    have ops : w.rotateOps clock = [] := if_neg rotates
    rw [ops, same]
    exact ⟨.nil safe, older, early, late, between, rfl⟩

theorem Between.store (between : Between older early late returned w disk)
    (clock : WriteClock) {frame : Bytes} (inTime : InTime frame)
    (small : (returned ++ [frame]).flatten.length < 2 ^ 63) :
    Throughout (Safe returned (returned ++ [frame]) (flushLimit w.config))
        (w.placeOps frame ++ (w.place frame).dueOps clock) disk ∧
      ∃ early late,
        Between older early late (returned ++ [frame]) ((w.place frame).flushIfDue (.clean clock))
          (runOps (w.placeOps frame ++ (w.place frame).dueOps clock) disk) := by
  let chunkWritten := (FileOp.append (chunkFilename older.length) frame).apply disk
  let indexWritten := (FileOp.append indexName
    (indexLine w.currentChunkOffset
      (EgoFrameHeader.decode frame) w.currentChunkId.toNat ++ [newline])).apply chunkWritten
  have ops : runOps (w.placeOps frame) disk = indexWritten ∧
      Throughout (Safe returned (returned ++ [frame]) (flushLimit w.config))
      (w.placeOps frame) disk ∧ Saved older early (late ++ [frame]) indexWritten ∧
        Listed older early indexWritten := by
    have written := between.saved.append frame
    have listed : Listed older early chunkWritten :=
      between.listed.congr (FileOp.apply_other (.append _ _) rfl (Files.chunk_ne_manifest _).symm)
    have writtenIndex : Saved older early (late ++ [frame]) indexWritten :=
      written.congr fun i => FileOp.apply_other (.append _ _) rfl (Files.chunk_ne_index i)
    have listedIndex : Listed older early indexWritten :=
      listed.congr (FileOp.apply_other (.append _ _) rfl index_ne_manifest.symm)
    have whole : older.flatten ++ early ++ (late ++ [frame]) = returned ++ [frame] := by
      rw [← List.append_assoc, between.frames]
    have within : older.flatten ++ early ++ (late ++ [frame]) <+: returned ++ [frame] :=
      whole ▸ List.prefix_rfl
    have few : returned.length < (older.flatten ++ early).length + flushLimit w.config := by
      have few := between.few
      rw [← between.frames, List.length_append]
      omega
    have first : w.placeOps frame = [.append (chunkFilename older.length) frame, .append indexName
        (indexLine w.currentChunkOffset
          (EgoFrameHeader.decode frame) w.currentChunkId.toNat ++ [newline])] := by
      rw [ChunkWriter.placeOps, between.steady.stream, between.steady.index, between.tracks.id]
    rw [first]
    exact ⟨rfl, .cons (between.safe (List.prefix_append ..))
      (.cons ⟨older, early, _, written, .inl listed, within, few⟩
      (.nil ⟨older, early, _, writtenIndex, .inl listedIndex, within, few⟩)),
        writtenIndex, listedIndex⟩
  obtain ⟨same, through, saved, listed⟩ := ops
  have tracks : Tracks older (early ++ (late ++ [frame])) (w.place frame) := by
    rw [← List.append_assoc]
    exact between.tracks.place inTime
  have steady := between.steady.place frame
  have frames : older.flatten ++ early ++ (late ++ [frame]) = returned ++ [frame] := by
    rw [← List.append_assoc, between.frames]
  have bound : flushLimit w.config ≤ 2 ^ 32 - 1 := by
    have limit := w.config.flushPackets.toNat_lt
    rw [flushLimit]
    omega
  have few := between.few
  have counter : (w.place frame).packetsSinceFlush = w.packetsSinceFlush + 1 := rfl
  have pending : (late ++ [frame]).length = (w.place frame).packetsSinceFlush.toNat := by
    rw [counter, List.length_append, List.length_singleton, between.pending, UInt32.toNat_add,
      show (1 : UInt32).toNat = 1 from rfl, Nat.mod_eq_of_lt (by rw [← between.pending]; omega)]
  rw [ChunkWriter.flushIfDue_clean, ChunkWriter.dueOps]
  by_cases due : (w.place frame).FlushDue clock.flushCheckNow
  · rw [if_pos due, if_pos due]
    have all : (older.flatten ++ (early ++ (late ++ [frame]))).flatten.length < 2 ^ 63 := by
      rwa [← List.append_assoc, frames]
    obtain ⟨flushing, whole, lists⟩ := flush_throughout tracks steady all saved listed
    have covered : returned.length < (older.flatten ++ early).length + flushLimit w.config := by
      rw [← between.frames, List.length_append]
      omega
    rw [← same] at flushing whole lists
    refine ⟨through.append
      (flushing.mono fun _ here => here.safe (frames ▸ List.prefix_rfl) covered),
        early ++ (late ++ [frame]), [], ?_⟩
    rw [runOps_append]
    exact ⟨by rw [List.append_nil]; exact ⟨tracks.id, tracks.count, tracks.named, tracks.bytes, tracks.times⟩,
      ⟨steady.stream, steady.index⟩, whole,
        .all lists, by rw [List.append_nil, ← List.append_assoc, frames], rfl,
      lt_of_lt_of_le Nat.zero_lt_one (le_max_right ..)⟩
  · rw [if_neg due, if_neg due, List.append_nil]
    refine ⟨through, early, late ++ [frame], tracks, steady, same ▸ saved,
      same ▸ listed, frames, pending, ?_⟩
    have below : ¬ w.config.flushPackets ≤ (w.place frame).packetsSinceFlush :=
      fun limit => due (Or.inl limit)
    rw [pending]
    exact lt_of_lt_of_le (UInt32.lt_iff_toNat_lt.mp (UInt32.not_le.mp below)) (le_max_left ..)

theorem length_chunks_place (frame : Bytes) (w : ChunkWriter) :
    (w.place frame).chunks.length = w.chunks.length := by
  have chunks : (w.place frame).chunks = w.chunks.modifyLast (Runtime.ChunkInfo.add frame) := rfl
  rw [chunks]
  rcases w.chunks.eq_nil_or_concat with none | ⟨front, last, split⟩
  · rw [none]
    rfl
  · rw [split, List.concat_eq_append, List.modifyLast_concat,
      List.length_append, List.length_append]
    rfl

theorem Between.write {m : UInt32} (between : Between older early late returned w disk)
    (write : WriteClock × ContractFrame m) (inTime : InTime write.2.bytes)
    (small : (returned ++ [write.2.bytes]).flatten.length < 2 ^ 63)
    (few : ((w.rotated write.1).place write.2.bytes).chunks.length ≤ 2 ^ 32) :
    Throughout (Safe returned (returned ++ [write.2.bytes]) (flushLimit w.config))
        (w.writeOps write.1 write.2.bytes) disk ∧
      ∃ older early late, Between older early late (returned ++ [write.2.bytes])
        (((w.rotated write.1).place write.2.bytes).flushIfDue (.clean write.1))
        (runOps (w.writeOps write.1 write.2.bytes) disk) := by
  have before : returned.flatten.length < 2 ^ 63 := by
    rw [List.flatten_append, List.length_append] at small
    omega
  obtain ⟨rotating, older, early, late, rotated, config⟩ :=
    between.rotate write.1 before (length_chunks_place write.2.bytes _ ▸ few)
      (List.prefix_append returned [write.2.bytes])
  obtain ⟨storing, early, late, stored⟩ := rotated.store write.1 inTime small
  rw [config] at storing
  rw [ChunkWriter.writeOps, runOps_append]
  exact ⟨rotating.append storing, older, early, late, stored⟩

theorem Between.close (between : Between older early late returned w disk)
    (small : returned.flatten.length < 2 ^ 63) :
    Throughout (Safe returned returned (flushLimit w.config)) w.closeOps disk := by
  obtain ⟨flushing, saved, lists⟩ :=
    flush_throughout between.tracks between.steady
      (between.small small) between.saved between.listed
  have covered : returned.length < (older.flatten ++ early).length + flushLimit w.config := by
    have few := between.few
    rw [← between.frames, List.length_append]
    omega
  have within : older.flatten ++ early ++ late <+: returned := between.frames ▸ List.prefix_rfl
  have synced := saved.sync
  rw [List.append_nil] at synced
  have listed : Listed older (early ++ late) (runOps w.flushOps disk) := .all lists
  have listedChunk :=
    listed.congr
      (@FileOp.apply_other _ _ _ (runOps w.flushOps disk) (.sync (chunkFilename older.length)) _ _
    rfl (Files.chunk_ne_manifest _).symm)
  have listedIndex := listedChunk.congr (@FileOp.apply_other _ _ _
    ((FileOp.sync (chunkFilename older.length)).apply (runOps w.flushOps disk))
      (.sync indexName) _ _ rfl index_ne_manifest.symm)
  have last : Saved older (early ++ late) [] ((FileOp.sync indexName).apply
      ((FileOp.sync (chunkFilename older.length)).apply (runOps w.flushOps disk))) :=
    synced.congr fun i => FileOp.apply_other (.sync _) rfl (Files.chunk_ne_index i)
  rw [ChunkWriter.closeOps, between.steady.stream, between.steady.index, between.tracks.id]
  exact .append (flushing.mono fun _ here => here.safe within covered)
    (.cons (Flushing.safe (.inr ⟨saved, .inl listed⟩) within covered)
      (.cons (Flushing.safe (.inr ⟨synced, .inl listedChunk⟩) within covered)
        (.nil (Flushing.safe (.inr ⟨last, .inl listedIndex⟩) within covered))))

end Write

section Run
variable {m : UInt32} {config : RuntimeConfig} {now openNow : Int}

theorem between_start : Between [] [] [] [] (recordingStart config now openNow).writer
    (diskAfter config now openNow ([] : List (WriteClock × ContractFrame m))) where
  tracks := .start config now openNow
  steady := steady_start
  saved := ⟨by rintro i frames ⟨⟩, {}, rfl, rfl, le_rfl⟩
  listed := .never rfl rfl rfl
  frames := rfl
  pending := rfl
  few := lt_of_lt_of_le Nat.zero_lt_one (le_max_right ..)

theorem config_foldl (writes : List (WriteClock × ContractFrame m)) :
    (writes.foldl WriterRun.record (recordingStart config now openNow)).writer.config = config := by
  induction writes using List.reverseRecOn with
  | nil => rfl
  | append_singleton writes write ih =>
      rw [List.foldl_append, List.foldl_cons, List.foldl_nil, record_eq (steady_foldl writes),
        ChunkWriter.flushIfDue_clean]
      have rotated (w : ChunkWriter) : (w.rotated write.1).config = w.config := by
        unfold ChunkWriter.rotated
        split <;> rfl
      have placed :=
        (rotated (writes.foldl WriterRun.record (recordingStart config now openNow)).writer).trans ih
      split <;> exact placed

theorem between_foldl (writes : List (WriteClock × ContractFrame m))
    (inTime : ∀ write ∈ writes, InTime write.2.bytes)
    (small : (writes.map fun write => write.2.bytes).flatten.length < 2 ^ 63)
    (few : (writes.foldl WriterRun.record
      (recordingStart config now openNow)).writer.chunks.length ≤ 2 ^ 32) :
    ∃ older early late, Between older early late (writes.map fun write => write.2.bytes)
      (writes.foldl WriterRun.record (recordingStart config now openNow)).writer
        (diskAfter config now openNow writes) := by
  induction writes using List.reverseRecOn with
  | nil => exact ⟨[], [], [], between_start⟩
  | append_singleton writes write ih =>
      have record := record_eq (@steady_foldl _ config now openNow writes) write
      rw [List.foldl_append, List.foldl_cons, List.foldl_nil] at few ⊢
      rw [List.map_append, List.map_singleton] at small ⊢
      have before :
          (writes.foldl WriterRun.record (recordingStart config now openNow)).writer.chunks.length ≤
            2 ^ 32 :=
        (Nat.le.intro (length_chunks_step _ _).symm).trans few
      have smaller : (writes.map fun write => write.2.bytes).flatten.length < 2 ^ 63 := by
        rw [List.flatten_append, List.length_append] at small
        omega
      obtain ⟨older, early, late, between⟩ :=
        ih (fun write member => inTime write (List.mem_append_left _ member)) smaller before
      rw [diskAfter_concat, record]
      rw [record] at few
      have chunks (w : ChunkWriter) : (w.flushIfDue (.clean write.1)).chunks = w.chunks := by
        rw [ChunkWriter.flushIfDue_clean]
        split <;> rfl
      exact (between.write write (inTime write (by simp)) small (chunks _ ▸ few)).2

end Run

inductive LastCall (m : UInt32)
  | write (write : WriteClock × ContractFrame m)
  | close

def LastCall.ops {m : UInt32} (w : ChunkWriter) : LastCall m → List (FileOp Bytes UInt8)
  | .write call => w.writeOps call.1 call.2.bytes
  | .close => w.closeOps

def LastCall.frames {m : UInt32} : LastCall m → List Bytes
  | .write call => [call.2.bytes]
  | .close => []

section Killed
variable {m : UInt32} {config : RuntimeConfig} {now openNow : Int}
  {writes : List (WriteClock × ContractFrame m)}

theorem accepted_of_calls (last : LastCall m) :
    ∀ frame ∈ (writes.map fun write => write.2.bytes) ++ last.frames, Accepted m frame := by
  intro frame member
  rcases List.mem_append.mp member with old | new
  · obtain ⟨write, -, rfl⟩ := List.mem_map.mp old
    exact write.2.accepted
  · cases last with
    | write write =>
        rw [List.mem_singleton.mp new]
        exact write.2.accepted
    | close => cases new

theorem safe_of_calls (last : LastCall m) (k : Nat)
    (inTime : ∀ frame ∈ (writes.map fun write => write.2.bytes) ++ last.frames, InTime frame)
    (small : ((writes.map fun write => write.2.bytes) ++ last.frames).flatten.length < 2 ^ 63)
    (few : (writes.foldl WriterRun.record
      (recordingStart config now openNow)).writer.chunks.length < 2 ^ 32) :
    Safe (writes.map fun write => write.2.bytes)
      ((writes.map fun write => write.2.bytes) ++ last.frames) (flushLimit config)
      (runOps ((last.ops
        (writes.foldl WriterRun.record (recordingStart config now openNow)).writer).take k)
        (diskAfter config now openNow writes)) := by
  have smaller : (writes.map fun write => write.2.bytes).flatten.length < 2 ^ 63 := by
    rw [List.flatten_append, List.length_append] at small
    omega
  obtain ⟨older, early, late, between⟩ := @between_foldl _ config now openNow writes
    (fun write member => inTime _ (List.mem_append_left _ (List.mem_map_of_mem member)))
      smaller few.le
  have same := @config_foldl _ config now openNow writes
  cases last with
  | write write =>
      have rotated (w : ChunkWriter) : (w.rotated write.1).chunks.length ≤ w.chunks.length + 1 := by
        unfold ChunkWriter.rotated
        split
        · exact (List.length_append ..).le
        · exact Nat.le_succ _
      have bound :=
        rotated (writes.foldl WriterRun.record (recordingStart config now openNow)).writer
      have through :=
        (between.write write (inTime _ (List.mem_append_right _ (List.mem_singleton_self _))) small
        (by rw [length_chunks_place]; omega)).1
      rw [same] at through
      exact through k
  | close =>
      have through := between.close smaller
      rw [same] at through
      rw [LastCall.frames, List.append_nil]
      exact through k

end Killed

/-- A recorder that is killed anywhere in its run, behind any operation on files, leaves a session
of which the pipeline reads the recorded frames, from the first on, less fewer than `flush_packets`
of those whose write has returned. -/
theorem killed_recovers {m : UInt32} (config : RuntimeConfig) (now openNow : Int)
    (writes : List (WriteClock × ContractFrame m)) (last : LastCall m) (k : Nat) (dir : Dir)
    (inTime : ∀ frame ∈ (writes.map fun write => write.2.bytes) ++ last.frames, InTime frame)
    (small : ((writes.map fun write => write.2.bytes) ++ last.frames).flatten.length < 2 ^ 63)
    (few : (writes.foldl WriterRun.record
      (recordingStart config now openNow)).writer.chunks.length < 2 ^ 32)
    (leaves : Leaves
      (runOps ((last.ops
        (writes.foldl WriterRun.record (recordingStart config now openNow)).writer).take k)
        (diskAfter config now openNow writes)) fun name => dir.lookup name) :
    Recovers (writes.map fun write => write.2.bytes)
      ((writes.map fun write => write.2.bytes) ++ last.frames) (flushLimit config) dir :=
  (safe_of_calls last k inTime small few).recovers leaves (accepted_of_calls last)

def threeWrites : WriterRun :=
  (sampleWrites.take 3).foldl WriterRun.record (recordingStart sampleConfig 0 0)

def fourthWrite : LastCall 65536 := .write ({}, sampleFrame 21 30000000000)

/-- The last write is in its flush: the frames of the second chunk are out of the buffers, the
manifest lists the first chunk, and the index ends in its third line. -/
def killedSession : Dir :=
  let dir := (threeWrites.writer.place (sampleFrame 21 30000000000).bytes).dir
  dir.insert indexName ((dir.content indexName).take 60)

theorem leaves_killedSession :
    Leaves (runOps ((fourthWrite.ops threeWrites.writer).take 3)
      (diskAfter sampleConfig 0 0 (sampleWrites.take 3)))
      fun name => killedSession.lookup name := by
  have steady : Steady threeWrites.writer := steady_foldl _
  have ops : (fourthWrite.ops threeWrites.writer).take 3 =
      threeWrites.writer.placeOps
        (sampleFrame 21 30000000000).bytes ++ [.sync threeWrites.writer.chunkStream.path] := by
    have stays : ¬ threeWrites.writer.mustRotate 0 := by decide +kernel
    have due : (threeWrites.writer.place (sampleFrame 21 30000000000).bytes).FlushDue
        0 := by decide +kernel
    show (threeWrites.writer.writeOps {} _).take 3 = _
    rw [ChunkWriter.writeOps, ChunkWriter.rotateOps, if_neg stays, ChunkWriter.rotated,
      if_neg stays, ChunkWriter.dueOps, if_pos due]
    rfl
  rw [ops, runOps_append]
  have shows := ((shows_diskAfter sampleConfig 0 0 (sampleWrites.take 3)).place steady
    (sampleFrame 21 30000000000).bytes).sync threeWrites.writer.chunkStream.path
  exact shows.leaves_cut (show _ = some 48 by decide +kernel) (by decide +kernel)

theorem sampleWrites_inTime : ∀ write ∈ sampleWrites, InTime write.2.bytes := by
  unfold InTime
  decide +kernel

theorem killedSession_recovers :
    Recovers ((sampleWrites.take 3).map fun write => write.2.bytes)
      (sampleWrites.map fun write => write.2.bytes) 2
      killedSession :=
  killed_recovers sampleConfig 0 0 (sampleWrites.take 3) fourthWrite 3 killedSession
    (List.forall_mem_map.mpr sampleWrites_inTime) (by decide +kernel)
      (by decide +kernel) leaves_killedSession

end LocalPC.Offline
