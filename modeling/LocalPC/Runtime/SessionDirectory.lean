import Mathlib.Data.List.AList
import LocalPC.Lib.Text

namespace LocalPC.Runtime
open Lib

abbrev Dir := AList (fun _ : Bytes => Bytes)

def manifestName : Bytes := ascii "ego_manifest.json"
def indexName : Bytes := ascii "ego.index"

def chunkFilename (id : Nat) : Bytes := ascii "ego_" ++ decimal id ++ ascii ".bin"

/-- `path::extension()` of a file name: from the last dot on, unless that dot comes first. -/
def extension (name : Bytes) : Bytes :=
  let upToDot := name.reverse.dropWhile (· ≠ 46)
  if name = ascii ".." ∨ upToDot.length ≤ 1 then [] else name.drop (upToDot.length - 1)

def isChunkFile (name : Bytes) : Bool :=
  extension name = ascii ".bin" && (ascii "ego_").isPrefixOf name

theorem extension_append {stem suffix : Bytes} (named : stem ≠ []) (nonempty : suffix ≠ [])
    (plain : (46 : UInt8) ∉ suffix) : extension (stem ++ 46 :: suffix) = 46 :: suffix := by
  have passed : ∀ c ∈ suffix.reverse, decide (c ≠ 46) = true := by
    intro c member
    have other : c ≠ 46 := fun same => plain (same ▸ List.mem_reverse.mp member)
    simpa using other
  have reversed : ((stem ++ 46 :: suffix).reverse.dropWhile (· ≠ 46)) = 46 :: stem.reverse := by
    rw [List.reverse_append, List.reverse_cons, List.append_assoc,
      List.dropWhile_append_of_pos passed]
    simp
  have notParent : stem ++ 46 :: suffix ≠ ascii ".." := by
    intro same
    have last := congrArg List.getLast? same
    rw [List.getLast?_append_of_ne_nil _ (by simp), List.getLast?_cons,
      List.getLast?_eq_some_getLast nonempty] at last
    have dot : suffix.getLast nonempty = 46 := Option.some.inj last
    exact plain (dot ▸ List.getLast_mem nonempty)
  have size : 0 < stem.length := List.length_pos_iff.mpr named
  unfold extension
  rw [reversed]
  rw [if_neg (by simp [notParent]; omega)]
  simp

theorem extension_chunkFilename (id : Nat) : extension (chunkFilename id) = ascii ".bin" := by
  have dotted : chunkFilename id = (ascii "ego_" ++ decimal id) ++ 46 :: ascii "bin" := rfl
  rw [dotted, extension_append (by simp [decimal_ne_nil]) (by decide) (by decide)]
  rfl

@[simp] theorem isChunkFile_chunkFilename (id : Nat) : isChunkFile (chunkFilename id) = true := by
  have start : (ascii "ego_").isPrefixOf (chunkFilename id) = true := by
    rw [List.isPrefixOf_iff_prefix]
    exact ⟨decimal id ++ ascii ".bin", by simp [chunkFilename]⟩
  simp [isChunkFile, extension_chunkFilename, start]

theorem chunkFilename_injective {a b : Nat} (same : chunkFilename a = chunkFilename b) : a = b := by
  unfold chunkFilename at same
  exact decimal_injective (List.append_cancel_left (List.append_cancel_right same))

@[simp] theorem isChunkFile_index : isChunkFile indexName = false := by decide
@[simp] theorem isChunkFile_manifest : isChunkFile manifestName = false := by decide

theorem ne_of_isChunkFile {a b : Bytes} (chunk : isChunkFile a = true)
    (other : isChunkFile b = false) :
    a ≠ b := by
  rintro rfl
  rw [chunk] at other
  cases other

namespace Dir

def content (dir : Dir) (name : Bytes) : Bytes := (dir.lookup name).getD []

def append (dir : Dir) (name bytes : Bytes) : Dir := dir.insert name (dir.content name ++ bytes)

/-- The contents of the chunk files, in the order of the directory. -/
def chunks (dir : Dir) : List Bytes :=
  (dir.entries.filter fun e => isChunkFile e.1).map fun e => e.2

theorem content_insert (dir : Dir) (name bytes : Bytes) :
    content (dir.insert name bytes) name = bytes := by
  simp [content]

theorem content_insert_ne (dir : Dir) {name other : Bytes} (ne : other ≠ name) (bytes : Bytes) :
    content (dir.insert name bytes) other = dir.content other := by
  simp [content, AList.lookup_insert_ne ne]

theorem entries_erase (dir : Dir) (name : Bytes) :
    (dir.erase name).entries = List.kerase name dir.entries := rfl

def chunksBut (dir : Dir) (name : Bytes) : List Bytes := chunks (dir.erase name)

theorem chunks_perm (dir : Dir) {name old : Bytes} (chunk : isChunkFile name = true)
    (found : dir.lookup name = some old) : dir.chunks.Perm (old :: dir.chunksBut name) := by
  have member : (⟨name, old⟩ : Sigma fun _ : Bytes => Bytes) ∈ dir.entries :=
    AList.mem_lookup_iff.mp found
  obtain ⟨value, before, after, absent, split, erase⟩ :=
    List.exists_of_kerase (List.mem_keys_of_mem member)
  have same : value = old := by
    have again : dir.lookup name = some value := AList.mem_lookup_iff.mpr (by simp [split])
    rw [found] at again
    exact (Option.some.inj again).symm
  subst same
  simp only [chunks, chunksBut, entries_erase, erase]
  rw [split]
  simp only [List.filter_append, List.filter_cons, chunk, if_true, List.map_append, List.map_cons]
  exact List.perm_middle

theorem chunks_numbered (dir : Dir) {data : List Bytes}
    (file : ∀ (i : Nat) bytes, data[i]? = some bytes → dir.lookup (chunkFilename i) = some bytes)
    (only : ∀ name ∈ dir, isChunkFile name = true → ∃ i < data.length, name = chunkFilename i) :
    dir.chunks.Perm data := by
  let placed : List (Sigma fun _ : Bytes => Bytes) :=
    data.mapIdx fun i bytes => ⟨chunkFilename i, bytes⟩
  have keys : placed.map Sigma.fst = (List.range data.length).map chunkFilename := by
    refine List.ext_getElem (by simp [placed]) fun i _ _ => ?_
    simp [placed]
  have distinct : placed.Nodup := by
    refine List.Nodup.of_map Sigma.fst ?_
    rw [keys]
    exact List.nodup_range.map fun _ _ same => chunkFilename_injective same
  have same (e : Sigma fun _ : Bytes => Bytes) :
      e ∈ dir.entries.filter (fun e => isChunkFile e.1) ↔ e ∈ placed := by
    constructor
    · intro member
      obtain ⟨entry, chunk⟩ := List.mem_filter.mp member
      have found : dir.lookup e.1 = some e.2 := AList.mem_lookup_iff.mpr entry
      obtain ⟨i, bound, name⟩ := only e.1 (AList.lookup_isSome.mp (by simp [found])) chunk
      refine List.mem_mapIdx.mpr ⟨i, bound, ?_⟩
      rw [name, file i data[i] (by simp)] at found
      rw [← name, Option.some.inj found]
    · intro member
      obtain ⟨i, bound, rfl⟩ := List.mem_mapIdx.mp member
      exact List.mem_filter.mpr
        ⟨AList.mem_lookup_iff.mp (file i data[i] (by simp)), isChunkFile_chunkFilename i⟩
  have perm : (dir.entries.filter fun e => isChunkFile e.1).Perm placed :=
    (List.perm_ext_iff_of_nodup (dir.nodupKeys.nodup.filter _) distinct).mpr same
  have contents : placed.map (fun e => e.2) = data := by
    refine List.ext_getElem (by simp [placed]) fun i _ _ => ?_
    simp [placed]
  exact (perm.map fun e => e.2).trans (List.Perm.of_eq contents)

theorem chunks_erase (dir : Dir) {name : Bytes} (other : isChunkFile name = false) :
    chunks (dir.erase name) = dir.chunks := by
  have kept (entries : List (Sigma fun _ : Bytes => Bytes)) :
      (List.kerase name entries).filter (fun e => isChunkFile e.1) =
        entries.filter fun e => isChunkFile e.1 := by
    induction entries with
    | nil => rfl
    | cons e rest ih =>
        by_cases same : name = e.1
        · rw [List.kerase_cons_eq same, List.filter_cons_of_neg (by simp [← same, other])]
        · rw [List.kerase_cons_ne same, List.filter_cons, List.filter_cons, ih]
  unfold chunks
  rw [entries_erase, kept]

theorem chunks_insert (dir : Dir) {name : Bytes}
    (other : isChunkFile name = false) (bytes : Bytes) :
    chunks (dir.insert name bytes) = dir.chunks := by
  have split : (dir.insert name bytes).entries = ⟨name, bytes⟩ :: (dir.erase name).entries := rfl
  rw [chunks, split, List.filter_cons_of_neg (by simp [other])]
  exact dir.chunks_erase other

end Dir

def jsonEscape (s : Bytes) : Bytes :=
  s.flatMap fun c =>
    if c = 34 then ascii "\\\""
    else if c = 92 then ascii "\\\\"
    else if c = 10 then ascii "\\n"
    else if c = 13 then ascii "\\r"
    else if c = 9 then ascii "\\t"
    else [c]

/-- How far `WriteTextAtomic` gets: the temporary file may not open or be torn; when the rename
fails the text is copied (unchecked), or the target does not open and is gone. -/
inductive TextWrite
  | done
  | tmpNotOpened
  | tmpTorn (written : Nat)
  | copied (written : Nat)
  | lost
  deriving DecidableEq, Repr

def tmpName (path : Bytes) : Bytes := path ++ ascii ".tmp"

def writeTextAtomic (outcome : TextWrite) (path text : Bytes) (dir : Dir) : Bool × Dir :=
  match outcome with
  | .done => (true, (dir.erase (tmpName path)).insert path text)
  | .tmpNotOpened => (false, dir)
  | .tmpTorn written => (false, dir.insert (tmpName path) (text.take written))
  | .copied written => (true, (dir.erase (tmpName path)).insert path (text.take written))
  | .lost => (false, (dir.erase (tmpName path)).erase path)

theorem lookup_writeTextAtomic (outcome : TextWrite) (path text : Bytes) (dir : Dir) {name : Bytes}
    (notPath : name ≠ path) (notTmp : name ≠ tmpName path) :
    (writeTextAtomic outcome path text dir).2.lookup name = dir.lookup name := by
  cases outcome <;>
    simp [writeTextAtomic, AList.lookup_insert_ne, AList.lookup_erase_ne, notPath, notTmp]

theorem chunks_writeTextAtomic (outcome : TextWrite) {path : Bytes}
    (other : isChunkFile path = false) (tmp : isChunkFile (tmpName path) = false)
    (text : Bytes) (dir : Dir) :
    (writeTextAtomic outcome path text dir).2.chunks = dir.chunks := by
  cases outcome with
  | done => exact (Dir.chunks_insert _ other _).trans (Dir.chunks_erase _ tmp)
  | tmpNotOpened => rfl
  | tmpTorn written => exact Dir.chunks_insert _ tmp _
  | copied written => exact (Dir.chunks_insert _ other _).trans (Dir.chunks_erase _ tmp)
  | lost => exact (Dir.chunks_erase _ other).trans (Dir.chunks_erase _ tmp)

theorem mem_writeTextAtomic {outcome : TextWrite} {path text name : Bytes} {dir : Dir}
    (member : name ∈ (writeTextAtomic outcome path text dir).2) :
    name = path ∨ name = tmpName path ∨ name ∈ dir := by
  cases outcome <;> simp only [writeTextAtomic, AList.mem_insert, AList.mem_erase] at member
  · exact member.imp_right fun old => Or.inr old.2
  · exact Or.inr (Or.inr member)
  · exact Or.inr member
  · exact member.imp_right fun old => Or.inr old.2
  · exact Or.inr (Or.inr member.2.2)

end LocalPC.Runtime
