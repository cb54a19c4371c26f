import LocalPC.Offline.Mdf4Blocks

namespace LocalPC.Offline
open Lib

def Written (b : Block) (bytes : Bytes) : Prop :=
  ∃ length, bytes = Block.header b.id length b.links.length ++ b.links.flatMap (leBytes 8) ++ b.data

/-- The file is the ID block and these blocks behind it. -/
def LaidOut (file : Bytes) (blocks : List Block) : Prop :=
  ∃ pieces, file = idBlock ++ pieces.flatten ∧ List.Forall₂ Written blocks pieces

theorem written_encode (blocks : List Block) :
    List.Forall₂ Written blocks (blocks.map Block.encode) := by
  rw [List.forall₂_map_right_iff, List.forall₂_same]
  exact fun b _ => ⟨b.size, rfl⟩

theorem written_dtBytes (s : StoredGroup) : Written (dtBlock s) (dtBytes s) := by
  refine ⟨24 + s.group.timeAxisS.length * (makeLayout s.group).recSize.toNat, ?_⟩
  rw [dtBytes, dtBlock, List.flatMap_nil, List.append_nil]
  rfl

theorem length_dtBytes (s : StoredGroup) : (dtBytes s).length = 24 + s.records.length := by
  rw [dtBytes, List.length_append, Block.length_header (by decide)]

theorem length_dtBlock (s : StoredGroup) : (dtBlock s).encode.length = 24 + s.records.length := by
  rw [Block.length_encode (show (ascii "##DT").length = 4 by decide)]
  rfl

theorem groupBytes_length (address next : Nat) (s : StoredGroup) :
    (groupBytes address next s).length = (encodeBlocks (groupBlocks address next s)).length := by
  rw [groupBytes, groupBlocks, encodeBlocks_append, encodeBlocks_append,
    List.length_append, List.length_append, List.length_append, List.length_append,
      encodeBlocks_cons, encodeBlocks_nil, List.append_nil, length_dtBytes,
    length_dtBlock]

theorem groupsBytes_written (address : Nat) (stored : List StoredGroup) :
    ∃ pieces, groupsBytes address stored = pieces.flatten ∧
      List.Forall₂ Written (groupsBlocks address stored) pieces := by
  induction stored generalizing address with
  | nil => exact ⟨[], rfl, .nil⟩
  | cons s rest ih =>
      obtain ⟨pieces, bytes, written⟩ :=
        ih (address + (encodeBlocks (groupBlocks address 0 s)).length)
      let behind := address + (encodeBlocks (groupBlocks address 0 s)).length
      let front :=
        groupTexts s.group ++ groupHead (groupAddresses address s.group)
          (firstDg behind rest) s.group
      refine ⟨front.map Block.encode ++ [dtBytes s] ++ pieces, ?_, ?_⟩
      · have texts : (front.map Block.encode).flatten = encodeBlocks front :=
          (List.flatMap_def ..).symm
        rw [groupsBytes, groupBytes_length, bytes, List.flatten_append, List.flatten_append,
          List.flatten_singleton, texts, encodeBlocks_append]
        rfl
      · exact List.rel_append
          (List.rel_append (written_encode front) (.cons (written_dtBytes s) .nil)) written

theorem laidOut_fileBytes (bundle : SessionBundle) (t0Ns : Int) (stored : List StoredGroup) :
    LaidOut (fileBytes bundle t0Ns stored) (fileBlocks bundle t0Ns stored) := by
  obtain ⟨pieces, bytes, written⟩ := groupsBytes_written (groupsStart bundle) stored
  let head := headBlocks (firstDg (groupsStart bundle) stored) bundle t0Ns
  refine ⟨head.map Block.encode ++ pieces, ?_, List.rel_append (written_encode head) written⟩
  have texts : (head.map Block.encode).flatten = encodeBlocks head := (List.flatMap_def ..).symm
  rw [fileBytes, bytes, List.flatten_append, texts, List.append_assoc]

theorem length_textBlock {id : Bytes} (four : id.length = 4) (text : Bytes) :
    8 ∣ (⟨id, [], textData text⟩ : Block).encode.length := by
  rw [Block.length_encode four, Block.size, textData]
  simp only [List.length_append, List.length_singleton, List.length_nil, length_zeros]
  omega

theorem dvd_groupTexts (g : ChannelGroup) : ∀ b ∈ groupTexts g, 8 ∣ b.encode.length := by
  have text (t : Bytes) : 8 ∣ (txBlock t).encode.length := length_textBlock (by decide) t
  simp only [groupTexts, channelTexts, List.forall_mem_append, List.forall_mem_cons,
    List.forall_mem_flatMap]
  exact ⟨⟨text _, text _, text _, by simp⟩, fun ch _ => ⟨text _, text _, by simp⟩⟩

theorem dvd_cnBlocks (address : Nat) (args : List CnArgs) :
    ∀ b ∈ cnBlocks address args, 8 ∣ b.encode.length := by
  induction args generalizing address with
  | nil => exact fun b member => absurd member List.not_mem_nil
  | cons first rest ih =>
      rw [cnBlocks, List.forall_mem_cons, length_cnBlock]
      exact ⟨by decide, ih _⟩

theorem dvd_groupHead (a : GroupAddresses) (next : Nat) (g : ChannelGroup) :
    ∀ b ∈ groupHead a next g, 8 ∣ b.encode.length := by
  rw [groupHead, List.forall_mem_cons, List.forall_mem_cons, length_dgBlock, length_cgBlock]
  exact ⟨by decide, by decide, dvd_cnBlocks _ _⟩

theorem dvd_headBlocks (first : Nat) (bundle : SessionBundle) (t0Ns : Int) :
    ∀ b ∈ headBlocks first bundle t0Ns, 8 ∣ b.encode.length := by
  simp only [headBlocks, List.forall_mem_cons, length_hdBlock, length_fhBlock]
  exact ⟨by decide, by decide, length_textBlock (by decide) _, by simp⟩

theorem dvd_dtBlock (s : StoredGroup) : 8 ∣ (dtBlock s).encode.length ↔ 8 ∣ s.records.length := by
  rw [length_dtBlock]
  omega

theorem dvd_groupsBlocks (address : Nat) (stored : List StoredGroup) :
    (∀ b ∈ (groupsBlocks address stored).dropLast, 8 ∣ b.encode.length) ↔
      ∀ s ∈ stored.dropLast, 8 ∣ s.records.length := by
  induction stored generalizing address with
  | nil => simp [groupsBlocks]
  | cons s rest ih =>
      let behind := address + (encodeBlocks (groupBlocks address 0 s)).length
      have front : ∀ b ∈ groupTexts s.group ++ groupHead (groupAddresses address s.group)
          (firstDg behind rest) s.group,
          8 ∣ b.encode.length := List.forall_mem_append.mpr ⟨dvd_groupTexts _, dvd_groupHead _ _ _⟩
      cases rest with
      | nil =>
          have last : (groupsBlocks address [s]).dropLast =
              groupTexts s.group ++ groupHead (groupAddresses address s.group) 0 s.group := by
            rw [groupsBlocks, groupsBlocks, List.append_nil, groupBlocks, List.dropLast_concat]
            rfl
          rw [last]
          exact ⟨fun _ t member => absurd member List.not_mem_nil, fun _ => front⟩
      | cons t rest =>
          have some_ : groupsBlocks behind (t :: rest) ≠ [] := by
            simp [groupsBlocks, groupBlocks]
          have split : (groupsBlocks address (s :: t :: rest)).dropLast =
              groupBlocks address
                (firstDg behind (t :: rest)) s ++ (groupsBlocks behind (t :: rest)).dropLast :=
            List.dropLast_append_of_ne_nil some_
          rw [split, List.forall_mem_append, ih, List.dropLast_cons_cons, List.forall_mem_cons,
            groupBlocks, List.forall_mem_append, List.forall_mem_singleton, dvd_dtBlock]
          exact ⟨fun all => ⟨all.1.2, all.2⟩, fun all => ⟨⟨front, all.1⟩, all.2⟩⟩

theorem length_foldlM {α : Type*} {f : Bytes → α → Option Bytes} {size : α → Nat}
    (each : ∀ x b b', f b x = some b' → b'.length = b.length + size x) {l : List α} {b b' : Bytes}
    (folded : l.foldlM f b = some b') : b'.length = b.length + (l.map size).sum := by
  induction l generalizing b with
  | nil =>
      cases folded
      rfl
  | cons x l ih =>
      rw [List.foldlM_cons] at folded
      obtain ⟨c, first, rest⟩ := Option.bind_eq_some_iff.mp folded
      rw [ih rest, each x b c first, List.map_cons, List.sum_cons, Nat.add_assoc]

theorem length_writeRecord {g : ChannelGroup} {row : Nat} {b b' : Bytes}
    (written : writeRecord g b row = some b') :
    b'.length = b.length + recordSize g := by
  have each (ch : ChannelDesc) (b b' : Bytes)
      (stored : (storeValue ch.dataType (ch.value row)).map (b ++ ·) = some b') :
      b'.length = b.length + ch.size := by
    obtain ⟨v, value, rfl⟩ := Option.map_eq_some_iff.mp stored
    rw [List.length_append, length_storeValue value]
    rfl
  rw [length_foldlM each written, List.length_append, leBytes_length, recordSize, Nat.add_assoc]

theorem length_recordsOf {g : ChannelGroup} {records : Bytes}
    (written : recordsOf g = some records) :
    records.length = g.timeAxisS.length * recordSize g := by
  have total := length_foldlM (fun _ _ _ => length_writeRecord) written
  rw [total, List.length_nil, List.map_const', List.length_range,
    List.sum_replicate_nat, Nat.zero_add]

theorem stored_sizes {live : List ChannelGroup} {stored : List StoredGroup}
    (all : live.mapM ChannelGroup.store = some stored) :
    stored.map (fun s => s.records.length) = live.map fun g =>
      g.timeAxisS.length * recordSize g := by
  induction live generalizing stored with
  | nil =>
      cases all
      rfl
  | cons g rest ih =>
      rw [List.mapM_cons] at all
      obtain ⟨s, first, all⟩ := Option.bind_eq_some_iff.mp all
      obtain ⟨later, others, all⟩ := Option.bind_eq_some_iff.mp all
      cases all
      obtain ⟨records, written, rfl⟩ := Option.map_eq_some_iff.mp first
      rw [List.map_cons, List.map_cons, ih others, length_recordsOf written]

/-- Every block starts at a multiple of 8, and every link leads to one. -/
def Aligned (base : Nat) (blocks : List Block) : Prop :=
  (∀ address b, StartsAt base blocks address b → 8 ∣ address) ∧
    ∀ b ∈ blocks, ∀ link ∈ b.links, 8 ∣ link

theorem dvd_links {base : Nat} {blocks : List Block} {table : Bytes → Nat → Option Bytes}
    (links : ∀ b ∈ blocks, b.LinksTo table (StartsAt base blocks))
    (starts : ∀ address b, StartsAt base blocks address b → 8 ∣ address) :
    ∀ b ∈ blocks, ∀ link ∈ b.links, 8 ∣ link := by
  intro b member link inside
  obtain ⟨i, found⟩ := List.mem_iff_getElem?.mp inside
  by_cases unset : link = 0
  · rw [unset]
    exact Nat.dvd_zero 8
  · obtain ⟨target, at_, -⟩ := links b member i link found unset
    exact starts link target at_

theorem aligned_fileBlocks (bundle : SessionBundle) (t0Ns : Int) (stored : List StoredGroup) :
    Aligned 64 (fileBlocks bundle t0Ns stored) ↔ ∀ s ∈ stored.dropLast, 8 ∣ s.records.length := by
  have sizes : (∀ b ∈ (fileBlocks bundle t0Ns stored).dropLast, 8 ∣ b.encode.length) ↔
      ∀ s ∈ stored.dropLast, 8 ∣ s.records.length := by
    have head := dvd_headBlocks (firstDg (groupsStart bundle) stored) bundle t0Ns
    rw [← dvd_groupsBlocks (groupsStart bundle), fileBlocks]
    by_cases none : groupsBlocks (groupsStart bundle) stored = []
    · rw [none, List.append_nil]
      exact ⟨fun _ b member => absurd member List.not_mem_nil,
        fun _ b member => head b (List.dropLast_subset _ member)⟩
    · rw [List.dropLast_append_of_ne_nil none, List.forall_mem_append]
      exact and_iff_right head
  rw [← sizes, ← StartsAt.dvd_iff (show 8 ∣ 64 by decide)]
  exact ⟨And.left, fun starts => ⟨starts, dvd_links (linksTo_fileBlocks bundle t0Ns stored) starts⟩⟩

/-- The file that is built is aligned exactly when the rows of every group that is written, but for
the last one, come to a multiple of 8 bytes. -/
theorem buildMdf4_aligned_iff {groups : List ChannelGroup} {bundle : SessionBundle}
    {t0Ns : Int} {file : Bytes} (built : buildMdf4 groups bundle t0Ns = some file) :
    ∃ stored, storedGroups groups = some stored ∧ LaidOut file (fileBlocks bundle t0Ns stored) ∧
      (Aligned 64 (fileBlocks bundle t0Ns stored) ↔
        ∀ g ∈ (groups.filter ChannelGroup.live).dropLast,
          8 ∣ g.timeAxisS.length * recordSize g) := by
  rw [buildMdf4_eq] at built
  obtain ⟨stored, all, rfl⟩ := Option.map_eq_some_iff.mp built
  refine ⟨stored, all, laidOut_fileBytes bundle t0Ns stored, ?_⟩
  rw [aligned_fileBlocks,
    ← List.forall_mem_map (f := fun s : StoredGroup => s.records.length) (P := fun n => 8 ∣ n),
      List.map_dropLast, stored_sizes all, ← List.map_dropLast, List.forall_mem_map]

def oneRow (dataType : Bytes) : ChannelGroup :=
  { name := ascii "A", channels := [⟨ascii "a", [], dataType, [⟨0⟩]⟩], timeAxisS := [⟨0⟩] }

theorem oneRow_convertible (dataType : Bytes) : (oneRow dataType).Convertible := by
  intro row inside ch member
  obtain rfl := List.mem_singleton.mp member
  obtain rfl : row = 0 := Nat.lt_one_iff.mp inside
  unfold storeValue
  rcases ctype_cases dataType with kind | kind | kind | kind <;> rw [kind]
  · rfl
  · rfl
  · have fits : (⟨0⟩ : Double).toInt16.isSome := by decide +kernel
    exact Option.isSome_map.trans fits
  · have fits : (⟨0⟩ : Double).toUInt8.isSome := by decide +kernel
    exact Option.isSome_map.trans fits

theorem buildMdf4_oneRows (first second : Bytes) :
    buildMdf4 [oneRow first, oneRow second] { session := {} } 0 =
      some (fileBytes { session := {} } 0 [(oneRow first).stored, (oneRow second).stored]) := by
  rw [buildMdf4_eq, storedGroups_eq (by simp [oneRow_convertible])]
  rfl

theorem floatRow_aligned :
    ∃ file stored,
      buildMdf4 [oneRow (ascii "float64"), oneRow (ascii "uint8")] { session := {} } 0 = some file ∧
      LaidOut file (fileBlocks { session := {} } 0 stored) ∧
        Aligned 64 (fileBlocks { session := {} } 0 stored) := by
  have built := buildMdf4_oneRows (ascii "float64") (ascii "uint8")
  obtain ⟨stored, -, laidOut, aligned⟩ := buildMdf4_aligned_iff built
  refine ⟨_, stored, built, laidOut, aligned.mpr ?_⟩
  decide

/-- A row of 9 bytes before the second group. -/
theorem byteRow_notAligned :
    ∃ file stored,
      buildMdf4 [oneRow (ascii "uint8"), oneRow (ascii "uint8")] { session := {} } 0 = some file ∧
      LaidOut file (fileBlocks { session := {} } 0 stored) ∧
        ¬ Aligned 64 (fileBlocks { session := {} } 0 stored) := by
  refine ⟨_, _, buildMdf4_oneRows _ _, laidOut_fileBytes _ _ _, fun aligned => ?_⟩
  have rows := (aligned_fileBlocks _ _ _).mp aligned _ List.mem_cons_self
  rw [ChannelGroup.stored, (oneRow_convertible _).length_rows] at rows
  exact absurd rows (by decide)

end LocalPC.Offline
