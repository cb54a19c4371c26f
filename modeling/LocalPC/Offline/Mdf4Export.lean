import LocalPC.Offline.Mdf4Reader

namespace LocalPC.Offline
open Lib

section Recovered
variable {groups : List ChannelGroup} {file : Bytes}

theorem mapM_readGroup {live : List ChannelGroup} (convertible : ∀ g ∈ live, g.Convertible)
    (nulFree : ∀ g ∈ live, g.NulFree) (fits : ∀ g ∈ live, g.Fits)
    (few : ∀ g ∈ live, g.timeAxisS.length < 2 ^ 64) {address : Nat}
    (at_ : GroupsAt (fun x b => blockAt file x = some b) address (live.map ChannelGroup.stored))
    (inside : ∀ address b, blockAt file address = some b → address < file.length) :
    (dgBlocks address (live.map ChannelGroup.stored)).mapM (readGroup file) =
      some (live.map ChannelGroup.measured) := by
  induction live generalizing address with
  | nil => rfl
  | cons g live ih =>
      rw [List.forall_mem_cons] at convertible nulFree fits few
      have first : readGroup file
          (dgBlock _ _ ((groupAddresses address g.stored.group).dt g.stored.group)) =
          some g.measured := readGroup_eq convertible.1 fits.1 nulFree.1 few.1 at_.1 inside
      have later := ih convertible.2 nulFree.2 fits.2 few.2 at_.2
      rw [List.map_cons, dgBlocks, List.mapM_cons, first]
      simp only [Option.bind_eq_bind, Option.bind_some, later]
      rfl

theorem blockAt_lt {address : Nat} {b : Block} (found : blockAt file address = some b) :
    address < file.length := by
  by_contra behind
  rw [blockAt, List.drop_eq_nil_of_le (Nat.le_of_not_lt behind), RecordFormat.size_nil] at found
  cases found

theorem GroupsAt.dtBlock_mem {base address : Nat} {blocks : List Block} {stored : List StoredGroup}
    (at_ : GroupsAt (StartsAt base blocks) address stored) : ∀ s ∈ stored, dtBlock s ∈ blocks := by
  induction stored generalizing address with
  | nil => simp
  | cons s rest ih => exact List.forall_mem_cons.mpr ⟨at_.1.dt.mem, ih at_.2⟩

theorem decodable_fileBytes (convertible : ∀ g ∈ groups, g.Convertible)
    (nulFree : ∀ g ∈ groups, g.NulFree) (fits : ∀ g ∈ groups, g.live = true → g.Fits)
    (bundle : SessionBundle) (t0Ns : Int)
    (small : (fileBytes bundle t0Ns
      ((groups.filter ChannelGroup.live).map ChannelGroup.stored)).length < 2 ^ 64) :
    Decodable groups
      (fileBytes bundle t0Ns ((groups.filter ChannelGroup.live).map ChannelGroup.stored)) := by
  let live := groups.filter ChannelGroup.live
  let stored := live.map ChannelGroup.stored
  let blocks := fileBlocks bundle t0Ns stored
  have liveConvertible (g) (member : g ∈ live) : g.Convertible :=
    convertible g (List.mem_filter.mp member).1
  have liveNulFree (g) (member : g ∈ live) : g.NulFree := nulFree g (List.mem_filter.mp member).1
  have liveFits (g) (member : g ∈ live) : g.Fits :=
    fits g (List.mem_filter.mp member).1 (List.mem_filter.mp member).2
  have counted : ∀ s ∈ stored, s.Counted := by
    intro s member
    obtain ⟨g, inside, rfl⟩ := List.mem_map.mp member
    exact ChannelGroup.stored_counted (liveConvertible g inside) (liveFits g inside)
  have file : fileBytes bundle t0Ns stored = idBlock ++ encodeBlocks blocks :=
    fileBytes_eq counted bundle t0Ns
  rw [show (groups.filter ChannelGroup.live).map ChannelGroup.stored = stored from rfl, file]
    at small ⊢
  have length : (idBlock ++ encodeBlocks blocks).length = 64 + (encodeBlocks blocks).length := by
    rw [List.length_append, length_idBlock]
  have wf : ∀ b ∈ blocks, b.WellFormed := wellFormed_fileBlocks bundle t0Ns stored (length ▸ small)
  have rest : (idBlock ++ encodeBlocks blocks).drop 64 = encodeBlocks blocks :=
    List.drop_left' length_idBlock
  have isBlock {address : Nat} {b : Block} (starts : StartsAt 64 blocks address b) :
      IsBlock 64 (idBlock ++ encodeBlocks blocks) address b := by
    rw [← length_idBlock] at starts ⊢
    exact starts.isBlock wf
  have held {address : Nat} {b : Block} (starts : StartsAt 64 blocks address b) :
      blockAt (idBlock ++ encodeBlocks blocks) address = some b := by
    rw [← length_idBlock] at starts
    have found := @StartsAt.blockAt_eq _ _ _ _ [] starts (wf b starts.mem)
    rwa [List.append_nil] at found
  refine ⟨⟨by omega, ?_⟩, ?_, ?_⟩
  · rw [rest]
    exact whole_encodeBlocks wf
  · rintro address b ⟨before, r, after, records, -, rfl⟩
    rw [rest, records_encodeBlocks wf] at records
    have member : r ∈ blocks.map Block.encode := by simp [records]
    obtain ⟨b, inside, rfl⟩ := List.mem_map.mp member
    rw [Block.decode_encode (wf b inside)]
    exact (linksTo_fileBlocks bundle t0Ns stored b inside).mono fun address b starts =>
      isBlock starts
  · have groupsAt :=
      (groupsAt_fileBlocks bundle t0Ns stored).mono fun address b starts => held starts
    have few (g) (member : g ∈ live) : g.timeAxisS.length < 2 ^ 64 := by
      have data :=
        (groupsAt_fileBlocks bundle t0Ns stored).dtBlock_mem g.stored (List.mem_map_of_mem member)
      have size := (wf _ data).size
      have rows : (dtBlock g.stored).data.length = g.timeAxisS.length * recordSize g :=
        (liveConvertible g member).length_rows
      have atLeast : g.timeAxisS.length * 1 ≤ g.timeAxisS.length * recordSize g :=
        Nat.mul_le_mul_left _ ((by omega : 1 ≤ 8).trans (Nat.le_add_right 8 _))
      rw [Block.size, rows] at size
      omega
    have inside : ∀ address b, blockAt (idBlock ++ encodeBlocks blocks) address = some b →
        address < (idBlock ++ encodeBlocks blocks).length := fun _ _ found => blockAt_lt found
    have startSet : groupsStart bundle ≠ 0 := by simp [groupsStart]
    have dgs := (linked_dgBlocks startSet groupsAt).follow_eq
      ((length_groupsAt inside groupsAt).trans (Nat.sub_le _ _))
    have hd := held (startsAt_headBlocks bundle t0Ns stored).1
    have read := mapM_readGroup liveConvertible liveNulFree liveFits few groupsAt inside
    have first : (hdBlock (firstDg (groupsStart bundle) stored) 168 224 t0Ns).links.getD 0 0 =
        firstDg (groupsStart bundle) stored := rfl
    have kind : decide ((hdBlock (firstDg (groupsStart bundle) stored) 168 224 t0Ns).id =
        ascii "##HD") = true :=
      decide_eq_true rfl
    rw [readMdf4, hd, Option.filter_some, if_pos kind]
    simp only [Option.bind_eq_bind, Option.bind_some, first, dgs]
    exact read

end Recovered

/-- A file of less than 2^64 bytes with rows of less than 2^32 bytes can be read back. -/
theorem buildMdf4_decodable {groups : List ChannelGroup} (convertible : ∀ g ∈ groups, g.Convertible)
    (nulFree : ∀ g ∈ groups, g.NulFree) (fits : ∀ g ∈ groups, g.live = true → g.Fits)
    (bundle : SessionBundle) (t0Ns : Int) :
    ∃ file, buildMdf4 groups bundle t0Ns = some file ∧
      (file.length < 2 ^ 64 → Decodable groups file) := by
  refine ⟨_, ?_, decodable_fileBytes convertible nulFree fits bundle t0Ns⟩
  rw [buildMdf4_eq, storedGroups_eq convertible, Option.map_some]

def sampleGroups : List ChannelGroup :=
  [{ name := ascii "motion"
     channels :=
       [{ name := ascii "speed"
          unit := ascii "m/s"
          dataType := ascii "float64"
          data := [⟨0x4024000000000000⟩, ⟨0x4026000000000000⟩] },
        { name := ascii "gear"
          unit := []
          dataType := ascii "int16"
          data := [⟨0x3FF0000000000000⟩, ⟨0x4000000000000000⟩] }]
     timeAxisS := [⟨0⟩, ⟨0x3FF0000000000000⟩] },
   { name := ascii "scene", channels := [], timeAxisS := [] },
   { name := ascii "gnss"
     channels :=
       [{ name := ascii "altitude"
          unit := ascii "m"
          dataType := ascii "float32"
          data := [⟨0x4059000000000000⟩] },
        { name := ascii "valid"
          unit := []
          dataType := ascii "uint8"
          data := [⟨0⟩, ⟨0x3FF0000000000000⟩, ⟨0⟩] }]
     timeAxisS := [⟨0⟩, ⟨0x3FE0000000000000⟩, ⟨0x3FF0000000000000⟩] }]

theorem sampleGroups_decodable : ∃ file, buildMdf4 sampleGroups { session := {} } 0 = some file ∧
    Decodable sampleGroups file := by
  have convertible : ∀ g ∈ sampleGroups, g.Convertible := by
    unfold ChannelGroup.Convertible
    decide +kernel
  have texts : ∀ g ∈ sampleGroups, 0 ∉ g.name ∧ ∀ ch ∈ g.channels, 0 ∉ ch.name ∧
      0 ∉ ch.unit := by decide
  have narrow : ∀ g ∈ sampleGroups, recordSize g < 2 ^ 32 := by decide
  obtain ⟨file, built, decodable⟩ := buildMdf4_decodable convertible
    (fun g member => ⟨(texts g member).1, (texts g member).2⟩)
      (fun g member _ => narrow g member) { session := {} } 0
  refine ⟨file, built, decodable ?_⟩
  have small :
      (fileBytes { session := {} } 0
        ((sampleGroups.filter ChannelGroup.live).map ChannelGroup.stored)).length < 2 ^ 64 := by
    decide +kernel
  rw [buildMdf4_eq, storedGroups_eq convertible] at built
  cases built
  exact small

def zeroChannel : ChannelDesc :=
  { name := [], unit := [], dataType := ascii "float64", data := [⟨0⟩] }

def zeroGroup (n : Nat) : ChannelGroup :=
  { name := [], channels := List.replicate n zeroChannel, timeAxisS := [⟨0⟩] }

section ZeroGroup
variable (n : Nat)

theorem zeroGroup_convertible : (zeroGroup n).Convertible := by
  intro row _ ch member
  rw [List.eq_of_mem_replicate member]
  rfl

theorem zeroGroup_nulFree : (zeroGroup n).NulFree := by
  refine ⟨List.not_mem_nil, fun ch member => ?_⟩
  rw [List.eq_of_mem_replicate member]
  exact ⟨List.not_mem_nil, List.not_mem_nil⟩

theorem recordSize_zeroGroup : recordSize (zeroGroup n) = 8 + n * 8 := by
  have eight : zeroChannel.size = 8 := by decide
  rw [recordSize, zeroGroup, List.map_replicate, List.sum_replicate_nat, eight]

end ZeroGroup

theorem fileBytes_records (bundle : SessionBundle) (t0Ns : Int)
    (g : ChannelGroup) (records : Bytes) :
    fileBytes bundle t0Ns [{ group := g, records }] =
      fileBytes bundle t0Ns [{ group := g, records := [] }] ++ records := by
  simp only [fileBytes, groupsBytes, groupBytes, dtBytes, firstDg,
    List.append_assoc, List.append_nil]

theorem length_channelTexts_replicate (n : Nat) :
    (encodeBlocks (channelTexts (List.replicate n zeroChannel))).length = 64 * n := by
  induction n with
  | zero => rfl
  | succ n ih =>
      have one : (encodeBlocks [txBlock zeroChannel.name, txBlock zeroChannel.unit]).length =
          64 := by decide
      rw [List.replicate_succ, channelTexts, List.flatMap_cons, encodeBlocks_append,
        List.length_append, one]
      show 64 + (encodeBlocks (channelTexts (List.replicate n zeroChannel))).length = _
      rw [ih]
      omega

theorem length_fileBytes_zeroGroup (n : Nat) :
    (fileBytes { session := {} } 0 [{ group := zeroGroup n, records := [] }]).length ≤
      1000 + 224 * n := by
  have start : groupsStart { session := {} } ≤ 400 := by decide +kernel
  have head :=
    length_headBlocks { session := {} } 0
      (groupAddresses (groupsStart { session := {} }) (zeroGroup n)).dg
  have texts :
      (encodeBlocks
        [txBlock (zeroGroup n).name, txBlock ((zeroGroup n).name ++ ascii ".time_s"),
          txBlock (ascii "s")]).length = 96 :=
    show (encodeBlocks [txBlock [], txBlock (ascii ".time_s"), txBlock (ascii "s")]).length =
      96 by decide
  have channels : (encodeBlocks (channelTexts (zeroGroup n).channels)).length = 64 * n :=
    length_channelTexts_replicate n
  have count : (zeroGroup n).channels.length = n := List.length_replicate
  have four : (ascii "##DT").length = 4 := by decide
  simp only [fileBytes, groupsBytes, groupBytes, groupHead, groupTexts, dtBytes,
    firstDg, encodeBlocks_append, List.length_append, texts, channels, length_idBlock,
      List.length_nil, Block.length_header four]
  rw [encodeBlocks_cons, encodeBlocks_cons, List.length_append, List.length_append,
    length_dgBlock, length_cgBlock, length_cnBlocks, length_groupCns, count]
  omega

/-- With 2^29 - 1 doubles a row has 2^32 bytes: the record size and the length of the data block are
written without them, so the blocks do not tile the file. -/
theorem wideRows_notDecodable :
    ¬ ∀ (groups : List ChannelGroup) (bundle : SessionBundle) (t0Ns : Int),
      (∀ g ∈ groups, g.Convertible) →
      (∀ g ∈ groups, g.NulFree) →
      ∃ file, buildMdf4 groups bundle t0Ns = some file ∧
        (file.length < 2 ^ 64 → Decodable groups file) := by
  intro always
  obtain ⟨n, wide⟩ : ∃ n, n + 1 = 2 ^ 29 - 1 := ⟨2 ^ 29 - 2, by decide⟩
  let g := zeroGroup (n + 1)
  have convertible : g.Convertible := zeroGroup_convertible (n + 1)
  obtain ⟨file, built, decodable⟩ := always [g] { session := {} } 0 (by simp [convertible])
    (by simp [g, zeroGroup_nulFree])
  let blocks := fileBlocks { session := {} } 0 [{ group := g, records := [] }]
  have size : recordSize g = 2 ^ 32 := by
    rw [recordSize_zeroGroup, wide]
    decide
  have cut : (makeLayout g).recSize = 0 := by
    rw [makeLayout_eq, size]
    rfl
  have counted : ∀ s ∈ [({ group := g, records := [] } : StoredGroup)], s.Counted := by
    simp [StoredGroup.Counted, cut]
  have tiles := fileBytes_eq counted { session := {} } 0
  have whole : file = idBlock ++ encodeBlocks blocks ++ g.rows := by
    have live : [g].filter ChannelGroup.live = [g] := rfl
    rw [buildMdf4_eq, storedGroups_eq (by simp [convertible]), live] at built
    rw [← tiles, ← fileBytes_records]
    exact (Option.some.inj built).symm
  have rows : g.rows.length = 2 ^ 32 := by
    rw [convertible.length_rows, size]
    exact Nat.one_mul _
  have front : (idBlock ++ encodeBlocks blocks).length ≤ 1000 + 224 * 2 ^ 29 := by
    have bound := length_fileBytes_zeroGroup (n + 1)
    rw [tiles, wide] at bound
    exact bound.trans (by decide)
  have short : (idBlock ++ encodeBlocks blocks ++ g.rows).length < 2 ^ 64 := by
    rw [List.length_append, rows]
    omega
  obtain ⟨⟨-, tiled⟩, -, -⟩ := decodable (whole ▸ short)
  have wf : ∀ b ∈ blocks, b.WellFormed := by
    apply wellFormed_fileBlocks
    rw [List.length_append, length_idBlock] at front
    show 64 + (encodeBlocks blocks).length < 2 ^ 64
    omega
  have records : ∀ r ∈ blocks.map Block.encode, blockFormat.IsRecord r := by
    intro r member
    obtain ⟨b, inside, rfl⟩ := List.mem_map.mp member
    exact Block.isRecord_encode (wf b inside)
  have zeros : field 8 8 g.rows = 0 := by
    have row : g.rows =
        leBytes 8 0 ++ (leBytes 8 0 ++ (List.replicate n zeroChannel).flatMap (·.encoded 0)) := by
      simp [g, zeroGroup, ChannelGroup.rows, ChannelGroup.row,
        ChannelGroup.time, List.replicate_succ]
      rfl
    rw [row, field_of_split (leBytes_length 8 0)]
    decide
  have none : blockFormat.size? g.rows = none := by
    refine if_neg fun fits => ?_
    rw [zeros] at fits
    omega
  have rest : file.drop 64 = (blocks.map Block.encode).flatten ++ g.rows := by
    rw [whole, List.append_assoc, List.drop_left' length_idBlock, encodeBlocks, List.flatMap_def]
  rw [rest, RecordFormat.Whole, RecordFormat.remainder_append records,
    RecordFormat.remainder_of_none none] at tiled
  rw [tiled] at rows
  exact absurd rows (by decide)

end LocalPC.Offline
