import LocalPC.Offline.Mdf4Blocks

namespace LocalPC.Offline
open Lib

structure MeasuredChannel where
  name : Bytes
  unit : Bytes
  cnType : Nat
  cnSync : Nat
  cnDataType : Nat
  values : List Bytes
  deriving DecidableEq, Repr

structure MeasuredGroup where
  name : Bytes
  cycles : Nat
  channels : List MeasuredChannel
  deriving DecidableEq, Repr

def linkedBlock (file id : Bytes) (b : Block) (i : Nat) : Option Block :=
  (blockAt file (b.links.getD i 0)).filter fun target => target.id = id

def readText (file : Bytes) (b : Block) (i : Nat) : Option Bytes :=
  (linkedBlock file (ascii "##TX") b i).map fun text => text.data.takeWhile (· ≠ 0)

def readChannel (file records : Bytes) (cycles recSize : Nat) (cn : Block) :
    Option MeasuredChannel := do
  let name ← readText file cn 2
  let unit ← readText file cn 6
  let slice (row : Nat) :=
    (records.drop (row * recSize + field 4 4 cn.data)).take (field 8 4 cn.data / 8)
  return {
    name, unit
    cnType := field 0 1 cn.data
    cnSync := field 1 1 cn.data
    cnDataType := field 2 1 cn.data
    values := (List.range cycles).map slice }

def readGroup (file : Bytes) (dg : Block) : Option MeasuredGroup := do
  let cg ← linkedBlock file (ascii "##CG") dg 1
  let dt ← linkedBlock file (ascii "##DT") dg 2
  let name ← readText file cg 2
  let cns ← follow file (ascii "##CN") file.length (cg.links.getD 1 0)
  let cycles := field 8 8 cg.data
  let channels ← cns.mapM (readChannel file dt.data cycles (field 24 4 cg.data))
  return { name, cycles, channels }

def readMdf4 (file : Bytes) : Option (List MeasuredGroup) := do
  let hd ← (blockAt file 64).filter fun b => b.id = ascii "##HD"
  let dgs ← follow file (ascii "##DG") file.length (hd.links.getD 0 0)
  dgs.mapM (readGroup file)

def ChannelGroup.measuredTime (g : ChannelGroup) : MeasuredChannel where
  name := g.name ++ ascii ".time_s"
  unit := ascii "s"
  cnType := 2
  cnSync := 1
  cnDataType := 6
  values := (List.range g.timeAxisS.length).map g.time

def ChannelDesc.measured (rows : Nat) (ch : ChannelDesc) : MeasuredChannel where
  name := ch.name
  unit := ch.unit
  cnType := 0
  cnSync := 0
  cnDataType := (ctype ch.dataType).cnDataType.toNat
  values := (List.range rows).map ch.encoded

def ChannelGroup.measured (g : ChannelGroup) : MeasuredGroup where
  name := g.name
  cycles := g.timeAxisS.length
  channels := g.measuredTime :: g.channels.map (ChannelDesc.measured g.timeAxisS.length)

structure ChannelGroup.NulFree (g : ChannelGroup) : Prop where
  name : 0 ∉ g.name
  channels : ∀ ch ∈ g.channels, 0 ∉ ch.name ∧ 0 ∉ ch.unit

/-- The blocks tile the file, the links lead to blocks of the right kind, and a reader finds the
groups with channels and rows. -/
structure Decodable (groups : List ChannelGroup) (file : Bytes) : Prop where
  tiled : 64 ≤ file.length ∧ blockFormat.Whole (file.drop 64)
  linked : ∀ address b, IsBlock 64 file address b → b.LinksTo linkTarget (IsBlock 64 file)
  recovered : readMdf4 file = some ((groups.filter ChannelGroup.live).map ChannelGroup.measured)

theorem slice_flatMap {f : Nat → Bytes} {n size row offset width : Nat}
    (each : ∀ i < n, (f i).length = size) (inside : row < n) (within : offset + width ≤ size) :
    (((List.range n).flatMap f).drop (row * size + offset)).take width =
      ((f row).drop offset).take width := by
  have before : ((List.range row).flatMap f).length = row * size := by
    rw [List.length_flatMap, List.map_congr_left fun i member =>
      each i ((List.mem_range.mp member).trans inside)]
    simp
  have split : (List.range n).flatMap f =
      (List.range row).flatMap f ++
        (f row ++ ((List.range' (row + 1) (n - (row + 1))).flatMap f)) := by
    have parts : List.range n = List.range row ++ row :: List.range' (row + 1) (n - (row + 1)) := by
      have whole := List.range'_append_1 (s := 0) (m := row) (n := n - row)
      rw [List.range_eq_range', List.range_eq_range', ← List.range'_succ,
        show n - (row + 1) + 1 = n - row by omega]
      rw [Nat.zero_add, show row + (n - row) = n by omega] at whole
      exact whole.symm
    rw [parts, List.flatMap_append, List.flatMap_cons]
  rw [split, ← before, List.drop_length_add_append,
    List.drop_append_of_le_length (by rw [each row inside]; omega),
      List.take_append_of_le_length (by rw [List.length_drop, each row inside]; omega)]

theorem slice_offsetsFrom {part : ChannelDesc → Bytes} (channels : List ChannelDesc)
    (sized : ∀ ch ∈ channels, (part ch).length = ch.size) (front : Bytes) (offset : UInt32)
    (here : front.length = offset.toNat)
    (fits : offset.toNat + (channels.map ChannelDesc.size).sum < 2 ^ 32) :
    List.Forall₂
      (fun ch offset =>
        ((front ++ channels.flatMap part).drop offset.toNat).take ch.size = part ch ∧
      offset.toNat + ch.size ≤ (front ++ channels.flatMap part).length) channels
        (offsetsFrom offset channels) := by
  induction channels generalizing front offset with
  | nil => exact .nil
  | cons ch rest ih =>
      rw [List.forall_mem_cons] at sized
      rw [List.map_cons, List.sum_cons] at fits
      have length : (front ++ part ch).length =
          front.length + ch.size := by rw [List.length_append, sized.1]
      have next : (front ++ part ch).length = (offset + (ctype ch.dataType).byteSize).toNat := by
        rw [length, here, UInt32.toNat_add, Nat.mod_eq_of_lt]
        · rfl
        · exact Nat.lt_of_le_of_lt (Nat.add_le_add_left (Nat.le_add_right ch.size _) _) fits
      rw [List.flatMap_cons, ← List.append_assoc]
      refine .cons ⟨?_, ?_⟩ (ih sized.2 _ _ next ?_)
      · rw [← here, List.append_assoc, List.drop_left, ← sized.1, List.take_left]
      · rw [List.length_append, length, here]
        omega
      · rw [← next, length, here, Nat.add_assoc]
        exact fits

theorem length_offsetsFrom (offset : UInt32) (channels : List ChannelDesc) :
    (offsetsFrom offset channels).length = channels.length := by
  induction channels generalizing offset with
  | nil => rfl
  | cons ch rest ih => simp [offsetsFrom, ih]

theorem ChannelGroup.Convertible.slice_rows {g : ChannelGroup}
    (convertible : g.Convertible) (fits : g.Fits) :
    List.Forall₂ (fun ch offset => ∀ row < g.timeAxisS.length,
      (g.rows.drop (row * recordSize g + offset.toNat)).take ch.size = ch.encoded row) g.channels
      (offsetsFrom 8 g.channels) := by
  have parts (row : Nat) (inside : row < g.timeAxisS.length) :=
    slice_offsetsFrom g.channels
      (fun ch member => convertible.length_encoded inside member) (g.time row) 8
      (leBytes_length 8 _) fits
  refine List.forall₂_iff_zip.mpr
    ⟨(length_offsetsFrom 8 g.channels).symm, fun {ch offset} zipped row inside => ?_⟩
  obtain ⟨found, within⟩ := (List.forall₂_iff_zip.mp (parts row inside)).2 zipped
  have size : (g.time row ++ g.channels.flatMap (·.encoded row)).length = recordSize g :=
    convertible.length_row inside
  rw [ChannelGroup.rows,
    slice_flatMap (fun i => convertible.length_row) inside (within.trans_eq size)]
  exact found

theorem ChannelGroup.Convertible.slice_time {g : ChannelGroup}
    (convertible : g.Convertible) {row : Nat} (inside : row < g.timeAxisS.length) :
    (g.rows.drop (row * recordSize g + 0)).take 8 = g.time row := by
  have within : 0 + 8 ≤ recordSize g := Nat.le_add_right 8 _
  rw [ChannelGroup.rows,
    slice_flatMap (fun i => convertible.length_row) inside within, List.drop_zero]
  exact List.take_left' (leBytes_length 8 _)

section Reading
variable {file : Bytes}

theorem linkedBlock_eq {id : Bytes} {b target : Block} {i : Nat}
    (held : blockAt file (b.links.getD i 0) = some target) (kind : target.id = id) :
    linkedBlock file id b i = some target := by
  rw [linkedBlock, held, Option.filter_some, if_pos (decide_eq_true kind)]

theorem readText_eq {text : Bytes} (nulFree : 0 ∉ text) {b : Block} {i : Nat}
    (held : blockAt file (b.links.getD i 0) = some (txBlock text)) :
    readText file b i = some text := by
  have plain : ∀ c ∈ text, decide (c ≠ 0) = true := by
    intro c member
    apply decide_eq_true
    rintro rfl
    exact nulFree member
  rw [readText, linkedBlock_eq held (show _ = ascii "##TX" from rfl), Option.map_some, txBlock,
    textData, List.append_assoc, List.takeWhile_append_of_pos plain]
  simp

theorem fields_cnData (args : CnArgs) :
    field 0 1 (cnData args) = args.cnType.toNat ∧ field 1 1 (cnData args) = args.cnSync.toNat ∧
      field 2 1 (cnData args) = args.cnDataType.toNat ∧
        field 4 4 (cnData args) = args.byteOff.toNat ∧
      field 8 4 (cnData args) = args.bitCnt.toNat := by
  refine ⟨by simp [cnData, field, leNat], by simp [cnData, field, leNat], by simp [cnData, field, leNat], ?_, ?_⟩
  · simp only [cnData, List.append_assoc]
    rw [field_of_split (by simp)]
    exact Nat.mod_eq_of_lt args.byteOff.toNat_lt
  · simp only [cnData, List.append_assoc]
    rw [← List.append_assoc, field_of_split (by simp)]
    exact Nat.mod_eq_of_lt args.bitCnt.toNat_lt

theorem fields_cgData {n : Nat} (few : n < 2 ^ 64) (recSize : UInt32) :
    field 8 8 (cgData n recSize) = n ∧ field 24 4 (cgData n recSize) = recSize.toNat := by
  constructor
  · simp only [cgData, List.append_assoc]
    rw [field_of_split (by simp)]
    exact Nat.mod_eq_of_lt few
  · have front : (leBytes 8 0 ++ leBytes 8 n ++ leBytes 2 0 ++ leBytes 2 0 ++ zeros 4).length =
        24 := by
      simp [length_zeros]
    rw [cgData, List.append_assoc, field_of_split front]
    exact Nat.mod_eq_of_lt recSize.toNat_lt

theorem readChannel_eq {next : Nat} {args : CnArgs} {name unit : Bytes}
    (nulFree : 0 ∉ name ∧ 0 ∉ unit) (nameAt : blockAt file args.txName = some (txBlock name))
    (unitAt : blockAt file args.txUnit = some (txBlock unit)) (records : Bytes)
    (cycles recSize : Nat) :
    readChannel file records cycles recSize (cnBlock next args) = some {
      name, unit
      cnType := args.cnType.toNat
      cnSync := args.cnSync.toNat
      cnDataType := args.cnDataType.toNat
      values := (List.range cycles).map fun row =>
        (records.drop (row * recSize + args.byteOff.toNat)).take (args.bitCnt.toNat / 8) } := by
  have named : readText file (cnBlock next args) 2 = some name := readText_eq nulFree.1 nameAt
  have measured : readText file (cnBlock next args) 6 = some unit := readText_eq nulFree.2 unitAt
  obtain ⟨type, sync, dataType, offset, bits⟩ := fields_cnData args
  have data : (cnBlock next args).data = cnData args := rfl
  simp only [readChannel, named, measured, data, type, sync, dataType, offset, bits,
    Option.bind_eq_bind, Option.bind_some]
  rfl

theorem mapM_readChannel {records : Bytes} {cycles recSize : Nat} {args : List CnArgs}
    {channels : List MeasuredChannel}
    (each : List.Forall₂
      (fun x ch => ∀ next, readChannel file records cycles recSize (cnBlock next x) = some ch) args
      channels) (address : Nat) :
    (cnBlocks address args).mapM (readChannel file records cycles recSize) = some channels := by
  induction each generalizing address with
  | nil => rfl
  | cons first _ ih =>
      rw [cnBlocks, List.mapM_cons, first, ih]
      rfl

theorem linked_cnBlocks {address : Nat} {args : List CnArgs} (set_ : address ≠ 0)
    (at_ : CnsAt (fun x b => blockAt file x = some b) address args) :
    Linked file (ascii "##CN") (if args.isEmpty then 0 else address) (cnBlocks address args) := by
  induction args generalizing address with
  | nil => rfl
  | cons first rest ih => exact ⟨set_, at_.1, rfl, ih (by omega) at_.2⟩

theorem length_cnsAt {limit : Nat} {holds : Nat → Block → Prop}
    (inside : ∀ address b, holds address b → address < limit) {address : Nat} {args : List CnArgs}
    (at_ : CnsAt holds address args) : args.length ≤ limit - address := by
  induction args generalizing address with
  | nil => exact Nat.zero_le _
  | cons first rest ih =>
      have here := inside address _ at_.1
      have later := ih at_.2
      rw [List.length_cons]
      omega

theorem bits_ctype (dataType : Bytes) :
    (ctype dataType).bitCount.toNat / 8 = (ctype dataType).byteSize.toNat := by
  rcases ctype_cases dataType with kind | kind | kind | kind <;> rw [kind] <;> rfl

theorem forall₂_channelCn {T : Nat × Nat → ChannelDesc → Prop} {S : ChannelDesc → UInt32 → Prop}
    {R : CnArgs → MeasuredChannel → Prop} {rows : Nat} {tx : List (Nat × Nat)}
    {channels : List ChannelDesc} {offsets : List UInt32} (texts : List.Forall₂ T tx channels)
    (slices : List.Forall₂ S channels offsets)
    (each : ∀ tx ch offset, T tx ch → S ch offset → R (channelCn tx ch offset) (ch.measured rows)) :
    List.Forall₂ R
      (List.zipWith (fun x offset => channelCn x.1 x.2 offset) (tx.zip channels) offsets)
        (channels.map (ChannelDesc.measured rows)) := by
  induction texts generalizing offsets with
  | nil => exact .nil
  | cons text _ ih =>
      cases slices with
      | cons slice later => exact .cons (each _ _ _ text slice) (ih later)

theorem readChannels_eq {g : ChannelGroup} (convertible : g.Convertible)
    (fits : g.Fits) (nulFree : g.NulFree) {a : GroupAddresses} {next : Nat}
    (at_ : GroupAt (fun x b => blockAt file x = some b) a next g.stored) :
    List.Forall₂ (fun x ch => ∀ next,
      readChannel file g.rows g.timeAxisS.length (recordSize g) (cnBlock next x) = some ch)
        (groupCns a g)
      g.measured.channels := by
  obtain ⟨-, texts⟩ := List.forall₂_iff_zip.mp at_.channels
  have named : List.Forall₂
      (fun tx ch => (0 ∉ ch.name ∧ 0 ∉ ch.unit) ∧ blockAt file tx.1 = some (txBlock ch.name) ∧
      blockAt file tx.2 = some (txBlock ch.unit)) a.tx g.channels :=
    List.forall₂_iff_zip.mpr ⟨at_.channels.length_eq, fun zipped =>
      ⟨nulFree.channels _ (List.of_mem_zip zipped).2, texts zipped⟩⟩
  have timeFree : 0 ∉ g.name ++ ascii ".time_s" ∧ 0 ∉ ascii "s" := by
    rw [List.mem_append, not_or]
    exact ⟨⟨nulFree.name, by decide⟩, by decide⟩
  refine .cons (fun next => ?_) ?_
  · rw [readChannel_eq timeFree at_.timeName at_.timeUnit]
    refine congrArg (fun values => some { g.measuredTime with values })
      (List.map_congr_left fun row inside => ?_)
    simpa [timeCn] using convertible.slice_time (List.mem_range.mp inside)
  · rw [makeLayout_eq]
    refine forall₂_channelCn named
      (convertible.slice_rows fits) fun tx ch offset texts slices next => ?_
    rw [readChannel_eq texts.1 texts.2.1 texts.2.2]
    refine congrArg (fun values => some { ch.measured g.timeAxisS.length with values })
      (List.map_congr_left fun row inside => ?_)
    show List.take ((ctype ch.dataType).bitCount.toNat / 8) _ = _
    rw [bits_ctype]
    exact slices row (List.mem_range.mp inside)

theorem readGroup_eq {g : ChannelGroup} (convertible : g.Convertible)
    (fits : g.Fits) (nulFree : g.NulFree) (few : g.timeAxisS.length < 2 ^ 64)
    {a : GroupAddresses} {next : Nat}
    (at_ : GroupAt (fun x b => blockAt file x = some b) a next g.stored)
    (inside : ∀ address b, blockAt file address = some b → address < file.length) :
    readGroup file (dgBlock next a.cg (a.dt g)) = some g.measured := by
  let cg := cgBlock a.cn a.txCg g.timeAxisS.length (makeLayout g).recSize
  have cgFound : linkedBlock file (ascii "##CG") (dgBlock next a.cg (a.dt g)) 1 = some cg :=
    linkedBlock_eq at_.cg rfl
  have dtFound : linkedBlock file (ascii "##DT") (dgBlock next a.cg (a.dt g)) 2 =
      some (dtBlock g.stored) :=
    linkedBlock_eq at_.dt rfl
  have name : readText file cg 2 = some g.name := readText_eq nulFree.name at_.name
  have cnSet : a.cn ≠ 0 := by simp [GroupAddresses.cn]
  have enough : (cnBlocks a.cn (groupCns a g)).length ≤ file.length := by
    have fewer := length_cnsAt inside at_.cns
    have same (address : Nat)
        (args : List CnArgs) : (cnBlocks address args).length = args.length := by
      induction args generalizing address with
      | nil => rfl
      | cons first rest ih => simp [cnBlocks, ih]
    rw [same]
    exact fewer.trans (Nat.sub_le _ _)
  have cns : follow file (ascii "##CN") file.length a.cn = some (cnBlocks a.cn (groupCns a g)) :=
    (linked_cnBlocks cnSet at_.cns).follow_eq enough
  obtain ⟨cycles, size⟩ := fields_cgData few (makeLayout g).recSize
  have channels := mapM_readChannel (readChannels_eq convertible fits nulFree at_) a.cn
  have data : cg.data = cgData g.timeAxisS.length (makeLayout g).recSize := rfl
  have first : cg.links.getD 1 0 = a.cn := rfl
  have records : (dtBlock g.stored).data = g.rows := rfl
  rw [fits.recSize] at size
  simp only [readGroup, cgFound, dtFound, name, data, first, cns, cycles, size, records,
    channels, Option.bind_eq_bind, Option.bind_some]
  rfl

def dgBlocks (address : Nat) : List StoredGroup → List Block
  | [] => []
  | s :: rest =>
      let a := groupAddresses address s.group
      let behind := address + (encodeBlocks (groupBlocks address 0 s)).length
      dgBlock (firstDg behind rest) a.cg (a.dt s.group) :: dgBlocks behind rest

theorem linked_dgBlocks {address : Nat} {stored : List StoredGroup} (set_ : address ≠ 0)
    (at_ : GroupsAt (fun x b => blockAt file x = some b) address stored) :
    Linked file (ascii "##DG") (firstDg address stored) (dgBlocks address stored) := by
  induction stored generalizing address with
  | nil => rfl
  | cons s rest ih =>
      have dgSet : (groupAddresses address s.group).dg ≠ 0 := by
        simp [groupAddresses, set_]
      exact ⟨dgSet, at_.1.dg, rfl, ih (by omega) at_.2⟩

theorem length_groupsAt {limit : Nat} {holds : Nat → Block → Prop}
    (inside : ∀ address b, holds address b → address < limit) {address : Nat}
    {stored : List StoredGroup} (at_ : GroupsAt holds address stored) :
    (dgBlocks address stored).length ≤ limit - address := by
  induction stored generalizing address with
  | nil => exact Nat.zero_le _
  | cons s rest ih =>
      have here : address + (encodeBlocks (groupTexts s.group)).length < limit :=
        inside _ _ at_.1.dg
      have some : 0 < (encodeBlocks (groupBlocks address 0 s)).length := by
        simp only [groupBlocks, groupHead, encodeBlocks_append, encodeBlocks_cons,
          List.length_append, length_dgBlock]
        omega
      have later := ih at_.2
      rw [dgBlocks, List.length_cons]
      omega

end Reading

end LocalPC.Offline
