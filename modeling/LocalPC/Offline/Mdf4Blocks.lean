import LocalPC.Offline.Mdf4Layout
import Mathlib.Data.List.Forall2

namespace LocalPC.Offline
open Lib

def ChannelDesc.size (ch : ChannelDesc) : Nat := (ctype ch.dataType).byteSize.toNat

def recordSize (g : ChannelGroup) : Nat := 8 + (g.channels.map ChannelDesc.size).sum

def offsetsFrom (offset : UInt32) : List ChannelDesc → List UInt32
  | [] => []
  | ch :: rest => offset :: offsetsFrom (offset + (ctype ch.dataType).byteSize) rest

theorem makeLayout_eq (g : ChannelGroup) :
    makeLayout g =
      { offsets := 0 :: offsetsFrom 8 g.channels, recSize := UInt32.ofNat (recordSize g) } := by
  have all (channels : List ChannelDesc) (lay : Layout) :
      channels.foldl (fun (lay : Layout) ch =>
        { offsets := lay.offsets ++ [lay.recSize],
          recSize := lay.recSize + (ctype ch.dataType).byteSize }) lay =
        { offsets := lay.offsets ++ offsetsFrom lay.recSize channels
          recSize := lay.recSize + UInt32.ofNat (channels.map ChannelDesc.size).sum } := by
    induction channels generalizing lay with
    | nil => simp [offsetsFrom]
    | cons ch rest ih =>
        rw [List.foldl_cons, ih, List.map_cons, List.sum_cons, UInt32.ofNat_add,
          ChannelDesc.size, UInt32.ofNat_toNat, ← UInt32.add_assoc]
        simp [offsetsFrom]
  rw [makeLayout, all, recordSize, UInt32.ofNat_add]
  rfl

def ChannelDesc.encoded (ch : ChannelDesc) (row : Nat) : Bytes :=
  (storeValue ch.dataType (ch.value row)).getD []

def ChannelGroup.time (g : ChannelGroup) (row : Nat) : Bytes :=
  leBytes 8 (g.timeAxisS.getD row .quietNaN).bits.toNat

def ChannelGroup.row (g : ChannelGroup) (row : Nat) : Bytes :=
  g.time row ++ g.channels.flatMap (·.encoded row)

def ChannelGroup.rows (g : ChannelGroup) : Bytes := (List.range g.timeAxisS.length).flatMap g.row

def ChannelGroup.Convertible (g : ChannelGroup) : Prop :=
  ∀ row < g.timeAxisS.length, ∀ ch ∈ g.channels, (storeValue ch.dataType (ch.value row)).isSome

theorem ctype_cases (dataType : Bytes) :
    ctype dataType = ⟨6, 8, 64⟩ ∨ ctype dataType = ⟨4, 4, 32⟩ ∨ ctype dataType = ⟨2, 2, 16⟩ ∨
      ctype dataType = ⟨0, 1, 8⟩ := by
  unfold ctype
  split_ifs
  · exact .inl rfl
  · exact .inr (.inl rfl)
  · exact .inr (.inr (.inl rfl))
  · exact .inr (.inr (.inr rfl))

theorem length_storeValue {dataType v : Bytes} {val : Double}
    (stored : storeValue dataType val = some v) :
    v.length = (ctype dataType).byteSize.toNat := by
  unfold storeValue at stored
  rcases ctype_cases dataType with kind | kind | kind | kind
  · rw [kind] at stored ⊢
    cases stored
    exact leBytes_length 8 _
  · rw [kind] at stored ⊢
    cases stored
    exact leBytes_length 4 _
  · rw [kind] at stored ⊢
    obtain ⟨n, -, rfl⟩ := Option.map_eq_some_iff.mp stored
    exact leBytes_length 2 _
  · rw [kind] at stored ⊢
    obtain ⟨n, -, rfl⟩ := Option.map_eq_some_iff.mp stored
    rfl

theorem foldlM_some {α : Type*} {f : Bytes → α → Option Bytes} {written : α → Bytes} {l : List α}
    (each : ∀ x ∈ l, ∀ b, f b x = some (b ++ written x)) (b : Bytes) :
    l.foldlM f b = some (b ++ l.flatMap written) := by
  induction l generalizing b with
  | nil => simp
  | cons x l ih =>
      rw [List.foldlM_cons, each x List.mem_cons_self, List.flatMap_cons, ← List.append_assoc]
      exact ih (fun y member => each y (List.mem_cons_of_mem _ member)) _

theorem mapM_forall₂ {α β : Type*} {f : α → Option β} {xs : List α} {ys : List β}
    (each : List.Forall₂ (fun x y => f x = some y) xs ys) : xs.mapM f = some ys := by
  induction each with
  | nil => rfl
  | cons first _ ih =>
      rw [List.mapM_cons, first, ih]
      rfl

theorem ChannelGroup.Convertible.recordsOf_eq {g : ChannelGroup} (convertible : g.Convertible) :
    recordsOf g = some g.rows := by
  refine foldlM_some (fun row member b => ?_) []
  have casts := convertible row (List.mem_range.mp member)
  have stored (ch : ChannelDesc) (inside : ch ∈ g.channels) (b : Bytes) :
      (storeValue ch.dataType (ch.value row)).map (b ++ ·) = some (b ++ ch.encoded row) := by
    obtain ⟨v, found⟩ := Option.isSome_iff_exists.mp (casts ch inside)
    rw [ChannelDesc.encoded, found]
    rfl
  rw [writeRecord, foldlM_some stored, List.append_assoc]
  rfl

theorem ChannelGroup.Convertible.length_encoded {g : ChannelGroup}
    (convertible : g.Convertible) {row : Nat} (inside : row < g.timeAxisS.length) {ch : ChannelDesc}
    (member : ch ∈ g.channels) :
    (ch.encoded row).length = ch.size := by
  obtain ⟨v, found⟩ := Option.isSome_iff_exists.mp (convertible row inside ch member)
  rw [ChannelDesc.encoded, found]
  exact length_storeValue found

theorem ChannelGroup.Convertible.length_row {g : ChannelGroup}
    (convertible : g.Convertible) {row : Nat} (inside : row < g.timeAxisS.length) :
    (g.row row).length = recordSize g := by
  rw [ChannelGroup.row, List.length_append, ChannelGroup.time, leBytes_length,
    List.length_flatMap, recordSize]
  exact congrArg (8 + List.sum ·)
    (List.map_congr_left fun ch member => convertible.length_encoded inside member)

theorem ChannelGroup.Convertible.length_rows {g : ChannelGroup} (convertible : g.Convertible) :
    g.rows.length = g.timeAxisS.length * recordSize g := by
  have each : (List.range g.timeAxisS.length).map (fun row => (g.row row).length) =
      List.replicate g.timeAxisS.length (recordSize g) := by
    refine List.eq_replicate_iff.mpr ⟨by simp, fun n member => ?_⟩
    obtain ⟨row, inside, rfl⟩ := List.mem_map.mp member
    exact convertible.length_row (List.mem_range.mp inside)
  rw [ChannelGroup.rows, List.length_flatMap, each, List.sum_replicate_nat]

def ChannelGroup.stored (g : ChannelGroup) : StoredGroup := { group := g, records := g.rows }

theorem storedGroups_eq {groups : List ChannelGroup} (convertible : ∀ g ∈ groups, g.Convertible) :
    storedGroups groups = some ((groups.filter ChannelGroup.live).map ChannelGroup.stored) := by
  refine mapM_forall₂ (List.forall₂_map_right_iff.mpr (List.forall₂_same.mpr fun g member => ?_))
  rw [ChannelGroup.store, (convertible g (List.mem_filter.mp member).1).recordsOf_eq]
  rfl

def dtBlock (s : StoredGroup) : Block := ⟨ascii "##DT", [], s.records⟩

def groupBlocks (address next : Nat) (s : StoredGroup) : List Block :=
  groupTexts s.group ++ groupHead (groupAddresses address s.group) next s.group ++ [dtBlock s]

def groupsBlocks (address : Nat) : List StoredGroup → List Block
  | [] => []
  | s :: rest =>
      let behind := address + (encodeBlocks (groupBlocks address 0 s)).length
      groupBlocks address (firstDg behind rest) s ++ groupsBlocks behind rest

def fileBlocks (bundle : SessionBundle) (t0Ns : Int) (stored : List StoredGroup) : List Block :=
  headBlocks (firstDg (groupsStart bundle) stored) bundle t0Ns ++ groupsBlocks
    (groupsStart bundle) stored

def StoredGroup.Counted (s : StoredGroup) : Prop :=
  s.records.length = s.group.timeAxisS.length * (makeLayout s.group).recSize.toNat

def ChannelGroup.Fits (g : ChannelGroup) : Prop := recordSize g < 2 ^ 32

theorem ChannelGroup.Fits.recSize {g : ChannelGroup} (fits : g.Fits) :
    (makeLayout g).recSize.toNat = recordSize g := by
  rw [makeLayout_eq]
  exact UInt32.toNat_ofNat_of_lt' fits

theorem ChannelGroup.stored_counted {g : ChannelGroup} (convertible : g.Convertible)
    (fits : g.Fits) : g.stored.Counted := by
  rw [StoredGroup.Counted, ChannelGroup.stored, convertible.length_rows, fits.recSize]

theorem groupBytes_eq {s : StoredGroup} (counted : s.Counted) (address next : Nat) :
    groupBytes address next s = encodeBlocks (groupBlocks address next s) := by
  have data : dtBytes s = (dtBlock s).encode := by
    have empty := encode_empty (ascii "##DT") s.records 0
    rw [dtBytes, ← counted, dtBlock]
    simpa [zeros] using empty.symm
  simp [groupBytes, groupBlocks, data]

theorem groupsBytes_eq {stored : List StoredGroup}
    (counted : ∀ s ∈ stored, s.Counted) (address : Nat) :
    groupsBytes address stored = encodeBlocks (groupsBlocks address stored) := by
  induction stored generalizing address with
  | nil => rfl
  | cons s rest ih =>
      have one := groupBytes_eq (counted s List.mem_cons_self)
      rw [groupsBytes, groupsBlocks, encodeBlocks_append]
      simp only [one]
      rw [ih fun t member => counted t (List.mem_cons_of_mem _ member)]

theorem fileBytes_eq {stored : List StoredGroup} (counted : ∀ s ∈ stored, s.Counted)
    (bundle : SessionBundle) (t0Ns : Int) :
    fileBytes bundle t0Ns stored = idBlock ++ encodeBlocks (fileBlocks bundle t0Ns stored) := by
  rw [fileBytes, groupsBytes_eq counted, fileBlocks, encodeBlocks_append, List.append_assoc]

theorem startsAt_channelTexts (address : Nat) (channels : List ChannelDesc) :
    List.Forall₂ (fun tx ch => StartsAt address (channelTexts channels) tx.1 (txBlock ch.name) ∧
      StartsAt address (channelTexts channels) tx.2 (txBlock ch.unit))
        (channelTx address channels) channels := by
  induction channels generalizing address with
  | nil => exact .nil
  | cons ch rest ih =>
      have texts : channelTexts (ch :: rest) =
          [txBlock ch.name, txBlock ch.unit] ++ channelTexts rest := rfl
      refine .cons ⟨StartsAt.head .., ?_⟩ ((ih _).imp fun tx later starts => ?_)
      · exact StartsAt.append_right [txBlock ch.name] (by simpa using StartsAt.head ..)
      · rw [texts]
        have behind : address + (encodeBlocks [txBlock ch.name, txBlock ch.unit]).length =
            address + (txBlock ch.name).encode.length + (txBlock ch.unit).encode.length := by
          simp [Nat.add_assoc]
        rw [← behind] at starts
        exact ⟨starts.1.append_right _, starts.2.append_right _⟩

def CnsAt (holds : Nat → Block → Prop) : Nat → List CnArgs → Prop
  | _, [] => True
  | address, args :: rest =>
      holds address (cnBlock (if rest.isEmpty then 0 else address + 160) args) ∧
        CnsAt holds (address + 160) rest

theorem CnsAt.mono {holds holds' : Nat → Block → Prop}
    (weaker : ∀ address b, holds address b → holds' address b) {address : Nat} {args : List CnArgs}
    (at_ : CnsAt holds address args) : CnsAt holds' address args := by
  induction args generalizing address with
  | nil => trivial
  | cons _ _ ih => exact ⟨weaker _ _ at_.1, ih at_.2⟩

theorem startsAt_cnBlocks (address : Nat) (args : List CnArgs) :
    CnsAt (StartsAt address (cnBlocks address args)) address args := by
  induction args generalizing address with
  | nil => trivial
  | cons first rest ih =>
      refine ⟨StartsAt.head .., (ih (address + 160)).mono fun a b starts => ?_⟩
      refine StartsAt.append_right [cnBlock _ first] ?_
      simpa [length_cnBlock] using starts

structure GroupAt (holds : Nat → Block → Prop) (a : GroupAddresses) (next : Nat)
    (s : StoredGroup) : Prop where
  name : holds a.txCg (txBlock s.group.name)
  timeName : holds a.txTimeName (txBlock (s.group.name ++ ascii ".time_s"))
  timeUnit : holds a.txTimeUnit (txBlock (ascii "s"))
  channels : List.Forall₂
    (fun tx ch => holds tx.1 (txBlock ch.name) ∧ holds tx.2 (txBlock ch.unit)) a.tx s.group.channels
  dg : holds a.dg (dgBlock next a.cg (a.dt s.group))
  cg : holds a.cg (cgBlock a.cn a.txCg s.group.timeAxisS.length (makeLayout s.group).recSize)
  cns : CnsAt holds a.cn (groupCns a s.group)
  dt : holds (a.dt s.group) (dtBlock s)

theorem GroupAt.mono {holds holds' : Nat → Block → Prop}
    (weaker : ∀ address b, holds address b → holds' address b) {a : GroupAddresses} {next : Nat}
    {s : StoredGroup} (at_ : GroupAt holds a next s) : GroupAt holds' a next s where
  name := weaker _ _ at_.name
  timeName := weaker _ _ at_.timeName
  timeUnit := weaker _ _ at_.timeUnit
  channels := at_.channels.imp fun _ _ both => ⟨weaker _ _ both.1, weaker _ _ both.2⟩
  dg := weaker _ _ at_.dg
  cg := weaker _ _ at_.cg
  cns := at_.cns.mono weaker
  dt := weaker _ _ at_.dt

theorem startsAt_groupBlocks (address next : Nat) (s : StoredGroup) :
    GroupAt (StartsAt address (groupBlocks address next s))
      (groupAddresses address s.group) next s := by
  let a := groupAddresses address s.group
  have texts {x : Nat} {b : Block} (starts : StartsAt address (groupTexts s.group) x b) :
      StartsAt address (groupBlocks address next s) x b := (starts.append_left _).append_left _
  have head {x : Nat} {b : Block} (starts : StartsAt a.dg (groupHead a next s.group) x b) :
      StartsAt address (groupBlocks address next s) x b :=
        (StartsAt.append_right _ starts).append_left _
  let firstTexts :=
    [txBlock s.group.name, txBlock (s.group.name ++ ascii ".time_s"), txBlock (ascii "s")]
  let dgCg := [dgBlock next a.cg (a.dt s.group),
    cgBlock a.cn a.txCg s.group.timeAxisS.length (makeLayout s.group).recSize]
  have channelsAt : address + (encodeBlocks firstTexts).length =
      address + (txBlock s.group.name).encode.length +
      (txBlock (s.group.name ++ ascii ".time_s")).encode.length +
        (txBlock (ascii "s")).encode.length := by
    simp [firstTexts, Nat.add_assoc]
  have cnAt : a.dg + (encodeBlocks dgCg).length = a.cn := by
    simp [dgCg, length_dgBlock, length_cgBlock, GroupAddresses.cn]
  have dtAt : address + (encodeBlocks (groupTexts s.group ++ groupHead a next s.group)).length =
      a.dt s.group := by
    have cns := length_cnBlocks a.cn (groupCns a s.group)
    rw [length_groupCns] at cns
    rw [show groupHead a next s.group = dgCg ++ cnBlocks a.cn (groupCns a s.group) from rfl,
      encodeBlocks_append, encodeBlocks_append, List.length_append, List.length_append, cns,
        GroupAddresses.dt, ← cnAt]
    simp [a, groupAddresses, Nat.add_assoc]
  refine ⟨?_, ?_, ?_, ?_, ?_, ?_, ?_, ?_⟩
  · exact texts (StartsAt.head ..)
  · exact texts ⟨[txBlock s.group.name], _, rfl, by simp [groupAddresses]⟩
  · exact texts ⟨[txBlock s.group.name, txBlock (s.group.name ++ ascii ".time_s")], _, rfl, by
      simp [groupAddresses, Nat.add_assoc]⟩
  · refine (startsAt_channelTexts _ s.group.channels).imp fun tx ch starts => ?_
    rw [← channelsAt] at starts
    exact ⟨texts (StartsAt.append_right firstTexts starts.1),
      texts (StartsAt.append_right firstTexts starts.2)⟩
  · exact head (StartsAt.head ..)
  · exact head
      ⟨[dgBlock next a.cg (a.dt s.group)], _, rfl, by simp [length_dgBlock, a, GroupAddresses.cg]⟩
  · refine (startsAt_cnBlocks _ _).mono fun x b starts => head (StartsAt.append_right dgCg ?_)
    rw [cnAt]
    exact starts
  · refine StartsAt.append_right _ ?_
    rw [dtAt]
    exact StartsAt.head ..

def GroupsAt (holds : Nat → Block → Prop) : Nat → List StoredGroup → Prop
  | _, [] => True
  | address, s :: rest =>
      let behind := address + (encodeBlocks (groupBlocks address 0 s)).length
      GroupAt holds (groupAddresses address s.group) (firstDg behind rest) s ∧
        GroupsAt holds behind rest

theorem GroupsAt.mono {holds holds' : Nat → Block → Prop}
    (weaker : ∀ address b, holds address b → holds' address b) {address : Nat}
    {stored : List StoredGroup} (at_ : GroupsAt holds address stored) :
    GroupsAt holds' address stored := by
  induction stored generalizing address with
  | nil => trivial
  | cons _ _ ih => exact ⟨at_.1.mono weaker, ih at_.2⟩

theorem length_groupBlocks (address next : Nat) (s : StoredGroup) :
    (encodeBlocks (groupBlocks address next s)).length =
      (encodeBlocks (groupBlocks address 0 s)).length := by
  simp [groupBlocks, groupHead, length_dgBlock]

theorem startsAt_groupsBlocks (address : Nat) (stored : List StoredGroup) :
    GroupsAt (StartsAt address (groupsBlocks address stored)) address stored := by
  induction stored generalizing address with
  | nil => trivial
  | cons s rest ih =>
      let behind := address + (encodeBlocks (groupBlocks address 0 s)).length
      have here := startsAt_groupBlocks address (firstDg behind rest) s
      refine ⟨here.mono fun x b starts => starts.append_left _,
        (ih behind).mono fun x b starts => ?_⟩
      have position : behind =
          address + (encodeBlocks (groupBlocks address (firstDg behind rest) s)).length := by
        rw [length_groupBlocks]
      exact StartsAt.append_right (groupBlocks address (firstDg behind rest) s) (position ▸ starts)

def linkTarget (id : Bytes) (i : Nat) : Option Bytes :=
  [((ascii "##HD", 0), ascii "##DG"), ((ascii "##HD", 1), ascii "##FH"),
    ((ascii "##HD", 5), ascii "##MD"), ((ascii "##FH", 1), ascii "##MD"),
    ((ascii "##DG", 0), ascii "##DG"), ((ascii "##DG", 1), ascii "##CG"),
      ((ascii "##DG", 2), ascii "##DT"),
    ((ascii "##CG", 1), ascii "##CN"), ((ascii "##CG", 2), ascii "##TX"),
    ((ascii "##CN", 0), ascii "##CN"), ((ascii "##CN", 2), ascii "##TX"),
      ((ascii "##CN", 6), ascii "##TX")].lookup (id, i)

section Links
variable {holds : Nat → Block → Prop}

theorem linksTo_texts {text : Bytes} : (txBlock text).LinksTo linkTarget holds := by
  intro i link found
  cases found

theorem linksTo_channelTexts (channels : List ChannelDesc) :
    ∀ b ∈ channelTexts channels, b.LinksTo linkTarget holds := by
  intro b member
  obtain ⟨ch, -, inside⟩ := List.mem_flatMap.mp member
  rcases List.mem_cons.mp inside with rfl | inside
  · exact linksTo_texts
  · cases List.mem_singleton.mp inside
    exact linksTo_texts

theorem linksTo_dgBlock {next cg dt : Nat} (nextTo : LinkTo holds (some (ascii "##DG")) next)
    (cgTo : LinkTo holds (some (ascii "##CG")) cg) (dtTo : LinkTo holds (some (ascii "##DT")) dt) :
    (dgBlock next cg dt).LinksTo linkTarget holds := by
  refine Block.linksTo_of_zipIdx ?_
  simp only [dgBlock, List.zipIdx_cons, List.zipIdx_nil, List.forall_mem_cons]
  exact ⟨nextTo, cgTo, dtTo, .empty, by simp⟩

theorem linksTo_cgBlock {firstCn txCg n : Nat} {recSize : UInt32}
    (cnTo : LinkTo holds (some (ascii "##CN")) firstCn)
    (nameTo : LinkTo holds (some (ascii "##TX")) txCg) :
    (cgBlock firstCn txCg n recSize).LinksTo linkTarget holds := by
  refine Block.linksTo_of_zipIdx ?_
  simp only [cgBlock, List.zipIdx_cons, List.zipIdx_nil, List.forall_mem_cons]
  exact ⟨.empty, cnTo, nameTo, .empty, .empty, .empty, by simp⟩

theorem linksTo_cnBlock {next : Nat} {args : CnArgs}
    (nextTo : LinkTo holds (some (ascii "##CN")) next)
    (nameTo : LinkTo holds (some (ascii "##TX")) args.txName)
    (unitTo : LinkTo holds (some (ascii "##TX")) args.txUnit) :
    (cnBlock next args).LinksTo linkTarget holds := by
  refine Block.linksTo_of_zipIdx ?_
  simp only [cnBlock, List.zipIdx_cons, List.zipIdx_nil, List.forall_mem_cons]
  exact ⟨nextTo, .empty, nameTo, .empty, .empty, .empty, unitTo, .empty, by simp⟩

theorem linksTo_cnBlocks {address : Nat} {args : List CnArgs} (at_ : CnsAt holds address args)
    (texts : ∀ x ∈ args, LinkTo holds (some (ascii "##TX")) x.txName ∧
      LinkTo holds (some (ascii "##TX")) x.txUnit) :
    ∀ b ∈ cnBlocks address args, b.LinksTo linkTarget holds := by
  induction args generalizing address with
  | nil => nofun
  | cons first rest ih =>
      rw [cnBlocks, List.forall_mem_cons]
      obtain ⟨name, unit⟩ := texts first List.mem_cons_self
      refine ⟨linksTo_cnBlock ?_ name unit,
        ih at_.2 fun x member => texts x (List.mem_cons_of_mem _ member)⟩
      cases rest with
      | nil => exact .empty
      | cons => exact LinkTo.held at_.2.1

theorem GroupAt.linksTo_channels {a : GroupAddresses} {next : Nat} {s : StoredGroup}
    (at_ : GroupAt holds a next s) :
    ∀ x ∈ groupCns a s.group,
      LinkTo holds (some (ascii "##TX")) x.txName ∧
        LinkTo holds (some (ascii "##TX")) x.txUnit := by
  obtain ⟨-, texts⟩ := List.forall₂_iff_zip.mp at_.channels
  intro x member
  rcases List.mem_cons.mp member with rfl | later
  · exact ⟨.held at_.timeName, .held at_.timeUnit⟩
  · rw [← List.map_uncurry_zip_eq_zipWith] at later
    obtain ⟨⟨⟨tx, ch⟩, offset⟩, zipped, rfl⟩ := List.mem_map.mp later
    obtain ⟨name, unit⟩ := texts (List.of_mem_zip zipped).1
    exact ⟨.held name, .held unit⟩

theorem linksTo_groupBlocks {address next : Nat} {s : StoredGroup}
    (at_ : GroupAt holds (groupAddresses address s.group) next s)
    (nextTo : LinkTo holds (some (ascii "##DG")) next) :
    ∀ b ∈ groupBlocks address next s, b.LinksTo linkTarget holds := by
  have dg := linksTo_dgBlock nextTo (.held at_.cg) (.held at_.dt)
  have cg : (cgBlock _ _ s.group.timeAxisS.length (makeLayout s.group).recSize).LinksTo
      linkTarget holds :=
    linksTo_cgBlock (.held at_.cns.1) (.held at_.name)
  have cns := linksTo_cnBlocks at_.cns at_.linksTo_channels
  simp only [groupBlocks, groupTexts, groupHead, List.mem_append, List.mem_cons,
    List.not_mem_nil, or_false]
  rintro b ((((rfl | rfl | rfl) | text) | rfl | rfl | cn) | rfl)
  · exact linksTo_texts
  · exact linksTo_texts
  · exact linksTo_texts
  · exact linksTo_channelTexts _ b text
  · exact dg
  · exact cg
  · exact cns b cn
  · intro i link found
    cases found

theorem GroupsAt.linkTo_firstDg {address : Nat} {stored : List StoredGroup}
    (at_ : GroupsAt holds address stored) :
    LinkTo holds (some (ascii "##DG")) (firstDg address stored) := by
  cases stored with
  | nil => exact .empty
  | cons s rest => exact .held at_.1.dg

theorem linksTo_groupsBlocks {address : Nat} {stored : List StoredGroup}
    (at_ : GroupsAt holds address stored) :
    ∀ b ∈ groupsBlocks address stored, b.LinksTo linkTarget holds := by
  induction stored generalizing address with
  | nil => simp [groupsBlocks]
  | cons s rest ih =>
      rw [groupsBlocks, List.forall_mem_append]
      exact ⟨linksTo_groupBlocks at_.1 at_.2.linkTo_firstDg, ih at_.2⟩

theorem linksTo_headBlocks {first : Nat} {bundle : SessionBundle} {t0Ns : Int}
    (dgTo : LinkTo holds (some (ascii "##DG")) first) (fhAt : holds 168 (fhBlock 224 t0Ns))
    (mdAt : holds 224 (mdBlock (commentXml bundle))) :
    ∀ b ∈ headBlocks first bundle t0Ns, b.LinksTo linkTarget holds := by
  simp only [headBlocks, List.forall_mem_cons]
  refine ⟨?_, ?_, ?_, by simp⟩
  · refine Block.linksTo_of_zipIdx ?_
    simp only [hdBlock, List.zipIdx_cons, List.zipIdx_nil, List.forall_mem_cons]
    exact ⟨dgTo, .held fhAt, .empty, .empty, .empty, .held mdAt, by simp⟩
  · refine Block.linksTo_of_zipIdx ?_
    simp only [fhBlock, List.zipIdx_cons, List.zipIdx_nil, List.forall_mem_cons]
    exact ⟨.empty, .held mdAt, by simp⟩
  · intro i link found
    cases found

end Links

section File
variable (bundle : SessionBundle) (t0Ns : Int) (stored : List StoredGroup)

theorem length_headBlocks (first : Nat) :
    64 + (encodeBlocks (headBlocks first bundle t0Ns)).length = groupsStart bundle := by
  simp only [headBlocks, encodeBlocks_cons, encodeBlocks_nil, List.length_append,
    length_hdBlock, length_fhBlock, List.length_nil, groupsStart]
  omega

theorem startsAt_headBlocks :
    StartsAt 64 (fileBlocks bundle t0Ns stored)
      64 (hdBlock (firstDg (groupsStart bundle) stored) 168 224 t0Ns) ∧
      StartsAt 64 (fileBlocks bundle t0Ns stored) 168 (fhBlock 224 t0Ns) ∧
      StartsAt 64 (fileBlocks bundle t0Ns stored) 224 (mdBlock (commentXml bundle)) := by
  let hd := hdBlock (firstDg (groupsStart bundle) stored) 168 224 t0Ns
  refine ⟨StartsAt.head .., ⟨[hd], _, rfl, ?_⟩, ⟨[hd, fhBlock 224 t0Ns], _, rfl, ?_⟩⟩
  · simp [hd, length_hdBlock]
  · simp [hd, length_hdBlock, length_fhBlock]

theorem groupsAt_fileBlocks :
    GroupsAt (StartsAt 64 (fileBlocks bundle t0Ns stored)) (groupsStart bundle) stored := by
  refine (startsAt_groupsBlocks (groupsStart bundle) stored).mono fun address b starts =>
    StartsAt.append_right _ ?_
  rw [length_headBlocks]
  exact starts

theorem linksTo_fileBlocks :
    ∀ b ∈ fileBlocks bundle t0Ns stored,
      b.LinksTo linkTarget (StartsAt 64 (fileBlocks bundle t0Ns stored)) := by
  obtain ⟨-, fh, md⟩ := startsAt_headBlocks bundle t0Ns stored
  have groups := groupsAt_fileBlocks bundle t0Ns stored
  rw [fileBlocks, List.forall_mem_append]
  exact ⟨linksTo_headBlocks groups.linkTo_firstDg fh md, linksTo_groupsBlocks groups⟩

theorem id_fileBlocks : ∀ b ∈ fileBlocks bundle t0Ns stored, b.id.length = 4 := by
  have cns (address : Nat) (args : List CnArgs) : ∀ b ∈ cnBlocks address args, b.id.length = 4 := by
    induction args generalizing address with
    | nil => simp [cnBlocks]
    | cons first rest ih =>
        rw [cnBlocks, List.forall_mem_cons]
        exact ⟨show (ascii "##CN").length = 4 by decide, ih _⟩
  have four : (ascii "##TX").length = 4 ∧ (ascii "##DG").length = 4 ∧ (ascii "##CG").length = 4 ∧
      (ascii "##DT").length = 4 ∧ (ascii "##HD").length = 4 ∧ (ascii "##FH").length = 4 ∧
        (ascii "##MD").length = 4 := by
    decide
  obtain ⟨tx, dg, cg, dt, hd, fh, md⟩ := four
  have groups (address : Nat) : ∀ b ∈ groupsBlocks address stored, b.id.length = 4 := by
    induction stored generalizing address with
    | nil => simp [groupsBlocks]
    | cons s rest ih =>
        rw [groupsBlocks, List.forall_mem_append]
        refine ⟨?_, ih _⟩
        simp only [groupBlocks, groupTexts, groupHead, channelTexts,
          List.forall_mem_append, List.forall_mem_cons, List.forall_mem_flatMap]
        exact ⟨⟨⟨⟨tx, tx, tx, by simp⟩, fun ch _ => ⟨tx, tx, by simp⟩⟩, dg, cg, cns _ _⟩,
          dt, by simp⟩
  rw [fileBlocks, List.forall_mem_append, headBlocks]
  simp only [List.forall_mem_cons]
  exact ⟨⟨hd, fh, md, by simp⟩, groups _⟩

theorem wellFormed_fileBlocks
    (small : 64 + (encodeBlocks (fileBlocks bundle t0Ns stored)).length < 2 ^ 64) :
    ∀ b ∈ fileBlocks bundle t0Ns stored, b.WellFormed :=
  wellFormed_of_linksTo (id_fileBlocks bundle t0Ns stored)
    (linksTo_fileBlocks bundle t0Ns stored) small

end File

end LocalPC.Offline
