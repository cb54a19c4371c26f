import LocalPC.Offline.Mdf4Writer

namespace LocalPC.Offline
open Lib

def textData (text : Bytes) : Bytes :=
  text ++ [0] ++ zeros ((text.length + 1 + 7) / 8 * 8 - (text.length + 1))

def txBlock (text : Bytes) : Block := ⟨ascii "##TX", [], textData text⟩
def mdBlock (text : Bytes) : Block := ⟨ascii "##MD", [], textData text⟩

def cnBlock (next : Nat) (args : CnArgs) : Block :=
  ⟨ascii "##CN", [next, 0, args.txName, 0, 0, 0, args.txUnit, 0], cnData args⟩

def cgBlock (firstCn txCg n : Nat) (recSize : UInt32) : Block :=
  ⟨ascii "##CG", [0, firstCn, txCg, 0, 0, 0], cgData n recSize⟩

def dgBlock (next cg dt : Nat) : Block := ⟨ascii "##DG", [next, cg, dt, 0], zeros 8⟩

def hdBlock (firstDg fh md : Nat) (t0Ns : Int) : Block :=
  ⟨ascii "##HD", [firstDg, fh, 0, 0, 0, md],
    timeBytes t0Ns ++ leBytes 2 0 ++ leBytes 2 0 ++ [0, 0, 0, 0] ++ zeros 16⟩

def fhBlock (md : Nat) (t0Ns : Int) : Block :=
  ⟨ascii "##FH", [0, md], timeBytes t0Ns ++ leBytes 2 0 ++ leBytes 2 0 ++ [0] ++ zeros 3⟩

def cnBlocks (address : Nat) : List CnArgs → List Block
  | [] => []
  | args :: rest =>
      cnBlock (if rest.isEmpty then 0 else address + 160) args :: cnBlocks (address + 160) rest

theorem length_zeros (n : Nat) : (zeros n).length = n := List.length_replicate

theorem blkHdr_eq {id : Bytes} (four : id.length = 4) (len nlinks : Nat) (b : Bytes) :
    blkHdr id len nlinks b =
      (b.length + 24, b ++ Block.header id len nlinks ++ zeros (nlinks * 8)) := by
  unfold blkHdr
  dsimp only
  refine Prod.ext ?_ ?_
  · simp [four, zeros]
  · simp only [Block.header, zeros, List.append_assoc]

theorem zeros_links (n : Nat) : (List.replicate n 0).flatMap (leBytes 8) = zeros (n * 8) := by
  induction n with
  | zero => rfl
  | succ n ih =>
      have eight : leBytes 8 0 = zeros 8 := by decide
      rw [List.replicate_succ, List.flatMap_cons, ih, Nat.succ_mul, Nat.add_comm, eight]
      exact (List.replicate_add ..).symm

theorem encode_empty (id data : Bytes) (nlinks : Nat) :
    (⟨id, List.replicate nlinks 0, data⟩ : Block).encode =
      Block.header id (24 + 8 * nlinks + data.length) nlinks ++ zeros (nlinks * 8) ++ data := by
  unfold Block.encode Block.size
  dsimp only
  rw [List.length_replicate, zeros_links]

theorem textBlock_eq {id : Bytes} (four : id.length = 4) (text b : Bytes) :
    textBlock id text b = (b.length, b ++ (⟨id, [], textData text⟩ : Block).encode) := by
  have size : (textData text).length = (text.length + 1 + 7) / 8 * 8 := by
    simp only [textData, List.length_append, List.length_singleton, length_zeros]
    omega
  have encoded := encode_empty id (textData text) 0
  rw [List.replicate_zero, size] at encoded
  unfold textBlock
  dsimp only
  rw [blkHdr_eq four, encoded]
  simp only [textData, List.append_assoc, Nat.mul_zero, Nat.add_zero]

theorem txblock_eq (text b : Bytes) : txblock text b = (b.length, b ++ (txBlock text).encode) :=
  textBlock_eq (by decide) text b

theorem mdblock_eq (text b : Bytes) : mdblock text b = (b.length, b ++ (mdBlock text).encode) :=
  textBlock_eq (by decide) text b

theorem patch_started {front started data : Bytes} {b : Block} (four : b.id.length = 4)
    (written : started ++ data = front ++ b.encode) {i : Nat} (inside : i < b.links.length)
    (long : front.length + (24 + 8 * i) + 8 ≤ started.length) (v : Nat) :
    patch64 (front.length + (24 + 8 * i)) v started ++ data = front ++ (b.setLink i v).encode := by
  have patched := patch64_encode four inside v front []
  rw [List.append_nil, List.append_nil] at patched
  rw [← patch64_append long, written, patched]

theorem length_cnData (args : CnArgs) : (cnData args).length = 72 := by
  simp [cnData, length_zeros]

theorem length_cnBlock (next : Nat) (args : CnArgs) : (cnBlock next args).encode.length = 160 := by
  rw [Block.length_encode (show (ascii "##CN").length = 4 by decide),
    Block.size, cnBlock, length_cnData]
  rfl

def pendingCn (cgLp prevCnLp : Nat) : Nat := if prevCnLp ≠ 0 then prevCnLp else cgLp + 8

theorem writeCn_eq {cgLp prevCnLp : Nat} {b : Bytes}
    (inside : pendingCn cgLp prevCnLp + 8 ≤ b.length) (args : CnArgs) :
    writeCn cgLp (prevCnLp, b) args =
      (b.length + 24, patch64 (pendingCn cgLp prevCnLp) b.length b ++ (cnBlock 0 args).encode) := by
  have four : (ascii "##CN").length = 4 := by decide
  let empty : Block := ⟨ascii "##CN", List.replicate 8 0, cnData args⟩
  let started := b ++ Block.header (ascii "##CN") 160 8 ++ zeros 64
  have long : started.length = b.length + 88 := by
    rw [List.length_append, List.length_append, Block.length_header four, length_zeros]
  have written : started ++ cnData args = b ++ empty.encode := by
    rw [encode_empty, length_cnData]
    simp only [started, List.append_assoc]
  have named := patch_started four written (show 2 < 8 by decide) (by omega) args.txName
  have long' : (patch64 (b.length + (24 + 8 * 2)) args.txName started).length = b.length + 88 := by
    rw [length_patch64 (by omega), long]
  have both := patch_started four named (show 6 < 8 by decide) (by omega) args.txUnit
  have steps : writeCn cgLp (prevCnLp, b) args =
      (b.length + 24,
        patch64 (pendingCn cgLp prevCnLp) b.length (patch64 (b.length + (24 + 8 * 6)) args.txUnit
        (patch64 (b.length + (24 + 8 * 2)) args.txName started)) ++ cnData args) := by
    have hdr : blkHdr (ascii "##CN") 160 8 b = (b.length + 24, started) := blkHdr_eq four 160 8 b
    unfold writeCn pendingCn
    rw [hdr]
    dsimp only
    rw [Nat.add_assoc, Nat.add_assoc]
    split <;> rfl
  rw [steps, ← patch64_append (by rw [length_patch64 (by omega)]; omega),
    both, patch64_append inside]
  rfl

theorem foldl_writeCn (cgLp : Nat) (rest : List CnArgs) (b : Bytes) (last : CnArgs) :
    (rest.foldl (writeCn cgLp) (b.length + 24, b ++ (cnBlock 0 last).encode)).2 =
      b ++ encodeBlocks (cnBlocks b.length (last :: rest)) := by
  induction rest generalizing b last with
  | nil => simp [cnBlocks]
  | cons args rest ih =>
      have length : (b ++ (cnBlock 0 last).encode).length = b.length + 160 := by
        rw [List.length_append, length_cnBlock]
      have pending : pendingCn cgLp (b.length + 24) = b.length + (24 + 8 * 0) := if_pos (by omega)
      have linked :=
        patch64_encode (b := cnBlock 0 last)
          (show (ascii "##CN").length = 4 by decide) (show 0 < 8 by decide)
        (b ++ (cnBlock 0 last).encode).length b []
      rw [List.append_nil, List.append_nil] at linked
      have length' : (b ++ (cnBlock (b.length + 160) last).encode).length = b.length + 160 := by
        rw [List.length_append, length_cnBlock]
      have step : writeCn cgLp (b.length + 24, b ++ (cnBlock 0 last).encode) args =
          ((b ++ (cnBlock (b.length + 160) last).encode).length + 24,
            b ++ (cnBlock (b.length + 160) last).encode ++ (cnBlock 0 args).encode) := by
        rw [writeCn_eq (by rw [pending]; omega), pending, linked, length, length']
        rfl
      rw [List.foldl_cons, step, ih, length']
      simp [cnBlocks, List.append_assoc]

theorem writeCns_eq {cgLp : Nat} {b : Bytes} (inside : cgLp + 8 + 8 ≤ b.length)
    (first : CnArgs) (rest : List CnArgs) :
    (rest.foldl (writeCn cgLp) (writeCn cgLp (0, b) first)).2 =
      patch64 (cgLp + 8) b.length b ++ encodeBlocks (cnBlocks b.length (first :: rest)) := by
  have pending : pendingCn cgLp 0 = cgLp + 8 := if_neg (not_not.mpr rfl)
  have length : (patch64 (cgLp + 8) b.length b).length = b.length := length_patch64 inside _
  have written := foldl_writeCn cgLp rest (patch64 (cgLp + 8) b.length b) first
  rw [length] at written
  rw [writeCn_eq (by rw [pending]; exact inside), pending, written]

def channelTexts (channels : List ChannelDesc) : List Block :=
  channels.flatMap fun ch => [txBlock ch.name, txBlock ch.unit]

/-- The addresses of name and unit of each channel, when the texts start at `address`. -/
def channelTx (address : Nat) : List ChannelDesc → List (Nat × Nat)
  | [] => []
  | ch :: rest =>
      (address, address + (txBlock ch.name).encode.length) ::
        channelTx (address + (txBlock ch.name).encode.length + (txBlock ch.unit).encode.length) rest

theorem foldl_writeChannelText (channels : List ChannelDesc) (tx : List (Nat × Nat)) (b : Bytes) :
    channels.foldl writeChannelText (tx, b) =
      (tx ++ channelTx b.length channels, b ++ encodeBlocks (channelTexts channels)) := by
  induction channels generalizing tx b with
  | nil => simp [channelTx, channelTexts]
  | cons ch rest ih =>
      have step : writeChannelText (tx, b) ch =
          (tx ++ [(b.length, b.length + (txBlock ch.name).encode.length)],
            b ++ (txBlock ch.name).encode ++ (txBlock ch.unit).encode) := by
        unfold writeChannelText
        dsimp only
        rw [txblock_eq]
        dsimp only
        rw [txblock_eq, List.length_append]
      rw [List.foldl_cons, step, ih]
      refine Prod.ext ?_ ?_
      · simp [channelTx, Nat.add_assoc]
      · simp [channelTexts, List.append_assoc]

theorem foldlM_append {α : Type*} (f : Bytes → α → Option Bytes)
    (appends : ∀ b x, f b x = (f [] x).map (b ++ ·)) (l : List α) (b : Bytes) :
    l.foldlM f b = (l.foldlM f []).map (b ++ ·) := by
  induction l generalizing b with
  | nil => simp
  | cons x l ih =>
      rw [List.foldlM_cons, List.foldlM_cons, appends b x]
      cases first : f [] x with
      | none => rfl
      | some c =>
          show l.foldlM f (b ++ c) = (l.foldlM f c).map (b ++ ·)
          rw [ih (b ++ c), ih c, Option.map_map]
          simp [Function.comp_def, List.append_assoc]

def recordOf (g : ChannelGroup) (row : Nat) : Option Bytes := writeRecord g [] row

def recordsOf (g : ChannelGroup) : Option Bytes := writeRecords g []

theorem writeRecord_eq (g : ChannelGroup) (b : Bytes) (row : Nat) :
    writeRecord g b row = (recordOf g row).map (b ++ ·) := by
  have value (b : Bytes) (ch : ChannelDesc) :
      (storeValue ch.dataType (ch.value row)).map (b ++ ·) =
        ((storeValue ch.dataType (ch.value row)).map (([] : Bytes) ++ ·)).map (b ++ ·) := by
    rw [Option.map_map]
    rfl
  unfold recordOf writeRecord
  rw [foldlM_append _ value, foldlM_append _ value g.channels ([] ++ _), Option.map_map]
  simp [Function.comp_def, List.append_assoc]

theorem writeRecords_eq (g : ChannelGroup) (b : Bytes) :
    writeRecords g b = (recordsOf g).map (b ++ ·) :=
  foldlM_append _ (writeRecord_eq g) _ b

structure StoredGroup where
  group : ChannelGroup
  records : Bytes

def ChannelGroup.live (g : ChannelGroup) : Bool := !(g.channels.isEmpty || g.timeAxisS.isEmpty)

def ChannelGroup.store (g : ChannelGroup) : Option StoredGroup :=
  (recordsOf g).map fun records => { group := g, records }

/-- The groups that are written, unless a cast is undefined. -/
def storedGroups (groups : List ChannelGroup) : Option (List StoredGroup) :=
  (groups.filter ChannelGroup.live).mapM ChannelGroup.store

def groupTexts (g : ChannelGroup) : List Block :=
  [txBlock g.name, txBlock (g.name ++ ascii ".time_s"), txBlock (ascii "s")] ++
    channelTexts g.channels

structure GroupAddresses where
  txCg : Nat
  txTimeName : Nat
  txTimeUnit : Nat
  tx : List (Nat × Nat)
  dg : Nat

def groupAddresses (address : Nat) (g : ChannelGroup) : GroupAddresses :=
  let txTimeName := address + (txBlock g.name).encode.length
  let txTimeUnit := txTimeName + (txBlock (g.name ++ ascii ".time_s")).encode.length
  { txCg := address
    txTimeName
    txTimeUnit
    tx := channelTx (txTimeUnit + (txBlock (ascii "s")).encode.length) g.channels
    dg := address + (encodeBlocks (groupTexts g)).length }

def GroupAddresses.cg (a : GroupAddresses) : Nat := a.dg + 64
def GroupAddresses.cn (a : GroupAddresses) : Nat := a.dg + 168
def GroupAddresses.dt (a : GroupAddresses) (g : ChannelGroup) : Nat :=
  a.cn + 160 * (g.channels.length + 1)

def groupCns (a : GroupAddresses) (g : ChannelGroup) : List CnArgs :=
  timeCn a.txTimeName a.txTimeUnit ::
    List.zipWith (fun x offset => channelCn x.1 x.2 offset) (a.tx.zip g.channels)
      (makeLayout g).offsets.tail

def groupHead (a : GroupAddresses) (next : Nat) (g : ChannelGroup) : List Block :=
  dgBlock next a.cg (a.dt g) :: cgBlock a.cn a.txCg g.timeAxisS.length (makeLayout g).recSize ::
    cnBlocks a.cn (groupCns a g)

def dtBytes (s : StoredGroup) : Bytes :=
  Block.header (ascii "##DT")
    (24 + s.group.timeAxisS.length * (makeLayout s.group).recSize.toNat) 0 ++ s.records

def groupBytes (address next : Nat) (s : StoredGroup) : Bytes :=
  encodeBlocks (groupTexts s.group) ++ encodeBlocks
    (groupHead (groupAddresses address s.group) next s.group) ++ dtBytes s

def firstDg (address : Nat) : List StoredGroup → Nat
  | [] => 0
  | s :: _ => (groupAddresses address s.group).dg

def groupsBytes (address : Nat) : List StoredGroup → Bytes
  | [] => []
  | s :: rest =>
      let behind := address + (groupBytes address 0 s).length
      groupBytes address (firstDg behind rest) s ++ groupsBytes behind rest

theorem length_cnBlocks (address : Nat) (args : List CnArgs) :
    (encodeBlocks (cnBlocks address args)).length = 160 * args.length := by
  induction args generalizing address with
  | nil => rfl
  | cons first rest ih =>
      rw [cnBlocks, encodeBlocks_cons, List.length_append, length_cnBlock, ih, List.length_cons]
      omega

theorem length_channelTx (address : Nat) (channels : List ChannelDesc) :
    (channelTx address channels).length = channels.length := by
  induction channels generalizing address with
  | nil => rfl
  | cons ch rest ih => rw [channelTx, List.length_cons, List.length_cons, ih]

theorem length_offsets (g : ChannelGroup) :
    (makeLayout g).offsets.length = g.channels.length + 1 := by
  have all (channels : List ChannelDesc) (lay : Layout) :
      (channels.foldl (fun (lay : Layout) ch =>
        { offsets := lay.offsets ++ [lay.recSize],
          recSize := lay.recSize + (ctype ch.dataType).byteSize }) lay).offsets.length =
        lay.offsets.length + channels.length := by
    induction channels generalizing lay with
    | nil => rfl
    | cons ch rest ih =>
        rw [List.foldl_cons, ih]
        simp only [List.length_append, List.length_cons, List.length_nil]
        omega
  rw [makeLayout, all, List.length_singleton, Nat.add_comm]

theorem length_groupCns (address : Nat) (g : ChannelGroup) :
    (groupCns (groupAddresses address g) g).length = g.channels.length + 1 := by
  simp [groupCns, groupAddresses, length_channelTx, length_offsets]

def pendingDg (hdLp : Nat) (s : DgState) : Nat := if s.firstDg then hdLp else s.prevDgLp

theorem length_dgBlock (next cg dt : Nat) : (dgBlock next cg dt).encode.length = 64 := by
  rw [Block.length_encode (show (ascii "##DG").length = 4 by decide)]
  rfl

theorem length_cgBlock (firstCn txCg n : Nat) (recSize : UInt32) :
    (cgBlock firstCn txCg n recSize).encode.length = 104 := by
  rw [Block.length_encode (show (ascii "##CG").length = 4 by decide)]
  simp [Block.size, cgBlock, cgData, length_zeros]

theorem writeDgCg_eq {hdLp : Nat} {s : DgState}
    (inside : pendingDg hdLp s + 8 ≤ s.file.length) (texts : List Block)
    (txCg n : Nat) (recSize : UInt32) :
    let dgPos := (s.file ++ encodeBlocks texts).length
    writeDgCg hdLp s txCg n recSize (s.file ++ encodeBlocks texts) =
      (dgPos + 24, dgPos + 64 + 24, patch64 (pendingDg hdLp s) dgPos s.file ++ encodeBlocks texts ++
        (dgBlock 0 (dgPos + 64) 0).encode ++ (cgBlock 0 txCg n recSize).encode) := by
  intro dgPos
  let front := patch64 (pendingDg hdLp s) dgPos s.file ++ encodeBlocks texts
  let dg := front ++ (dgBlock 0 0 0).encode
  have four : (ascii "##DG").length = 4 := by decide
  have four' : (ascii "##CG").length = 4 := by decide
  have length : front.length = dgPos := by
    simp only [front, dgPos, List.length_append, length_patch64 inside]
  have dgLength : dg.length = dgPos + 64 := by
    rw [List.length_append, length_dgBlock, length]
  have started : patch64 (pendingDg hdLp s) dgPos
      ((blkHdr (ascii "##DG") 64 4 (s.file ++ encodeBlocks texts)).2 ++ [0] ++ zeros 7) = dg := by
    have empty := encode_empty (ascii "##DG") (zeros 8) 4
    have block : (blkHdr (ascii "##DG") 64 4 (s.file ++ encodeBlocks texts)).2 ++ [0] ++ zeros 7 =
        s.file ++ (encodeBlocks texts ++ (dgBlock 0 0 0).encode) := by
      rw [blkHdr_eq four, dgBlock, show [0, 0, 0, 0] = List.replicate 4 0 from rfl, empty]
      simp only [List.append_assoc]
      rfl
    rw [block, patch64_append inside, ← List.append_assoc]
  have hdr : blkHdr (ascii "##CG") 104 6 dg =
      (dg.length + 24, dg ++ Block.header (ascii "##CG") 104 6 ++ zeros (6 * 8)) :=
    blkHdr_eq four' ..
  have long : (dg ++ Block.header (ascii "##CG") 104 6 ++ zeros (6 * 8)).length =
      dg.length + 72 := by
    rw [List.length_append, List.length_append, Block.length_header four', length_zeros]
  have written : dg ++ Block.header (ascii "##CG") 104 6 ++ zeros (6 * 8) ++ cgData n recSize =
      dg ++ (cgBlock 0 0 n recSize).encode := by
    have empty := encode_empty (ascii "##CG") (cgData n recSize) 6
    have size : (cgData n recSize).length = 32 := by simp [cgData, length_zeros]
    rw [size] at empty
    rw [cgBlock, show [0, 0, 0, 0, 0, 0] = List.replicate 6 0 from rfl, empty]
    simp only [List.append_assoc]
  have named := patch_started four' written (show 2 < 6 by decide) (by omega) txCg
  have linked := patch64_encode (b := dgBlock 0 0 0) four (show 1 < 4 by decide) dg.length front
    ((cgBlock 0 0 n recSize).setLink 2 txCg).encode
  have steps : writeDgCg hdLp s txCg n recSize (s.file ++ encodeBlocks texts) =
      (dgPos + 24, dg.length + 24, patch64 (front.length + (24 + 8 * 1)) dg.length
        (patch64 (dg.length + (24 + 8 * 2)) txCg
          (dg ++ Block.header (ascii "##CG") 104 6 ++ zeros (6 * 8))) ++
          cgData n recSize) := by
    have pending : (if s.firstDg then patch64 hdLp dgPos
          ((blkHdr (ascii "##DG") 64 4 (s.file ++ encodeBlocks texts)).2 ++ [0] ++ zeros 7)
        else patch64 s.prevDgLp dgPos
          ((blkHdr (ascii "##DG") 64 4 (s.file ++ encodeBlocks texts)).2 ++ [0] ++ zeros 7)) =
            dg := by
      rw [← started, pendingDg]
      split <;> rfl
    unfold writeDgCg
    dsimp only
    rw [pending, hdr, blkHdr_eq four]
    dsimp only
    rw [length, Nat.add_assoc, Nat.add_assoc]
  rw [steps, ← patch64_append (by rw [length_patch64 (by omega)]; omega), named, linked, dgLength]
  rfl

theorem writeChannels_eq (front : Bytes) (txCg n : Nat) (recSize : UInt32)
    (first : CnArgs) (rest : List CnArgs) :
    (rest.foldl (writeCn (front.length + 24))
      (writeCn (front.length + 24) (0, front ++ (cgBlock 0 txCg n recSize).encode) first)).2 =
      front ++ (cgBlock (front.length + 104) txCg n recSize).encode ++
        encodeBlocks (cnBlocks (front.length + 104) (first :: rest)) := by
  have length : (front ++ (cgBlock 0 txCg n recSize).encode).length = front.length + 104 := by
    rw [List.length_append, length_cgBlock]
  have linked :=
    patch64_encode (b := cgBlock 0 txCg n recSize) (show (ascii "##CG").length = 4 by decide)
    (show 1 < 6 by decide) (front.length + 104) front []
  rw [List.append_nil, List.append_nil] at linked
  rw [writeCns_eq (by rw [length]; omega), length, Nat.add_assoc, linked]
  rfl

theorem writeDt_eq (front rest : Bytes) (cg len : Nat) (dt : Nat) :
    patch64 (front.length + 24 + 16) dt
      (blkHdr (ascii "##DT") len 0 (front ++ (dgBlock 0 cg 0).encode ++ rest)).2 =
      front ++ (dgBlock 0 cg dt).encode ++ rest ++ Block.header (ascii "##DT") len 0 := by
  have linked :=
    patch64_encode (b := dgBlock 0 cg 0)
      (show (ascii "##DG").length = 4 by decide) (show 2 < 4 by decide)
    dt front (rest ++ Block.header (ascii "##DT") len 0)
  have appended : (blkHdr (ascii "##DT") len 0 (front ++ (dgBlock 0 cg 0).encode ++ rest)).2 =
      front ++ (dgBlock 0 cg 0).encode ++ (rest ++ Block.header (ascii "##DT") len 0) := by
    rw [blkHdr_eq (by decide)]
    simp only [zeros, Nat.zero_mul, List.replicate_zero, List.append_nil, List.append_assoc]
  rw [appended, Nat.add_assoc, linked, ← List.append_assoc]
  rfl

theorem writeGroup_steps {hdLp : Nat} {s : DgState} {g : ChannelGroup}
    (live : g.live = true) {a : GroupAddresses} {b texts started written : Bytes} {dgLp cgLp : Nat}
    (time : b = s.file ++ (txBlock g.name).encode ++ (txBlock (g.name ++ ascii ".time_s")).encode ++
      (txBlock (ascii "s")).encode)
    (channels : g.channels.foldl writeChannelText ([], b) = (a.tx, texts))
    (groups : writeDgCg hdLp s s.file.length g.timeAxisS.length
      (makeLayout g).recSize texts = (dgLp, cgLp, started))
    (cns : ((List.zipWith (fun x offset => channelCn x.1 x.2 offset) (a.tx.zip g.channels)
      (makeLayout g).offsets.tail).foldl
      (writeCn cgLp)
        (writeCn cgLp (0, started) (timeCn (s.file.length + (txBlock g.name).encode.length)
        (s.file.length + (txBlock g.name).encode.length +
          (txBlock (g.name ++ ascii ".time_s")).encode.length)))).2 =
      written) :
    writeGroup hdLp s g =
      (writeRecords g (patch64 (dgLp + 16) written.length (blkHdr (ascii "##DT")
        (24 + g.timeAxisS.length * (makeLayout g).recSize.toNat) 0 written).2)).map fun b =>
          { prevDgLp := dgLp, firstDg := false, file := b } := by
  have dead : ¬ (g.channels.isEmpty || g.timeAxisS.isEmpty) = true := by
    unfold ChannelGroup.live at live
    simpa using live
  have pair {p : Nat × Bytes} (same : p.2 = written) : ∃ lastLp, p = (lastLp, written) :=
    ⟨_, Prod.ext rfl same⟩
  obtain ⟨lastLp, cns⟩ := pair cns
  subst time
  unfold writeGroup
  rw [if_neg dead]
  simp only [txblock_eq, channels, groups, List.length_append, cns]

theorem writeGroup_eq {hdLp : Nat} {s : DgState} {g : ChannelGroup} (live : g.live = true)
    (inside : pendingDg hdLp s + 8 ≤ s.file.length) :
    writeGroup hdLp s g = g.store.map fun stored =>
      let dg := (groupAddresses s.file.length g).dg
      { prevDgLp := dg + 24
        firstDg := false
        file := patch64 (pendingDg hdLp s) dg s.file ++ groupBytes s.file.length 0 stored } := by
  let a := groupAddresses s.file.length g
  have texts : g.channels.foldl writeChannelText ([], s.file ++ (txBlock g.name).encode ++
      (txBlock (g.name ++ ascii ".time_s")).encode ++ (txBlock (ascii "s")).encode) =
        (a.tx, s.file ++ encodeBlocks (groupTexts g)) := by
    rw [foldl_writeChannelText]
    refine Prod.ext ?_ ?_
    · simp [a, groupAddresses, Nat.add_assoc]
    · simp [groupTexts, List.append_assoc]
  have dgPos : (s.file ++ encodeBlocks (groupTexts g)).length = a.dg := List.length_append
  have groups :=
    writeDgCg_eq inside (groupTexts g) s.file.length g.timeAxisS.length (makeLayout g).recSize
  rw [dgPos] at groups
  let front := patch64 (pendingDg hdLp s) a.dg s.file ++ encodeBlocks (groupTexts g)
  have length : front.length = a.dg := by
    rw [← dgPos, List.length_append, List.length_append, length_patch64 inside]
  have dgLength : (front ++ (dgBlock 0 a.cg 0).encode).length = a.cg := by
    rw [List.length_append, length_dgBlock, length]
    rfl
  let lay := makeLayout g
  let later :=
    List.zipWith (fun x offset => channelCn x.1 x.2 offset) (a.tx.zip g.channels) lay.offsets.tail
  have channels :=
    writeChannels_eq (front ++ (dgBlock 0 a.cg 0).encode) a.txCg g.timeAxisS.length lay.recSize
    (timeCn a.txTimeName a.txTimeUnit) later
  rw [dgLength, List.append_assoc (front ++ _)] at channels
  let rest := (cgBlock a.cn a.txCg g.timeAxisS.length lay.recSize).encode ++ encodeBlocks
    (cnBlocks a.cn (groupCns a g))
  have restLength : (front ++ (dgBlock 0 a.cg 0).encode ++ rest).length = a.dt g := by
    have count : (groupCns a g).length = g.channels.length + 1 := length_groupCns _ g
    rw [List.length_append, dgLength, List.length_append, length_cgBlock, length_cnBlocks,
      count, GroupAddresses.dt, GroupAddresses.cn, GroupAddresses.cg]
    omega
  have data := writeDt_eq front rest a.cg (24 + g.timeAxisS.length * lay.recSize.toNat) (a.dt g)
  rw [length] at data
  replace channels : _ = front ++ (dgBlock 0 a.cg 0).encode ++ rest := channels
  rw [writeGroup_steps live rfl texts groups channels]
  rw [restLength, data, writeRecords_eq, ChannelGroup.store, Option.map_map, Option.map_map]
  refine congrArg (Option.map · (recordsOf g)) (funext fun records => ?_)
  simp [a, front, rest, lay, groupBytes, groupHead, dtBytes, List.append_assoc]

theorem foldlM_writeGroup {hdLp : Nat} {groups : List ChannelGroup}
    (live : ∀ g ∈ groups, g.live = true) {s : DgState} {front tail : Bytes} {holder : Block}
    (four : holder.id.length = 4) (unset : holder.links[0]? = some 0)
    (file : s.file = front ++ holder.encode ++ tail)
    (pending : pendingDg hdLp s = front.length + 24) :
    (groups.foldlM (writeGroup hdLp) s).map DgState.file =
      (groups.mapM ChannelGroup.store).map fun stored =>
      front ++ (holder.setLink 0 (firstDg s.file.length stored)).encode ++ tail ++
        groupsBytes s.file.length stored := by
  induction groups generalizing s front tail holder with
  | nil =>
      obtain ⟨linked, zero⟩ := List.getElem?_eq_some_iff.mp unset
      have same := List.set_getElem_self linked
      rw [zero] at same
      simp [firstDg, groupsBytes, Block.setLink, same, file]
  | cons g groups ih =>
      have patched (v : Nat) : patch64 (pendingDg hdLp s) v s.file =
          front ++ (holder.setLink 0 v).encode ++ tail := by
        rw [pending, file]
        exact patch64_encode four (List.getElem?_eq_some_iff.mp unset).1 v front tail
      have inside : pendingDg hdLp s + 8 ≤ s.file.length := by
        have linked := (List.getElem?_eq_some_iff.mp unset).1
        rw [pending, file, List.length_append, List.length_append,
          Block.length_encode four, Block.size]
        omega
      rw [List.foldlM_cons, List.mapM_cons, writeGroup_eq (live g List.mem_cons_self) inside]
      cases store : g.store with
      | none => rfl
      | some stored =>
          obtain ⟨records, -, rfl⟩ := Option.map_eq_some_iff.mp store
          let a := groupAddresses s.file.length g
          let behind := s.file.length + (groupBytes s.file.length 0 ⟨g, records⟩).length
          let written : DgState :=
            { prevDgLp := a.dg + 24
              firstDg := false
              file := patch64
                (pendingDg hdLp s) a.dg s.file ++ groupBytes s.file.length 0 ⟨g, records⟩ }
          let before :=
            front ++ (holder.setLink 0 a.dg).encode ++ tail ++ encodeBlocks (groupTexts g)
          let after := (cgBlock a.cn a.txCg g.timeAxisS.length (makeLayout g).recSize).encode ++
            encodeBlocks (cnBlocks a.cn (groupCns a g)) ++ dtBytes ⟨g, records⟩
          have length : written.file.length = behind := by
            rw [List.length_append, length_patch64 inside]
          have position : before.length = a.dg := by
            have same := congrArg List.length (patched a.dg)
            rw [length_patch64 inside] at same
            rw [List.length_append, ← same]
            rfl
          have group (next : Nat) : encodeBlocks
              (groupTexts g) ++ ((dgBlock next a.cg (a.dt g)).encode ++ after) =
              groupBytes s.file.length next ⟨g, records⟩ := by
            simp [groupBytes, groupHead, a, after, List.append_assoc]
          have split : written.file = before ++ (dgBlock 0 a.cg (a.dt g)).encode ++ after := by
            rw [List.append_assoc, List.append_assoc, group, ← patched]
          have rest := ih (fun h member => live h (List.mem_cons_of_mem _ member))
            (s := written)
              (show (ascii "##DG").length = 4 by decide) rfl split (by rw [position]; rfl)
          rw [length] at rest
          simp only [Option.map_some, Option.bind_eq_bind, Option.bind_some]
          refine rest.trans ?_
          cases groups.mapM ChannelGroup.store with
          | none => rfl
          | some later =>
              show some (before ++ (dgBlock (firstDg behind later) a.cg (a.dt g)).encode ++ after ++
                groupsBytes behind later) =
                some (front ++ (holder.setLink 0 a.dg).encode ++ tail ++
                  (groupBytes s.file.length (firstDg behind later)
                    ⟨g, records⟩ ++ groupsBytes behind later))
              rw [← group]
              simp only [before, List.append_assoc]

theorem foldlM_live (hdLp : Nat) (groups : List ChannelGroup) (s : DgState) :
    groups.foldlM (writeGroup hdLp) s = (groups.filter ChannelGroup.live).foldlM
      (writeGroup hdLp) s := by
  induction groups generalizing s with
  | nil => rfl
  | cons g groups ih =>
      rw [List.foldlM_cons, List.filter_cons]
      cases live : g.live with
      | true =>
          rw [if_pos rfl, List.foldlM_cons]
          exact bind_congr ih
      | false =>
          have skipped : writeGroup hdLp s g = some s := by
            unfold ChannelGroup.live at live
            exact if_pos (by simpa only [Bool.not_eq_false'] using live)
          rw [if_neg Bool.false_ne_true, skipped]
          exact ih s

def headBlocks (first : Nat) (bundle : SessionBundle) (t0Ns : Int) : List Block :=
  [hdBlock first 168 224 t0Ns, fhBlock 224 t0Ns, mdBlock (commentXml bundle)]

def groupsStart (bundle : SessionBundle) : Nat := 224 + (mdBlock (commentXml bundle)).encode.length

def fileBytes (bundle : SessionBundle) (t0Ns : Int) (stored : List StoredGroup) : Bytes :=
  idBlock ++ encodeBlocks (headBlocks (firstDg (groupsStart bundle) stored) bundle t0Ns) ++
    groupsBytes (groupsStart bundle) stored

theorem length_idBlock : idBlock.length = 64 := by decide

theorem length_hdBlock (first fh md : Nat) (t0Ns : Int) :
    (hdBlock first fh md t0Ns).encode.length = 104 := by
  rw [Block.length_encode (show (ascii "##HD").length = 4 by decide)]
  simp [Block.size, hdBlock, timeBytes, length_zeros]

theorem length_fhBlock (md : Nat) (t0Ns : Int) : (fhBlock md t0Ns).encode.length = 56 := by
  rw [Block.length_encode (show (ascii "##FH").length = 4 by decide)]
  simp [Block.size, fhBlock, timeBytes, length_zeros]

theorem writeHd_eq (t0Ns : Int) (b : Bytes) :
    (blkHdr (ascii "##HD") 104 6 b).2 ++ timeBytes t0Ns ++ leBytes 2 0 ++ leBytes 2 0 ++
      [0, 0, 0, 0] ++ zeros 16 =
      b ++ (hdBlock 0 0 0 t0Ns).encode := by
  have empty :=
    encode_empty (ascii "##HD")
      (timeBytes t0Ns ++ leBytes 2 0 ++ leBytes 2 0 ++ [0, 0, 0, 0] ++ zeros 16) 6
  have size : (timeBytes t0Ns ++ leBytes 2 0 ++ leBytes 2 0 ++ [0, 0, 0, 0] ++ zeros 16).length =
      32 := by
    simp [timeBytes, length_zeros]
  rw [size] at empty
  rw [blkHdr_eq (by decide), hdBlock, show [0, 0, 0, 0, 0, 0] = List.replicate 6 0 from rfl, empty]
  simp only [List.append_assoc]

theorem writeFh_eq (t0Ns : Int) (b : Bytes) :
    (blkHdr (ascii "##FH") 56 2 b).2 ++ timeBytes t0Ns ++ leBytes 2 0 ++
      leBytes 2 0 ++ [0] ++ zeros 3 =
      b ++ (fhBlock 0 t0Ns).encode := by
  have empty :=
    encode_empty (ascii "##FH") (timeBytes t0Ns ++ leBytes 2 0 ++ leBytes 2 0 ++ [0] ++ zeros 3) 2
  have size : (timeBytes t0Ns ++ leBytes 2 0 ++ leBytes 2 0 ++ [0] ++ zeros 3).length = 16 := by
    simp [timeBytes, length_zeros]
  rw [size] at empty
  rw [blkHdr_eq (by decide), fhBlock, show [0, 0] = List.replicate 2 0 from rfl, empty]
  simp only [List.append_assoc]

theorem patchHead_eq (bundle : SessionBundle) (t0Ns : Int) :
    patch64 (192 + 8) 224 (patch64 (88 + 40) 224 (patch64 (88 + 8) 168
      (idBlock ++ (hdBlock 0 0 0 t0Ns).encode ++ (fhBlock 0 t0Ns).encode) ++
        (mdBlock (commentXml bundle)).encode)) =
      idBlock ++ encodeBlocks (headBlocks 0 bundle t0Ns) := by
  have four : (ascii "##HD").length = 4 := by decide
  have first :=
    patch64_encode (b := hdBlock 0 0 0 t0Ns) four
      (show 1 < 6 by decide) 168 idBlock (fhBlock 0 t0Ns).encode
  have second := patch64_encode (b := hdBlock 0 168 0 t0Ns) four (show 5 < 6 by decide) 224 idBlock
    ((fhBlock 0 t0Ns).encode ++ (mdBlock (commentXml bundle)).encode)
  have third :=
    patch64_encode (b := fhBlock 0 t0Ns) (show (ascii "##FH").length = 4 by decide)
      (show 1 < 2 by decide) 224
    (idBlock ++ (hdBlock 0 168 224 t0Ns).encode) (mdBlock (commentXml bundle)).encode
  rw [length_idBlock] at first second
  rw [List.length_append, length_hdBlock, length_idBlock] at third
  have hd1 : (hdBlock 0 0 0 t0Ns).setLink 1 168 = hdBlock 0 168 0 t0Ns := rfl
  have hd2 : (hdBlock 0 168 0 t0Ns).setLink 5 224 = hdBlock 0 168 224 t0Ns := rfl
  have fh1 : (fhBlock 0 t0Ns).setLink 1 224 = fhBlock 224 t0Ns := rfl
  rw [hd1] at first
  rw [hd2] at second
  rw [fh1] at third
  rw [show 88 + 8 = 64 + (24 + 8 * 1) from rfl, first, show 88 + 40 = 64 + (24 + 8 * 5) from rfl,
    List.append_assoc, second, show 192 + 8 = 64 + 104 + (24 + 8 * 1) from rfl,
      ← List.append_assoc, third]
  simp [headBlocks, List.append_assoc]

theorem buildMdf4_eq (groups : List ChannelGroup) (bundle : SessionBundle) (t0Ns : Int) :
    buildMdf4 groups bundle t0Ns = (storedGroups groups).map (fileBytes bundle t0Ns) := by
  let file := idBlock ++ encodeBlocks (headBlocks 0 bundle t0Ns)
  have head : buildMdf4 groups bundle t0Ns =
      (groups.foldlM (writeGroup 88) { prevDgLp := 0, firstDg := true, file }).map
        DgState.file := by
    have hdPos (b : Bytes) : (blkHdr (ascii "##HD") 104 6 b).1 =
        b.length + 24 := by rw [blkHdr_eq (by decide)]
    have fhPos (b : Bytes) : (blkHdr (ascii "##FH") 56 2 b).1 =
        b.length + 24 := by rw [blkHdr_eq (by decide)]
    have fhAt : (idBlock ++ (hdBlock 0 0 0 t0Ns).encode).length = 168 := by
      rw [List.length_append, length_hdBlock, length_idBlock]
    have mdAt (fh : Nat) : (patch64 (88 + 8) fh
        (idBlock ++ (hdBlock 0 0 0 t0Ns).encode ++ (fhBlock 0 t0Ns).encode)).length = 224 := by
      rw [length_patch64] <;> rw [List.length_append, fhAt, length_fhBlock]
      decide
    unfold buildMdf4
    simp only [hdPos, fhPos, writeHd_eq, writeFh_eq, mdblock_eq, fhAt,
      length_idBlock, mdAt, patchHead_eq]
    rfl
  have live (g : ChannelGroup) (member : g ∈ groups.filter ChannelGroup.live) : g.live = true :=
    (List.mem_filter.mp member).2
  have file_eq : file = idBlock ++ (hdBlock 0 168 224 t0Ns).encode ++
      encodeBlocks [fhBlock 224 t0Ns, mdBlock (commentXml bundle)] := by
    simp [file, headBlocks, List.append_assoc]
  have length : file.length = groupsStart bundle := by
    simp only [file_eq, groupsStart, List.length_append, encodeBlocks_cons, encodeBlocks_nil,
      length_idBlock, length_hdBlock, length_fhBlock, List.length_nil]
    omega
  have four : (hdBlock 0 168 224 t0Ns).id.length = 4 := show (ascii "##HD").length = 4 by decide
  have chained :=
    foldlM_writeGroup live (s := { prevDgLp := 0, firstDg := true, file }) four rfl file_eq
    (show 88 = idBlock.length + 24 by rw [length_idBlock])
  rw [head, foldlM_live, chained, storedGroups]
  refine congrArg (Option.map · _) (funext fun stored => ?_)
  rw [length]
  simp only [fileBytes, headBlocks, encodeBlocks_cons, List.append_assoc]
  rfl

end LocalPC.Offline
