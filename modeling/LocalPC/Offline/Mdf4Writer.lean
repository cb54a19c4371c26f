import LocalPC.Lib.BlockFile
import LocalPC.Offline.MetadataLoader

/-!
# Writing MDF4 files

`mdf4_lib_adapter.cpp`: `Buf`, `ctype`, `make_layout` and `build_mdf4`. A position in the file is a
natural number, and is cut to 64 bits where it is written. The result is `none` where a cast of a
value to an integer type is undefined.
-/

namespace LocalPC.Offline
open Lib

/-! ## Numbers -/

structure Double where
  bits : UInt64
  deriving DecidableEq, Repr

namespace Double

def quietNaN : Double := ⟨0x7FF8000000000000⟩

def negative (d : Double) : Bool := 2 ^ 63 ≤ d.bits.toNat
def biasedExponent (d : Double) : Nat := d.bits.toNat / 2 ^ 52 % 2 ^ 11
def fraction (d : Double) : Nat := d.bits.toNat % 2 ^ 52
def isFinite (d : Double) : Bool := d.biasedExponent ≠ 2047

def significand (d : Double) : Nat :=
  if d.biasedExponent = 0 then d.fraction else 2 ^ 52 + d.fraction
def exponent (d : Double) : Int := (max d.biasedExponent 1 : Nat) - 1075

def truncate (d : Double) : Int :=
  let n :=
    if 0 ≤ d.exponent then d.significand * 2 ^ d.exponent.toNat
    else d.significand / 2 ^ (-d.exponent).toNat
  if d.negative then -(n : Int) else n

def toInt16 (d : Double) : Option UInt16 :=
  if d.isFinite ∧ -2 ^ 15 ≤ d.truncate ∧ d.truncate < 2 ^ 15 then some (UInt16.ofInt d.truncate)
  else none

def toUInt8 (d : Double) : Option UInt8 :=
  if d.isFinite ∧ 0 ≤ d.truncate ∧ d.truncate < 2 ^ 8 then some (UInt8.ofInt d.truncate) else none

/-- The bits of `static_cast<float>`, which rounds to the nearest value and ties to even. -/
def toFloat32 (d : Double) : UInt32 :=
  let magnitude :=
    if !d.isFinite then
      if d.fraction = 0 then 0x7F800000 else 0x7F800000 + (d.fraction / 2 ^ 29 ||| 2 ^ 22)
    else
      -- the exponent of the last place of the result
      let unit : Int := max (d.exponent + Nat.log2 d.significand - 23) (-149)
      let n :=
        if unit ≤ d.exponent then d.significand * 2 ^ (d.exponent - unit).toNat
        else roundHalfEven d.significand (2 ^ (unit - d.exponent).toNat)
      if n = 0 then 0 else min ((unit + 149).toNat * 2 ^ 23 + n) 0x7F800000
  UInt32.ofNat ((if d.negative then 2 ^ 31 else 0) + magnitude)

end Double

/-! ## The input -/

structure ChannelDesc where
  name : Bytes
  unit : Bytes
  dataType : Bytes
  data : List Double
  deriving DecidableEq, Repr

structure ChannelGroup where
  name : Bytes
  channels : List ChannelDesc
  timeAxisS : List Double
  deriving DecidableEq, Repr

/-! ## Channel types -/

structure CtypeInfo where
  cnDataType : UInt8
  byteSize : UInt32
  bitCount : UInt32
  deriving DecidableEq, Repr

def ctype (dataType : Bytes) : CtypeInfo :=
  if dataType = ascii "float64" then ⟨6, 8, 64⟩
  else if dataType = ascii "float32" then ⟨4, 4, 32⟩
  else if dataType = ascii "int16" then ⟨2, 2, 16⟩
  else ⟨0, 1, 8⟩

structure Layout where
  offsets : List UInt32
  recSize : UInt32
  deriving DecidableEq, Repr

def makeLayout (g : ChannelGroup) : Layout :=
  g.channels.foldl
    (fun lay ch =>
      { offsets := lay.offsets ++ [lay.recSize],
        recSize := lay.recSize + (ctype ch.dataType).byteSize })
    { offsets := [0], recSize := 8 }

/-! ## `Buf` -/

def zeros (n : Nat) : Bytes := List.replicate n 0

def strPad (s : Bytes) (n : Nat) : Bytes := (s ++ zeros n).take n

def blkHdr (id : Bytes) (len nlinks : Nat) (b : Bytes) : Nat × Bytes :=
  let b := b ++ id ++ zeros 4 ++ leBytes 8 len ++ leBytes 8 nlinks
  (b.length, b ++ zeros (nlinks * 8))

/-- `txblock` and `mdblock`, with the position of the block. -/
def textBlock (id text b : Bytes) : Nat × Bytes :=
  let tlen := text.length + 1
  let tpad := (tlen + 7) / 8 * 8
  (b.length, (blkHdr id (24 + tpad) 0 b).2 ++ text ++ [0] ++ zeros (tpad - tlen))

def txblock (text b : Bytes) : Nat × Bytes := textBlock (ascii "##TX") text b
def mdblock (xml b : Bytes) : Nat × Bytes := textBlock (ascii "##MD") xml b

/-! ## Channels -/

structure CnArgs where
  txName : Nat
  txUnit : Nat
  cnType : UInt8
  cnSync : UInt8
  cnDataType : UInt8
  byteOff : UInt32
  bitCnt : UInt32

def cnData (args : CnArgs) : Bytes :=
  [args.cnType, args.cnSync, args.cnDataType, 0] ++ leBytes 4 args.byteOff.toNat ++
    leBytes 4 args.bitCnt.toNat ++
  leBytes 4 0 ++ leBytes 4 0 ++ [0, 0] ++ leBytes 2 0 ++ zeros 48

def writeCn (cgLp : Nat) (s : Nat × Bytes) (args : CnArgs) : Nat × Bytes :=
  let cnPos := s.2.length
  let (cnLp, b) := blkHdr (ascii "##CN") 160 8 s.2
  let b := patch64 (cnLp + 16) args.txName b
  let b := patch64 (cnLp + 48) args.txUnit b
  let b := if s.1 ≠ 0 then patch64 s.1 cnPos b else patch64 (cgLp + 8) cnPos b
  (cnLp, b ++ cnData args)

def writeChannelText (s : List (Nat × Nat) × Bytes) (ch : ChannelDesc) : List (Nat × Nat) × Bytes :=
  let (txName, b) := txblock ch.name s.2
  let (txUnit, b) := txblock ch.unit b
  (s.1 ++ [(txName, txUnit)], b)

/-! ## Records -/

def ChannelDesc.value (ch : ChannelDesc) (row : Nat) : Double := ch.data.getD row .quietNaN

def storeValue (dataType : Bytes) (val : Double) : Option Bytes :=
  match (ctype dataType).cnDataType with
  | 6 => some (leBytes 8 val.bits.toNat)
  | 4 => some (leBytes 4 val.toFloat32.toNat)
  | 2 => val.toInt16.map fun v => leBytes 2 v.toNat
  | _ => val.toUInt8.map fun v => [v]

def writeRecord (g : ChannelGroup) (b : Bytes) (row : Nat) : Option Bytes :=
  g.channels.foldlM (fun b ch => (storeValue ch.dataType (ch.value row)).map (b ++ ·))
    (b ++ leBytes 8 (g.timeAxisS.getD row .quietNaN).bits.toNat)

def writeRecords (g : ChannelGroup) (b : Bytes) : Option Bytes :=
  (List.range g.timeAxisS.length).foldlM (writeRecord g) b

/-! ## Groups -/

structure DgState where
  prevDgLp : Nat
  firstDg : Bool
  file : Bytes

def cgData (n : Nat) (recSize : UInt32) : Bytes :=
  leBytes 8 0 ++ leBytes 8 n ++ leBytes 2 0 ++ leBytes 2 0 ++ zeros 4 ++
    leBytes 4 recSize.toNat ++ leBytes 4 0

def timeCn (txTimeName txTimeUnit : Nat) : CnArgs := ⟨txTimeName, txTimeUnit, 2, 1, 6, 0, 64⟩

def channelCn (tx : Nat × Nat) (ch : ChannelDesc) (offset : UInt32) : CnArgs :=
  ⟨tx.1, tx.2, 0, 0, (ctype ch.dataType).cnDataType, offset, (ctype ch.dataType).bitCount⟩

def writeDgCg (hdLp : Nat) (s : DgState) (txCg n : Nat) (recSize : UInt32)
    (b : Bytes) : Nat × Nat × Bytes :=
  let dgPos := b.length
  let (dgLp, b) := blkHdr (ascii "##DG") 64 4 b
  let b := b ++ [0] ++ zeros 7
  let b := if s.firstDg then patch64 hdLp dgPos b else patch64 s.prevDgLp dgPos b
  let cgPos := b.length
  let (cgLp, b) := blkHdr (ascii "##CG") 104 6 b
  let b := patch64 (cgLp + 16) txCg b
  let b := patch64 (dgLp + 8) cgPos b
  (dgLp, cgLp, b ++ cgData n recSize)

def writeGroup (hdLp : Nat) (s : DgState) (g : ChannelGroup) : Option DgState :=
  if g.channels.isEmpty || g.timeAxisS.isEmpty then some s
  else
    let n := g.timeAxisS.length
    let (txCg, b) := txblock g.name s.file
    let (txTimeName, b) := txblock (g.name ++ ascii ".time_s") b
    let (txTimeUnit, b) := txblock (ascii "s") b
    let (tx, b) := g.channels.foldl writeChannelText ([], b)
    let lay := makeLayout g
    let (dgLp, cgLp, b) := writeDgCg hdLp s txCg n lay.recSize b
    let cns := List.zipWith (fun x offset => channelCn x.1 x.2 offset)
      (tx.zip g.channels) lay.offsets.tail
    let (_, b) := cns.foldl (writeCn cgLp) (writeCn cgLp (0, b) (timeCn txTimeName txTimeUnit))
    let dtPos := b.length
    let (_, b) := blkHdr (ascii "##DT") (24 + n * lay.recSize.toNat) 0 b
    let b := patch64 (dgLp + 16) dtPos b
    (writeRecords g b).map fun b => { prevDgLp := dgLp, firstDg := false, file := b }

/-! ## The file -/

def idBlock : Bytes :=
  strPad (ascii "MDF     ") 8 ++ strPad (ascii "4.10    ") 8 ++ strPad
    (ascii "ego-offl") 8 ++ zeros 4 ++
  leBytes 2 410 ++ zeros 34

def commentXml (bundle : SessionBundle) : Bytes :=
  ascii "<HDcomment><TX>" ++
  (ascii "session_id=" ++ bundle.session.sessionId ++ ascii " vehicle_id=" ++
    bundle.session.vehicleId ++
    ascii " started_at=" ++ bundle.session.startedAtUtc ++
    ascii " offline_pipeline_version=" ++ bundle.session.runtimeVersion ++
    (match bundle.scenario with
      | none => []
      | some scenario => ascii " scenario_id=" ++ scenario.scenarioId)) ++
  ascii "</TX></HDcomment>"

def timeBytes (t0Ns : Int) : Bytes := leBytes 8 (t0Ns % 2 ^ 64).toNat

def buildMdf4 (groups : List ChannelGroup) (bundle : SessionBundle) (t0Ns : Int) : Option Bytes :=
  let b := idBlock
  let (hdLp, b) := blkHdr (ascii "##HD") 104 6 b
  let b := b ++ timeBytes t0Ns ++ leBytes 2 0 ++ leBytes 2 0 ++ [0, 0, 0, 0] ++ zeros 16
  let fhPos := b.length
  let (fhLp, b) := blkHdr (ascii "##FH") 56 2 b
  let b := b ++ timeBytes t0Ns ++ leBytes 2 0 ++ leBytes 2 0 ++ [0] ++ zeros 3
  let b := patch64 (hdLp + 8) fhPos b
  let (mdCommentPos, b) := mdblock (commentXml bundle) b
  let b := patch64 (hdLp + 40) mdCommentPos b
  let b := patch64 (fhLp + 8) mdCommentPos b
  (groups.foldlM (writeGroup hdLp) { prevDgLp := 0, firstDg := true, file := b }).map DgState.file

end LocalPC.Offline
