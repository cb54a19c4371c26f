import Mathlib.Data.List.ModifyLast
import LocalPC.Runtime.SessionDirectory
import LocalPC.Contract.FrameHeader

/-!
# The chunk writer

`chunk_writer.cpp`. Everything the environment decides in a call (clock readings in nanoseconds,
whether a file opens, how much of a write reaches the file) is an argument of that call. A chunk
file holds fewer than `2 ^ 63` bytes, so the 64-bit byte counters are natural numbers; chunk ids
and packet counters have 32 bits and wrap. A stream has no buffer: what a write takes is in the file at once.
-/

namespace LocalPC.Runtime
open Lib Contract

structure RuntimeConfig where
  chunkMaxBytes : UInt64 := 4294967296
  chunkMaxSec : UInt32 := 3600
  flushPackets : UInt32 := 1000
  flushIntervalSec : UInt32 := 1
  autoStartOnSessionStarted : Bool := false
  timeGapThresholdMs : UInt32 := 50
  packetBufferCapacity : Nat := 4096
  packetBufferMaxBytes : Nat := 512 * 1024 * 1024
  maxPayloadBytes : UInt32 := 65536
  dataRoot : Bytes := ascii "/data/ego-sessions"
  vehicleId : Bytes := ascii "CAR-001"
  softwareVersion : Bytes := ascii "1.0.0"
  testStandConfig : Bytes := []
  scenarioId : Bytes := []
  scenarioName : Bytes := []
  operatorName : Bytes := []
  notes : Bytes := []
  deriving Repr

/-! ## Streams -/

inductive StreamWrite
  | done
  | failed (written : Nat)
  deriving DecidableEq, Repr

structure OutStream where
  path : Bytes := []
  isOpen : Bool := false
  good : Bool := true
  deriving DecidableEq, Repr

namespace OutStream

/-- `open` fails on a stream that is open already, and clears the error state when it succeeds. -/
def openFile (opens : Bool) (path : Bytes) (s : OutStream) : OutStream :=
  if s.isOpen then { s with good := false }
  else if opens then ⟨path, true, true⟩
  else { s with good := false }

def write (outcome : StreamWrite) (bytes : Bytes) (s : OutStream) (dir : Dir) : OutStream × Dir :=
  if s.isOpen && s.good then
    match outcome with
    | .done => (s, dir.append s.path bytes)
    | .failed written => ({ s with good := false }, dir.append s.path (bytes.take written))
  else ({ s with good := false }, dir)

def close (s : OutStream) : OutStream := { s with isOpen := false }

theorem write_done {s : OutStream} (opened : s.isOpen = true) (good : s.good = true)
    (bytes : Bytes) (dir : Dir) :
    s.write .done bytes dir = (s, dir.append s.path bytes) := by
  simp [write, opened, good]

theorem write_good {s : OutStream} {outcome : StreamWrite} {bytes : Bytes} {dir : Dir}
    (good : (s.write outcome bytes dir).1.good = true) :
    s.isOpen = true ∧ s.good = true ∧ outcome = .done := by
  unfold write at good
  split at good
  · rename_i usable
    rw [Bool.and_eq_true] at usable
    cases outcome with
    | done => exact ⟨usable.1, usable.2, rfl⟩
    | failed written => cases good
  · cases good

end OutStream

/-! ## The writer -/

structure ChunkInfo where
  filename : Bytes
  bytes : Nat := 0
  firstTsNs : UInt64 := 0
  lastTsNs : UInt64 := 0
  packetCount : UInt32 := 0
  deriving DecidableEq, Repr

structure OpenIo where
  opens : Bool
  indexOpens : Bool
  now : Int

structure FlushIo where
  now : Int
  manifest : TextWrite

structure WriteIo where
  rotateNow : Int
  rotateFlush : FlushIo
  reopen : OpenIo
  chunkWrite : StreamWrite
  indexWrite : StreamWrite
  flushCheckNow : Int
  flush : FlushIo

structure ChunkWriter where
  config : RuntimeConfig
  chunkStream : OutStream := {}
  indexStream : OutStream := {}
  currentChunkId : UInt32 := 0
  currentChunkOffset : Nat := 0
  currentChunkBytes : Nat := 0
  packetsSinceFlush : UInt32 := 0
  lastFlushTime : Int
  chunkOpenedAt : Int := 0
  totalBytes : Nat := 0
  totalPackets : UInt32 := 0
  chunks : List ChunkInfo := []
  dir : Dir

def nsPerSec : Int := 1000000000

def elapsedSec (now since : Int) : Int := (now - since).tdiv nsPerSec

def manifestChunkJson (count i : Nat) (c : ChunkInfo) : Bytes :=
  ascii "    \x7b\n" ++
  ascii "      \"chunk_id\": " ++ decimal i ++ ascii ",\n" ++
  ascii "      \"file\": \"" ++ jsonEscape c.filename ++ ascii "\",\n" ++
  ascii "      \"bytes\": " ++ decimal c.bytes ++ ascii ",\n" ++
  ascii "      \"first_ts_ns\": " ++ decimal c.firstTsNs.toNat ++ ascii ",\n" ++
  ascii "      \"last_ts_ns\": " ++ decimal c.lastTsNs.toNat ++ ascii ",\n" ++
  ascii "      \"packet_count\": " ++ decimal c.packetCount.toNat ++ ascii "\n" ++
  ascii "    \x7d" ++ (if i + 1 < count then ascii "," else []) ++ ascii "\n"

def manifestJson (chunks : List ChunkInfo) : Bytes :=
  ascii "\x7b\n  \"chunks\": [\n" ++
  (chunks.mapIdx fun i c => manifestChunkJson chunks.length i c).flatten ++
  ascii "  ]\n\x7d\n"

def indexLine (offset : Nat) (header : EgoFrameHeader) (chunkId : Nat) : Bytes :=
  decimal offset ++ ascii "," ++ decimal header.t0Ns.toNat ++ ascii "," ++
  decimal header.frameType.toNat ++ ascii "," ++ decimal header.seq.toNat ++ ascii "," ++
  decimal chunkId ++ ascii "," ++ decimal header.payloadSize.toNat

def ChunkInfo.add (frame : Bytes) (c : ChunkInfo) : ChunkInfo :=
  let header := EgoFrameHeader.decode frame
  { c with
    bytes := c.bytes + frame.length
    packetCount := c.packetCount + 1
    firstTsNs := if c.packetCount + 1 = 1 then header.t0Ns else c.firstTsNs
    lastTsNs := header.t1Ns }

namespace ChunkWriter

def create (config : RuntimeConfig) (now : Int) (dir : Dir) : ChunkWriter :=
  { config, lastFlushTime := now, dir }

def openIndex (opens : Bool) (w : ChunkWriter) : ChunkWriter :=
  if w.indexStream.isOpen then w
  else
    let stream := w.indexStream.openFile opens indexName
    if stream.good then
      -- append mode keeps what is there
      { w with indexStream := stream, dir := w.dir.insert indexName (w.dir.content indexName) }
    else { w with indexStream := stream }

def openChunk (io : OpenIo) (w : ChunkWriter) : Bool × ChunkWriter :=
  let filename := chunkFilename w.currentChunkId.toNat
  let stream := w.chunkStream.openFile io.opens filename
  if !stream.good then (false, { w with chunkStream := stream })
  else
    let w := { w with chunkStream := stream, dir := w.dir.insert filename [] }
    let w := w.openIndex io.indexOpens
    (true, { w with
      currentChunkOffset := 0
      currentChunkBytes := 0
      chunkOpenedAt := io.now
      chunks := w.chunks ++ [{ filename := filename }] })

def updateManifest (outcome : TextWrite) (w : ChunkWriter) : ChunkWriter :=
  { w with dir := (writeTextAtomic outcome manifestName (manifestJson w.chunks) w.dir).2 }

def flush (io : FlushIo) (w : ChunkWriter) : ChunkWriter :=
  { w with packetsSinceFlush := 0, lastFlushTime := io.now }.updateManifest io.manifest

def mustRotate (now : Int) (w : ChunkWriter) : Prop :=
  w.config.chunkMaxBytes.toNat ≤ w.currentChunkBytes ∨
    (w.config.chunkMaxSec.toNat : Int) ≤ elapsedSec now w.chunkOpenedAt

instance (now : Int) (w : ChunkWriter) : Decidable (w.mustRotate now) :=
  inferInstanceAs (Decidable (_ ∨ _))

def rotateIfNeeded (io : WriteIo) (w : ChunkWriter) : Bool × ChunkWriter :=
  if !w.chunkStream.isOpen then w.openChunk io.reopen
  else if ¬ w.mustRotate io.rotateNow then (true, w)
  else
    let w := w.flush io.rotateFlush
    { w with
      chunkStream := w.chunkStream.close
      currentChunkId := w.currentChunkId + 1 }.openChunk io.reopen

def appendContractIndex (outcome : StreamWrite) (header : EgoFrameHeader)
    (w : ChunkWriter) : ChunkWriter :=
  if !w.indexStream.good then w
  else
    let line := indexLine w.currentChunkOffset header w.currentChunkId.toNat ++ [newline]
    let result := w.indexStream.write outcome line w.dir
    { w with indexStream := result.1, dir := result.2 }

theorem appendContractIndex_done {w : ChunkWriter} (index : w.indexStream = ⟨indexName, true, true⟩)
    (header : EgoFrameHeader) :
    w.appendContractIndex .done header =
      { w with
        dir := w.dir.append indexName
          (indexLine w.currentChunkOffset header w.currentChunkId.toNat ++ [newline]) } := by
  simp [appendContractIndex, OutStream.write, index]

def account (frame : Bytes) (w : ChunkWriter) : ChunkWriter :=
  { w with
    currentChunkOffset := w.currentChunkOffset + frame.length
    currentChunkBytes := w.currentChunkBytes + frame.length
    totalBytes := w.totalBytes + frame.length
    totalPackets := w.totalPackets + 1
    chunks := w.chunks.modifyLast (ChunkInfo.add frame)
    packetsSinceFlush := w.packetsSinceFlush + 1 }

def flushIfDue (io : WriteIo) (w : ChunkWriter) : ChunkWriter :=
  if w.config.flushPackets ≤ w.packetsSinceFlush ∨
      (w.config.flushIntervalSec.toNat : Int) ≤ elapsedSec io.flushCheckNow w.lastFlushTime then
    w.flush io.flush
  else w

def writeContractFrame (io : WriteIo) (frame : Bytes) (w : ChunkWriter) : Bool × ChunkWriter :=
  if frame.length < egoFrameHeaderSize then (false, w)
  else
    match w.rotateIfNeeded io with
    | (false, w) => (false, w)
    | (true, w) =>
        let header := EgoFrameHeader.decode frame
        if header.magic ≠ egoFrameMagic then (false, w)
        else
          let result := w.chunkStream.write io.chunkWrite frame w.dir
          let w := { w with chunkStream := result.1, dir := result.2 }
          if !w.chunkStream.good then (false, w)
          else (true, ((w.appendContractIndex io.indexWrite header).account frame).flushIfDue io)

def close (io : FlushIo) (w : ChunkWriter) : ChunkWriter :=
  let w := w.flush io
  { w with chunkStream := w.chunkStream.close, indexStream := w.indexStream.close }

end ChunkWriter

def ChunkWriter.open (io : OpenIo) (w : ChunkWriter) : Bool × ChunkWriter := w.openChunk io

end LocalPC.Runtime
