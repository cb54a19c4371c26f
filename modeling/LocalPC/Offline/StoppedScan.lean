import LocalPC.Offline.ScanAccumulator

namespace LocalPC.Offline
open Lib Contract LocalPC.Runtime

section Ego
variable {σ : Type*} {cb : RawPacket → σ → Bool × σ}

/-- As long as a later chunk has packets, the callback accepts. -/
def EgoLogReader.Unrefused (reader : EgoLogReader) (dir : Dir)
    (cb : RawPacket → σ → Bool × σ) (state : σ) : Prop :=
  ∀ before chunk after, reader.chunks = before ++ chunk :: after →
    (∃ later ∈ after, reader.chunkPackets dir later ≠ []) →
    Accepts cb ((before ++ [chunk]).flatMap (reader.chunkPackets dir)) state

theorem EgoLogReader.unrefused_iff {reader : EgoLogReader} {dir : Dir} {state : σ} :
    reader.Unrefused dir cb state ↔
      AcceptedBefore cb (reader.chunks.map (reader.chunkPackets dir)) state := by
  unfold EgoLogReader.Unrefused AcceptedBefore
  constructor
  · intro unrefused before xs after split follows
    obtain ⟨front, back, chunks, rfl, rest⟩ := List.map_eq_append_iff.mp split
    obtain ⟨chunk, later, rfl, rfl, rfl⟩ := List.map_eq_cons_iff.mp rest
    have accepted := unrefused front chunk later chunks (by simpa using follows)
    simpa [List.flatMap_append, List.flatMap_def] using accepted
  · intro accepted before chunk after split follows
    have visited := accepted (before.map (reader.chunkPackets dir)) (reader.chunkPackets dir chunk)
      (after.map (reader.chunkPackets dir)) (by simp [split]) (by simpa using follows)
    simpa [List.flatMap_append, List.flatMap_def] using visited

end Ego

structure SourceLogReader where
  chunks : List ChunkInfo

namespace SourceLogReader
variable {σ : Type*}

/-- One chunk, from the current position on. Packets of other types are skipped, as far as the file
goes or beyond its end. -/
def scanChunk (chunkId : Int) (cb : RawPacket → σ → Bool × σ) (fileOffset : Nat) (rest : Bytes)
    (state : σ) : Bool × σ :=
  if rest.length < kHeaderSize then (true, state)
  else
    let hdr := PacketHeader.decode (rest.take kHeaderSize)
    let size := kHeaderSize + hdr.payloadSize.toNat
    if hdr.magic ≠ kMagic then (true, state)
    else if hdr.type < 101 ∨ 199 < hdr.type then scanChunk chunkId cb
      (fileOffset + size) (rest.drop size) state
    else if rest.length < size then (true, state)
    else
      let payload := (rest.drop kHeaderSize).take hdr.payloadSize.toNat
      match cb { header := hdr, payload, chunkId, fileOffset } state with
      | (false, state) => (false, state)
      | (true, state) => scanChunk chunkId cb (fileOffset + size) (rest.drop size) state
termination_by rest.length
decreasing_by
  all_goals
    simp only [List.length_drop, kHeaderSize] at *
    omega

def scanChunks (dir : Dir) (cb : RawPacket → σ → Bool × σ) : List ChunkInfo → σ → σ
  | [], state => state
  | chunk :: rest, state =>
      match dir.lookup chunk.path with
      | none => scanChunks dir cb rest state
      | some bytes =>
          match scanChunk chunk.chunkId cb 0 bytes state with
          | (false, state) => state
          | (true, state) => scanChunks dir cb rest state

def scan (reader : SourceLogReader) (dir : Dir) (cb : RawPacket → σ → Bool × σ) (state : σ) : σ :=
  scanChunks dir cb reader.chunks state

theorem exists_packets (chunkId : Int) (fileOffset : Nat) (rest : Bytes) :
    ∃ pkts, ∀ (cb : RawPacket → σ → Bool × σ) state,
      scanChunk chunkId cb fileOffset rest state = visit cb pkts state := by
  by_cases short : rest.length < kHeaderSize
  · refine ⟨[], fun cb state => ?_⟩
    rw [scanChunk, if_pos short]
    rfl
  let hdr := PacketHeader.decode (rest.take kHeaderSize)
  let size := kHeaderSize + hdr.payloadSize.toNat
  by_cases magic : hdr.magic ≠ kMagic
  · refine ⟨[], fun cb state => ?_⟩
    rw [scanChunk, if_neg short]
    dsimp only
    rw [if_pos magic]
    rfl
  obtain ⟨later, seen⟩ := exists_packets chunkId (fileOffset + size) (rest.drop size)
  by_cases other : hdr.type < 101 ∨ 199 < hdr.type
  · refine ⟨later, fun cb state => ?_⟩
    rw [scanChunk, if_neg short]
    dsimp only
    rw [if_neg magic, if_pos other]
    exact seen cb state
  by_cases cut : rest.length < size
  · refine ⟨[], fun cb state => ?_⟩
    rw [scanChunk, if_neg short]
    dsimp only
    rw [if_neg magic, if_neg other, if_pos cut]
    rfl
  let pkt : RawPacket :=
    { header := hdr,
      payload := (rest.drop kHeaderSize).take hdr.payloadSize.toNat, chunkId, fileOffset }
  refine ⟨pkt :: later, fun cb state => ?_⟩
  rw [scanChunk, if_neg short]
  dsimp only
  rw [if_neg magic, if_neg other, if_neg cut, visit]
  rcases answer : cb pkt state with ⟨_ | _, after⟩
  · rfl
  · exact seen cb after
termination_by rest.length
decreasing_by
  simp only [List.length_drop, kHeaderSize] at *
  omega

theorem scan_eq (reader : SourceLogReader) (dir : Dir) :
    ∃ pkts, ∀ (cb : RawPacket → σ → Bool × σ) state,
      reader.scan dir cb state = (visit cb pkts state).2 := by
  unfold scan
  induction reader.chunks with
  | nil => exact ⟨[], fun _ _ => rfl⟩
  | cons chunk rest ih =>
      obtain ⟨later, seen⟩ := ih
      cases found : dir.lookup chunk.path with
      | none =>
          refine ⟨later, fun cb state => ?_⟩
          rw [scanChunks, found]
          exact seen cb state
      | some bytes =>
          obtain ⟨first, visits⟩ := exists_packets (σ := σ) chunk.chunkId 0 bytes
          refine ⟨first ++ later, fun cb state => ?_⟩
          rw [scanChunks, found]
          dsimp only
          rw [visits]
          rcases answer : visit cb first state with ⟨_ | _, after⟩
          · rw [visit_append_false answer]
          · rw [visit_append_true answer]
            exact seen cb after

theorem scan_staysStopped (reader : SourceLogReader) (dir : Dir)
    (cb : RawPacket → σ → Bool × σ) (state : σ) :
    StaysStopped (reader.scan dir (logged cb) (state, [])).2 := by
  obtain ⟨pkts, visits⟩ := reader.scan_eq (σ := σ × List Bool) dir
  rw [visits, visit_logged]
  exact staysStopped_answers pkts state

end SourceLogReader

theorem EgoLogReader.scan_staysStopped {σ : Type*} (reader : EgoLogReader) (dir : Dir)
    (cb : RawPacket → σ → Bool × σ) (state : σ) :
    StaysStopped (reader.scan dir (logged cb) (state, [])).2 ↔ reader.Unrefused dir cb state := by
  obtain ⟨answers, visits, -, stays⟩ :=
    @staysStopped_visitEach _ _ cb (reader.chunks.map (reader.chunkPackets dir)) state
  rw [reader.scan_eq, visits, unrefused_iff]
  exact stays

/-- A stopped scan of the source log stays stopped; one of the ego log does if no later chunk has a
packet. -/
theorem stoppedScans_stayStopped {σ : Type*} (ego : EgoLogReader)
    (source : SourceLogReader) (dir : Dir) (cb : RawPacket → σ → Bool × σ) (state : σ) :
    (StaysStopped (ego.scan dir (logged cb) (state, [])).2 ∧
      StaysStopped (source.scan dir (logged cb) (state, [])).2) ↔ ego.Unrefused dir cb state := by
  rw [ego.scan_staysStopped]
  exact and_iff_left (source.scan_staysStopped dir cb state)

def twoChunks : List ChunkInfo := [{ path := [99] }, { path := [99], chunkId := 1 }]

theorem twoChunks_calledAgain :
    ¬ ∀ (chunks : List ChunkInfo) (dir : Dir) (cb : RawPacket → Unit → Bool × Unit),
      StaysStopped ((EgoLogReader.create dir chunks).scan dir (logged cb) ((), [])).2 := by
  intro always
  have holds : HoldsFrames twoChunks shortDir := by
    intro chunk listed bytes found
    have path : chunk.path = [99] := by
      rcases List.mem_cons.mp listed with rfl | rest
      · rfl
      · rw [List.mem_singleton.mp rest]
    rw [path] at found
    cases found
    exact ⟨shortFrames, shortFrames_accepted, rfl⟩
  have packets (chunkId : Int) : (EgoLogReader.create shortDir twoChunks).chunkPackets shortDir
      { path := [99], chunkId } ≠ [] := by
    rw [chunkPackets_of_frames holds shortFrames_accepted rfl]
    exact List.cons_ne_nil _ _
  have unrefused :=
    (EgoLogReader.scan_staysStopped _ _ _ _).mp (always twoChunks shortDir fun _ s => (false, s))
  have accepted :=
    unrefused [] { path := [99] } [{ path := [99], chunkId := 1 }] rfl
      ⟨_, List.mem_singleton_self _, packets 1⟩
  rw [List.nil_append, List.flatMap_singleton] at accepted
  obtain ⟨pkt, rest, is⟩ := List.exists_cons_of_ne_nil (packets 0)
  rw [show ({ path := [99] } : ChunkInfo) = { path := [99], chunkId := 0 } from rfl, is] at accepted
  cases accepted

end LocalPC.Offline
