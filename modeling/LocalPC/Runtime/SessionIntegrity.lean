import LocalPC.Runtime.SessionDirectory
import LocalPC.Runtime.ContractFrameIo

namespace LocalPC.Runtime
open Lib Contract

inductive IntegrityResult
  | kOk
  | kWarning
  | kFailed
  deriving DecidableEq, Repr

structure IntegrityReport where
  result : IntegrityResult := .kFailed
  detail : String := ""
  deriving DecidableEq, Repr

def hasTmpFiles (dir : Dir) : Bool := dir.keys.any fun name => extension name = ascii ".tmp"

def nonemptyLines (text : Bytes) : Nat := ((getlines newline text).filter (· ≠ [])).length

def countFilePackets (maxPayloadBytes : UInt32) : List Bytes → Nat → Option Nat
  | [], filePackets => some filePackets
  | bytes :: rest, filePackets =>
      let count := countContractFramesInBytes bytes maxPayloadBytes
      if count = 0 ∧ bytes ≠ [] then none
      else countFilePackets maxPayloadBytes rest (filePackets + count)

/-- `none` stands for a session directory that does not exist. -/
def checkSessionIntegrity (sessionDir : Option Dir) (maxPayloadBytes : UInt32) : IntegrityReport :=
  match sessionDir with
  | none => { detail := "session directory missing" }
  | some dir =>
      if hasTmpFiles dir then { result := .kWarning, detail := "leftover .tmp files" }
      else if manifestName ∉ dir ∨ indexName ∉ dir then { detail := "manifest or index missing" }
      else
        match countFilePackets maxPayloadBytes dir.chunks 0 with
        | none => { detail := "invalid contract frame stream in chunk" }
        | some filePackets =>
            if nonemptyLines (dir.content indexName) ≠ filePackets then
              { result := .kWarning, detail := "index count mismatch with chunk frames" }
            else { result := .kOk, detail := "ok" }

def leadingFrames (m : UInt32) (bytes : Bytes) : List Bytes := (contractFormat m).records bytes

theorem leadingFrames_eq_nil_iff {m : UInt32} {bytes : Bytes} :
    leadingFrames m bytes = [] ↔ ¬ ∃ frame, Accepted m frame ∧ frame <+: bytes := by
  constructor
  · rintro none ⟨frame, accepted, rest, rfl⟩
    rw [leadingFrames, RecordFormat.records_cons (isRecord_iff.mpr accepted)] at none
    cases none
  · intro absent
    cases found : (contractFormat m).size? bytes with
    | none => exact RecordFormat.records_of_none found
    | some n =>
        exact absurd
          ⟨bytes.take n, isRecord_iff.mp (RecordFormat.IsRecord.take found),
            List.take_prefix n bytes⟩ absent

theorem countFilePackets_eq (m : UInt32) (chunks : List Bytes) (start : Nat) :
    countFilePackets m chunks start =
      if ∀ bytes ∈ chunks, bytes ≠ [] → leadingFrames m bytes ≠ [] then
        some (start + (chunks.map fun bytes => (leadingFrames m bytes).length).sum)
      else none := by
  induction chunks generalizing start with
  | nil => simp [countFilePackets]
  | cons bytes chunks ih =>
      rw [countFilePackets, countContractFramesInBytes_eq, ← leadingFrames]
      by_cases invalid : (leadingFrames m bytes).length = 0 ∧ bytes ≠ []
      · rw [if_pos invalid, if_neg]
        intro valid
        exact valid bytes (by simp) invalid.2 (List.length_eq_zero_iff.mp invalid.1)
      · have head : bytes ≠ [] → leadingFrames m bytes ≠ [] := fun nonempty none =>
          invalid ⟨by simp [none], nonempty⟩
        rw [if_neg invalid, ih]
        simp only [List.forall_mem_cons, List.map_cons, List.sum_cons,
          Nat.add_assoc, and_iff_right head]

structure Accepts (dir : Dir) (m : UInt32) : Prop where
  noTmp : ∀ name ∈ dir, extension name ≠ ascii ".tmp"
  manifest : manifestName ∈ dir
  index : indexName ∈ dir
  starts : ∀ bytes ∈ dir.chunks, bytes ≠ [] → ∃ frame, Accepted m frame ∧ frame <+: bytes
  counted : nonemptyLines (dir.content indexName) =
    (dir.chunks.map fun bytes => (leadingFrames m bytes).length).sum

theorem checkSessionIntegrity_ok_iff {dir : Dir} {m : UInt32} :
    (checkSessionIntegrity (some dir) m).result = .kOk ↔ Accepts dir m := by
  have noTmp : hasTmpFiles dir = false ↔ ∀ name ∈ dir, extension name ≠ ascii ".tmp" := by
    simp [hasTmpFiles, AList.mem_keys]
  have starts : (∀ bytes ∈ dir.chunks, bytes ≠ [] → leadingFrames m bytes ≠ []) ↔
      ∀ bytes ∈ dir.chunks, bytes ≠ [] → ∃ frame, Accepted m frame ∧ frame <+: bytes := by
    simp only [ne_eq, leadingFrames_eq_nil_iff, not_not]
  unfold checkSessionIntegrity
  dsimp only
  rw [countFilePackets_eq, Nat.zero_add]
  constructor
  · intro ok
    split_ifs at ok with tmp missing valid
    dsimp only at ok
    split_ifs at ok with counted
    push Not at missing
    exact ⟨noTmp.mp (by simpa using tmp), missing.1, missing.2, starts.mp valid, not_not.mp counted⟩
  · rintro ⟨tmp, manifest, index, valid, counted⟩
    rw [if_neg (by simp [noTmp.mpr tmp]), if_neg (by simp [manifest, index]),
      if_pos (starts.mpr valid)]
    dsimp only
    rw [if_neg (not_not.mpr counted)]

/-- The chunk files are sequences of accepted frames, as many as the index has lines. -/
def Sound (dir : Dir) (m : UInt32) : Prop :=
  ∃ frames : List (List Bytes), (∀ fs ∈ frames, ∀ frame ∈ fs, Accepted m frame) ∧
    dir.chunks = frames.map List.flatten ∧
      frames.flatten.length = nonemptyLines (dir.content indexName)

/-- A chunk file is damaged, but only behind a valid frame, and the count is that of the index. -/
def UndetectedDamage (dir : Dir) (m : UInt32) : Prop :=
  Accepts dir m ∧ ∃ bytes ∈ dir.chunks, ¬ (contractFormat m).Whole bytes

theorem sound_of_whole {dir : Dir} {m : UInt32} (accepts : Accepts dir m)
    (whole : ∀ bytes ∈ dir.chunks, (contractFormat m).Whole bytes) : Sound dir m := by
  refine ⟨dir.chunks.map (leadingFrames m), ?_, ?_, ?_⟩
  · intro fs member frame inside
    obtain ⟨bytes, -, rfl⟩ := List.mem_map.mp member
    exact isRecord_iff.mp (RecordFormat.isRecord_of_mem_records bytes frame inside)
  · rw [List.map_map]
    conv_lhs => rw [← List.map_id dir.chunks]
    refine List.map_congr_left fun bytes member => ?_
    have split := RecordFormat.records_flatten (F := contractFormat m) bytes
    rw [whole bytes member, List.append_nil] at split
    exact split.symm
  · rw [accepts.counted, List.length_flatten, List.map_map]
    rfl

theorem whole_of_sound {dir : Dir} {m : UInt32} (sound : Sound dir m) :
    ∀ bytes ∈ dir.chunks, (contractFormat m).Whole bytes := by
  obtain ⟨frames, valid, same, -⟩ := sound
  intro bytes member
  rw [same] at member
  obtain ⟨fs, inside, rfl⟩ := List.mem_map.mp member
  exact RecordFormat.Whole.of_flatten fun frame listed =>
    isRecord_iff.mpr (valid fs inside frame listed)

/-- The check is sound but for damage behind a valid frame. -/
theorem integrity_sound_iff (dir : Dir) (m : UInt32) :
    ((checkSessionIntegrity (some dir) m).result = .kOk → Sound dir m) ↔
      ¬ UndetectedDamage dir m := by
  rw [checkSessionIntegrity_ok_iff]
  constructor
  · rintro sound ⟨accepts, bytes, member, torn⟩
    exact torn (whole_of_sound (sound accepts) bytes member)
  · intro none accepts
    refine sound_of_whole accepts fun bytes member => ?_
    by_contra torn
    exact none ⟨accepts, bytes, member, torn⟩

/-- A session of one frame of which one byte too many was written. -/
def tornSession : Dir :=
  ((∅ : Dir).insert manifestName (ascii "{}")).insert indexName (ascii "0,10,100,7,0,1
") |>.insert
    (chunkFilename 0) (sealFrame 100 7 10 11 [1] ++ [0])

theorem tornSession_unsound :
    (checkSessionIntegrity (some tornSession) 65536).result = .kOk ∧ ¬ Sound tornSession 65536 := by
  have accepted : Accepted 65536 (sealFrame 100 7 10 11 [1]) :=
    sealFrame_accepted _ _ _ _ (by decide)
  have record := isRecord_iff.mpr accepted
  have chunks : tornSession.chunks = [sealFrame 100 7 10 11 [1] ++ [0]] := by decide +kernel
  have none : (contractFormat 65536).size? [0] = none := rfl
  have leading : leadingFrames 65536 (sealFrame 100 7 10 11 [1] ++ [0]) =
      [sealFrame 100 7 10 11 [1]] := by
    rw [leadingFrames, RecordFormat.records_cons record, RecordFormat.records_of_none none]
  refine ⟨checkSessionIntegrity_ok_iff.mpr ⟨by decide, by decide, by decide, ?_, ?_⟩,
    fun sound => ?_⟩
  · rw [chunks]
    exact fun bytes member _ => ⟨_, accepted, [0], (List.mem_singleton.mp member).symm⟩
  · rw [chunks, List.map_singleton, leading]
    decide
  · have whole := whole_of_sound sound _ (by rw [chunks]; exact List.mem_singleton_self _)
    rw [RecordFormat.Whole, RecordFormat.remainder_cons record, RecordFormat.remainder_of_none none]
      at whole
    cases whole

end LocalPC.Runtime
