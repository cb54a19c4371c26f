import LocalPC.Offline.ExportedTables
import LocalPC.Offline.Sha256Sidecar

namespace LocalPC.Offline
open Lib LocalPC.Runtime

def validateMdf4 (dir : Dir) (mdfPath : Bytes) (groups : List ChannelGroup) : Bool :=
  match dir.lookup mdfPath with
  | none => false
  | some file =>
      -- a read that comes to the end of the file leaves zeros in `magic`
      if (file ++ zeros 8).take 8 ≠ ascii "MDF     " then false
      else if file.length < 128 then false
      else groups.all fun g => !(!g.channels.isEmpty && g.timeAxisS.isEmpty)

/-- What `validate` returns, and the directory behind it. -/
def Mdf4Writer.validate (dir : Dir) (mdfPath : Bytes) (groups : List PreparedGroup) : Bool × Dir :=
  if validateMdf4 dir mdfPath (groups.map PreparedGroup.toChannelGroup) then
    (true, (writeSha256Sidecar dir mdfPath).getD dir)
  else (false, dir)

theorem take_fileBytes (bundle : SessionBundle) (t0Ns : Int)
    (stored : List StoredGroup) (rest : Bytes) :
    (fileBytes bundle t0Ns stored ++ rest).take 8 = ascii "MDF     " := by
  have id : idBlock = ascii "MDF     " ++ idBlock.drop 8 := by decide
  rw [fileBytes, id, List.append_assoc, List.append_assoc, List.append_assoc]
  exact List.take_left' rfl

theorem length_fileBytes_le (bundle : SessionBundle) (t0Ns : Int) (stored : List StoredGroup) :
    168 ≤ (fileBytes bundle t0Ns stored).length := by
  have head : (encodeBlocks (headBlocks (firstDg (groupsStart bundle) stored) bundle t0Ns)).length =
      104 + (encodeBlocks [fhBlock 224 t0Ns, mdBlock (commentXml bundle)]).length := by
    rw [headBlocks, encodeBlocks, List.flatMap_cons, List.length_append, length_hdBlock]
    rfl
  rw [fileBytes, List.length_append, List.length_append, length_idBlock, head]
  omega

theorem validateMdf4_built (dir : Dir) (path : Bytes) {groups : List ChannelGroup}
    {bundle : SessionBundle} {t0Ns : Int} {file : Bytes}
    (built : buildMdf4 groups bundle t0Ns = some file) :
    validateMdf4 (dir.insert path file) path groups = true ↔
      ∀ g ∈ groups, g.channels ≠ [] → g.timeAxisS ≠ [] := by
  rw [buildMdf4_eq] at built
  obtain ⟨stored, -, rfl⟩ := Option.map_eq_some_iff.mp built
  have long := length_fileBytes_le bundle t0Ns stored
  rw [validateMdf4, AList.lookup_insert]
  dsimp only
  rw [if_neg (not_not.mpr (take_fileBytes bundle t0Ns stored _)),
    if_neg (by omega), List.all_eq_true]
  refine forall₂_congr fun g _ => ?_
  cases g.channels <;> cases g.timeAxisS <;> simp

theorem Pipeline.live_prepareGroups {gridDtMs t0Ns : Int} {aligned : List AlignedSample}
    {groups : List PreparedGroup}
    (prepared : Pipeline.prepareGroups gridDtMs t0Ns aligned = .ok groups) :
    ∀ g ∈ groups.map PreparedGroup.toChannelGroup, g.live = true := by
  by_cases none : aligned = []
  · subst none
    cases prepared
    exact fun g member => absurd member List.not_mem_nil
  · rw [Pipeline.prepareGroups, Mdf4Writer.prepare_eq _ _ _ _ none] at prepared
    cases prepared
    rw [List.map_map]
    exact List.forall_mem_map.mpr (Mdf4Writer.live_groupFills _ _ _ _ none)

/-- The export of a run comes about and passes the check, whatever was measured, and the file beside
it has the checksum of the file with zeros behind its last whole block of 64 bytes. -/
theorem exported_validated (gridDtMs t0Ns : Int) (bundle : SessionBundle)
    (aligned : List AlignedSample) (dir : Dir) (path : Bytes) :
    ∃ groups file, Pipeline.prepareGroups gridDtMs t0Ns aligned = .ok groups ∧
      buildMdf4 (groups.map PreparedGroup.toChannelGroup) bundle t0Ns = some file ∧
        Mdf4Writer.validate (dir.insert path file) path groups =
          (true, (dir.insert path file).insert (path ++ ascii ".sha256")
            (hexBytes (Sha256.digest (Sha256Ctx.zeroTail file)) ++ ascii "  " ++
              path ++ [newline])) := by
  obtain ⟨groups, file, prepared, built, -⟩ := readMdf4_exported gridDtMs t0Ns bundle aligned
  have passes : validateMdf4 (dir.insert path file) path
      (groups.map PreparedGroup.toChannelGroup) = true := by
    refine (validateMdf4_built dir path built).mpr fun g member _ => ?_
    have live := Pipeline.live_prepareGroups prepared g member
    intro none
    rw [ChannelGroup.live, none] at live
    simp at live
  refine ⟨groups, file, prepared, built, ?_⟩
  rw [Mdf4Writer.validate, if_pos passes, writeSha256Sidecar_insert]
  rfl

end LocalPC.Offline
