import Mathlib.Data.List.Basic
import Mathlib.Logic.Function.Basic
import Mathlib.Tactic.TypeStar

/-!
# Files behind buffered streams

A program works on files through streams that keep what is written to them until they are flushed or
closed. When it is killed, the last bytes of a file may be missing, but none of those that a flush has
handed over. Operations are lists, so that a program can be killed behind any of them.
-/

namespace LocalPC.Lib

inductive FileOp (ν β : Type*)
  | create (name : ν)
  | touch (name : ν)
  | append (name : ν) (data : List β)
  | sync (name : ν)
  | remove (name : ν)
  | rename (source target : ν)

structure BufferedFile (β : Type*) where
  data : List β := []
  synced : Nat := 0

def BufferedFile.Kept {β : Type*} (file : BufferedFile β) : Prop := file.data.length ≤ file.synced

abbrev FileSystem (ν β : Type*) := ν → Option (BufferedFile β)

section Ops
variable {ν β : Type*}

section Apply
variable [DecidableEq ν]

def FileOp.apply (fs : FileSystem ν β) : FileOp ν β → FileSystem ν β
  | create name => Function.update fs name (some {})
  | touch name => Function.update fs name (some ((fs name).getD {}))
  | append name data =>
      let file := (fs name).getD {}
      Function.update fs name (some { file with data := file.data ++ data })
  | sync name =>
      Function.update fs name ((fs name).map fun file => { file with synced := file.data.length })
  | remove name => Function.update fs name none
  | rename source target =>
      if (fs source).isSome then Function.update (Function.update fs source none) target (fs source)
      else fs

def FileOp.target : FileOp ν β → Option ν
  | create name | touch name | append name _ | sync name | remove name => some name
  | rename .. => none

theorem FileOp.apply_other {fs : FileSystem ν β} (op : FileOp ν β) {name other : ν}
    (changes : op.target = some name) (ne : other ≠ name) : op.apply fs other = fs other := by
  cases op <;> cases changes <;> exact Function.update_of_ne ne ..

def runOps (ops : List (FileOp ν β)) (fs : FileSystem ν β) : FileSystem ν β :=
  ops.foldl FileOp.apply fs

theorem runOps_append (first second : List (FileOp ν β)) (fs : FileSystem ν β) :
    runOps (first ++ second) fs = runOps second (runOps first fs) := List.foldl_append ..

end Apply

/-! ## Killed programs -/

/-- What the files may hold after the program has been killed. -/
def Leaves (fs : FileSystem ν β) (left : ν → Option (List β)) : Prop :=
  ∀ name, Option.Rel
    (fun file data => ∃ n, file.synced ≤ n ∧ data = file.data.take n) (fs name) (left name)

namespace Leaves
variable {fs : FileSystem ν β} {left : ν → Option (List β)} {name : ν} {file : BufferedFile β}

theorem none (leaves : Leaves fs left) (gone : fs name = .none) : left name = .none := by
  have rel := leaves name
  rw [gone] at rel
  generalize left name = content at rel
  cases rel
  rfl

theorem cut (leaves : Leaves fs left) (found : fs name = some file) :
    ∃ n, file.synced ≤ n ∧ left name = some (file.data.take n) := by
  have rel := leaves name
  rw [found] at rel
  generalize left name = content at rel
  cases rel with
  | some cut =>
      obtain ⟨n, bound, rfl⟩ := cut
      exact ⟨n, bound, rfl⟩

theorem kept (leaves : Leaves fs left) (found : fs name = some file) (kept : file.Kept) :
    left name = some file.data := by
  obtain ⟨n, bound, rest⟩ := leaves.cut found
  rw [rest, List.take_of_length_le (Nat.le_trans kept bound)]

end Leaves

variable [DecidableEq ν]

def Throughout (P : FileSystem ν β → Prop) (ops : List (FileOp ν β)) (fs : FileSystem ν β) : Prop :=
  ∀ k, P (runOps (ops.take k) fs)

namespace Throughout
variable {P : FileSystem ν β → Prop} {fs : FileSystem ν β}

theorem nil (here : P fs) : Throughout P [] fs := fun k => by rwa [List.take_nil]

theorem cons {op : FileOp ν β} {ops : List (FileOp ν β)} (here : P fs)
    (later : Throughout P ops (op.apply fs)) :
    Throughout P (op :: ops) fs := by
  intro k
  cases k with
  | zero => exact here
  | succ k => exact later k

theorem append {first second : List (FileOp ν β)} (before : Throughout P first fs)
    (after : Throughout P second (runOps first fs)) : Throughout P (first ++ second) fs := by
  intro k
  rw [List.take_append, runOps_append]
  rcases Nat.lt_or_ge k first.length with early | late
  · rw [Nat.sub_eq_zero_of_le (Nat.le_of_lt early), List.take_zero]
    exact before k
  · rw [List.take_of_length_le late]
    exact after _

theorem mono {Q : FileSystem ν β → Prop} {ops : List (FileOp ν β)} (through : Throughout P ops fs)
    (weaker : ∀ fs, P fs → Q fs) : Throughout Q ops fs := fun k => weaker _ (through k)

end Throughout

/-! ## Replacing a file by a new version -/

def replaceOps (temporary path : ν) (data : List β) : List (FileOp ν β) :=
  [.create temporary, .append temporary data, .sync temporary, .remove path, .rename temporary path]

inductive Replacing (temporary path : ν) (data : List β) (before fs : FileSystem ν β) : Prop
  | old (same : fs path = before path)
  | between (gone : fs path = none) {file : BufferedFile β} (found : fs temporary = some file)
      (whole : file.data = data) (kept : file.Kept)
  | new {file : BufferedFile β} (found : fs path = some file)
      (whole : file.data = data) (kept : file.Kept)

variable {temporary path : ν}

theorem replacing_throughout (data : List β) (fs : FileSystem ν β) (differ : temporary ≠ path) :
    Throughout (Replacing temporary path data fs) (replaceOps temporary path data) fs := by
  let created : FileSystem ν β := Function.update fs temporary (some {})
  let written : FileSystem ν β := Function.update created temporary (some ⟨data, 0⟩)
  let synced : FileSystem ν β := Function.update written temporary (some ⟨data, data.length⟩)
  let removed : FileSystem ν β := Function.update synced path none
  have write : (FileOp.append temporary data).apply created = written := by
    simp [FileOp.apply, created, written]
  have flush : (FileOp.sync temporary).apply written = synced := by
    simp [FileOp.apply, written, synced]
  have there : removed temporary = some ⟨data, data.length⟩ := by
    simp [removed, synced, Function.update_of_ne differ]
  have rename : (FileOp.rename temporary path).apply removed =
      Function.update (Function.update removed temporary none) path (some ⟨data, data.length⟩) := by
    simp [FileOp.apply, there]
  have other (fs' : FileSystem ν β) (content : Option (BufferedFile β)) :
      Function.update fs' temporary content path = fs' path := Function.update_of_ne differ.symm ..
  refine .cons (.old rfl) (.cons (.old (other _ _)) ?_)
  rw [show (FileOp.create temporary).apply fs = created from rfl, write]
  refine .cons (.old ((other _ _).trans (other _ _))) ?_
  rw [flush]
  refine .cons (.old ((other _ _).trans ((other _ _).trans (other _ _)))) ?_
  refine .cons (.between (Function.update_self ..) there rfl (Nat.le_refl _)) ?_
  rw [show (FileOp.remove path).apply synced = removed from rfl, rename]
  exact .nil (.new (Function.update_self ..) rfl (Nat.le_refl _))

theorem others_throughout (data : List β) (fs : FileSystem ν β) {other : ν}
    (notTemporary : other ≠ temporary) (notPath : other ≠ path) :
    Throughout (fun fs' => fs' other = fs other) (replaceOps temporary path data) fs := by
  have step (fs' : FileSystem ν β) (op : FileOp ν β) (here : fs' other = fs other)
      (changes : op.target = some temporary ∨ op.target = some path) : op.apply fs' other =
        fs other := by
    rcases changes with changes | changes
    · exact (FileOp.apply_other op changes notTemporary).trans here
    · exact (FileOp.apply_other op changes notPath).trans here
  have last {fs' : FileSystem ν β} (here : fs' other = fs other) :
      (FileOp.rename temporary path).apply fs' other = fs other := by
    simp only [FileOp.apply]
    split
    · rw [Function.update_of_ne notPath, Function.update_of_ne notTemporary, here]
    · exact here
  have created := step fs (.create temporary) rfl (.inl rfl)
  have written := step _ (.append temporary data) created (.inl rfl)
  have synced := step _ (.sync temporary) written (.inl rfl)
  have removed := step _ (.remove path) synced (.inr rfl)
  exact .cons rfl
    (.cons created (.cons written (.cons synced (.cons removed (.nil (last removed))))))

theorem runOps_replaceOps (data : List β) (fs : FileSystem ν β) (differ : temporary ≠ path) :
    runOps (replaceOps temporary path data) fs =
      Function.update (Function.update fs temporary none) path (some ⟨data, data.length⟩) := by
  funext name
  by_cases here : name = path
  · subst here
    simp [runOps, replaceOps, FileOp.apply, Function.update_of_ne differ]
  · by_cases tmp : name = temporary
    · subst tmp
      simp [runOps, replaceOps, FileOp.apply, here]
    · simp [runOps, replaceOps, FileOp.apply, Function.update_of_ne differ, here, tmp]

end Ops
end LocalPC.Lib
