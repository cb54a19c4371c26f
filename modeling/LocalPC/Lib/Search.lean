import Mathlib.Data.List.Infix

namespace LocalPC.Lib
variable {α : Type*} [DecidableEq α]

def findText (needle : List α) : List α → Option Nat
  | [] => if needle = [] then some 0 else none
  | c :: text => if needle <+: c :: text then some 0 else (findText needle text).map (· + 1)

/-- `rfind(needle)`: the last position at which the needle starts. -/
def rfindText (needle : List α) : List α → Option Nat
  | [] => if needle = [] then some 0 else none
  | c :: text =>
      match rfindText needle text with
      | some pos => some (pos + 1)
      | none => if needle <+: c :: text then some 0 else none

def StartsNot (needle : List α) : List α → List α → Prop
  | [], _ => True
  | c :: front, rest => ¬ needle <+: c :: (front ++ rest) ∧ StartsNot needle front rest

variable {needle front back rest : List α}

theorem findText_of_prefix (starts : needle <+: rest) : findText needle rest = some 0 := by
  cases rest with
  | nil => rw [findText, if_pos (List.prefix_nil.mp starts)]
  | cons c rest => rw [findText, if_pos starts]

theorem findText_append (absent : StartsNot needle front rest) :
    findText needle (front ++ rest) = (findText needle rest).map (· + front.length) := by
  induction front with
  | nil => simp
  | cons c front ih =>
      rw [List.cons_append, findText, if_neg absent.1, ih absent.2, Option.map_map]
      rfl

omit [DecidableEq α] in
theorem StartsNot.append (first : StartsNot needle front (back ++ rest))
    (second : StartsNot needle back rest) :
    StartsNot needle (front ++ back) rest := by
  induction front with
  | nil => exact second
  | cons c front ih =>
      have whole : (front ++ back) ++ rest = front ++ (back ++ rest) := List.append_assoc ..
      exact ⟨fun starts => first.1 (whole ▸ starts), ih first.2⟩

omit [DecidableEq α] in
theorem startsNot_of_not_mem {head : α} {tail : List α} (absent : head ∉ front) (rest : List α) :
    StartsNot (head :: tail) front rest := by
  induction front with
  | nil => trivial
  | cons c front ih =>
      obtain ⟨other, behind⟩ := not_or.mp (List.mem_cons.not.mp absent)
      exact ⟨fun starts => other (List.cons_prefix_cons.mp starts).1, ih behind⟩

end LocalPC.Lib
