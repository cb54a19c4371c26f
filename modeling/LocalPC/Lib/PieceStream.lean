import Mathlib.Data.List.Basic
import Mathlib.Data.List.Flatten

namespace LocalPC.Lib

/-- A way to cut `sent` into pieces, none of which is empty. -/
structure Pieces {α : Type*} (sent : List α) where
  pieces : List (List α)
  whole : pieces.flatten = sent
  nonempty : [] ∉ pieces

theorem Pieces.exists {α : Type*} (sent : List α) : Nonempty (Pieces sent) := by
  cases sent with
  | nil => exact ⟨[], rfl, List.not_mem_nil⟩
  | cons x xs => exact ⟨[x :: xs], by simp, by simp⟩

namespace PieceStream
variable {α : Type*}

def receive (want : Nat) : List (List α) → List α × List (List α)
  | [] => ([], [])
  | piece :: rest =>
      (piece.take want, if piece.length ≤ want then rest else piece.drop want :: rest)

def readExact (size : Nat) (pieces : List (List α)) : Option (List α) × List (List α) :=
  if _done : size = 0 then (some [], pieces)
  else
    match _got : receive size pieces with
    | ([], left) => (none, left)
    | (x :: xs, left) =>
        let later := readExact (size - (xs.length + 1)) left
        (later.1.map (x :: xs ++ ·), later.2)
termination_by size

theorem receive_split (want : Nat) (pieces : List (List α)) :
    (receive want pieces).1 ++ (receive want pieces).2.flatten = pieces.flatten ∧
    (receive want pieces).1.length ≤ want := by
  cases pieces with
  | nil => exact ⟨rfl, Nat.zero_le _⟩
  | cons piece rest =>
      constructor
      · by_cases fits : piece.length ≤ want
        · simp [receive, fits, List.take_of_length_le fits]
        · simp [receive, fits, ← List.append_assoc]
      · simp only [receive, List.length_take]
        exact Nat.min_le_left ..

theorem receive_nonempty {want : Nat} (asks : 0 < want) {pieces : List (List α)}
    (nonempty : [] ∉ pieces) :
    [] ∉ (receive want pieces).2 ∧ ((receive want pieces).1 = [] → pieces = []) := by
  cases pieces with
  | nil => simp [receive]
  | cons piece rest =>
      simp only [List.mem_cons, not_or] at nonempty
      obtain ⟨some_, others⟩ := nonempty
      refine ⟨?_, fun none => ?_⟩
      · by_cases fits : piece.length ≤ want
        · simpa [receive, fits] using others
        · simp only [receive, if_neg fits, List.mem_cons, not_or]
          refine ⟨fun empty => ?_, others⟩
          exact fits (List.drop_eq_nil_iff.mp empty.symm)
      · rw [receive, List.take_eq_nil_iff] at none
        rcases none with zero | empty
        · omega
        · exact absurd empty.symm some_

theorem readExact_spec (size : Nat) {pieces : List (List α)} (nonempty : [] ∉ pieces) :
    if size ≤ pieces.flatten.length then
      ∃ left, readExact size pieces = (some (pieces.flatten.take size), left) ∧
        left.flatten = pieces.flatten.drop size ∧ [] ∉ left
    else (readExact size pieces).1 = none := by
  induction size using Nat.strongRecOn generalizing pieces with
  | _ size ih =>
      by_cases zero : size = 0
      · subst zero
        rw [if_pos (Nat.zero_le _), readExact, dif_pos rfl]
        exact ⟨pieces, rfl, rfl, nonempty⟩
      · obtain ⟨split, short⟩ := receive_split size pieces
        obtain ⟨others, ending⟩ := receive_nonempty (Nat.pos_of_ne_zero zero) nonempty
        rw [readExact, dif_neg zero]
        generalize receive size pieces = got at split short others ending
        rcases got with ⟨_ | ⟨x, xs⟩, left⟩
        · dsimp only
          rw [if_neg]
          rw [ending rfl, List.flatten_nil, List.length_nil]
          omega
        · dsimp only at split short others ⊢
          rw [List.length_cons] at short
          have later := ih (size - (xs.length + 1)) (by omega) others
          have length := congrArg List.length split
          rw [List.length_append, List.length_cons] at length
          have first : (x :: xs).length ≤ size := short
          by_cases enough : size ≤ pieces.flatten.length
          · rw [if_pos (by omega)] at later
            obtain ⟨left, read, rest, clean⟩ := later
            rw [if_pos enough, read]
            refine ⟨left, ?_, ?_, clean⟩
            · rw [← split, List.take_append, List.take_of_length_le first]
              rfl
            · rw [rest, ← split, List.drop_append, List.drop_of_length_le first, List.nil_append]
              rfl
          · rw [if_neg (by omega)] at later
            rw [if_neg enough, later]
            rfl

theorem readExact_some {size : Nat} {pieces left : List (List α)} {out : List α}
    (read : readExact size pieces = (some out, left)) :
    out ++ left.flatten = pieces.flatten ∧ out.length = size := by
  induction size using Nat.strongRecOn generalizing pieces out with
  | _ size ih =>
      by_cases zero : size = 0
      · subst zero
        rw [readExact, dif_pos rfl] at read
        cases read
        exact ⟨rfl, rfl⟩
      · have split := receive_split size pieces
        rw [readExact, dif_neg zero] at read
        generalize receive size pieces = got at split read
        rcases got with ⟨_ | ⟨x, xs⟩, behind⟩
        · cases read
        · obtain ⟨later, rest⟩ := Prod.mk.inj read
          obtain ⟨out, found, rfl⟩ := Option.map_eq_some_iff.mp later
          have inner := ih (size - (xs.length + 1)) (by omega) (Prod.ext found rest)
          obtain ⟨split, short⟩ := split
          rw [List.length_cons] at short
          refine ⟨?_, ?_⟩
          · rw [List.append_assoc, inner.1]
            exact split
          · rw [List.length_append, List.length_cons, inner.2]
            omega

def readUntil (want : Nat) (stop : List α → Bool) (got : List α)
    (pieces : List (List α)) : List α :=
  match _more : receive want pieces with
  | ([], _) => got
  | (x :: xs, left) =>
      if stop (got ++ x :: xs) then got ++ x :: xs else readUntil want stop (got ++ x :: xs) left
termination_by pieces.flatten.length
decreasing_by
  have split := congrArg List.length (receive_split want pieces).1
  simp only [_more, List.length_append, List.length_cons] at split
  omega

theorem readUntil_eq {want : Nat} (asks : 0 < want) {stop : List α → Bool} {sent got : List α}
    {pieces : List (List α)} (nonempty : [] ∉ pieces) (whole : got ++ pieces.flatten = sent)
    (only : ∀ part, part <+: sent → stop part = true → part = sent) :
    readUntil want stop got pieces = sent := by
  induction size : pieces.flatten.length using Nat.strongRecOn generalizing got pieces with
  | _ size ih =>
      obtain ⟨split, -⟩ := receive_split want pieces
      obtain ⟨others, ending⟩ := receive_nonempty asks nonempty
      rw [readUntil]
      split
      · rename_i more
        rw [more] at ending
        rw [ending rfl, List.flatten_nil, List.append_nil] at whole
        exact whole
      · rename_i x xs left more
        simp only [more] at split others
        have rest : got ++ x :: xs ++ left.flatten = sent := by
          rw [List.append_assoc, split, whole]
        split
        · rename_i stops
          exact only _ ⟨left.flatten, rest⟩ stops
        · have length := congrArg List.length split
          rw [List.length_append, List.length_cons] at length
          exact ih left.flatten.length (by omega) others rest rfl

end PieceStream
end LocalPC.Lib
