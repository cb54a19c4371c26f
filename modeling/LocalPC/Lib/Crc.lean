import Mathlib.Logic.Function.Iterate
import Mathlib.Tactic.TypeStar

namespace LocalPC.Lib.Crc

variable {w : Nat} (p : BitVec w)

def bitStep (x : BitVec w) : BitVec w := if x.getLsbD 0 then p ^^^ (x >>> 1) else x >>> 1

theorem bitStep_xor (x y : BitVec w) : bitStep p (x ^^^ y) = bitStep p x ^^^ bitStep p y := by
  have swap (a b : BitVec w) : p ^^^ (a ^^^ b) = a ^^^ (p ^^^ b) := by
    rw [← BitVec.xor_assoc, BitVec.xor_comm p a, BitVec.xor_assoc]
  unfold bitStep
  rw [BitVec.getLsbD_xor, BitVec.ushiftRight_xor_distrib]
  cases x.getLsbD 0 <;> cases y.getLsbD 0
  · rfl
  · exact swap _ _
  · exact (BitVec.xor_assoc ..).symm
  · show (x >>> 1) ^^^ (y >>> 1) = (p ^^^ (x >>> 1)) ^^^ (p ^^^ (y >>> 1))
    rw [BitVec.xor_comm p (x >>> 1), BitVec.xor_assoc, ← BitVec.xor_assoc p p,
      BitVec.xor_self, BitVec.zero_xor]

theorem iterate_xor (n : Nat) (x y : BitVec w) :
    (bitStep p)^[n] (x ^^^ y) = (bitStep p)^[n] x ^^^ (bitStep p)^[n] y := by
  induction n generalizing x y with
  | zero => rfl
  | succ n ih =>
      rw [Function.iterate_succ_apply, bitStep_xor, ih, ← Function.iterate_succ_apply,
        ← Function.iterate_succ_apply]

theorem iterate_of_zeros (n : Nat) {x : BitVec w} (zeros : ∀ i < n, x.getLsbD i = false) :
    (bitStep p)^[n] x = x >>> n := by
  induction n generalizing x with
  | zero => simp
  | succ n ih =>
      have first : bitStep p x = x >>> 1 := by
        rw [bitStep, zeros 0 (Nat.succ_pos n)]
        rfl
      have rest : ∀ i < n, (x >>> 1).getLsbD i = false := by
        intro i small
        rw [BitVec.getLsbD_ushiftRight, Nat.add_comm]
        exact zeros (i + 1) (by omega)
      rw [Function.iterate_succ_apply, first, ih rest, ← BitVec.shiftRight_add, Nat.add_comm]

theorem iterate_split (n : Nat) (x low : BitVec w) (same : ∀ i < n, low.getLsbD i = x.getLsbD i)
    (empty : ∀ i, n ≤ i → low.getLsbD i = false) :
    (bitStep p)^[n] x = (bitStep p)^[n] low ^^^ (x >>> n) := by
  have high : (bitStep p)^[n] (low ^^^ x) = (low ^^^ x) >>> n := by
    refine iterate_of_zeros p n fun i small => ?_
    rw [BitVec.getLsbD_xor, same i small, Bool.xor_self]
  have shifted : (low ^^^ x) >>> n = x >>> n := by
    refine BitVec.eq_of_getLsbD_eq fun i _ => ?_
    rw [BitVec.getLsbD_ushiftRight, BitVec.getLsbD_ushiftRight, BitVec.getLsbD_xor,
      empty (n + i) (Nat.le_add_right ..), Bool.false_xor]
  have split : x = low ^^^ (low ^^^ x) := by
    rw [← BitVec.xor_assoc, BitVec.xor_self, BitVec.zero_xor]
  calc (bitStep p)^[n] x = (bitStep p)^[n] (low ^^^ (low ^^^ x)) := congrArg _ split
    _ = (bitStep p)^[n] low ^^^ (bitStep p)^[n] (low ^^^ x) := iterate_xor ..
    _ = (bitStep p)^[n] low ^^^ (x >>> n) := by rw [high, shifted]

theorem low_bit (v : UInt32) :
    (v &&& 1).toBitVec = if v.toBitVec.getLsbD 0 then 1#32 else 0#32 := by
  show v.toBitVec &&& 1#32 = _
  rw [BitVec.and_one_eq_setWidth_ofBool_getLsbD]
  cases v.toBitVec.getLsbD 0 <;> rfl

@[simp] theorem bitStep_zero : bitStep p 0#w = 0#w := by
  simp [bitStep]

theorem bitStep_eq_zero (top : p.getLsbD (w - 1) = true) {x : BitVec w}
    (zero : bitStep p x = 0#w) : x = 0#w := by
  unfold bitStep at zero
  cases low : x.getLsbD 0 with
  | true =>
      rw [low, if_pos rfl] at zero
      have last := congrArg (BitVec.getLsbD · (w - 1)) zero
      have out : x.getLsbD (1 + (w - 1)) = false := BitVec.getLsbD_of_ge x _ (by omega)
      simp [BitVec.getLsbD_ushiftRight, top, out] at last
  | false =>
      rw [low, if_neg Bool.false_ne_true] at zero
      refine BitVec.eq_of_getLsbD_eq fun i _ => ?_
      cases i with
      | zero => simpa using low
      | succ i =>
          have bit := congrArg (BitVec.getLsbD · i) zero
          rw [BitVec.getLsbD_ushiftRight, Nat.add_comm] at bit
          simpa using bit

theorem iterate_eq_zero (top : p.getLsbD (w - 1) = true) (n : Nat) {x : BitVec w}
    (zero : (bitStep p)^[n] x = 0#w) : x = 0#w := by
  induction n generalizing x with
  | zero => exact zero
  | succ n ih => exact bitStep_eq_zero p top (ih zero)

def feed (x : BitVec w) (bit : Bool) : BitVec w := bitStep p (x ^^^ if bit then 1#w else 0#w)

def word : List Bool → BitVec w
  | [] => 0#w
  | bit :: bits => (if bit then 1#w else 0#w) ^^^ (word bits <<< 1)

theorem getLsbD_word {bits : List Bool} (fits : bits.length ≤ w) (i : Nat) :
    (word bits : BitVec w).getLsbD i = bits.getD i false := by
  induction bits generalizing i with
  | nil => simp [word]
  | cons bit bits ih =>
      have room : bits.length < w := fits
      rw [word, BitVec.getLsbD_xor, BitVec.getLsbD_shiftLeft]
      cases i with
      | zero => cases bit <;> simp [show 0 < w by omega]
      | succ i =>
          have high : (if bit then 1#w else 0#w).getLsbD (i + 1) = false := by
            cases bit <;> simp
          have later := ih (by omega) i
          rw [high, Nat.add_sub_cancel, later, List.getD_cons_succ]
          by_cases inside : i + 1 < w
          · simp [inside]
          · rw [List.getD_eq_getElem?_getD, List.getElem?_eq_none (by omega)]
            simp

theorem foldl_feed {bits : List Bool} (fits : bits.length ≤ w) (x : BitVec w) :
    bits.foldl (feed p) x = (bitStep p)^[bits.length] (x ^^^ word bits) := by
  induction bits generalizing x with
  | nil => simp [word]
  | cons bit bits ih =>
      have room : bits.length < w := fits
      have later : bitStep p (word bits <<< 1) = word bits := by
        have low : (word bits <<< 1 : BitVec w).getLsbD 0 = false := by simp
        rw [bitStep, low, if_neg Bool.false_ne_true]
        refine BitVec.eq_of_getLsbD_eq fun i _ => ?_
        rw [BitVec.getLsbD_ushiftRight, BitVec.getLsbD_shiftLeft, Nat.add_sub_cancel_left]
        by_cases inside : 1 + i < w
        · simp [inside]
        · rw [getLsbD_word (by omega), List.getD_eq_getElem?_getD, List.getElem?_eq_none (by omega)]
          simp
      rw [List.foldl_cons, ih (by omega), List.length_cons, Function.iterate_succ_apply, feed,
        word, ← BitVec.xor_assoc, bitStep_xor p _ (word bits <<< 1), later]

theorem feed_xor (x y : BitVec w) (a b : Bool) :
    feed p (x ^^^ y) (a ^^ b) = feed p x a ^^^ feed p y b := by
  have bit : (if (a ^^ b) then 1#w else 0#w) =
      (if a then 1#w else 0#w) ^^^ (if b then 1#w else 0#w) := by
    cases a <;> cases b <;> simp
  unfold feed
  rw [bit, ← bitStep_xor]
  congr 1
  ac_rfl

theorem foldl_feed_xor {bits errors : List Bool}
    (same : errors.length = bits.length) (x y : BitVec w) :
    (List.zipWith xor bits errors).foldl (feed p) (x ^^^ y) =
      bits.foldl (feed p) x ^^^ errors.foldl (feed p) y := by
  induction bits generalizing errors x y with
  | nil =>
      cases List.length_eq_zero_iff.mp same
      rfl
  | cons bit bits ih =>
      cases errors with
      | nil => cases same
      | cons error errors =>
          rw [List.zipWith_cons_cons, List.foldl_cons, feed_xor, ih (Nat.succ.inj same),
            List.foldl_cons, List.foldl_cons]

theorem foldl_feed_zeros (n : Nat) (x : BitVec w) :
    (List.replicate n false).foldl (feed p) x = (bitStep p)^[n] x := by
  induction n generalizing x with
  | zero => rfl
  | succ n ih =>
      rw [List.replicate_succ, List.foldl_cons, ih, Function.iterate_succ_apply, feed,
        if_neg Bool.false_ne_true, BitVec.xor_zero]

theorem foldl_feed_burst (top : p.getLsbD (w - 1) = true) {errors : List Bool}
    (some_ : true ∈ errors) {start : Nat}
    (burst : ∀ i : Nat, errors[i]? = some true → start ≤ i ∧ i < start + w) :
    errors.foldl (feed p) 0#w ≠ 0#w := by
  have zeros (part : List Bool) (none : true ∉ part) : part = List.replicate part.length false :=
    List.eq_replicate_iff.mpr ⟨rfl, fun bit member => by
      cases bit with
      | true => exact absurd member none
      | false => rfl⟩
  let window := (errors.drop start).take w
  have split : errors = errors.take start ++ window ++ (errors.drop start).drop w := by
    rw [List.append_assoc, List.take_append_drop, List.take_append_drop]
  have front : errors.take start = List.replicate (errors.take start).length false := by
    refine zeros _ fun member => ?_
    obtain ⟨i, found⟩ := List.mem_iff_getElem?.mp member
    rw [List.getElem?_take] at found
    split at found
    · have := (burst i found).1
      omega
    · cases found
  have back : (errors.drop start).drop w =
      List.replicate ((errors.drop start).drop w).length false := by
    refine zeros _ fun member => ?_
    obtain ⟨i, found⟩ := List.mem_iff_getElem?.mp member
    rw [List.getElem?_drop, List.getElem?_drop] at found
    have := (burst _ found).2
    omega
  intro zero
  rw [split, front, back, List.foldl_append, List.foldl_append, foldl_feed_zeros, foldl_feed_zeros]
    at zero
  have start_ : (bitStep p)^[(errors.take start).length] 0#w = 0#w :=
    Function.iterate_fixed (bitStep_zero p) _
  have fits : window.length ≤ w := by
    rw [List.length_take]
    exact Nat.min_le_left ..
  rw [start_] at zero
  have none := iterate_eq_zero p top _ zero
  rw [foldl_feed p fits, BitVec.zero_xor] at none
  have empty := iterate_eq_zero p top _ none
  have inWindow : true ∉ window := by
    intro member
    obtain ⟨i, found⟩ := List.mem_iff_getElem?.mp member
    have bit := getLsbD_word fits i
    rw [empty, List.getD_eq_getElem?_getD, found] at bit
    simp at bit
  rw [split, front, back] at some_
  simp [inWindow] at some_

end LocalPC.Lib.Crc
