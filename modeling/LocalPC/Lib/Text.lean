import Mathlib.Data.Nat.Digits.Defs
import Mathlib.Data.List.TakeWhile
import LocalPC.Lib.LittleEndian

namespace LocalPC.Lib

/-- The bytes of a literal whose characters are ASCII. -/
def ascii (s : String) : Bytes := s.toList.map Char.toUInt8

def newline : UInt8 := 10
def comma : UInt8 := 44

def isDigit (c : UInt8) : Bool := 48 ≤ c && c ≤ 57

def decimal (n : Nat) : Bytes :=
  if n = 0 then [48] else (Nat.digits 10 n).reverse.map fun d => UInt8.ofNat (48 + d)

def decimalValue (digits : Bytes) : Nat :=
  Nat.ofDigits 10 (digits.reverse.map fun c => c.toNat - 48)

theorem isDigit_iff (c : UInt8) : isDigit c = true ↔ 48 ≤ c.toNat ∧ c.toNat ≤ 57 := by
  simp [isDigit, UInt8.le_iff_toNat_le]

theorem isDigit_of_digit {d : Nat} (small : d < 10) : isDigit (UInt8.ofNat (48 + d)) = true := by
  rw [isDigit_iff, UInt8.toNat_ofNat']
  omega

theorem isDigit_of_mem_decimal {n : Nat} : ∀ c ∈ decimal n, isDigit c = true := by
  intro c member
  unfold decimal at member
  split at member
  · rw [List.mem_singleton.mp member]
    decide
  · obtain ⟨d, digit, rfl⟩ := List.mem_map.mp member
    exact isDigit_of_digit (Nat.digits_lt_base (by omega) (List.mem_reverse.mp digit))

theorem decimal_ne_nil (n : Nat) : decimal n ≠ [] := by
  unfold decimal
  split
  · simp
  · rename_i nonzero
    simpa [Nat.digits_ne_nil_iff_ne_zero] using nonzero

theorem decimalValue_decimal (n : Nat) : decimalValue (decimal n) = n := by
  unfold decimal decimalValue
  split
  · rename_i zero
    simp [zero]
  · have digits : ((Nat.digits 10 n).map fun d => (UInt8.ofNat (48 + d)).toNat - 48) =
        Nat.digits 10 n := by
      conv_rhs => rw [← List.map_id (Nat.digits 10 n)]
      apply List.map_congr_left
      intro d member
      have small := Nat.digits_lt_base (by omega) member
      rw [UInt8.toNat_ofNat', id]
      omega
    rw [← List.map_reverse, List.reverse_reverse, List.map_map, Function.comp_def, digits,
      Nat.ofDigits_digits]

theorem decimal_injective {a b : Nat} (same : decimal a = decimal b) : a = b := by
  rw [← decimalValue_decimal a, same, decimalValue_decimal]

/-- What a loop of `std::getline(in, part, delim)` reads: a last part without delimiter counts,
an empty one behind the last delimiter does not. -/
def getlines (delim : UInt8) : Bytes → List Bytes
  | [] => []
  | c :: rest =>
      if c = delim then [] :: getlines delim rest
      else
        match getlines delim rest with
        | [] => [[c]]
        | part :: parts => (c :: part) :: parts

@[simp] theorem getlines_nil (delim : UInt8) : getlines delim [] = [] := rfl

theorem getlines_ne_nil {delim : UInt8} {text : Bytes} (nonempty : text ≠ []) :
    getlines delim text ≠ [] := by
  cases text with
  | nil => contradiction
  | cons c rest =>
      rw [getlines]
      split
      · simp
      · split <;> simp

theorem getlines_line {delim : UInt8} {part : Bytes} (clean : delim ∉ part) (rest : Bytes) :
    getlines delim (part ++ delim :: rest) = part :: getlines delim rest := by
  induction part with
  | nil => simp [getlines]
  | cons c part ih =>
      have head : c ≠ delim := fun same => clean (by simp [same])
      have tail : delim ∉ part := fun member => clean (by simp [member])
      simp [getlines, head, ih tail]

theorem getlines_lines {delim : UInt8} {parts : List Bytes} (clean : ∀ part ∈ parts, delim ∉ part) :
    getlines delim (parts.flatMap fun part => part ++ [delim]) = parts := by
  induction parts with
  | nil => rfl
  | cons part parts ih =>
      rw [List.flatMap_cons, List.append_assoc, List.singleton_append,
        getlines_line (clean part (by simp)), ih (fun p member => clean p (by simp [member]))]

inductive StdException
  | invalidArgument
  | outOfRange
  deriving DecidableEq, Repr

def isSpace (c : UInt8) : Bool := c = 32 || (9 ≤ c && c ≤ 13)

/-- The number that `strtol` and its relatives find at the start: sign and magnitude. -/
def leadingNumber (text : Bytes) : Option (Bool × Nat) :=
  let body := text.dropWhile isSpace
  let negative := body.head? = some 45
  let unsigned := if body.head? = some 45 ∨ body.head? = some 43 then body.tail else body
  let digits := unsigned.takeWhile isDigit
  if digits = [] then none else some (negative, decimalValue digits)

def stoull (text : Bytes) : Except StdException UInt64 :=
  match leadingNumber text with
  | none => .error .invalidArgument
  | some (negative, n) =>
      if n < 2 ^ 64 then .ok (if negative then 0 - UInt64.ofNat n else UInt64.ofNat n)
      else .error .outOfRange

def stoul (text : Bytes) : Except StdException UInt64 := stoull text

def signedIn (bound : Nat) (text : Bytes) : Except StdException Int :=
  match leadingNumber text with
  | none => .error .invalidArgument
  | some (negative, n) =>
      let value : Int := if negative then -n else n
      if -(bound : Int) ≤ value ∧ value < bound then .ok value else .error .outOfRange

def stoll (text : Bytes) : Except StdException Int := signedIn (2 ^ 63) text
def stoi (text : Bytes) : Except StdException Int := signedIn (2 ^ 31) text

theorem leadingNumber_decimal (n : Nat) : leadingNumber (decimal n) = some (false, n) := by
  have digits := isDigit_of_mem_decimal (n := n)
  have value := decimalValue_decimal n
  cases text : decimal n with
  | nil => exact absurd text (decimal_ne_nil n)
  | cons c rest =>
      rw [text] at digits value
      have first := (isDigit_iff c).mp (digits c (by simp))
      have printed : isSpace c = false := by
        simp only [isSpace, Bool.or_eq_false_iff, Bool.and_eq_false_iff, decide_eq_false_iff_not,
          UInt8.le_iff_toNat_le, ← UInt8.toNat_inj, UInt8.reduceToNat]
        omega
      have unsigned : c ≠ 45 ∧ c ≠ 43 := by
        constructor <;> rintro rfl <;> simp at first
      have all : (c :: rest).takeWhile isDigit = c :: rest := List.takeWhile_eq_self_iff.mpr digits
      simp only [leadingNumber, List.dropWhile_cons, printed, Bool.false_eq_true, if_false,
        List.head?_cons, Option.some.injEq, unsigned.1, unsigned.2, or_self, all, reduceCtorEq,
        decide_false, value]

def slash : UInt8 := 47

def joinPath (base name : Bytes) : Bytes :=
  if name.head? = some slash ∨ base = [] then name
  else if base.getLast? = some slash then base ++ name
  else base ++ slash :: name

theorem joinPath_ne_nil {base : Bytes} (some_ : base ≠ []) (name : Bytes) :
    joinPath base name ≠ [] := by
  unfold joinPath
  split
  · rename_i absolute
    rintro rfl
    simp [some_] at absolute
  · split <;> simp [some_]

def hexDigit (n : Nat) : UInt8 := UInt8.ofNat (if n < 10 then 48 + n else 87 + n)

def hexBytes (bytes : Bytes) : Bytes :=
  bytes.flatMap fun b => [hexDigit (b.toNat / 16), hexDigit (b.toNat % 16)]

theorem hexDigit_injOn {a b : Nat} (small : a < 16) (small' : b < 16)
    (same : hexDigit a = hexDigit b) : a = b := by
  have values := congrArg UInt8.toNat same
  unfold hexDigit at values
  rw [UInt8.toNat_ofNat', UInt8.toNat_ofNat'] at values
  split at values <;> split at values <;> omega

theorem hexBytes_injective : Function.Injective hexBytes := by
  intro xs ys same
  induction xs generalizing ys with
  | nil =>
      cases ys with
      | nil => rfl
      | cons y ys => cases same
  | cons x xs ih =>
      cases ys with
      | nil => cases same
      | cons y ys =>
          obtain ⟨high, rest⟩ := List.cons.inj same
          obtain ⟨low, rest⟩ := List.cons.inj rest
          have boundX := x.toNat_lt
          have boundY := y.toNat_lt
          have highs := hexDigit_injOn (by omega) (by omega) high
          have lows := hexDigit_injOn (Nat.mod_lt _ (by decide)) (Nat.mod_lt _ (by decide)) low
          have byte : x = y := UInt8.toNat_inj.mp (by omega)
          rw [byte, ih rest]

end LocalPC.Lib
