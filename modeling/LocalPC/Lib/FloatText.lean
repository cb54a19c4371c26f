import Mathlib.Data.Nat.Log
import LocalPC.Lib.Text

/-!
# Doubles as decimal text

Default stream output of a double (`%.*g`) and `std::stod`. Both round correctly: the printed
digits are the exact value rounded half to even, and a text is read as the nearest double.
-/

namespace LocalPC.Lib

def minus : UInt8 := 45
def plus : UInt8 := 43
def dot : UInt8 := 46
def lowerE : UInt8 := 101
def upperE : UInt8 := 69

/-! ## The shape of a decimal text -/

/-- `-123.456e+07`; an empty fraction or exponent is left out together with its sign. -/
structure DecimalText where
  negative : Bool
  whole : Bytes
  fraction : Bytes
  exponent : Bytes
  exponentNegative : Bool

namespace DecimalText

def fractionBytes (t : DecimalText) : Bytes := if t.fraction = [] then [] else dot :: t.fraction

def exponentBytes (t : DecimalText) : Bytes :=
  if t.exponent = [] then []
  else lowerE :: (if t.exponentNegative then minus else plus) :: t.exponent

def bytes (t : DecimalText) : Bytes :=
  (if t.negative then [minus] else []) ++ t.whole ++ t.fractionBytes ++ t.exponentBytes

structure WellFormed (t : DecimalText) : Prop where
  whole_ne_nil : t.whole ≠ []
  whole : ∀ c ∈ t.whole, isDigit c = true
  fraction : ∀ c ∈ t.fraction, isDigit c = true
  exponent : ∀ c ∈ t.exponent, isDigit c = true

end DecimalText

/-! ## Output -/

def floatParts (v : Float) : Bool × Nat × Nat :=
  let bits := v.toBits.toNat
  let biased := bits / 2 ^ 52 % 2 ^ 11
  let significand := if biased = 0 then bits % 2 ^ 52 else bits % 2 ^ 52 + 2 ^ 52
  let scale := if biased = 0 then 1 else biased
  -- the value is `significand * 2 ^ (scale - 1075)`
  (bits / 2 ^ 63 = 1, significand * 2 ^ (scale - 1075), 2 ^ (1075 - scale))

def roundHalfEven (n d : Nat) : Nat :=
  if 2 * (n % d) > d ∨ (2 * (n % d) = d ∧ n / d % 2 = 1) then n / d + 1 else n / d

def decimalExponent (n d : Nat) : Int :=
  if d ≤ n then Nat.log 10 (n / d) else -(Nat.clog 10 ((d + n - 1) / n) : Int)

/-- A positive fraction rounded to `precision` digits: the digits as a number, and the exponent of
the first one. -/
def significantDigits (precision n d : Nat) : Nat × Int :=
  let x := decimalExponent n d
  let shift : Int := precision - 1 - x
  let digits := roundHalfEven (n * 10 ^ shift.toNat) (d * 10 ^ (-shift).toNat)
  if digits = 10 ^ precision then (10 ^ (precision - 1), x + 1) else (digits, x)

def stripZeros (digits : Bytes) : Bytes := (digits.reverse.dropWhile (· = 48)).reverse

def exponentDigits (x : Nat) : Bytes := if x < 10 then 48 :: decimal x else decimal x

/-- `oss.precision(precision); oss << std::defaultfloat << v`, for a finite `v`. -/
def defaultfloat (precision : Nat) (v : Float) : DecimalText :=
  let precision := max precision 1
  let (negative, n, d) := floatParts v
  if n = 0 then ⟨negative, [48], [], [], false⟩
  else
    let (number, x) := significantDigits precision n d
    let digits := decimal number
    if x < -4 ∨ precision ≤ x then
      ⟨negative, digits.take 1, stripZeros (digits.drop 1), exponentDigits x.natAbs, x < 0⟩
    else if 0 ≤ x then
      ⟨negative, digits.take (x.toNat + 1), stripZeros (digits.drop (x.toNat + 1)), [], false⟩
    else ⟨negative, [48], stripZeros (List.replicate ((-x).toNat - 1) 48 ++ digits), [], false⟩

theorem take_decimal_ne_nil (n k : Nat) : (decimal n).take (k + 1) ≠ [] := by
  cases text : decimal n with
  | nil => exact absurd text (decimal_ne_nil n)
  | cons c rest => simp

theorem isDigit_of_mem_stripZeros {digits : Bytes} (all : ∀ c ∈ digits, isDigit c = true) :
    ∀ c ∈ stripZeros digits, isDigit c = true := by
  intro c member
  have kept := List.dropWhile_subset _ (List.mem_reverse.mp member)
  exact all c (List.mem_reverse.mp kept)

theorem isDigit_of_mem_exponentDigits (x : Nat) : ∀ c ∈ exponentDigits x, isDigit c = true := by
  intro c member
  unfold exponentDigits at member
  split at member
  · rcases List.mem_cons.mp member with rfl | member
    · rfl
    · exact isDigit_of_mem_decimal c member
  · exact isDigit_of_mem_decimal c member

theorem defaultfloat_wellFormed (precision : Nat) (v : Float) :
    (defaultfloat precision v).WellFormed := by
  have zero : ∀ c ∈ ([48] : Bytes), isDigit c = true := by
    intro c member
    rw [List.mem_singleton.mp member]
    rfl
  have none : ∀ c ∈ ([] : Bytes), isDigit c = true := nofun
  unfold defaultfloat
  dsimp only
  generalize significantDigits (max precision 1) (floatParts v).2.1 (floatParts v).2.2 = rounded
  have digits := isDigit_of_mem_decimal (n := rounded.1)
  have taken (k : Nat) : ∀ c ∈ (decimal rounded.1).take k, isDigit c = true :=
    fun c member => digits c (List.mem_of_mem_take member)
  have dropped (k : Nat) : ∀ c ∈ stripZeros ((decimal rounded.1).drop k), isDigit c = true :=
    isDigit_of_mem_stripZeros fun c member => digits c (List.mem_of_mem_drop member)
  split
  · exact ⟨by simp, zero, none, none⟩
  split
  · exact ⟨take_decimal_ne_nil _ 0, taken 1, dropped 1, isDigit_of_mem_exponentDigits _⟩
  split
  · exact ⟨take_decimal_ne_nil _ _, taken _, dropped _, none⟩
  · refine ⟨by simp, zero, isDigit_of_mem_stripZeros ?_, none⟩
    intro c member
    rcases List.mem_append.mp member with member | member
    · rw [List.eq_of_mem_replicate member]
      rfl
    · exact digits c member

/-! ## Input -/

def leadingExponent (text : Bytes) : Int :=
  if text.head? = some lowerE ∨ text.head? = some upperE then
    let signed := text.tail
    let digits :=
      (if signed.head? = some minus ∨ signed.head? = some plus then signed.tail
        else signed).takeWhile isDigit
    if signed.head? = some minus then -(decimalValue digits : Int) else decimalValue digits
  else 0

/-- A result that overflows is a range error, and so is one that is below the normal doubles,
rounded to 53 bits, and not exact. -/
def inRange (m : Nat) (e : Int) (v : Float) : Except StdException Float :=
  let n := m * 10 ^ e.toNat
  let d := 10 ^ (-e).toNat
  let (_, n', d') := floatParts v
  if v.isInf ∨ (n * 2 ^ 1076 < (2 ^ 54 - 1) * d ∧ n * d' ≠ n' * d) then .error .outOfRange
  else .ok v

def stod (text : Bytes) : Except StdException Float :=
  let body := text.dropWhile isSpace
  let negative := body.head? = some minus
  let unsigned := if body.head? = some minus ∨ body.head? = some plus then body.tail else body
  let whole := unsigned.takeWhile isDigit
  let behind := unsigned.dropWhile isDigit
  let fraction := if behind.head? = some dot then behind.tail.takeWhile isDigit else []
  let rest := if behind.head? = some dot then behind.tail.dropWhile isDigit else behind
  if whole ++ fraction = [] then .error .invalidArgument
  else
    let m := decimalValue (whole ++ fraction)
    let e := leadingExponent rest - fraction.length
    let magnitude := Float.ofScientific m (e < 0) e.natAbs
    inRange m e (if negative then -magnitude else magnitude)

end LocalPC.Lib
