import LocalPC.Offline.JsonRuns

namespace LocalPC.Offline
open Lib JsonParser

namespace Json

def prependText (s : Bytes) (later : Parsing (Bytes × Bytes)) : Parsing (Bytes × Bytes) :=
  later.map fun (out, rest) => (s ++ out, rest)

theorem appendChar_prependText (c : UInt8) (s : Bytes) (later : Parsing (Bytes × Bytes)) :
    appendChar c (prependText s later) = prependText (c :: s) later := by
  cases later <;> rfl

theorem stringBody_escape (c : UInt8) (t : Bytes) :
    stringBody (escape c ++ t) = appendChar c (stringBody t) := by
  unfold escape
  split_ifs with isQuote isBackslash isNewline isReturn isTab
  · subst isQuote
    exact stringBody_escaped _ _
  · subst isBackslash
    exact stringBody_escaped _ _
  · subst isNewline
    exact stringBody_escaped _ _
  · subst isReturn
    exact stringBody_escaped _ _
  · subst isTab
    exact stringBody_escaped _ _
  · exact stringBody_plain isQuote isBackslash t

theorem stringBody_content (s t : Bytes) :
    stringBody (s.flatMap escape ++ t) = prependText s (stringBody t) := by
  induction s with
  | nil =>
      rw [List.flatMap_nil, List.nil_append]
      cases stringBody t <;> rfl
  | cons c s ih =>
      rw [List.flatMap_cons, List.append_assoc, stringBody_escape, ih, appendChar_prependText]

theorem str_append (s t : Bytes) : str s ++ t = quote :: (s.flatMap escape ++ quote :: t) := by
  simp [str]

theorem parseString_str (s t : Bytes) : parseString (str s ++ t) = .ok (s, t) := by
  rw [str_append, parseString_quote, stringBody_content, stringBody_quote]
  simp [prependText, Except.map]

def isNumberChar (c : UInt8) : Bool :=
  isDigit c || c = dot || c = lowerE || c = upperE || c = plus || c = minus

def Stops (t : Bytes) : Prop := isNumberChar (peek t) = false

theorem Stops.not_digit {t : Bytes} (stops : Stops t) : isDigit (peek t) = false := by
  simp only [Stops, isNumberChar, Bool.or_eq_false_iff] at stops
  exact stops.1.1.1.1.1

theorem Stops.peek_ne {t : Bytes} {c : UInt8} (stops : Stops t) (number : isNumberChar c = true) :
    peek t ≠ c := by
  intro same
  rw [Stops, same, number] at stops
  cases stops

theorem skipDigits_append {digits t : Bytes} (all : ∀ c ∈ digits, isDigit c = true)
    (stop : isDigit (peek t) = false) : skipDigits (digits ++ t) = t := by
  have rest : t.dropWhile isDigit = t := by
    cases t with
    | nil => rfl
    | cons c t => exact List.dropWhile_cons_of_neg (by simpa [peek] using stop)
  rw [skipDigits, List.dropWhile_append_of_pos all, rest]

theorem skipIf_of_peek {found : UInt8 → Bool} {t : Bytes} (other : found (peek t) = false) :
    skipIf found t = t := by
  simp [skipIf, other]

theorem peek_append {front : Bytes} (nonempty : front ≠ []) (t : Bytes) :
    peek (front ++ t) = peek front := by
  cases front with
  | nil => contradiction
  | cons c front => rfl

theorem peek_digits {digits : Bytes} (nonempty : digits ≠ [])
    (all : ∀ c ∈ digits, isDigit c = true) :
    isDigit (peek digits) = true := by
  cases digits with
  | nil => contradiction
  | cons c digits => exact all c (by simp)

theorem digit_ne {c d : UInt8} (digit : isDigit c = true) (other : isDigit d = false) : c ≠ d := by
  rintro rfl
  rw [digit] at other
  cases other

variable {number : DecimalText} {t : Bytes}

theorem scanNumber_exponent (formed : number.WellFormed) (stops : Stops t) :
    (if peek (number.exponentBytes ++ t) = lowerE ∨ peek (number.exponentBytes ++ t) = upperE then
        (true, skipDigits
          (skipIf (fun c => c = plus || c = minus) (number.exponentBytes ++ t).tail))
      else (decide (number.fraction ≠ []), number.exponentBytes ++ t)) =
      (decide (number.fraction ≠ [] ∨ number.exponent ≠ []), t) := by
  unfold DecimalText.exponentBytes
  by_cases none : number.exponent = []
  · have notLower := stops.peek_ne (c := lowerE) rfl
    have notUpper := stops.peek_ne (c := upperE) rfl
    simp [none, notLower, notUpper]
  · have digits := skipDigits_append formed.exponent stops.not_digit
    have signed : skipIf (fun c => c = plus || c = minus)
        ((if number.exponentNegative then minus else plus) :: (number.exponent ++ t)) =
          number.exponent ++ t := by
      cases number.exponentNegative <;> rfl
    simp only [if_neg none, List.cons_append, List.tail_cons, signed, digits]
    simp [peek, none]

theorem exponentBytes_stop (number : DecimalText) (stops : Stops t) :
    isDigit (peek (number.exponentBytes ++ t)) = false ∧
      peek (number.exponentBytes ++ t) ≠ dot := by
  unfold DecimalText.exponentBytes
  split
  · exact ⟨stops.not_digit, stops.peek_ne rfl⟩
  · exact ⟨rfl, show lowerE ≠ dot by decide⟩

theorem scanNumber_bytes (formed : number.WellFormed) (stops : Stops t) :
    scanNumber (number.bytes ++ t) = (decide (number.fraction ≠ [] ∨ number.exponent ≠ []), t) := by
  obtain ⟨behindFraction, noDot⟩ := exponentBytes_stop number stops
  have wholeStop : isDigit
      (peek (number.fractionBytes ++ (number.exponentBytes ++ t))) = false := by
    unfold DecimalText.fractionBytes
    split
    · exact behindFraction
    · rfl
  have signed : skipIf (fun c => c = minus) (number.bytes ++ t) =
      number.whole ++ (number.fractionBytes ++ (number.exponentBytes ++ t)) := by
    have first := peek_digits formed.whole_ne_nil formed.whole
    unfold DecimalText.bytes
    cases number.negative with
    | true => simp [skipIf, peek]
    | false =>
        have plain : peek (number.whole ++ (number.fractionBytes ++ (number.exponentBytes ++ t))) ≠
            minus := by
          rw [peek_append formed.whole_ne_nil]
          exact digit_ne first rfl
        simp [skipIf, plain]
  have whole := skipDigits_append formed.whole wholeStop
  have hasDot : decide (peek (number.fractionBytes ++ (number.exponentBytes ++ t)) = dot) =
      decide (number.fraction ≠ []) := by
    unfold DecimalText.fractionBytes
    split
    next none => simp [none, noDot]
    next some => simp [some, peek]
  have fraction : skipDigits
      (skipIf (fun c => c = dot) (number.fractionBytes ++ (number.exponentBytes ++ t))) =
      number.exponentBytes ++ t := by
    unfold DecimalText.fractionBytes
    split
    · rw [List.nil_append, skipIf_of_peek (by simpa using noDot)]
      have none : ∀ c ∈ ([] : Bytes), isDigit c = true :=
        fun _ listed => absurd listed List.not_mem_nil
      exact skipDigits_append none behindFraction
    · exact skipDigits_append formed.fraction behindFraction
  unfold scanNumber
  dsimp only
  rw [signed, whole, hasDot, fraction]
  exact scanNumber_exponent formed stops

theorem parseNumber_bytes (formed : number.WellFormed) (stops : Stops t) :
    parseNumber (number.bytes ++ t) =
      match convert (decide (number.fraction ≠ [] ∨ number.exponent ≠ [])) number.bytes with
      | .ok v => .ok (v, t)
      | .error e => .error (.number e) := by
  have same : (number.bytes ++ t).take ((number.bytes ++ t).length - t.length) = number.bytes := by
    rw [List.length_append, Nat.add_sub_cancel, List.take_left]
  unfold parseNumber
  rw [scanNumber_bytes formed stops]
  dsimp only
  generalize (number.bytes ++ t).take ((number.bytes ++ t).length - t.length) = token at same ⊢
  subst same
  rfl

def integerText (v : Int) : DecimalText := ⟨v < 0, decimal v.natAbs, [], [], false⟩

theorem integerText_wellFormed (v : Int) : (integerText v).WellFormed :=
  ⟨decimal_ne_nil _, isDigit_of_mem_decimal, nofun, nofun⟩

theorem toString_eq (v : Int) : toString v = (integerText v).bytes := by
  unfold toString DecimalText.bytes
  split <;> simp [integerText, DecimalText.fractionBytes, DecimalText.exponentBytes, *]

theorem leadingNumber_minus (n : Nat) : leadingNumber (minus :: decimal n) = some (true, n) := by
  have all : (decimal n).takeWhile isDigit = decimal n :=
    List.takeWhile_eq_self_iff.mpr isDigit_of_mem_decimal
  have body : (minus :: decimal n).dropWhile isSpace = minus :: decimal n := rfl
  have sign : (minus :: decimal n).head? = some 45 := rfl
  unfold leadingNumber
  simp only [body, sign, true_or, if_true, List.tail_cons, all,
    decimal_ne_nil, if_false, decide_true, decimalValue_decimal]

theorem stoll_toString (v : Int) :
    stoll (toString v) = if -2 ^ 63 ≤ v ∧ v < 2 ^ 63 then .ok v else .error .outOfRange := by
  unfold toString
  split
  next negative =>
    have same : -((v.natAbs : Nat) : Int) = v := by omega
    simp only [stoll, signedIn, leadingNumber_minus, if_true, same]
    rfl
  next nonnegative =>
    have same : ((v.natAbs : Nat) : Int) = v := by omega
    simp only [stoll, signedIn, leadingNumber_decimal, Bool.false_eq_true, if_false, same]
    rfl

theorem parseNumber_toString (v : Int) (stops : Stops t) :
    parseNumber (toString v ++ t) =
      if -2 ^ 63 ≤ v ∧ v < 2 ^ 63 then .ok (.int v, t) else .error (.number .outOfRange) := by
  rw [toString_eq, parseNumber_bytes (integerText_wellFormed v) stops, ← toString_eq]
  have isInt : decide ((integerText v).fraction ≠ [] ∨ (integerText v).exponent ≠ []) = false := by
    simp [integerText]
  rw [isInt, convert, if_neg (by decide), stoll_toString]
  split_ifs <;> rfl

def doubleText (v : Float) (prec : Nat) : DecimalText :=
  let text := defaultfloat prec v
  if text.fraction = [] ∧ text.exponent = [] then { text with fraction := [48] } else text

theorem doubleText_wellFormed (v : Float) (prec : Nat) : (doubleText v prec).WellFormed := by
  have formed := defaultfloat_wellFormed prec v
  unfold doubleText
  generalize defaultfloat prec v = text at formed ⊢
  dsimp only
  split
  · refine ⟨formed.whole_ne_nil, formed.whole, ?_, formed.exponent⟩
    intro c listed
    rw [List.mem_singleton.mp listed]
    rfl
  · exact formed

theorem not_mem_of_digits {c : UInt8} {digits : Bytes} (all : ∀ d ∈ digits, isDigit d = true)
    (other : isDigit c = false) : c ∉ digits :=
  fun listed => digit_ne (all c listed) other rfl

theorem dot_mem_bytes_iff (formed : number.WellFormed) :
    dot ∈ number.bytes ↔ number.fraction ≠ [] := by
  have whole := not_mem_of_digits formed.whole (c := dot) rfl
  have exponent := not_mem_of_digits formed.exponent (c := dot) rfl
  have signs : dot ≠ minus ∧ dot ≠ lowerE ∧ dot ≠ plus := by decide
  unfold DecimalText.bytes DecimalText.fractionBytes DecimalText.exponentBytes
  cases number.negative <;> cases number.exponentNegative <;> split <;> split <;> simp_all

theorem lowerE_mem_bytes_iff (formed : number.WellFormed) :
    lowerE ∈ number.bytes ↔ number.exponent ≠ [] := by
  have whole := not_mem_of_digits formed.whole (c := lowerE) rfl
  have fraction := not_mem_of_digits formed.fraction (c := lowerE) rfl
  have signs : lowerE ≠ minus ∧ lowerE ≠ dot := by decide
  unfold DecimalText.bytes DecimalText.fractionBytes DecimalText.exponentBytes
  cases number.negative <;> cases number.exponentNegative <;> split <;> split <;> simp_all

theorem numDouble_eq {v : Float} (finite : (v.isNaN || v.isInf) = false) (prec : Nat) :
    numDouble v prec = (doubleText v prec).bytes := by
  have formed := defaultfloat_wellFormed prec v
  rw [numDouble, if_neg (fun special => Bool.false_ne_true (finite.symm.trans special))]
  simp only [dot_mem_bytes_iff formed, lowerE_mem_bytes_iff formed, not_not]
  unfold doubleText
  generalize defaultfloat prec v = text
  dsimp only
  split
  next none =>
    have zero : ascii ".0" = [dot, 48] := by decide
    simp [DecimalText.bytes, DecimalText.fractionBytes, DecimalText.exponentBytes, none, zero]
  · rfl

theorem parseNumber_numDouble {v : Float} (finite : (v.isNaN || v.isInf) = false)
    (prec : Nat) (stops : Stops t) :
    parseNumber (numDouble v prec ++ t) =
      match stod (numDouble v prec) with
      | .ok d => .ok (.double d, t)
      | .error e => .error (.number e) := by
  rw [numDouble_eq finite, parseNumber_bytes (doubleText_wellFormed v prec) stops]
  have isFloat : decide ((doubleText v prec).fraction ≠ [] ∨ (doubleText v prec).exponent ≠ []) =
      true := by
    unfold doubleText
    dsimp only
    split
    · simp
    next some => simpa using not_and_or.mp some
  rw [isFloat, convert, if_pos rfl]
  cases stod (doubleText v prec).bytes <;> rfl

/-- What `parse_value` makes of the text of a scalar, if it accepts it. -/
def Scalar.read : Scalar → Option JsonValue
  | .str s => some (.string s)
  | .int64 v => some (.int v.toInt)
  | .uint64 v => if v.toNat < 2 ^ 63 then some (.int v.toNat) else none
  | .double v prec =>
      if v.isNaN || v.isInf then some .null
      else match stod (numDouble v prec) with
        | .ok d => some (.double d)
        | .error _ => none
  | .boolean v => some (.bool v)
  | .null => some .null

def Reads (t : Bytes) (run : Parsing (JsonValue × Bytes)) : Option JsonValue → Prop
  | some v => run = .ok (v, t)
  | none => ∃ e, run = .error e

theorem skipWs_of_peek {rest : Bytes} (printed : isWs (peek rest) = false) :
    skipWs rest = rest := by
  cases rest with
  | nil => rfl
  | cons c rest => exact List.dropWhile_cons_of_neg (by simpa [peek] using printed)

theorem parseValue_quote {size fuel : Nat} (rest : Bytes) :
    parseValue size (fuel + 1) (quote :: rest) = do
      let (s, behind) ← parseString (quote :: rest)
      return (.string s, behind) := rfl

theorem parseValue_number {size fuel : Nat} {start : Bytes}
    (first : peek start = minus ∨ isDigit (peek start) = true) :
    parseValue size (fuel + 1) start = parseNumber start := by
  have printed : isWs (peek start) = false ∧ peek start ≠ quote ∧ peek start ≠ openBrace ∧
      peek start ≠ openBracket := by
    rcases first with sign | digit
    · rw [sign]
      decide
    · rw [isDigit_iff] at digit
      simp only [isWs, Bool.or_eq_false_iff, decide_eq_false_iff_not, ne_eq, ← UInt8.toNat_inj]
      refine ⟨⟨⟨⟨?_, ?_⟩, ?_⟩, ?_⟩, ?_, ?_, ?_⟩ <;> intro same <;> rw [same]
        at digit <;> revert digit <;> decide
  rw [parseValue, skipWs_of_peek printed.1]
  dsimp only
  rw [if_neg printed.2.1, if_neg printed.2.2.1, if_neg printed.2.2.2, if_pos first]

theorem parseValue_bytes {size fuel : Nat} (formed : number.WellFormed) :
    parseValue size (fuel + 1) (number.bytes ++ t) = parseNumber (number.bytes ++ t) := by
  refine parseValue_number ?_
  have digit := peek_digits formed.whole_ne_nil formed.whole
  unfold DecimalText.bytes
  cases number.negative with
  | true => exact Or.inl rfl
  | false =>
      refine Or.inr ?_
      simp only [Bool.false_eq_true, if_false, List.nil_append, List.append_assoc]
      rwa [peek_append formed.whole_ne_nil]

theorem decimal_eq_toString (n : Nat) : decimal n = toString n := by
  simp [toString]

theorem parseValue_scalar (size fuel : Nat) (v : Scalar) (stops : Stops t) :
    Reads t (parseValue size (fuel + 1) (v.text ++ t)) v.read := by
  have constant (text : Bytes) (value : JsonValue) (known : text = ascii "null" ∧ value = .null ∨
      text = ascii "true" ∧ value = .bool true ∨ text = ascii "false" ∧ value = .bool false) :
      parseValue size (fuel + 1) (text ++ t) = .ok (value, t) := by
    rcases known with ⟨rfl, rfl⟩ | ⟨rfl, rfl⟩ | ⟨rfl, rfl⟩ <;> rfl
  cases v with
  | str s =>
      have found := parseString_str s t
      change parseValue size (fuel + 1) (str s ++ t) = _
      rw [str_append] at found ⊢
      rw [parseValue_quote, found]
      rfl
  | int64 v =>
      change parseValue size (fuel + 1) (toString v.toInt ++ t) = _
      have low := v.le_toInt
      have high := v.toInt_lt
      have parsed := parseNumber_toString v.toInt stops
      rw [if_pos ⟨low, high⟩] at parsed
      rw [toString_eq] at parsed ⊢
      rw [parseValue_bytes (integerText_wellFormed _), parsed]
  | uint64 v =>
      have parsed := parseNumber_toString (v.toNat : Int) stops
      simp only [Scalar.text, Scalar.read, decimal_eq_toString]
      rw [toString_eq] at parsed ⊢
      rw [parseValue_bytes (integerText_wellFormed _), parsed]
      by_cases small : v.toNat < 2 ^ 63
      · rw [if_pos small, if_pos ⟨by omega, by omega⟩]
        rfl
      · rw [if_neg small, if_neg (by omega)]
        exact ⟨_, rfl⟩
  | double v prec =>
      simp only [Scalar.text, Scalar.read]
      cases finite : v.isNaN || v.isInf with
      | true =>
          rw [numDouble, if_pos finite, if_pos rfl]
          exact constant _ _ (Or.inl ⟨rfl, rfl⟩)
      | false =>
          have parsed := parseNumber_numDouble finite prec stops
          rw [if_neg (by decide)]
          rw [numDouble_eq finite] at parsed ⊢
          rw [parseValue_bytes (doubleText_wellFormed v prec), parsed]
          cases stod (doubleText v prec).bytes with
          | ok d => rfl
          | error e => exact ⟨_, rfl⟩
  | boolean v =>
      cases v with
      | true => exact constant _ _ (Or.inr (Or.inl ⟨rfl, rfl⟩))
      | false => exact constant _ _ (Or.inr (Or.inr ⟨rfl, rfl⟩))
  | null => exact constant _ _ (Or.inl ⟨rfl, rfl⟩)

end Json
end LocalPC.Offline
