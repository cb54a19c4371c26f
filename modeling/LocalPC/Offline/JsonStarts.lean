import LocalPC.Lib.Nesting
import LocalPC.Offline.JsonCut

namespace LocalPC.Offline
open Lib

def jsonMarks : Marks UInt8 where
  quote := quote
  escape := backslash
  separator := comma
  opens := fun c => c = openBrace || c = openBracket
  closes := fun c => c = closeBrace || c = closeBracket

namespace JsonParser
open Json (skipWs_of_peek skipWs_cons_ws skipWs_skipWs isNumberChar)

def isDelimiter (c : UInt8) : Bool := isWs c || c = comma || c = closeBrace || c = closeBracket

def Blank (t : Bytes) : Prop := ∀ c ∈ t, isWs c = true

def Settles {α : Type} (run : Parsing (α × Bytes)) (a : α) (rest : Bytes) : Prop :=
  run = .error .outOfFuel ∨ run = .ok (a, rest)

/-- The parser reads `w`, in front of each start of `behind`, as `a`, and of a start of `w` it does
not read a part that a delimiter follows. -/
structure Consumes {α : Type} (parse : Bytes → Parsing (α × Bytes))
    (w behind : Bytes) (a : α) : Prop where
  same : ∀ y, y <+: behind → Settles (parse (w ++ y)) a y
  cut : ∀ q, q <+: w → q ≠ w → ∀ b rest, parse q = .ok (b, rest) → isDelimiter (peek rest) = false

theorem isDelimiter_iff {c : UInt8} :
    isDelimiter c = true ↔ isWs c = true ∨ c = comma ∨ c = closeBrace ∨ c = closeBracket := by
  simp [isDelimiter, or_assoc]

theorem isWs_iff {c : UInt8} : isWs c = true ↔ c = space ∨ c = 9 ∨ c = newline ∨ c = 13 := by
  simp [isWs, or_assoc]

theorem skipWs_blank {ws : Bytes} (blank : Blank ws) (t : Bytes) : skipWs (ws ++ t) = skipWs t :=
  List.dropWhile_append_of_pos blank

theorem skipWs_of_blank {ws : Bytes} (blank : Blank ws) : skipWs ws = [] :=
  List.dropWhile_eq_nil_iff.mpr blank

theorem Blank.start {p ws : Bytes} (blank : Blank ws) (part : p <+: ws) : Blank p :=
  fun c mem => blank c (part.subset mem)

theorem skipWs_split (t : Bytes) : ∃ ws, Blank ws ∧ t = ws ++ skipWs t :=
  ⟨t.takeWhile isWs, fun _ mem => List.mem_takeWhile_imp mem, List.takeWhile_append_dropWhile.symm⟩

theorem isWs_peek_skipWs (t : Bytes) : isWs (peek (skipWs t)) = false := by
  induction t with
  | nil => rfl
  | cons c t ih =>
      cases ws : isWs c with
      | true =>
          rw [skipWs_cons_ws ws]
          exact ih
      | false =>
          have start : skipWs (c :: t) = c :: t := skipWs_of_peek ws
          rw [start]
          exact ws

theorem isDelimiter_of_skipWs {t : Bytes} (delimiter : isDelimiter (peek (skipWs t)) = true) :
    isDelimiter (peek t) = true := by
  cases t with
  | nil => exact delimiter
  | cons c t =>
      cases ws : isWs c with
      | true => exact isDelimiter_iff.mpr (.inl ws)
      | false =>
          have start : skipWs (c :: t) = c :: t := skipWs_of_peek ws
          rwa [start] at delimiter

theorem peek_start {p t : Bytes} (start : p <+: t) (nonempty : p ≠ []) : peek p = peek t := by
  obtain ⟨q, rfl⟩ := start
  exact (Json.peek_append nonempty q).symm

theorem not_start_of_peek {Q : UInt8 → Bool} (zero : Q 0 = false) {p t : Bytes} (start : p <+: t)
    (first : Q (peek t) = false) : Q (peek p) = false := by
  by_cases empty : p = []
  · rw [empty]
    exact zero
  · rw [peek_start start empty]
    exact first

theorem Consumes.skipWs {α : Type} {parse : Bytes → Parsing (α × Bytes)}
    {ws w behind : Bytes} {a : α} (consumes : Consumes parse w behind a) (blank : Blank ws)
    (nonempty : w ≠ []) (printed : isWs (peek w) = false) :
    Consumes (fun rest => parse (JsonParser.skipWs rest)) (ws ++ w) behind a := by
  refine ⟨fun y part => ?_, fun q part short b rest read => ?_⟩
  · have start : JsonParser.skipWs (w ++ y) = w ++ y :=
      skipWs_of_peek (by rwa [Json.peek_append nonempty])
    have settles := consumes.same y part
    rwa [← start, ← skipWs_blank blank (w ++ y), ← List.append_assoc] at settles
  · rcases Marks.inside_or_behind part with ⟨early, -⟩ | ⟨p, rfl, late⟩
    · rw [skipWs_of_blank (blank.start early)] at read
      exact consumes.cut [] List.nil_prefix nonempty.symm b rest read
    · have start : JsonParser.skipWs p = p := skipWs_of_peek (not_start_of_peek rfl late printed)
      rw [skipWs_blank blank, start] at read
      exact consumes.cut p late (fun whole => short (by rw [whole])) b rest read

theorem stringBody_starts {text out behind : Bytes} (read : stringBody text = .ok (out, behind)) :
    ∃ w, text = w ++ behind ∧ jsonMarks.StringRest w ∧ (∀ y, stringBody (w ++ y) = .ok (out, y)) ∧
      ∀ q, q <+: w → q ≠ w → stringBody q = .error .unterminatedString := by
  refine stringBody_induct
    (P := fun text out behind => ∃ w, text = w ++ behind ∧ jsonMarks.StringRest w ∧
    (∀ y, stringBody (w ++ y) = .ok (out, y)) ∧ ∀ q, q <+: w → q ≠ w →
      stringBody q = .error .unterminatedString)
    ?_ ?_ ?_ read
  · intro rest
    refine ⟨[quote], rfl, Marks.StringRest.quote, stringBody_quote, fun q part short => ?_⟩
    rw [(Marks.start_of_singleton part).resolve_right short]
    rfl
  · rintro e rest out behind ⟨w, rfl, string, same, cut⟩
    refine ⟨backslash :: e :: w, rfl, Marks.StringRest.escaped (by decide) string,
      fun y => ?_, fun q part short => ?_⟩
    · rw [List.cons_append, List.cons_append, stringBody_escaped, same]
      rfl
    · rcases List.prefix_cons_iff.mp part with rfl | ⟨p, rfl, part'⟩
      · rfl
      rcases List.prefix_cons_iff.mp part' with rfl | ⟨p, rfl, inside⟩
      · rfl
      · rw [stringBody_escaped, cut p inside fun whole => short (by rw [whole])]
        rfl
  · rintro c rest out behind unquoted unescaped ⟨w, rfl, string, same, cut⟩
    refine ⟨c :: w, rfl, Marks.StringRest.plain unquoted unescaped string,
      fun y => ?_, fun q part short => ?_⟩
    · rw [List.cons_append, stringBody_plain unquoted unescaped, same]
      rfl
    · rcases List.prefix_cons_iff.mp part with rfl | ⟨p, rfl, inside⟩
      · rfl
      · rw [stringBody_plain unquoted unescaped, cut p inside fun whole => short (by rw [whole])]
        rfl

theorem parseString_starts {text out behind : Bytes} (read : parseString text = .ok (out, behind)) :
    ∃ w, text = quote :: w ++ behind ∧ jsonMarks.Item (quote :: w) ∧
      (∀ y, parseString (quote :: w ++ y) = .ok (out, y)) ∧
      ∀ q, q <+: quote :: w → q ≠ quote :: w → ∃ e, parseString q = .error e := by
  obtain ⟨body, rfl, found⟩ := parseString_ok read
  obtain ⟨w, rfl, string, same, cut⟩ := stringBody_starts found
  refine ⟨w, rfl, Marks.Item.string (by decide) string, same, fun q part short => ?_⟩
  rcases List.prefix_cons_iff.mp part with rfl | ⟨p, rfl, inside⟩
  · exact ⟨_, rfl⟩
  · exact ⟨_, cut p inside fun whole => short (by rw [whole])⟩

theorem not_isNumberChar_of_isDelimiter {c : UInt8} (delimiter : isDelimiter c = true) :
    isNumberChar c = false := by
  rw [isDelimiter_iff, isWs_iff] at delimiter
  rcases delimiter with (rfl | rfl | rfl | rfl) | rfl | rfl | rfl
  all_goals decide

theorem isPlain_of_isNumberChar {c : UInt8} (number : isNumberChar c = true) :
    jsonMarks.IsPlain c := by
  refine ⟨?_, ?_, ?_, ?_⟩
  · rintro rfl
    cases number
  · rintro rfl
    cases number
  · by_contra opens
    simp only [jsonMarks, Bool.not_eq_false, Bool.or_eq_true, decide_eq_true_eq] at opens
    rcases opens with rfl | rfl <;> cases number
  · by_contra closes
    simp only [jsonMarks, Bool.not_eq_false, Bool.or_eq_true, decide_eq_true_eq] at closes
    rcases closes with rfl | rfl <;> cases number

variable {t y : Bytes}

theorem dropWhile_append {p : UInt8 → Bool} (stop : p (peek y) = false) :
    (t ++ y).dropWhile p = t.dropWhile p ++ y := by
  induction t with
  | nil =>
      cases y with
      | nil => rfl
      | cons c y => exact List.dropWhile_cons_of_neg (by rwa [Bool.not_eq_true])
  | cons c t ih =>
      by_cases holds : p c = true
      · rw [List.cons_append, List.dropWhile_cons_of_pos holds,
          List.dropWhile_cons_of_pos holds, ih]
      · rw [List.cons_append, List.dropWhile_cons_of_neg holds,
          List.dropWhile_cons_of_neg holds, List.cons_append]

theorem skipIf_append {found : UInt8 → Bool} (stop : found (peek y) = false) :
    skipIf found (t ++ y) = skipIf found t ++ y := by
  cases t with
  | nil =>
      have nothing : skipIf found [] = [] := by
        unfold skipIf
        split <;> rfl
      rw [nothing, List.nil_append, skipIf, stop]
      rfl
  | cons c t =>
      show (if found c then t ++ y else c :: (t ++ y)) = (if found c then t else c :: t) ++ y
      split <;> rfl

theorem peek_append_eq_iff {c : UInt8} (nonzero : c ≠ 0) (stop : peek y ≠ c) :
    peek (t ++ y) = c ↔ peek t = c := by
  cases t with
  | nil => exact iff_of_false stop nonzero.symm
  | cons d t => exact Iff.rfl

theorem scanNumber_append (stops : Json.Stops y) :
    scanNumber (t ++ y) = ((scanNumber t).1, (scanNumber t).2 ++ y) := by
  have other {c : UInt8} (number : isNumberChar c = true) : peek y ≠ c := stops.peek_ne number
  have digits (t : Bytes) : skipDigits (t ++ y) = skipDigits t ++ y :=
    dropWhile_append stops.not_digit
  have sign : skipIf (fun c => c = minus) (t ++ y) = skipIf (fun c => c = minus) t ++ y :=
    skipIf_append (decide_eq_false (other rfl))
  unfold scanNumber
  dsimp only
  rw [sign, digits]
  generalize skipDigits (skipIf (fun c => c = minus) t) = whole
  have point : skipIf (fun c => c = dot) (whole ++ y) = skipIf (fun c => c = dot) whole ++ y :=
    skipIf_append (decide_eq_false (other rfl))
  have hasDot : peek (whole ++ y) = dot ↔ peek whole = dot :=
    peek_append_eq_iff (by decide) (other rfl)
  rw [point, digits]
  generalize skipDigits (skipIf (fun c => c = dot) whole) = fraction
  have exponent : (peek (fraction ++ y) = lowerE ∨ peek (fraction ++ y) = upperE) ↔
      peek fraction = lowerE ∨ peek fraction = upperE :=
    or_congr (peek_append_eq_iff (by decide) (other rfl))
      (peek_append_eq_iff (by decide) (other rfl))
  by_cases scientific : peek fraction = lowerE ∨ peek fraction = upperE
  · have nonempty : fraction ≠ [] := by
      rintro rfl
      exact absurd scientific (by decide)
    have signed : skipIf (fun c => c = plus || c = minus) (fraction.tail ++ y) =
        skipIf (fun c => c = plus || c = minus) fraction.tail ++ y :=
      skipIf_append (by rw [decide_eq_false (other rfl), decide_eq_false (other rfl)]; rfl)
    rw [if_pos (exponent.mpr scientific), if_pos scientific,
      List.tail_append_of_ne_nil nonempty, signed, digits]
  · rw [if_neg (mt exponent.mp scientific), if_neg scientific]
    simp only [hasDot]

theorem scanNumber_numeral {start : Bytes}
    (delimiter : isDelimiter (peek (scanNumber start).2) = true) :
    ∃ numeral, start = numeral ++ (scanNumber start).2 ∧ (∀ c ∈ numeral, isNumberChar c = true) ∧
      scanNumber numeral = ((scanNumber start).1, []) := by
  have split : start.takeWhile isNumberChar ++ start.dropWhile isNumberChar = start :=
    List.takeWhile_append_dropWhile
  have all : ∀ c ∈ start.takeWhile isNumberChar, isNumberChar c = true :=
    fun _ mem => List.mem_takeWhile_imp mem
  have stops : Json.Stops (start.dropWhile isNumberChar) := by
    cases rest : start.dropWhile isNumberChar with
    | nil => rfl
    | cons c rest' =>
        have head :=
          List.head_dropWhile_not isNumberChar (l := start)
            (by rw [rest]; exact List.cons_ne_nil _ _)
        simp only [rest, List.head_cons] at head
        exact head
  have scanned : scanNumber start = ((scanNumber (start.takeWhile isNumberChar)).1,
      (scanNumber (start.takeWhile isNumberChar)).2 ++ start.dropWhile isNumberChar) := by
    conv_lhs => rw [← split]
    exact scanNumber_append stops
  have nothing : (scanNumber (start.takeWhile isNumberChar)).2 = [] := by
    cases left : (scanNumber (start.takeWhile isNumberChar)).2 with
    | nil => rfl
    | cons c rest =>
        have mem : c ∈ start.takeWhile isNumberChar :=
          (scanNumber_suffix _).subset (left ▸ List.mem_cons_self)
        rw [scanned, left] at delimiter
        have other := not_isNumberChar_of_isDelimiter delimiter
        exact absurd (all c mem) (ne_true_of_eq_false other)
  refine ⟨start.takeWhile isNumberChar, ?_, all, ?_⟩
  · rw [scanned, nothing]
    exact split.symm
  · rw [scanned, ← nothing]

theorem parseNumber_starts {start behind : Bytes} {v : JsonValue}
    (read : parseNumber start = .ok (v, behind)) (delimiter : isDelimiter (peek behind) = true) :
    ∃ w, start = w ++ behind ∧ (∀ c ∈ w, isNumberChar c = true) ∧
      Consumes parseNumber w behind v := by
  obtain ⟨rfl, value⟩ := parseNumber_ok read
  obtain ⟨numeral, split, all, scanned⟩ := scanNumber_numeral delimiter
  refine ⟨numeral, split, all, fun y part => .inr ?_, fun q part _ b rest read' => ?_⟩
  · have stops : Json.Stops y :=
      not_start_of_peek rfl part (not_isNumberChar_of_isDelimiter delimiter)
    have token (t : Bytes) : (numeral ++ t).take ((numeral ++ t).length - t.length) = numeral := by
      rw [List.length_append, Nat.add_sub_cancel, List.take_left]
    have same := token (scanNumber start).2
    rw [← split] at same
    rw [same] at value
    unfold parseNumber
    rw [scanNumber_append stops, scanned, List.nil_append]
    dsimp only
    rw [token y, value]
  · obtain ⟨rfl, -⟩ := parseNumber_ok read'
    cases left : (scanNumber q).2 with
    | nil => rfl
    | cons c rest =>
        have mem : c ∈ numeral :=
          part.subset ((scanNumber_suffix q).subset (left ▸ List.mem_cons_self))
        by_contra other
        have wrong := not_isNumberChar_of_isDelimiter (Bool.not_eq_false _ ▸ other)
        rw [show peek (c :: rest) = c from rfl, all c mem] at wrong
        cases wrong

variable {size fuel : Nat} {w behind : Bytes}

theorem consumes_of_succ {α : Type} {a : α} {parse : Nat → Bytes → Parsing (α × Bytes)}
    (zero : ∀ rest, parse 0 rest = .error .outOfFuel)
    (succ : ∀ fuel, Consumes (parse (fuel + 1)) w behind a) (fuel : Nat) :
    Consumes (parse fuel) w behind a := by
  cases fuel with
  | zero =>
      refine ⟨fun y _ => .inl (zero _), fun q _ _ b rest read => ?_⟩
      rw [zero] at read
      cases read
  | succ fuel => exact succ fuel

theorem Consumes.of_eq {α : Type} {a : α} {parse parse' : Bytes → Parsing (α × Bytes)}
    (consumes : Consumes parse w behind a) (nonempty : w ≠ [])
    (agree : ∀ t, t ≠ [] → peek t = peek w → parse' t = parse t)
    (nothing : ∃ e, parse' [] = .error e) :
    Consumes parse' w behind a := by
  refine ⟨fun y part => ?_, fun q part short b rest read => ?_⟩
  · rw [agree _ (List.append_ne_nil_of_left_ne_nil nonempty y) (Json.peek_append nonempty y)]
    exact consumes.same y part
  · by_cases empty : q = []
    · obtain ⟨e, failed⟩ := nothing
      rw [empty, failed] at read
      cases read
    · rw [agree q empty (peek_start part empty)] at read
      exact consumes.cut q part short b rest read

theorem parseValue_nil : parseValue size (fuel + 1) [] = .error (.unexpectedChar 0 size) := rfl

theorem parseValue_openBrace (t : Bytes) :
    parseValue size (fuel + 1) (openBrace :: t) = parseObject size fuel (openBrace :: t) := rfl

theorem parseValue_openBracket (t : Bytes) :
    parseValue size (fuel + 1) (openBracket :: t) = parseArray size fuel (openBracket :: t) := rfl

def keywords : List (Bytes × JsonValue) :=
  [(ascii "true", .bool true), (ascii "false", .bool false), (ascii "null", .null)]

theorem keyword_cut {word q : Bytes} {v : JsonValue}
    (listed : (word, v) ∈ keywords) (part : q <+: word) (short : q ≠ word) :
    ∃ e, parseValue size (fuel + 1) q = .error e := by
  have shorter : q.length < word.length :=
    lt_of_le_of_ne part.length_le fun same => short (part.eq_of_length same)
  rw [List.prefix_iff_eq_take.mp part]
  clear part short
  generalize q.length = n at shorter
  simp only [keywords, List.mem_cons, List.not_mem_nil, or_false, Prod.mk.injEq] at listed
  rcases listed with ⟨rfl, -⟩ | ⟨rfl, -⟩ | ⟨rfl, -⟩
  · have lengths : n < 4 := shorter
    obtain rfl | rfl | rfl | rfl : n = 0 ∨ n = 1 ∨ n = 2 ∨ n = 3 := by omega
    all_goals exact ⟨_, rfl⟩
  · have lengths : n < 5 := shorter
    obtain rfl | rfl | rfl | rfl | rfl : n = 0 ∨ n = 1 ∨ n = 2 ∨ n = 3 ∨ n = 4 := by omega
    all_goals exact ⟨_, rfl⟩
  · have lengths : n < 4 := shorter
    obtain rfl | rfl | rfl | rfl : n = 0 ∨ n = 1 ∨ n = 2 ∨ n = 3 := by omega
    all_goals exact ⟨_, rfl⟩

theorem keyword_starts {word : Bytes} {v : JsonValue} (listed : (word, v) ∈ keywords) :
    Consumes (parseValue size (fuel + 1)) word behind v := by
  refine ⟨fun y _ => .inr ?_, fun q part short b rest read => ?_⟩
  · simp only [keywords, List.mem_cons, List.not_mem_nil, or_false, Prod.mk.injEq] at listed
    rcases listed with ⟨rfl, rfl⟩ | ⟨rfl, rfl⟩ | ⟨rfl, rfl⟩
    all_goals rfl
  · obtain ⟨e, failed⟩ := keyword_cut listed part short
    rw [failed] at read
    cases read

theorem parseValue_cases {start : Bytes} {v : JsonValue}
    (read : parseValue size (fuel + 1) start = .ok (v, behind))
    (printed : isWs (peek start) = false) :
    (∃ s, parseString start = .ok (s, behind) ∧ v = .string s) ∨
    (peek start = openBrace ∧ parseObject size fuel start = .ok (v, behind)) ∨
    (peek start = openBracket ∧ parseArray size fuel start = .ok (v, behind)) ∨
    ((peek start = minus ∨ isDigit (peek start) = true) ∧ parseNumber start = .ok (v, behind)) ∨
    ∃ word, (word, v) ∈ keywords ∧ start = word ++ behind := by
  have word {n : Nat} {word : Bytes} (found : start.take n = word) : start =
      word ++ start.drop n := by
    rw [← found, List.take_append_drop]
  unfold parseValue at read
  dsimp only at read
  rw [skipWs_of_peek printed] at read
  split_ifs at read with string object array number true_ false_ null_
  · obtain ⟨⟨s, rest⟩, found, same⟩ := bind_ok read
    cases same
    exact .inl ⟨s, found, rfl⟩
  · exact .inr (.inl ⟨object, read⟩)
  · exact .inr (.inr (.inl ⟨array, read⟩))
  · exact .inr (.inr (.inr (.inl ⟨number, read⟩)))
  all_goals cases read
  · exact .inr (.inr (.inr (.inr ⟨_, List.mem_cons_self, word true_⟩)))
  · exact .inr (.inr (.inr (.inr ⟨_, List.mem_cons_of_mem _ List.mem_cons_self, word false_⟩)))
  · exact .inr
      (.inr (.inr (.inr ⟨_,
        List.mem_cons_of_mem _ (List.mem_cons_of_mem _ List.mem_cons_self), word null_⟩)))

/-- What `parse` reads of the text is an item, and is read in the same way from the starts of the
text. -/
def ReadsPart {α : Type} (parse : Nat → Nat → Bytes → Parsing (α × Bytes))
    (start behind : Bytes) (a : α) : Prop :=
  ∃ w, start = w ++ behind ∧ w ≠ [] ∧ jsonMarks.Item w ∧
    ∀ size fuel, Consumes (parse size fuel) w behind a

theorem parseString_reads {start : Bytes} {s : Bytes} (read : parseString start = .ok (s, behind)) :
    ReadsPart parseValue start behind (.string s) := by
  obtain ⟨w, rfl, item, same, cut⟩ := parseString_starts read
  refine ⟨quote :: w, rfl, List.cons_ne_nil _ _, item,
    fun size => consumes_of_succ (fun _ => rfl) fun fuel => ?_⟩
  refine ⟨fun y _ => .inr ?_, fun q part short b rest found => ?_⟩
  · have found := same y
    rw [List.cons_append] at found ⊢
    rw [Json.parseValue_quote, found]
    rfl
  · rcases List.prefix_cons_iff.mp part with rfl | ⟨p, rfl, inside⟩
    · cases found
    · obtain ⟨e, failed⟩ := cut _ part short
      rw [Json.parseValue_quote, failed] at found
      cases found

theorem parseNumber_reads {start : Bytes} {v : JsonValue}
    (first : peek start = minus ∨ isDigit (peek start) = true)
    (read : parseNumber start = .ok (v, behind)) (delimiter : isDelimiter (peek behind) = true) :
    ReadsPart parseValue start behind v := by
  obtain ⟨w, rfl, all, consumes⟩ := parseNumber_starts read delimiter
  have nonempty : w ≠ [] := by
    rintro rfl
    have other := not_isNumberChar_of_isDelimiter delimiter
    simp only [isNumberChar, Bool.or_eq_false_iff, decide_eq_false_iff_not] at other
    rcases first with sign | digit
    · exact other.2 sign
    · exact absurd digit (ne_true_of_eq_false other.1.1.1.1.1)
  rw [Json.peek_append nonempty] at first
  refine ⟨w, rfl, nonempty,
    Marks.Item.of_plain fun c mem => isPlain_of_isNumberChar (all c mem), fun size => ?_⟩
  refine consumes_of_succ (fun _ => rfl) fun fuel => ?_
  exact consumes.of_eq nonempty (fun t _ same => Json.parseValue_number (same ▸ first)) ⟨_, rfl⟩

set_option maxRecDepth 4000 in
theorem keyword_reads {word : Bytes} {v : JsonValue} (listed : (word, v) ∈ keywords) :
    ReadsPart parseValue (word ++ behind) behind v := by
  have plain : word ≠ [] ∧ ∀ c ∈ word, jsonMarks.IsPlain c := by
    simp only [keywords, List.mem_cons, List.not_mem_nil, or_false, Prod.mk.injEq] at listed
    rcases listed with ⟨rfl, -⟩ | ⟨rfl, -⟩ | ⟨rfl, -⟩
    all_goals decide
  exact ⟨word, rfl, plain.1, Marks.Item.of_plain plain.2,
    fun size => consumes_of_succ (fun _ => rfl) fun fuel => keyword_starts listed⟩

end JsonParser
end LocalPC.Offline
