import Mathlib.Data.List.Forall2
import LocalPC.Offline.JsonScalars

namespace LocalPC.Offline
open Lib JsonParser

namespace Json

def expand (n : Nat) (text : Bytes) : Bytes :=
  text.flatMap fun c => if c = newline then newline :: spaces n else [c]

@[simp] theorem expand_nil (n : Nat) : expand n [] = [] := rfl

@[simp] theorem expand_append (n : Nat) (a b : Bytes) :
    expand n (a ++ b) = expand n a ++ expand n b :=
  List.flatMap_append

@[simp] theorem expand_newline (n : Nat) (t : Bytes) :
    expand n (newline :: t) = newline :: (spaces n ++ expand n t) := rfl

theorem expand_cons {c : UInt8} (n : Nat) (other : c ≠ newline) (t : Bytes) :
    expand n (c :: t) = c :: expand n t := by
  simp [expand, other]

theorem expand_of_not_mem {n : Nat} {t : Bytes} (clean : newline ∉ t) : expand n t = t := by
  induction t with
  | nil => rfl
  | cons c t ih =>
      have head : c ≠ newline := fun same => clean (by simp [same])
      rw [expand_cons n head, ih fun member => clean (List.mem_cons_of_mem _ member)]

theorem newline_not_mem_spaces (n : Nat) : newline ∉ spaces n :=
  fun member => absurd (List.eq_of_mem_replicate member) (by decide)

theorem spaces_append (m n : Nat) : spaces m ++ spaces n = spaces (m + n) :=
  List.replicate_append_replicate

theorem expand_zero (t : Bytes) : expand 0 t = t := by
  induction t with
  | nil => rfl
  | cons c t ih =>
      by_cases same : c = newline
      · subst same
        rw [expand_newline, ih]
        rfl
      · rw [expand_cons 0 same, ih]

theorem expand_expand (m n : Nat) (t : Bytes) : expand m (expand n t) = expand (m + n) t := by
  induction t with
  | nil => rfl
  | cons c t ih =>
      by_cases same : c = newline
      · subst same
        rw [expand_newline, expand_newline, expand_newline, expand_append, ih,
          expand_of_not_mem (newline_not_mem_spaces n), ← List.append_assoc, spaces_append]
      · rw [expand_cons n same, expand_cons m same, expand_cons _ same, ih]

theorem indentLines_eq (n : Nat) {t : Bytes} (nonempty : t ≠ [])
    (last : t.getLast? ≠ some newline) :
    indentLines (spaces n) t = spaces n ++ expand n t := by
  induction t with
  | nil => contradiction
  | cons c t ih =>
      cases t with
      | nil =>
          have other : c ≠ newline := by simpa using last
          simp [indentLines, getlines, other, expand]
      | cons d t =>
          have inner := ih (by simp) (by simpa using last)
          cases lines : getlines newline (d :: t) with
          | nil => exact absurd lines (getlines_ne_nil (by simp))
          | cons line more =>
              rw [indentLines, lines] at inner
              dsimp only at inner
              rw [List.append_assoc, List.append_cancel_left_eq] at inner
              rw [indentLines, getlines, lines]
              by_cases same : c = newline
              · subst same
                rw [expand_newline, ← inner]
                simp
              · rw [expand_cons n same, if_neg same, ← inner]
                simp

theorem dropComma_concat (t : Bytes) (y : UInt8) :
    dropComma (t ++ [y]) = if t.getLast? = some comma then t.dropLast ++ [newline]
      else t ++ [y] := by
  rcases List.eq_nil_or_concat' t with rfl | ⟨front, x, rfl⟩
  · rfl
  · have second : (front ++ [x] ++ [y])[(front ++ [x] ++ [y]).length - 2]? = some x := by simp
    have front_eq : (front ++ [x] ++ [y]).take ((front ++ [x] ++ [y]).length - 2) = front := by simp
    have long : 2 ≤ (front ++ [x] ++ [y]).length := by simp
    rw [dropComma, second, front_eq, List.getLast?_concat, List.dropLast_concat]
    simp only [long, true_and]

theorem dropComma_append (front : Bytes) {back : Bytes} (long : 2 ≤ back.length) :
    dropComma (front ++ back) = front ++ dropComma back := by
  rcases List.eq_nil_or_concat' back with rfl | ⟨t, y, rfl⟩
  · simp at long
  · have nonempty : t ≠ [] := by
      rintro rfl
      simp at long
    rw [← List.append_assoc, dropComma_concat, dropComma_concat,
      List.getLast?_append_of_ne_nil _ nonempty, List.dropLast_append_of_ne_nil nonempty]
    split <;> simp

theorem dropComma_of_not_mem {t : Bytes} (clean : comma ∉ t) : dropComma t = t := by
  rcases List.eq_nil_or_concat' t with rfl | ⟨t, y, rfl⟩
  · rfl
  · have other : t.getLast? ≠ some comma := fun last =>
      clean (List.mem_append_left _ (List.mem_of_getLast? last))
    rw [dropComma_concat, if_neg other]

theorem getLast?_dropComma {t : Bytes} (other : t.getLast? ≠ some comma) :
    (dropComma t).getLast? ≠ some comma := by
  rcases List.eq_nil_or_concat' t with rfl | ⟨t, y, rfl⟩
  · exact other
  · rw [dropComma_concat]
    split
    · rw [List.getLast?_concat]
      decide
    · exact other

def EndsWithComma (s : Bytes) : Prop := s.getLast? = some comma

instance (s : Bytes) : Decidable (EndsWithComma s) := inferInstanceAs (Decidable (_ = _))

def keyText (indent depth : Nat) (key : Bytes) : Bytes :=
  spaces ((depth + 1) * indent) ++ str key ++ ascii ": "

def Call.valueText (indent depth : Nat) : Call → Bytes
  | .field _ value => value.text
  | .fieldBuilt _ obj => obj.text
  | .object _ calls => (Built.mk indent (depth + 1) calls).text
  | .array _ items =>
      bracketed (spaces ((depth + 1) * indent))
        (items.map fun item => spaces ((depth + 2) * indent) ++ item.text)
  | .rawArray _ objs =>
      bracketed (spaces ((depth + 1) * indent))
        (objs.map fun obj => indentLines (spaces ((depth + 2) * indent)) obj.text)

theorem keyText_eq (indent depth : Nat) (key : Bytes) :
    keyText indent depth key = spaces ((depth + 1) * indent) ++ str key ++ [colon, space] := rfl

theorem bracketed_nil (closePad : Bytes) : bracketed closePad [] = [openBracket, closeBracket] :=
  rfl

theorem bracketed_cons (closePad line : Bytes) (lines : List Bytes) :
    bracketed closePad (line :: lines) =
      openBracket :: newline :: (itemLines (line :: lines) ++ (closePad ++ [closeBracket])) := by
  have opened : ascii "[\n" = [openBracket, newline] := by decide
  have closed : ascii "]" = [closeBracket] := by decide
  simp [bracketed, opened, closed]

theorem builtTexts_eq (objs : List Built) : builtTexts objs = objs.map Built.text := by
  induction objs with
  | nil => rfl
  | cons obj objs ih => rw [builtTexts, ih, List.map_cons]

theorem Call.apply_eq (call : Call) (b : ObjectBuilder) :
    call.apply b =
      { b with
        buf := b.buf ++ (keyText b.indent b.depth call.key ++ call.valueText b.indent b.depth),
        empty := false } := by
  cases call <;>
    simp [Call.apply, ObjectBuilder.field, ObjectBuilder.object,
      ObjectBuilder.array, ObjectBuilder.rawArray, ObjectBuilder.append, ObjectBuilder.appendKey,
        keyText, Call.key, Call.valueText, Built.text, builtTexts_eq,
      List.map_map, Function.comp_def]

def callsText (indent depth : Nat) (calls : List Call) : Bytes :=
  calls.flatMap fun call => keyText indent depth call.key ++ call.valueText indent depth

theorem applyAll_eq (calls : List Call) (b : ObjectBuilder) :
    applyAll calls b =
      { b with
        buf := b.buf ++ callsText b.indent b.depth calls, empty := b.empty && calls.isEmpty } := by
  induction calls generalizing b with
  | nil => simp [applyAll, callsText]
  | cons call calls ih =>
      rw [applyAll, ih, Call.apply_eq]
      simp [callsText]

theorem Built.text_nil (indent depth : Nat) :
    (Built.mk indent depth []).text = [openBrace, closeBrace] := by
  rw [Built.text, applyAll_eq]
  rfl

theorem Built.text_cons (indent depth : Nat) (call : Call) (calls : List Call) :
    (Built.mk indent depth (call :: calls)).text =
      dropComma (openBrace :: newline :: callsText indent depth (call :: calls)) ++
        (spaces (depth * indent) ++ [closeBrace]) := by
  rw [Built.text, applyAll_eq]
  rfl

def isWord (c : UInt8) : Bool := isNumberChar c || (97 ≤ c && c ≤ 122)

theorem isWord_of_digit {c : UInt8} (digit : isDigit c = true) : isWord c = true := by
  simp [isWord, isNumberChar, digit]

theorem word_ne {c d : UInt8} (word : isWord c = true) (other : isWord d = false) : c ≠ d := by
  rintro rfl
  rw [word] at other
  cases other

theorem word_bytes {number : DecimalText} (formed : number.WellFormed) :
    ∀ c ∈ number.bytes, isWord c = true := by
  have whole (c : UInt8) (listed : c ∈ number.whole) := isWord_of_digit (formed.whole c listed)
  have fraction (c : UInt8) (listed : c ∈ number.fraction) :=
    isWord_of_digit (formed.fraction c listed)
  have exponent (c : UInt8) (listed : c ∈ number.exponent) :=
    isWord_of_digit (formed.exponent c listed)
  have signs : isWord minus = true ∧ isWord plus = true ∧ isWord dot = true ∧
      isWord lowerE = true := by decide
  intro c listed
  unfold DecimalText.bytes DecimalText.fractionBytes DecimalText.exponentBytes at listed
  simp only [List.mem_append] at listed
  rcases listed with ((sign | digit) | behindDot) | behindE
  · split at sign
    · rw [List.mem_singleton.mp sign]
      exact signs.1
    · cases sign
  · exact whole c digit
  · split at behindDot
    · cases behindDot
    · rcases List.mem_cons.mp behindDot with rfl | digit
      · exact signs.2.2.1
      · exact fraction c digit
  · split at behindE
    · cases behindE
    · rcases List.mem_cons.mp behindE with rfl | digit
      · exact signs.2.2.2
      · rcases List.mem_cons.mp digit with rfl | digit
        · split
          · exact signs.1
          · exact signs.2.1
        · exact exponent c digit

theorem bytes_ne_nil {number : DecimalText} (formed : number.WellFormed) : number.bytes ≠ [] := by
  simp [DecimalText.bytes, formed.whole_ne_nil]

theorem word_scalar {v : Scalar} (other : ∀ s, v ≠ .str s) :
    v.text ≠ [] ∧ ∀ c ∈ v.text, isWord c = true := by
  have null : ascii "null" ≠ [] ∧ ∀ c ∈ ascii "null", isWord c = true :=
    ⟨by decide, List.all_eq_true.mp (by decide)⟩
  cases v with
  | str s => exact absurd rfl (other s)
  | int64 v =>
      rw [Scalar.text, toString_eq]
      exact ⟨bytes_ne_nil (integerText_wellFormed _), word_bytes (integerText_wellFormed _)⟩
  | uint64 v =>
      rw [Scalar.text, decimal_eq_toString, toString_eq]
      exact ⟨bytes_ne_nil (integerText_wellFormed _), word_bytes (integerText_wellFormed _)⟩
  | double v prec =>
      cases finite : v.isNaN || v.isInf with
      | true =>
          rw [Scalar.text, numDouble, if_pos finite]
          exact null
      | false =>
          rw [Scalar.text, numDouble_eq finite]
          exact ⟨bytes_ne_nil (doubleText_wellFormed _ _), word_bytes (doubleText_wellFormed _ _)⟩
  | boolean v =>
      cases v with
      | true =>
          exact ⟨by decide, List.all_eq_true.mp (by decide : (ascii "true").all isWord = true)⟩
      | false =>
          exact ⟨by decide, List.all_eq_true.mp (by decide : (ascii "false").all isWord = true)⟩
  | null => exact null

theorem newline_not_mem_escape (c : UInt8) : newline ∉ escape c := by
  unfold escape
  split_ifs with h1 h2 h3 h4 h5
  iterate 5 decide
  exact fun listed => h3 (List.mem_singleton.mp listed).symm

theorem newline_not_mem_content (s : Bytes) : newline ∉ s.flatMap escape := by
  intro listed
  obtain ⟨c, -, inside⟩ := List.mem_flatMap.mp listed
  exact newline_not_mem_escape c inside

theorem newline_not_mem_str (s : Bytes) : newline ∉ str s := by
  have content := newline_not_mem_content s
  intro listed
  simp only [str, List.cons_append, List.mem_cons, List.mem_append, List.not_mem_nil, or_false]
    at listed
  rcases listed with first | inside | last
  · exact absurd first (by decide)
  · exact content inside
  · exact absurd last (by decide)

theorem newline_not_mem_scalar (v : Scalar) : newline ∉ v.text := by
  by_cases string : ∃ s, v = .str s
  · obtain ⟨s, rfl⟩ := string
    exact newline_not_mem_str s
  · intro listed
    exact word_ne ((word_scalar fun s same => string ⟨s, same⟩).2 _ listed) (by decide) rfl

def Call.CutAtEnd : Call → Prop
  | .field _ (.str s) => EndsWithComma s
  | _ => False

instance : DecidablePred Call.CutAtEnd
  | .field _ (.str s) => inferInstanceAs (Decidable (EndsWithComma s))
  | .field _ (.int64 _) | .field _ (.uint64 _) | .field _ (.double _ _) | .field _
      (.boolean _) | .field _ .null
  | .fieldBuilt _ _ | .object _ _ | .array _ _ | .rawArray _ _ => isFalse id

def Call.cutText (indent depth : Nat) : Call → Bytes
  | .field key (.str s) =>
      if EndsWithComma s then quote :: (s.dropLast.flatMap escape ++ [newline])
      else (Call.field key (.str s)).valueText indent depth
  | call => call.valueText indent depth

theorem Call.cutAtEnd_iff {call : Call} :
    call.CutAtEnd ↔ ∃ key s, call = .field key (.str s) ∧ EndsWithComma s := by
  constructor
  · intro cut
    unfold Call.CutAtEnd at cut
    split at cut
    · exact ⟨_, _, rfl, cut⟩
    · cases cut
  · rintro ⟨key, s, rfl, ends⟩
    exact ends

theorem Call.cutText_of_uncut {call : Call} (uncut : ¬ call.CutAtEnd) (indent depth : Nat) :
    call.cutText indent depth = call.valueText indent depth := by
  unfold Call.cutText
  split
  next s => exact if_neg uncut
  · rfl

theorem getLast?_escape (c : UInt8) : (escape c).getLast? = some comma ↔ c = comma := by
  unfold escape
  split_ifs with h1 h2 h3 h4 h5
  · exact iff_of_false (by decide) (by rw [h1]; decide)
  · exact iff_of_false (by decide) (by rw [h2]; decide)
  · exact iff_of_false (by decide) (by rw [h3]; decide)
  · exact iff_of_false (by decide) (by rw [h4]; decide)
  · exact iff_of_false (by decide) (by rw [h5]; decide)
  · simp

theorem escape_ne_nil (c : UInt8) : escape c ≠ [] := by
  unfold escape
  split_ifs <;> simp

theorem dropComma_str (s : Bytes) :
    dropComma (space :: str s) =
      space :: (if EndsWithComma s then quote :: (s.dropLast.flatMap escape ++ [newline])
        else str s) := by
  have shape : space :: str s = (space :: quote :: s.flatMap escape) ++ [quote] := rfl
  rw [shape, dropComma_concat]
  rcases List.eq_nil_or_concat' s with rfl | ⟨front, c, rfl⟩
  · rfl
  · have content : space :: quote :: (front ++ [c]).flatMap escape =
        (space :: quote :: front.flatMap escape) ++ escape c := by simp
    have last : (space :: quote :: (front ++ [c]).flatMap escape).getLast? =
        (escape c).getLast? := by
      rw [content, List.getLast?_append_of_ne_nil _ (escape_ne_nil c)]
    have ends : EndsWithComma (front ++ [c]) ↔ c = comma := by simp [EndsWithComma]
    simp only [last, getLast?_escape, ends]
    split
    next same =>
      subst same
      have plain : escape comma = [comma] := by decide
      rw [content, plain, List.dropLast_concat, List.dropLast_concat]
      rfl
    · rfl

theorem Built.text_getLast? (obj : Built) : obj.text.getLast? = some closeBrace := by
  obtain ⟨indent, depth, calls⟩ := obj
  cases calls with
  | nil =>
      rw [Built.text_nil]
      rfl
  | cons call calls =>
      rw [Built.text_cons, ← List.append_assoc, List.getLast?_concat]

theorem bracketed_getLast? (closePad : Bytes) (lines : List Bytes) :
    (bracketed closePad lines).getLast? = some closeBracket := by
  cases lines with
  | nil => rfl
  | cons line lines =>
      rw [bracketed_cons, ← List.append_assoc, ← List.cons_append,
        ← List.cons_append, List.getLast?_concat]

theorem not_endsWithComma_append {a b : Bytes} (first : ¬ EndsWithComma a)
    (last : ¬ EndsWithComma b) :
    ¬ EndsWithComma (a ++ b) := by
  unfold EndsWithComma at *
  rw [List.getLast?_append]
  cases found : b.getLast? with
  | none => exact first
  | some c => exact fun same => last (found.trans same)

theorem not_endsWithComma_of_getLast? {t : Bytes} {c : UInt8}
    (last : t.getLast? = some c) (other : c ≠ comma) :
    ¬ EndsWithComma t := by
  intro ends
  rw [EndsWithComma, last] at ends
  exact other (Option.some.inj ends)

theorem not_endsWithComma_spaces (n : Nat) : ¬ EndsWithComma (spaces n) := fun ends =>
  absurd (List.eq_of_mem_replicate (List.mem_of_getLast? ends)) (by decide)

theorem Call.not_endsWithComma (indent depth : Nat) (call : Call) :
    ¬ EndsWithComma (call.valueText indent depth) := by
  have brace (obj : Built) : ¬ EndsWithComma obj.text :=
    not_endsWithComma_of_getLast? obj.text_getLast? (by decide)
  have bracket (closePad : Bytes) (lines : List Bytes) : ¬ EndsWithComma
      (bracketed closePad lines) :=
    not_endsWithComma_of_getLast? (bracketed_getLast? closePad lines) (by decide)
  cases call with
  | field key value =>
      by_cases string : ∃ s, value = .str s
      · obtain ⟨s, rfl⟩ := string
        exact not_endsWithComma_of_getLast? (c := quote) List.getLast?_concat (by decide)
      · intro last
        have word := (word_scalar fun s same => string ⟨s, same⟩).2 _ (List.mem_of_getLast? last)
        exact word_ne word (by decide) rfl
  | fieldBuilt key obj => exact brace obj
  | object key calls => exact brace _
  | array key items => exact bracket _ _
  | rawArray key objs => exact bracket _ _

theorem not_endsWithComma_callsText (indent depth : Nat) (calls : List Call) :
    ¬ EndsWithComma (callsText indent depth calls) := by
  induction calls with
  | nil => exact nofun
  | cons call calls ih =>
      have key : ¬ EndsWithComma (keyText indent depth call.key) :=
        not_endsWithComma_append (not_endsWithComma_append (not_endsWithComma_spaces _)
          (not_endsWithComma_of_getLast? (c := quote) List.getLast?_concat (by decide))) (by decide)
      exact not_endsWithComma_append
        (not_endsWithComma_append key (call.not_endsWithComma indent depth)) ih

theorem not_endsWithComma_itemLines (lines : List Bytes) : ¬ EndsWithComma (itemLines lines) := by
  have line : newline ≠ comma := by decide
  induction lines with
  | nil => exact nofun
  | cons item rest ih =>
      cases rest with
      | nil => exact not_endsWithComma_of_getLast? List.getLast?_concat line
      | cons next rest =>
          refine not_endsWithComma_append (not_endsWithComma_of_getLast? (c := newline) ?_ line) ih
          simp

theorem dropComma_built (obj : Built) : dropComma (space :: obj.text) = space :: obj.text := by
  obtain ⟨indent, depth, calls⟩ := obj
  cases calls with
  | nil =>
      rw [Built.text_nil]
      decide
  | cons call calls =>
      have opened : ¬ EndsWithComma [openBrace, newline] := by decide
      have before : ¬ EndsWithComma
          (space :: (dropComma (openBrace :: newline :: callsText indent depth (call :: calls)) ++
          spaces (depth * indent))) := by
        refine not_endsWithComma_append (a := [space]) (by decide) ?_
        refine not_endsWithComma_append (getLast?_dropComma ?_) (not_endsWithComma_spaces _)
        exact not_endsWithComma_append opened
          (not_endsWithComma_callsText indent depth (call :: calls))
      rw [Built.text_cons, ← List.append_assoc, ← List.cons_append, dropComma_concat]
      exact if_neg before

theorem dropComma_bracketed (n : Nat) (lines : List Bytes) :
    dropComma (space :: bracketed (spaces n) lines) = space :: bracketed (spaces n) lines := by
  cases lines with
  | nil =>
      rw [bracketed_nil]
      decide
  | cons line lines =>
      have before : ¬ EndsWithComma
          ([space, openBracket, newline] ++ (itemLines (line :: lines) ++ spaces n)) :=
        not_endsWithComma_append (by decide)
          (not_endsWithComma_append (not_endsWithComma_itemLines _) (not_endsWithComma_spaces n))
      have shape : space :: bracketed (spaces n) (line :: lines) =
          ([space, openBracket, newline] ++ (itemLines (line :: lines) ++ spaces n)) ++
            [closeBracket] := by
        simp [bracketed_cons]
      rw [shape, dropComma_concat]
      exact if_neg before

theorem dropComma_value (indent depth : Nat) (call : Call) :
    dropComma (space :: call.valueText indent depth) = space :: call.cutText indent depth := by
  have scalar (key : Bytes) (value : Scalar) (other : ∀ s, value ≠ .str s) :
      dropComma (space :: (Call.field key value).valueText indent depth) =
        space :: (Call.field key value).valueText indent depth := by
    refine dropComma_of_not_mem fun listed => ?_
    rcases List.mem_cons.mp listed with first | inside
    · exact absurd first (by decide)
    · exact word_ne ((word_scalar other).2 _ inside) (by decide) rfl
  cases call with
  | field key value =>
      cases value with
      | str s => exact dropComma_str s
      | int64 v => exact scalar key _ nofun
      | uint64 v => exact scalar key _ nofun
      | double v prec => exact scalar key _ nofun
      | boolean v => exact scalar key _ nofun
      | null => exact scalar key _ nofun
  | fieldBuilt key obj => exact dropComma_built obj
  | object key calls => exact dropComma_built _
  | array key items => exact dropComma_bracketed _ _
  | rawArray key objs => exact dropComma_bracketed _ _

def bodyText (indent depth : Nat) : List Call → Bytes
  | [] => []
  | [call] => keyText indent depth call.key ++ call.cutText indent depth
  | call :: next :: calls =>
      keyText indent depth call.key ++ call.valueText indent depth ++
        bodyText indent depth (next :: calls)

theorem Call.valueText_ne_nil (indent depth : Nat) (call : Call) :
    call.valueText indent depth ≠ [] := by
  have built (obj : Built) : obj.text ≠ [] := by
    intro none
    have last := obj.text_getLast?
    rw [none] at last
    cases last
  have array (closePad : Bytes) (lines : List Bytes) : bracketed closePad lines ≠ [] := by
    intro none
    have last := bracketed_getLast? closePad lines
    rw [none] at last
    cases last
  cases call with
  | field key value =>
      by_cases string : ∃ s, value = .str s
      · obtain ⟨s, rfl⟩ := string
        exact List.cons_ne_nil _ _
      · exact (word_scalar fun s same => string ⟨s, same⟩).1
  | fieldBuilt key obj => exact built obj
  | object key calls => exact built _
  | array key items => exact array _ _
  | rawArray key objs => exact array _ _

theorem dropComma_callsText (front : Bytes) (indent depth : Nat) (call : Call) (calls : List Call) :
    dropComma (front ++ callsText indent depth (call :: calls)) =
      front ++ bodyText indent depth (call :: calls) := by
  induction calls generalizing front call with
  | nil =>
      have shape : front ++ callsText indent depth [call] =
          (front ++ spaces ((depth + 1) * indent) ++ str call.key ++ [colon]) ++
            space :: call.valueText indent depth := by
        simp [callsText, keyText_eq]
      have long : 2 ≤ (space :: call.valueText indent depth).length := by
        have nonempty := List.length_pos_iff.mpr (call.valueText_ne_nil indent depth)
        rw [List.length_cons]
        omega
      rw [shape, dropComma_append _ long, dropComma_value]
      simp [bodyText, keyText_eq]
  | cons next calls ih =>
      have shape : front ++ callsText indent depth (call :: next :: calls) =
          (front ++ keyText indent depth call.key ++ call.valueText indent depth) ++
            callsText indent depth (next :: calls) := by
        simp [callsText]
      rw [shape, ih]
      simp [bodyText]

theorem Built.text_eq (indent depth : Nat) (call : Call) (calls : List Call) :
    (Built.mk indent depth (call :: calls)).text =
      openBrace :: newline ::
        (bodyText indent depth (call :: calls) ++ (spaces (depth * indent) ++ [closeBrace])) := by
  have cleaned := dropComma_callsText [openBrace, newline] indent depth call calls
  simp only [List.cons_append, List.nil_append] at cleaned
  rw [Built.text_cons, cleaned]
  rfl

theorem expand_spaces (m n : Nat) : expand m (spaces n) = spaces n :=
  expand_of_not_mem (newline_not_mem_spaces n)

theorem expand_scalar (n : Nat) (v : Scalar) : expand n v.text = v.text :=
  expand_of_not_mem (newline_not_mem_scalar v)

theorem expand_keyText (n indent depth : Nat) (key : Bytes) :
    expand n (keyText indent depth key) = keyText indent depth key := by
  have tail : expand n [colon, space] = [colon, space] := rfl
  rw [keyText_eq, expand_append, expand_append, expand_spaces,
    expand_of_not_mem (newline_not_mem_str key), tail]

theorem expand_text_nil (n indent depth : Nat) :
    expand n (Built.mk indent depth []).text = [openBrace, closeBrace] := by
  rw [Built.text_nil]
  rfl

theorem expand_text_cons (n indent depth : Nat) (call : Call) (calls : List Call) :
    expand n (Built.mk indent depth (call :: calls)).text =
      openBrace :: newline :: (spaces n ++ (expand n (bodyText indent depth (call :: calls)) ++
        (spaces (depth * indent) ++ [closeBrace]))) := by
  have brace : expand n [closeBrace] = [closeBrace] := rfl
  rw [Built.text_eq, expand_cons n (by decide), expand_newline, expand_append,
    expand_append, expand_spaces, brace]

theorem expand_bodyText_single (n indent depth : Nat) (call : Call) :
    expand n (bodyText indent depth [call]) =
      keyText indent depth call.key ++ expand n (call.cutText indent depth) := by
  rw [bodyText, expand_append, expand_keyText]

theorem expand_bodyText_cons (n indent depth : Nat) (call next : Call) (calls : List Call) :
    expand n (bodyText indent depth (call :: next :: calls)) =
      keyText indent depth call.key ++ (expand n (call.valueText indent depth) ++
        expand n (bodyText indent depth (next :: calls))) := by
  rw [bodyText, expand_append, expand_append, expand_keyText, List.append_assoc]

theorem expand_bracketed (n m : Nat) (line : Bytes) (lines : List Bytes) :
    expand n (bracketed (spaces m) (line :: lines)) =
      openBracket :: newline ::
        (spaces n ++ (expand n (itemLines (line :: lines)) ++ (spaces m ++ [closeBracket]))) := by
  have bracket : expand n [closeBracket] = [closeBracket] := rfl
  rw [bracketed_cons, expand_cons n (by decide), expand_newline, expand_append,
    expand_append, expand_spaces, bracket]

theorem expand_itemLines_single (n : Nat) (line : Bytes) :
    expand n (itemLines [line]) = expand n line ++ newline :: spaces n := by
  rw [itemLines, expand_append, expand_newline, expand_nil, List.append_nil]

theorem itemLines_cons (line next : Bytes) (lines : List Bytes) :
    itemLines (line :: next :: lines) = line ++ [comma, newline] ++ itemLines (next :: lines) := rfl

theorem expand_itemLines_cons (n : Nat) (line next : Bytes) (lines : List Bytes) :
    expand n (itemLines (line :: next :: lines)) =
      expand n line ++ comma :: newline :: (spaces n ++ expand n (itemLines (next :: lines))) := by
  rw [itemLines_cons, expand_append, expand_append, expand_cons n (by decide),
    expand_newline, expand_nil]
  simp

theorem expand_scalarLine (n m : Nat) (v : Scalar) :
    expand n (spaces m ++ v.text) = spaces m ++ v.text := by
  rw [expand_append, expand_spaces, expand_scalar]

theorem expand_builtLine (n m : Nat) (obj : Built) :
    expand n (indentLines (spaces m) obj.text) = spaces m ++ expand (n + m) obj.text := by
  have last := obj.text_getLast?
  have nonempty : obj.text ≠ [] := by
    intro none
    rw [none] at last
    cases last
  rw [indentLines_eq m nonempty (by rw [last]; decide), expand_append, expand_spaces, expand_expand]

theorem isWs_of_word {c : UInt8} (word : isWord c = true) : isWs c = false := by
  have other : c ≠ space ∧ c ≠ 9 ∧ c ≠ newline ∧ c ≠ 13 :=
    ⟨word_ne word (by decide), word_ne word (by decide), word_ne word (by decide),
      word_ne word (by decide)⟩
  simp [isWs, other]

theorem skipWs_spaces (n : Nat) (t : Bytes) : skipWs (spaces n ++ t) = skipWs t := by
  refine List.dropWhile_append_of_pos fun c listed => ?_
  rw [List.eq_of_mem_replicate listed]
  rfl

theorem text_head (n : Nat) (obj : Built) : ∃ rest, expand n obj.text = openBrace :: rest := by
  obtain ⟨indent, depth, calls⟩ := obj
  cases calls with
  | nil => exact ⟨_, expand_text_nil n indent depth⟩
  | cons call calls => exact ⟨_, expand_text_cons n indent depth call calls⟩

theorem bracketed_head (n m : Nat) (lines : List Bytes) :
    ∃ rest, expand n (bracketed (spaces m) lines) = openBracket :: rest := by
  cases lines with
  | nil => exact ⟨_, rfl⟩
  | cons line lines => exact ⟨_, expand_bracketed n m line lines⟩

theorem value_head (n indent depth : Nat) (call : Call) :
    (∃ key s, call = .field key (.str s)) ∨
    ∃ c rest, expand n (call.valueText indent depth) = c :: rest ∧ c ≠ quote ∧
      c ≠ closeBracket ∧ isWs c = false := by
  have brace (obj : Built) : ∃ c rest, expand n obj.text = c :: rest ∧ c ≠ quote ∧
      c ≠ closeBracket ∧ isWs c = false := by
    obtain ⟨rest, same⟩ := text_head n obj
    exact ⟨openBrace, rest, same, by decide, by decide, by decide⟩
  have bracket (m : Nat) (lines : List Bytes) :
      ∃ c rest, expand n (bracketed (spaces m) lines) = c :: rest ∧ c ≠ quote ∧
        c ≠ closeBracket ∧ isWs c = false := by
    obtain ⟨rest, same⟩ := bracketed_head n m lines
    exact ⟨openBracket, rest, same, by decide, by decide, by decide⟩
  cases call with
  | field key value =>
      by_cases string : ∃ s, value = .str s
      · obtain ⟨s, rfl⟩ := string
        exact Or.inl ⟨key, s, rfl⟩
      · obtain ⟨nonempty, words⟩ := word_scalar fun s same => string ⟨s, same⟩
        refine Or.inr ?_
        rw [Call.valueText, expand_scalar]
        cases text : value.text with
        | nil => exact absurd text nonempty
        | cons c rest =>
            have word := words c (text ▸ List.mem_cons_self)
            exact ⟨c, rest, rfl, word_ne word (by decide),
              word_ne word (by decide), isWs_of_word word⟩
  | fieldBuilt key obj => exact Or.inr (brace obj)
  | object key calls => exact Or.inr (brace _)
  | array key items => exact Or.inr (bracket _ _)
  | rawArray key objs => exact Or.inr (bracket _ _)

end Json
end LocalPC.Offline
