import LocalPC.Offline.JsonStarts

namespace LocalPC.Offline
open Lib

namespace JsonParser
open Json (skipWs_of_peek)

structure Loop (β σ : Type) where
  element : Nat → Nat → Bytes → Parsing (β × Bytes)
  closing : UInt8
  missing : JsonError
  value : σ → JsonValue
  add : σ → β → σ
  closes : closing = closeBrace ∨ closing = closeBracket

namespace Loop
variable {β σ : Type} (loop : Loop β σ)

/-- A text that ends where an element is expected ends the loop. -/
def run (size : Nat) : Nat → Bytes → σ → Parsing (JsonValue × Bytes)
  | 0, _, _ => .error .outOfFuel
  | fuel + 1, rest, state =>
      if rest = [] then .ok (loop.value state, rest)
      else do
        let (b, rest) ← loop.element size fuel rest
        let rest := skipWs rest
        if peek rest = comma then run size fuel rest.tail (loop.add state b)
        else if peek rest = loop.closing then .ok (loop.value (loop.add state b), rest.tail)
        else .error loop.missing

variable {loop} {size fuel : Nat} {w ws rest behind : Bytes} {sep : UInt8} {b : β} {state : σ}

theorem closing_cases (loop : Loop β σ) :
    isDelimiter loop.closing = true ∧ isWs loop.closing = false ∧ loop.closing ≠ comma ∧
    loop.closing ≠ 0 ∧ loop.closing ≠ quote ∧ jsonMarks.opens loop.closing = false ∧
      jsonMarks.closes loop.closing = true := by
  rcases loop.closes with closing | closing
  all_goals
    rw [closing]
    decide

theorem run_nil (state : σ) : loop.run size (fuel + 1) [] state = .ok (loop.value state, []) := rfl

theorem run_some {start : Bytes} (nonempty : start ≠ []) (state : σ) :
    loop.run size (fuel + 1) start state = (do
      let (b, rest) ← loop.element size fuel start
      let rest := skipWs rest
      if peek rest = comma then loop.run size fuel rest.tail (loop.add state b)
      else if peek rest = loop.closing then .ok (loop.value (loop.add state b), rest.tail)
      else .error loop.missing) := by
  rw [run, if_neg nonempty]

theorem nil_of_run_nil {v : JsonValue} (read : loop.run size fuel [] state = .ok (v, rest)) :
    rest = [] := by
  cases fuel with
  | zero => cases read
  | succ fuel =>
      rw [run_nil] at read
      cases read
      rfl

theorem run_ok {start : Bytes} {v : JsonValue}
    (read : loop.run size (fuel + 1) start state = .ok (v, behind)) :
    (start = [] ∧ behind = []) ∨
    ∃ b afterElement sep rest, start ≠ [] ∧ loop.element size fuel start = .ok (b, afterElement) ∧
      skipWs afterElement = sep :: rest ∧
      ((sep = comma ∧ loop.run size fuel rest (loop.add state b) = .ok (v, behind)) ∨
        (sep = loop.closing ∧ v = loop.value (loop.add state b) ∧ behind = rest)) := by
  unfold run at read
  split at read
  next empty =>
    cases read
    exact .inl ⟨empty, empty⟩
  next nonempty =>
    obtain ⟨⟨b, afterElement⟩, found, read⟩ := bind_ok read
    dsimp only at read
    refine .inr ⟨b, afterElement, peek (skipWs afterElement),
      (skipWs afterElement).tail, nonempty, found, ?_⟩
    split_ifs at read with more last
    · exact ⟨cons_of_peek rfl (by rw [more]; decide), .inl ⟨more, read⟩⟩
    · cases read
      exact ⟨cons_of_peek rfl (by rw [last]; exact loop.closing_cases.2.2.2.1),
        .inr ⟨last, rfl, rfl⟩⟩

theorem run_of_element {q : Bytes} (nonempty : q ≠ [])
    (read : loop.element size fuel q = .ok (b, rest)) (state : σ) :
    loop.run size (fuel + 1) q state =
      if peek (skipWs rest) = comma then loop.run size fuel (skipWs rest).tail (loop.add state b)
      else if peek (skipWs rest) = loop.closing then
        .ok (loop.value (loop.add state b), (skipWs rest).tail)
      else .error loop.missing := by
  rw [run_some nonempty, read]
  rfl

theorem run_undelimited {q : Bytes} (nonempty : q ≠ [])
    (read : loop.element size fuel q = .ok (b, rest))
    (other : isDelimiter (peek (skipWs rest)) = false) (state : σ) :
    loop.run size (fuel + 1) q state = .error loop.missing := by
  have noComma : peek (skipWs rest) ≠ comma := by
    intro same
    rw [same] at other
    cases other
  have noClosing : peek (skipWs rest) ≠ loop.closing := by
    intro same
    rw [same, loop.closing_cases.1] at other
    cases other
  rw [run_of_element nonempty read, if_neg noComma, if_neg noClosing]

/-- One round of the loop on a start of a text in which it reads the element `w`: the start ends
before the separator, and the round fails, or the round goes on as it does on the text. -/
theorem run_start
    (element : Consumes (loop.element size fuel) w (ws ++ sep :: rest) b) (blank : Blank ws)
    (ends : sep = comma ∨ sep = loop.closing) {q : Bytes} (part : q <+: w ++ ws ++ sep :: rest)
    (nonempty : q ≠ []) (state : σ) :
    (q <+: w ++ ws ∧ ∃ e, loop.run size (fuel + 1) q state = .error e) ∨
    ∃ y, q = w ++ ws ++ sep :: y ∧ y <+: rest ∧
      (loop.run size (fuel + 1) q state = .error .outOfFuel ∨
        loop.run size (fuel + 1) q state =
          if sep = comma then loop.run size fuel y (loop.add state b)
          else .ok (loop.value (loop.add state b), y)) := by
  obtain ⟨-, printed, notComma, -, -⟩ := loop.closing_cases
  rw [List.append_assoc] at part
  rcases Marks.inside_or_behind part with ⟨early, short⟩ | ⟨y, rfl, after⟩
  · refine .inl ⟨early.trans (List.prefix_append w ws), ?_⟩
    cases read : loop.element size fuel q with
    | error e => exact ⟨e, by rw [run_some nonempty, read]; rfl⟩
    | ok found =>
        have other := element.cut q early short _ _ read
        have start : skipWs found.2 = found.2 := by
          refine skipWs_of_peek (Bool.not_eq_true _ ▸ fun ws => ?_)
          exact absurd (isDelimiter_iff.mpr (.inl ws)) (ne_true_of_eq_false other)
        exact ⟨_, run_undelimited nonempty read (start.symm ▸ other) state⟩
  have within : y <+: ws ∨ ∃ y', y = ws ++ sep :: y' ∧ y' <+: rest := by
    rcases Marks.inside_or_behind after with ⟨early, -⟩ | ⟨z, rfl, late⟩
    · exact .inl early
    · rcases List.prefix_cons_iff.mp late with rfl | ⟨y', rfl, further⟩
      · exact .inl (by rw [List.append_nil])
      · exact .inr ⟨y', rfl, further⟩
  have stopped (read : loop.element size fuel (w ++ y) = .error .outOfFuel) :
      loop.run size (fuel + 1) (w ++ y) state = .error .outOfFuel := by
    rw [run_some nonempty, read]
    rfl
  rcases within with early | ⟨y', rfl, further⟩
  · refine .inl ⟨(List.prefix_append_right_inj w).mpr early, ?_⟩
    rcases element.same y after with read | read
    · exact ⟨_, stopped read⟩
    · exact ⟨_, run_undelimited nonempty read
        (by rw [skipWs_of_blank (blank.start early)]; rfl) state⟩
  · refine .inr ⟨y', (List.append_assoc w ws _).symm, further, ?_⟩
    rcases element.same _ after with read | read
    · exact .inl (stopped read)
    · have start : skipWs (ws ++ sep :: y') = sep :: y' := by
        rw [skipWs_blank blank]
        refine skipWs_of_peek ?_
        rcases ends with rfl | rfl
        · rfl
        · exact printed
      rw [run_of_element nonempty read, start]
      rcases ends with rfl | rfl
      · exact .inr rfl
      · refine .inr ?_
        rw [if_neg notComma, if_neg (show peek (loop.closing :: y') ≠ comma from notComma)]
        exact if_pos rfl

theorem run_whole
    (element : Consumes (loop.element size fuel) w (ws ++ sep :: rest) b) (blank : Blank ws)
    (ends : sep = comma ∨ sep = loop.closing) {y : Bytes} (part : y <+: rest) (state : σ) :
    loop.run size (fuel + 1) (w ++ ws ++ sep :: y) state = .error .outOfFuel ∨
      loop.run size (fuel + 1) (w ++ ws ++ sep :: y) state =
        if sep = comma then loop.run size fuel y (loop.add state b)
        else .ok (loop.value (loop.add state b), y) := by
  have start : w ++ ws ++ sep :: y <+: w ++ ws ++ sep :: rest :=
    (List.prefix_append_right_inj _).mpr (List.cons_prefix_cons.mpr ⟨rfl, part⟩)
  rcases run_start element blank ends start (by simp) state with ⟨short, -⟩ | ⟨y', same, -, result⟩
  · have bound := short.length_le
    rw [List.length_append, List.length_cons] at bound
    omega
  · cases List.append_cancel_left same
    exact result

theorem run_short
    (element : Consumes (loop.element size fuel) w (ws ++ sep :: rest) b) (blank : Blank ws)
    (ends : sep = comma ∨ sep = loop.closing) {q : Bytes} (part : q <+: w ++ ws)
    (nonempty : q ≠ []) (state : σ) :
    ∃ e, loop.run size (fuel + 1) q state = .error e := by
  rcases run_start element blank ends
      (part.trans (List.prefix_append _ _)) nonempty state with ⟨-, failed⟩ | ⟨y, rfl, -, -⟩
  · exact failed
  · have bound := part.length_le
    rw [List.length_append, List.length_cons] at bound
    omega

/-- What the loop reads, up to its closing bracket, is nested and is read in the same way from the
starts of the text; a shorter start is read up to its end, if at all. -/
def ReadsInner (loop : Loop β σ) (start behind : Bytes) (state : σ) (v : JsonValue) : Prop :=
  ∃ inner, start = inner ++ loop.closing :: behind ∧ inner ≠ [] ∧
    jsonMarks.Nested inner ∧ ∀ size fuel,
    (∀ y, y <+: behind → Settles (loop.run size fuel (inner ++ loop.closing :: y) state) v y) ∧
    ∀ q, q <+: inner → ∀ state' v' rest, loop.run size fuel q state' = .ok (v', rest) → rest = []

def ElementsRead (loop : Loop β σ) (size fuel : Nat) : Prop :=
  ∀ f, f < fuel → ∀ start behind b, loop.element size f start = .ok (b, behind) →
    isDelimiter (peek behind) = true →
    ReadsPart loop.element start behind b

theorem item_blank (blank : Blank ws) : jsonMarks.Item ws := by
  refine Marks.Item.of_plain fun c mem => ?_
  rcases isWs_iff.mp (blank c mem) with rfl | rfl | rfl | rfl
  all_goals decide

theorem round_reads (elements : ElementsRead loop size (fuel + 1)) {start : Bytes} {v : JsonValue}
    (read : loop.run size (fuel + 1) start state = .ok (v, behind)) :
    (start = [] ∧ behind = []) ∨
    ∃ b w ws sep rest, start = w ++ ws ++ sep :: rest ∧ w ≠ [] ∧ Blank ws ∧
      jsonMarks.Item (w ++ ws) ∧
      (∀ size fuel, Consumes (loop.element size fuel) w (ws ++ sep :: rest) b) ∧
      ((sep = comma ∧ loop.run size fuel rest (loop.add state b) = .ok (v, behind)) ∨
        (sep = loop.closing ∧ v = loop.value (loop.add state b) ∧ behind = rest)) := by
  rcases run_ok read with ended | ⟨b, afterElement, sep, rest, nonempty, found, separated, ending⟩
  · exact .inl ended
  have delimiter : isDelimiter (peek afterElement) = true := by
    refine isDelimiter_of_skipWs ?_
    rw [separated]
    rcases ending.imp And.left And.left with rfl | rfl
    · rfl
    · exact loop.closing_cases.1
  obtain ⟨w, rfl, some_, item, consumes⟩ :=
    elements fuel (Nat.lt_succ_self fuel) _ _ _ found delimiter
  obtain ⟨ws, blank, split⟩ := skipWs_split afterElement
  rw [separated] at split
  subst split
  exact .inr ⟨b, w, ws, sep, rest, (List.append_assoc w ws _).symm, some_, blank,
    item.append (item_blank blank), consumes, ending⟩

theorem readsInner_last (some_ : w ≠ []) (blank : Blank ws) (item : jsonMarks.Item (w ++ ws))
    (consumes : ∀ size fuel, Consumes (loop.element size fuel) w (ws ++ loop.closing :: behind) b) :
    ReadsInner loop (w ++ ws ++ loop.closing :: behind) behind state
      (loop.value (loop.add state b)) := by
  refine ⟨w ++ ws, rfl, by simp [some_], item.toNested, fun size fuel => ⟨fun y part => ?_, ?_⟩⟩
  · cases fuel with
    | zero => exact .inl rfl
    | succ fuel =>
        have result := run_whole (consumes size fuel) blank (.inr rfl) part state
        rwa [if_neg loop.closing_cases.2.2.1] at result
  · intro q part state' v' rest' found
    by_cases empty : q = []
    · subst empty
      exact nil_of_run_nil found
    cases fuel with
    | zero => cases found
    | succ fuel =>
        obtain ⟨e, failed⟩ := run_short (consumes size fuel) blank (.inr rfl) part empty state'
        rw [failed] at found
        cases found

theorem nested_comma {inner : Bytes} (item : jsonMarks.Item w) (nested : jsonMarks.Nested inner) :
    jsonMarks.Nested (w ++ comma :: inner) := by
  have separator : jsonMarks.Nested [comma] := Marks.Nested.singleton (by decide) (by decide)
  exact item.toNested.append (separator.append nested)

theorem readsInner_more {v : JsonValue} (blank : Blank ws) (item : jsonMarks.Item (w ++ ws))
    (consumes : ∀ size fuel, Consumes (loop.element size fuel) w (ws ++ comma :: rest) b)
    (later : ReadsInner loop rest behind (loop.add state b) v) :
    ReadsInner loop (w ++ ws ++ comma :: rest) behind state v := by
  obtain ⟨inner, rfl, -, nested, same⟩ := later
  refine ⟨w ++ ws ++ comma :: inner, by simp, by simp, nested_comma item nested,
    fun size fuel => ⟨fun y part => ?_, ?_⟩⟩
  · cases fuel with
    | zero => exact .inl rfl
    | succ fuel =>
        have after : inner ++ loop.closing :: y <+: inner ++ loop.closing :: behind :=
          (List.prefix_append_right_inj _).mpr (List.cons_prefix_cons.mpr ⟨rfl, part⟩)
        rw [List.append_assoc, List.cons_append]
        rcases run_whole (consumes size fuel) blank (.inl rfl) after state with result | result
        · exact .inl result
        · rw [if_pos rfl] at result
          rw [result]
          exact (same size fuel).1 y part
  · intro q part state' v' rest' found
    by_cases empty : q = []
    · subst empty
      exact nil_of_run_nil found
    cases fuel with
    | zero => cases found
    | succ fuel =>
        have notShort (early : q <+: w ++ ws) : rest' = [] := by
          obtain ⟨e, failed⟩ := run_short (consumes size fuel) blank (.inl rfl) early empty state'
          rw [failed] at found
          cases found
        rcases Marks.inside_or_behind part with ⟨early, -⟩ | ⟨p, rfl, late⟩
        · exact notShort early
        rcases List.prefix_cons_iff.mp late with rfl | ⟨y, rfl, within⟩
        · exact notShort (by rw [List.append_nil])
        · have after : y <+: inner ++ loop.closing :: behind :=
            within.trans (List.prefix_append _ _)
          rcases run_whole (consumes size fuel) blank (.inl rfl) after state' with result | result
          · rw [result] at found
            cases found
          · rw [result, if_pos rfl] at found
            exact (same size fuel).2 y within _ _ _ found

theorem run_reads (elements : ElementsRead loop size fuel) {start : Bytes} {v : JsonValue}
    (read : loop.run size fuel start state = .ok (v, behind)) :
    (behind = [] ∧ jsonMarks.Nested start) ∨ ReadsInner loop start behind state v := by
  induction fuel generalizing start state with
  | zero => cases read
  | succ fuel ih =>
      rcases round_reads elements read with ⟨rfl, rfl⟩ |
          ⟨b, w, ws, sep, rest, rfl, some_, blank, item, consumes, ending⟩
      · exact .inl ⟨rfl, Marks.Nested.nil⟩
      rcases ending with ⟨rfl, more⟩ | ⟨rfl, rfl, rfl⟩
      · rcases ih (fun f less => elements f (less.trans (Nat.lt_succ_self fuel))) more
            with ⟨rfl, nested⟩ | later
        · exact .inl ⟨rfl, nested_comma item nested⟩
        · exact .inr (readsInner_more blank item consumes later)
      · exact .inr (readsInner_last some_ blank item consumes)

end Loop

def itemLoop : Loop JsonValue (List JsonValue) where
  element := fun size fuel rest => parseValue size fuel (skipWs rest)
  closing := closeBracket
  missing := .expectedCommaOrBracket
  value := .array
  add := fun arr v => arr ++ [v]
  closes := .inr rfl

def parseEntry (size fuel : Nat) (rest : Bytes) : Parsing ((Bytes × JsonValue) × Bytes) := do
  let (key, rest) ← parseString (skipWs rest)
  let rest := skipWs rest
  if peek rest ≠ colon then .error .expectedColon
  else
    let (value, rest) ← parseValue size fuel (skipWs rest.tail)
    return ((key, value), rest)

def memberLoop : Loop (Bytes × JsonValue) (List (Bytes × JsonValue)) where
  element := parseEntry
  closing := closeBrace
  missing := .expectedCommaOrBrace
  value := .object
  add := fun obj entry => insertKey entry.1 entry.2 obj
  closes := .inl rfl

theorem parseItems_eq (size fuel : Nat) (rest : Bytes) (arr : List JsonValue) :
    parseItems size fuel rest arr = itemLoop.run size fuel rest arr := by
  induction fuel generalizing rest arr with
  | zero => rfl
  | succ fuel ih =>
      rw [parseItems, Loop.run]
      simp only [ih]
      rfl

theorem parseMembers_eq (size fuel : Nat) (rest : Bytes) (obj : List (Bytes × JsonValue)) :
    parseMembers size fuel rest obj = memberLoop.run size fuel rest obj := by
  induction fuel generalizing rest obj with
  | zero => rfl
  | succ fuel ih =>
      rw [parseMembers, Loop.run]
      simp only [ih]
      show _ = if rest = [] then _ else parseEntry size fuel rest >>= _
      unfold parseEntry
      cases parseString (skipWs rest) with
      | error e => rfl
      | ok found =>
          simp only [bind, Except.bind]
          split_ifs
          · rfl
          · rfl
          · cases parseValue size fuel (skipWs (skipWs found.2).tail) <;> rfl

def enclosed (opening closing : UInt8) (e : JsonError) (nothing : JsonValue)
    (body : Bytes → Parsing (JsonValue × Bytes)) (rest : Bytes) : Parsing (JsonValue × Bytes) :=
  if peek rest ≠ opening then .error e
  else
    let rest := skipWs rest.tail
    if peek rest = closing then .ok (nothing, rest.tail) else body rest

section
variable {size fuel : Nat} {opening closing : UInt8} {e : JsonError} {nothing v : JsonValue}
  {body : Bytes → Parsing (JsonValue × Bytes)} {ws inner behind : Bytes}

theorem parseObject_eq (rest : Bytes) : parseObject size (fuel + 1) rest =
    enclosed openBrace closeBrace .expectedOpenBrace (.object [])
      (fun rest => memberLoop.run size fuel rest []) rest := by
  simp only [← parseMembers_eq]
  rfl

theorem parseArray_eq (rest : Bytes) : parseArray size (fuel + 1) rest =
    enclosed openBracket closeBracket .expectedOpenBracket (.array [])
      (fun rest => itemLoop.run size fuel rest []) rest := by
  simp only [← parseItems_eq]
  rfl

theorem enclosed_cons (t : Bytes) : enclosed opening closing e nothing body (opening :: t) =
    if peek (skipWs t) = closing then .ok (nothing, (skipWs t).tail)
    else body (skipWs t) := if_neg (not_not.mpr rfl)

theorem enclosed_ok {start : Bytes} (nonzero : opening ≠ 0)
    (read : enclosed opening closing e nothing body start = .ok (v, behind)) :
    ∃ t, start = opening :: t ∧
      ((peek (skipWs t) = closing ∧ behind = (skipWs t).tail ∧ v = nothing) ∨
      (peek (skipWs t) ≠ closing ∧ body (skipWs t) = .ok (v, behind))) := by
  unfold enclosed at read
  dsimp only at read
  split_ifs at read with other closed
  · cases read
    exact ⟨start.tail, cons_of_peek (not_not.mp other) nonzero, .inl ⟨closed, rfl, rfl⟩⟩
  · exact ⟨start.tail, cons_of_peek (not_not.mp other) nonzero, .inr ⟨closed, read⟩⟩

theorem enclosed_cut (nonzero : closing ≠ 0) (blank : Blank ws)
    (printed : isWs (peek inner) = false) (unclosed : peek inner ≠ closing)
    (cut : ∀ q, q <+: inner → ∀ v rest, body q = .ok (v, rest) → rest = []) {p rest : Bytes}
    (part : p <+: ws ++ inner)
    (read : enclosed opening closing e nothing body (opening :: p) = .ok (v, rest)) :
    rest = [] := by
  have start : skipWs p <+: inner := by
    rcases Marks.inside_or_behind part with ⟨early, -⟩ | ⟨q, rfl, late⟩
    · rw [skipWs_of_blank (blank.start early)]
      exact List.nil_prefix
    · rw [skipWs_blank blank, skipWs_of_peek (not_start_of_peek rfl late printed)]
      exact late
  have unclosed' : peek (skipWs p) ≠ closing := by
    have other :=
      not_start_of_peek (Q := fun c => c = closing) (decide_eq_false nonzero.symm) start
        (decide_eq_false unclosed)
    exact of_decide_eq_false other
  rw [enclosed_cons, if_neg unclosed'] at read
  exact cut _ start _ _ read

theorem enclosed_consumes (nonzero : opening ≠ 0) (nonzero' : closing ≠ 0) (blank : Blank ws)
    (printed : isWs (peek inner) = false) (unclosed : peek inner ≠ closing)
    (same : ∀ y, y <+: behind →
      Settles (enclosed opening closing e nothing body (opening :: (ws ++ (inner ++ closing :: y))))
        v y)
    (cut : ∀ q, q <+: inner → ∀ v rest, body q = .ok (v, rest) → rest = []) :
    Consumes (enclosed opening closing e nothing body)
      (opening :: (ws ++ inner) ++ [closing]) behind v := by
  refine ⟨fun y part => ?_, fun q part short v' rest read => ?_⟩
  · have settles := same y part
    rwa [show opening :: (ws ++ (inner ++ closing :: y)) =
      opening :: (ws ++ inner) ++ [closing] ++ y by simp] at settles
  · have within : q <+: opening :: (ws ++ inner) := by
      rcases Marks.inside_or_behind part with ⟨early, -⟩ | ⟨r, rfl, late⟩
      · exact early
      · rcases Marks.start_of_singleton late with rfl | rfl
        · rw [List.append_nil]
        · exact absurd rfl short
    rcases List.prefix_cons_iff.mp within with rfl | ⟨p, rfl, inside⟩
    · have failed : enclosed opening closing e nothing body [] = .error e := if_pos nonzero.symm
      rw [failed] at read
      cases read
    · rw [enclosed_cut nonzero' blank printed unclosed cut inside read]
      rfl

theorem enclosed_reads {β σ : Type} {loop : Loop β σ} {init : σ}
    {parse : Nat → Nat → Bytes → Parsing (JsonValue × Bytes)}
    (opens : opening = openBrace ∨ opening = openBracket)
    (zero : ∀ size rest, parse size 0 rest = .error .outOfFuel)
    (succ : ∀ size fuel rest,
      parse size (fuel + 1) rest = enclosed opening loop.closing e (loop.value init)
      (fun rest => loop.run size fuel rest init) rest)
    (elements : loop.ElementsRead size fuel) {start : Bytes}
    (read : parse size (fuel + 1) start = .ok (v, behind))
    (delimiter : isDelimiter (peek behind) = true) :
    ReadsPart parse start behind v := by
  obtain ⟨-, -, -, nonzero', unquoted', closes⟩ := loop.closing_cases
  have bracket : opening ≠ 0 ∧ opening ≠ quote ∧ jsonMarks.opens opening = true := by
    rcases opens with rfl | rfl <;> decide
  rw [succ] at read
  obtain ⟨t, rfl, found⟩ := enclosed_ok bracket.1 read
  obtain ⟨ws, blank, split⟩ := skipWs_split t
  have item {inner : Bytes} (nested : jsonMarks.Nested inner) : jsonMarks.Item
      (opening :: (ws ++ inner) ++ [loop.closing]) :=
    Marks.Item.bracketed bracket.2.1 bracket.2.2
      ((Loop.item_blank blank).toNested.append nested) unquoted' closes (by decide)
  have part {inner : Bytes} (nested : jsonMarks.Nested inner)
      (same : skipWs t = inner ++ loop.closing :: behind)
      (consumes : ∀ size fuel, Consumes (enclosed opening loop.closing e (loop.value init)
        (fun rest => loop.run size fuel rest init))
          (opening :: (ws ++ inner) ++ [loop.closing]) behind v) :
      ReadsPart parse (opening :: t) behind v := by
    refine ⟨opening :: (ws ++ inner) ++ [loop.closing], ?_, by simp, item nested, fun size => ?_⟩
    · rw [split, same]
      simp
    · refine consumes_of_succ (zero size) fun fuel => ?_
      rw [show parse size (fuel + 1) = _ from funext (succ size fuel)]
      exact consumes size fuel
  rcases found with ⟨closed, rfl, rfl⟩ | ⟨unclosed, inside⟩
  · refine part Marks.Nested.nil (cons_of_peek closed nonzero') fun size fuel => ?_
    refine enclosed_consumes bracket.1 nonzero' blank rfl nonzero'.symm
      (fun y _ => .inr ?_) fun q empty v rest read => ?_
    · have start : skipWs (ws ++ ([] ++ loop.closing :: y)) = loop.closing :: y := by
        rw [skipWs_blank blank]
        exact skipWs_of_peek loop.closing_cases.2.1
      rw [enclosed_cons, start]
      exact if_pos rfl
    · rw [List.prefix_nil.mp empty] at read
      exact Loop.nil_of_run_nil read
  · rcases Loop.run_reads elements inside with ⟨rfl, -⟩ | ⟨inner, same, some_, nested, reads⟩
    · cases delimiter
    have printed := isWs_peek_skipWs t
    rw [same, Json.peek_append some_] at printed unclosed
    refine part nested same fun size fuel => ?_
    refine enclosed_consumes bracket.1 nonzero' blank printed unclosed
      (fun y after => ?_) fun q early v rest => (reads size fuel).2 q early init v rest
    have start : skipWs (ws ++ (inner ++ loop.closing :: y)) = inner ++ loop.closing :: y := by
      rw [skipWs_blank blank]
      exact skipWs_of_peek (by rwa [Json.peek_append some_])
    rw [enclosed_cons, start, Json.peek_append some_, if_neg unclosed]
    exact (reads size fuel).1 y after

end

def ValuesRead (size fuel : Nat) : Prop :=
  ∀ start behind v, parseValue size fuel start = .ok (v, behind) → isWs (peek start) = false →
    isDelimiter (peek behind) = true → ReadsPart parseValue start behind v

section
variable {size fuel : Nat} {start behind : Bytes}

theorem spaced_reads (values : ValuesRead size fuel) {v : JsonValue}
    (read : parseValue size fuel (skipWs start) = .ok (v, behind))
    (delimiter : isDelimiter (peek behind) = true) :
    ReadsPart (fun size fuel rest => parseValue size fuel (skipWs rest)) start behind v := by
  have printed := isWs_peek_skipWs start
  obtain ⟨w, same, some_, item, consumes⟩ := values _ _ _ read printed delimiter
  obtain ⟨ws, blank, split⟩ := skipWs_split start
  rw [same, Json.peek_append some_] at printed
  refine ⟨ws ++ w, ?_, by simp [some_], (Loop.item_blank blank).append item,
    fun size fuel => (consumes size fuel).skipWs blank some_ printed⟩
  rw [split, same, List.append_assoc]

theorem itemLoop_reads (values : ValuesRead size fuel) {v : JsonValue}
    (read : itemLoop.element size fuel start = .ok (v, behind))
    (delimiter : isDelimiter (peek behind) = true) : ReadsPart itemLoop.element start behind v :=
  spaced_reads values read delimiter

theorem parseEntry_ok {entry : Bytes × JsonValue}
    (read : parseEntry size fuel start = .ok (entry, behind)) :
    ∃ afterKey rest, parseString (skipWs start) = .ok (entry.1, afterKey) ∧
      skipWs afterKey = colon :: rest ∧
      parseValue size fuel (skipWs rest) = .ok (entry.2, behind) := by
  unfold parseEntry at read
  obtain ⟨⟨key, afterKey⟩, keyRead, read⟩ := bind_ok read
  dsimp only at read
  split_ifs at read with other
  obtain ⟨⟨value, rest⟩, valueRead, same⟩ := bind_ok read
  cases same
  exact ⟨afterKey, _, keyRead, cons_of_peek (not_not.mp other) (by decide), valueRead⟩

theorem parseEntry_value {ws ws' key w : Bytes} (blank : Blank ws) (blank' : Blank ws')
    (same : ∀ y, parseString (quote :: w ++ y) = .ok (key, y)) (t : Bytes) :
    parseEntry size fuel (ws ++ (quote :: w ++ (ws' ++ colon :: t))) = do
      let (value, rest) ← parseValue size fuel (skipWs t)
      return ((key, value), rest) := by
  have first : skipWs (ws ++ (quote :: w ++ (ws' ++ colon :: t))) =
      quote :: w ++ (ws' ++ colon :: t) := by
    rw [skipWs_blank blank]
    exact skipWs_of_peek rfl
  have second : skipWs (ws' ++ colon :: t) = colon :: t := by
    rw [skipWs_blank blank']
    exact skipWs_of_peek rfl
  unfold parseEntry
  rw [first, same]
  simp only [bind, Except.bind]
  rw [second, if_neg (show ¬ peek (colon :: t) ≠ colon from not_not.mpr rfl)]
  rfl

theorem parseEntry_cut {ws ws' key w q : Bytes} (blank : Blank ws) (blank' : Blank ws')
    (same : ∀ y, parseString (quote :: w ++ y) = .ok (key, y))
    (cut : ∀ q, q <+: quote :: w → q ≠ quote :: w → ∃ e, parseString q = .error e)
    (part : q <+: ws ++ (quote :: w ++ ws')) : ∃ e, parseEntry size fuel q = .error e := by
  unfold parseEntry
  rcases Marks.inside_or_behind part with ⟨early, -⟩ | ⟨p, rfl, late⟩
  · rw [skipWs_of_blank (blank.start early)]
    exact ⟨.expectedQuote, rfl⟩
  have start : skipWs (ws ++ p) = p := by
    rw [skipWs_blank blank]
    exact skipWs_of_peek (not_start_of_peek rfl late rfl)
  rw [start]
  rcases Marks.inside_or_behind late with ⟨early, short⟩ | ⟨r, rfl, last⟩
  · obtain ⟨e, failed⟩ := cut p early short
    exact ⟨e, by rw [failed]; rfl⟩
  · refine ⟨.expectedColon, ?_⟩
    rw [same]
    simp only [bind, Except.bind]
    rw [skipWs_of_blank (blank'.start last)]
    rfl

theorem memberLoop_reads (values : ValuesRead size fuel) {entry : Bytes × JsonValue}
    (read : memberLoop.element size fuel start = .ok (entry, behind))
    (delimiter : isDelimiter (peek behind) = true) :
    ReadsPart memberLoop.element start behind entry := by
  obtain ⟨afterKey, rest, keyRead, colonRead, valueRead⟩ := parseEntry_ok read
  obtain ⟨key, keySplit, keyItem, same, cut⟩ := parseString_starts keyRead
  obtain ⟨ws, blank, split⟩ := skipWs_split start
  obtain ⟨ws', blank', split'⟩ := skipWs_split afterKey
  obtain ⟨w, rfl, some_, item, consumes⟩ := spaced_reads values valueRead delimiter
  rw [colonRead] at split'
  subst split'
  rw [keySplit] at split
  have colonItem : jsonMarks.Item [colon] := Marks.Item.singleton (by decide)
  have keyPart : jsonMarks.Item (ws ++ (quote :: key ++ ws')) :=
    (Loop.item_blank blank).append (keyItem.append (Loop.item_blank blank'))
  refine ⟨ws ++ (quote :: key ++ ws') ++ colon :: w, ?_, by simp, ?_,
    fun size fuel => ⟨fun y part => ?_, ?_⟩⟩
  · rw [split]
    simp
  · rw [show colon :: w = [colon] ++ w from rfl, ← List.append_assoc]
    exact (keyPart.append colonItem).append item
  · have whole : ws ++ (quote :: key ++ ws') ++ colon :: w ++ y =
        ws ++ (quote :: key ++ (ws' ++ colon :: (w ++ y))) := by
      simp
    show Settles (parseEntry size fuel _) _ _
    rw [whole, parseEntry_value blank blank' same]
    rcases (consumes size fuel).same y part with found | found
    · exact .inl (by rw [show parseValue size fuel (skipWs (w ++ y)) = _ from found]; rfl)
    · exact .inr (by rw [show parseValue size fuel (skipWs (w ++ y)) = _ from found]; rfl)
  · intro q part short b rest found
    change parseEntry size fuel q = _ at found
    have failed (early : q <+: ws ++ (quote :: key ++ ws')) : isDelimiter (peek rest) = false := by
      obtain ⟨e, failed⟩ := parseEntry_cut blank blank' same cut early
      rw [failed] at found
      cases found
    rcases Marks.inside_or_behind part with ⟨early, -⟩ | ⟨r, rfl, late⟩
    · exact failed early
    rcases List.prefix_cons_iff.mp late with rfl | ⟨p, rfl, inside⟩
    · exact failed (by rw [List.append_nil])
    · have whole : ws ++ (quote :: key ++ ws') ++ colon :: p =
          ws ++ (quote :: key ++ (ws' ++ colon :: p)) := by
        simp
      rw [whole, parseEntry_value blank blank' same] at found
      obtain ⟨⟨value, rest'⟩, valueFound, last⟩ := bind_ok found
      cases last
      exact (consumes size fuel).cut p inside (fun same => short (by rw [same])) _ _ valueFound

end

theorem value_of_enclosed {parse : Nat → Nat → Bytes → Parsing (JsonValue × Bytes)}
    {start behind : Bytes} {v : JsonValue} {opening : UInt8} (first : peek start = opening)
    (nonzero : opening ≠ 0) (reads : ReadsPart parse start behind v)
    (agree : ∀ size fuel t,
      parseValue size (fuel + 1) (opening :: t) = parse size fuel (opening :: t)) :
    ReadsPart parseValue start behind v := by
  obtain ⟨w, rfl, some_, item, consumes⟩ := reads
  rw [Json.peek_append some_] at first
  refine ⟨w, rfl, some_, item, fun size => consumes_of_succ (fun _ => rfl) fun fuel => ?_⟩
  refine (consumes size fuel).of_eq some_ (fun t _ same => ?_) ⟨_, rfl⟩
  rw [cons_of_peek (same.trans first) nonzero]
  exact agree size fuel _

theorem parseValue_reads (size fuel : Nat) : ValuesRead size fuel := by
  induction fuel using Nat.strong_induction_on with
  | h fuel ih =>
      intro start behind v read printed delimiter
      cases fuel with
      | zero => cases read
      | succ fuel =>
          rcases parseValue_cases read printed with ⟨s, found, rfl⟩ | ⟨first, found⟩ |
              ⟨first, found⟩ | ⟨first, found⟩ | ⟨word, listed, rfl⟩
          · exact parseString_reads found
          · cases fuel with
            | zero => cases found
            | succ fuel =>
                have entries (f : Nat) (less : f < fuel) (start behind : Bytes)
                    (entry : Bytes × JsonValue) :=
                  @memberLoop_reads size f start behind (ih f (by omega)) entry
                exact value_of_enclosed first (by decide)
                  (enclosed_reads (.inl rfl) (fun _ _ => rfl)
                  (fun _ _ => parseObject_eq) entries found delimiter) fun _ _ =>
                    parseValue_openBrace
          · cases fuel with
            | zero => cases found
            | succ fuel =>
                have items (f : Nat) (less : f < fuel) (start behind : Bytes) (item : JsonValue) :=
                  @itemLoop_reads size f start behind (ih f (by omega)) item
                exact value_of_enclosed first (by decide)
                  (enclosed_reads (.inr rfl) (fun _ _ => rfl)
                  (fun _ _ => parseArray_eq) items found delimiter) fun _ _ =>
                    parseValue_openBracket
          · exact parseNumber_reads first found delimiter
          · exact keyword_reads listed

end JsonParser
end LocalPC.Offline
