import LocalPC.Offline.JsonLoops
import LocalPC.Offline.Manifest

namespace LocalPC.Offline
open Lib LocalPC.Runtime JsonParser
open Json (str)

def place (text : Bytes) : TextPlace := jsonMarks.scan (.outside 0) text

/-- No bracket that the text opens is closed by its last one: only white space is outside of all. -/
def Unclosed (cut : Bytes) : Prop := ∀ p, p <+: cut → place p = .outside 0 → Blank p

instance (t : Bytes) : Decidable (Blank t) := inferInstanceAs (Decidable (∀ c ∈ t, isWs c = true))

instance (cut : Bytes) : Decidable (Unclosed cut) :=
  decidable_of_iff
    (∀ n < cut.length + 1, place (cut.take n) = .outside 0 → Blank (cut.take n)) <| by
    constructor
    · intro each p part outside
      rw [List.prefix_iff_eq_take.mp part] at outside ⊢
      exact each p.length (Nat.lt_succ_of_le part.length_le) outside
    · exact fun unclosed n _ => unclosed _ (List.take_prefix n cut)

def OpensOnly (cut : Bytes) : Prop :=
  ∃ before after, cut = before ++ openBrace :: after ∧ Blank before ∧ Blank after

/-- The text ends with a separator of the outermost level. -/
def EndsAtComma (cut : Bytes) : Prop := ∃ front, cut = front ++ [comma] ∧ place front = .outside 1

namespace JsonParser
open Json (skipWs_of_peek)

def EndsAtSeparator (depth : Nat) (text : Bytes) : Prop :=
  ∃ front, text = front ++ [comma] ∧ jsonMarks.scan (.outside depth) front = .outside depth

theorem endsAtSeparator_append {start : TextPlace} {depth : Nat} {u y : Bytes} (nonempty : y ≠ [])
    (returns : jsonMarks.scan start u = .outside depth) :
    (∃ front, u ++ y = front ++ [comma] ∧ jsonMarks.scan start front = .outside depth) ↔
      EndsAtSeparator depth y := by
  constructor
  · rintro ⟨front, same, there⟩
    obtain ⟨y', last, rfl⟩ := (List.eq_nil_or_concat y).resolve_left nonempty
    rw [List.concat_eq_append, ← List.append_assoc] at same
    obtain ⟨rfl, lastEq⟩ := List.append_inj' same rfl
    rw [Marks.scan_append, returns] at there
    exact ⟨y', by rw [List.concat_eq_append, lastEq], there⟩
  · rintro ⟨front, rfl, there⟩
    exact ⟨u ++ front, by rw [List.append_assoc], by rw [Marks.scan_append, returns, there]⟩

namespace Loop
variable {β σ : Type} {loop : Loop β σ} {size fuel : Nat} {state : σ}
  {start behind : Bytes} {v : JsonValue}

theorem run_cut_iff (elements : loop.ElementsRead size fuel)
    (read : loop.run size fuel start state = .ok (v, behind)) {k : Bytes}
    (part : k <+: start) (nonempty : k ≠ [])
    (unclosed : ∀ p, p <+: k → jsonMarks.scan (.outside 1) p ≠ .outside 0) {size' fuel' : Nat}
    {state' : σ} (enough : loop.run size' fuel' k state' ≠ .error .outOfFuel) :
    (∃ e, loop.run size' fuel' k state' = .error e) ↔ ¬ EndsAtSeparator 1 k := by
  induction fuel generalizing start state k fuel' state' with
  | zero => cases read
  | succ fuel ih =>
      rcases round_reads elements read with ⟨rfl, -⟩ |
          ⟨b, w, ws, sep, rest, rfl, -, blank, item, consumes, ending⟩
      · exact absurd (List.prefix_nil.mp part) nonempty
      cases fuel' with
      | zero => exact absurd rfl enough
      | succ fuel' =>
          have ends : sep = comma ∨ sep = loop.closing := ending.imp And.left And.left
          rcases run_start (consumes size' fuel') blank ends part nonempty state'
              with ⟨early, failed⟩ | ⟨y, rfl, after, result⟩
          · refine iff_of_true failed ?_
            rintro ⟨front, rfl, there⟩
            exact item.unsplit 1 front early there
          replace result := result.resolve_left enough
          rw [result] at enough ⊢
          rcases ending with ⟨rfl, more⟩ | ⟨rfl, -, -⟩
          · have returns : jsonMarks.scan (.outside 1) (w ++ ws ++ [comma]) = .outside 1 := by
              rw [Marks.scan_append, item.returns]
              rfl
            rw [if_pos rfl] at enough ⊢
            by_cases empty : y = []
            · subst empty
              cases fuel' with
              | zero => exact absurd rfl enough
              | succ fuel' => exact iff_of_false nofun (not_not.mpr ⟨w ++ ws, rfl, item.returns 1⟩)
            · have shifted :=
                @endsAtSeparator_append (.outside 1) 1 (w ++ ws ++ [comma]) y empty returns
              rw [show w ++ ws ++ [comma] ++ y = w ++ ws ++ comma :: y by simp] at shifted
              rw [EndsAtSeparator, shifted]
              refine ih (fun f less => elements f (less.trans (Nat.lt_succ_self fuel))) more after
                empty (fun p within => ?_) enough
              have whole : w ++ ws ++ [comma] ++ p <+: w ++ ws ++ comma :: y := by
                rw [List.append_assoc _ [comma]]
                exact (List.prefix_append_right_inj _).mpr (List.cons_prefix_cons.mpr ⟨rfl, within⟩)
              have free := unclosed _ whole
              rwa [Marks.scan_append, returns] at free
          · have closed : w ++ ws ++ [loop.closing] <+: w ++ ws ++ loop.closing :: y :=
              (List.prefix_append_right_inj _).mpr
                (List.cons_prefix_cons.mpr ⟨rfl, List.nil_prefix⟩)
            refine absurd ?_ (unclosed _ closed)
            rw [Marks.scan_append, item.returns, Marks.scan_cons,
              Marks.step_closes loop.closing_cases.2.2.2.2.1 loop.closing_cases.2.2.2.2.2,
                Marks.scan_nil]

end Loop

def parseDocument (size fuel : Nat) (rest : Bytes) : Parsing (JsonValue × Bytes) :=
  if peek (skipWs rest) = closeBrace then .ok (.object [], (skipWs rest).tail)
  else memberLoop.run size fuel (skipWs rest) []

theorem jsonParse_openBrace {ws : Bytes} (blank : Blank ws) (t : Bytes) :
    ∃ size fuel, jsonParse (ws ++ openBrace :: t) = (parseDocument size fuel t).map Prod.fst := by
  have start : skipWs (ws ++ openBrace :: t) = openBrace :: t := by
    rw [skipWs_blank blank]
    exact skipWs_of_peek rfl
  refine ⟨(ws ++ openBrace :: t).length, 3 * (ws ++ openBrace :: t).length + 1, ?_⟩
  rw [jsonParse, start, parseValue_openBrace, parseObject_eq, enclosed_cons]
  rfl

theorem parseArray_array {size fuel : Nat} {start behind : Bytes} {v : JsonValue}
    (read : parseArray size fuel start = .ok (v, behind)) : ∃ items, v = .array items := by
  cases fuel with
  | zero => cases read
  | succ fuel =>
      rcases parseArray_ok read with ⟨rfl, -⟩ | found
      · exact ⟨_, rfl⟩
      · exact parseItems_array found

theorem object_text {text : Bytes} {obj : List (Bytes × JsonValue)}
    (read : jsonParse text = .ok (.object obj)) :
    ∃ ws t, text = ws ++ openBrace :: t ∧ Blank ws := by
  obtain ⟨behind, found⟩ := jsonParse_ok read
  obtain ⟨ws, blank, split⟩ := skipWs_split text
  rcases parseValue_cases found (isWs_peek_skipWs text) with ⟨s, -, same⟩ | ⟨first, -⟩ |
      ⟨-, array⟩ | ⟨-, number⟩ | ⟨word, listed, -⟩
  · cases same
  · exact ⟨ws, _, by rw [← cons_of_peek first (by decide)]; exact split, blank⟩
  · obtain ⟨items, same⟩ := parseArray_array array
    cases same
  · rcases convert_ok (parseNumber_ok number).2 with ⟨d, same⟩ | ⟨i, same⟩ <;> cases same
  · simp [keywords] at listed

theorem map_error_iff {α β : Type} {run : Parsing α} {f : α → β} :
    (∃ e, run.map f = .error e) ↔ ∃ e, run = .error e := by
  cases run with
  | error e => exact iff_of_true ⟨e, rfl⟩ ⟨e, rfl⟩
  | ok a => exact iff_of_false nofun nofun

theorem memberLoop_elementsRead (size fuel : Nat) : memberLoop.ElementsRead size fuel :=
  fun f _ start behind entry =>
    @memberLoop_reads size f start behind (parseValue_reads size f) entry

end JsonParser

theorem blank_of_opensOnly {ws t : Bytes} (blank : Blank ws)
    (opens : OpensOnly (ws ++ openBrace :: t)) : Blank t := by
  obtain ⟨before, after, same, blank', blank''⟩ := opens
  have both := congrArg skipWs same
  rw [skipWs_blank blank, skipWs_blank blank'] at both
  cases both
  exact blank''

theorem place_opened {ws ws' : Bytes} (blank : Blank ws) (blank' : Blank ws') :
    place (ws ++ openBrace :: ws') = .outside 1 := by
  rw [place, Marks.scan_append, (Loop.item_blank blank).returns, Marks.scan_cons]
  exact (Loop.item_blank blank').returns 1

theorem unclosed_of_nested {ws inner : Bytes} (blank : Blank ws) (nested : jsonMarks.Nested inner) :
    Unclosed (ws ++ openBrace :: inner) := by
  intro p part outside
  rcases Marks.inside_or_behind part with ⟨early, -⟩ | ⟨q, rfl, late⟩
  · exact blank.start early
  by_cases empty : q = []
  · rw [empty, List.append_nil]
    exact blank
  · have deep := nested.deeper (by decide) (by decide) 0 late empty
    rw [place, Marks.scan_append, (Loop.item_blank blank).returns] at outside
    rw [outside] at deep
    exact absurd deep (by decide)

theorem unclosed_or_closing_brace {text : Bytes} {obj : List (Bytes × JsonValue)}
    (read : jsonParse text = .ok (.object obj)) :
    Unclosed text ∨ ∃ front behind, text = front ++ closeBrace :: behind ∧
      ∀ cut, cut <+: text → (Unclosed cut ↔ cut <+: front) := by
  obtain ⟨ws, t, rfl, blank⟩ := object_text read
  obtain ⟨ws', blank', split⟩ := skipWs_split t
  have closing {inner behind : Bytes} (nested : jsonMarks.Nested inner)
      (same : skipWs t = inner ++ closeBrace :: behind) :
      ∃ front behind, ws ++ openBrace :: t = front ++ closeBrace :: behind ∧
        ∀ cut, cut <+: ws ++ openBrace :: t → (Unclosed cut ↔ cut <+: front) := by
    have whole := unclosed_of_nested blank ((Loop.item_blank blank').toNested.append nested)
    have text : ws ++ openBrace :: t =
        ws ++ openBrace :: (ws' ++ inner) ++ closeBrace :: behind := by
      rw [split, same]
      simp
    refine ⟨_, behind, text,
      fun cut part => ⟨fun unclosed => ?_, fun early p within => whole p (within.trans early)⟩⟩
    rw [text] at part
    rcases Marks.inside_or_behind part with ⟨early, -⟩ | ⟨q, rfl, late⟩
    · exact early
    rcases List.prefix_cons_iff.mp late with rfl | ⟨q, rfl, -⟩
    · rw [List.append_nil]
    · have there : place (ws ++ openBrace :: (ws' ++ inner) ++ [closeBrace]) = .outside 0 := by
        rw [← List.cons_append, ← List.append_assoc, place, Marks.scan_append, Marks.scan_append,
          show jsonMarks.scan (.outside 0) (ws ++ openBrace :: ws') =
            _ from place_opened blank blank', nested.returns]
        rfl
      have within : ws ++ openBrace :: (ws' ++ inner) ++ [closeBrace] <+:
          ws ++ openBrace :: (ws' ++ inner) ++ closeBrace :: q :=
        (List.prefix_append_right_inj _).mpr (List.cons_prefix_cons.mpr ⟨rfl, List.nil_prefix⟩)
      exact absurd (unclosed _ within there openBrace (by simp)) (by decide)
  obtain ⟨size, fuel, run⟩ := jsonParse_openBrace blank t
  rw [run] at read
  unfold parseDocument at read
  split_ifs at read with closed
  · exact .inr (closing Marks.Nested.nil (cons_of_peek closed (by decide)))
  · cases document : memberLoop.run size fuel (skipWs t) [] with
    | error e =>
        rw [document] at read
        cases read
    | ok found =>
        rcases Loop.run_reads (memberLoop_elementsRead size fuel) document with ⟨-, nested⟩ |
            ⟨inner, same, -, nested, -⟩
        · refine .inl ?_
          rw [split]
          exact unclosed_of_nested blank ((Loop.item_blank blank').toNested.append nested)
        · exact .inr (closing nested same)

theorem Unclosed.inside {ws ws' k : Bytes} (blank : Blank ws) (blank' : Blank ws')
    (unclosed : Unclosed (ws ++ openBrace :: ws' ++ k)) :
    ∀ p, p <+: k → jsonMarks.scan (.outside 1) p ≠ .outside 0 := by
  intro p part closed
  have there : place (ws ++ openBrace :: ws' ++ p) = .outside 0 := by
    rw [place, Marks.scan_append, show jsonMarks.scan (.outside 0) (ws ++ openBrace :: ws') =
      _ from place_opened blank blank', closed]
  have white := unclosed _ ((List.prefix_append_right_inj _).mpr part) there
  exact absurd (white openBrace (by simp)) (by decide)

theorem document_cut_iff {ws ws' k m : Bytes} {size fuel : Nat} {v : JsonValue} {behind : Bytes}
    (blank : Blank ws) (blank' : Blank ws') (printed : isWs (peek m) = false)
    (read : parseDocument size fuel (ws' ++ m) = .ok (v, behind)) (part : k <+: m)
    (nonempty : k ≠ []) (unclosed : Unclosed (ws ++ openBrace :: ws' ++ k)) :
    (∃ e, jsonParse (ws ++ openBrace :: (ws' ++ k)) = .error e) ↔ ¬ EndsAtSeparator 1 k := by
  have inside := unclosed.inside blank blank'
  have first := peek_start part nonempty
  have start : skipWs (ws' ++ m) = m := by
    rw [skipWs_blank blank']
    exact Json.skipWs_of_peek printed
  have start' : skipWs (ws' ++ k) = k := by
    rw [skipWs_blank blank']
    exact Json.skipWs_of_peek (by rwa [first])
  have open_ : peek m ≠ closeBrace := by
    rw [← first]
    intro closed
    have head : [closeBrace] <+: k := by
      rw [cons_of_peek closed (by decide)]
      exact List.cons_prefix_cons.mpr ⟨rfl, List.nil_prefix⟩
    exact inside _ head rfl
  obtain ⟨size', fuel', run⟩ := jsonParse_openBrace blank (ws' ++ k)
  have total := jsonParse_ne_outOfFuel (ws ++ openBrace :: (ws' ++ k))
  rw [parseDocument, start, if_neg open_] at read
  rw [run, parseDocument, start', first, if_neg open_] at total
  rw [run, map_error_iff, parseDocument, start', first, if_neg open_]
  refine Loop.run_cut_iff
    (memberLoop_elementsRead size fuel) read part nonempty inside fun failed => ?_
  rw [failed] at total
  exact total rfl

theorem blank_cut_iff {cut : Bytes} (white : Blank cut) :
    (∃ e, jsonParse cut = .error e) ↔ ¬ (OpensOnly cut ∨ EndsAtComma cut) := by
  refine iff_of_true ?_ ?_
  · rw [jsonParse, skipWs_of_blank white, parseValue_nil]
    exact ⟨_, rfl⟩
  · rintro (⟨before, after, rfl, -, -⟩ | ⟨front, rfl, -⟩)
    · exact absurd (white openBrace (by simp)) (by decide)
    · exact absurd (white comma (by simp)) (by decide)

theorem opened_cut_iff {ws c : Bytes} (blank : Blank ws) (white : Blank c) :
    (∃ e, jsonParse (ws ++ openBrace :: c) = .error e) ↔
      ¬ (OpensOnly (ws ++ openBrace :: c) ∨ EndsAtComma (ws ++ openBrace :: c)) := by
  refine iff_of_false ?_ (not_not.mpr (.inl ⟨ws, c, rfl, blank, white⟩))
  rintro ⟨e, failed⟩
  obtain ⟨size, fuel, run⟩ := jsonParse_openBrace blank c
  have total := jsonParse_ne_outOfFuel (ws ++ openBrace :: c)
  rw [run, parseDocument, skipWs_of_blank white, if_neg (show peek [] ≠ closeBrace by decide)]
    at total failed
  cases fuel with
  | zero => exact total rfl
  | succ fuel => cases failed

theorem not_opensOnly {ws ws' k : Bytes} (blank : Blank ws) (nonempty : k ≠ [])
    (printed : isWs (peek k) = false) :
    ¬ OpensOnly (ws ++ openBrace :: (ws' ++ k)) := by
  intro opens
  have white := blank_of_opensOnly blank opens
  cases k with
  | nil => exact nonempty rfl
  | cons d k =>
      have black := white d (by simp)
      rw [show isWs d = false from printed] at black
      cases black

/-- A cut of an object text that has not closed the object is rejected exactly when it is neither an
opening brace alone nor cut right behind a separator of the outermost object. -/
theorem cut_rejected_iff {text cut : Bytes} {obj : List (Bytes × JsonValue)}
    (read : jsonParse text = .ok (.object obj)) (part : cut <+: text) (unclosed : Unclosed cut) :
    (∃ e, jsonParse cut = .error e) ↔ ¬ (OpensOnly cut ∨ EndsAtComma cut) := by
  obtain ⟨ws, t, rfl, blank⟩ := object_text read
  rcases Marks.inside_or_behind part with ⟨before, -⟩ | ⟨q, rfl, late⟩
  · exact blank_cut_iff (blank.start before)
  rcases List.prefix_cons_iff.mp late with rfl | ⟨c, rfl, inside⟩
  · exact blank_cut_iff (by rw [List.append_nil]; exact blank)
  obtain ⟨ws', blank', split⟩ := skipWs_split t
  rw [split] at inside
  rcases Marks.inside_or_behind inside with ⟨before, -⟩ | ⟨k, rfl, behind⟩
  · exact opened_cut_iff blank (blank'.start before)
  by_cases empty : k = []
  · subst empty
    exact opened_cut_iff blank (by rw [List.append_nil]; exact blank')
  have printed := isWs_peek_skipWs t
  obtain ⟨size, fuel, run⟩ := jsonParse_openBrace blank t
  rw [run] at read
  cases document : parseDocument size fuel t with
  | error e =>
      rw [document] at read
      cases read
  | ok found =>
      have whole : ws ++ openBrace :: ws' ++ k = ws ++ openBrace :: (ws' ++ k) := by
        simp
      rw [split] at document
      rw [document_cut_iff blank blank' printed document behind empty (by rwa [whole])]
      have separator : EndsAtComma (ws ++ openBrace :: (ws' ++ k)) ↔ EndsAtSeparator 1 k := by
        rw [← whole]
        exact endsAtSeparator_append empty (place_opened blank blank')
      have notOpen : ¬ OpensOnly (ws ++ openBrace :: (ws' ++ k)) :=
        not_opensOnly blank empty (not_start_of_peek rfl behind printed)
      rw [separator, or_iff_right notOpen]

def wholeManifest : Bytes :=
  openBrace :: (str (ascii "session_id") ++ colon :: (str (ascii "s1") ++ comma ::
    (str (ascii "packet_count") ++ colon :: [55, closeBrace])))

def cutManifest : Bytes :=
  openBrace :: (str (ascii "session_id") ++ colon :: (str (ascii "s1") ++ [comma]))

def cutDir : Dir := AList.singleton manifestName cutManifest

theorem parseEntry_str {size fuel : Nat} (key t : Bytes) :
    parseEntry size fuel (str key ++ colon :: t) = (do
    let (value, rest) ← parseValue size fuel (skipWs t)
    return ((key, value), rest)) := by
  have first : skipWs (str key ++ colon :: t) = str key ++ colon :: t := Json.skipWs_of_peek rfl
  unfold parseEntry
  rw [first, Json.parseString_str]
  rfl

theorem memberLoop_str {size fuel : Nat} (key value t : Bytes) (obj : List (Bytes × JsonValue)) :
    memberLoop.run size (fuel + 2) (str key ++ colon :: (str value ++ comma :: t)) obj =
      memberLoop.run size (fuel + 1) t (insertKey key (.string value) obj) := by
  have second : skipWs (str value ++ comma :: t) = str value ++ comma :: t :=
    Json.skipWs_of_peek rfl
  have element : memberLoop.element size (fuel + 1)
      (str key ++ colon :: (str value ++ comma :: t)) =
      .ok ((key, .string value), comma :: t) := by
    show parseEntry size (fuel + 1) _ = _
    rw [parseEntry_str, second, Json.str_append, Json.parseValue_quote,
      ← Json.str_append, Json.parseString_str]
    rfl
  rw [Loop.run_some (by simp), element]
  rfl

theorem jsonParse_wholeManifest :
    jsonParse wholeManifest =
      .ok (.object
        [(ascii "packet_count", .int 7), (ascii "session_id", .string (ascii "s1"))]) := by
  have start : skipWs wholeManifest = wholeManifest := Json.skipWs_of_peek rfl
  have element (size fuel : Nat) : memberLoop.element size (fuel + 1)
      (str (ascii "packet_count") ++ colon :: [55, closeBrace]) =
      .ok ((ascii "packet_count", .int 7), [closeBrace]) := by
    show parseEntry size (fuel + 1) _ = _
    rw [parseEntry_str]
    rfl
  obtain ⟨fuel, enough⟩ : ∃ fuel, 3 * wholeManifest.length + 3 = fuel + 5 := ⟨_, rfl⟩
  rw [jsonParse, start, enough]
  generalize wholeManifest.length = size
  rw [wholeManifest, parseValue_openBrace, parseObject_eq, enclosed_cons,
    Json.skipWs_of_peek (by rfl), if_neg (by decide), memberLoop_str,
      Loop.run_some (by simp), element]
  rfl

theorem jsonParse_cutManifest :
    jsonParse cutManifest = .ok (.object [(ascii "session_id", .string (ascii "s1"))]) := by
  have start : skipWs cutManifest = cutManifest := Json.skipWs_of_peek rfl
  obtain ⟨fuel, enough⟩ : ∃ fuel, 3 * cutManifest.length + 3 = fuel + 4 := ⟨_, rfl⟩
  rw [jsonParse, start, enough]
  generalize cutManifest.length = size
  rw [cutManifest, parseValue_openBrace, parseObject_eq, enclosed_cons,
    Json.skipWs_of_peek (by rfl), if_neg (by decide), memberLoop_str]
  rfl

section
set_option maxRecDepth 4000

theorem droppedBrace_rejected : ∃ e, jsonParse wholeManifest.dropLast = .error e := by
  have unclosed : Unclosed wholeManifest.dropLast := by decide
  refine (cut_rejected_iff jsonParse_wholeManifest ( List.dropLast_prefix _) unclosed).mpr ?_
  rintro (opens | ⟨front, same, -⟩)
  · have white := @blank_of_opensOnly [] _ (fun c mem => absurd mem List.not_mem_nil) opens
    exact absurd (white quote List.mem_cons_self) (by decide)
  · have last := congrArg List.getLast? same
    rw [List.getLast?_concat] at last
    exact absurd last (by decide)

theorem cutManifest_read :
    jsonParse wholeManifest =
      .ok (.object [(ascii "packet_count", .int 7), (ascii "session_id", .string (ascii "s1"))]) ∧
      cutManifest <+: wholeManifest ∧ cutManifest ≠ wholeManifest ∧ Unclosed cutManifest ∧
        jsonParse cutManifest = .ok (.object [(ascii "session_id", .string (ascii "s1"))]) ∧
          EgoManifest.fromJson [] cutDir manifestName = .ok { sessionId := ascii "s1" } := by
  refine ⟨jsonParse_wholeManifest, ?_, by decide, by decide, jsonParse_cutManifest, ?_⟩
  · exact ⟨str (ascii "packet_count") ++ colon :: [55, closeBrace], rfl⟩
  · have found : cutDir.lookup manifestName = some cutManifest := AList.lookup_insert ∅
    rw [EgoManifest.fromJson, found]
    dsimp only
    rw [jsonParse_cutManifest]
    rfl

end

end LocalPC.Offline
