import LocalPC.Offline.JsonText

namespace LocalPC.Offline
open Lib JsonParser

namespace Json

def AfterColon (t : Bytes) : Prop :=
  ∀ s behind, parseString (skipWs t) = .ok (s, behind) → EndsWithComma s →
    peek (skipWs behind) ≠ comma ∧ peek (skipWs behind) ≠ closeBrace

/-- The text from a place outside strings on: what follows its colons, and what a string would be
that starts there. -/
structure Sealed (t : Bytes) : Prop where
  colons : ∀ u, colon :: u <:+ t → AfterColon u
  gap : ∀ s behind, stringBody t = .ok (s, behind) → ¬ EndsWithComma s

def isInert (c : UInt8) : Bool := c ≠ quote && c ≠ backslash && c ≠ colon && c ≠ comma

theorem isInert_iff {c : UInt8} :
    isInert c = true ↔ c ≠ quote ∧ c ≠ backslash ∧ c ≠ colon ∧ c ≠ comma := by
  simp [isInert, and_assoc]

theorem afterColon_of_peek {t : Bytes} (other : peek (skipWs t) ≠ quote) : AfterColon t := by
  intro s behind read
  obtain ⟨body, same, -⟩ := parseString_ok read
  rw [same] at other
  exact absurd rfl other

theorem skipWs_cons_ws {c : UInt8} (ws : isWs c = true) (t : Bytes) : skipWs (c :: t) = skipWs t :=
  List.dropWhile_cons_of_pos ws

theorem afterColon_ws {c : UInt8} (ws : isWs c = true) {t : Bytes} (after : AfterColon t) :
    AfterColon (c :: t) := by
  unfold AfterColon
  rw [skipWs_cons_ws ws]
  exact after

theorem Sealed.nil : Sealed [] where
  colons := fun _ suffix => by simp at suffix
  gap := nofun

theorem colons_cons {c : UInt8} {t : Bytes} (later : ∀ u, colon :: u <:+ t → AfterColon u)
    (here : c = colon → AfterColon t) : ∀ u, colon :: u <:+ c :: t → AfterColon u := by
  intro u suffix
  rcases List.suffix_cons_iff.mp suffix with same | inside
  · cases same
    exact here rfl
  · exact later u inside

theorem gap_cons {c : UInt8} {t : Bytes} (unquoted : c ≠ quote) (unescaped : c ≠ backslash)
    (later : ∀ s behind, stringBody t = .ok (s, behind) → ¬ EndsWithComma s)
    (here : c = comma → ∀ behind, stringBody t ≠ .ok ([], behind)) :
    ∀ s behind, stringBody (c :: t) = .ok (s, behind) → ¬ EndsWithComma s := by
  intro s behind read
  rw [stringBody_plain unquoted unescaped, appendChar_ok_iff] at read
  obtain ⟨out, inner, rfl⟩ := read
  cases out with
  | nil =>
      intro ends
      exact here (by simpa [EndsWithComma] using ends) behind inner
  | cons d out =>
      have same : EndsWithComma (c :: d :: out) ↔ EndsWithComma (d :: out) := by
        simp [EndsWithComma]
      rw [same]
      exact later _ _ inner

theorem Sealed.cons {c : UInt8} {t : Bytes} (inert : isInert c = true)
    (rest : Sealed t) : Sealed (c :: t) := by
  obtain ⟨unquoted, unescaped, noColon, noComma⟩ := isInert_iff.mp inert
  exact ⟨colons_cons rest.colons fun same => absurd same noColon,
    gap_cons unquoted unescaped rest.gap fun same => absurd same noComma⟩

theorem Sealed.append {front t : Bytes} (inert : ∀ c ∈ front, isInert c = true) (rest : Sealed t) :
    Sealed (front ++ t) := by
  induction front with
  | nil => exact rest
  | cons c front ih =>
      exact (ih fun d listed => inert d (List.mem_cons_of_mem _ listed)).cons
        (inert c List.mem_cons_self)

theorem Sealed.spaces (n : Nat) {t : Bytes} (rest : Sealed t) : Sealed (spaces n ++ t) :=
  rest.append fun c listed => by
    rw [List.eq_of_mem_replicate listed]
    decide

theorem Sealed.separator {t : Bytes} (rest : Sealed t) : Sealed (comma :: newline :: t) := by
  have line : Sealed (newline :: t) := rest.cons (by decide)
  refine ⟨colons_cons line.colons fun same => absurd same (by decide),
    gap_cons (by decide) (by decide) line.gap fun _ behind read => ?_⟩
  rw [stringBody_plain (by decide) (by decide), appendChar_ok_iff] at read
  obtain ⟨out, -, same⟩ := read
  cases same

theorem Sealed.colon {t : Bytes} (after : AfterColon t) (rest : Sealed t) : Sealed (colon :: t) :=
  ⟨colons_cons rest.colons fun _ => after,
    gap_cons (by decide) (by decide) rest.gap fun same => absurd same (by decide)⟩

theorem escape_cases (c : UInt8) :
    (∃ e, e ≠ colon ∧ escape c = [backslash, e]) ∨
    (escape c = [c] ∧ c ≠ quote ∧ (isWs c = true → c = space)) := by
  unfold escape
  split_ifs with h1 h2 h3 h4 h5
  · exact Or.inl ⟨quote, by decide, rfl⟩
  · exact Or.inl ⟨backslash, by decide, rfl⟩
  · exact Or.inl ⟨110, by decide, rfl⟩
  · exact Or.inl ⟨114, by decide, rfl⟩
  · exact Or.inl ⟨116, by decide, rfl⟩
  · refine Or.inr ⟨rfl, h1, fun ws => ?_⟩
    simp only [isWs, Bool.or_eq_true, decide_eq_true_eq] at ws
    tauto

theorem afterColon_content (s : Bytes) {t : Bytes} (after : AfterColon t) :
    AfterColon (s.flatMap escape ++ t) := by
  induction s with
  | nil => exact after
  | cons c s ih =>
      rw [List.flatMap_cons, List.append_assoc]
      rcases escape_cases c with ⟨e, -, escaped⟩ | ⟨plain, unquoted, blank⟩
      · rw [escaped]
        exact afterColon_of_peek (show backslash ≠ quote by decide)
      · rw [plain]
        by_cases ws : isWs c = true
        · exact afterColon_ws ws ih
        · refine afterColon_of_peek ?_
          rw [List.cons_append, skipWs_of_peek (by simpa [peek] using ws)]
          exact unquoted

theorem colons_content (s : Bytes) {t : Bytes} (after : AfterColon t)
    (later : ∀ u, colon :: u <:+ t → AfterColon u) :
    ∀ u, colon :: u <:+ s.flatMap escape ++ t → AfterColon u := by
  induction s with
  | nil => exact later
  | cons c s ih =>
      rw [List.flatMap_cons, List.append_assoc]
      rcases escape_cases c with ⟨e, noColon, escaped⟩ | ⟨plain, -, -⟩
      · rw [escaped]
        exact colons_cons (colons_cons ih fun same => absurd same noColon) fun same =>
          absurd same (by decide)
      · rw [plain]
        exact colons_cons ih fun _ => afterColon_content s after

theorem gap_quote (t : Bytes) :
    ∀ s behind, stringBody (quote :: t) = .ok (s, behind) → ¬ EndsWithComma s := by
  intro s behind read
  rw [stringBody_quote] at read
  cases read
  exact nofun

theorem Sealed.afterColon_quote {t : Bytes} (rest : Sealed t) : AfterColon (quote :: t) := by
  intro s behind read ends
  exact absurd ends (rest.gap s behind read)

theorem Sealed.str (s : Bytes) {t : Bytes} (rest : Sealed t) : Sealed (str s ++ t) := by
  rw [str_append]
  refine ⟨colons_cons (colons_content s rest.afterColon_quote ?_) fun same =>
    absurd same (by decide), gap_quote _⟩
  exact colons_cons rest.colons fun same => absurd same (by decide)

theorem Sealed.cut (s : Bytes) {t : Bytes} (rest : Sealed t) (outside : peek (skipWs t) ≠ quote) :
    Sealed (quote :: (s.flatMap escape ++ newline :: t)) := by
  have after : AfterColon (newline :: t) := afterColon_ws rfl (afterColon_of_peek outside)
  have line : Sealed (newline :: t) := rest.cons (by decide)
  exact ⟨colons_cons (colons_content s after line.colons) fun same =>
    absurd same (by decide), gap_quote _⟩

theorem prependText_ok {s : Bytes} {later : Parsing (Bytes × Bytes)} {out behind : Bytes}
    (read : prependText s later = .ok (out, behind)) :
    ∃ found, later = .ok (found, behind) ∧ out = s ++ found := by
  cases later with
  | error e => cases read
  | ok pair =>
      cases read
      exact ⟨_, rfl, rfl⟩

theorem afterColon_cut (s : Bytes) {t : Bytes} (rest : Sealed t) :
    AfterColon (quote :: (s.flatMap escape ++ newline :: t)) := by
  intro out behind read ends
  have line : Sealed (newline :: t) := rest.cons (by decide)
  have body : stringBody (s.flatMap escape ++ newline :: t) = .ok (out, behind) := read
  rw [stringBody_content] at body
  obtain ⟨found, inner, rfl⟩ := prependText_ok body
  have nonempty : found ≠ [] := by
    rintro rfl
    rw [stringBody_plain (by decide) (by decide), appendChar_ok_iff] at inner
    obtain ⟨more, -, same⟩ := inner
    cases same
  rw [EndsWithComma, List.getLast?_append_of_ne_nil _ nonempty] at ends
  exact absurd ends (line.gap found behind inner)

theorem isInert_of_word {c : UInt8} (word : isWord c = true) : isInert c = true :=
  isInert_iff.mpr
    ⟨word_ne word (by decide), word_ne word (by decide), word_ne word (by decide),
      word_ne word (by decide)⟩

theorem sealed_scalar (v : Scalar) {t : Bytes} (rest : Sealed t) : Sealed (v.text ++ t) := by
  by_cases string : ∃ s, v = .str s
  · obtain ⟨s, rfl⟩ := string
    exact rest.str s
  · exact rest.append fun c listed =>
      isInert_of_word ((word_scalar fun s same => string ⟨s, same⟩).2 c listed)

theorem sealed_key (indent depth : Nat) (key : Bytes) {t : Bytes} (rest : Sealed t)
    (after : AfterColon t) :
    Sealed (keyText indent depth key ++ t) := by
  rw [keyText_eq, List.append_assoc, List.append_assoc]
  refine Sealed.spaces _ (Sealed.str key ?_)
  exact Sealed.colon (afterColon_ws rfl after) (rest.cons (by decide))

theorem sealed_itemLines {n : Nat} {lines : List Bytes}
    (each : ∀ line ∈ lines, ∀ t, Sealed t → Sealed (expand n line ++ t))
    {t : Bytes} (rest : Sealed t) :
    Sealed (expand n (itemLines lines) ++ t) := by
  have line : isInert newline = true := by decide
  induction lines with
  | nil => exact rest
  | cons first lines ih =>
      cases lines with
      | nil =>
          rw [expand_itemLines_single, List.append_assoc, List.cons_append]
          exact each first List.mem_cons_self _ ((Sealed.spaces n rest).cons line)
      | cons next lines =>
          have later := ih fun l listed => each l (List.mem_cons_of_mem _ listed)
          rw [expand_itemLines_cons, List.append_assoc, List.cons_append,
            List.cons_append, List.append_assoc]
          exact each first List.mem_cons_self _ (Sealed.spaces n later).separator

theorem sealed_bracketed {n m : Nat} {lines : List Bytes}
    (each : ∀ line ∈ lines, ∀ t, Sealed t → Sealed (expand n line ++ t))
    {t : Bytes} (rest : Sealed t) :
    Sealed (expand n (bracketed (spaces m) lines) ++ t) := by
  have line : isInert newline = true := by decide
  have closed : Sealed (closeBracket :: t) := rest.cons (by decide)
  cases lines with
  | nil => exact closed.cons (by decide)
  | cons first lines =>
      rw [expand_bracketed]
      simp only [List.cons_append, List.append_assoc, List.nil_append]
      exact ((Sealed.spaces n (sealed_itemLines each (Sealed.spaces m closed))).cons line).cons
        (by decide)

theorem sealed_text {n indent depth : Nat} {calls : List Call}
    (body : ∀ t, Sealed t → peek (skipWs t) = closeBrace →
      Sealed (expand n (bodyText indent depth calls) ++ t))
    {t : Bytes} (rest : Sealed t) : Sealed (expand n (Built.mk indent depth calls).text ++ t) := by
  have closed : Sealed (closeBrace :: t) := rest.cons (by decide)
  cases calls with
  | nil =>
      rw [expand_text_nil]
      exact closed.cons (by decide)
  | cons call calls =>
      have ending : peek (skipWs (spaces (depth * indent) ++ closeBrace :: t)) = closeBrace := by
        rw [skipWs_spaces]
        rfl
      rw [expand_text_cons]
      simp only [List.cons_append, List.append_assoc, List.nil_append]
      exact ((Sealed.spaces n (body _ (Sealed.spaces _ closed) ending)).cons (by decide)).cons
        (by decide)

theorem afterColon_value {n indent depth : Nat} {call : Call} {t : Bytes}
    (ending : call.CutAtEnd → peek (skipWs t) = quote) :
    AfterColon (expand n (call.valueText indent depth) ++ t) := by
  rcases value_head n indent depth call with ⟨key, s, rfl⟩ | ⟨c, rest, same, unquoted, -, printed⟩
  · intro found behind read ends
    change parseString (skipWs (expand n (str s) ++ t)) = _ at read
    rw [expand_of_not_mem (newline_not_mem_str s), skipWs_of_peek (by rfl), parseString_str] at read
    cases read
    rw [ending ends]
    decide
  · refine afterColon_of_peek ?_
    have start : skipWs (c :: (rest ++ t)) = c :: (rest ++ t) := skipWs_of_peek printed
    rw [same, List.cons_append, start]
    exact unquoted

theorem peek_keyText (indent depth : Nat) (key t : Bytes) :
    peek (skipWs (keyText indent depth key ++ t)) = quote := by
  rw [keyText_eq, List.append_assoc, List.append_assoc, skipWs_spaces, str_append]
  rfl

theorem peek_bodyText (n indent depth : Nat) (call : Call) (calls : List Call) (t : Bytes) :
    peek (skipWs (expand n (bodyText indent depth (call :: calls)) ++ t)) = quote := by
  cases calls with
  | nil =>
      rw [expand_bodyText_single, List.append_assoc]
      exact peek_keyText _ _ _ _
  | cons next calls =>
      rw [expand_bodyText_cons, List.append_assoc]
      exact peek_keyText _ _ _ _

mutual

theorem Call.sealed : (call : Call) → (n indent depth : Nat) → (t : Bytes) → Sealed t →
    Sealed (expand n (call.valueText indent depth) ++ t)
  | .field _ value, n, _, _, _, rest => by
      rw [Call.valueText, expand_scalar]
      exact sealed_scalar value rest
  | .fieldBuilt _ obj, n, _, _, t, rest => obj.sealed n t rest
  | .object _ calls, n, indent, depth, _, rest =>
      sealed_text
        (fun t closed ending => calls_sealed calls n indent (depth + 1) t closed ending) rest
  | .array _ items, n, indent, depth, _, rest => by
      refine sealed_bracketed ?_ rest
      intro line listed t inner
      obtain ⟨item, -, rfl⟩ := List.mem_map.mp listed
      rw [expand_scalarLine, List.append_assoc]
      exact Sealed.spaces _ (sealed_scalar item inner)
  | .rawArray _ objs, n, indent, depth, _, rest => by
      refine sealed_bracketed ?_ rest
      intro line listed t inner
      obtain ⟨obj, member, rfl⟩ := List.mem_map.mp listed
      rw [expand_builtLine, List.append_assoc]
      exact Sealed.spaces _ (objs_sealed objs obj member _ t inner)

theorem calls_sealed : (calls : List Call) → (n indent depth : Nat) → (t : Bytes) → Sealed t →
    peek (skipWs t) = closeBrace → Sealed (expand n (bodyText indent depth calls) ++ t)
  | [], _, _, _, _, rest, _ => rest
  | [call], n, indent, depth, t, rest, ending => by
      rw [expand_bodyText_single, List.append_assoc]
      by_cases cut : call.CutAtEnd
      · have outside : peek (skipWs (spaces n ++ t)) ≠ quote := by
          rw [skipWs_spaces, ending]
          decide
        obtain ⟨key, s, rfl, ends⟩ := Call.cutAtEnd_iff.mp cut
        have text : expand n ((Call.field key (.str s)).cutText indent depth) =
            quote :: (s.dropLast.flatMap escape ++ newline :: spaces n) := by
          rw [Call.cutText, if_pos ends, expand_cons n (by decide), expand_append, expand_newline,
            expand_of_not_mem (newline_not_mem_content _), expand_nil, List.append_nil]
        rw [text]
        simp only [List.cons_append, List.append_assoc]
        exact sealed_key _ _ _ (Sealed.cut _ (Sealed.spaces n rest) outside)
          (afterColon_cut _ (Sealed.spaces n rest))
      · rw [Call.cutText_of_uncut cut]
        exact sealed_key _ _ _ (call.sealed n indent depth t rest)
          (afterColon_value fun cut' => absurd cut' cut)
  | call :: next :: calls, n, indent, depth, t, rest, ending => by
      rw [expand_bodyText_cons, List.append_assoc, List.append_assoc]
      have later := calls_sealed (next :: calls) n indent depth t rest ending
      exact sealed_key _ _ _ (call.sealed n indent depth _ later)
        (afterColon_value fun _ => peek_bodyText n indent depth next calls t)

theorem Built.sealed :
    (obj : Built) → (n : Nat) → (t : Bytes) → Sealed t → Sealed (expand n obj.text ++ t)
  | .mk indent depth calls, n, _, rest =>
      sealed_text (fun t closed ending => calls_sealed calls n indent depth t closed ending) rest

theorem objs_sealed :
    (objs : List Built) → ∀ obj ∈ objs, ∀ n t, Sealed t → Sealed (expand n obj.text ++ t)
  | [], _, member, _, _, _ => absurd member List.not_mem_nil
  | first :: objs, obj, member, n, t, rest => by
      rcases List.mem_cons.mp member with same | later
      · rw [same]
        exact first.sealed n t rest
      · exact objs_sealed objs obj later n t rest

end

inductive CommaMember : JsonValue → Prop
  | here {obj : List (Bytes × JsonValue)} {key s : Bytes} :
      (key, .string s) ∈ obj → EndsWithComma s → CommaMember (.object obj)
  | member {obj : List (Bytes × JsonValue)} {key : Bytes} {v : JsonValue} :
      (key, v) ∈ obj → CommaMember v → CommaMember (.object obj)
  | item {arr : List JsonValue} {v : JsonValue} : v ∈ arr → CommaMember v → CommaMember (.array arr)

theorem skipWs_skipWs (t : Bytes) : skipWs (skipWs t) = skipWs t := by
  induction t with
  | nil => rfl
  | cons c t ih =>
      by_cases ws : isWs c = true
      · rw [skipWs_cons_ws ws, ih]
      · have start : skipWs (c :: t) = c :: t := skipWs_of_peek (by simpa [peek] using ws)
        rw [start, start]

theorem sealed_invariant {t : Bytes} (rest : Sealed t) :
    Invariant t (fun v => ¬ CommaMember v)
      (fun v => ¬ CommaMember v ∧ ∀ s, v = .string s → ¬ EndsWithComma s) where
  scalar := by
    intro v scalar comma
    cases comma <;> exact scalar
  string := fun s comma => nomatch comma
  array := by
    intro arr none comma
    cases comma with
    | item listed inner => exact none _ listed inner
  object := by
    intro obj none comma
    cases comma with
    | here listed ends => exact (none _ _ listed).2 _ rfl ends
    | member listed inner => exact (none _ _ listed).1 inner
  member := by
    intro size fuel after v behind around read ending good
    refine ⟨good, ?_⟩
    rintro s rfl ends
    have found := parseValue_string read
    rw [skipWs_skipWs] at found
    have other := rest.colons after around s behind found ends
    rcases ending with comma | brace
    · exact other.1 comma
    · exact other.2 brace

theorem jsonParse_text_not_commaMember {obj : Built} {v : JsonValue}
    (read : jsonParse obj.text = .ok v) :
    ¬ CommaMember v := by
  have whole : Sealed obj.text := by
    have expanded := obj.sealed 0 [] Sealed.nil
    rwa [expand_zero, List.append_nil] at expanded
  obtain ⟨behind, found⟩ := jsonParse_ok read
  exact ((parse_holds (sealed_invariant whole) _).1 _ (skipWs_suffix _) v behind found).1

end Json
end LocalPC.Offline
