import LocalPC.Offline.JsonReader

namespace LocalPC.Offline
open Lib

namespace JsonParser

theorem appendChar_ok_iff {c : UInt8} {later : Parsing (Bytes × Bytes)} {out rest : Bytes} :
    appendChar c later = .ok (out, rest) ↔
      ∃ behind, later = .ok (behind, rest) ∧ out = c :: behind := by
  cases later with
  | error e => simp [appendChar, Except.map]
  | ok found =>
      obtain ⟨text, tail⟩ := found
      simp only [appendChar, Except.map, Except.ok.injEq, Prod.mk.injEq]
      constructor
      · rintro ⟨rfl, rfl⟩
        exact ⟨text, ⟨rfl, rfl⟩, rfl⟩
      · rintro ⟨behind, ⟨rfl, rfl⟩, rfl⟩
        exact ⟨rfl, rfl⟩

theorem stringBody_quote (rest : Bytes) : stringBody (quote :: rest) = .ok ([], rest) := by
  rw [stringBody.eq_def]
  exact if_pos rfl

theorem stringBody_escaped (e : UInt8) (rest : Bytes) :
    stringBody (backslash :: e :: rest) = appendChar (unescape e) (stringBody rest) := by
  rw [stringBody.eq_def]
  rfl

theorem stringBody_plain {c : UInt8} (unquoted : c ≠ quote)
    (unescaped : c ≠ backslash) (rest : Bytes) :
    stringBody (c :: rest) = appendChar c (stringBody rest) := by
  rw [stringBody.eq_def]
  simp only [if_neg unquoted, if_neg unescaped]

theorem stringBody_induct {P : Bytes → Bytes → Bytes → Prop}
    (close : ∀ rest, P (quote :: rest) [] rest) (escaped : ∀ e rest out behind, P rest out behind →
      P (backslash :: e :: rest) (unescape e :: out) behind)
    (plain : ∀ c rest out behind, c ≠ quote → c ≠ backslash → P rest out behind →
      P (c :: rest) (c :: out) behind)
    {text out behind : Bytes} (read : stringBody text = .ok (out, behind)) : P text out behind := by
  induction text using stringBody.induct generalizing out with
  | case1 => cases read
  | case2 rest =>
      rw [stringBody_quote] at read
      cases read
      exact close _
  | case3 => cases read
  | case4 e rest _ ih =>
      rw [stringBody_escaped, appendChar_ok_iff] at read
      obtain ⟨later, found, rfl⟩ := read
      exact escaped _ _ _ _ (ih found)
  | case5 c rest unquoted unescaped ih =>
      rw [stringBody_plain unquoted unescaped, appendChar_ok_iff] at read
      obtain ⟨later, found, rfl⟩ := read
      exact plain _ _ _ _ unquoted unescaped (ih found)

theorem stringBody_suffix {rest out behind : Bytes} (read : stringBody rest = .ok (out, behind)) :
    behind <:+ rest :=
  stringBody_induct (P := fun text _ behind => behind <:+ text) (fun _ => List.suffix_cons _ _)
    (fun _ _ _ _ inner => (inner.trans (List.suffix_cons _ _)).trans (List.suffix_cons _ _))
    (fun _ _ _ _ _ _ inner => inner.trans (List.suffix_cons _ _)) read

theorem parseString_quote (body : Bytes) : parseString (quote :: body) = stringBody body := rfl

theorem parseString_ok {rest out behind : Bytes} (read : parseString rest = .ok (out, behind)) :
    ∃ body, rest = quote :: body ∧ stringBody body = .ok (out, behind) := by
  unfold parseString at read
  split at read
  · cases read
  next first =>
    rw [not_not] at first
    cases rest with
    | nil => exact absurd first (by decide)
    | cons c body =>
        change c = quote at first
        exact ⟨body, by rw [first], read⟩

theorem skipWs_suffix (rest : Bytes) : skipWs rest <:+ rest := List.dropWhile_suffix _

theorem skipDigits_suffix (rest : Bytes) : skipDigits rest <:+ rest := List.dropWhile_suffix _

theorem parseString_suffix {rest out behind : Bytes} (read : parseString rest = .ok (out, behind)) :
    behind <:+ rest.tail := by
  obtain ⟨body, rfl, found⟩ := parseString_ok read
  exact stringBody_suffix found

theorem skipIf_suffix (found : UInt8 → Bool) (rest : Bytes) : skipIf found rest <:+ rest := by
  unfold skipIf
  split
  · exact List.tail_suffix rest
  · exact List.suffix_refl rest

theorem scanNumber_suffix (start : Bytes) : (scanNumber start).2 <:+ start := by
  have whole := (skipDigits_suffix _).trans (skipIf_suffix (· = minus) start)
  have fraction := (skipDigits_suffix _).trans ((skipIf_suffix (· = dot) _).trans whole)
  unfold scanNumber
  dsimp only
  split
  · exact (skipDigits_suffix _).trans
      ((skipIf_suffix _ _).trans ((List.tail_suffix _).trans fraction))
  · exact fraction

theorem parseNumber_ok {start behind : Bytes} {v : JsonValue}
    (read : parseNumber start = .ok (v, behind)) :
    behind = (scanNumber start).2 ∧
      convert (scanNumber start).1 (start.take (start.length - behind.length)) = .ok v := by
  unfold parseNumber at read
  dsimp only at read
  split at read
  next value found =>
    cases read
    exact ⟨rfl, found⟩
  · cases read

theorem convert_ok {isFloat : Bool} {tok : Bytes} {v : JsonValue}
    (read : convert isFloat tok = .ok v) :
    (∃ d, v = .double d) ∨ ∃ i, v = .int i := by
  unfold convert at read
  split at read
  · cases number : stod tok with
    | error e => simp [number, Except.map] at read
    | ok d => exact Or.inl ⟨d, by simpa [number, Except.map] using read.symm⟩
  · cases number : stoll tok with
    | error e => simp [number, Except.map] at read
    | ok i => exact Or.inr ⟨i, by simpa [number, Except.map] using read.symm⟩

theorem bind_ok {α β : Type} {first : Parsing α} {next : α → Parsing β} {result : β}
    (done : first >>= next = .ok result) :
    ∃ value, first = .ok value ∧ next value = .ok result := by
  cases first with
  | error e => cases done
  | ok value => exact ⟨value, rfl, done⟩

theorem parseValue_ok {size fuel : Nat} {start behind : Bytes} {v : JsonValue}
    (read : parseValue size (fuel + 1) start = .ok (v, behind)) :
    (∃ s, parseString (skipWs start) = .ok (s, behind) ∧ v = .string s) ∨
    parseObject size fuel (skipWs start) = .ok (v, behind) ∨
    parseArray size fuel (skipWs start) = .ok (v, behind) ∨
    (JsonValue.IsScalar v ∧ behind <:+ skipWs start) := by
  unfold parseValue at read
  dsimp only at read
  split_ifs at read with string object array number true_ false_ null_
  · obtain ⟨⟨s, rest⟩, found, same⟩ := bind_ok read
    cases same
    exact Or.inl ⟨s, found, rfl⟩
  · exact Or.inr (Or.inl read)
  · exact Or.inr (Or.inr (Or.inl read))
  · obtain ⟨rfl, value⟩ := parseNumber_ok read
    refine Or.inr (Or.inr (Or.inr ⟨?_, scanNumber_suffix _⟩))
    rcases convert_ok value with ⟨d, rfl⟩ | ⟨i, rfl⟩ <;> trivial
  all_goals
    cases read
    exact Or.inr (Or.inr (Or.inr ⟨trivial, List.drop_suffix _ _⟩))

theorem parseObject_ok {size fuel : Nat} {start behind : Bytes} {v : JsonValue}
    (read : parseObject size (fuel + 1) start = .ok (v, behind)) :
    (v = .object [] ∧ behind = (skipWs start.tail).tail) ∨
    parseMembers size fuel (skipWs start.tail) [] = .ok (v, behind) := by
  unfold parseObject at read
  dsimp only at read
  split_ifs at read
  · cases read
    exact Or.inl ⟨rfl, rfl⟩
  · exact Or.inr read

theorem parseArray_ok {size fuel : Nat} {start behind : Bytes} {v : JsonValue}
    (read : parseArray size (fuel + 1) start = .ok (v, behind)) :
    (v = .array [] ∧ behind = (skipWs start.tail).tail) ∨
    parseItems size fuel (skipWs start.tail) [] = .ok (v, behind) := by
  unfold parseArray at read
  dsimp only at read
  split_ifs at read
  · cases read
    exact Or.inl ⟨rfl, rfl⟩
  · exact Or.inr read

theorem parseMembers_ok {size fuel : Nat} {start behind : Bytes}
    {obj : List (Bytes × JsonValue)} {v : JsonValue}
    (read : parseMembers size (fuel + 1) start obj = .ok (v, behind)) :
    (v = .object obj ∧ behind = start) ∨
    ∃ key afterKey value afterValue, parseString (skipWs start) = .ok (key, afterKey) ∧
      peek (skipWs afterKey) = colon ∧
      parseValue size fuel (skipWs (skipWs afterKey).tail) = .ok (value, afterValue) ∧
      ((peek (skipWs afterValue) = comma ∧
          parseMembers size fuel (skipWs afterValue).tail
            (insertKey key value obj) = .ok (v, behind)) ∨
        (peek (skipWs afterValue) = closeBrace ∧ v = .object (insertKey key value obj) ∧
          behind = (skipWs afterValue).tail)) := by
  unfold parseMembers at read
  dsimp only at read
  split at read
  · cases read
    exact Or.inl ⟨rfl, rfl⟩
  obtain ⟨⟨key, afterKey⟩, keyRead, read⟩ := bind_ok read
  split_ifs at read with noColon
  obtain ⟨⟨value, afterValue⟩, valueRead, read⟩ := bind_ok read
  refine Or.inr ⟨key, afterKey, value, afterValue, keyRead, not_not.mp noColon, valueRead, ?_⟩
  dsimp only at read
  split_ifs at read with more last
  · exact Or.inl ⟨more, read⟩
  · cases read
    exact Or.inr ⟨last, rfl, rfl⟩

theorem parseItems_ok {size fuel : Nat} {start behind : Bytes}
    {arr : List JsonValue} {v : JsonValue}
    (read : parseItems size (fuel + 1) start arr = .ok (v, behind)) :
    (v = .array arr ∧ behind = start) ∨
    ∃ value afterValue, parseValue size fuel (skipWs start) = .ok (value, afterValue) ∧
      ((peek (skipWs afterValue) = comma ∧
          parseItems size fuel (skipWs afterValue).tail (arr ++ [value]) = .ok (v, behind)) ∨
        (v = .array (arr ++ [value]) ∧ behind = (skipWs afterValue).tail)) := by
  unfold parseItems at read
  dsimp only at read
  split at read
  · cases read
    exact Or.inl ⟨rfl, rfl⟩
  obtain ⟨⟨value, afterValue⟩, valueRead, read⟩ := bind_ok read
  refine Or.inr ⟨value, afterValue, valueRead, ?_⟩
  dsimp only at read
  split_ifs at read with more last
  · exact Or.inl ⟨more, read⟩
  · cases read
    exact Or.inr ⟨rfl, rfl⟩

theorem parseMembers_object {size fuel : Nat} {start behind : Bytes}
    {obj : List (Bytes × JsonValue)} {v : JsonValue}
    (read : parseMembers size fuel start obj = .ok (v, behind)) :
    ∃ members, v = .object members := by
  induction fuel generalizing start obj with
  | zero => cases read
  | succ fuel ih =>
      rcases parseMembers_ok read with ⟨rfl, -⟩ | ⟨_, _, _, _, -, -, -, ⟨-, more⟩ | ⟨-, rfl, -⟩⟩
      · exact ⟨_, rfl⟩
      · exact ih more
      · exact ⟨_, rfl⟩

theorem parseItems_array {size fuel : Nat} {start behind : Bytes}
    {arr : List JsonValue} {v : JsonValue}
    (read : parseItems size fuel start arr = .ok (v, behind)) : ∃ items, v = .array items := by
  induction fuel generalizing start arr with
  | zero => cases read
  | succ fuel ih =>
      rcases parseItems_ok read with ⟨rfl, -⟩ | ⟨_, _, -, ⟨-, more⟩ | ⟨rfl, -⟩⟩
      · exact ⟨_, rfl⟩
      · exact ih more
      · exact ⟨_, rfl⟩

theorem parseValue_string {size fuel : Nat} {start s behind : Bytes}
    (read : parseValue size fuel start = .ok (.string s, behind)) :
    parseString (skipWs start) = .ok (s, behind) := by
  cases fuel with
  | zero => cases read
  | succ fuel =>
      rcases parseValue_ok read with ⟨s', found, same⟩ | found | found | ⟨scalar, -⟩
      · cases same
        exact found
      · cases fuel with
        | zero => cases found
        | succ fuel =>
            rcases parseObject_ok found with ⟨same, -⟩ | inner
            · cases same
            · cases (parseMembers_object inner).choose_spec
      · cases fuel with
        | zero => cases found
        | succ fuel =>
            rcases parseArray_ok found with ⟨same, -⟩ | inner
            · cases same
            · cases (parseItems_array inner).choose_spec
      · exact scalar.elim

theorem mem_insertKey {α : Type} {key k : Bytes} {value v : α} {obj : List (Bytes × α)}
    (member : (k, v) ∈ insertKey key value obj) : v = value ∨ (k, v) ∈ obj := by
  induction obj with
  | nil => exact Or.inl (congrArg Prod.snd (List.mem_singleton.mp member))
  | cons entry rest ih =>
      simp only [insertKey] at member
      split_ifs at member with same before
      · rcases List.mem_cons.mp member with here | later
        · exact Or.inl (congrArg Prod.snd here)
        · exact Or.inr (List.mem_cons_of_mem _ later)
      · rcases List.mem_cons.mp member with here | later
        · exact Or.inl (congrArg Prod.snd here)
        · exact Or.inr later
      · rcases List.mem_cons.mp member with here | later
        · exact Or.inr (here ▸ List.mem_cons_self)
        · exact (ih later).imp_right (List.mem_cons_of_mem _)

/-- A property of values that holds of all scalars and strings and passes from items to arrays, and
from members to objects. Of a member one may use the text around its value: a colon in front, and a
comma or a closing brace behind. -/
structure Invariant (text : Bytes) (Q M : JsonValue → Prop) : Prop where
  scalar : ∀ v, v.IsScalar → Q v
  string : ∀ s, Q (.string s)
  array : ∀ arr, (∀ v ∈ arr, Q v) → Q (.array arr)
  object : ∀ obj, (∀ k v, (k, v) ∈ obj → M v) → Q (.object obj)
  member : ∀ size fuel rest v behind, colon :: rest <:+ text →
    parseValue size fuel (skipWs rest) = .ok (v, behind) →
    peek (skipWs behind) = comma ∨ peek (skipWs behind) = closeBrace → Q v → M v

/-- What a parser function has read at a place of the text. -/
def Holds (text : Bytes) (Q : JsonValue → Prop) (start : Bytes)
    (read : Parsing (JsonValue × Bytes)) : Prop :=
  start <:+ text → ∀ v behind, read = .ok (v, behind) → Q v ∧ behind <:+ start

variable {text : Bytes} {Q M : JsonValue → Prop} {size fuel : Nat}

theorem cons_of_peek {rest : Bytes} {c : UInt8} (first : peek rest = c) (nonzero : c ≠ 0) :
    rest = c :: rest.tail := by
  cases rest with
  | nil => exact absurd first.symm nonzero
  | cons d rest => exact congrArg (· :: rest) first

theorem parseMembers_holds (inv : Invariant text Q M)
    (values : ∀ start, Holds text Q start (parseValue size fuel start))
    (members : ∀ start obj, (∀ k v, (k, v) ∈ obj → M v) →
      Holds text Q start (parseMembers size fuel start obj))
    {start : Bytes} {obj : List (Bytes × JsonValue)} (entries : ∀ k v, (k, v) ∈ obj → M v) :
    Holds text Q start (parseMembers size (fuel + 1) start obj) := by
  intro inside v behind read
  rcases parseMembers_ok read with ⟨rfl, rfl⟩ |
      ⟨key, afterKey, value, afterValue, keyRead, hasColon, valueRead, ending⟩
  · exact ⟨inv.object _ entries, List.suffix_refl _⟩
  have keySuffix : afterKey <:+ start :=
    (parseString_suffix keyRead).trans ((List.tail_suffix _).trans (skipWs_suffix _))
  have colonSuffix : skipWs afterKey <:+ start := (skipWs_suffix _).trans keySuffix
  have valueSuffix : skipWs (skipWs afterKey).tail <:+ start :=
    (skipWs_suffix _).trans ((List.tail_suffix _).trans colonSuffix)
  obtain ⟨good, shorter⟩ := values _ (valueSuffix.trans inside) _ _ valueRead
  have behindSuffix : (skipWs afterValue).tail <:+ start :=
    (List.tail_suffix _).trans ((skipWs_suffix _).trans (shorter.trans valueSuffix))
  have around : colon :: (skipWs afterKey).tail <:+ text := by
    rw [← cons_of_peek hasColon (by decide)]
    exact colonSuffix.trans inside
  have member : M value :=
    inv.member _ _ _ _ _ around valueRead (ending.imp And.left And.left) good
  have inserted : ∀ k v, (k, v) ∈ insertKey key value obj → M v := fun k v listed =>
    (mem_insertKey listed).elim (fun same => same ▸ member) (entries k v)
  rcases ending with ⟨-, more⟩ | ⟨-, rfl, rfl⟩
  · obtain ⟨all, less⟩ := members _ _ inserted (behindSuffix.trans inside) _ _ more
    exact ⟨all, less.trans behindSuffix⟩
  · exact ⟨inv.object _ inserted, behindSuffix⟩

theorem parseItems_holds (inv : Invariant text Q M)
    (values : ∀ start, Holds text Q start (parseValue size fuel start))
    (items : ∀ start arr, (∀ v ∈ arr, Q v) → Holds text Q start (parseItems size fuel start arr))
    {start : Bytes} {arr : List JsonValue} (entries : ∀ v ∈ arr, Q v) :
    Holds text Q start (parseItems size (fuel + 1) start arr) := by
  intro inside v behind read
  rcases parseItems_ok read with ⟨rfl, rfl⟩ | ⟨value, afterValue, valueRead, ending⟩
  · exact ⟨inv.array _ entries, List.suffix_refl _⟩
  have valueSuffix := skipWs_suffix start
  obtain ⟨good, shorter⟩ := values _ (valueSuffix.trans inside) _ _ valueRead
  have behindSuffix : (skipWs afterValue).tail <:+ start :=
    (List.tail_suffix _).trans ((skipWs_suffix _).trans (shorter.trans valueSuffix))
  have appended : ∀ v ∈ arr ++ [value], Q v := by
    intro v listed
    rcases List.mem_append.mp listed with listed | listed
    · exact entries v listed
    · exact List.mem_singleton.mp listed ▸ good
  rcases ending with ⟨-, more⟩ | ⟨rfl, rfl⟩
  · obtain ⟨all, less⟩ := items _ _ appended (behindSuffix.trans inside) _ _ more
    exact ⟨all, less.trans behindSuffix⟩
  · exact ⟨inv.array _ appended, behindSuffix⟩

theorem parse_holds (inv : Invariant text Q M) (fuel : Nat) :
    (∀ start, Holds text Q start (parseValue size fuel start)) ∧
    (∀ start, Holds text Q start (parseObject size fuel start)) ∧
    (∀ start obj, (∀ k v, (k, v) ∈ obj → M v) →
      Holds text Q start (parseMembers size fuel start obj)) ∧
    (∀ start, Holds text Q start (parseArray size fuel start)) ∧
    ∀ start arr, (∀ v ∈ arr, Q v) → Holds text Q start (parseItems size fuel start arr) := by
  induction fuel with
  | zero =>
      have none (start : Bytes) (read : Parsing (JsonValue × Bytes))
          (empty : read = .error .outOfFuel) :
          Holds text Q start read := by
        intro _ v behind found
        rw [empty] at found
        cases found
      exact ⟨fun _ => none _ _ rfl, fun _ => none _ _ rfl, fun _ _ _ => none _ _ rfl,
        fun _ => none _ _ rfl, fun _ _ _ => none _ _ rfl⟩
  | succ fuel ih =>
      obtain ⟨values, objects, members, arrays, items⟩ := ih
      have inner (start : Bytes) : skipWs start.tail <:+ start :=
        (skipWs_suffix _).trans (List.tail_suffix _)
      have noMembers : ∀ k v, (k, v) ∈ ([] : List (Bytes × JsonValue)) → M v :=
        fun _ _ listed => absurd listed List.not_mem_nil
      have noItems : ∀ v ∈ ([] : List JsonValue), Q v :=
        fun _ listed => absurd listed List.not_mem_nil
      refine ⟨?_, ?_, fun start obj => parseMembers_holds inv values members, ?_,
        fun start arr => parseItems_holds inv values items⟩
      · intro start inside v behind read
        have skipped := skipWs_suffix start
        rcases parseValue_ok read with ⟨s, found, rfl⟩ | found | found | ⟨scalar, suffix⟩
        · exact ⟨inv.string s,
            (parseString_suffix found).trans ((List.tail_suffix _).trans skipped)⟩
        · obtain ⟨good, shorter⟩ := objects _ (skipped.trans inside) _ _ found
          exact ⟨good, shorter.trans skipped⟩
        · obtain ⟨good, shorter⟩ := arrays _ (skipped.trans inside) _ _ found
          exact ⟨good, shorter.trans skipped⟩
        · exact ⟨inv.scalar _ scalar, suffix.trans skipped⟩
      · intro start inside v behind read
        rcases parseObject_ok read with ⟨rfl, rfl⟩ | found
        · exact ⟨inv.object _ noMembers, (List.tail_suffix _).trans (inner start)⟩
        · obtain ⟨good, shorter⟩ := members _ _ noMembers ((inner start).trans inside) _ _ found
          exact ⟨good, shorter.trans (inner start)⟩
      · intro start inside v behind read
        rcases parseArray_ok read with ⟨rfl, rfl⟩ | found
        · exact ⟨inv.array _ noItems, (List.tail_suffix _).trans (inner start)⟩
        · obtain ⟨good, shorter⟩ := items _ _ noItems ((inner start).trans inside) _ _ found
          exact ⟨good, shorter.trans (inner start)⟩

theorem parseValue_suffix {start behind : Bytes} {v : JsonValue}
    (read : parseValue size fuel start = .ok (v, behind)) : behind <:+ start := by
  have trivially : Invariant start (fun _ => True) (fun _ => True) :=
    ⟨fun _ _ => trivial, fun _ => trivial, fun _ _ => trivial, fun _ _ => trivial,
      fun _ _ _ _ _ _ _ _ _ => trivial⟩
  exact ((parse_holds trivially fuel).1 start (List.suffix_refl _) v behind read).2

theorem bind_error {α β : Type} {first : Parsing α} {next : α → Parsing β} {e : JsonError}
    (failed : first >>= next = .error e) :
    first = .error e ∨ ∃ value, first = .ok value ∧ next value = .error e := by
  cases first with
  | error e' =>
      cases failed
      exact Or.inl rfl
  | ok value => exact Or.inr ⟨value, rfl, failed⟩

theorem appendChar_error_iff {c : UInt8} {later : Parsing (Bytes × Bytes)} {e : JsonError} :
    appendChar c later = .error e ↔ later = .error e := by
  cases later <;> simp [appendChar, Except.map]

theorem stringBody_error {rest : Bytes} {e : JsonError} (failed : stringBody rest = .error e) :
    e = .unterminatedString := by
  induction rest using stringBody.induct with
  | case1 =>
      cases failed
      rfl
  | case2 rest =>
      rw [stringBody_quote] at failed
      cases failed
  | case3 =>
      cases failed
      rfl
  | case4 c rest _ ih =>
      rw [stringBody_escaped, appendChar_error_iff] at failed
      exact ih failed
  | case5 c rest unquoted unescaped ih =>
      rw [stringBody_plain unquoted unescaped, appendChar_error_iff] at failed
      exact ih failed

theorem parseString_ne_outOfFuel (rest : Bytes) : parseString rest ≠ .error .outOfFuel := by
  intro failed
  unfold parseString at failed
  split at failed
  · cases failed
  · cases stringBody_error failed

theorem parseNumber_ne_outOfFuel (rest : Bytes) : parseNumber rest ≠ .error .outOfFuel := by
  intro failed
  unfold parseNumber at failed
  dsimp only at failed
  split at failed <;> cases failed

theorem length_skipWs_le (rest : Bytes) : (skipWs rest).length ≤ rest.length :=
  (skipWs_suffix rest).length_le

theorem length_tail_lt {rest : Bytes} {c : UInt8} (first : peek rest = c) (nonzero : c ≠ 0) :
    rest.tail.length < rest.length := by
  rw [cons_of_peek first nonzero]
  exact Nat.lt_succ_self _

structure EnoughFuel (size fuel : Nat) : Prop where
  values : ∀ start, 3 * start.length + 3 ≤ fuel → parseValue size fuel start ≠ .error .outOfFuel
  objects : ∀ start, 3 * start.length + 2 ≤ fuel → parseObject size fuel start ≠ .error .outOfFuel
  members : ∀ start obj, 3 * start.length + 4 ≤ fuel →
    parseMembers size fuel start obj ≠ .error .outOfFuel
  arrays : ∀ start, 3 * start.length + 2 ≤ fuel → parseArray size fuel start ≠ .error .outOfFuel
  items : ∀ start arr, 3 * start.length + 4 ≤ fuel →
    parseItems size fuel start arr ≠ .error .outOfFuel

namespace EnoughFuel
variable {fuel : Nat} (below : EnoughFuel size fuel)
include below

theorem value (start : Bytes) (enough : 3 * start.length + 3 ≤ fuel + 1) :
    parseValue size (fuel + 1) start ≠ .error .outOfFuel := by
  intro failed
  have skipped := length_skipWs_le start
  unfold parseValue at failed
  dsimp only at failed
  split_ifs at failed
  · rcases bind_error failed with failed | ⟨_, _, failed⟩
    · exact parseString_ne_outOfFuel _ failed
    · cases failed
  · exact below.objects _ (by omega) failed
  · exact below.arrays _ (by omega) failed
  · exact parseNumber_ne_outOfFuel _ failed
  all_goals cases failed

theorem object (start : Bytes) (enough : 3 * start.length + 2 ≤ fuel + 1) :
    parseObject size (fuel + 1) start ≠ .error .outOfFuel := by
  intro failed
  unfold parseObject at failed
  dsimp only at failed
  split_ifs at failed with other closed
  · cases failed
  have opened := length_tail_lt (not_not.mp other) (by decide)
  have skipped := length_skipWs_le start.tail
  exact below.members _ _ (by omega) failed

theorem member (start : Bytes) (obj : List (Bytes × JsonValue))
    (enough : 3 * start.length + 4 ≤ fuel + 1) :
    parseMembers size (fuel + 1) start obj ≠ .error .outOfFuel := by
  intro failed
  unfold parseMembers at failed
  dsimp only at failed
  split_ifs at failed
  rcases bind_error failed with failed | ⟨⟨key, afterKey⟩, keyRead, failed⟩
  · exact parseString_ne_outOfFuel _ failed
  have keyLength := (parseString_suffix keyRead).length_le
  have startLength := length_skipWs_le start
  have colonLength := length_skipWs_le afterKey
  have valueLength := length_skipWs_le (skipWs afterKey).tail
  simp only [List.length_tail] at keyLength valueLength
  dsimp only at failed
  split_ifs at failed with noColon
  · cases failed
  have consumed := length_tail_lt (not_not.mp noColon) (by decide)
  rw [List.length_tail] at consumed
  rcases bind_error failed with failed | ⟨⟨value, afterValue⟩, valueRead, failed⟩
  · exact below.values _ (by omega) failed
  have behindLength := (parseValue_suffix valueRead).length_le
  have sepLength := length_skipWs_le afterValue
  dsimp only at failed
  split_ifs at failed with more
  · have separator := length_tail_lt more (by decide)
    exact below.members _ _ (by omega) failed
  · cases failed

theorem array (start : Bytes) (enough : 3 * start.length + 2 ≤ fuel + 1) :
    parseArray size (fuel + 1) start ≠ .error .outOfFuel := by
  intro failed
  unfold parseArray at failed
  dsimp only at failed
  split_ifs at failed with other closed
  · cases failed
  have opened := length_tail_lt (not_not.mp other) (by decide)
  have skipped := length_skipWs_le start.tail
  exact below.items _ _ (by omega) failed

theorem item (start : Bytes) (arr : List JsonValue) (enough : 3 * start.length + 4 ≤ fuel + 1) :
    parseItems size (fuel + 1) start arr ≠ .error .outOfFuel := by
  intro failed
  unfold parseItems at failed
  dsimp only at failed
  split_ifs at failed
  have startLength := length_skipWs_le start
  rcases bind_error failed with failed | ⟨⟨value, afterValue⟩, valueRead, failed⟩
  · exact below.values _ (by omega) failed
  have behindLength := (parseValue_suffix valueRead).length_le
  have sepLength := length_skipWs_le afterValue
  dsimp only at failed
  split_ifs at failed with more
  · have separator := length_tail_lt more (by decide)
    exact below.items _ _ (by omega) failed
  · cases failed

end EnoughFuel

theorem enoughFuel (fuel : Nat) : EnoughFuel size fuel := by
  induction fuel with
  | zero => exact ⟨by omega, by omega, by omega, by omega, by omega⟩
  | succ fuel below => exact ⟨below.value, below.object, below.member, below.array, below.item⟩

end JsonParser

theorem jsonParse_ok {text : Bytes} {v : JsonValue} (read : jsonParse text = .ok v) :
    ∃ behind, JsonParser.parseValue text.length (3 * text.length + 3)
      (JsonParser.skipWs text) = .ok (v, behind) := by
  unfold jsonParse at read
  cases run : JsonParser.parseValue text.length (3 * text.length + 3) (JsonParser.skipWs text) with
  | error e => simp [run, Except.map] at read
  | ok found =>
      simp only [run, Except.map, Except.ok.injEq] at read
      exact ⟨found.2, by rw [← read]⟩

theorem jsonParse_ne_outOfFuel (text : Bytes) : jsonParse text ≠ .error .outOfFuel := by
  intro failed
  have skipped := JsonParser.length_skipWs_le text
  have total : JsonParser.parseValue text.length (3 * text.length + 3)
      (JsonParser.skipWs text) ≠ .error .outOfFuel :=
    (JsonParser.enoughFuel _).values _ (by omega)
  unfold jsonParse at failed
  cases run : JsonParser.parseValue text.length (3 * text.length + 3) (JsonParser.skipWs text) with
  | ok found => simp [run, Except.map] at failed
  | error e =>
      rw [run] at failed total
      cases failed
      exact total rfl

end LocalPC.Offline
