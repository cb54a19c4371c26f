import LocalPC.Offline.JsonCut

namespace LocalPC.Offline
open Lib JsonParser

namespace Json

def Scalar.value : Scalar → JsonValue
  | .str s => .string s
  | .int64 v => .int v.toInt
  | .uint64 v => .int v.toNat
  | .double v _ => if v.isNaN || v.isInf then .null else .double v
  | .boolean v => .bool v
  | .null => .null

mutual

def Call.value : Call → JsonValue
  | .field _ value => value.value
  | .fieldBuilt _ obj => obj.value
  | .object _ calls => .object (membersOf calls [])
  | .array _ items => .array (items.map Scalar.value)
  | .rawArray _ objs => .array (valuesOf objs)

def membersOf : List Call → List (Bytes × JsonValue) → List (Bytes × JsonValue)
  | [], members => members
  | call :: calls, members => membersOf calls (insertKey call.key call.value members)

def Built.value : Built → JsonValue
  | .mk _ _ calls => .object (membersOf calls [])

def valuesOf : List Built → List JsonValue
  | [] => []
  | obj :: objs => obj.value :: valuesOf objs

end

mutual

def Call.Distinct : Call → Prop
  | .field _ _ | .array _ _ => True
  | .fieldBuilt _ obj => obj.Distinct
  | .object _ calls => DistinctCalls calls
  | .rawArray _ objs => DistinctObjs objs

def DistinctCalls : List Call → Prop
  | [] => True
  | call :: calls => call.key ∉ calls.map Call.key ∧ call.Distinct ∧ DistinctCalls calls

def Built.Distinct : Built → Prop
  | .mk _ _ calls => DistinctCalls calls

def DistinctObjs : List Built → Prop
  | [] => True
  | obj :: objs => obj.Distinct ∧ DistinctObjs objs

end

def Scalar.Survives : Scalar → Prop
  | .uint64 v => v.toNat < 2 ^ 63
  | .double v prec => (v.isNaN || v.isInf) = true ∨ stod (numDouble v prec) = .ok v
  | .str _ | .int64 _ | .boolean _ | .null => True

mutual

/-- Every builder gets at most one call, its value is no string that ends with a comma, and every
scalar survives. -/
def Call.Clean : Call → Prop
  | .field _ value => value.Survives
  | .fieldBuilt _ obj => obj.Clean
  | .object _ calls => CleanCalls calls
  | .array _ items => ∀ item ∈ items, item.Survives
  | .rawArray _ objs => CleanObjs objs

def CleanCalls : List Call → Prop
  | [] => True
  | [call] => ¬ call.CutAtEnd ∧ call.Clean
  | _ :: _ :: _ => False

def Built.Clean : Built → Prop
  | .mk _ _ calls => CleanCalls calls

def CleanObjs : List Built → Prop
  | [] => True
  | obj :: objs => obj.Clean ∧ CleanObjs objs

end

mutual

def Call.Uncut : Call → Prop
  | .field _ _ | .array _ _ => True
  | .fieldBuilt _ obj => obj.Uncut
  | .object _ calls => UncutCalls calls
  | .rawArray _ objs => UncutObjs objs

def UncutCalls : List Call → Prop
  | [] => True
  | [call] => ¬ call.CutAtEnd ∧ call.Uncut
  | call :: next :: calls => call.Uncut ∧ UncutCalls (next :: calls)

def Built.Uncut : Built → Prop
  | .mk _ _ calls => UncutCalls calls

def UncutObjs : List Built → Prop
  | [] => True
  | obj :: objs => obj.Uncut ∧ UncutObjs objs

end

theorem mem_insertKey_self {α : Type} (key : Bytes) (value : α) (obj : List (Bytes × α)) :
    (key, value) ∈ insertKey key value obj := by
  induction obj with
  | nil => exact List.mem_singleton_self _
  | cons entry rest ih =>
      simp only [insertKey]
      split_ifs with same before
      · rw [same]
        exact List.mem_cons_self
      · exact List.mem_cons_self
      · exact List.mem_cons_of_mem _ ih

theorem mem_insertKey_of_ne {α : Type} {key k : Bytes} {value v : α} {obj : List (Bytes × α)}
    (other : k ≠ key) (member : (k, v) ∈ obj) : (k, v) ∈ insertKey key value obj := by
  induction obj with
  | nil => cases member
  | cons entry rest ih =>
      simp only [insertKey]
      split_ifs with same before
      · rcases List.mem_cons.mp member with here | later
        · exact absurd (congrArg Prod.fst here) (by rw [← same]; exact other)
        · exact List.mem_cons_of_mem _ later
      · exact List.mem_cons_of_mem _ member
      · rcases List.mem_cons.mp member with here | later
        · rw [here]
          exact List.mem_cons_self
        · exact List.mem_cons_of_mem _ (ih later)

theorem mem_membersOf {calls : List Call} {members : List (Bytes × JsonValue)}
    {key : Bytes} {v : JsonValue} (other : key ∉ calls.map Call.key) (member : (key, v) ∈ members) :
    (key, v) ∈ membersOf calls members := by
  induction calls generalizing members with
  | nil => exact member
  | cons call calls ih =>
      rw [List.map_cons, List.mem_cons, not_or] at other
      exact ih other.2 (mem_insertKey_of_ne other.1 member)

theorem call_mem_membersOf {call : Call} {calls : List Call} (members : List (Bytes × JsonValue))
    (distinct : call.key ∉ calls.map Call.key) :
    (call.key, call.value) ∈ membersOf (call :: calls) members := by
  rw [membersOf]
  exact mem_membersOf distinct (mem_insertKey_self _ _ _)

mutual

theorem Call.commaMember : (call : Call) → call.Distinct → ¬ call.Uncut → CommaMember call.value
  | .field _ _, _, cut => absurd trivial cut
  | .fieldBuilt _ obj, distinct, cut => obj.commaMember distinct cut
  | .object _ calls, distinct, cut => calls_commaMember calls distinct cut []
  | .array _ _, _, cut => absurd trivial cut
  | .rawArray _ objs, distinct, cut => by
      obtain ⟨v, listed, comma⟩ := objs_commaMember objs distinct cut
      exact .item listed comma

theorem calls_commaMember : (calls : List Call) → DistinctCalls calls → ¬ UncutCalls calls →
    (members : List (Bytes × JsonValue)) → CommaMember (.object (membersOf calls members))
  | [], _, cut, _ => absurd trivial cut
  | [call], distinct, cut, members => by
      have entry := call_mem_membersOf members distinct.1
      by_cases atEnd : call.CutAtEnd
      · obtain ⟨key, s, rfl, ends⟩ := Call.cutAtEnd_iff.mp atEnd
        exact .here entry ends
      · exact .member entry (call.commaMember distinct.2.1 fun uncut => cut ⟨atEnd, uncut⟩)
  | call :: next :: calls, distinct, cut, members => by
      by_cases uncut : call.Uncut
      · exact calls_commaMember (next :: calls) distinct.2.2 (fun rest => cut ⟨uncut, rest⟩) _
      · exact .member (call_mem_membersOf members distinct.1) (call.commaMember distinct.2.1 uncut)

theorem Built.commaMember : (obj : Built) → obj.Distinct → ¬ obj.Uncut → CommaMember obj.value
  | .mk _ _ calls, distinct, cut => calls_commaMember calls distinct cut []

theorem objs_commaMember : (objs : List Built) → DistinctObjs objs → ¬ UncutObjs objs →
    ∃ v ∈ valuesOf objs, CommaMember v
  | [], _, cut => absurd trivial cut
  | obj :: objs, distinct, cut => by
      by_cases uncut : obj.Uncut
      · obtain ⟨v, listed, comma⟩ := objs_commaMember objs distinct.2 fun rest => cut ⟨uncut, rest⟩
        exact ⟨v, List.mem_cons_of_mem _ listed, comma⟩
      · exact ⟨obj.value, List.mem_cons_self, obj.commaMember distinct.1 uncut⟩

end

def allRead : List (Option JsonValue) → Option (List JsonValue)
  | [] => some []
  | none :: _ => none
  | some v :: rest => (allRead rest).map (v :: ·)

mutual

/-- What `parse_value` makes of the text of a call, if it accepts it. -/
def Call.read : Call → Option JsonValue
  | .field _ value => value.read
  | .fieldBuilt _ obj => obj.read
  | .object _ calls => readCalls calls
  | .array _ items => (allRead (items.map Scalar.read)).map .array
  | .rawArray _ objs => (allRead (readObjs objs)).map .array

def readCalls : List Call → Option JsonValue
  | [] => some (.object [])
  | [call] => call.read.map fun v => .object [(call.key, v)]
  | _ :: _ :: _ => none

def Built.read : Built → Option JsonValue
  | .mk _ _ calls => readCalls calls

def readObjs : List Built → List (Option JsonValue)
  | [] => []
  | obj :: objs => obj.read :: readObjs objs

end

theorem Stops.spaces (n : Nat) {t : Bytes} (stops : Stops t) : Stops (spaces n ++ t) := by
  cases n with
  | zero => exact stops
  | succ n => rfl

theorem value_skipWs (n indent depth : Nat) (call : Call) (t : Bytes) :
    skipWs (expand n (call.valueText indent depth) ++ t) =
      expand n (call.valueText indent depth) ++ t := by
  rcases value_head n indent depth call with ⟨key, s, rfl⟩ | ⟨c, rest, same, -, -, printed⟩
  · change skipWs (expand n (str s) ++ t) = expand n (str s) ++ t
    rw [expand_of_not_mem (newline_not_mem_str s), str_append]
    exact skipWs_of_peek rfl
  · rw [same]
    exact skipWs_of_peek printed

theorem scalar_skipWs (v : Scalar) (t : Bytes) : skipWs (v.text ++ t) = v.text ++ t := by
  have skipped := value_skipWs 0 0 0 (.field [] v) t
  rwa [expand_zero] at skipped

theorem reads_scalar {size fuel : Nat} {t : Bytes} (v : Scalar)
    (stops : Stops t) (enough : 3 ≤ fuel) :
    Reads t (parseValue size fuel (v.text ++ t)) v.read := by
  obtain ⟨fuel, rfl⟩ : ∃ f, fuel = f + 1 := ⟨fuel - 1, by omega⟩
  exact parseValue_scalar size fuel v stops

def afterMember (size fuel : Nat) (key : Bytes) (obj : List (Bytes × JsonValue))
    (read : JsonValue × Bytes) :
    Parsing (JsonValue × Bytes) :=
  if peek (skipWs read.2) = comma then
    parseMembers size fuel (skipWs read.2).tail (insertKey key read.1 obj)
  else if peek (skipWs read.2) = closeBrace then
    .ok (.object (insertKey key read.1 obj), (skipWs read.2).tail)
  else .error .expectedCommaOrBrace

theorem afterMember_brace {size fuel : Nat} {key behind t : Bytes} {v : JsonValue}
    (closed : skipWs behind = closeBrace :: t) :
    afterMember size fuel key [] (v, behind) = .ok (.object [(key, v)], t) := by
  unfold afterMember
  rw [closed]
  rfl

theorem afterMember_quote {size fuel : Nat} {key behind : Bytes}
    {obj : List (Bytes × JsonValue)} {v : JsonValue} (another : peek (skipWs behind) = quote) :
    afterMember size fuel key obj (v, behind) = .error .expectedCommaOrBrace := by
  unfold afterMember
  rw [another]
  rfl

theorem parseMembers_key (size fuel : Nat) (key t : Bytes) (obj : List (Bytes × JsonValue)) :
    parseMembers size (fuel + 1) (str key ++ ([colon, space] ++ t)) obj =
      parseValue size fuel (skipWs t) >>= afterMember size fuel key obj := by
  have found := parseString_str key ([colon, space] ++ t)
  have start : skipWs (str key ++ ([colon, space] ++ t)) = str key ++ ([colon, space] ++ t) := by
    rw [str_append]
    exact skipWs_of_peek rfl
  have nonempty : str key ++ ([colon, space] ++ t) ≠ [] := List.cons_ne_nil _ _
  rw [parseMembers, if_neg nonempty, start, found]
  rfl

def afterItem (size fuel : Nat) (arr : List JsonValue) (read : JsonValue × Bytes) :
    Parsing (JsonValue × Bytes) :=
  if peek (skipWs read.2) = comma then parseItems size fuel (skipWs read.2).tail (arr ++ [read.1])
  else if peek (skipWs read.2) = closeBracket then
    .ok (.array (arr ++ [read.1]), (skipWs read.2).tail)
  else .error .expectedCommaOrBracket

theorem afterItem_bracket {size fuel : Nat} {arr : List JsonValue}
    {behind t : Bytes} {v : JsonValue} (closed : skipWs behind = closeBracket :: t) :
    afterItem size fuel arr (v, behind) = .ok (.array (arr ++ [v]), t) := by
  unfold afterItem
  rw [closed]
  rfl

theorem afterItem_comma {size fuel : Nat} {arr : List JsonValue} {behind t : Bytes} {v : JsonValue}
    (more : skipWs behind = comma :: t) :
    afterItem size fuel arr (v, behind) = parseItems size fuel t (arr ++ [v]) := by
  unfold afterItem
  rw [more]
  rfl

theorem parseItems_eq {size fuel : Nat} {start : Bytes} (nonempty : start ≠ [])
    (arr : List JsonValue) :
    parseItems size (fuel + 1) start arr =
      parseValue size fuel (skipWs start) >>= afterItem size fuel arr := by
  rw [parseItems, if_neg nonempty]
  rfl

theorem parseValue_text {size fuel : Nat} (n indent depth : Nat) (key t : Bytes) :
    parseValue size (fuel + 2)
      (openBrace :: newline :: (spaces n ++ (keyText indent depth key ++ t))) =
      parseMembers size fuel (str key ++ ([colon, space] ++ t)) [] := by
  have start : skipWs (newline :: (spaces n ++ (keyText indent depth key ++ t))) =
      str key ++ ([colon, space] ++ t) := by
    rw [skipWs_cons_ws (by decide), skipWs_spaces, keyText_eq, List.append_assoc,
      List.append_assoc, skipWs_spaces, str_append]
    exact skipWs_of_peek rfl
  have opened : parseValue size (fuel + 2)
      (openBrace :: newline :: (spaces n ++ (keyText indent depth key ++ t))) =
      parseObject size (fuel + 1)
        (openBrace :: newline :: (spaces n ++ (keyText indent depth key ++ t))) := rfl
  have first : peek (str key ++ ([colon, space] ++ t)) ≠ closeBrace := by
    rw [str_append]
    exact (by decide : quote ≠ closeBrace)
  have brace : ¬ peek (openBrace :: newline :: (spaces n ++ (keyText indent depth key ++ t))) ≠
      openBrace :=
    not_not.mpr rfl
  rw [opened, parseObject, List.tail_cons, start]
  dsimp only
  rw [if_neg brace, if_neg first]

theorem Reads.bind {t : Bytes} {run : Parsing (JsonValue × Bytes)} {v : Option JsonValue}
    {next : JsonValue × Bytes → Parsing (JsonValue × Bytes)} {t' : Bytes}
    {result : JsonValue → Option JsonValue} (reads : Reads t run v)
    (later : ∀ w, Reads t' (next (w, t)) (result w)) :
    Reads t' (run >>= next) (v.bind result) := by
  cases v with
  | none =>
      obtain ⟨e, failed⟩ := reads
      exact ⟨e, by rw [failed]; rfl⟩
  | some w =>
      have done : run = .ok (w, t) := reads
      rw [done]
      exact later w

theorem stops_bodyText (n indent depth : Nat) (call : Call) (calls : List Call) (t : Bytes) :
    Stops (expand n (bodyText indent depth (call :: calls)) ++ t) := by
  have key (u : Bytes) : Stops (keyText indent depth call.key ++ u) := by
    rw [keyText_eq, List.append_assoc, List.append_assoc, str_append]
    exact Stops.spaces _ rfl
  cases calls with
  | nil =>
      rw [expand_bodyText_single, List.append_assoc]
      exact key _
  | cons next calls =>
      rw [expand_bodyText_cons, List.append_assoc]
      exact key _

variable {size n m : Nat} {t : Bytes}

theorem reads_items {lines : List Bytes} {reads : List (Option JsonValue)}
    (each : List.Forall₂
      (fun line read => ∀ u fuel, Stops u → 3 * (expand n line).length + 3 ≤ fuel →
      Reads u (parseValue size fuel (skipWs (expand n line ++ u))) read) lines reads)
    (some_ : lines ≠ []) {start : Bytes} (nonempty : start ≠ [])
    (same : skipWs start = skipWs (expand n (itemLines lines) ++ (spaces m ++ closeBracket :: t)))
    {fuel : Nat} (enough : 3 * (expand n (itemLines lines)).length + 4 ≤ fuel)
    (arr : List JsonValue) :
    Reads t (parseItems size fuel start arr)
      ((allRead reads).map fun vs => .array (arr ++ vs)) := by
  induction each generalizing start fuel arr with
  | nil => contradiction
  | @cons line read lines reads first more ih =>
      obtain ⟨fuel, rfl⟩ : ∃ f, fuel = f + 1 := ⟨fuel - 1, by omega⟩
      have unfolded : (allRead (read :: reads)).map (fun vs => JsonValue.array (arr ++ vs)) =
          read.bind fun v => (allRead reads).map fun vs => .array (arr ++ [v] ++ vs) := by
        cases read with
        | none => rfl
        | some v => simp [allRead, Option.map_map, Function.comp_def]
      rw [parseItems_eq nonempty, same, unfolded]
      cases more with
      | nil =>
          rw [expand_itemLines_single, List.length_append] at enough
          rw [expand_itemLines_single, List.append_assoc]
          refine (first (newline :: (spaces n ++ (spaces m ++ closeBracket :: t))) fuel rfl
            (by omega)).bind fun v => ?_
          have behind : skipWs
              (newline :: (spaces n ++ (spaces m ++ closeBracket :: t))) = closeBracket :: t := by
            rw [skipWs_cons_ws (by decide), skipWs_spaces, skipWs_spaces]
            rfl
          rw [afterItem_bracket behind]
          simp [Reads, allRead]
      | @cons next nextRead lines reads second more =>
          rw [expand_itemLines_cons, List.length_append, List.length_cons, List.length_cons,
            List.length_append] at enough
          rw [expand_itemLines_cons, List.append_assoc, List.cons_append,
            List.cons_append, List.append_assoc]
          refine (first (comma :: newline :: _) fuel rfl (by omega)).bind fun v => ?_
          have behind (u : Bytes) : skipWs (comma :: u) = comma :: u := skipWs_of_peek rfl
          rw [afterItem_comma (behind _)]
          refine ih (List.cons_ne_nil _ _) (List.cons_ne_nil _ _) ?_ (by omega) _
          rw [skipWs_cons_ws (by decide), skipWs_spaces]

theorem parseValue_bracket {fuel : Nat} {t : Bytes} (first : peek (skipWs t) ≠ closeBracket) :
    parseValue size (fuel + 2) (openBracket :: newline :: (spaces n ++ t)) =
      parseItems size fuel (skipWs t) [] := by
  have opened : parseValue size (fuel + 2) (openBracket :: newline :: (spaces n ++ t)) =
      parseArray size (fuel + 1) (openBracket :: newline :: (spaces n ++ t)) := rfl
  have start : skipWs (newline :: (spaces n ++ t)) = skipWs t := by
    rw [skipWs_cons_ws (by decide), skipWs_spaces]
  have bracket : ¬ peek (openBracket :: newline :: (spaces n ++ t)) ≠ openBracket := not_not.mpr rfl
  rw [opened, parseArray, List.tail_cons, start]
  dsimp only
  rw [if_neg bracket, if_neg first]

theorem reads_bracketed {lines : List Bytes} {reads : List (Option JsonValue)}
    (each : List.Forall₂
      (fun line read => ∀ u fuel, Stops u → 3 * (expand n line).length + 3 ≤ fuel →
      Reads u (parseValue size fuel (skipWs (expand n line ++ u))) read) lines reads)
    (heads : ∀ line ∈ lines, ∀ u, peek (skipWs (expand n line ++ u)) ≠ closeBracket)
    {fuel : Nat} (enough : 3 * (expand n (bracketed (spaces m) lines)).length + 3 ≤ fuel) :
    Reads t (parseValue size fuel (expand n (bracketed (spaces m) lines) ++ t))
      ((allRead reads).map .array) := by
  cases each with
  | nil =>
      obtain ⟨fuel, rfl⟩ : ∃ f, fuel = f + 2 := ⟨fuel - 2, by omega⟩
      rfl
  | @cons line read lines reads first more =>
      have items := expand_bracketed n m line lines
      rw [items] at enough ⊢
      simp only [List.length_cons, List.length_append] at enough
      simp only [List.cons_append, List.append_assoc, List.nil_append]
      obtain ⟨fuel, rfl⟩ : ∃ f, fuel = f + 2 := ⟨fuel - 2, by omega⟩
      have head : peek
          (skipWs (expand n (itemLines (line :: lines)) ++ (spaces m ++ closeBracket :: t))) ≠
          closeBracket := by
        have headOf := heads line List.mem_cons_self
        cases lines with
        | nil =>
            rw [expand_itemLines_single, List.append_assoc]
            exact headOf _
        | cons next lines =>
            rw [expand_itemLines_cons, List.append_assoc]
            exact headOf _
      have nonempty : skipWs
          (expand n (itemLines (line :: lines)) ++ (spaces m ++ closeBracket :: t)) ≠ [] := by
        intro none
        have all := List.dropWhile_eq_nil_iff.mp none closeBracket (by simp)
        exact absurd all (by decide)
      rw [parseValue_bracket head]
      exact reads_items (.cons first more) (List.cons_ne_nil _ _) nonempty
        (skipWs_skipWs _) (by omega) []

theorem reads_text {indent depth fuel : Nat} {call : Call} {calls : List Call}
    (value : ∀ u fuel, Stops u → 3 * (expand n (call.valueText indent depth)).length + 3 ≤ fuel →
      Reads u (parseValue size fuel (expand n (call.valueText indent depth) ++ u)) call.read)
    (uncut : calls = [] → ¬ call.CutAtEnd)
    (enough : 3 * (expand n (Built.mk indent depth (call :: calls)).text).length + 3 ≤ fuel) :
    Reads t (parseValue size fuel (expand n (Built.mk indent depth (call :: calls)).text ++ t))
      (readCalls (call :: calls)) := by
  obtain ⟨fuel, rfl⟩ : ∃ f, fuel = f + 3 := ⟨fuel - 3, by omega⟩
  have blank (u : Bytes) : skipWs (expand n (call.valueText indent depth) ++ u) =
      expand n (call.valueText indent depth) ++ u := value_skipWs n indent depth call u
  rw [expand_text_cons] at enough ⊢
  cases calls with
  | nil =>
      rw [expand_bodyText_single, Call.cutText_of_uncut (uncut rfl)] at enough ⊢
      simp only [List.length_cons, List.length_append] at enough
      simp only [List.cons_append, List.append_assoc, List.nil_append]
      have stops : Stops (spaces (depth * indent) ++ closeBrace :: t) := Stops.spaces _ rfl
      have ending : skipWs (spaces (depth * indent) ++ closeBrace :: t) = closeBrace :: t := by
        rw [skipWs_spaces]
        rfl
      rw [parseValue_text, parseMembers_key, blank, readCalls, Option.map_eq_bind]
      refine (value _ fuel stops (by omega)).bind fun v => ?_
      exact afterMember_brace ending
  | cons next calls =>
      have none_ : readCalls (call :: next :: calls) = call.read.bind fun _ => none := by
        cases call.read <;> rfl
      rw [expand_bodyText_cons] at enough ⊢
      simp only [List.length_cons, List.length_append] at enough
      simp only [List.cons_append, List.append_assoc, List.nil_append]
      rw [parseValue_text, parseMembers_key, blank, none_]
      refine (value _ fuel (stops_bodyText _ _ _ _ _ _) (by omega)).bind fun v => ?_
      exact ⟨_, afterMember_quote (peek_bodyText _ _ _ _ _ _)⟩

theorem scalar_head (v : Scalar) (u : Bytes) : peek (skipWs (v.text ++ u)) ≠ closeBracket := by
  rw [scalar_skipWs]
  rcases value_head 0 0 0 (.field [] v) with ⟨key, s, same⟩ | ⟨c, rest, same, -, other, -⟩
  · cases same
    exact (by decide : quote ≠ closeBracket)
  · rw [expand_zero] at same
    rw [show v.text = c :: rest from same]
    exact other

theorem built_skipWs (n : Nat) (obj : Built) (u : Bytes) :
    skipWs (expand n obj.text ++ u) = expand n obj.text ++ u :=
  value_skipWs n 0 0 (.fieldBuilt [] obj) u

mutual

theorem Call.reads : (call : Call) → call.Uncut → (size n indent depth : Nat) → (t : Bytes) →
    (fuel : Nat) → Stops t →
    3 * (expand n (call.valueText indent depth)).length + 3 ≤ fuel →
    Reads t (parseValue size fuel (expand n (call.valueText indent depth) ++ t)) call.read
  | .field _ value, _, size, n, _, _, t, fuel, stops, enough => by
      rw [Call.valueText, expand_scalar]
      exact reads_scalar value stops (by omega)
  | .fieldBuilt _ obj, uncut, size, n, _, _, t, fuel, _, enough =>
      obj.reads uncut size n t fuel enough
  | .object _ calls, uncut, size, n, indent, depth, t, fuel, _, enough =>
      calls_reads calls uncut size n indent (depth + 1) t fuel enough
  | .array _ items, _, size, n, indent, depth, t, fuel, _, enough => by
      refine reads_bracketed ?_ ?_ enough
      · rw [List.forall₂_map_left_iff, List.forall₂_map_right_iff, List.forall₂_same]
        intro item _ u fuel stops enough
        rw [expand_scalarLine, List.append_assoc, skipWs_spaces, scalar_skipWs]
        exact reads_scalar item stops (by omega)
      · intro line listed u
        obtain ⟨item, -, rfl⟩ := List.mem_map.mp listed
        rw [expand_scalarLine, List.append_assoc, skipWs_spaces]
        exact scalar_head item u
  | .rawArray _ objs, uncut, size, n, indent, depth, t, fuel, _, enough => by
      refine reads_bracketed ?_ ?_ enough
      · exact objs_reads objs uncut size n _
      · intro line listed u
        obtain ⟨obj, -, rfl⟩ := List.mem_map.mp listed
        rw [expand_builtLine, List.append_assoc, skipWs_spaces, built_skipWs]
        obtain ⟨rest, same⟩ := text_head (n + (depth + 2) * indent) obj
        rw [same]
        exact (by decide : openBrace ≠ closeBracket)

theorem calls_reads :
    (calls : List Call) → UncutCalls calls → (size n indent depth : Nat) → (t : Bytes) →
    (fuel : Nat) → 3 * (expand n (Built.mk indent depth calls).text).length + 3 ≤ fuel →
    Reads t (parseValue size fuel (expand n (Built.mk indent depth calls).text ++ t))
      (readCalls calls)
  | [], _, size, n, indent, depth, t, fuel, enough => by
      rw [expand_text_nil] at enough ⊢
      obtain ⟨fuel, rfl⟩ : ∃ f, fuel = f + 2 := ⟨fuel - 2, by omega⟩
      rfl
  | [call], uncut, size, n, indent, depth, t, fuel, enough =>
      reads_text (fun u fuel stops enough =>
        call.reads uncut.2 size n indent depth u fuel stops enough)
        (fun _ => uncut.1) enough
  | call :: next :: calls, uncut, size, n, indent, depth, t, fuel, enough =>
      reads_text (fun u fuel stops enough =>
        call.reads uncut.1 size n indent depth u fuel stops enough)
        nofun enough

theorem Built.reads : (obj : Built) → obj.Uncut → (size n : Nat) → (t : Bytes) → (fuel : Nat) →
    3 * (expand n obj.text).length + 3 ≤ fuel →
      Reads t (parseValue size fuel (expand n obj.text ++ t)) obj.read
  | .mk indent depth calls, uncut, size, n, t, fuel, enough =>
      calls_reads calls uncut size n indent depth t fuel enough

theorem objs_reads : (objs : List Built) → UncutObjs objs → (size n m : Nat) →
    List.Forall₂ (fun line read => ∀ u fuel, Stops u → 3 * (expand n line).length + 3 ≤ fuel →
      Reads u (parseValue size fuel (skipWs (expand n line ++ u))) read)
      (objs.map fun obj => indentLines (spaces m) obj.text) (readObjs objs)
  | [], _, _, _, _ => .nil
  | obj :: objs, uncut, size, n, m => by
      refine .cons ?_ (objs_reads objs uncut.2 size n m)
      intro u fuel _ enough
      rw [expand_builtLine, List.length_append] at enough
      rw [expand_builtLine, List.append_assoc, skipWs_spaces, built_skipWs]
      exact obj.reads uncut.1 size (n + m) u fuel (by omega)

end

theorem Scalar.read_eq_iff (v : Scalar) : v.read = some v.value ↔ v.Survives := by
  cases v with
  | str s => exact iff_of_true rfl trivial
  | int64 v => exact iff_of_true rfl trivial
  | uint64 v =>
      simp only [Scalar.read, Scalar.value, Scalar.Survives]
      split
      next small => exact iff_of_true rfl small
      next large => exact iff_of_false (by simp) large
  | double v prec =>
      simp only [Scalar.read, Scalar.value, Scalar.Survives]
      cases v.isNaN || v.isInf with
      | true => exact iff_of_true rfl (Or.inl rfl)
      | false => cases stod (numDouble v prec) <;> simp
  | boolean v => exact iff_of_true rfl trivial
  | null => exact iff_of_true rfl trivial

theorem allRead_cons_iff {read : Option JsonValue} {reads : List (Option JsonValue)} {v : JsonValue}
    {vs : List JsonValue} :
    allRead (read :: reads) = some (v :: vs) ↔ read = some v ∧ allRead reads = some vs := by
  cases read with
  | none => simp [allRead]
  | some w =>
      rw [allRead]
      cases allRead reads <;> simp

theorem allRead_scalars_iff (items : List Scalar) :
    allRead (items.map Scalar.read) = some (items.map Scalar.value) ↔
      ∀ item ∈ items, item.Survives := by
  induction items with
  | nil => simp [allRead]
  | cons item items ih =>
      rw [List.map_cons, List.map_cons, allRead_cons_iff, ih,
        Scalar.read_eq_iff, List.forall_mem_cons]

mutual

theorem Call.read_eq_iff : (call : Call) → call.Uncut → (call.read = some call.value ↔ call.Clean)
  | .field _ value, _ => value.read_eq_iff
  | .fieldBuilt _ obj, uncut => obj.read_eq_iff uncut
  | .object _ calls, uncut => readCalls_eq_iff calls uncut
  | .array _ items, _ => by
      rw [Call.read, Call.value, Call.Clean, ← allRead_scalars_iff]
      cases allRead (items.map Scalar.read) <;> simp
  | .rawArray _ objs, uncut => by
      rw [Call.read, Call.value, Call.Clean, ← readObjs_eq_iff objs uncut]
      cases allRead (readObjs objs) <;> simp

theorem readCalls_eq_iff : (calls : List Call) → UncutCalls calls →
    (readCalls calls = some (.object (membersOf calls [])) ↔ CleanCalls calls)
  | [], _ => iff_of_true rfl trivial
  | [call], uncut => by
      rw [CleanCalls, and_iff_right uncut.1, ← call.read_eq_iff uncut.2, readCalls]
      cases call.read <;> simp [membersOf, insertKey]
  | _ :: _ :: _, _ => iff_of_false nofun id

theorem Built.read_eq_iff : (obj : Built) → obj.Uncut → (obj.read = some obj.value ↔ obj.Clean)
  | .mk _ _ calls, uncut => readCalls_eq_iff calls uncut

theorem readObjs_eq_iff : (objs : List Built) → UncutObjs objs →
    (allRead (readObjs objs) = some (valuesOf objs) ↔ CleanObjs objs)
  | [], _ => iff_of_true rfl trivial
  | obj :: objs, uncut => by
      rw [readObjs, valuesOf, allRead_cons_iff, obj.read_eq_iff uncut.1,
        readObjs_eq_iff objs uncut.2, CleanObjs]

end

mutual

theorem Call.Clean.uncut : (call : Call) → call.Clean → call.Uncut
  | .field _ _, _ => trivial
  | .fieldBuilt _ obj, clean => Built.Clean.uncut obj clean
  | .object _ calls, clean => CleanCalls.uncut calls clean
  | .array _ _, _ => trivial
  | .rawArray _ objs, clean => CleanObjs.uncut objs clean

theorem CleanCalls.uncut : (calls : List Call) → CleanCalls calls → UncutCalls calls
  | [], _ => trivial
  | [call], clean => ⟨clean.1, Call.Clean.uncut call clean.2⟩
  | _ :: _ :: _, clean => clean.elim

theorem Built.Clean.uncut : (obj : Built) → obj.Clean → obj.Uncut
  | .mk _ _ calls, clean => CleanCalls.uncut calls clean

theorem CleanObjs.uncut : (objs : List Built) → CleanObjs objs → UncutObjs objs
  | [], _ => trivial
  | obj :: objs, clean => ⟨Built.Clean.uncut obj clean.1, CleanObjs.uncut objs clean.2⟩

end

theorem jsonParse_text {obj : Built} (uncut : obj.Uncut) :
    match obj.read with
    | some v => jsonParse obj.text = .ok v
    | none => ∃ e, jsonParse obj.text = .error e := by
  have reads := obj.reads uncut obj.text.length 0 [] (3 * obj.text.length + 3) (by rw [expand_zero])
  have start : skipWs obj.text = obj.text := by
    have skipped := built_skipWs 0 obj []
    rwa [expand_zero, List.append_nil] at skipped
  rw [expand_zero, List.append_nil] at reads
  unfold jsonParse
  rw [start]
  cases read : obj.read with
  | some v =>
      rw [read] at reads
      exact congrArg (Except.map Prod.fst) reads
  | none =>
      rw [read] at reads
      obtain ⟨e, failed⟩ := reads
      exact ⟨e, congrArg (Except.map Prod.fst) failed⟩

/-- The text of a builder is read back as what the calls describe only if every builder gets at most
one call, no value is cut, and every scalar survives. -/
theorem jsonParse_text_iff (obj : Built) (distinct : obj.Distinct) :
    jsonParse obj.text = .ok obj.value ↔ obj.Clean := by
  constructor
  · intro parsed
    by_cases uncut : obj.Uncut
    · rw [← obj.read_eq_iff uncut]
      have known := jsonParse_text uncut
      cases read : obj.read with
      | some v =>
          rw [read] at known
          rw [show jsonParse obj.text = .ok v from known] at parsed
          cases parsed
          rfl
      | none =>
          rw [read] at known
          obtain ⟨e, failed⟩ := known
          rw [failed] at parsed
          cases parsed
    · exact absurd (obj.commaMember distinct uncut) (jsonParse_text_not_commaMember parsed)
  · intro clean
    have uncut := Built.Clean.uncut obj clean
    have known := jsonParse_text uncut
    rw [(obj.read_eq_iff uncut).mpr clean] at known
    exact known

def oneField : Built := .mk 2 0 [.field (ascii "status") (.str (ascii "ok"))]

theorem oneField_parsed : jsonParse oneField.text = .ok oneField.value :=
  (jsonParse_text_iff oneField ⟨List.not_mem_nil, trivial, trivial⟩).mpr
    ⟨(by decide : ¬ EndsWithComma (ascii "ok")), trivial⟩

def twoFields : Built :=
  .mk 2 0 [.field (ascii "schema_version") (.str (ascii "1.0")),
    .field (ascii "session_id") (.str (ascii "s1"))]

theorem twoFields_rejected : twoFields.Distinct ∧ ¬ ∃ v, jsonParse twoFields.text = .ok v := by
  have uncut : twoFields.Uncut := ⟨trivial, (by decide : ¬ EndsWithComma (ascii "s1")), trivial⟩
  obtain ⟨e, failed⟩ : ∃ e, jsonParse twoFields.text = .error e := jsonParse_text uncut
  refine ⟨⟨(by decide : ascii "schema_version" ∉ [ascii "session_id"]), trivial,
    List.not_mem_nil, trivial, trivial⟩, ?_⟩
  rintro ⟨v, parsed⟩
  rw [failed] at parsed
  cases parsed

end Json
end LocalPC.Offline
