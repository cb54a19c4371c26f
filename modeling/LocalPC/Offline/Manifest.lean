import LocalPC.Runtime.ChunkNumbers
import LocalPC.Offline.EgoLogReader
import LocalPC.Offline.JsonReports

namespace LocalPC.Offline
open Lib Contract LocalPC.Runtime JsonParser Json

def lookupKey {α : Type} (key : Bytes) : List (Bytes × α) → Option α
  | [] => none
  | (k, v) :: rest => if key = k then some v else lookupKey key rest

namespace JsonValue

def obj : JsonValue → List (Bytes × JsonValue)
  | .object obj => obj
  | _ => []

def arr : JsonValue → List JsonValue
  | .array arr => arr
  | _ => []

def contains (v : JsonValue) (key : Bytes) : Bool := (lookupKey key v.obj).isSome

def member (v : JsonValue) (key : Bytes) : JsonValue := (lookupKey key v.obj).getD .null

def getInt (v : JsonValue) (default : Int) : Int :=
  match v with
  | .int i => i
  | _ => default

def getDouble (v : JsonValue) (default : Float) : Float :=
  match v with
  | .int i => Float.ofInt i
  | .double d => d
  | _ => default

def getString (v : JsonValue) (default : Bytes) : Bytes :=
  match v with
  | .string s => s
  | _ => default

def valueInt64 (v : JsonValue) (key : Bytes) (default : Int) : Int :=
  if v.contains key then (v.member key).getInt default else default

def valueUint64 (v : JsonValue) (key : Bytes) (default : UInt64) : UInt64 :=
  if v.contains key then UInt64.ofInt ((v.member key).getInt (toInt64 default)) else default

def valueInt (v : JsonValue) (key : Bytes) (default : Int) : Int :=
  if v.contains key then ((v.member key).getInt default).bmod (2 ^ 32) else default

def valueDouble (v : JsonValue) (key : Bytes) (default : Float) : Float :=
  if v.contains key then (v.member key).getDouble default else default

def valueString (v : JsonValue) (key default : Bytes) : Bytes :=
  if v.contains key then (v.member key).getString default else default

end JsonValue

structure EgoManifest where
  sessionId : Bytes := []
  firstTsNs : Int := 0
  lastTsNs : Int := 0
  packetCount : UInt64 := 0
  chunks : List ChunkInfo := []

inductive ManifestError where
  | cannotOpen (path : Bytes)
  | json (e : JsonError)
  deriving DecidableEq, Repr

namespace EgoManifest

def chunkOfJson (baseDir : Bytes) (cj : JsonValue) : ChunkInfo :=
  let file := cj.valueString (ascii "file") []
  let fname := if file = [] then cj.valueString (ascii "filename") [] else file
  { chunkId := cj.valueInt (ascii "chunk_id") 0
    firstTsNs := cj.valueInt64 (ascii "first_ts_ns") 0
    lastTsNs := cj.valueInt64 (ascii "last_ts_ns") 0
    packetCount := cj.valueUint64 (ascii "packet_count") 0
    path := joinPath baseDir fname }

def numberedChunks (baseDir : Bytes) (dir : Dir) (i : Nat) : Nat → List ChunkInfo
  | 0 => []
  | fuel + 1 =>
      if chunkFilename i ∈ dir then
        { chunkId := i, path := joinPath baseDir (chunkFilename i) } ::
          numberedChunks baseDir dir (i + 1) fuel
      else []

def chunksOfDir (baseDir : Bytes) (dir : Dir) : List ChunkInfo :=
  -- more chunk files than directory entries do not exist
  match numberedChunks baseDir dir 0 dir.entries.length with
  | [] =>
      if ascii "ego.bin" ∈ dir then [{ chunkId := 0, path := joinPath baseDir (ascii "ego.bin") }]
      else []
  | chunks => chunks

def ofJson (baseDir : Bytes) (dir : Dir) (j : JsonValue) : EgoManifest where
  sessionId := j.valueString (ascii "session_id") []
  firstTsNs := j.valueInt64 (ascii "first_ts_ns") 0
  lastTsNs := j.valueInt64 (ascii "last_ts_ns") 0
  packetCount := j.valueUint64 (ascii "packet_count") 0
  chunks :=
    if j.contains (ascii "chunks") then (j.member (ascii "chunks")).arr.map (chunkOfJson baseDir)
    else chunksOfDir baseDir dir

/-- `from_json` of the file `name` in the directory `baseDir`, whose contents are `dir`. -/
def fromJson (baseDir : Bytes) (dir : Dir) (name : Bytes) : Except ManifestError EgoManifest :=
  match dir.lookup name with
  | none => .error (.cannotOpen (joinPath baseDir name))
  | some text =>
      match jsonParse text with
      | .error e => .error (.json e)
      | .ok j => .ok (ofJson baseDir dir j)

end EgoManifest

theorem lookupKey_insertKey {α : Type} (key k : Bytes) (v : α) (obj : List (Bytes × α)) :
    lookupKey key (insertKey k v obj) = if key = k then some v else lookupKey key obj := by
  induction obj with
  | nil => rfl
  | cons entry rest ih =>
      obtain ⟨k', v'⟩ := entry
      by_cases same : k = k'
      · subst same
        rw [insertKey, if_pos rfl]
        simp only [lookupKey]
        split <;> rfl
      · by_cases before : k < k'
        · rw [insertKey, if_neg same, if_pos before, lookupKey]
        · rw [insertKey, if_neg same, if_neg before, lookupKey, ih, lookupKey]
          by_cases here : key = k'
          · have other : key ≠ k := fun equal => same (equal.symm.trans here)
            rw [if_pos here, if_neg other, if_pos here]
          · rw [if_neg here, if_neg here]

namespace Json

structure ReadsAs (text : Bytes) (read : Option JsonValue) : Prop where
  printed : ∀ u, skipWs (text ++ u) = text ++ u
  reads : ∀ size fuel u, Stops u → 3 ≤ fuel → Reads u (parseValue size fuel (text ++ u)) read

def readNat (n : Nat) : Option JsonValue := if n < 2 ^ 63 then some (.int n) else none

theorem readsAs_decimal (n : Nat) : ReadsAs (decimal n) (readNat n) where
  printed u := by
    have digit := peek_digits (decimal_ne_nil n) isDigit_of_mem_decimal
    refine skipWs_of_peek ?_
    rw [peek_append (decimal_ne_nil n)]
    generalize peek (decimal n) = c at digit
    rw [isDigit_iff] at digit
    simp only [isWs, Bool.or_eq_false_iff, decide_eq_false_iff_not, ← UInt8.toNat_inj]
    refine ⟨⟨⟨?_, ?_⟩, ?_⟩, ?_⟩ <;> intro same <;> rw [same] at digit <;> revert digit <;> decide
  reads size fuel u stops enough := by
    obtain ⟨fuel, rfl⟩ : ∃ f, fuel = f + 1 := ⟨fuel - 1, by omega⟩
    have parsed := parseNumber_toString (n : Int) stops
    rw [decimal_eq_toString]
    rw [toString_eq] at parsed ⊢
    rw [parseValue_bytes (integerText_wellFormed _), parsed, readNat]
    by_cases small : n < 2 ^ 63
    · rw [if_pos small, if_pos ⟨by omega, by omega⟩]
      rfl
    · rw [if_neg small, if_neg (by omega)]
      exact ⟨_, rfl⟩

theorem readsAs_str (s : Bytes) : ReadsAs (str s) (some (.string s)) where
  printed u := by
    rw [str_append]
    exact skipWs_of_peek rfl
  reads size fuel u stops enough := reads_scalar (.str s) stops enough

def memberLine (indent : Nat) (member : Bytes × Bytes) : Bytes :=
  keyText indent 0 member.1 ++ member.2

def insertAll (obj : List (Bytes × JsonValue)) (members : List (Bytes × JsonValue)) :
    List (Bytes × JsonValue) :=
  members.foldl (fun obj member => insertKey member.1 member.2 obj) obj

theorem parseMembers_skipWs {size fuel : Nat} {start : Bytes} (nonempty : skipWs start ≠ [])
    (obj : List (Bytes × JsonValue)) :
    parseMembers size (fuel + 1) start obj = parseMembers size (fuel + 1) (skipWs start) obj := by
  have some_ : start ≠ [] := by
    rintro rfl
    exact nonempty rfl
  rw [parseMembers, parseMembers, if_neg some_, if_neg nonempty, skipWs_skipWs]

theorem parseMembers_memberLine {member : Bytes × Bytes} {read : Option JsonValue}
    (first : ReadsAs member.2 read) (size fuel indent : Nat) (u : Bytes)
    (obj : List (Bytes × JsonValue)) :
    parseMembers size (fuel + 1) (memberLine indent member ++ u) obj =
      parseValue size fuel (member.2 ++ u) >>= afterMember size fuel member.1 obj := by
  have key : skipWs (memberLine indent member ++ u) =
      str member.1 ++ ([colon, space] ++ (member.2 ++ u)) := by
    rw [memberLine, keyText_eq]
    simp only [List.append_assoc]
    rw [skipWs_spaces, str_append]
    exact skipWs_of_peek rfl
  have nonempty : str member.1 ++ ([colon, space] ++ (member.2 ++ u)) ≠ [] := List.cons_ne_nil _ _
  rw [parseMembers_skipWs (by rw [key]; exact nonempty), key, parseMembers_key, first.printed]

theorem allRead_insertAll (key : Bytes) (keys : List Bytes) (read : Option JsonValue)
    (reads : List (Option JsonValue)) (obj : List (Bytes × JsonValue)) :
    (allRead (read :: reads)).map
      (fun vs => JsonValue.object (insertAll obj ((key :: keys).zip vs))) =
      read.bind fun v => (allRead reads).map fun vs =>
        .object (insertAll (insertKey key v obj) (keys.zip vs)) := by
  cases read with
  | none => rfl
  | some v => simp [allRead, insertAll, Option.map_map, Function.comp_def]

theorem reads_members {size indent m fuel : Nat} {t : Bytes} {members : List (Bytes × Bytes)}
    {reads : List (Option JsonValue)}
    (each : List.Forall₂ (fun member read => ReadsAs member.2 read) members reads)
    (some_ : members ≠ []) (enough : members.length + 3 ≤ fuel) (obj : List (Bytes × JsonValue)) :
    Reads t (parseMembers size fuel
      (itemLines (members.map (memberLine indent)) ++ (spaces m ++ closeBrace :: t)) obj)
        ((allRead reads).map fun vs =>
          .object (insertAll obj ((members.map Prod.fst).zip vs))) := by
  induction each generalizing fuel obj with
  | nil => contradiction
  | @cons member read members reads first more ih =>
      obtain ⟨fuel, rfl⟩ : ∃ f, fuel = f + 1 := ⟨fuel - 1, by omega⟩
      rw [List.length_cons] at enough
      rw [List.map_cons (f := Prod.fst), allRead_insertAll]
      cases more with
      | nil =>
          have line : itemLines
              ([member].map (memberLine indent)) ++ (spaces m ++ closeBrace :: t) =
              memberLine indent member ++ (newline :: (spaces m ++ closeBrace :: t)) := by
            simp [itemLines]
          have behind : skipWs (newline :: (spaces m ++ closeBrace :: t)) = closeBrace :: t := by
            rw [skipWs_cons_ws (by decide), skipWs_spaces]
            exact skipWs_of_peek rfl
          have stops : Stops (newline :: (spaces m ++ closeBrace :: t)) := rfl
          rw [line, parseMembers_memberLine first]
          refine (first.reads size fuel _ stops (by omega)).bind fun v => ?_
          unfold afterMember
          rw [behind]
          rfl
      | @cons next nextRead members reads second more =>
          have line : itemLines ((member :: next :: members).map (memberLine indent)) ++
              (spaces m ++ closeBrace :: t) =
              memberLine indent member ++ (comma :: newline ::
                (itemLines ((next :: members).map (memberLine indent)) ++
                  (spaces m ++ closeBrace :: t))) := by
            simp [itemLines]
          have stops (u : Bytes) : Stops (comma :: u) := rfl
          rw [line, parseMembers_memberLine first]
          refine (first.reads size fuel _ (stops _) (by omega)).bind fun v => ?_
          have room : (next :: members).length + 3 ≤ fuel := by
            simp only [List.length_cons] at enough ⊢
            omega
          have later := ih (List.cons_ne_nil _ _) room (insertKey member.1 v obj)
          have blank (u : Bytes) : skipWs (newline :: u) = skipWs u := skipWs_cons_ws (by decide) u
          have separator (u : Bytes) : skipWs (comma :: u) = comma :: u := skipWs_of_peek rfl
          obtain ⟨fuel, rfl⟩ : ∃ f, fuel = f + 1 := ⟨fuel - 1, by omega⟩
          have more_ : skipWs
              (itemLines ((next :: members).map (memberLine indent)) ++
                (spaces m ++ closeBrace :: t)) ≠
              [] := by
            intro none
            have all := List.dropWhile_eq_nil_iff.mp none closeBrace (by simp)
            exact absurd all (by decide)
          have found (u : Bytes) : peek (comma :: u) = comma := rfl
          unfold afterMember
          rw [separator, if_pos (found _), List.tail_cons]
          dsimp only
          rw [parseMembers_skipWs (by rw [blank]; exact more_), blank, ← parseMembers_skipWs more_]
          exact later

theorem peek_memberLine (indent : Nat) (member : Bytes × Bytes) (u : Bytes) :
    peek (skipWs (memberLine indent member ++ u)) = quote := by
  rw [memberLine, keyText_eq]
  simp only [List.append_assoc]
  rw [skipWs_spaces, str_append]
  rfl

theorem parseValue_brace {size fuel : Nat} {t : Bytes} (first : peek (skipWs t) ≠ closeBrace) :
    parseValue size (fuel + 2) (openBrace :: newline :: t) =
      parseMembers size fuel (skipWs t) [] := by
  have opened : parseValue size (fuel + 2) (openBrace :: newline :: t) =
      parseObject size (fuel + 1) (openBrace :: newline :: t) := rfl
  have start : skipWs (newline :: t) = skipWs t := skipWs_cons_ws (by decide) t
  have brace : ¬ peek (openBrace :: newline :: t) ≠ openBrace := not_not.mpr rfl
  rw [opened, parseObject, List.tail_cons, start]
  dsimp only
  rw [if_neg brace, if_neg first]

theorem reads_object {size indent m fuel : Nat} {t : Bytes} {members : List (Bytes × Bytes)}
    {reads : List (Option JsonValue)}
    (each : List.Forall₂ (fun member read => ReadsAs member.2 read) members reads)
    (some_ : members ≠ []) (enough : members.length + 5 ≤ fuel) :
    Reads t (parseValue size fuel (openBrace :: newline ::
        (itemLines (members.map (memberLine indent)) ++ (spaces m ++ closeBrace :: t))))
      ((allRead reads).map fun vs => .object (insertAll [] ((members.map Prod.fst).zip vs))) := by
  have first : peek
      (skipWs (itemLines (members.map (memberLine indent)) ++ (spaces m ++ closeBrace :: t))) =
      quote := by
    match members, some_ with
    | [member], _ =>
        rw [List.map_cons, List.map_nil, itemLines, List.append_assoc]
        exact peek_memberLine ..
    | member :: next :: rest, _ =>
        rw [List.map_cons, List.map_cons, itemLines, List.append_assoc, List.append_assoc]
        · exact peek_memberLine ..
        · exact List.cons_ne_nil _ _
  have nonempty : skipWs
      (itemLines (members.map (memberLine indent)) ++ (spaces m ++ closeBrace :: t)) ≠ [] := by
    intro none
    rw [none] at first
    exact absurd first (by decide)
  obtain ⟨fuel, rfl⟩ : ∃ f, fuel = f + 3 := ⟨fuel - 3, by omega⟩
  rw [parseValue_brace (by rw [first]; decide), ← parseMembers_skipWs nonempty]
  exact reads_members each some_ (by omega) []

end Json

theorem jsonEscape_eq (s : Bytes) : jsonEscape s = s.flatMap escape := rfl

def chunkMembers (i : Nat) (c : Runtime.ChunkInfo) : List (Bytes × Bytes) :=
  [(ascii "chunk_id", decimal i), (ascii "file", str c.filename), (ascii "bytes", decimal c.bytes),
    (ascii "first_ts_ns", decimal c.firstTsNs.toNat),
      (ascii "last_ts_ns", decimal c.lastTsNs.toNat),
    (ascii "packet_count", decimal c.packetCount.toNat)]

def chunkReads (i : Nat) (c : Runtime.ChunkInfo) : List (Option JsonValue) :=
  [readNat i, some (.string c.filename), readNat c.bytes, readNat c.firstTsNs.toNat,
    readNat c.lastTsNs.toNat, readNat c.packetCount.toNat]

def chunkLine (i : Nat) (c : Runtime.ChunkInfo) : Bytes :=
  spaces 4 ++ (openBrace :: newline :: (itemLines ((chunkMembers i c).map (memberLine 6)) ++
    (spaces 4 ++ [closeBrace])))

theorem manifestChunkJson_eq (count i : Nat) (c : Runtime.ChunkInfo) :
    manifestChunkJson count i c = chunkLine i c ++ if i + 1 < count then [comma, newline]
      else [newline] := by
  have keys : ascii "      \"chunk_id\": " = keyText 6 0 (ascii "chunk_id") ∧
      ascii "      \"file\": \"" = keyText 6 0 (ascii "file") ++ [quote] ∧
      ascii "      \"bytes\": " = keyText 6 0 (ascii "bytes") ∧
      ascii "      \"first_ts_ns\": " = keyText 6 0 (ascii "first_ts_ns") ∧
      ascii "      \"last_ts_ns\": " = keyText 6 0 (ascii "last_ts_ns") ∧
      ascii "      \"packet_count\": " = keyText 6 0 (ascii "packet_count") := by decide
  have marks : ascii "    \x7b\n" = spaces 4 ++ [openBrace, newline] ∧
      ascii "    \x7d" = spaces 4 ++ [closeBrace] ∧
      ascii ",\n" = [comma, newline] ∧ ascii "\",\n" = [quote, comma, newline] ∧
        ascii "\n" = [newline] ∧
      ascii "," = [comma] := by decide
  obtain ⟨chunkId, file, bytes, first, last, count_⟩ := keys
  obtain ⟨opened, closed, separator, quoted, line, comma_⟩ := marks
  have ending : (if i + 1 < count then ascii "," else []) ++ ascii "\n" =
      if i + 1 < count then [comma, newline] else [newline] := by
    rw [comma_, line]
    split <;> rfl
  unfold manifestChunkJson
  simp only [List.append_assoc]
  rw [ending]
  simp only [chunkId, file, bytes, first, last, count_, opened, closed, separator,
    quoted, line, jsonEscape_eq, chunkLine, chunkMembers, memberLine, itemLines, str, List.map_cons,
      List.map_nil, List.append_assoc,
    List.cons_append, List.nil_append]

theorem flatten_manifestChunkJson (chunks : List Runtime.ChunkInfo) :
    (chunks.mapIdx fun i c => manifestChunkJson chunks.length i c).flatten =
      itemLines (chunks.mapIdx chunkLine) := by
  have go (k : Nat) :
      (chunks.mapIdx fun i c => manifestChunkJson (k + chunks.length) (k + i) c).flatten =
      itemLines (chunks.mapIdx fun i c => chunkLine (k + i) c) := by
    induction chunks generalizing k with
    | nil => rfl
    | cons c chunks ih =>
        have later := ih (k + 1)
        simp only [Nat.add_assoc, Nat.add_comm 1] at later
        rw [List.mapIdx_cons, List.mapIdx_cons, List.flatten_cons, List.length_cons,
          later, manifestChunkJson_eq]
        cases chunks with
        | nil => simp [itemLines]
        | cons next chunks =>
            rw [if_pos (by simp), List.append_assoc, List.mapIdx_cons]
            simp [itemLines]
  simpa only [Nat.zero_add] using go 0

theorem manifestJson_eq (chunks : List Runtime.ChunkInfo) :
    manifestJson chunks =
      openBrace :: newline :: (spaces 0 ++ (keyText 2 0 (ascii "chunks") ++
        (openBracket :: newline ::
          (itemLines (chunks.mapIdx chunkLine) ++ (spaces 2 ++ closeBracket ::
          newline :: closeBrace :: [newline]))))) := by
  have opened : ascii "\x7b\n  \"chunks\": [\n" =
      openBrace :: newline :: (keyText 2 0 (ascii "chunks") ++ [openBracket, newline]) := by decide
  have closed : ascii "  ]\n\x7d\n" =
      spaces 2 ++ [closeBracket, newline, closeBrace, newline] := by decide
  rw [manifestJson, opened, closed, flatten_manifestChunkJson]
  simp [spaces]

def chunkRead (i : Nat) (c : Runtime.ChunkInfo) : Option JsonValue :=
  (allRead (chunkReads i c)).map fun vs =>
    .object (insertAll [] (((chunkMembers i c).map Prod.fst).zip vs))

theorem reads_chunkLine {size fuel i : Nat} {c : Runtime.ChunkInfo} {u : Bytes}
    (enough : 3 * (chunkLine i c).length + 3 ≤ fuel) :
    Reads u (parseValue size fuel (skipWs (chunkLine i c ++ u))) (chunkRead i c) := by
  have each : List.Forall₂ (fun member read => ReadsAs member.2 read)
      (chunkMembers i c) (chunkReads i c) :=
    .cons (readsAs_decimal _)
      (.cons (readsAs_str _) (.cons (readsAs_decimal _) (.cons (readsAs_decimal _)
      (.cons (readsAs_decimal _) (.cons (readsAs_decimal _) .nil)))))
  have long : 6 ≤ (chunkLine i c).length := by
    simp [chunkLine, spaces]
  have start : skipWs (chunkLine i c ++ u) = openBrace :: newline ::
      (itemLines ((chunkMembers i c).map (memberLine 6)) ++ (spaces 4 ++ closeBrace :: u)) := by
    rw [chunkLine]
    simp only [List.append_assoc, List.cons_append, List.nil_append]
    rw [skipWs_spaces]
    exact skipWs_of_peek rfl
  rw [start]
  exact reads_object each (List.cons_ne_nil _ _)
    (by simp only [chunkMembers, List.length_cons, List.length_nil]; omega)

theorem reads_chunkLines (size : Nat) (chunks : List Runtime.ChunkInfo) (k : Nat) :
    List.Forall₂ (fun line read => ∀ u fuel, Stops u → 3 * (expand 0 line).length + 3 ≤ fuel →
      Reads u (parseValue size fuel (skipWs (expand 0 line ++ u))) read)
      (chunks.mapIdx fun i c => chunkLine (k + i) c)
        (chunks.mapIdx fun i c => chunkRead (k + i) c) := by
  induction chunks generalizing k with
  | nil => exact .nil
  | cons c chunks ih =>
      rw [List.mapIdx_cons, List.mapIdx_cons]
      refine .cons (fun u fuel _ enough => ?_) ?_
      · rw [expand_zero] at enough ⊢
        exact reads_chunkLine enough
      · simpa only [Nat.add_assoc, Nat.add_comm 1] using ih (k + 1)

theorem peek_chunkLine (i : Nat) (c : Runtime.ChunkInfo) (u : Bytes) :
    peek (skipWs (expand 0 (chunkLine i c) ++ u)) ≠ closeBracket := by
  have first (t : Bytes) : skipWs (openBrace :: t) = openBrace :: t := skipWs_of_peek rfl
  rw [expand_zero, chunkLine, List.append_assoc, skipWs_spaces, List.cons_append, first]
  exact (by decide : openBrace ≠ closeBracket)

theorem reads_chunks (size : Nat) {fuel : Nat} (chunks : List Runtime.ChunkInfo) (u : Bytes)
    (enough : 3 * (itemLines (chunks.mapIdx chunkLine)).length + 18 ≤ fuel) :
    Reads u (parseValue size fuel (openBracket :: newline :: (itemLines (chunks.mapIdx chunkLine) ++
      (spaces 2 ++ closeBracket :: u)))) ((allRead (chunks.mapIdx chunkRead)).map .array) := by
  have lines := reads_chunkLines size chunks 0
  simp only [Nat.zero_add] at lines
  cases chunks with
  | nil =>
      obtain ⟨fuel, rfl⟩ : ∃ f, fuel = f + 2 := ⟨fuel - 2, by omega⟩
      rfl
  | cons c chunks =>
      have heads : ∀ line ∈ (c :: chunks).mapIdx chunkLine, ∀ u,
          peek (skipWs (expand 0 line ++ u)) ≠ closeBracket := by
        intro line listed u
        obtain ⟨i, _, rfl⟩ := List.mem_mapIdx.mp listed
        exact peek_chunkLine i _ u
      have read (room : 3 *
          (expand 0 (bracketed (spaces 2) ((c :: chunks).mapIdx chunkLine))).length + 3 ≤ fuel) :=
        reads_bracketed (t := u) lines heads room
      rw [expand_zero, List.mapIdx_cons, bracketed_cons, ← List.mapIdx_cons] at read
      simp only [List.length_cons, List.length_append, List.cons_append, List.append_assoc,
        List.nil_append] at read
      refine read ?_
      have pad : (spaces 2).length = 2 := rfl
      rw [pad, List.length_nil]
      omega

theorem reads_manifestJson (chunks : List Runtime.ChunkInfo) :
    Reads [newline] (parseValue (manifestJson chunks).length (3 * (manifestJson chunks).length + 3)
        (skipWs (manifestJson chunks)))
      ((allRead (chunks.mapIdx chunkRead)).map fun vs =>
        .object [(ascii "chunks", .array vs)]) := by
  have text := manifestJson_eq chunks
  have long : (itemLines (chunks.mapIdx chunkLine)).length + 6 ≤ (manifestJson chunks).length := by
    rw [text]
    simp only [List.length_cons, List.length_append]
    omega
  generalize (manifestJson chunks).length = size at long
  obtain ⟨fuel, fuel_eq⟩ : ∃ f, 3 * size + 3 = f + 3 := ⟨3 * size, rfl⟩
  have start (t : Bytes) : skipWs (openBrace :: t) = openBrace :: t := skipWs_of_peek rfl
  have bracket (t : Bytes) : skipWs (openBracket :: t) = openBracket :: t := skipWs_of_peek rfl
  rw [fuel_eq, text, start, parseValue_text, parseMembers_key, bracket]
  have room : 3 * (itemLines (chunks.mapIdx chunkLine)).length + 18 ≤ fuel := by omega
  have read := reads_chunks size chunks (newline :: closeBrace :: [newline]) room
  have ending : skipWs (newline :: closeBrace :: [newline]) = closeBrace :: [newline] := by decide
  have whole : Reads [newline] (_ >>= afterMember size fuel (ascii "chunks") [])
      (((allRead (chunks.mapIdx chunkRead)).map .array).bind fun w =>
        some (.object [(ascii "chunks", w)])) :=
    read.bind fun w => afterMember_brace ending
  cases all : allRead (chunks.mapIdx chunkRead) with
  | none =>
      rw [all] at whole
      exact whole
  | some vs =>
      rw [all] at whole
      exact whole

theorem jsonParse_manifestJson {chunks : List Runtime.ChunkInfo} {vs : List JsonValue}
    (read : allRead (chunks.mapIdx chunkRead) = some vs) :
    jsonParse (manifestJson chunks) = .ok (.object [(ascii "chunks", .array vs)]) := by
  have parsed := reads_manifestJson chunks
  rw [read] at parsed
  rw [jsonParse, show parseValue _ _ _ = _ from parsed]
  rfl

theorem jsonParse_manifestJson_error {chunks : List Runtime.ChunkInfo}
    (unread : allRead (chunks.mapIdx chunkRead) = none) :
    ∃ e, jsonParse (manifestJson chunks) = .error e := by
  have parsed := reads_manifestJson chunks
  rw [unread] at parsed
  obtain ⟨e, failed⟩ := parsed
  exact ⟨e, by rw [jsonParse, failed]; rfl⟩

/-- The numbers of an entry are below the limit of `stoll`. -/
structure Signed (i : Nat) (c : Runtime.ChunkInfo) : Prop where
  index : i < 2 ^ 63
  bytes : c.bytes < 2 ^ 63
  firstTsNs : c.firstTsNs.toNat < 2 ^ 63
  lastTsNs : c.lastTsNs.toNat < 2 ^ 63

theorem readNat_some {n : Nat} {v : JsonValue} (read : readNat n = some v) :
    n < 2 ^ 63 ∧ v = .int n := by
  unfold readNat at read
  split at read
  next small =>
    cases read
    exact ⟨small, rfl⟩
  · cases read

theorem allRead_cons {read : Option JsonValue}
    {reads : List (Option JsonValue)} {vs : List JsonValue}
    (all : allRead (read :: reads) = some vs) :
    ∃ v rest, read = some v ∧ allRead reads = some rest ∧ vs = v :: rest := by
  cases read with
  | none => cases all
  | some v =>
      obtain ⟨rest, found, rfl⟩ := Option.map_eq_some_iff.mp all
      exact ⟨v, rest, rfl, found, rfl⟩

theorem Signed.of_read {i : Nat} {c : Runtime.ChunkInfo} {v : JsonValue}
    (read : chunkRead i c = some v) :
    Signed i c := by
  obtain ⟨vs, all, -⟩ := Option.map_eq_some_iff.mp read
  obtain ⟨_, _, index, all, -⟩ := allRead_cons all
  obtain ⟨_, _, -, all, -⟩ := allRead_cons all
  obtain ⟨_, _, bytes, all, -⟩ := allRead_cons all
  obtain ⟨_, _, first, all, -⟩ := allRead_cons all
  obtain ⟨_, _, last, -⟩ := allRead_cons all
  exact ⟨(readNat_some index).1, (readNat_some bytes).1,
    (readNat_some first).1, (readNat_some last).1⟩

def chunkValue (i : Nat) (c : Runtime.ChunkInfo) : JsonValue :=
  .object (insertAll []
    [(ascii "chunk_id", .int i), (ascii "file", .string c.filename), (ascii "bytes", .int c.bytes),
      (ascii "first_ts_ns", .int c.firstTsNs.toNat), (ascii "last_ts_ns", .int c.lastTsNs.toNat),
    (ascii "packet_count", .int c.packetCount.toNat)])

theorem Signed.read {i : Nat} {c : Runtime.ChunkInfo} (signed : Signed i c) :
    chunkRead i c = some (chunkValue i c) := by
  have read {n : Nat} (small : n < 2 ^ 63) : readNat n = some (.int n) := if_pos small
  have count : c.packetCount.toNat < 2 ^ 63 := c.packetCount.toNat_lt.trans (by decide)
  rw [chunkRead, chunkReads, read signed.index, read signed.bytes,
    read signed.firstTsNs, read signed.lastTsNs, read count]
  rfl

theorem chunkOfJson_chunkValue (baseDir : Bytes) (i : Nat) {c : Runtime.ChunkInfo}
    (named : c.filename ≠ []) :
    EgoManifest.chunkOfJson baseDir (chunkValue i c) =
      { chunkId := (i : Int).bmod (2 ^ 32)
        firstTsNs := c.firstTsNs.toNat
        lastTsNs := c.lastTsNs.toNat
        packetCount := UInt64.ofNat c.packetCount.toNat
        path := joinPath baseDir c.filename } := by
  have keys : ascii "file" ≠ ascii "packet_count" ∧ ascii "file" ≠ ascii "last_ts_ns" ∧
      ascii "file" ≠ ascii "first_ts_ns" ∧ ascii "file" ≠ ascii "bytes" ∧
      ascii "chunk_id" ≠ ascii "packet_count" ∧ ascii "chunk_id" ≠ ascii "last_ts_ns" ∧
      ascii "chunk_id" ≠ ascii "first_ts_ns" ∧ ascii "chunk_id" ≠ ascii "bytes" ∧
        ascii "chunk_id" ≠ ascii "file" ∧
      ascii "first_ts_ns" ≠ ascii "packet_count" ∧ ascii "first_ts_ns" ≠ ascii "last_ts_ns" ∧
      ascii "last_ts_ns" ≠ ascii "packet_count" := by decide
  obtain ⟨k1, k2, k3, k4, k5, k6, k7, k8, k9, k10, k11, k12⟩ := keys
  have count : UInt64.ofInt c.packetCount.toNat = UInt64.ofNat c.packetCount.toNat := by
    have small := c.packetCount.toNat_lt
    rw [UInt64.ofInt]
    congr 1
    omega
  simp only [EgoManifest.chunkOfJson, JsonValue.valueString,
    JsonValue.valueInt, JsonValue.valueInt64, JsonValue.valueUint64, JsonValue.contains,
      JsonValue.member, JsonValue.obj, chunkValue, insertAll, List.foldl_cons,
    List.foldl_nil, lookupKey_insertKey, k1, k2, k3, k4, k5, k6, k7, k8, k9, k10,
      k11, k12, if_false, if_true,
    Option.isSome_some, Option.getD_some, JsonValue.getInt, JsonValue.getString, named, count]

theorem allRead_mapIdx {α : Type} {f : Nat → α → Option JsonValue}
    {xs : List α} {vs : List JsonValue} (all : allRead (xs.mapIdx f) = some vs) :
    xs.mapIdx f = vs.map some := by
  generalize xs.mapIdx f = reads at all
  induction reads generalizing vs with
  | nil =>
      cases all
      rfl
  | cons read reads ih =>
      obtain ⟨v, rest, rfl, found, rfl⟩ := allRead_cons all
      rw [ih found, List.map_cons]

theorem allRead_map_some (vs : List JsonValue) : allRead (vs.map some) = some vs := by
  induction vs with
  | nil => rfl
  | cons v vs ih => rw [List.map_cons, allRead, ih, Option.map_some]

theorem allRead_chunks_iff (chunks : List Runtime.ChunkInfo) :
    (∃ vs, allRead (chunks.mapIdx chunkRead) = some vs) ↔
      ∀ i c, chunks[i]? = some c → Signed i c := by
  constructor
  · rintro ⟨vs, all⟩ i c found
    have entry := congrArg (·[i]?) (allRead_mapIdx all)
    simp only [List.getElem?_mapIdx, List.getElem?_map, found, Option.map_some] at entry
    obtain ⟨v, -, read⟩ := Option.map_eq_some_iff.mp entry.symm
    exact Signed.of_read read.symm
  · intro signed
    refine ⟨chunks.mapIdx chunkValue, ?_⟩
    rw [← allRead_map_some (chunks.mapIdx chunkValue)]
    congr 1
    refine List.ext_getElem? fun i => ?_
    simp only [List.getElem?_mapIdx, List.getElem?_map]
    cases found : chunks[i]? with
    | none => rfl
    | some c => exact congrArg some (signed i c found).read

def expectedChunks (baseDir : Bytes) (chunks : List Runtime.ChunkInfo) : List ChunkInfo :=
  chunks.mapIdx fun i c =>
    { chunkId := i
      path := joinPath baseDir (chunkFilename i)
      firstTsNs := c.firstTsNs.toNat
      lastTsNs := c.lastTsNs.toNat
      packetCount := UInt64.ofNat c.packetCount.toNat }

/-- `from_json` of what `UpdateManifest` writes gives back the chunks. -/
def ManifestRoundTrip (baseDir : Bytes) (w : ChunkWriter) : Prop :=
  ∃ m, EgoManifest.fromJson baseDir (w.updateManifest .done).dir manifestName = .ok m ∧
    m.chunks = expectedChunks baseDir w.chunks

theorem fromJson_updateManifest (baseDir : Bytes) (w : ChunkWriter) :
    EgoManifest.fromJson baseDir (w.updateManifest .done).dir manifestName =
      match jsonParse (manifestJson w.chunks) with
      | .error e => .error (.json e)
      | .ok j => .ok (EgoManifest.ofJson baseDir (w.updateManifest .done).dir j) := by
  have found : (w.updateManifest .done).dir.lookup manifestName = some (manifestJson w.chunks) :=
    AList.lookup_insert _
  rw [EgoManifest.fromJson, found]

theorem chunks_ofJson (baseDir : Bytes) (dir : Dir) (vs : List JsonValue) :
    (EgoManifest.ofJson baseDir dir (.object [(ascii "chunks", .array vs)])).chunks =
      vs.map (EgoManifest.chunkOfJson baseDir) := rfl

theorem joinPath_injective {base a b : Bytes} (relative : a.head? ≠ some slash)
    (relative' : b.head? ≠ some slash) (same : joinPath base a = joinPath base b) : a = b := by
  unfold joinPath at same
  simp only [relative, relative', false_or] at same
  split_ifs at same
  · exact same
  · exact List.append_cancel_left same
  · exact (List.cons.inj (List.append_cancel_left same)).2

theorem chunkFilename_head (i : Nat) : (chunkFilename i).head? ≠ some slash := by
  intro same
  exact absurd (Option.some.inj same) (by decide)

section RoundTrip
variable {config : RuntimeConfig} {now : Int} {run : WriterRun} {baseDir : Bytes}

theorem named_of_reach (reached : (writerMachine config now).Reach (fun _ _ => True) run)
    {c : Runtime.ChunkInfo} (member : c ∈ run.writer.chunks) :
    ∃ i, c.filename = chunkFilename i := by
  obtain ⟨ids, numbered⟩ := numbered_of_reach reached
  have listed : c.filename ∈ run.writer.names := List.mem_map_of_mem member
  rw [numbered.names] at listed
  obtain ⟨id, -, name⟩ := List.mem_map.mp listed
  exact ⟨id.toNat, name.symm⟩

theorem chunkOfJson_signed {i : Nat} {c : Runtime.ChunkInfo} {v : JsonValue} (signed : Signed i c)
    (named : ∃ id, c.filename = chunkFilename id) (read : chunkRead i c = some v) :
    EgoManifest.chunkOfJson baseDir v =
      { chunkId := (i : Int).bmod (2 ^ 32)
        firstTsNs := c.firstTsNs.toNat
        lastTsNs := c.lastTsNs.toNat
        packetCount := UInt64.ofNat c.packetCount.toNat
        path := joinPath baseDir c.filename } := by
  obtain ⟨id, name⟩ := named
  rw [signed.read] at read
  cases read
  refine chunkOfJson_chunkValue baseDir i ?_
  rw [name]
  simp [chunkFilename, ascii]

theorem bmod_of_lt {i : Nat} (small : i < 2 ^ 31) : (i : Int).bmod (2 ^ 32) = i :=
  Int.bmod_eq_of_le (by omega) (by omega)

theorem lt_of_bmod {i : Nat} (same : (i : Int).bmod (2 ^ 32) = i) : i < 2 ^ 31 := by
  have bound := Int.bmod_lt (x := i) (m := 2 ^ 32) (by decide)
  rw [same] at bound
  omega

theorem roundTrip_of_fits (reached : (writerMachine config now).Reach (fun _ _ => True) run)
    (distinct : run.writer.names.Nodup) (few : run.writer.chunks.length ≤ 2 ^ 31)
    (signed : ∀ c ∈ run.writer.chunks, c.bytes < 2 ^ 63 ∧ c.firstTsNs.toNat < 2 ^ 63 ∧
      c.lastTsNs.toNat < 2 ^ 63) :
    ManifestRoundTrip baseDir run.writer := by
  obtain ⟨ids, numbered⟩ := numbered_of_reach reached
  have all (i : Nat) (c : Runtime.ChunkInfo)
      (found : run.writer.chunks[i]? = some c) : Signed i c := by
    have short : i < run.writer.chunks.length := (List.getElem?_eq_some_iff.mp found).1
    obtain ⟨bytes, first, last⟩ := signed c (List.mem_of_getElem? found)
    exact ⟨by omega, bytes, first, last⟩
  obtain ⟨vs, read⟩ := (allRead_chunks_iff _).mpr all
  refine ⟨EgoManifest.ofJson baseDir (run.writer.updateManifest .done).dir
    (.object [(ascii "chunks", .array vs)]), ?_, ?_⟩
  · rw [fromJson_updateManifest, jsonParse_manifestJson read]
  · rw [chunks_ofJson, expectedChunks]
    refine List.ext_getElem? fun i => ?_
    have entry := congrArg (·[i]?) (allRead_mapIdx read)
    simp only [List.getElem?_mapIdx, List.getElem?_map] at entry ⊢
    cases found : run.writer.chunks[i]? with
    | none =>
        rw [found] at entry
        rw [Option.map_eq_none_iff.mp entry.symm]
        rfl
    | some c =>
        rw [found] at entry
        obtain ⟨v, value, here⟩ := Option.map_eq_some_iff.mp entry.symm
        have short : i < run.writer.chunks.length := (List.getElem?_eq_some_iff.mp found).1
        have name : c.filename = chunkFilename i :=
          numbered.name distinct (by rw [ChunkWriter.names, List.getElem?_map, found]; rfl)
        rw [value, Option.map_some, Option.map_some,
          chunkOfJson_signed (all i c found) ⟨i, name⟩ here.symm, bmod_of_lt (by omega), name]

theorem fits_of_roundTrip (reached : (writerMachine config now).Reach (fun _ _ => True) run)
    (roundTrip : ManifestRoundTrip baseDir run.writer) :
    run.writer.names.Nodup ∧ run.writer.chunks.length ≤ 2 ^ 31 ∧
      ∀ c ∈ run.writer.chunks, c.bytes < 2 ^ 63 ∧ c.firstTsNs.toNat < 2 ^ 63 ∧
        c.lastTsNs.toNat < 2 ^ 63 := by
  obtain ⟨m, loaded, same⟩ := roundTrip
  rw [fromJson_updateManifest] at loaded
  cases read : allRead (run.writer.chunks.mapIdx chunkRead) with
  | none =>
      obtain ⟨e, failed⟩ := jsonParse_manifestJson_error read
      rw [failed] at loaded
      cases loaded
  | some vs =>
      have signed := (allRead_chunks_iff _).mp ⟨vs, read⟩
      rw [jsonParse_manifestJson read] at loaded
      cases loaded
      rw [chunks_ofJson, expectedChunks] at same
      have entry (i : Nat) (c : Runtime.ChunkInfo) (found : run.writer.chunks[i]? = some c) :
          (i : Int).bmod (2 ^ 32) = i ∧ c.filename = chunkFilename i := by
        have value := congrArg (·[i]?) (allRead_mapIdx read)
        have equal := congrArg (·[i]?) same
        simp only [List.getElem?_mapIdx, List.getElem?_map, found, Option.map_some] at value equal
        obtain ⟨v, here, readHere⟩ := Option.map_eq_some_iff.mp value.symm
        obtain ⟨id, name⟩ := named_of_reach reached (List.mem_of_getElem? found)
        rw [here, Option.map_some, Option.some.injEq,
          chunkOfJson_signed (signed i c found) ⟨id, name⟩ readHere.symm]
          at equal
        obtain ⟨path, -, -, -, number⟩ := ChunkInfo.mk.inj equal
        refine ⟨number, joinPath_injective ?_ (chunkFilename_head i) path⟩
        rw [name]
        exact chunkFilename_head id
      refine ⟨?_, ?_, ?_⟩
      · have names : run.writer.names =
            (List.range run.writer.chunks.length).map chunkFilename := by
          refine List.ext_getElem? fun i => ?_
          rw [ChunkWriter.names, List.getElem?_map, List.getElem?_map]
          cases found : run.writer.chunks[i]? with
          | none =>
              rw [List.getElem?_eq_none (by simpa using List.getElem?_eq_none_iff.mp found)]
              rfl
          | some c =>
              rw [List.getElem?_range (List.getElem?_eq_some_iff.mp found).1,
                Option.map_some, Option.map_some, (entry i c found).2]
        rw [names]
        exact List.nodup_range.map fun _ _ => chunkFilename_injective
      · by_contra many
        have inside : 2 ^ 31 < run.writer.chunks.length := not_le.mp many
        have last := lt_of_bmod (entry (2 ^ 31) _ (List.getElem?_eq_getElem inside)).1
        exact absurd last (by decide)
      · intro c member
        obtain ⟨i, found⟩ := List.getElem?_of_mem member
        exact ⟨(signed i c found).bytes, (signed i c found).firstTsNs, (signed i c found).lastTsNs⟩

end RoundTrip

/-- The manifest of a writer is read back if no file was opened twice, the chunk numbers fit the
reader's, and no number in the text reaches the limit of `stoll`. -/
theorem manifest_roundTrip_iff {config : RuntimeConfig} {now : Int} {run : WriterRun}
    (reached : (writerMachine config now).Reach (fun _ _ => True) run) (baseDir : Bytes) :
    ManifestRoundTrip baseDir run.writer ↔
      run.writer.names.Nodup ∧ run.writer.chunks.length ≤ 2 ^ 31 ∧
        ∀ c ∈ run.writer.chunks, c.bytes < 2 ^ 63 ∧ c.firstTsNs.toNat < 2 ^ 63 ∧
          c.lastTsNs.toNat < 2 ^ 63 :=
  ⟨fits_of_roundTrip reached,
    fun ⟨distinct, few, signed⟩ => roundTrip_of_fits reached distinct few signed⟩

theorem closedRun_roundTrip : ManifestRoundTrip (ascii "sessions") closedRun.writer :=
  have reached : (writerMachine {} 0).Reach (fun _ _ => True) closedRun :=
    .foldl ⟨trivial, trivial, trivial, trivial⟩
  (manifest_roundTrip_iff reached (ascii "sessions")).mpr (by decide)

/-- An audio frame whose end time has the top bit set. -/
def lateFrame : Bytes := sealFrame 100 7 10 9223372036854775808 [1]

def lateRun : WriterRun :=
  [WriterCall.open (.clean 0), .write (.clean {}) lateFrame].foldl WriterRun.step (.fresh {} 0)

theorem lateRun_unreadable :
    Accepted 65536 lateFrame ∧ (writerMachine {} 0).Reach (fun _ _ => True) lateRun ∧
      ¬ ManifestRoundTrip (ascii "sessions") lateRun.writer := by
  have reached : (writerMachine {} 0).Reach (fun _ _ => True) lateRun :=
    .foldl ⟨trivial, trivial, trivial⟩
  refine ⟨sealFrame_accepted _ _ _ _ (by decide), reached, fun roundTrip => ?_⟩
  exact absurd (fits_of_roundTrip reached roundTrip).2.2 (by decide)

end LocalPC.Offline
