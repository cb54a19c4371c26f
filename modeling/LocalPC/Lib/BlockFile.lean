import LocalPC.Lib.Framing
import LocalPC.Lib.LittleEndian

namespace LocalPC.Lib

structure Block where
  id : Bytes
  links : List Nat
  data : Bytes
  deriving DecidableEq, Repr

namespace Block

def size (b : Block) : Nat := 24 + 8 * b.links.length + b.data.length

def header (id : Bytes) (length links : Nat) : Bytes :=
  id ++ List.replicate 4 0 ++ leBytes 8 length ++ leBytes 8 links

def encode (b : Block) : Bytes :=
  header b.id b.size b.links.length ++ b.links.flatMap (leBytes 8) ++ b.data

structure WellFormed (b : Block) : Prop where
  id : b.id.length = 4
  size : b.size < 2 ^ 64
  links : ∀ link ∈ b.links, link < 2 ^ 64

def decode (bytes : Bytes) : Block :=
  let count := field 16 8 bytes
  { id := bytes.take 4
    links := (List.range count).map fun i => field (24 + 8 * i) 8 bytes
    data := bytes.drop (24 + 8 * count) }

def setLink (i v : Nat) (b : Block) : Block := { b with links := b.links.set i v }

@[simp] theorem size_setLink (i v : Nat) (b : Block) : (b.setLink i v).size = b.size := by
  simp [size, setLink]

theorem length_links (links : List Nat) :
    (links.flatMap (leBytes 8)).length = 8 * links.length := by
  induction links with
  | nil => rfl
  | cons link links ih =>
      rw [List.flatMap_cons, List.length_append, leBytes_length, ih, List.length_cons]
      omega

theorem length_header {id : Bytes} (four : id.length = 4) (length links : Nat) :
    (header id length links).length = 24 := by
  simp [header, four]

theorem length_encode {b : Block} (four : b.id.length = 4) : b.encode.length = b.size := by
  rw [encode, List.length_append, List.length_append, length_header four, length_links, size]

end Block

def blockFormat : RecordFormat UInt8 where
  size? b :=
    if 24 ≤ b.length ∧ 24 + 8 * field 16 8 b ≤ field 8 8 b ∧ field 8 8 b ≤ b.length then
      some (field 8 8 b)
    else none
  size_pos := by
    intro b n found
    split at found
    · cases found
      omega
    · cases found
  size_le := by
    intro b n found
    split at found
    · cases found
      omega
    · cases found
  size_stable := by
    intro b n found rest
    split at found
    · rename_i fits
      cases found
      have long : (b.take (field 8 8 b)).length = field 8 8 b := by
        rw [List.length_take]
        omega
      have same (offset : Nat) (low : offset + 8 ≤ 24) :
          field offset 8 (b.take (field 8 8 b) ++ rest) = field offset 8 b := by
        rw [field_append_left _ _ _ _ (by omega), field_take _ _ _ _ (by omega)]
      rw [same 8 (by omega), same 16 (by omega), List.length_append, long, if_pos (by omega)]
    · cases found

def blockAt (file : Bytes) (address : Nat) : Option Block :=
  (blockFormat.size? (file.drop address)).map fun n => Block.decode ((file.drop address).take n)

namespace Block
variable {b : Block}

theorem field_header {id : Bytes} (four : id.length = 4) (length links : Nat) (rest : Bytes) :
    field 8 8 (header id length links ++ rest) = length % 2 ^ 64 ∧
      field 16 8 (header id length links ++ rest) = links % 2 ^ 64 := by
  have front : (id ++ List.replicate 4 (0 : UInt8)).length = 8 := by simp [four]
  have middle : (id ++ List.replicate 4 (0 : UInt8) ++ leBytes 8 length).length =
      16 := by simp [four]
  have length' := field_append_right (id ++ List.replicate 4 (0 : UInt8)) (leBytes 8 length) 0 8
  have links' :=
    field_append_right
      (id ++ List.replicate 4 (0 : UInt8) ++ leBytes 8 length) (leBytes 8 links) 0 8
  rw [front] at length'
  rw [middle] at links'
  constructor
  · rw [field_append_left _ _ _ _ (by rw [length_header four]; decide), header,
      field_append_left _ _ _ _ middle.ge]
    exact length'.trans (field_leBytes 8 length)
  · rw [field_append_left _ _ _ _ (length_header four length links).ge, header]
    exact links'.trans (field_leBytes 8 links)

theorem field_link (links : List Nat) {i : Nat} (inside : i < links.length) (rest : Bytes) :
    field (8 * i) 8 (links.flatMap (leBytes 8) ++ rest) = links[i] % 2 ^ 64 := by
  induction links generalizing i with
  | nil => exact absurd inside (Nat.not_lt_zero i)
  | cons link links ih =>
      rw [List.flatMap_cons, List.append_assoc]
      cases i with
      | zero =>
          rw [field_append_left _ _ _ _ (by simp)]
          exact field_leBytes 8 link
      | succ i =>
          have shift :=
            field_append_right (leBytes 8 link) (links.flatMap (leBytes 8) ++ rest) (8 * i) 8
          rw [leBytes_length] at shift
          rw [show 8 * (i + 1) = 8 + 8 * i by omega, shift]
          exact ih (Nat.lt_of_succ_lt_succ inside)

theorem isRecord_encode (wf : b.WellFormed) : blockFormat.IsRecord b.encode := by
  obtain ⟨length, count⟩ :=
    field_header wf.id b.size b.links.length (b.links.flatMap (leBytes 8) ++ b.data)
  rw [← List.append_assoc] at length count
  have few : b.links.length < 2 ^ 64 := by
    have := wf.size
    unfold size at this
    omega
  rw [Nat.mod_eq_of_lt wf.size] at length
  rw [Nat.mod_eq_of_lt few] at count
  have total := length_encode wf.id
  unfold RecordFormat.IsRecord blockFormat
  dsimp only
  rw [show field 8 8 b.encode = b.size from length,
    show field 16 8 b.encode = b.links.length from count, total]
  unfold size
  rw [if_pos (by omega)]

theorem decode_encode (wf : b.WellFormed) : decode b.encode = b := by
  obtain ⟨-, count⟩ :=
    field_header wf.id b.size b.links.length (b.links.flatMap (leBytes 8) ++ b.data)
  rw [← List.append_assoc] at count
  have few : b.links.length < 2 ^ 64 := by
    have := wf.size
    unfold size at this
    omega
  rw [Nat.mod_eq_of_lt few] at count
  have front := length_header wf.id b.size b.links.length
  unfold decode
  rw [show field 16 8 b.encode = b.links.length from count]
  have id : b.encode.take 4 = b.id := by
    simp only [encode, header, List.append_assoc]
    rw [List.take_append_of_le_length wf.id.ge, List.take_of_length_le wf.id.le]
  have links : (List.range b.links.length).map
      (fun i => field (24 + 8 * i) 8 b.encode) = b.links := by
    refine List.ext_getElem (by simp) fun i inside within => ?_
    rw [List.getElem_map, List.getElem_range, encode, List.append_assoc,
      ← front, field_append_right, field_link b.links within,
        Nat.mod_eq_of_lt (wf.links _ (List.getElem_mem within))]
  have data : b.encode.drop (24 + 8 * b.links.length) = b.data := by
    rw [encode, List.drop_left']
    rw [List.length_append, front, length_links]
  dsimp only
  rw [id, links, data]

theorem blockAt_encode (wf : b.WellFormed) (front rest : Bytes) :
    blockAt (front ++ b.encode ++ rest) front.length = some b := by
  unfold blockAt
  rw [List.append_assoc, List.drop_left, (isRecord_encode wf).size_append rest,
    Option.map_some, List.take_left, decode_encode wf]

end Block

def patch64 (address v : Nat) (file : Bytes) : Bytes :=
  file.take address ++ leBytes 8 v ++ file.drop (address + 8)

theorem length_patch64 {address : Nat} {file : Bytes}
    (inside : address + 8 ≤ file.length) (v : Nat) :
    (patch64 address v file).length = file.length := by
  simp only [patch64, List.length_append, List.length_take, leBytes_length, List.length_drop]
  omega

theorem patch64_append {address : Nat} {file : Bytes} (inside : address + 8 ≤ file.length)
    (v : Nat) (rest : Bytes) :
    patch64 address v (file ++ rest) = patch64 address v file ++ rest := by
  unfold patch64
  rw [List.take_append_of_le_length (by omega), List.drop_append_of_le_length inside,
    List.append_assoc, List.append_assoc, List.append_assoc]

theorem patch64_append_right (front rest : Bytes) (offset v : Nat) :
    patch64 (front.length + offset) v (front ++ rest) = front ++ patch64 offset v rest := by
  unfold patch64
  rw [List.take_length_add_append, Nat.add_assoc, List.drop_length_add_append]
  simp only [List.append_assoc]

theorem patch64_links (links : List Nat) {i : Nat} (inside : i < links.length) (v : Nat) :
    patch64 (8 * i) v (links.flatMap (leBytes 8)) = (links.set i v).flatMap (leBytes 8) := by
  induction links generalizing i with
  | nil => exact absurd inside (Nat.not_lt_zero i)
  | cons link links ih =>
      rw [List.flatMap_cons]
      cases i with
      | zero =>
          unfold patch64
          rw [List.set_cons_zero, List.flatMap_cons]
          simp
      | succ i =>
          have shift := patch64_append_right (leBytes 8 link) (links.flatMap (leBytes 8)) (8 * i) v
          rw [leBytes_length] at shift
          rw [show 8 * (i + 1) = 8 + 8 * i by omega, shift,
            ih (Nat.lt_of_succ_lt_succ inside), List.set_cons_succ, List.flatMap_cons]

theorem patch64_encode {b : Block} (four : b.id.length = 4) {i : Nat}
    (inside : i < b.links.length) (v : Nat) (front rest : Bytes) :
    patch64 (front.length + (24 + 8 * i)) v (front ++ b.encode ++ rest) =
      front ++ (b.setLink i v).encode ++ rest := by
  have header := Block.length_header four b.size b.links.length
  have links := Block.length_links b.links
  have within : 8 * i + 8 ≤ (b.links.flatMap (leBytes 8)).length := by omega
  have block : patch64 (24 + 8 * i) v b.encode = (b.setLink i v).encode := by
    unfold Block.encode
    rw [Block.size_setLink, Block.setLink, List.length_set,
      patch64_append (by rw [List.length_append]; omega), ← header, patch64_append_right,
        patch64_links b.links inside]
  have total := Block.length_encode four
  rw [List.append_assoc, patch64_append_right, patch64_append (by rw [total, Block.size]; omega),
    block, List.append_assoc]

def encodeBlocks (blocks : List Block) : Bytes := blocks.flatMap Block.encode

@[simp] theorem encodeBlocks_nil : encodeBlocks [] = [] := rfl

@[simp] theorem encodeBlocks_cons (b : Block) (blocks : List Block) :
    encodeBlocks (b :: blocks) = b.encode ++ encodeBlocks blocks := rfl

@[simp] theorem encodeBlocks_append (blocks more : List Block) :
    encodeBlocks (blocks ++ more) = encodeBlocks blocks ++ encodeBlocks more := List.flatMap_append

def StartsAt (base : Nat) (blocks : List Block) (address : Nat) (b : Block) : Prop :=
  ∃ before after, blocks = before ++ b :: after ∧ address = base + (encodeBlocks before).length

namespace StartsAt
variable {base address : Nat} {blocks : List Block} {b : Block}

theorem head (base : Nat) (b : Block) (blocks : List Block) : StartsAt base (b :: blocks) base b :=
  ⟨[], blocks, rfl, rfl⟩

theorem append_left (starts : StartsAt base blocks address b) (more : List Block) :
    StartsAt base (blocks ++ more) address b := by
  obtain ⟨before, after, rfl, rfl⟩ := starts
  exact ⟨before, after ++ more, by simp, rfl⟩

theorem append_right (front : List Block)
    (starts : StartsAt (base + (encodeBlocks front).length) blocks address b) :
    StartsAt base (front ++ blocks) address b := by
  obtain ⟨before, after, rfl, rfl⟩ := starts
  exact ⟨front ++ before, after, by simp, by simp [Nat.add_assoc]⟩

theorem mem (starts : StartsAt base blocks address b) : b ∈ blocks := by
  obtain ⟨before, after, rfl, -⟩ := starts
  simp

theorem cons_iff {first : Block} :
    StartsAt base (first :: blocks) address b ↔
      address = base ∧ b = first ∨ StartsAt (base + first.encode.length) blocks address b := by
  constructor
  · rintro ⟨before, after, split, rfl⟩
    cases before with
    | nil =>
        obtain ⟨rfl, -⟩ := List.cons.inj split
        exact Or.inl ⟨rfl, rfl⟩
    | cons c before =>
        obtain ⟨rfl, rfl⟩ := List.cons.inj split
        refine Or.inr ⟨before, after, rfl, ?_⟩
        rw [encodeBlocks_cons, List.length_append, Nat.add_assoc]
  · rintro (⟨rfl, rfl⟩ | later)
    · exact head ..
    · refine append_right [first] ?_
      simpa using later

theorem dvd_iff {d : Nat} (aligned : d ∣ base) :
    (∀ address b, StartsAt base blocks address b → d ∣ address) ↔
      ∀ b ∈ blocks.dropLast, d ∣ b.encode.length := by
  induction blocks generalizing base with
  | nil =>
      refine ⟨fun _ b member => absurd member List.not_mem_nil, fun _ address b starts => ?_⟩
      exact absurd starts.mem List.not_mem_nil
  | cons first rest ih =>
      cases rest with
      | nil =>
          refine ⟨fun _ b member => absurd member List.not_mem_nil, fun _ address b starts => ?_⟩
          rcases cons_iff.mp starts with ⟨rfl, -⟩ | later
          · exact aligned
          · exact absurd later.mem List.not_mem_nil
      | cons second rest =>
          rw [List.dropLast_cons_cons, List.forall_mem_cons]
          constructor
          · intro all
            have next : d ∣ base + first.encode.length :=
              all _ second (cons_iff.mpr (Or.inr (head ..)))
            refine ⟨(Nat.dvd_add_right aligned).mp next, (ih next).mp fun address b starts => ?_⟩
            exact all address b (cons_iff.mpr (Or.inr starts))
          · rintro ⟨here, sizes⟩ address b starts
            rcases cons_iff.mp starts with ⟨rfl, -⟩ | later
            · exact aligned
            · exact (ih ((Nat.dvd_add_right aligned).mpr here)).mpr sizes address b later

theorem blockAt_eq {front rest : Bytes}
    (starts : StartsAt front.length blocks address b) (wf : b.WellFormed) :
    blockAt (front ++ encodeBlocks blocks ++ rest) address = some b := by
  obtain ⟨before, after, rfl, rfl⟩ := starts
  have found := Block.blockAt_encode wf (front ++ encodeBlocks before) (encodeBlocks after ++ rest)
  rw [List.length_append] at found
  simpa [List.append_assoc] using found

theorem lt {base address : Nat} {blocks : List Block} {b : Block}
    (starts : StartsAt base blocks address b) (four : b.id.length = 4) :
    address < base + (encodeBlocks blocks).length := by
  obtain ⟨before, after, rfl, rfl⟩ := starts
  rw [encodeBlocks_append, encodeBlocks_cons, List.length_append, List.length_append,
    Block.length_encode four, Block.size]
  omega

end StartsAt

/-- The file is a sequence of blocks behind its first `base` bytes, and `b` stands at `address`. -/
def IsBlock (base : Nat) (file : Bytes) (address : Nat) (b : Block) : Prop :=
  ∃ before r after, blockFormat.records (file.drop base) = before ++ r :: after ∧
    address = base + before.flatten.length ∧ b = Block.decode r

/-- Every link that is set leads to a block with the identifier that the table has for it; `holds`
says which block stands at an address. -/
def Block.LinksTo (table : Bytes → Nat → Option Bytes) (holds : Nat → Block → Prop) (b : Block) :
    Prop :=
  ∀ i link, b.links[i]? = some link → link ≠ 0 → ∃ target, holds link target ∧
    table b.id i = some target.id

def LinkTo (holds : Nat → Block → Prop) (kind : Option Bytes) (link : Nat) : Prop :=
  link ≠ 0 → ∃ target, holds link target ∧ kind = some target.id

theorem Block.linksTo_of_zipIdx {table : Bytes → Nat → Option Bytes}
    {holds : Nat → Block → Prop} {b : Block}
    (each : ∀ x ∈ b.links.zipIdx, LinkTo holds (table b.id x.2) x.1) : b.LinksTo table holds := by
  intro i link found
  exact each (link, i) (List.mem_zipIdx_iff_getElem?.mpr found)

theorem LinkTo.empty {holds : Nat → Block → Prop} {kind : Option Bytes} : LinkTo holds kind 0 :=
  fun set_ => absurd rfl set_

theorem LinkTo.held {holds : Nat → Block → Prop} {link : Nat} {target : Block}
    (held : holds link target) :
    LinkTo holds (some target.id) link := fun _ => ⟨target, held, rfl⟩

theorem Block.LinksTo.mono {table : Bytes → Nat → Option Bytes}
    {holds holds' : Nat → Block → Prop} {b : Block} (links : b.LinksTo table holds)
    (weaker : ∀ address b, holds address b → holds' address b) :
    b.LinksTo table holds' := by
  intro i link found set_
  obtain ⟨target, held, known⟩ := links i link found set_
  exact ⟨target, weaker link target held, known⟩

section Tiling
variable {base : Nat} {blocks : List Block}

theorem wellFormed_of_linksTo {table : Bytes → Nat → Option Bytes}
    (four : ∀ b ∈ blocks, b.id.length = 4)
    (links : ∀ b ∈ blocks, b.LinksTo table (StartsAt base blocks))
    (small : base + (encodeBlocks blocks).length < 2 ^ 64) : ∀ b ∈ blocks, b.WellFormed := by
  intro b member
  have size : b.size ≤ (encodeBlocks blocks).length := by
    obtain ⟨before, after, rfl⟩ := List.append_of_mem member
    rw [encodeBlocks_append, encodeBlocks_cons, List.length_append, List.length_append,
      Block.length_encode (four b member)]
    omega
  refine ⟨four b member, by omega, fun link inside => ?_⟩
  obtain ⟨i, found⟩ := List.mem_iff_getElem?.mp inside
  by_cases unset : link = 0
  · omega
  · obtain ⟨target, starts, -⟩ := links b member i link found unset
    have inFile := starts.lt (four target starts.mem)
    omega

variable (wf : ∀ b ∈ blocks, b.WellFormed)
include wf

theorem records_encodeBlocks :
    blockFormat.records (encodeBlocks blocks) = blocks.map Block.encode := by
  have each : ∀ r ∈ blocks.map Block.encode, blockFormat.IsRecord r := by
    intro r member
    obtain ⟨b, inside, rfl⟩ := List.mem_map.mp member
    exact Block.isRecord_encode (wf b inside)
  rw [encodeBlocks, List.flatMap_def]
  exact RecordFormat.records_of_flatten each

theorem whole_encodeBlocks : blockFormat.Whole (encodeBlocks blocks) := by
  refine (RecordFormat.whole_iff _).mpr
    ⟨blocks.map Block.encode, fun r member => ?_, (List.flatMap_def ..).symm⟩
  obtain ⟨b, inside, rfl⟩ := List.mem_map.mp member
  exact Block.isRecord_encode (wf b inside)

theorem StartsAt.isBlock {front : Bytes} {address : Nat} {b : Block}
    (starts : StartsAt front.length blocks address b) :
    IsBlock front.length (front ++ encodeBlocks blocks) address b := by
  have records := records_encodeBlocks wf
  obtain ⟨before, after, rfl, rfl⟩ := starts
  refine ⟨before.map Block.encode, b.encode, after.map Block.encode, ?_, ?_, ?_⟩
  · rw [List.drop_left, records, List.map_append, List.map_cons]
  · rw [encodeBlocks, List.flatMap_def]
  · exact (Block.decode_encode (wf b (by simp))).symm

end Tiling

def follow (file id : Bytes) : Nat → Nat → Option (List Block)
  | _, 0 => some []
  | 0, _ + 1 => none
  | fuel + 1, address + 1 =>
      (blockAt file (address + 1)).bind fun b =>
        if b.id = id then (follow file id fuel (b.links.headD 0)).map (b :: ·) else none

def Linked (file id : Bytes) : Nat → List Block → Prop
  | address, [] => address = 0
  | address, b :: rest =>
      address ≠ 0 ∧ blockAt file address = some b ∧ b.id = id ∧
        Linked file id (b.links.headD 0) rest

theorem Linked.follow_eq {file id : Bytes} {address : Nat} {blocks : List Block}
    (linked : Linked file id address blocks) {fuel : Nat} (enough : blocks.length ≤ fuel) :
    follow file id fuel address = some blocks := by
  induction blocks generalizing address fuel with
  | nil =>
      cases linked
      rw [follow]
  | cons b rest ih =>
      obtain ⟨set_, found, kind, linked⟩ := linked
      obtain ⟨address, rfl⟩ := Nat.exists_eq_succ_of_ne_zero set_
      cases fuel with
      | zero => exact absurd enough (Nat.not_succ_le_zero _)
      | succ fuel =>
          rw [follow, found, Option.bind_some, if_pos kind,
            ih linked (Nat.le_of_succ_le_succ enough), Option.map_some]

end LocalPC.Lib
