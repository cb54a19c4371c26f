import LocalPC.Lib.LittleEndian

namespace LocalPC.Lib.Sha256

def rotr (n x : UInt32) : UInt32 := (x >>> n) ||| (x <<< (32 - n))
def ch (x y z : UInt32) : UInt32 := (x &&& y) ^^^ (~~~x &&& z)
def maj (x y z : UInt32) : UInt32 := (x &&& y) ^^^ (x &&& z) ^^^ (y &&& z)
def bigSigma0 (x : UInt32) : UInt32 := rotr 2 x ^^^ rotr 13 x ^^^ rotr 22 x
def bigSigma1 (x : UInt32) : UInt32 := rotr 6 x ^^^ rotr 11 x ^^^ rotr 25 x
def smallSigma0 (x : UInt32) : UInt32 := rotr 7 x ^^^ rotr 18 x ^^^ (x >>> 3)
def smallSigma1 (x : UInt32) : UInt32 := rotr 17 x ^^^ rotr 19 x ^^^ (x >>> 10)

def k : List UInt32 := [
  0x428a2f98, 0x71374491, 0xb5c0fbcf, 0xe9b5dba5, 0x3956c25b, 0x59f111f1, 0x923f82a4, 0xab1c5ed5,
  0xd807aa98, 0x12835b01, 0x243185be, 0x550c7dc3, 0x72be5d74, 0x80deb1fe, 0x9bdc06a7, 0xc19bf174,
  0xe49b69c1, 0xefbe4786, 0x0fc19dc6, 0x240ca1cc, 0x2de92c6f, 0x4a7484aa, 0x5cb0a9dc, 0x76f988da,
  0x983e5152, 0xa831c66d, 0xb00327c8, 0xbf597fc7, 0xc6e00bf3, 0xd5a79147, 0x06ca6351, 0x14292967,
  0x27b70a85, 0x2e1b2138, 0x4d2c6dfc, 0x53380d13, 0x650a7354, 0x766a0abb, 0x81c2c92e, 0x92722c85,
  0xa2bfe8a1, 0xa81a664b, 0xc24b8b70, 0xc76c51a3, 0xd192e819, 0xd6990624, 0xf40e3585, 0x106aa070,
  0x19a4c116, 0x1e376c08, 0x2748774c, 0x34b0bcb5, 0x391c0cb3, 0x4ed8aa4a, 0x5b9cca4f, 0x682e6ff3,
  0x748f82ee, 0x78a5636f, 0x84c87814, 0x8cc70208, 0x90befffa, 0xa4506ceb, 0xbef9a3f7, 0xc67178f2]

-- The fractional parts of the cube roots of the first 64 primes, in units of 2⁻³².
example :
    let primes := (List.range 312).filter fun p => 2 ≤ p ∧ ∀ d ∈ List.range p, 2 ≤ d → p % d ≠ 0
    primes.length = 64 ∧ ∀ i ∈ List.range 64, ∃ whole ∈ List.range 7,
      let root := whole * 2 ^ 32 + (k.getD i 0).toNat
      root ^ 3 ≤ primes.getD i 0 * 2 ^ 96 ∧ primes.getD i 0 * 2 ^ 96 < (root + 1) ^ 3 := by
  decide +kernel

structure Hash where
  a : UInt32
  b : UInt32
  c : UInt32
  d : UInt32
  e : UInt32
  f : UInt32
  g : UInt32
  h : UInt32
  deriving DecidableEq, Repr

def initial : Hash where
  a := 0x6a09e667
  b := 0xbb67ae85
  c := 0x3c6ef372
  d := 0xa54ff53a
  e := 0x510e527f
  f := 0x9b05688c
  g := 0x1f83d9ab
  h := 0x5be0cd19

def word (block : Bytes) (t : Nat) : UInt32 :=
  UInt32.ofNat (leNat ((block.drop (4 * t)).take 4).reverse)

def schedule (block : Bytes) (t : Nat) : UInt32 :=
  if t < 16 then word block t
  else smallSigma1 (schedule block (t - 2)) + schedule block (t - 7) +
    smallSigma0 (schedule block (t - 15)) + schedule block (t - 16)
termination_by t

def round (kt wt : UInt32) (s : Hash) : Hash :=
  let t1 := s.h + bigSigma1 s.e + ch s.e s.f s.g + kt + wt
  let t2 := bigSigma0 s.a + maj s.a s.b s.c
  { a := t1 + t2, b := s.a, c := s.b, d := s.c, e := s.d + t1, f := s.e, g := s.f, h := s.g }

def compress (hash : Hash) (block : Bytes) : Hash :=
  let s := (List.range 64).foldl (fun s t => round (k.getD t 0) (schedule block t) s) hash
  { a := hash.a + s.a, b := hash.b + s.b, c := hash.c + s.c, d := hash.d + s.d
    e := hash.e + s.e, f := hash.f + s.f, g := hash.g + s.g, h := hash.h + s.h }

def blocks (message : Bytes) : List Bytes :=
  (List.range (message.length / 64)).map fun i => (message.drop (64 * i)).take 64

def pad (message : Bytes) : Bytes :=
  message ++ [0x80] ++ List.replicate ((119 - message.length % 64) % 64) 0 ++
    (leBytes 8 (8 * message.length)).reverse

def hash (message : Bytes) : Hash := (blocks (pad message)).foldl compress initial

def digest (message : Bytes) : Bytes :=
  let h := hash message
  [h.a, h.b, h.c, h.d, h.e, h.f, h.g, h.h].flatMap fun w => (leBytes 4 w.toNat).reverse

theorem blocks_append {front : Bytes} (whole : 64 ∣ front.length) (back : Bytes) :
    blocks (front ++ back) = blocks front ++ blocks back := by
  obtain ⟨n, size⟩ := whole
  have count : (front ++ back).length / 64 = n + back.length / 64 := by
    rw [List.length_append, size, Nat.mul_add_div (by decide)]
  have own : front.length / 64 = n := by
    rw [size, Nat.mul_div_cancel_left _ (by decide)]
  unfold blocks
  rw [count, own, List.range_add, List.map_append, List.map_map]
  congr 1
  · apply List.map_congr_left
    intro i member
    have inside : 64 * i + 64 ≤ front.length := by
      have small := List.mem_range.mp member
      omega
    rw [List.drop_append_of_le_length (by omega),
      List.take_append_of_le_length (by rw [List.length_drop]; omega)]
  · apply List.map_congr_left
    intro i _
    show ((front ++ back).drop (64 * (n + i))).take 64 = _
    rw [Nat.mul_add, ← size, ← List.drop_drop, List.drop_left]

theorem blocks_of_short {tail : Bytes} (short : tail.length < 64) : blocks tail = [] := by
  unfold blocks
  rw [Nat.div_eq_of_lt short]
  rfl

theorem blocks_of_block {block : Bytes} (size : block.length = 64) : blocks block = [block] := by
  unfold blocks
  rw [size]
  show [(block.drop 0).take 64] = [block]
  rw [List.drop_zero, ← size, List.take_length]

def rest (message : Bytes) : Bytes := message.drop (64 * (message.length / 64))

theorem rest_length (message : Bytes) : (rest message).length = message.length % 64 := by
  rw [rest, List.length_drop]
  omega

theorem blocks_append_rest (message tail : Bytes) :
    blocks (message ++ tail) = blocks message ++ blocks (rest message ++ tail) := by
  have split := List.take_append_drop (64 * (message.length / 64)) message
  have whole : 64 ∣ (message.take (64 * (message.length / 64))).length := by
    rw [List.length_take, Nat.min_eq_left (Nat.mul_div_le _ _)]
    exact Nat.dvd_mul_right _ _
  have short : blocks (rest message) = [] :=
    blocks_of_short ((rest_length message).trans_lt (Nat.mod_lt _ (by decide)))
  have front : blocks message = blocks (message.take (64 * (message.length / 64))) := by
    calc blocks message =
      blocks (message.take (64 * (message.length / 64)) ++ rest message) := by rw [rest, split]
      _ = blocks (message.take
        (64 * (message.length / 64))) := by rw [blocks_append whole, short, List.append_nil]
  calc blocks (message ++ tail)
      = blocks (message.take (64 * (message.length / 64)) ++ (rest message ++ tail)) := by
        rw [← List.append_assoc, rest, split]
    _ = blocks message ++ blocks (rest message ++ tail) := by rw [blocks_append whole, ← front]

theorem schedule_getD (block : Bytes) {n i : Nat} (inside : i < n) :
    ((List.range n).map (schedule block)).getD i 0 = schedule block i := by
  rw [List.getD_eq_getElem?_getD, List.getElem?_map, List.getElem?_range inside]
  rfl

theorem schedule_concat (block : Bytes) {n : Nat} (long : 16 ≤ n) {w : List UInt32}
    (table : w = (List.range n).map (schedule block)) :
    w ++ [smallSigma1 (w.getD (n - 2) 0) + w.getD (n - 7) 0 + smallSigma0
      (w.getD (n - 15) 0) + w.getD (n - 16) 0] =
      (List.range (n + 1)).map (schedule block) := by
  subst table
  rw [schedule_getD _ (by omega), schedule_getD _ (by omega), schedule_getD _ (by omega),
    schedule_getD _ (by omega), List.range_succ, List.map_append, List.map_singleton]
  conv_rhs => rw [schedule, if_neg (not_lt.mpr long)]

theorem schedule_start (block : Bytes) :
    (List.range 16).map (schedule block) = (List.range 16).map (word block) := by
  apply List.map_congr_left
  intro t member
  rw [schedule, if_pos (List.mem_range.mp member)]

end LocalPC.Lib.Sha256
