import Mathlib.Tactic.IntervalCases
import LocalPC.Lib.Sha256
import LocalPC.Lib.Text
import LocalPC.Runtime.SessionDirectory

namespace LocalPC.Offline
open Lib LocalPC.Runtime

def sha256K : List UInt32 := [
  0x428a2f98, 0x71374491, 0xb5c0fbcf, 0xe9b5dba5,
  0x3956c25b, 0x59f111f1, 0x923f82a4, 0xab1c5ed5,
  0xd807aa98, 0x12835b01, 0x243185be, 0x550c7dc3,
  0x72be5d74, 0x80deb1fe, 0x9bdc06a7, 0xc19bf174,
  0xe49b69c1, 0xefbe4786, 0x0fc19dc6, 0x240ca1cc,
  0x2de92c6f, 0x4a7484aa, 0x5cb0a9dc, 0x76f988da,
  0x983e5152, 0xa831c66d, 0xb00327c8, 0xbf597fc7,
  0xc6e00bf3, 0xd5a79147, 0x06ca6351, 0x14292967,
  0x27b70a85, 0x2e1b2138, 0x4d2c6dfc, 0x53380d13,
  0x650a7354, 0x766a0abb, 0x81c2c92e, 0x92722c85,
  0xa2bfe8a1, 0xa81a664b, 0xc24b8b70, 0xc76c51a3,
  0xd192e819, 0xd6990624, 0xf40e3585, 0x106aa070,
  0x19a4c116, 0x1e376c08, 0x2748774c, 0x34b0bcb5,
  0x391c0cb3, 0x4ed8aa4a, 0x5b9cca4f, 0x682e6ff3,
  0x748f82ee, 0x78a5636f, 0x84c87814, 0x8cc70208,
  0x90befffa, 0xa4506ceb, 0xbef9a3f7, 0xc67178f2]

structure Sha256Ctx where
  h : Sha256.Hash := {
    a := 0x6a09e667, b := 0xbb67ae85, c := 0x3c6ef372, d := 0xa54ff53a
    e := 0x510e527f, f := 0x9b05688c, g := 0x1f83d9ab, h := 0x5be0cd19 }
  blk : Bytes := List.replicate 64 0
  bitlen : UInt64 := 0
  buflen : Nat := 0
  deriving DecidableEq, Repr

namespace Sha256Ctx

def rotr (x n : UInt32) : UInt32 := (x >>> n) ||| (x <<< (32 - n))
def ch (x y z : UInt32) : UInt32 := (x &&& y) ^^^ (~~~x &&& z)
def maj (x y z : UInt32) : UInt32 := (x &&& y) ^^^ (x &&& z) ^^^ (y &&& z)
def S0 (x : UInt32) : UInt32 := rotr x 2 ^^^ rotr x 13 ^^^ rotr x 22
def S1 (x : UInt32) : UInt32 := rotr x 6 ^^^ rotr x 11 ^^^ rotr x 25
def s0 (x : UInt32) : UInt32 := rotr x 7 ^^^ rotr x 18 ^^^ (x >>> 3)
def s1 (x : UInt32) : UInt32 := rotr x 17 ^^^ rotr x 19 ^^^ (x >>> 10)

def blockWord (blk : Bytes) (i : Nat) : UInt32 :=
  ((blk.getD (i * 4) 0).toUInt32 <<< 24) ||| ((blk.getD (i * 4 + 1) 0).toUInt32 <<< 16) |||
    ((blk.getD (i * 4 + 2) 0).toUInt32 <<< 8) ||| (blk.getD (i * 4 + 3) 0).toUInt32

def schedule (blk : Bytes) : List UInt32 :=
  (List.range' 16 48).foldl
    (fun w i =>
      w ++ [s1 (w.getD (i - 2) 0) + w.getD (i - 7) 0 + s0 (w.getD (i - 15) 0) + w.getD (i - 16) 0])
    ((List.range 16).map (blockWord blk))

def round (k w : UInt32) (s : Sha256.Hash) : Sha256.Hash :=
  let t1 := s.h + S1 s.e + ch s.e s.f s.g + k + w
  let t2 := S0 s.a + maj s.a s.b s.c
  { h := s.g, g := s.f, f := s.e, e := s.d + t1, d := s.c, c := s.b, b := s.a, a := t1 + t2 }

def transform (ctx : Sha256Ctx) : Sha256Ctx :=
  let w := schedule ctx.blk
  let s := (List.range 64).foldl (fun s i => round (sha256K.getD i 0) (w.getD i 0) s) ctx.h
  { ctx with
    h := {
      a := ctx.h.a + s.a, b := ctx.h.b + s.b, c := ctx.h.c + s.c, d := ctx.h.d + s.d
      e := ctx.h.e + s.e, f := ctx.h.f + s.f, g := ctx.h.g + s.g, h := ctx.h.h + s.h } }

@[simp] theorem transform_bitlen (ctx : Sha256Ctx) : ctx.transform.bitlen = ctx.bitlen := by
  cases ctx
  rfl

def push (ctx : Sha256Ctx) (byte : UInt8) : Sha256Ctx :=
  let ctx := { ctx with
    blk := ctx.blk.set ctx.buflen byte, buflen := ctx.buflen + 1, bitlen := ctx.bitlen + 8 }
  if ctx.buflen = 64 then { ctx.transform with buflen := 0 } else ctx

def update (ctx : Sha256Ctx) (data : Bytes) : Sha256Ctx := data.foldl push ctx

def hex8 (x : UInt32) : Bytes := (List.range 8).map fun i => hexDigit (x.toNat / 16 ^ (7 - i) % 16)

/-- The last block of `hexdigest`: `rem` bytes of the padding, zeros, and the length. -/
def lastBlock (ctx : Sha256Ctx) (pad : Bytes) (rem : Nat) : Sha256Ctx :=
  let fin := pad.take rem ++ List.replicate (64 - rem) 0
  let fin := (List.range 8).foldl
    (fun fin i => fin.set (56 + i) (ctx.bitlen >>> UInt64.ofNat (56 - 8 * i)).toUInt8) fin
  { ctx with blk := fin }.transform

def finish (ctx : Sha256Ctx) : Sha256Ctx :=
  let pad := (List.replicate 64 0).set ctx.buflen (0x80 : UInt8)
  let rem := ctx.buflen + 1
  if 56 < rem then
    let ctx := { ctx with blk := pad.take rem ++ List.replicate (64 - rem) 0 }.transform
    ctx.lastBlock pad 0
  else ctx.lastBlock pad rem

def hexdigest (ctx : Sha256Ctx) : Bytes :=
  let h := ctx.finish.h
  [h.a, h.b, h.c, h.d, h.e, h.f, h.g, h.h].flatMap hex8

-- What the empty file hashes to.
example : hexdigest {} =
  ascii "e3b0c44298fc1c149afbf4c8996fb92427ae41e4649b934ca495991b7852b855" := by
  decide +kernel

end Sha256Ctx

def readPieces (bytes : Bytes) : List Bytes :=
  (List.range ((bytes.length + 8191) / 8192)).map fun i => (bytes.drop (8192 * i)).take 8192

def sha256File (dir : Dir) (path : Bytes) : Bytes :=
  match dir.lookup path with
  | none => []
  | some bytes => ((readPieces bytes).foldl Sha256Ctx.update {}).hexdigest

/-- `write_sha256_sidecar` of a file in the directory; `none` where it returns false. -/
def writeSha256Sidecar (dir : Dir) (path : Bytes) : Option Dir :=
  let hex := sha256File dir path
  if hex = [] then none
  else some (dir.insert (path ++ ascii ".sha256") (hex ++ ascii "  " ++ path ++ [newline]))

namespace Sha256Ctx

theorem shifted_bytes (b0 b1 b2 b3 : UInt8) :
    (b0.toUInt32 <<< 24) ||| (b1.toUInt32 <<< 16) ||| (b2.toUInt32 <<< 8) ||| b3.toUInt32 =
      UInt32.ofNat (leNat [b3, b2, b1, b0]) := by
  have h0 := b0.toNat_lt
  have h1 := b1.toNat_lt
  have h2 := b2.toNat_lt
  have h3 := b3.toNat_lt
  have place (b : UInt8) (i : UInt32) (small : i.toNat ≤ 24) : (b.toUInt32 <<< i).toNat =
      b.toNat * 2 ^ i.toNat := by
    have bound : b.toNat * 2 ^ i.toNat < 4294967296 := by
      calc b.toNat * 2 ^ i.toNat < 2 ^ 8 * 2 ^ i.toNat := by
            exact Nat.mul_lt_mul_of_pos_right b.toNat_lt (Nat.two_pow_pos _)
        _ ≤ 2 ^ 8 * 2 ^ 24 := Nat.mul_le_mul_left _ (Nat.pow_le_pow_right (by decide) small)
        _ = 4294967296 := by decide
    have inside : i.toNat % 32 = i.toNat := Nat.mod_eq_of_lt (by omega)
    rw [UInt32.toNat_shiftLeft, inside, UInt8.toNat_toUInt32,
      Nat.shiftLeft_eq, Nat.mod_eq_of_lt bound]
  have join (a b i : Nat) (small : b < 2 ^ i) : a * 2 ^ i ||| b = a * 2 ^ i + b := by
    rw [Nat.mul_comm, Nat.two_pow_add_eq_or_of_lt small]
  apply UInt32.toNat_inj.mp
  rw [UInt32.toNat_or, UInt32.toNat_or, UInt32.toNat_or, place b0 24 (by decide),
    place b1 16 (by decide), place b2 8 (by decide), UInt8.toNat_toUInt32, UInt32.toNat_ofNat']
  show b0.toNat * 2 ^ 24 ||| b1.toNat * 2 ^ 16 ||| b2.toNat * 2 ^ 8 ||| b3.toNat = _
  have first : b0.toNat * 2 ^ 24 ||| b1.toNat * 2 ^ 16 =
      (b0.toNat * 2 ^ 8 + b1.toNat) * 2 ^ 16 := by
    rw [join _ _ 24 (by omega)]
    omega
  have second : (b0.toNat * 2 ^ 8 + b1.toNat) * 2 ^ 16 ||| b2.toNat * 2 ^ 8 =
      ((b0.toNat * 2 ^ 8 + b1.toNat) * 2 ^ 8 + b2.toNat) * 2 ^ 8 := by
    rw [join _ _ 16 (by omega)]
    omega
  rw [first, second, join _ _ 8 (by omega)]
  simp only [leNat]
  omega

theorem blockWord_eq {blk : Bytes} (size : blk.length = 64) {i : Nat} (small : i < 16) :
    blockWord blk i = Sha256.word blk i := by
  have entry (j : Nat) (inside : j < blk.length) : blk.getD j 0 = blk[j] := by
    rw [List.getD_eq_getElem?_getD, List.getElem?_eq_getElem inside]
    rfl
  have taken : (blk.drop (4 * i)).take 4 =
      [blk.getD (i * 4) 0, blk.getD (i * 4 + 1) 0, blk.getD (i * 4 + 2) 0,
        blk.getD (i * 4 + 3) 0] := by
    rw [entry _ (by omega), entry _ (by omega), entry _ (by omega),
      entry _ (by omega), Nat.mul_comm 4 i, List.drop_eq_getElem_cons (by omega),
        List.drop_eq_getElem_cons (by omega),
      List.drop_eq_getElem_cons (by omega), List.drop_eq_getElem_cons (by omega)]
    rfl
  unfold blockWord Sha256.word
  rw [taken, shifted_bytes]
  rfl

theorem schedule_eq {blk : Bytes} (size : blk.length = 64) :
    schedule blk = (List.range 64).map (Sha256.schedule blk) := by
  have start : (List.range 16).map (blockWord blk) = (List.range 16).map (Sha256.schedule blk) := by
    rw [Sha256.schedule_start]
    exact List.map_congr_left fun i member => blockWord_eq size (List.mem_range.mp member)
  have filled (n : Nat) : (List.range' 16 n).foldl
      (fun w i =>
        w ++ [s1 (w.getD (i - 2) 0) + w.getD (i - 7) 0 + s0
          (w.getD (i - 15) 0) + w.getD (i - 16) 0])
      ((List.range 16).map (blockWord blk)) = (List.range (16 + n)).map (Sha256.schedule blk) := by
    induction n with
    | zero => exact start
    | succ n ih =>
        rw [List.range'_concat, List.foldl_append, ih, Nat.one_mul]
        exact Sha256.schedule_concat blk (Nat.le_add_right 16 n) rfl
  exact filled 48

theorem transform_h {ctx : Sha256Ctx} (size : ctx.blk.length = 64) :
    ctx.transform.h = Sha256.compress ctx.h ctx.blk := by
  have rounds : (List.range 64).foldl
      (fun s i => round (sha256K.getD i 0) ((schedule ctx.blk).getD i 0) s) ctx.h =
      (List.range 64).foldl
        (fun s t => Sha256.round (Sha256.k.getD t 0) (Sha256.schedule ctx.blk t) s) ctx.h := by
    apply List.foldl_ext
    intro s t member
    rw [schedule_eq size, Sha256.schedule_getD _ (List.mem_range.mp member)]
    rfl
  unfold transform Sha256.compress
  dsimp only
  rw [rounds]

/-- The context after `message`: the whole blocks are hashed, the rest is in the buffer. -/
structure Holds (message : Bytes) (ctx : Sha256Ctx) : Prop where
  h : ctx.h = (Sha256.blocks message).foldl Sha256.compress Sha256.initial
  size : ctx.blk.length = 64
  buflen : ctx.buflen = message.length % 64
  rest : ctx.blk.take ctx.buflen = Sha256.rest message
  bitlen : ctx.bitlen = UInt64.ofNat (8 * message.length)

theorem holds_nil : Holds [] {} := ⟨rfl, rfl, rfl, rfl, rfl⟩

theorem Holds.small {message : Bytes} {ctx : Sha256Ctx}
    (holds : Holds message ctx) : ctx.buflen < 64 := by
  rw [holds.buflen]
  exact Nat.mod_lt _ (by decide)

theorem Holds.push {message : Bytes} {ctx : Sha256Ctx} (holds : Holds message ctx) (byte : UInt8) :
    Holds (message ++ [byte]) (ctx.push byte) := by
  have length : (message ++ [byte]).length = message.length + 1 := by simp
  have small := holds.small
  have size : (ctx.blk.set ctx.buflen byte).length = 64 := by rw [List.length_set, holds.size]
  have stored : (ctx.blk.set ctx.buflen byte).take (ctx.buflen + 1) =
      Sha256.rest message ++ [byte] := by
    have here : ctx.buflen < ctx.blk.length := by
      rw [holds.size]
      exact small
    rw [List.take_add_one, List.take_set_of_le (le_refl _), List.getElem?_set_self here, holds.rest]
    rfl
  have bits : ctx.bitlen + 8 = UInt64.ofNat (8 * (message.length + 1)) := by
    rw [holds.bitlen, Nat.mul_succ, UInt64.ofNat_add]
    rfl
  have tail : (Sha256.rest message ++ [byte]).length = ctx.buflen + 1 := by
    rw [List.length_append, Sha256.rest_length, holds.buflen]
    rfl
  have buflen := holds.buflen
  have blocks := Sha256.blocks_append_rest message [byte]
  unfold Sha256Ctx.push
  dsimp only
  by_cases full : ctx.buflen + 1 = 64
  · rw [if_pos full]
    have block : ctx.blk.set ctx.buflen byte = Sha256.rest message ++ [byte] := by
      rw [← stored, full, List.take_of_length_le size.le]
    rw [Sha256.blocks_of_block (tail.trans full)] at blocks
    refine ⟨?_, size, ?_, ?_, ?_⟩
    · show (transform _).h = _
      rw [transform_h size, blocks, List.foldl_append, ← holds.h]
      dsimp only
      rw [block]
      rfl
    · rw [length]
      show 0 = _
      omega
    · apply (List.eq_nil_of_length_eq_zero _).symm
      rw [Sha256.rest_length, length]
      omega
    · rw [length]
      exact bits
  · rw [if_neg full]
    rw [Sha256.blocks_of_short (show (Sha256.rest message ++ [byte]).length < 64 by omega),
      List.append_nil] at blocks
    refine ⟨?_, size, ?_, ?_, ?_⟩
    · rw [blocks]
      exact holds.h
    · rw [length]
      show ctx.buflen + 1 = _
      omega
    · have quotient : (message.length + 1) / 64 = message.length / 64 := by omega
      rw [Sha256.rest, length, quotient, List.drop_append_of_le_length (Nat.mul_div_le _ _)]
      exact stored
    · rw [length]
      exact bits

theorem Holds.update {message : Bytes} {ctx : Sha256Ctx}
    (holds : Holds message ctx) (data : Bytes) :
    Holds (message ++ data) (ctx.update data) := by
  induction data generalizing message ctx with
  | nil => rwa [List.append_nil]
  | cons byte data ih =>
      have next := ih (holds.push byte)
      rwa [List.append_assoc] at next

theorem holds_updates (pieces : List Bytes) : Holds pieces.flatten (pieces.foldl update {}) := by
  have go {message : Bytes} {ctx : Sha256Ctx} (holds : Holds message ctx) :
      Holds (message ++ pieces.flatten) (pieces.foldl Sha256Ctx.update ctx) := by
    induction pieces generalizing message ctx with
    | nil => rwa [List.flatten_nil, List.append_nil]
    | cons piece pieces ih =>
        rw [List.flatten_cons, ← List.append_assoc]
        exact ih (holds.update piece)
  exact go holds_nil

/-- The message with zeros for the bytes behind its whole blocks. -/
def zeroTail (message : Bytes) : Bytes :=
  message.take (64 * (message.length / 64)) ++ List.replicate (message.length % 64) 0

theorem zeroTail_length (message : Bytes) : (zeroTail message).length = message.length := by
  rw [zeroTail, List.length_append, List.length_take, List.length_replicate]
  omega

theorem blocks_zeroTail (message tail : Bytes) :
    Sha256.blocks (zeroTail message ++ tail) =
      Sha256.blocks message ++ Sha256.blocks (List.replicate (message.length % 64) 0 ++ tail) := by
  have whole : 64 ∣ (message.take (64 * (message.length / 64))).length := by
    rw [List.length_take, Nat.min_eq_left (Nat.mul_div_le _ _)]
    exact Nat.dvd_mul_right _ _
  have short : Sha256.blocks (Sha256.rest message) = [] :=
    Sha256.blocks_of_short ((Sha256.rest_length message).trans_lt (Nat.mod_lt _ (by decide)))
  have front : Sha256.blocks message =
      Sha256.blocks (message.take (64 * (message.length / 64))) := by
    calc Sha256.blocks message
        = Sha256.blocks (message.take (64 * (message.length / 64)) ++ Sha256.rest message) := by
          rw [Sha256.rest, List.take_append_drop]
      _ = Sha256.blocks (message.take (64 * (message.length / 64))) := by
          rw [Sha256.blocks_append whole, short, List.append_nil]
  rw [zeroTail, List.append_assoc, Sha256.blocks_append whole, ← front]

theorem set_length (v : Nat → UInt8) {fin : Bytes} (size : fin.length = 64) :
    (List.range 8).foldl (fun fin i => fin.set (56 + i) (v i)) fin =
      fin.take 56 ++ (List.range 8).map v := by
  have go (n : Nat) (inside : n ≤ 8) : (List.range n).foldl
      (fun fin i => fin.set (56 + i) (v i)) fin =
      fin.take 56 ++ (List.range n).map v ++ fin.drop (56 + n) := by
    induction n with
    | zero => simp
    | succ n ih =>
        have front : (fin.take 56 ++ (List.range n).map v).length = 56 + n := by
          rw [List.length_append, List.length_take, List.length_map, List.length_range]
          omega
        have bound : 56 + n < fin.length := by omega
        have next : fin.drop (56 + n) = fin[56 + n] :: fin.drop (56 + n + 1) :=
          List.drop_eq_getElem_cons bound
        rw [List.range_succ, List.foldl_append, ih (by omega), List.foldl_cons, List.foldl_nil,
          List.set_append_right _ _ (by omega), front, Nat.sub_self, next,
            List.set_cons_zero, List.map_append,
          List.append_assoc, List.append_assoc, List.append_assoc]
        rfl
  rw [go 8 (le_refl _), List.drop_of_length_le (by omega), List.append_nil]

theorem length_bytes (n : Nat) :
    (List.range 8).map (fun i => (UInt64.ofNat n >>> UInt64.ofNat (56 - 8 * i)).toUInt8) =
      (leBytes 8 n).reverse := by
  have byte (j : Nat) (small : j < 8) :
      (UInt64.ofNat n >>> UInt64.ofNat (8 * j)).toUInt8 = UInt8.ofNat (n / 256 ^ j % 256) := by
    apply UInt8.toNat_inj.mp
    have shift : (UInt64.ofNat (8 * j)).toNat % 64 = 8 * j := by
      rw [UInt64.toNat_ofNat']
      omega
    rw [UInt64.toNat_toUInt8, UInt64.toNat_shiftRight, shift,
      UInt64.toNat_ofNat', UInt8.toNat_ofNat', Nat.shiftRight_eq_div_pow]
    interval_cases j <;> omega
  have reversed : (List.range 8).reverse = (List.range 8).map (7 - ·) := rfl
  rw [leBytes_eq, ← List.map_reverse, reversed, List.map_map]
  apply List.map_congr_left
  intro i member
  have position : 56 - 8 * i = 8 * (7 - i) := by omega
  rw [position]
  exact byte (7 - i) (by omega)

theorem hex8_eq (x : UInt32) : hex8 x = hexBytes (leBytes 4 x.toNat).reverse := by
  have bound := x.toNat_lt
  simp only [leBytes, hexBytes, List.reverse_cons, List.reverse_nil,
    List.nil_append, List.cons_append, List.flatMap_cons, List.flatMap_nil, UInt8.toNat_ofNat']
  show [_, _, _, _, _, _, _, _] = [_, _, _, _, _, _, _, _]
  simp only [List.cons.injEq, and_true]
  refine ⟨?_, ?_, ?_, ?_, ?_, ?_, ?_, ?_⟩ <;> (apply congrArg hexDigit; omega)

theorem start_pad {r : Nat} (small : r < 64) : (List.replicate 64 0).set r (0x80 : UInt8) =
    List.replicate r 0 ++ 0x80 :: List.replicate (63 - r) 0 := by
  rw [List.set_eq_take_append_cons_drop,
    if_pos (by rw [List.length_replicate]; exact small), List.take_replicate, List.drop_replicate,
      Nat.min_eq_left small.le]
  congr 3
  omega

theorem lastBlock_h {ctx : Sha256Ctx} {pad : Bytes} {rem n : Nat}
    (size : pad.length = 64) (short : rem ≤ 56) (bits : ctx.bitlen = UInt64.ofNat n) :
    (ctx.lastBlock pad rem).h =
      Sha256.compress ctx.h
        (pad.take rem ++ List.replicate (56 - rem) 0 ++ (leBytes 8 n).reverse) := by
  have front : (pad.take rem).length = rem := by
    rw [List.length_take, size]
    omega
  have filled : (List.range 8).foldl
      (fun fin i => fin.set (56 + i) (ctx.bitlen >>> UInt64.ofNat (56 - 8 * i)).toUInt8)
      (pad.take rem ++ List.replicate (64 - rem) 0) =
        pad.take rem ++ List.replicate (56 - rem) 0 ++ (leBytes 8 n).reverse := by
    rw [set_length _ (by rw [List.length_append, List.length_replicate]; omega), bits,
      length_bytes, List.take_append, front, List.take_of_length_le (by omega), List.take_replicate,
        Nat.min_eq_left (by omega)]
  have block : (pad.take rem ++ List.replicate (56 - rem) 0 ++ (leBytes 8 n).reverse).length =
      64 := by
    rw [List.length_append, List.length_append, front, List.length_replicate,
      List.length_reverse, leBytes_length]
    omega
  unfold lastBlock
  dsimp only
  rw [filled]
  exact transform_h block

theorem Holds.finish {message : Bytes} {ctx : Sha256Ctx} (holds : Holds message ctx) :
    ctx.finish.h = Sha256.hash (zeroTail message) := by
  have small := holds.small
  have padded : Sha256.hash (zeroTail message) =
      (Sha256.blocks (List.replicate ctx.buflen 0 ++ ([0x80] ++
        (List.replicate
          ((119 - ctx.buflen) % 64) 0 ++ (leBytes 8 (8 * message.length)).reverse)))).foldl
          Sha256.compress ctx.h := by
    rw [Sha256.hash, Sha256.pad, List.append_assoc, List.append_assoc, blocks_zeroTail,
      List.foldl_append, ← holds.h, zeroTail_length, holds.buflen]
  have mark : (List.replicate ctx.buflen (0 : UInt8) ++ 0x80 :: List.replicate
      (63 - ctx.buflen) 0).take
      (ctx.buflen + 1) = List.replicate ctx.buflen 0 ++ [0x80] := by
    rw [List.take_append, List.length_replicate,
      List.take_of_length_le (by rw [List.length_replicate]; omega), Nat.add_sub_cancel_left]
    rfl
  have size : (List.replicate ctx.buflen (0 : UInt8) ++ 0x80 :: List.replicate
      (63 - ctx.buflen) 0).length = 64 := by
    rw [List.length_append, List.length_cons, List.length_replicate, List.length_replicate]
    omega
  rw [padded]
  unfold Sha256Ctx.finish
  dsimp only
  rw [start_pad small]
  by_cases two : 56 < ctx.buflen + 1
  · have zeros : (119 - ctx.buflen) % 64 = (63 - ctx.buflen) + 56 := by omega
    have first :
        (List.replicate ctx.buflen (0 : UInt8) ++ [0x80] ++ List.replicate
          (63 - ctx.buflen) 0).length = 64 := by
      rwa [List.append_assoc]
    have shape : List.replicate ctx.buflen
        (0 : UInt8) ++ ([0x80] ++ (List.replicate ((119 - ctx.buflen) % 64) 0 ++
        (leBytes 8 (8 * message.length)).reverse)) =
          (List.replicate ctx.buflen 0 ++ [0x80] ++ List.replicate (63 - ctx.buflen) 0) ++
            (List.replicate 56 0 ++ (leBytes 8 (8 * message.length)).reverse) := by
      rw [zeros, List.replicate_add]
      simp only [List.append_assoc]
    have bits (blk : Bytes) : (transform { ctx with blk }).bitlen =
        UInt64.ofNat (8 * message.length) := by
      rw [transform_bitlen]
      exact holds.bitlen
    have left : 64 - (ctx.buflen + 1) = 63 - ctx.buflen := by omega
    rw [if_pos two, mark, left, lastBlock_h size (by decide) (bits _), transform_h first, shape,
      Sha256.blocks_append (by rw [first]), Sha256.blocks_of_block first,
        Sha256.blocks_of_block (by simp)]
    simp only [List.take_zero, List.nil_append, List.cons_append, List.foldl_cons,
      List.foldl_nil, Nat.sub_zero]
  · have zeros : (119 - ctx.buflen) % 64 = 55 - ctx.buflen := by omega
    have shape : List.replicate ctx.buflen
        (0 : UInt8) ++ ([0x80] ++ (List.replicate ((119 - ctx.buflen) % 64) 0 ++
        (leBytes 8 (8 * message.length)).reverse)) =
          List.replicate ctx.buflen 0 ++ [0x80] ++ List.replicate (56 - (ctx.buflen + 1)) 0 ++
            (leBytes 8 (8 * message.length)).reverse := by
      rw [zeros, show 56 - (ctx.buflen + 1) = 55 - ctx.buflen by omega]
      simp only [List.append_assoc]
    have block :
        (List.replicate ctx.buflen (0 : UInt8) ++ [0x80] ++ List.replicate
          (56 - (ctx.buflen + 1)) 0 ++
        (leBytes 8 (8 * message.length)).reverse).length = 64 := by
      simp only [List.length_append, List.length_replicate, List.length_reverse,
        leBytes_length, List.length_singleton]
      omega
    rw [if_neg two, lastBlock_h size (by omega) holds.bitlen, mark, shape,
      Sha256.blocks_of_block block, List.foldl_cons, List.foldl_nil]

theorem Holds.hexdigest {message : Bytes} {ctx : Sha256Ctx} (holds : Holds message ctx) :
    ctx.hexdigest = hexBytes (Sha256.digest (zeroTail message)) := by
  unfold Sha256Ctx.hexdigest Sha256.digest
  rw [holds.finish]
  simp only [List.flatMap_cons, List.flatMap_nil, hex8_eq, hexBytes,
    List.flatMap_append, List.append_nil]

/-- The bytes behind the last whole block do not matter: they are zeros, or they collide with zeros. -/
def ZeroTail (message : Bytes) : Prop :=
  (∀ b ∈ Sha256.rest message, b = 0) ∨
    (zeroTail message ≠ message ∧ Sha256.digest (zeroTail message) = Sha256.digest message)

theorem zeroTail_eq_iff (message : Bytes) :
    zeroTail message = message ↔ ∀ b ∈ Sha256.rest message, b = 0 := by
  have split := List.take_append_drop (64 * (message.length / 64)) message
  have same : zeroTail message = message ↔
      List.replicate (message.length % 64) 0 = Sha256.rest message := by
    constructor
    · intro zeros
      exact List.append_cancel_left (zeros.trans split.symm)
    · intro zeros
      rw [zeroTail, zeros]
      exact split
  rw [same, eq_comm, ← Sha256.rest_length, List.eq_replicate_iff]
  exact and_iff_right rfl

theorem digest_zeroTail_iff (message : Bytes) :
    hexBytes (Sha256.digest (zeroTail message)) = hexBytes (Sha256.digest message) ↔
      ZeroTail message := by
  rw [hexBytes_injective.eq_iff, ZeroTail, ← zeroTail_eq_iff]
  constructor
  · intro collide
    by_cases same : zeroTail message = message
    · exact Or.inl same
    · exact Or.inr ⟨same, collide⟩
  · rintro (same | ⟨-, collide⟩)
    · rw [same]
    · exact collide

end Sha256Ctx

theorem readPieces_flatten (bytes : Bytes) : (readPieces bytes).flatten = bytes := by
  have go (n : Nat) : ((List.range n).map fun i => (bytes.drop (8192 * i)).take 8192).flatten =
      bytes.take (8192 * n) := by
    induction n with
    | zero => rfl
    | succ n ih =>
        rw [List.range_succ, List.map_append, List.flatten_append, ih,
          List.map_singleton, List.flatten_singleton, Nat.mul_succ, List.take_add]
  unfold readPieces
  rw [go, List.take_of_length_le (by omega)]

theorem sha256File_insert (dir : Dir) (path bytes : Bytes) :
    sha256File (dir.insert path bytes) path =
      hexBytes (Sha256.digest (Sha256Ctx.zeroTail bytes)) := by
  unfold sha256File
  rw [AList.lookup_insert]
  dsimp only
  rw [(Sha256Ctx.holds_updates _).hexdigest, readPieces_flatten]

theorem writeSha256Sidecar_insert (dir : Dir) (path bytes : Bytes) :
    writeSha256Sidecar (dir.insert path bytes) path =
      some ((dir.insert path bytes).insert (path ++ ascii ".sha256")
      (hexBytes (Sha256.digest (Sha256Ctx.zeroTail bytes)) ++ ascii "  " ++
        path ++ [newline])) := by
  have text : hexBytes (Sha256.digest (Sha256Ctx.zeroTail bytes)) ≠ [] := by
    intro empty
    have length := congrArg List.length empty
    simp [hexBytes, Sha256.digest] at length
  unfold writeSha256Sidecar
  dsimp only
  rw [sha256File_insert, if_neg text]

/-- The digest is the one of the standard, for every cut into updates and for every file, exactly
when the bytes behind the last whole block do not matter. -/
theorem sha256_iff (pieces : List Bytes) (dir : Dir) (path bytes : Bytes) :
    ((pieces.foldl Sha256Ctx.update {}).hexdigest = hexBytes (Sha256.digest pieces.flatten) ↔
      Sha256Ctx.ZeroTail pieces.flatten) ∧
    (writeSha256Sidecar (dir.insert path bytes) path =
      some ((dir.insert path bytes).insert (path ++ ascii ".sha256")
        (hexBytes (Sha256.digest bytes) ++ ascii "  " ++ path ++ [newline])) ↔
      Sha256Ctx.ZeroTail bytes) := by
  constructor
  · rw [(Sha256Ctx.holds_updates pieces).hexdigest, Sha256Ctx.digest_zeroTail_iff]
  · rw [writeSha256Sidecar_insert, ← Sha256Ctx.digest_zeroTail_iff, Option.some.injEq]
    constructor
    · intro same
      have content := congrArg (fun d : Dir => d.lookup (path ++ ascii ".sha256")) same
      rw [AList.lookup_insert, AList.lookup_insert, Option.some.injEq,
        List.append_assoc, List.append_assoc, List.append_assoc, List.append_assoc] at content
      exact List.append_cancel_right content
    · intro same
      rw [same]

/-- "abc" in one update: the standard gives this digest as an example. -/
theorem sha256_abc :
    ¬ ∀ pieces : List Bytes,
      (pieces.foldl Sha256Ctx.update {}).hexdigest = hexBytes (Sha256.digest pieces.flatten) := by
  intro always
  have standard : hexBytes (Sha256.digest (ascii "abc")) =
      ascii "ba7816bf8f01cfea414140de5dae2223b00361a396177a9cb410ff61f20015ad" := by
    have block : Sha256.blocks (Sha256.pad (ascii "abc")) = [Sha256.pad (ascii "abc")] := by decide
    have hashed : Sha256.hash (ascii "abc") =
        (Sha256Ctx.transform { blk := Sha256.pad (ascii "abc") }).h := by
      rw [Sha256Ctx.transform_h (by decide), Sha256.hash, block]
      rfl
    rw [Sha256.digest, hashed]
    decide +kernel
  have computed : ((([ascii "abc"] : List Bytes).foldl Sha256Ctx.update {}).hexdigest) ≠
      ascii "ba7816bf8f01cfea414140de5dae2223b00361a396177a9cb410ff61f20015ad" := by
    decide +kernel
  exact computed ((always [ascii "abc"]).trans standard)

end LocalPC.Offline
