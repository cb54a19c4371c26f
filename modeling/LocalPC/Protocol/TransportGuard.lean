import Mathlib.Tactic.Ring
import LocalPC.Protocol.Validation

/-!
# Transport guard

`protocol/transport_guard.hpp`: a guard takes packets in order of their sequence numbers and counts what
is lost between them. The difference of two sequence numbers is a signed 32-bit number, so that an order
survives the wrap of the sequence.
-/

namespace LocalPC.Protocol
open Lib

structure TransportCounters where
  accepted : UInt64 := 0
  rejected : UInt64 := 0
  outOfOrder : UInt64 := 0
  seqGaps : UInt64 := 0
  packetsLost : UInt64 := 0
  wraparoundEvents : UInt64 := 0
  deriving DecidableEq, Repr

inductive TransportRejectReason where
  | kNone | kParseError | kInvalidMagic | kInvalidVersion | kBadLength | kBadChecksum
  | kOutOfOrder | kUnknownType
  deriving DecidableEq, Repr

structure TransportResult where
  accepted : Bool := false
  reason : TransportRejectReason := .kNone
  deriving DecidableEq, Repr

structure TransportGuard where
  maxPayloadBytes : UInt32 := 8192
  lastSeq : UInt32 := 0
  seenFirst : Bool := false
  counters : TransportCounters := {}
  deriving DecidableEq, Repr

namespace TransportGuard

def reasonFromValidation (reason : String) : TransportRejectReason :=
  if reason = "invalid magic" then .kInvalidMagic
  else if reason = "checksum mismatch" then .kBadChecksum
  else if reason = "payload_size mismatch" ∨ reason = "payload_size exceeds limit" then .kBadLength
  else if reason = "unsupported protocol_version" ∨ reason = "unsupported payload_version" then
    .kInvalidVersion
  else if reason = "unknown packet type" then .kUnknownType
  else .kParseError

def seqDiff (seq lastSeq : UInt32) : Int := (seq - lastSeq).toBitVec.toInt

def reject (guard : TransportGuard) : TransportGuard :=
  { guard with counters := { guard.counters with rejected := guard.counters.rejected + 1 } }

def countGap (seq : UInt32) (guard : TransportGuard) : TransportCounters :=
  let diff := seqDiff seq guard.lastSeq
  let counters := guard.counters
  let counters :=
    if seq < guard.lastSeq then { counters with wraparoundEvents := counters.wraparoundEvents + 1 }
    else counters
  if 1 < diff then
    { counters with
      seqGaps := counters.seqGaps + 1
      packetsLost := counters.packetsLost + UInt64.ofNat (diff - 1).toNat }
  else counters

def accept (seq : UInt32) (counters : TransportCounters)
    (guard : TransportGuard) : TransportGuard :=
  { guard with
    lastSeq := seq
    seenFirst := true
    counters := { counters with accepted := counters.accepted + 1 } }

def validateDetailed (packetBytes : Bytes) (guard : TransportGuard) :
    TransportResult × TransportGuard :=
  match deserializePacket packetBytes with
  | .error _ => ({ accepted := false, reason := .kParseError }, guard.reject)
  | .ok packet =>
      let validation := validatePacketVerbose packet.header packet.payload guard.maxPayloadBytes
      if ¬ validation.accepted then
        ({ accepted := false, reason := reasonFromValidation validation.reason }, guard.reject)
      else if guard.seenFirst then
        if seqDiff packet.header.seq guard.lastSeq ≤ 0 then
          let guard := guard.reject
          ({ accepted := false, reason := .kOutOfOrder },
            { guard with
              counters := { guard.counters with outOfOrder := guard.counters.outOfOrder + 1 } })
        else
          ({ accepted := true, reason := .kNone },
            guard.accept packet.header.seq (guard.countGap packet.header.seq))
      else ({ accepted := true, reason := .kNone }, guard.accept packet.header.seq guard.counters)

def validateAll (calls : List Bytes) (guard : TransportGuard) : TransportGuard :=
  calls.foldl (fun guard packetBytes => (guard.validateDetailed packetBytes).2) guard

/-- The sequence number of the first packet that a sequence of calls accepts. -/
def firstSeq (guard : TransportGuard) : List Bytes → Option UInt32
  | [] => none
  | packetBytes :: calls =>
      if (guard.validateDetailed packetBytes).1.accepted then
        (deserializePacket packetBytes).toOption.map (·.header.seq)
      else firstSeq (guard.validateDetailed packetBytes).2 calls

/-! ## What a call can do -/

def SameAccount (before after : TransportGuard) : Prop :=
  after.lastSeq = before.lastSeq ∧ after.counters.accepted = before.counters.accepted ∧
    after.counters.packetsLost = before.counters.packetsLost ∧
      after.counters.seqGaps = before.counters.seqGaps ∧
      after.counters.wraparoundEvents = before.counters.wraparoundEvents

theorem validateDetailed_cases (packetBytes : Bytes) (guard : TransportGuard) :
    ((guard.validateDetailed packetBytes).1.accepted = false ∧
      SameAccount guard (guard.validateDetailed packetBytes).2 ∧
      (guard.validateDetailed packetBytes).2.seenFirst = guard.seenFirst ∧
      (guard.validateDetailed packetBytes).2.counters.rejected = guard.counters.rejected + 1) ∨
    ∃ packet, deserializePacket packetBytes = .ok packet ∧
      (guard.validateDetailed packetBytes).1.accepted = true ∧
      ((guard.seenFirst = false ∧
          (guard.validateDetailed packetBytes).2 = guard.accept packet.header.seq guard.counters) ∨
        (guard.seenFirst = true ∧ 0 < seqDiff packet.header.seq guard.lastSeq ∧
          (guard.validateDetailed packetBytes).2 =
            guard.accept packet.header.seq (guard.countGap packet.header.seq))) := by
  unfold validateDetailed
  split
  next thrown => exact .inl ⟨rfl, ⟨rfl, rfl, rfl, rfl, rfl⟩, rfl, rfl⟩
  next packet parsed =>
    dsimp only
    split
    next refused => exact .inl ⟨rfl, ⟨rfl, rfl, rfl, rfl, rfl⟩, rfl, rfl⟩
    split
    next seen =>
      split
      next late => exact .inl ⟨rfl, ⟨rfl, rfl, rfl, rfl, rfl⟩, rfl, rfl⟩
      next inOrder => exact .inr ⟨packet, parsed, rfl, .inr ⟨seen, not_le.mp inOrder, rfl⟩⟩
    next fresh => exact .inr ⟨packet, parsed, rfl, .inl ⟨Bool.eq_false_of_not_eq_true fresh, rfl⟩⟩

theorem seqDiff_forward {seq lastSeq : UInt32} (forward : 0 < seqDiff seq lastSeq) :
    seqDiff seq lastSeq < 2 ^ 31 ∧
      (seq.toNat : Int) + (if seq < lastSeq then 2 ^ 32 else 0) =
        lastSeq.toNat + seqDiff seq lastSeq := by
  have difference : (seq - lastSeq).toBitVec.toNat =
      (2 ^ 32 - lastSeq.toNat + seq.toNat) % 2 ^ 32 :=
    UInt32.toNat_sub seq lastSeq
  have high := seq.toNat_lt
  have low := lastSeq.toNat_lt
  simp only [seqDiff, BitVec.toInt_eq_toNat_cond, difference] at forward ⊢
  simp only [UInt32.lt_iff_toNat_lt]
  split at forward <;> split <;> omega

/-! ## The account of a run -/

/-- The counters are `accepted`, `lost` and `wraps` as 64-bit words, and these numbers account for
every sequence number from `first` to the last one. -/
structure Accounts (first : UInt32) (accepted lost wraps : Nat)
    (guard : TransportGuard) : Prop where
  seen : guard.seenFirst = true
  acceptedWord : guard.counters.accepted = UInt64.ofNat accepted
  lostWord : guard.counters.packetsLost = UInt64.ofNat lost
  wrapsWord : guard.counters.wraparoundEvents = UInt64.ofNat wraps
  positive : 0 < accepted
  balance : guard.lastSeq.toNat + 2 ^ 32 * wraps = first.toNat + (accepted - 1) + lost
  lostBound : lost ≤ (accepted - 1) * (2 ^ 31 - 2)
  wrapsBound : wraps ≤ accepted

section
variable {first : UInt32} {accepted lost wraps : Nat} {guard : TransportGuard}

theorem Accounts.same {after : TransportGuard} (account : Accounts first accepted lost wraps guard)
    (same : SameAccount guard after) (seen : after.seenFirst = guard.seenFirst) :
    Accounts first accepted lost wraps after where
  seen := seen.trans account.seen
  acceptedWord := same.2.1.trans account.acceptedWord
  lostWord := same.2.2.1.trans account.lostWord
  wrapsWord := same.2.2.2.2.trans account.wrapsWord
  positive := account.positive
  balance := same.1 ▸ account.balance
  lostBound := account.lostBound
  wrapsBound := account.wrapsBound

theorem accounts_first {seq : UInt32} (fresh : guard.counters.accepted = 0)
    (noneLost : guard.counters.packetsLost = 0) (noWrap : guard.counters.wraparoundEvents = 0) :
    Accounts seq 1 0 0 (guard.accept seq guard.counters) where
  seen := rfl
  acceptedWord := congrArg (· + 1) fresh
  lostWord := noneLost
  wrapsWord := noWrap
  positive := Nat.one_pos
  balance := rfl
  lostBound := Nat.zero_le _
  wrapsBound := Nat.zero_le _

theorem countGap_accepted (seq : UInt32) (guard : TransportGuard) :
    (guard.countGap seq).accepted = guard.counters.accepted := by
  simp only [countGap]
  split <;> split <;> rfl

theorem countGap_packetsLost {seq : UInt32} {guard : TransportGuard}
    (forward : 0 < seqDiff seq guard.lastSeq) :
    (guard.countGap seq).packetsLost =
      guard.counters.packetsLost + UInt64.ofNat ((seqDiff seq guard.lastSeq).toNat - 1) := by
  have less : (seqDiff seq guard.lastSeq - 1).toNat =
      (seqDiff seq guard.lastSeq).toNat - 1 := by omega
  simp only [countGap, less]
  split
  next gap => split <;> rfl
  next adjacent =>
    have one : (seqDiff seq guard.lastSeq).toNat - 1 = 0 := by omega
    rw [one]
    split <;> exact (UInt64.add_zero _).symm

theorem countGap_wraparoundEvents (seq : UInt32) (guard : TransportGuard) :
    (guard.countGap seq).wraparoundEvents =
      guard.counters.wraparoundEvents + UInt64.ofNat (if seq < guard.lastSeq then 1 else 0) := by
  simp only [countGap]
  by_cases wrap : seq < guard.lastSeq
  · simp only [if_pos wrap]
    split <;> rfl
  · simp only [if_neg wrap]
    split <;> exact (UInt64.add_zero _).symm

theorem Accounts.next {seq : UInt32} (account : Accounts first accepted lost wraps guard)
    (forward : 0 < seqDiff seq guard.lastSeq) :
    Accounts first (accepted + 1) (lost + ((seqDiff seq guard.lastSeq).toNat - 1))
      (wraps + if seq < guard.lastSeq then 1 else 0) (guard.accept seq (guard.countGap seq)) := by
  obtain ⟨short, landed⟩ := seqDiff_forward forward
  have positive := account.positive
  have balance := account.balance
  have lostBound := account.lostBound
  have wrapsBound := account.wrapsBound
  refine ⟨rfl, ?_, ?_, ?_, by omega, ?_, ?_, ?_⟩
  · show (guard.countGap seq).accepted + 1 = _
    rw [countGap_accepted, account.acceptedWord, UInt64.ofNat_add]
    rfl
  · show (guard.countGap seq).packetsLost = _
    rw [countGap_packetsLost forward, account.lostWord, UInt64.ofNat_add]
  · show (guard.countGap seq).wraparoundEvents = _
    rw [countGap_wraparoundEvents, account.wrapsWord, UInt64.ofNat_add]
  · show seq.toNat + 2 ^ 32 * (wraps + if seq < guard.lastSeq then 1 else 0) = _
    by_cases wrap : seq < guard.lastSeq
    · rw [if_pos wrap] at landed ⊢
      omega
    · rw [if_neg wrap] at landed ⊢
      omega
  · rw [Nat.add_sub_cancel]
    have gap : (seqDiff seq guard.lastSeq).toNat - 1 ≤ 2 ^ 31 - 2 := by omega
    have more : accepted * (2 ^ 31 - 2) = (accepted - 1) * (2 ^ 31 - 2) + (2 ^ 31 - 2) := by
      rw [← Nat.succ_mul, Nat.succ_eq_add_one, Nat.sub_add_cancel positive]
    omega
  · split <;> omega

theorem Accounts.step (account : Accounts first accepted lost wraps guard) (packetBytes : Bytes) :
    ∃ accepted' lost' wraps', accepted' ≤ accepted + 1 ∧
      Accounts first accepted' lost' wraps' (guard.validateDetailed packetBytes).2 := by
  obtain ⟨-, same, seen, -⟩ | ⟨packet, -, -, ⟨fresh, -⟩ | ⟨-, forward, taken⟩⟩ :=
    validateDetailed_cases packetBytes guard
  · exact ⟨accepted, lost, wraps, Nat.le_succ _, account.same same seen⟩
  · exact absurd (account.seen.symm.trans fresh) (by simp)
  · rw [taken]
    exact ⟨_, _, _, le_rfl, account.next forward⟩

theorem Accounts.run (account : Accounts first accepted lost wraps guard) (calls : List Bytes) :
    ∃ accepted' lost' wraps', accepted' ≤ accepted + calls.length ∧
      Accounts first accepted' lost' wraps' (guard.validateAll calls) := by
  induction calls generalizing guard accepted lost wraps with
  | nil => exact ⟨accepted, lost, wraps, Nat.le_refl _, account⟩
  | cons packetBytes calls ih =>
      obtain ⟨accepted₁, lost₁, wraps₁, more, stepped⟩ := account.step packetBytes
      obtain ⟨accepted₂, lost₂, wraps₂, most, done⟩ := ih stepped
      exact ⟨accepted₂, lost₂, wraps₂, by rw [List.length_cons]; omega, done⟩

structure Untouched (guard : TransportGuard) : Prop where
  unseen : guard.seenFirst = false
  accepted : guard.counters.accepted = 0
  lost : guard.counters.packetsLost = 0
  wraps : guard.counters.wraparoundEvents = 0

theorem accounts_of_firstSeq (untouched : Untouched guard) (calls : List Bytes)
    (found : guard.firstSeq calls = some first) :
    ∃ accepted lost wraps, accepted ≤ calls.length ∧
      Accounts first accepted lost wraps (guard.validateAll calls) := by
  induction calls generalizing guard with
  | nil => cases found
  | cons packetBytes calls ih =>
      rw [firstSeq] at found
      obtain ⟨refused, same, seen, -⟩ | ⟨packet, parsed, taken, ⟨-, fresh⟩ | ⟨seen, -⟩⟩ :=
        validateDetailed_cases packetBytes guard
      · rw [if_neg (by rw [refused]; exact Bool.false_ne_true)] at found
        have still : Untouched (guard.validateDetailed packetBytes).2 :=
          ⟨seen.trans untouched.unseen, same.2.1.trans untouched.accepted,
            same.2.2.1.trans untouched.lost, same.2.2.2.2.trans untouched.wraps⟩
        obtain ⟨accepted, lost, wraps, few, account⟩ := ih still found
        exact ⟨accepted, lost, wraps, few.trans (Nat.le_succ _), account⟩
      · rw [if_pos taken, parsed] at found
        obtain rfl : packet.header.seq = first := Option.some.inj found
        have start :=
          @accounts_first guard packet.header.seq untouched.accepted untouched.lost untouched.wraps
        rw [← fresh] at start
        obtain ⟨accepted, lost, wraps, few, account⟩ := start.run calls
        exact ⟨accepted, lost, wraps, by rw [List.length_cons]; omega, account⟩
      · exact absurd (seen.symm.trans untouched.unseen) (by simp)

end

theorem counted_step (packetBytes : Bytes) {guard : TransportGuard} {accepted rejected : Nat}
    (acceptedWord : guard.counters.accepted = UInt64.ofNat accepted)
    (rejectedWord : guard.counters.rejected = UInt64.ofNat rejected) :
    ∃ accepted' rejected', accepted' + rejected' = accepted + rejected + 1 ∧
      (guard.validateDetailed packetBytes).2.counters.accepted = UInt64.ofNat accepted' ∧
        (guard.validateDetailed packetBytes).2.counters.rejected = UInt64.ofNat rejected' := by
  have acceptedNext : guard.counters.accepted + 1 = UInt64.ofNat (accepted + 1) := by
    rw [acceptedWord, UInt64.ofNat_add]
    rfl
  have rejectedNext : guard.counters.rejected + 1 = UInt64.ofNat (rejected + 1) := by
    rw [rejectedWord, UInt64.ofNat_add]
    rfl
  obtain ⟨-, same, -, refused⟩ | ⟨packet, -, -, ⟨-, taken⟩ | ⟨-, -, taken⟩⟩ :=
    validateDetailed_cases packetBytes guard
  · exact ⟨accepted, rejected + 1, rfl, same.2.1.trans acceptedWord, refused.trans rejectedNext⟩
  · rw [taken]
    exact ⟨accepted + 1, rejected, Nat.add_right_comm .., acceptedNext, rejectedWord⟩
  · have kept : (guard.countGap packet.header.seq).rejected = guard.counters.rejected := by
      simp only [countGap]
      split <;> split <;> rfl
    have same := countGap_accepted packet.header.seq guard
    rw [taken]
    exact ⟨accepted + 1, rejected, Nat.add_right_comm ..,
      (congrArg (· + 1) same).trans acceptedNext, kept.trans rejectedWord⟩

theorem counted_run (calls : List Bytes) {guard : TransportGuard} {accepted rejected : Nat}
    (acceptedWord : guard.counters.accepted = UInt64.ofNat accepted)
    (rejectedWord : guard.counters.rejected = UInt64.ofNat rejected) :
    ∃ accepted' rejected', accepted' + rejected' = accepted + rejected + calls.length ∧
      (guard.validateAll calls).counters.accepted = UInt64.ofNat accepted' ∧
        (guard.validateAll calls).counters.rejected = UInt64.ofNat rejected' := by
  induction calls generalizing guard accepted rejected with
  | nil => exact ⟨accepted, rejected, rfl, acceptedWord, rejectedWord⟩
  | cons packetBytes calls ih =>
      obtain ⟨accepted₁, rejected₁, one, acceptedWord₁, rejectedWord₁⟩ :=
        counted_step packetBytes acceptedWord rejectedWord
      obtain ⟨accepted₂, rejected₂, all, words⟩ := ih acceptedWord₁ rejectedWord₁
      exact ⟨accepted₂, rejected₂, by rw [all, one, List.length_cons]; omega, words⟩

/-! ## The counters and the sequence space -/

/-- The equation of the sequence numbers, between the counters as integers. -/
def IntegerBalance (first : UInt32) (guard : TransportGuard) : Prop :=
  (guard.lastSeq.toNat : Int) + 2 ^ 32 * guard.counters.wraparoundEvents.toNat =
    first.toNat + (guard.counters.accepted.toNat - 1) + guard.counters.packetsLost.toNat

def WordBalance (first : UInt32) (guard : TransportGuard) : Prop :=
  guard.lastSeq.toUInt64 + UInt64.ofNat (2 ^ 32) * guard.counters.wraparoundEvents =
    first.toUInt64 + (guard.counters.accepted - 1) + guard.counters.packetsLost

section
variable {first : UInt32} {accepted lost wraps : Nat} {guard : TransportGuard}

theorem Accounts.wordBalance (account : Accounts first accepted lost wraps guard) :
    WordBalance first guard := by
  have wide (x : UInt32) : x.toUInt64 = UInt64.ofNat x.toNat := by
    rw [← UInt32.toNat_toUInt64, UInt64.ofNat_toNat]
  have before : UInt64.ofNat accepted - 1 = UInt64.ofNat (accepted - 1) := by
    have positive := account.positive
    obtain ⟨k, rfl⟩ : ∃ k, accepted = k + 1 := ⟨accepted - 1, by omega⟩
    rw [UInt64.ofNat_add, Nat.add_sub_cancel]
    exact UInt64.add_sub_cancel ..
  have balance := congrArg UInt64.ofNat account.balance
  simp only [UInt64.ofNat_add, UInt64.ofNat_mul] at balance
  rw [WordBalance, account.acceptedWord, account.lostWord, account.wrapsWord, wide, wide, before]
  exact balance

theorem Accounts.integerBalance (account : Accounts first accepted lost wraps guard)
    (few : accepted ≤ 2 ^ 33) :
    IntegerBalance first guard := by
  have small {n : Nat} (lt : n < 2 ^ 64) : (UInt64.ofNat n).toNat = n :=
    UInt64.toNat_ofNat_of_lt' lt
  have positive := account.positive
  have balance := account.balance
  have lostBound := account.lostBound
  have wrapsBound := account.wrapsBound
  have lostSmall : lost < 2 ^ 64 := by
    calc lost ≤ (accepted - 1) * (2 ^ 31 - 2) := lostBound
      _ ≤ 2 ^ 33 * (2 ^ 31 - 2) := Nat.mul_le_mul_right _ (by omega)
      _ < 2 ^ 64 := by decide
  rw [IntegerBalance, account.acceptedWord, account.lostWord, account.wrapsWord,
    small (by omega), small lostSmall, small (by omega)]
  omega

theorem Accounts.not_integerBalance (account : Accounts first accepted lost wraps guard)
    (few : accepted < 2 ^ 64) (many : 2 ^ 64 ≤ lost) : ¬ IntegerBalance first guard := by
  have small {n : Nat} (lt : n < 2 ^ 64) : (UInt64.ofNat n).toNat = n :=
    UInt64.toNat_ofNat_of_lt' lt
  have positive := account.positive
  have balance := account.balance
  have wrapsBound := account.wrapsBound
  have word := (UInt64.ofNat lost).toNat_lt
  rw [IntegerBalance, account.acceptedWord, account.lostWord, account.wrapsWord,
    small few, small (by omega)]
  omega

end

/-- From the first accepted packet on, the counters account for the sequence numbers modulo 2^64,
and as integers in a run of up to 2^33 calls; every call is counted; and a rejected packet changes
no account. -/
theorem counters_account (maxPayloadBytes : UInt32) (calls : List Bytes) :
    let start : TransportGuard := { maxPayloadBytes := maxPayloadBytes }
    let guard := start.validateAll calls
    (∀ first, start.firstSeq calls = some first →
      WordBalance first guard ∧ (calls.length ≤ 2 ^ 33 → IntegerBalance first guard)) ∧
    (guard.counters.accepted + guard.counters.rejected = UInt64.ofNat calls.length ∧
      (calls.length < 2 ^ 64 →
        guard.counters.accepted.toNat + guard.counters.rejected.toNat = calls.length)) ∧
    ∀ packetBytes, (guard.validateDetailed packetBytes).1.accepted = false →
      SameAccount guard (guard.validateDetailed packetBytes).2 := by
  intro start guard
  refine ⟨?_, ?_, ?_⟩
  · intro first found
    have untouched : Untouched start := ⟨rfl, rfl, rfl, rfl⟩
    obtain ⟨accepted, lost, wraps, few, account⟩ := accounts_of_firstSeq untouched calls found
    exact ⟨account.wordBalance, fun short => account.integerBalance (few.trans short)⟩
  · obtain ⟨accepted, rejected, total, acceptedWord, rejectedWord⟩ :=
      @counted_run calls start 0 0 rfl rfl
    have sum : accepted + rejected = calls.length := by omega
    refine ⟨?_, fun short => ?_⟩
    · rw [acceptedWord, rejectedWord, ← UInt64.ofNat_add, sum]
    · rw [acceptedWord, rejectedWord, UInt64.toNat_ofNat_of_lt' (show accepted < 2 ^ 64 by omega),
        UInt64.toNat_ofNat_of_lt' (show rejected < 2 ^ 64 by omega), sum]
  · intro packetBytes refused
    obtain ⟨-, same, -⟩ | ⟨packet, -, taken, -⟩ := validateDetailed_cases packetBytes guard
    · exact same
    · exact absurd (refused.symm.trans taken) Bool.false_ne_true

/-! ## A run that loses more than a counter holds -/

def emptyPacket (seq : UInt32) : Bytes := serializePacket { seq := seq } []

/-- Packets each of which skips as many numbers as an order allows. -/
def jumps (n : Nat) : List Bytes :=
  (List.range n).map fun k => emptyPacket (UInt32.ofNat (k * (2 ^ 31 - 1)))

theorem validateDetailed_emptyPacket {seq : UInt32} {guard : TransportGuard}
    (inOrder : guard.seenFirst = true → 0 < seqDiff seq guard.lastSeq) :
    guard.validateDetailed (emptyPacket seq) =
      ({ accepted := true, reason := .kNone },
        guard.accept seq (if guard.seenFirst then guard.countGap seq else guard.counters)) := by
  have valid :
      (validatePacketVerbose (sentHeader { seq := seq } []) [] guard.maxPayloadBytes).accepted =
        true :=
    validatePacketVerbose_sent rfl rfl rfl rfl (Nat.zero_le _)
  rw [validateDetailed, emptyPacket,
    deserializePacket_serializePacket { seq := seq } (show [].length < 2 ^ 32 by decide)]
  have seqSent : (sentHeader { seq := seq } []).seq = seq := rfl
  simp only [valid, not_true_eq_false, if_false, seqSent]
  split
  next seen => rw [if_neg (not_le.mpr (inOrder seen))]
  next fresh => rfl

theorem seqDiff_jump (k : Nat) :
    seqDiff (UInt32.ofNat ((k + 1) * (2 ^ 31 - 1)))
      (UInt32.ofNat (k * (2 ^ 31 - 1))) = 2 ^ 31 - 1 := by
  have step : UInt32.ofNat ((k + 1) * (2 ^ 31 - 1)) - UInt32.ofNat (k * (2 ^ 31 - 1)) =
      UInt32.ofNat (2 ^ 31 - 1) := by
    rw [Nat.succ_mul, UInt32.ofNat_add, UInt32.add_comm]
    exact UInt32.add_sub_cancel ..
  rw [seqDiff, step]
  rfl

theorem firstSeq_jumps (n : Nat) : ({} : TransportGuard).firstSeq (jumps (n + 1)) = some 0 := by
  have first := @validateDetailed_emptyPacket 0 {} (fun seen => absurd seen (by simp))
  have parsed := deserializePacket_serializePacket { seq := 0 } (show [].length < 2 ^ 32 by decide)
  rw [jumps, List.range_succ_eq_map, List.map_cons, firstSeq]
  rw [Nat.zero_mul, show UInt32.ofNat 0 = 0 from rfl, first, if_pos rfl, emptyPacket, parsed]
  rfl

theorem accounts_jumps (n : Nat) :
    ∃ wraps, Accounts 0 (n + 1) (n * (2 ^ 31 - 2)) wraps
      (({} : TransportGuard).validateAll (jumps (n + 1))) ∧
      (({} : TransportGuard).validateAll (jumps (n + 1))).lastSeq =
        UInt32.ofNat (n * (2 ^ 31 - 1)) := by
  have last (n : Nat) : ({} : TransportGuard).validateAll (jumps (n + 1)) =
      ((({} : TransportGuard).validateAll (jumps n)).validateDetailed
        (emptyPacket (UInt32.ofNat (n * (2 ^ 31 - 1))))).2 := by
    rw [jumps, List.range_succ, List.map_append, validateAll, List.foldl_append]
    rfl
  induction n with
  | zero =>
      refine ⟨0, ?_, ?_⟩
      · rw [last, validateDetailed_emptyPacket
          (fun seen => absurd seen (by simp [jumps, validateAll]))]
        exact accounts_first rfl rfl rfl
      · rw [last, validateDetailed_emptyPacket
          (fun seen => absurd seen (by simp [jumps, validateAll]))]
        rfl
  | succ n ih =>
      obtain ⟨wraps, account, here⟩ := ih
      have jump : seqDiff (UInt32.ofNat ((n + 1) * (2 ^ 31 - 1)))
          (({} : TransportGuard).validateAll (jumps (n + 1))).lastSeq = 2 ^ 31 - 1 := by
        rw [here, seqDiff_jump]
      have forward := jump.symm ▸ (show (0 : Int) < 2 ^ 31 - 1 by decide)
      rw [last, validateDetailed_emptyPacket (fun _ => forward), if_pos account.seen]
      have next := account.next forward
      rw [jump, show ((2 ^ 31 - 1 : Int)).toNat - 1 = 2 ^ 31 - 2 from rfl, ← Nat.succ_mul] at next
      exact ⟨_, next, rfl⟩

/-- After 2^33 + 10 packets in order the 64-bit counter of lost packets has wrapped. -/
theorem jumps_not_integerBalance :
    ({} : TransportGuard).firstSeq (jumps (2 ^ 33 + 10)) = some 0 ∧
      ¬ IntegerBalance 0 (({} : TransportGuard).validateAll (jumps (2 ^ 33 + 10))) := by
  obtain ⟨wraps, account, -⟩ := accounts_jumps (2 ^ 33 + 9)
  exact ⟨firstSeq_jumps (2 ^ 33 + 9), account.not_integerBalance (by decide) (by decide)⟩

end TransportGuard

end LocalPC.Protocol
