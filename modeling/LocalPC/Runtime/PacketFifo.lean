import LocalPC.Lib.DropOldest
import LocalPC.Runtime.PacketBuffer
import Mathlib.Data.List.Induction

namespace LocalPC.Runtime
open Lib Contract
variable {α : Type} [Packet α]

def bytesOf : List α → Nat
  | [] => 0
  | packet :: rest => (Packet.bytes packet).length + bytesOf rest

@[simp] theorem bytesOf_append (queue queue' : List α) :
    bytesOf (queue ++ queue') = bytesOf queue + bytesOf queue' := by
  induction queue with
  | nil => simp [bytesOf]
  | cons packet rest ih => rw [List.cons_append, bytesOf, bytesOf, ih, Nat.add_assoc]

@[simp] theorem bytesOf_singleton (packet : α) : bytesOf [packet] = (Packet.bytes packet).length :=
  rfl

/-- With a new packet of `size` bytes these would be too many packets or too many bytes. -/
def tooFull (capacityPackets maxBytes size : Nat) (queue : List α) : Bool :=
  capacityPackets < queue.length + 1 ∨ maxBytes < bytesOf queue + size

theorem tooFull_eq_false {capacityPackets maxBytes size : Nat} {queue : List α} :
    tooFull capacityPackets maxBytes size queue = false ↔
      queue.length + 1 ≤ capacityPackets ∧ bytesOf queue + size ≤ maxBytes := by
  rw [tooFull, decide_eq_false_iff_not, not_or, not_lt, not_lt]

namespace PacketBuffer

/-- `makeRoom`, which fails where `total_bytes_` would fall below zero. -/
def makeRoomChecked (size : Nat) : List α → PacketBuffer α → Option (PacketBuffer α)
  | [], b => some { b with queue := [] }
  | oldest :: rest, b =>
      if b.capacityPackets ≤ rest.length + 1 ∨ b.maxBytes < b.totalBytes + size then
        if b.totalBytes < (Packet.bytes oldest).length then none
        else
          makeRoomChecked size rest
            { b with
              totalBytes := b.totalBytes - (Packet.bytes oldest).length
              dropped := b.dropped + 1
              degraded := true }
      else some { b with queue := oldest :: rest }

def pushChecked (packet : α) (b : PacketBuffer α) : Option (PacketBuffer α) :=
  (makeRoomChecked (Packet.bytes packet).length b.queue b).map fun b =>
    { b with
      totalBytes := b.totalBytes + (Packet.bytes packet).length, queue := b.queue ++ [packet] }

def popChecked (b : PacketBuffer α) : Option (Option (α × PacketBuffer α)) :=
  match b.queue with
  | [] => some none
  | packet :: _ => if b.totalBytes < (Packet.bytes packet).length then none else some b.pop

def Sums (b : PacketBuffer α) : Prop := b.totalBytes = bytesOf b.queue

theorem makeRoomChecked_eq (size : Nat) (queue : List α) {b : PacketBuffer α}
    (sums : b.totalBytes = bytesOf queue) :
    makeRoomChecked size queue b = some (makeRoom size queue b) := by
  induction queue generalizing b with
  | nil => rfl
  | cons oldest rest ih =>
      rw [bytesOf] at sums
      rw [makeRoomChecked, makeRoom]
      split
      · rw [if_neg (by omega)]
        apply ih
        rw [sums, Nat.add_sub_cancel_left]
      · rfl

theorem Sums.pushChecked {b : PacketBuffer α} (sums : b.Sums) (packet : α) :
    b.pushChecked packet = some (b.push packet) := by
  rw [PacketBuffer.pushChecked, makeRoomChecked_eq _ _ sums]
  rfl

theorem Sums.popChecked {b : PacketBuffer α} (sums : b.Sums) : b.popChecked = some b.pop := by
  unfold Sums at sums
  unfold PacketBuffer.popChecked
  cases queue : b.queue with
  | nil => simp [pop, queue]
  | cons packet rest =>
      rw [queue, bytesOf] at sums
      exact if_neg (by omega)

theorem makeRoom_eq (size : Nat) (queue : List α) {b : PacketBuffer α}
    (sums : b.totalBytes = bytesOf queue) :
    ∃ degraded, makeRoom size queue b =
      { b with
        queue := dropOldest (tooFull b.capacityPackets b.maxBytes size) queue
        totalBytes := bytesOf (dropOldest (tooFull b.capacityPackets b.maxBytes size) queue)
        dropped := b.dropped +
          (oldestDropped (tooFull b.capacityPackets b.maxBytes size) queue).length
        degraded } := by
  induction queue generalizing b with
  | nil => exact ⟨b.degraded, by rw [makeRoom, dropOldest, ← sums]; rfl⟩
  | cons oldest rest ih =>
      have full : tooFull b.capacityPackets b.maxBytes size (oldest :: rest) = true ↔
          b.capacityPackets ≤ rest.length + 1 ∨ b.maxBytes < b.totalBytes + size := by
        rw [tooFull, decide_eq_true_iff, sums, List.length_cons, Nat.lt_succ_iff]
      rw [makeRoom, dropOldest, oldestDropped]
      by_cases is : tooFull b.capacityPackets b.maxBytes size (oldest :: rest) = true
      · rw [if_pos (full.mp is), if_pos is, if_pos is]
        rw [bytesOf] at sums
        let next : PacketBuffer α :=
          { b with
            totalBytes := b.totalBytes - (Packet.bytes oldest).length,
            dropped := b.dropped + 1, degraded := true }
        have less : next.totalBytes = bytesOf rest := by
          show b.totalBytes - (Packet.bytes oldest).length = bytesOf rest
          rw [sums, Nat.add_sub_cancel_left]
        obtain ⟨degraded, made⟩ := ih less
        refine ⟨degraded, made.trans ?_⟩
        rw [List.length_cons, Nat.add_comm _ 1, ← Nat.add_assoc]
      · rw [if_neg (mt full.mpr is), if_neg is, if_neg is]
        exact ⟨b.degraded, by rw [← sums]; rfl⟩

theorem Sums.push_eq {b : PacketBuffer α} (sums : b.Sums) (packet : α) : ∃ degraded, b.push packet =
    { b with
      queue := dropOldest
        (tooFull b.capacityPackets b.maxBytes (Packet.bytes packet).length) b.queue ++ [packet]
      totalBytes :=
        bytesOf (dropOldest
          (tooFull b.capacityPackets b.maxBytes (Packet.bytes packet).length) b.queue) +
        (Packet.bytes packet).length
      dropped := b.dropped +
        (oldestDropped
          (tooFull b.capacityPackets b.maxBytes (Packet.bytes packet).length) b.queue).length
      degraded } := by
  obtain ⟨degraded, made⟩ := makeRoom_eq (Packet.bytes packet).length b.queue sums
  refine ⟨degraded, ?_⟩
  dsimp only [push]
  rw [made]

theorem Sums.push {b : PacketBuffer α} (sums : b.Sums) (packet : α) : (b.push packet).Sums := by
  obtain ⟨degraded, pushed⟩ := sums.push_eq packet
  rw [pushed]
  exact (bytesOf_append _ [packet]).symm

structure PushSpec (b : PacketBuffer α) (packet : α) : Prop where
  bounded : (b.push packet).queue.length ≤ b.capacityPackets ∧
    bytesOf (b.push packet).queue ≤ b.maxBytes ∨
    (b.push packet).queue = [packet]
  drops : ∃ lost kept, b.queue = lost ++ kept ∧ (b.push packet).queue = kept ++ [packet] ∧
    (b.push packet).dropped = b.dropped + lost.length ∧
    ∀ i < lost.length, b.capacityPackets < (b.queue.drop i).length + 1 ∨
      b.maxBytes < bytesOf (b.queue.drop i) + (Packet.bytes packet).length

theorem Sums.pushSpec {b : PacketBuffer α} (sums : b.Sums) (packet : α) : PushSpec b packet := by
  obtain ⟨degraded, pushed⟩ := sums.push_eq packet
  let full := tooFull (α := α) b.capacityPackets b.maxBytes (Packet.bytes packet).length
  constructor
  · rw [pushed]
    rcases kept_not_full full b.queue with empty | fits
    · exact Or.inr (congrArg (· ++ [packet]) empty)
    · left
      rw [List.length_append, bytesOf_append]
      exact tooFull_eq_false.mp fits
  · refine ⟨oldestDropped full b.queue, dropOldest full b.queue,
      (dropped_append_kept full b.queue).symm, ?_, ?_, ?_⟩
    · rw [pushed]
    · rw [pushed]
    · intro i dropped
      exact of_decide_eq_true (full_of_dropped full b.queue dropped)

theorem Sums.pop {b b' : PacketBuffer α} {packet : α} (sums : b.Sums)
    (popped : b.pop = some (packet, b')) : b'.Sums := by
  unfold PacketBuffer.pop at popped
  unfold Sums at sums
  split at popped
  · cases popped
  · rename_i queue
    cases popped
    rw [queue, bytesOf] at sums
    show b.totalBytes - _ = _
    rw [sums, Nat.add_sub_cancel_left]

theorem pop_limits {b b' : PacketBuffer α} {packet : α} (popped : b.pop = some (packet, b')) :
    b'.capacityPackets = b.capacityPackets ∧ b'.maxBytes = b.maxBytes := by
  unfold PacketBuffer.pop at popped
  split at popped
  · cases popped
  · cases popped
    exact ⟨rfl, rfl⟩

end PacketBuffer

inductive BufferCall (α : Type)
  | push (packet : α)
  | pop

inductive Departure
  | popped
  | dropped
  deriving DecidableEq, Repr

structure BufferRun (α : Type) where
  buffer : PacketBuffer α
  pushed : List α := []
  left : List (Departure × α) := []

namespace BufferRun

/-- `Pop` returns the packet that leaves; `Push` drops as many from the front as it counts. -/
def step (r : BufferRun α) : BufferCall α → BufferRun α
  | .push packet =>
      let buffer := r.buffer.push packet
      let lost := r.buffer.queue.take (buffer.dropped - r.buffer.dropped)
      { buffer, pushed := r.pushed ++ [packet],
        left := r.left ++ lost.map fun oldest => (.dropped, oldest) }
  | .pop =>
      match r.buffer.pop with
      | none => r
      | some (packet, buffer) => { r with buffer, left := r.left ++ [(.popped, packet)] }

def run (capacityPackets maxBytes : Nat) (calls : List (BufferCall α)) : BufferRun α :=
  calls.foldl step { buffer := { capacityPackets, maxBytes } }

def popped (r : BufferRun α) : List α := (r.left.filter fun x => x.1 = .popped).map Prod.snd

/-- The packets that have left and those in the queue are the pushed packets, in order; those that
were not popped are counted as dropped. -/
structure Conserves (capacityPackets maxBytes : Nat) (r : BufferRun α) : Prop where
  capacity : r.buffer.capacityPackets = capacityPackets
  limit : r.buffer.maxBytes = maxBytes
  sums : r.buffer.Sums
  order : r.pushed = r.left.map Prod.snd ++ r.buffer.queue
  dropped : r.buffer.dropped = r.left.countP fun x => x.1 = .dropped

theorem Conserves.step {capacityPackets maxBytes : Nat} {r : BufferRun α}
    (conserves : Conserves capacityPackets maxBytes r) (call : BufferCall α) :
    Conserves capacityPackets maxBytes (r.step call) := by
  cases call with
  | push packet =>
      obtain ⟨degraded, pushed⟩ := conserves.sums.push_eq packet
      obtain ⟨lost, kept, split, queue, count, -⟩ := (conserves.sums.pushSpec packet).drops
      have taken : r.buffer.queue.take
          ((r.buffer.push packet).dropped - r.buffer.dropped) = lost := by
        rw [count, Nat.add_sub_cancel_left, split, List.take_left]
      unfold BufferRun.step
      dsimp only
      rw [taken]
      refine ⟨?_, ?_, conserves.sums.push packet, ?_, ?_⟩
      · rw [pushed]
        exact conserves.capacity
      · rw [pushed]
        exact conserves.limit
      · rw [conserves.order, queue, split]
        simp [Function.comp_def]
      · rw [count, conserves.dropped, List.countP_append, List.countP_map]
        simp [Function.comp_def]
  | pop =>
      unfold BufferRun.step
      dsimp only
      cases popped : r.buffer.pop with
      | none => exact conserves
      | some result =>
          obtain ⟨packet, buffer⟩ := result
          obtain ⟨queue, dropped⟩ := PacketBuffer.pop_some popped
          obtain ⟨capacity, limit⟩ := PacketBuffer.pop_limits popped
          refine ⟨capacity.trans conserves.capacity, limit.trans conserves.limit,
            conserves.sums.pop popped, ?_, ?_⟩
          · rw [conserves.order, queue]
            simp
          · rw [dropped, conserves.dropped]
            simp

theorem conserves_run (capacityPackets maxBytes : Nat) (calls : List (BufferCall α)) :
    Conserves capacityPackets maxBytes (run capacityPackets maxBytes calls) := by
  induction calls using List.reverseRecOn with
  | nil => exact ⟨rfl, rfl, rfl, rfl, rfl⟩
  | append_singleton calls call ih =>
      rw [run, List.foldl_append]
      exact ih.step call

theorem Conserves.popped_queue {capacityPackets maxBytes : Nat} {r : BufferRun α}
    (conserves : Conserves capacityPackets maxBytes r) :
    (r.popped ++ r.buffer.queue).Sublist r.pushed ∧
    r.pushed.length = (r.popped ++ r.buffer.queue).length + r.buffer.dropped := by
  constructor
  · rw [conserves.order]
    exact (List.filter_sublist.map Prod.snd).append (List.Sublist.refl _)
  · have parts :=
      List.length_eq_countP_add_countP
        (fun x : Departure × α => decide (x.1 = .popped)) (l := r.left)
    have others : (r.left.countP fun x => ¬ decide (x.1 = .popped) = true) =
        r.left.countP fun x => x.1 = .dropped := by
      refine List.countP_congr fun x _ => ?_
      cases x.1 <;> simp
    rw [conserves.order, conserves.dropped, ← others, popped, List.length_append,
      List.length_append, List.length_map, List.length_map, ← List.countP_eq_length_filter]
    omega

end BufferRun
end LocalPC.Runtime
