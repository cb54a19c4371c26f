import LocalPC.Runtime.ContractFrameIo

/-!
# The packet buffer

`packet_buffer.hpp`: a bounded queue that drops its oldest packets to make room for a new one. The
sizes of the packets in memory add up to less than `2 ^ 64`. The service pushes the bytes of checked
frames, so the queue may also hold these.
-/

namespace LocalPC.Runtime
open Lib Contract

structure BufferedPacket where
  bytes : Bytes
  deriving DecidableEq, Repr

class Packet (α : Type) where
  bytes : α → Bytes

instance : Packet BufferedPacket := ⟨BufferedPacket.bytes⟩

instance {m : UInt32} : Packet (ContractFrame m) := ⟨ContractFrame.bytes⟩

structure PacketBuffer (α : Type) where
  capacityPackets : Nat
  maxBytes : Nat
  queue : List α := []
  totalBytes : Nat := 0
  dropped : Nat := 0
  degraded : Bool := false

namespace PacketBuffer
variable {α : Type} [Packet α]

/-- The loop of `Push` over the packets in the queue, for a new packet of `size` bytes. -/
def makeRoom (size : Nat) : List α → PacketBuffer α → PacketBuffer α
  | [], b => { b with queue := [] }
  | oldest :: rest, b =>
      if b.capacityPackets ≤ rest.length + 1 ∨ b.maxBytes < b.totalBytes + size then
        makeRoom size rest
          { b with
            totalBytes := b.totalBytes - (Packet.bytes oldest).length
            dropped := b.dropped + 1
            degraded := true }
      else { b with queue := oldest :: rest }

def push (packet : α) (b : PacketBuffer α) : PacketBuffer α :=
  let b := makeRoom (Packet.bytes packet).length b.queue b
  { b with totalBytes := b.totalBytes + (Packet.bytes packet).length, queue := b.queue ++ [packet] }

def pop (b : PacketBuffer α) : Option (α × PacketBuffer α) :=
  match b.queue with
  | [] => none
  | packet :: rest =>
      some (packet,
        { b with queue := rest, totalBytes := b.totalBytes - (Packet.bytes packet).length })

def size (b : PacketBuffer α) : Nat := b.queue.length

theorem makeRoom_drops (size : Nat) (queue : List α) (b : PacketBuffer α) :
    ∃ lost, queue = lost ++ (makeRoom size queue b).queue ∧
      (makeRoom size queue b).dropped = b.dropped + lost.length := by
  induction queue generalizing b with
  | nil => exact ⟨[], rfl, rfl⟩
  | cons oldest rest ih =>
      rw [makeRoom]
      split
      · obtain ⟨lost, split, count⟩ := ih { b with
          totalBytes := b.totalBytes - (Packet.bytes oldest).length
          dropped := b.dropped + 1
          degraded := true }
        refine ⟨oldest :: lost, by rw [List.cons_append, ← split], ?_⟩
        rw [count]
        show b.dropped + 1 + lost.length = b.dropped + (lost.length + 1)
        omega
      · exact ⟨[], rfl, rfl⟩

theorem push_drops (packet : α) (b : PacketBuffer α) :
    ∃ lost, b.queue ++ [packet] = lost ++ (b.push packet).queue ∧
      (b.push packet).dropped = b.dropped + lost.length := by
  obtain ⟨lost, split, count⟩ := makeRoom_drops (Packet.bytes packet).length b.queue b
  refine ⟨lost, ?_, count⟩
  rw [push, ← List.append_assoc, ← split]

theorem pop_none {b : PacketBuffer α} (empty : b.pop = none) : b.queue = [] := by
  unfold pop at empty
  split at empty
  · assumption
  · cases empty

theorem pop_some {b b' : PacketBuffer α} {packet : α} (popped : b.pop = some (packet, b')) :
    b.queue = packet :: b'.queue ∧ b'.dropped = b.dropped := by
  unfold pop at popped
  split at popped
  · cases popped
  · rename_i queue
    cases popped
    exact ⟨queue, rfl⟩

theorem length_push_le (packet : α) (b : PacketBuffer α) :
    (b.push packet).queue.length ≤ b.queue.length + 1 := by
  obtain ⟨lost, split, -⟩ := b.push_drops packet
  have lengths := congrArg List.length split
  rw [List.length_append, List.length_append, List.length_singleton] at lengths
  omega

end PacketBuffer
end LocalPC.Runtime
