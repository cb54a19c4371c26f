import Mathlib.Data.List.AList

/-!
# Diagnostics

`diagnostics.hpp`. Fewer than `2 ^ 64` events are counted; the number of lost packets comes from the
sequence numbers of the sender and wraps.
-/

namespace LocalPC.Runtime

structure DiagnosticsCollector where
  packetsReceived : Nat := 0
  packetsWritten : Nat := 0
  badPackets : Nat := 0
  seqGaps : Nat := 0
  packetsLost : UInt64 := 0
  outOfOrder : Nat := 0
  timeGaps : Nat := 0
  bufferDropped : Nat := 0
  bytesWritten : Nat := 0
  health : String := "ok"
  rejectByReason : AList (fun _ : String => Nat) := ∅

namespace DiagnosticsCollector

def onPacketReceived (d : DiagnosticsCollector) : DiagnosticsCollector :=
  { d with packetsReceived := d.packetsReceived + 1 }

def onPacketWritten (bytes : Nat) (d : DiagnosticsCollector) : DiagnosticsCollector :=
  { d with packetsWritten := d.packetsWritten + 1, bytesWritten := d.bytesWritten + bytes }

def onBadPacket (reason : String) (d : DiagnosticsCollector) : DiagnosticsCollector :=
  let reason := if reason = "" then "unknown" else reason
  { d with
    badPackets := d.badPackets + 1
    rejectByReason := d.rejectByReason.insert reason ((d.rejectByReason.lookup reason).getD 0 + 1) }

def onTimeGap (d : DiagnosticsCollector) : DiagnosticsCollector :=
  { d with timeGaps := d.timeGaps + 1 }

def onSeqGap (lost : UInt64) (d : DiagnosticsCollector) : DiagnosticsCollector :=
  { d with seqGaps := d.seqGaps + 1, packetsLost := d.packetsLost + lost }

def onOutOfOrder (d : DiagnosticsCollector) : DiagnosticsCollector :=
  { d with outOfOrder := d.outOfOrder + 1 }

def setBufferDropped (dropped : Nat) (d : DiagnosticsCollector) : DiagnosticsCollector :=
  { d with bufferDropped := dropped }

def setHealth (health : String) (d : DiagnosticsCollector) :
    DiagnosticsCollector := { d with health }

structure SameCounts (d d' : DiagnosticsCollector) : Prop where
  written : d'.packetsWritten = d.packetsWritten
  bad : d'.badPackets = d.badPackets
  lost : d'.packetsLost = d.packetsLost

end DiagnosticsCollector
end LocalPC.Runtime
