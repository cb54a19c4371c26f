import LocalPC.Lib.LittleEndian

namespace LocalPC.Lib

structure ReadFault where
  offset : Nat
  length : Nat
  size : Nat
  deriving DecidableEq, Repr

abbrev Reading (α : Type) := Except ReadFault α

def copy (buffer : Bytes) (offset length : Nat) : Reading Bytes :=
  if offset + length ≤ buffer.length then .ok ((buffer.drop offset).take length)
  else .error ⟨offset, length, buffer.length⟩

def InBounds {α : Type} (reading : Reading α) : Prop := ∃ value, reading = .ok value

theorem copy_ok {buffer : Bytes} {offset length : Nat} (fits : offset + length ≤ buffer.length) :
    copy buffer offset length = .ok ((buffer.drop offset).take length) := if_pos fits

theorem copy_inBounds_iff {buffer : Bytes} {offset length : Nat} :
    InBounds (copy buffer offset length) ↔ offset + length ≤ buffer.length := by
  rw [copy]
  split
  next fits => exact iff_of_true ⟨_, rfl⟩ fits
  next short => exact iff_of_false (by rintro ⟨value, ⟨⟩⟩) short

@[simp] theorem inBounds_ok {α : Type} (value : α) : InBounds (.ok value) := ⟨value, rfl⟩

@[simp] theorem inBounds_pure {α : Type} (value : α) : InBounds (pure value) := ⟨value, rfl⟩

@[simp] theorem not_inBounds_error {α : Type} (fault : ReadFault) :
    ¬ InBounds (.error fault : Reading α) := by
  rintro ⟨value, ⟨⟩⟩

theorem InBounds.bind {α β : Type} {first : Reading α}
    {next : α → Reading β} (head : InBounds first)
    (tail : ∀ value, first = .ok value → InBounds (next value)) : InBounds (first >>= next) := by
  obtain ⟨value, read⟩ := head
  obtain ⟨result, done⟩ := tail value read
  exact ⟨result, by rw [read]; exact done⟩

theorem inBounds_map_iff {α β : Type} {first : Reading α} {f : α → β} :
    InBounds (first >>= fun value => .ok (f value)) ↔ InBounds first := by
  cases first with
  | error fault => exact iff_of_false (not_inBounds_error fault) (not_inBounds_error fault)
  | ok value => exact iff_of_true (inBounds_ok (f value)) (inBounds_ok value)

/-- `if (size < sizeof(raw)) return; memcpy(&raw, buffer, sizeof(raw));`, and the rest. -/
def withRecord {α : Type} (recordSize : Nat) (buffer : Bytes) (size : Nat) (early : α)
    (rest : Bytes → Reading α) : Reading α :=
  if size < recordSize then .ok early
  else do
    let raw ← copy buffer 0 recordSize
    rest raw

theorem withRecord_eq {α : Type} {recordSize size : Nat} {buffer : Bytes} {early : α}
    {rest : Bytes → Reading α} (fits : size ≤ buffer.length) :
    withRecord recordSize buffer size early rest =
      if size < recordSize then .ok early else rest (buffer.take recordSize) := by
  rw [withRecord]
  split
  · rfl
  next large =>
    rw [copy_ok (by omega)]
    rfl

theorem withRecord_inBounds {α : Type} {recordSize size : Nat} {buffer : Bytes} {early : α}
    {rest : Bytes → Reading α} (fits : size ≤ buffer.length)
    (after : recordSize ≤ size → InBounds (rest (buffer.take recordSize))) :
    InBounds (withRecord recordSize buffer size early rest) := by
  rw [withRecord_eq fits]
  split
  · exact inBounds_ok early
  next large => exact after (not_lt.mp large)

end LocalPC.Lib
