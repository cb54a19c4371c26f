import LocalPC.Runtime.Sc589Unwrap

namespace LocalPC.Runtime
open Lib Protocol

namespace Sc589Unwrap

def framed (contents : Bytes) : Bytes := kSof ++ (leBytes 2 contents.length ++ contents)

def FrameLength (contents : Bytes) : Prop :=
  kMinWrappedLen ≤ contents.length ∧ 4 + contents.length ≤ 4096

def Intact (contents : Bytes) : Prop :=
  Protocol.crc32 (contents.take (contents.length - 4)) = u32At (contents.length - 4) contents

instance (contents : Bytes) : Decidable (FrameLength contents) :=
  inferInstanceAs (Decidable (_ ∧ _))

instance (contents : Bytes) : Decidable (Intact contents) := inferInstanceAs (Decidable (_ = _))

def wrapContents (kind : UInt8) (inner : Bytes) : Bytes :=
  (kind :: inner) ++ leBytes 4 (Protocol.crc32 (kind :: inner)).toNat

def wrap (kind : UInt8) (inner : Bytes) : Bytes := framed (wrapContents kind inner)

section
variable {u : Sc589Unwrap} {contents rest : Bytes}

theorem framed_length : (framed contents).length = 4 + contents.length := by
  simp [framed, kSof]
  omega

theorem framed_drop (size : Nat) :
    (framed contents ++ rest).drop (4 + size) = (contents ++ rest).drop size := by
  have head : (kSof ++ leBytes 2 contents.length).length = 4 := by simp [kSof]
  have apart : framed contents ++ rest =
      (kSof ++ leBytes 2 contents.length) ++ (contents ++ rest) := by
    simp only [framed, List.append_assoc]
  rw [apart, ← List.drop_drop, List.drop_left' head]

theorem field_framed (length : contents.length ≤ 4092) :
    (u16At 2 (framed contents ++ rest)).toNat = contents.length := by
  have apart : framed contents ++ rest =
      kSof ++ (leBytes 2 contents.length ++ (contents ++ rest)) := by
    simp only [framed, List.append_assoc]
  rw [u16At_toNat, apart, field_of_split (show kSof.length = 2 from rfl),
    Nat.mod_eq_of_lt (by omega)]

theorem tryConsumeWrappedFrame_framed (buffer : u.buffer = framed contents ++ rest)
    (fits : FrameLength contents) :
    u.tryConsumeWrappedFrame =
      if Intact contents then
        some ((u.dropFront (4 + contents.length) false).countFrame.emit
          ((contents.drop 1).take (contents.length - 1 - 4)))
      else some (u.countCrcOuter.countRejected.dropFront 1 true) := by
  obtain ⟨long, short⟩ := fits
  have min : kMinWrappedLen = 39 := rfl
  have announced : (u16At 2 u.buffer).toNat = contents.length := by
    rw [buffer]
    exact field_framed (by omega)
  have length : u.buffer.length = 4 + contents.length + rest.length := by
    rw [buffer, List.length_append, framed_length]
  have sof : startsWithSof u.buffer = true := by
    rw [buffer, framed, List.append_assoc]
    exact startsWithSof_iff.mpr (List.prefix_append _ _)
  have part (start size : Nat) (inside : start + size ≤ contents.length) :
      (u.buffer.drop (4 + start)).take size = (contents.drop start).take size := by
    rw [buffer, framed_drop, List.drop_append_of_le_length (by omega),
      List.take_append_of_le_length (by rw [List.length_drop]; omega)]
  have region := part 0 (1 + (contents.length - 1 - 4)) (by omega)
  have inner := part 1 (contents.length - 1 - 4) (by omega)
  have crc : u32At (4 + contents.length - 4) u.buffer = u32At (contents.length - 4) contents := by
    have last := part (contents.length - 4) 4 (by omega)
    rw [show 4 + (contents.length - 4) = 4 + contents.length - 4 by omega] at last
    exact congrArg (fun bytes => UInt32.ofNat (leNat bytes)) last
  unfold tryConsumeWrappedFrame
  rw [if_neg (not_or.mpr ⟨not_not.mpr sof, by omega⟩), announced]
  dsimp only
  rw [if_neg (by omega), if_neg (by omega), crc, region, inner, List.drop_zero,
    show 1 + (contents.length - 1 - 4) = contents.length - 4 by omega]
  by_cases intact : Intact contents
  · rw [if_pos intact]
    exact if_neg (not_not.mpr intact)
  · rw [if_neg intact]
    exact if_pos intact

theorem tryConsumeWrappedFrame_waits {more : Bytes}
    (cut : u.buffer ++ more = framed contents) (open_ : more ≠ []) (fits : FrameLength contents) :
    u.tryConsumeWrappedFrame = none := by
  obtain ⟨long, short⟩ := fits
  have behind : 0 < more.length := List.length_pos_iff.mpr open_
  have length : u.buffer.length + more.length = 4 + contents.length := by
    rw [← List.length_append, cut, framed_length]
  unfold tryConsumeWrappedFrame
  by_cases head : ¬ startsWithSof u.buffer = true ∨ u.buffer.length < 4
  · exact if_pos head
  · have four : 4 ≤ u.buffer.length := not_lt.mp (not_or.mp head).2
    have announced : (u16At 2 u.buffer).toNat = contents.length := by
      have whole := @field_framed contents [] (by omega)
      rw [List.append_nil, ← cut, u16At_toNat, field_append_left _ _ _ _ four] at whole
      rw [u16At_toNat]
      exact whole
    rw [if_neg head, announced]
    dsimp only
    rw [if_neg (by omega), if_pos (by omega)]

theorem wrapContents_length (kind : UInt8) (inner : Bytes) :
    (wrapContents kind inner).length = inner.length + 5 := by
  simp [wrapContents]

theorem intact_wrapContents (kind : UInt8) (inner : Bytes) : Intact (wrapContents kind inner) := by
  have front : (kind :: inner).length = (wrapContents kind inner).length - 4 := by
    rw [wrapContents_length, List.length_cons]
    omega
  have word := (Protocol.crc32 (kind :: inner)).toNat_lt
  rw [Intact, ← front, u32At, wrapContents, List.take_left]
  have last := @field_of_split (kind :: inner) _ rfl 4 (Protocol.crc32 (kind :: inner)).toNat []
  rw [List.append_nil, Nat.mod_eq_of_lt (by omega)] at last
  rw [last, UInt32.ofNat_toNat]

theorem length_of_validPacket {limit : UInt32} {inner : Bytes}
    (valid : validPacket limit inner = true) :
    kPacketHeaderSize ≤ inner.length := by
  by_contra short
  have thrown : deserializePacket inner = .error "header too small" := by
    rw [deserializePacket, deserializeHeader, if_pos (not_le.mp short)]
    rfl
  rw [validPacket, thrown] at valid
  cases valid

theorem tryConsumeWrappedFrame_wrap {kind : UInt8} {inner : Bytes}
    (buffer : u.buffer = wrap kind inner) (small : (wrap kind inner).length ≤ 4096)
    (valid : validPacket u.maxPayloadBytes inner = true) :
    ∃ stats, u.tryConsumeWrappedFrame =
      some { u with buffer := [], stats := stats, handled := u.handled ++ [inner] } := by
  have long := length_of_validPacket valid
  have length := wrapContents_length kind inner
  rw [kPacketHeaderSize] at long
  rw [wrap, framed_length] at small
  have fits : FrameLength (wrapContents kind inner) :=
    ⟨by rw [kMinWrappedLen, kPacketHeaderSize]; omega, small⟩
  have packet : ((wrapContents kind inner).drop 1).take
      ((wrapContents kind inner).length - 1 - 4) = inner := by
    rw [length, show inner.length + 5 - 1 - 4 = inner.length by omega]
    exact List.take_left
  have emptied : u.buffer.drop (4 + (wrapContents kind inner).length) = [] := by
    rw [buffer, wrap, ← framed_length, List.drop_length]
  rw [tryConsumeWrappedFrame_framed (buffer.trans (List.append_nil _).symm) fits,
    if_pos (intact_wrapContents kind inner), packet]
  refine ⟨{ u.stats with
    framesSeen := u.stats.framesSeen + 1, packetsEmitted := u.stats.packetsEmitted + 1 }, ?_⟩
  refine (congrArg some (if_pos valid)).trans ?_
  simp only [countFrame, dropFront, emptied]
  rfl

end

/-- What comes before a good frame: bytes of which none starts a marker or a magic, or a frame with
a wrong checksum that holds no such byte. -/
inductive Noise : Bytes → Prop where
  | garbage {bytes : Bytes} (clean : Clean bytes) : Noise bytes
  | badFrame {contents : Bytes} (fits : FrameLength contents) (broken : ¬ Intact contents)
      (clean : Clean contents) :
      Noise (framed contents)

section
variable {u : Sc589Unwrap} {bytes contents rest : Bytes}

theorem inert_tail_framed (fits : FrameLength contents) (clean : Clean contents) (rest : Bytes) :
    Inert (framed contents).tail rest := by
  have short := fits.2
  have high : (UInt8.ofNat (contents.length / 256 % 256)).toNat < 16 := by
    rw [UInt8.toNat_ofNat']
    omega
  have other {b : UInt8} (large : 16 ≤ b.toNat) : UInt8.ofNat
      (contents.length / 256 % 256) ≠ b := by
    rintro rfl
    omega
  refine ⟨⟨not_startsWithSof_cons (by decide) _, not_startsWithPacketMagic_cons (by decide) _⟩,
    ⟨?_, ?_⟩, ⟨not_startsWithSof_cons (other (by decide)) _,
      not_startsWithPacketMagic_cons (other (by decide)) _⟩,
    clean.inert rest⟩
  · intro sof
    obtain ⟨behind, same⟩ := startsWithSof_iff.mp sof
    exact other (by decide) (List.cons.inj (List.cons.inj same).2).1.symm
  · intro magic
    obtain ⟨behind, same⟩ := startsWithPacketMagic_iff.mp magic
    exact other (by decide) (List.cons.inj (List.cons.inj same).2).1.symm

theorem tryConsumeWrappedFrame_broken (buffer : u.buffer = framed contents ++ rest)
    (fits : FrameLength contents) (broken : ¬ Intact contents) :
    ∃ stats, u.tryConsumeWrappedFrame =
      some { u with buffer := (framed contents).tail ++ rest, stats := stats } := by
  rw [tryConsumeWrappedFrame_framed buffer fits, if_neg broken]
  have dropped : u.buffer.drop 1 = (framed contents).tail ++ rest := by
    rw [buffer]
    rfl
  refine ⟨(u.countCrcOuter.countRejected.dropFront 1 true).stats, ?_⟩
  rw [← dropped]
  rfl

theorem consume_noise (auto : u.policy = .kAuto) (noise : Noise bytes)
    (buffer : u.buffer = bytes ++ rest) :
    ∃ stats, u.consume = { u with buffer := rest, stats := stats }.consume := by
  cases noise with
  | garbage clean => exact consume_inert auto (clean.inert rest) buffer
  | badFrame fits broken clean =>
      obtain ⟨counted, turn⟩ := tryConsumeWrappedFrame_broken buffer fits broken
      have sof : startsWithSof u.buffer = true := by
        rw [buffer, framed, List.append_assoc]
        exact startsWithSof_iff.mpr (List.prefix_append _ _)
      obtain ⟨stats, same⟩ := @consume_inert
        { u with buffer := (framed _).tail ++ rest, stats := counted } _ rest auto
          (inert_tail_framed fits clean rest) rfl
      exact ⟨stats,
        (BufferedLoop.consume_of_some ((consumeStep_sof auto sof).trans turn)).trans same⟩

structure Idle (limit : UInt32) (fed more rest : Bytes) (u : Sc589Unwrap) : Prop where
  policy : u.policy = .kAuto
  maxPayloadBytes : u.maxPayloadBytes = limit
  handled : u.handled = []
  buffer : (u.buffer = [] ∧ Inert more rest) ∨ u.buffer = fed

theorem consume_part {part more : Bytes} (auto : u.policy = .kAuto) (noise : Noise (part ++ more))
    (buffer : u.buffer = part) :
    (Inert more rest ∧ ∃ stats, u.consume = { u with buffer := [], stats := stats }) ∨
      u.consume = u := by
  have emptied {inert : Bytes} (stays : Inert inert []) (here : u.buffer = inert) :
      ∃ stats, u.consume = { u with buffer := [], stats := stats } := by
    obtain ⟨stats, same⟩ := consume_inert auto stays (here.trans (List.append_nil _).symm)
    exact ⟨stats, same.trans (consume_empty auto rfl)⟩
  generalize whole : part ++ more = bytes at noise
  cases noise with
  | garbage clean =>
      have inert := clean.inert rest
      rw [← whole] at inert
      exact .inl ⟨inert.split.2, emptied inert.split.1 buffer⟩
  | @badFrame contents fits broken clean =>
      have tail := inert_tail_framed fits clean rest
      match part, more with
      | [], more => exact .inr (consume_empty auto buffer)
      | [b], more =>
          rw [← whole] at tail
          left
          refine ⟨tail, @emptied [b] ⟨⟨fun sof => ?_, fun magic => ?_⟩, trivial⟩ buffer⟩
          · have := (startsWithSof_iff.mp sof).length_le
            simp [kSof] at this
          · have := (startsWithPacketMagic_iff.mp magic).length_le
            simp [magicBytes] at this
      | b :: c :: part, [] =>
          rw [List.append_nil] at whole
          obtain ⟨stats, same⟩ :=
            consume_noise auto (.badFrame fits broken clean)
              (buffer.trans (whole.trans (List.append_nil _).symm))
          exact .inl ⟨trivial, stats, same.trans (consume_empty auto rfl)⟩
      | b :: c :: part, d :: more =>
          have sof : startsWithSof u.buffer = true := by
            have first := (List.cons.inj whole).1
            have second := (List.cons.inj (List.cons.inj whole).2).1
            rw [buffer, first, second]
            exact startsWithSof_iff.mpr (List.prefix_append kSof part)
          have waits := tryConsumeWrappedFrame_waits (buffer ▸ whole) (List.cons_ne_nil d more) fits
          exact .inr (BufferedLoop.consume_of_none ((consumeStep_sof auto sof).trans waits))

theorem Idle.feed {limit : UInt32} {fed piece more : Bytes}
    (idle : Idle limit fed (piece ++ more) rest u) (noise : Noise (fed ++ (piece ++ more))) :
    Idle limit (fed ++ piece) more rest (u.feed piece) := by
  obtain ⟨auto, limited, handled, ⟨empty, inert⟩ | waiting⟩ := idle
  · have arrived : (u.insert piece).buffer = piece ++ [] := by
      rw [insert, empty, List.nil_append, List.append_nil]
    obtain ⟨stats, same⟩ := @consume_inert (u.insert piece) piece [] auto inert.split.1 arrived
    have settled : u.feed piece = { u.insert piece with buffer := [], stats := stats } :=
      same.trans (consume_empty auto rfl)
    rw [settled]
    exact ⟨auto, limited, handled, .inl ⟨rfl, inert.split.2⟩⟩
  · have arrived : (u.insert piece).buffer = fed ++ piece := congrArg (· ++ piece) waiting
    rw [← List.append_assoc] at noise
    obtain ⟨inert, stats, dropped⟩ | kept :=
      @consume_part (u.insert piece) rest _ more auto noise arrived
    · rw [Sc589Unwrap.feed, dropped]
      exact ⟨auto, limited, handled, .inl ⟨rfl, inert⟩⟩
    · rw [Sc589Unwrap.feed, kept]
      exact ⟨auto, limited, handled, .inr arrived⟩

theorem Idle.feedAll {limit : UInt32} {fed more : Bytes} {pieces : List Bytes}
    (idle : Idle limit fed (pieces.flatten ++ more) rest u)
    (noise : Noise (fed ++ (pieces.flatten ++ more))) :
    Idle limit (fed ++ pieces.flatten) more rest (u.feedAll pieces) := by
  induction pieces generalizing u fed with
  | nil =>
      rw [List.flatten_nil, List.append_nil]
      exact idle
  | cons piece pieces ih =>
      rw [List.flatten_cons, List.append_assoc] at idle noise
      have later := ih (idle.feed noise) (by rwa [List.append_assoc])
      rw [List.append_assoc] at later
      exact later

def Stuck (buffer : Bytes) : Prop := ∃ b behind, buffer = b :: behind ∧ b ≠ 0xA5

theorem Stuck.append (stuck : Stuck bytes) (more : Bytes) : Stuck (bytes ++ more) := by
  obtain ⟨b, behind, rfl, other⟩ := stuck
  exact ⟨b, behind ++ more, rfl, other⟩

theorem consumeStep_on_none (on : u.policy = .kOn) (noSof : ¬ startsWithSof u.buffer = true) :
    u.consumeStep = none := by
  rw [consumeStep_on on, tryConsumeWrappedFrame]
  exact if_pos (.inl noSof)

theorem consume_stuck (on : u.policy = .kOn) (stuck : Stuck u.buffer) : u.consume = u := by
  obtain ⟨b, behind, buffer, other⟩ := stuck
  have noSof : ¬ startsWithSof u.buffer = true := buffer ▸ not_startsWithSof_cons other behind
  exact BufferedLoop.consume_of_none (consumeStep_on_none on noSof)

theorem consume_noise_on (on : u.policy = .kOn) (noise : Noise bytes) (some_ : bytes ≠ [])
    (buffer : u.buffer = bytes ++ rest) :
    u.consume.handled = u.handled ∧ Stuck u.consume.buffer := by
  cases noise with
  | garbage clean =>
      obtain ⟨b, behind, rfl⟩ := List.exists_cons_of_ne_nil some_
      have stuck : Stuck u.buffer := ⟨b, behind ++ rest, buffer, (clean b List.mem_cons_self).1⟩
      rw [consume_stuck on stuck]
      exact ⟨rfl, stuck⟩
  | @badFrame contents fits broken clean =>
      obtain ⟨stats, turn⟩ := tryConsumeWrappedFrame_broken buffer fits broken
      have stuck : Stuck ((framed contents).tail ++ rest) :=
        ⟨0x5A, leBytes 2 contents.length ++ contents ++ rest, rfl, by decide⟩
      have rejected : u.consume =
          { u with buffer := (framed contents).tail ++ rest, stats := stats } :=
        (BufferedLoop.consume_of_some ((consumeStep_on on).trans turn)).trans
          (@consume_stuck { u with
            buffer := (framed contents).tail ++ rest, stats := stats } on stuck)
      rw [rejected]
      exact ⟨rfl, stuck⟩

structure Held (limit : UInt32) (fed : Bytes) (u : Sc589Unwrap) : Prop where
  policy : u.policy = .kOn
  maxPayloadBytes : u.maxPayloadBytes = limit
  handled : u.handled = []
  buffer : (Stuck u.buffer ∧ fed ≠ []) ∨ u.buffer = fed

theorem feed_settings (u : Sc589Unwrap) (chunk : Bytes) :
    (u.feed chunk).policy = u.policy ∧ (u.feed chunk).maxPayloadBytes = u.maxPayloadBytes :=
  @BufferedLoop.consume_invariant _ _ loop (u.insert chunk)
    (fun t => t.policy = u.policy ∧ t.maxPayloadBytes = u.maxPayloadBytes)
    (fun _ _ turn same => ⟨(consumeStep_takes turn).policy.trans same.1,
      (consumeStep_takes turn).maxPayloadBytes.trans same.2⟩) ⟨rfl, rfl⟩

theorem Held.feed_noise {limit : UInt32} {fed piece behind : Bytes}
    (held : Held limit fed u) (noise : Noise bytes) (some_ : bytes ≠ [])
    (whole : fed ++ piece = bytes ++ behind) :
    (u.feed piece).handled = [] ∧ Stuck (u.feed piece).buffer := by
  obtain ⟨on, -, handled, ⟨stuck, -⟩ | waiting⟩ := held
  · have longer : Stuck (u.insert piece).buffer := stuck.append piece
    rw [feed, @consume_stuck (u.insert piece) on longer]
    exact ⟨handled, longer⟩
  · have arrived : (u.insert piece).buffer = bytes ++ behind :=
      (congrArg (· ++ piece) waiting).trans whole
    obtain ⟨same, stuck⟩ := @consume_noise_on (u.insert piece) bytes behind on noise some_ arrived
    exact ⟨same.trans handled, stuck⟩

theorem Held.feed {limit : UInt32} {fed piece more : Bytes} (held : Held limit fed u)
    (noise : Noise (fed ++ (piece ++ more))) : Held limit (fed ++ piece) (u.feed piece) := by
  have settings := feed_settings u piece
  suffices left : (u.feed piece).handled = [] ∧
      ((Stuck (u.feed piece).buffer ∧ fed ++ piece ≠ []) ∨ (u.feed piece).buffer = fed ++ piece)
        from
    ⟨settings.1.trans held.policy, settings.2.trans held.maxPayloadBytes, left.1, left.2⟩
  by_cases none : fed ++ piece = []
  · obtain ⟨rfl, rfl⟩ := List.append_eq_nil_iff.mp none
    obtain ⟨on, -, handled, ⟨-, absurd_⟩ | empty⟩ := held
    · exact absurd rfl absurd_
    · have arrived : (u.insert []).buffer = [] := congrArg (· ++ []) empty
      have waits : (u.insert []).consumeStep = Option.none :=
        consumeStep_on_none on (by rw [arrived]; exact Bool.false_ne_true)
      have kept : u.feed [] = u.insert [] := BufferedLoop.consume_of_none waits
      rw [kept]
      exact ⟨handled, .inr arrived⟩
  rw [← List.append_assoc] at noise
  generalize whole : fed ++ piece ++ more = bytes at noise
  cases noise with
  | garbage clean =>
      have front : Clean (fed ++ piece) :=
        fun b mem => clean b (whole ▸ List.mem_append_left more mem)
      obtain ⟨same, stuck⟩ := held.feed_noise (.garbage front) none (List.append_nil _).symm
      exact ⟨same, .inl ⟨stuck, none⟩⟩
  | badFrame fits broken clean =>
      cases more with
      | nil =>
          rw [List.append_nil] at whole
          obtain ⟨same, stuck⟩ :=
            held.feed_noise (.badFrame fits broken clean) (whole ▸ none)
              (whole.trans (List.append_nil _).symm)
          exact ⟨same, .inl ⟨stuck, none⟩⟩
      | cons b more =>
          obtain ⟨on, -, handled, ⟨stuck, -⟩ | waiting⟩ := held
          · have longer : Stuck (u.insert piece).buffer := stuck.append piece
            rw [Sc589Unwrap.feed, @consume_stuck (u.insert piece) on longer]
            exact ⟨handled, .inl ⟨longer, none⟩⟩
          · have arrived : (u.insert piece).buffer = fed ++ piece := congrArg (· ++ piece) waiting
            have waits :=
              tryConsumeWrappedFrame_waits (arrived ▸ whole) (List.cons_ne_nil b more) fits
            have kept : u.feed piece = u.insert piece :=
              BufferedLoop.consume_of_none ((@consumeStep_on (u.insert piece) on).trans waits)
            rw [kept]
            exact ⟨handled, .inr arrived⟩

theorem Held.feedAll {limit : UInt32} {fed more : Bytes} {pieces : List Bytes}
    (held : Held limit fed u) (noise : Noise (fed ++ (pieces.flatten ++ more))) :
    Held limit (fed ++ pieces.flatten) (u.feedAll pieces) := by
  induction pieces generalizing u fed with
  | nil =>
      rw [List.flatten_nil, List.append_nil]
      exact held
  | cons piece pieces ih =>
      rw [List.flatten_cons, List.append_assoc] at noise
      have later := ih (held.feed noise) (by rwa [List.append_assoc])
      rw [List.append_assoc] at later
      exact later

variable {limit : UInt32} {kind : UInt8} {inner more : Bytes} {pieces : List Bytes}

theorem feedAll_concat (u : Sc589Unwrap) (pieces : List Bytes) (last : Bytes) :
    u.feedAll (pieces ++ [last]) = (u.feedAll pieces).feed last := List.foldl_concat ..

theorem consume_wrap (auto : u.policy ≠ .kOff) (buffer : u.buffer = wrap kind inner)
    (small : (wrap kind inner).length ≤ 4096) (valid : validPacket u.maxPayloadBytes inner = true) :
    u.consume.handled = u.handled ++ [inner] := by
  obtain ⟨stats, turn⟩ := tryConsumeWrappedFrame_wrap buffer small valid
  have sof : startsWithSof u.buffer = true := by
    rw [buffer]
    exact startsWithSof_iff.mpr (List.prefix_append _ _)
  let next : Sc589Unwrap := { u with buffer := [], stats := stats, handled := u.handled ++ [inner] }
  cases policy : u.policy with
  | kOff => exact absurd policy auto
  | kOn =>
      have taken : u.consume = next.consume :=
        BufferedLoop.consume_of_some ((consumeStep_on policy).trans turn)
      have stopped : next.consume = next :=
        BufferedLoop.consume_of_none (@consumeStep_on_none next policy Bool.false_ne_true)
      exact congrArg Sc589Unwrap.handled (taken.trans stopped)
  | kAuto =>
      have taken : u.consume = next.consume :=
        BufferedLoop.consume_of_some ((consumeStep_sof policy sof).trans turn)
      exact congrArg Sc589Unwrap.handled (taken.trans (@consume_empty next policy rfl))

theorem handled_auto (noise : Noise (pieces.flatten ++ more))
    (small : (wrap kind inner).length ≤ 4096) (valid : validPacket limit inner = true) :
    ((start .kAuto limit).feedAll (pieces ++ [more ++ wrap kind inner])).handled = [inner] := by
  have fresh : Idle limit [] (pieces.flatten ++ more) (wrap kind inner) (start .kAuto limit) :=
    ⟨rfl, rfl, rfl, .inr rfl⟩
  obtain ⟨auto, limited, handled, buffered⟩ := fresh.feedAll noise
  rw [feedAll_concat]
  set u := (start .kAuto limit).feedAll pieces with before
  have dropped : ∃ stats, u.feed (more ++ wrap kind inner) =
      { u with buffer := wrap kind inner, stats := stats }.consume := by
    rcases buffered with ⟨empty, inert⟩ | waiting
    · have arrived : (u.insert (more ++ wrap kind inner)).buffer = more ++ wrap kind inner :=
        congrArg (· ++ (more ++ wrap kind inner)) empty
      exact @consume_inert (u.insert (more ++ wrap kind inner)) _ _ auto inert arrived
    · have arrived : (u.insert (more ++ wrap kind inner)).buffer =
          (pieces.flatten ++ more) ++ wrap kind inner := by
        rw [insert, waiting, List.nil_append, List.append_assoc]
      exact @consume_noise (u.insert (more ++ wrap kind inner)) _ _ auto noise arrived
  obtain ⟨stats, same⟩ := dropped
  have taken := @consume_wrap { u with buffer := wrap kind inner, stats := stats } kind inner
    (show u.policy ≠ .kOff by rw [auto]; decide) rfl small (limited.symm ▸ valid)
  rw [same, taken, handled]
  rfl

theorem handled_on (noise : Noise (pieces.flatten ++ more)) (some_ : pieces.flatten ++ more ≠ []) :
    ((start .kOn limit).feedAll (pieces ++ [more ++ wrap kind inner])).handled = [] := by
  have fresh : Held limit [] (start .kOn limit) := ⟨rfl, rfl, rfl, .inr rfl⟩
  have held := fresh.feedAll noise
  rw [List.nil_append] at held
  rw [feedAll_concat]
  exact (held.feed_noise noise some_ (List.append_assoc ..).symm).1

theorem handled_on_empty (empty : pieces.flatten ++ more = [])
    (small : (wrap kind inner).length ≤ 4096) (valid : validPacket limit inner = true) :
    ((start .kOn limit).feedAll (pieces ++ [more ++ wrap kind inner])).handled = [inner] := by
  have fresh : Held limit [] (start .kOn limit) := ⟨rfl, rfl, rfl, .inr rfl⟩
  have noise : Noise ([] ++ (pieces.flatten ++ more)) := by
    rw [empty]
    exact .garbage fun b mem => absurd mem List.not_mem_nil
  obtain ⟨on, limited, handled, buffered⟩ := fresh.feedAll noise
  obtain ⟨nothing, rfl⟩ := List.append_eq_nil_iff.mp empty
  rw [nothing] at buffered
  rw [feedAll_concat, List.nil_append]
  set u := (start .kOn limit).feedAll pieces with before
  have waiting : u.buffer = [] := buffered.resolve_left fun held => held.2 rfl
  have arrived : (u.insert (wrap kind inner)).buffer = wrap kind inner :=
    congrArg (· ++ wrap kind inner) waiting
  have taken := @consume_wrap (u.insert (wrap kind inner)) kind inner
    (show u.policy ≠ .kOff by rw [on]; decide) arrived small (limited.symm ▸ valid)
  rw [feed, taken]
  exact congrArg (· ++ [inner]) handled

/-- Noise is fed in any pieces, and the rest of it with a good frame behind it: the packet is handed
over exactly when the policy is `kAuto` or there was no noise. -/
theorem recovers_iff {policy : UnwrapPolicy}
    (unwraps : policy ≠ .kOff) (noise : Noise (pieces.flatten ++ more))
    (small : (wrap kind inner).length ≤ 4096) (valid : validPacket limit inner = true) :
    inner ∈ ((start policy limit).feedAll (pieces ++ [more ++ wrap kind inner])).handled ↔
      policy = .kAuto ∨ pieces.flatten ++ more = [] := by
  cases policy with
  | kOff => exact absurd rfl unwraps
  | kAuto =>
      rw [handled_auto noise small valid]
      exact iff_of_true List.mem_cons_self (.inl rfl)
  | kOn =>
      by_cases empty : pieces.flatten ++ more = []
      · rw [handled_on_empty empty small valid]
        exact iff_of_true List.mem_cons_self (.inr empty)
      · rw [handled_on noise empty]
        refine iff_of_false List.not_mem_nil ?_
        rintro (⟨⟨⟩⟩ | none)
        exact empty none

end

section
set_option maxRecDepth 4000

theorem garbageByte_recovers_iff :
    barePacket ∈ ((start .kOn 8192).feedAll [[0x00] ++ wrap 0 barePacket]).handled ↔
      UnwrapPolicy.kOn = .kAuto ∨ [0x00] = ([] : Bytes) :=
  @recovers_iff 8192 0 barePacket [0x00] [] .kOn (by decide)
    (.garbage (by decide)) (by decide) (by decide)

theorem garbageByte_lost :
    barePacket ∉ ((start .kOn 8192).feedAll [[0x00], wrap 0 barePacket]).handled := by
  have noise : Noise ([[0x00]].flatten ++ []) := .garbage (by decide)
  have lost := @handled_on 8192 0 barePacket [] [[0x00]] noise (by decide)
  rw [show ([[0x00], wrap 0 barePacket] : List Bytes) =
    [[0x00]] ++ [[] ++ wrap 0 barePacket] from rfl, lost]
  exact List.not_mem_nil

end

end Sc589Unwrap

end LocalPC.Runtime
