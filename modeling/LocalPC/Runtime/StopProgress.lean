import LocalPC.Runtime.DaemonInvariant

namespace LocalPC.Runtime
open Lib Contract

def WriterPc.stepsLeft {m : UInt32} : WriterPc m → Nat
  | .exited => 0
  | .top => 1
  | .holding _ => 2
  | .polled _ => 3
  | .looping => 4

/-- The steps that a stop has left, with `frames` still to drain, `steps` of the writer thread, and
no more than `most` frames to come before recording ends. -/
def StopPhase.stepsLeft {m : UInt32} (most frames steps : Nat) : StopPhase m → Nat
  | .entered => 914 + 2 * most
  | .waiting i => 413 + (500 - i) + 2 * frames
  | .joining => 408 + 2 * frames + steps
  | .writing attempt _ => 8 + 2 * (200 - attempt) + 2 * frames
  | .popping attempt _ => 7 + 2 * (200 - attempt) + 2 * frames
  | .popped attempt _ => 6 + 2 * (200 - attempt) + 2 * frames
  | .closing => 5
  | .closed => 4
  | .marked => 3
  | .summarized .. => 2
  | .released .. => 1

namespace PacketBuffer
variable {α : Type} [Packet α]

theorem makeRoom_limits (size : Nat) (queue : List α) (b : PacketBuffer α) :
    (makeRoom size queue b).capacityPackets = b.capacityPackets ∧
      ((makeRoom size queue b).queue = [] ∨
        (makeRoom size queue b).queue.length < b.capacityPackets) := by
  induction queue generalizing b with
  | nil => exact ⟨rfl, .inl rfl⟩
  | cons oldest rest ih =>
      rw [makeRoom]
      split
      · exact ih _
      · rename_i fits
        refine ⟨rfl, .inr ?_⟩
        show rest.length + 1 < b.capacityPackets
        omega

theorem push_limits (packet : α) (b : PacketBuffer α) :
    (b.push packet).capacityPackets = b.capacityPackets ∧
    (b.push packet).queue.length ≤ max 1 b.capacityPackets := by
  obtain ⟨same, few⟩ := makeRoom_limits (Packet.bytes packet).length b.queue b
  refine ⟨same, ?_⟩
  rw [push, List.length_append, List.length_singleton]
  rcases few with none | few
  · rw [none]
    exact Nat.le_max_left _ _
  · exact (Nat.succ_le_of_lt few).trans (Nat.le_max_right _ _)

theorem pop_capacity {b b' : PacketBuffer α} {packet : α} (popped : b.pop = some (packet, b')) :
    b'.capacityPackets = b.capacityPackets := by
  unfold pop at popped
  split at popped
  · cases popped
  · cases popped
    rfl

end PacketBuffer

namespace Daemon
variable {config : RuntimeConfig} {s s' : Daemon config}

def toDrain (s : Daemon config) : Nat := s.queued + s.rx.pending.length

def mostFrames (config : RuntimeConfig) : Nat := max 1 config.packetBufferCapacity + 1

def stepsLeft (s : Daemon config) : Nat :=
  (s.stop.map fun call =>
    call.phase.stepsLeft (mostFrames config) s.toDrain s.writerThread.stepsLeft).getD 0

/-- A step of the stop, or of the writer thread that it waits for. -/
def drives (s : Daemon config) (e : Event) : Bool :=
  match e, s.stop with
  | .stopStep _, some _ => true
  | .writer _, some call =>
      match call.phase with
      | .joining => true
      | _ => false
  | _, _ => false

structure Bounded (s : Daemon config) : Prop where
  buffer : ∀ b, s.service.buffer = some b → b.capacityPackets = config.packetBufferCapacity ∧
    b.queue.length ≤ max 1 config.packetBufferCapacity
  told : ∀ call, s.stop = some call → call.phase = .joining → s.service.stopThreads = true

theorem queued_le (bounded : Bounded s) : s.queued ≤ max 1 config.packetBufferCapacity := by
  unfold queued
  cases queue : s.service.buffer with
  | none => exact Nat.zero_le _
  | some b => exact (bounded.buffer b queue).2

theorem toDrain_le (bounded : Bounded s) : s.toDrain ≤ mostFrames config := by
  have pending : s.rx.pending.length ≤ 1 := by cases s.rx <;> simp [RxPc.pending]
  exact Nat.add_le_add (queued_le bounded) pending

theorem queued_eq {b : PacketBuffer (ContractFrame config.maxPayloadBytes)}
    (queue : s.service.buffer = some b) :
    s.queued = b.queue.length := by
  simp [queued, queue, PacketBuffer.size]

theorem queued_pop {frame : ContractFrame config.maxPayloadBytes}
    {rest : PacketBuffer (ContractFrame config.maxPayloadBytes)}
    (popped : s.service.buffer.bind PacketBuffer.pop = some (frame, rest)) :
    s.queued = rest.queue.length + 1 := by
  obtain ⟨buffer, queue, popped⟩ := Option.bind_eq_some_iff.mp popped
  rw [queued_eq queue, (PacketBuffer.pop_some popped).1, List.length_cons]

namespace Bounded

theorem init : Bounded ({} : Daemon config) where
  buffer _ none := by cases none
  told _ none := by cases none

theorem transfer (bounded : Bounded s) (buffer : s'.service.buffer = s.service.buffer)
    (stop : s'.stop = s.stop) (stopThreads : s'.service.stopThreads = s.service.stopThreads) :
    Bounded s' where
  buffer := by
    rw [buffer]
    exact bounded.buffer
  told := by
    rw [stop, stopThreads]
    exact bounded.told

theorem pop (bounded : Bounded s) {frame : ContractFrame config.maxPayloadBytes}
    {rest : PacketBuffer (ContractFrame config.maxPayloadBytes)}
    (popped : s.service.buffer.bind PacketBuffer.pop = some (frame, rest)) :
    rest.capacityPackets = config.packetBufferCapacity ∧
      rest.queue.length ≤ max 1 config.packetBufferCapacity := by
  have fewer := queued_pop popped
  have most := queued_le bounded
  obtain ⟨b, queue, popped⟩ := Option.bind_eq_some_iff.mp popped
  refine ⟨(PacketBuffer.pop_capacity popped).trans (bounded.buffer b queue).1, ?_⟩
  omega

theorem goTo (bounded : Bounded s) {call : StopCall config.maxPayloadBytes}
    (after : s'.stop = some call) (buffer : s'.service.buffer = s.service.buffer)
    (other : call.phase ≠ .joining) : Bounded s' where
  buffer := by
    rw [buffer]
    exact bounded.buffer
  told call' same here := by
    rw [after] at same
    cases same
    exact absurd here other

theorem advance (bounded : Bounded s) (shape : Shape s) {io : StopIo}
    {call : StopCall config.maxPayloadBytes} (running : s.stop = some call)
    (move : StopMove io call s s') : Bounded s' := by
  have phase := shape.busy call running
  cases move with
  | waited i here => exact ⟨bounded.buffer, fun _ _ _ => rfl⟩
  | take attempt wroteAny here frame rest popped =>
      refine ⟨fun b queue => ?_, fun call' same joining => ?_⟩
      · cases queue
        exact bounded.pop popped
      · cases same
        cases joining
  | write attempt frame here =>
      rw [here] at phase
      obtain ⟨-, ⟨log, -, writer⟩, -⟩ := phase
      obtain ⟨run, held⟩ := Option.isSome_iff_exists.mp writer
      rcases drainWrite_cases held log io.write call attempt frame with ⟨-, next⟩ | ⟨-, next⟩
      all_goals
        rw [next]
        exact bounded.goTo (goTo_stop ..) rfl (by simp)
  | release summary counted here =>
      refine ⟨fun _ none => ?_, fun call' same joining => ?_⟩
      · cases none
      · cases same
        cases joining
  | finish session counted here => exact ⟨bounded.buffer, fun _ none => by cases none⟩
  | enter here => exact bounded.goTo (goTo_stop ..) rfl (by simp)
  | wait i here => exact bounded.goTo (goTo_stop ..) rfl (by simp)
  | unequipped here exited missing => exact bounded.goTo (goTo_stop ..) rfl (by simp)
  | joined here exited => exact bounded.goTo (goTo_stop ..) rfl (by simp)
  | empty attempt wroteAny here none => exact bounded.goTo (goTo_stop ..) rfl (by simp)
  | again attempt wroteAny here more => exact bounded.goTo (goTo_stop ..) rfl (by simp)
  | leave attempt wroteAny here done => exact bounded.goTo (goTo_stop ..) rfl (by simp)
  | close here => exact bounded.goTo (goTo_stop ..) rfl (by simp)
  | mark here => exact bounded.goTo (goTo_stop ..) rfl (by simp)
  | summarize here => exact bounded.goTo (goTo_stop ..) rfl (by simp)

theorem step (bounded : Bounded s) (shape : Shape s) {e : Event}
    (move : Move s e s') : Bounded s' := by
  cases move with
  | count io frame here =>
      have same := RuntimeService.sameSession_countFrame frame.header s.service
      exact bounded.transfer same.buffer rfl same.stopThreads
  | push io frame here buffer queue =>
      obtain ⟨diagnostics, -, pushed⟩ := RuntimeService.pushFrame_some queue frame
      have before := (bounded.buffer buffer queue).1
      rw [pushed]
      refine ⟨fun b same => ?_, bounded.told⟩
      cases same
      rw [← before]
      exact buffer.push_limits frame
  | start io free pc same =>
      rcases s.startRecording_cases io with ⟨-, made⟩ | ⟨-, _, -, made⟩ | ⟨-, -, _, -, -, made⟩
      · rw [made]
        exact bounded.transfer rfl rfl rfl
      all_goals
        rw [made]
        refine ⟨fun b queue => ?_, bounded.told⟩
        cases queue
        exact ⟨rfl, Nat.zero_le _⟩
  | stop free fromRx reason calls =>
      rcases s.stopRecording_cases fromRx reason with ⟨refused, -⟩ | ⟨entered, -⟩
      · rw [refused]
        exact bounded.transfer rfl free.symm rfl
      · rw [entered]
        exact bounded.goTo rfl rfl (by simp)
  | take io state here frame rest popped =>
      refine ⟨fun b queue => ?_, bounded.told⟩
      cases queue
      exact bounded.pop popped
  | write io frame here =>
      obtain ⟨⟨log, -, writer⟩, -⟩ := shape.holding here
      obtain ⟨run, held⟩ := Option.isSome_iff_exists.mp writer
      rcases writeHeld_cases held log io frame with ⟨-, next⟩ | ⟨-, next⟩
      all_goals
        rw [next]
        exact bounded.transfer rfl rfl rfl
  | advance io call running move => exact bounded.advance shape running move
  | _ => exact bounded.transfer rfl rfl rfl

end Bounded

theorem stepsLeft_running {call : StopCall config.maxPayloadBytes} (running : s.stop = some call) :
    s.stepsLeft = call.phase.stepsLeft (mostFrames config) s.toDrain s.writerThread.stepsLeft := by
  rw [stepsLeft, running]
  rfl

theorem stepsLeft_mono {m : UInt32}
    {most frames frames' steps steps' fewer : Nat} (phase : StopPhase m)
    (drain : phase = .entered ∨ frames' ≤ frames)
    (writer : phase = .joining → steps' + fewer ≤ steps) (only : phase ≠ .joining → fewer = 0) :
    phase.stepsLeft most frames' steps' + fewer ≤ phase.stepsLeft most frames steps := by
  cases phase with
  | joining =>
      have less := writer rfl
      have drain := drain.resolve_left nofun
      simp only [StopPhase.stepsLeft]
      omega
  | _ =>
      have none := only nofun
      simp only [reduceCtorEq, false_or, true_or] at drain
      simp only [StopPhase.stepsLeft]
      omega

theorem recording_entered (shape : Shape s) {call : StopCall config.maxPayloadBytes}
    (running : s.stop = some call) (recording : s.service.state = .kRecording) :
    call.phase = .entered := by
  have phase := shape.busy call running
  cases here : call.phase <;> simp_all [PhaseShape, Stopping]

theorem rx_falls (shape : Shape s) {io : StartIo} (moved : s.rxStep io = some s')
    {call : StopCall config.maxPayloadBytes} (running : s.stop = some call) :
    s'.stop = s.stop ∧ s'.writerThread = s.writerThread ∧
      (call.phase = .entered ∨ s'.toDrain ≤ s.toDrain) := by
  have move := move_of_rxStep moved
  cases move with
  | rx pc quiet lost =>
      refine ⟨rfl, rfl, .inr ?_⟩
      show s.queued + pc.pending.length ≤ s.queued + s.rx.pending.length
      rw [quiet]
      exact Nat.add_le_add_left (Nat.zero_le _) _
  | count io frame here =>
      have same := (RuntimeService.sameSession_countFrame frame.header s.service).buffer
      refine ⟨rfl, rfl, .inr ?_⟩
      simp [toDrain, queued, same, here, RxPc.pending]
  | accept io frame here recording =>
      exact ⟨rfl, rfl, .inl (recording_entered shape running recording)⟩
  | push io frame here buffer queue =>
      obtain ⟨diagnostics, -, pushed⟩ := RuntimeService.pushFrame_some queue frame
      have one := buffer.length_push_le frame
      rw [pushed]
      refine ⟨rfl, rfl, .inr ?_⟩
      rw [toDrain, toDrain, queued_eq queue, here]
      exact one
  | start io free pc same =>
      rw [running] at free
      cases free
  | stop free fromRx reason calls =>
      rw [running] at free
      cases free

theorem writer_falls (shape : Shape s) {io : WriteIo} (moved : s.writerStep io = some s') :
    s'.stop = s.stop ∧ s'.toDrain ≤ s.toDrain ∧
      (s.service.stopThreads = true →
        s'.writerThread.stepsLeft + 1 ≤ s.writerThread.stepsLeft) := by
  cases here : s.writerThread with
  | top =>
      simp only [writerStep, here, Option.some.injEq] at moved
      rw [← moved]
      refine ⟨rfl, Nat.le_refl _, fun told => ?_⟩
      rw [told]
      exact Nat.le_refl _
  | looping =>
      simp only [writerStep, here, Option.some.injEq] at moved
      rw [← moved]
      refine ⟨rfl, Nat.le_refl _, fun _ => ?_⟩
      show WriterPc.stepsLeft (if _ then _ else _) + 1 ≤ _
      split <;> simp [WriterPc.stepsLeft]
  | polled state =>
      have next : (WriterPc.stepsLeft (m := config.maxPayloadBytes)
          (if state = .kStopping then .exited else .top)) + 1 ≤ 3 := by
        split <;> simp [WriterPc.stepsLeft]
      simp only [writerStep, here, poll, Option.some.injEq] at moved
      split at moved
      · rw [← moved]
        exact ⟨rfl, Nat.le_refl _, fun _ => next⟩
      · split at moved
        · rw [← moved]
          exact ⟨rfl, Nat.le_refl _, fun _ => next⟩
        · rename_i frame rest popped
          have fewer := queued_pop popped
          rw [← moved]
          refine ⟨rfl, ?_, fun _ => Nat.le_refl _⟩
          show rest.queue.length + s.rx.pending.length ≤ s.queued + s.rx.pending.length
          omega
  | holding frame =>
      simp only [writerStep, here, Option.some.injEq] at moved
      obtain ⟨⟨log, -, writer⟩, -⟩ := shape.holding here
      obtain ⟨run, held⟩ := Option.isSome_iff_exists.mp writer
      rw [← moved]
      rcases writeHeld_cases held log io frame with ⟨-, next⟩ | ⟨-, next⟩
      all_goals
        rw [next]
        exact ⟨rfl, Nat.le_refl _, fun _ => Nat.le_refl _⟩
  | exited =>
      simp only [writerStep, here] at moved
      cases moved

theorem stop_falls (shape : Shape s) (bounded : Bounded s) {io : StopIo}
    {call : StopCall config.maxPayloadBytes} (running : s.stop = some call)
    (moved : s.advance io call = some s') (still : s'.stop.isSome = true) :
    s'.stepsLeft + 1 ≤ s.stepsLeft := by
  have phase := shape.busy call running
  have goes {call' : StopCall config.maxPayloadBytes} (after : s'.stop = some call')
      (drain : s'.toDrain = s.toDrain)
      (thread : s'.writerThread = s.writerThread)
      (less : call'.phase.stepsLeft (mostFrames config) s.toDrain s.writerThread.stepsLeft + 1 ≤
        call.phase.stepsLeft (mostFrames config) s.toDrain s.writerThread.stepsLeft) :
      s'.stepsLeft + 1 ≤ s.stepsLeft := by
    rw [stepsLeft_running running, stepsLeft_running after, drain, thread]
    exact less
  have most := toDrain_le bounded
  have move := stopMove_of_advance moved
  cases move with
  | enter here =>
      refine goes (goTo_stop ..) rfl rfl ?_
      rw [here]
      simp only [StopPhase.stepsLeft]
      omega
  | wait i here =>
      have early : ¬ (s.queued = 0 ∨ 500 ≤ i) := by
        intro late
        simp only [advance, here, wait, if_pos late, Option.some.injEq] at moved
        have phases := congrArg (fun t : Daemon config => t.stop.map fun call => call.phase) moved
        cases phases
      refine goes (goTo_stop ..) rfl rfl ?_
      rw [here]
      simp only [StopPhase.stepsLeft]
      omega
  | waited i here =>
      have few : s.writerThread.stepsLeft ≤
          4 := by cases s.writerThread <;> simp [WriterPc.stepsLeft]
      refine goes (goTo_stop ..) rfl rfl ?_
      rw [here]
      simp only [StopPhase.stepsLeft]
      omega
  | unequipped here exited missing =>
      refine goes (goTo_stop ..) rfl rfl ?_
      rw [here]
      simp only [StopPhase.stepsLeft]
      omega
  | joined here exited =>
      refine goes (goTo_stop ..) rfl rfl ?_
      rw [here]
      simp only [StopPhase.stepsLeft]
      omega
  | empty attempt wroteAny here none =>
      refine goes (goTo_stop ..) rfl rfl ?_
      rw [here]
      simp only [StopPhase.stepsLeft]
      omega
  | take attempt wroteAny here frame rest popped =>
      have fewer := queued_pop popped
      rw [stepsLeft_running running, here]
      show 8 + 2 * (200 - attempt) + 2 * (rest.queue.length + s.rx.pending.length) + 1 ≤
        7 + 2 * (200 - attempt) + 2 * (s.queued + s.rx.pending.length)
      omega
  | write attempt frame here =>
      rw [here] at phase
      obtain ⟨-, ⟨log, -, writer⟩, -⟩ := phase
      obtain ⟨run, held⟩ := Option.isSome_iff_exists.mp writer
      rw [stepsLeft_running running, here]
      rcases drainWrite_cases held log io.write call attempt frame with ⟨-, next⟩ | ⟨-, next⟩
      · rw [next]
        show 7 + 2 * (200 - attempt) + 2 * s.toDrain + 1 ≤ 8 + 2 * (200 - attempt) + 2 * s.toDrain
        omega
      · rw [next]
        show 5 + 1 ≤ 8 + 2 * (200 - attempt) + 2 * s.toDrain
        omega
  | again attempt wroteAny here more =>
      have early : attempt + 1 < 200 := by
        by_contra late
        simp [drainDone, show 200 ≤ attempt + 1 by omega] at more
      refine goes (goTo_stop ..) rfl rfl ?_
      rw [here]
      simp only [StopPhase.stepsLeft]
      omega
  | leave attempt wroteAny here done =>
      refine goes (goTo_stop ..) rfl rfl ?_
      rw [here]
      simp only [StopPhase.stepsLeft]
      omega
  | close here =>
      refine goes (goTo_stop ..) rfl rfl ?_
      rw [here]
      exact Nat.le_refl _
  | mark here =>
      refine goes (goTo_stop ..) rfl rfl ?_
      rw [here]
      exact Nat.le_refl _
  | summarize here =>
      refine goes (goTo_stop ..) rfl rfl ?_
      rw [here]
      exact Nat.le_refl _
  | release summary counted here =>
      rw [stepsLeft_running running, here]
      exact Nat.le_refl _
  | finish session counted here => cases still

theorem stepsLeft_step (shape : Shape s) (bounded : Bounded s)
    (inside : s.stop.isSome = true) {e : Event} (moved : s.step e = some s')
    (still : s'.stop.isSome = true) :
    s'.stepsLeft + (if s.drives e then 1 else 0) ≤ s.stepsLeft := by
  obtain ⟨call, running⟩ := Option.isSome_iff_exists.mp inside
  have other {fewer : Nat} (stop : s'.stop = s.stop)
      (drain : call.phase = .entered ∨ s'.toDrain ≤ s.toDrain)
      (writer : call.phase = .joining →
        s'.writerThread.stepsLeft + fewer ≤ s.writerThread.stepsLeft)
      (only : call.phase ≠ .joining → fewer = 0) : s'.stepsLeft + fewer ≤ s.stepsLeft := by
    rw [stepsLeft_running running, stepsLeft_running (stop.trans running)]
    exact stepsLeft_mono call.phase drain writer only
  cases e with
  | receive bytes =>
      have idle : s.drives (.receive bytes) = false := by simp [drives]
      rw [if_neg (by simp [idle])]
      simp only [step, receive] at moved
      split at moved
      · rename_i here
        split at moved
        all_goals rw [← Option.some.inj moved] at other ⊢
        · refine other rfl (.inr ?_) (fun _ => Nat.le_refl _) fun _ => rfl
          show s.queued + _ ≤ s.queued + s.rx.pending.length
          rw [here]
          exact Nat.le_refl _
        · exact other rfl (.inr (Nat.le_refl _)) (fun _ => Nat.le_refl _) fun _ => rfl
      · cases moved
  | rx io =>
      have idle : s.drives (.rx io) = false := by simp [drives]
      obtain ⟨stop, thread, drain⟩ := rx_falls shape moved running
      rw [if_neg (by simp [idle])]
      exact other stop drain (fun _ => by rw [thread]; exact Nat.le_refl _) fun _ => rfl
  | writer io =>
      obtain ⟨stop, drain, goesOn⟩ := writer_falls shape moved
      refine other stop (.inr drain) (fun joining => ?_) fun elsewhere => ?_
      · have drives : s.drives (.writer io) = true := by simp [drives, running, joining]
        rw [if_pos drives]
        exact goesOn (bounded.told call running joining)
      · have idle : s.drives (.writer io) = false := by simp only [drives, running]
        rw [if_neg (by simp [idle])]
  | start io =>
      simp only [step, inside, if_true] at moved
      cases moved
  | stop reason =>
      simp only [step, inside, if_true] at moved
      cases moved
  | stopStep io =>
      have drives : s.drives (.stopStep io) = true := by simp [drives, running]
      simp only [step, running, Option.bind_some] at moved
      rw [if_pos drives]
      exact stop_falls shape bounded running moved still
  | report io =>
      have idle : s.drives (.report io) = false := by simp [drives]
      simp only [step] at moved
      rw [if_neg (by simp [idle])]
      split at moved
      · rw [← Option.some.inj moved] at other ⊢
        exact other rfl (.inr (Nat.le_refl _)) (fun _ => Nat.le_refl _) fun _ => rfl
      · cases moved

theorem exists_drives (inside : s.stop.isSome = true) (io : StopIo) :
    ∃ e ∈ [Event.stopStep io, .writer io.write], s.drives e = true ∧ (s.step e).isSome = true := by
  obtain ⟨call, running⟩ := Option.isSome_iff_exists.mp inside
  have own (goes : (s.advance io call).isSome = true) :
      ∃ e ∈ [Event.stopStep io, .writer io.write], s.drives e = true ∧
        (s.step e).isSome = true := by
    refine ⟨.stopStep io, by simp, by simp [drives, running], ?_⟩
    rw [step, running]
    exact goes
  cases here : call.phase with
  | joining =>
      cases thread : s.writerThread with
      | exited =>
          refine own ?_
          simp only [advance, here, join, thread]
          split <;> rfl
      | _ =>
          exact ⟨.writer
            io.write, by simp, by simp [drives, running, here], by simp [step, writerStep, thread]⟩
  | _ => exact own (by simp [advance, here])

theorem bounded_of_reach {allowed : Daemon config → Event → Prop} {s : Daemon config}
    (reached : (daemonMachine config).Reach allowed s) : Shape s ∧ Bounded s := by
  refine reached.invariant (I := fun s => Shape s ∧ Bounded s) ?_ fun s e t kept moved _ => ?_
  · rintro _ rfl
    exact ⟨.init, .init⟩
  · have move := move_of_step moved
    exact ⟨kept.1.step move, kept.2.step kept.1 move⟩

theorem stepsLeft_le (bounded : Bounded s) : s.stepsLeft ≤ 914 + 2 * mostFrames config := by
  have drain := toDrain_le bounded
  have few : s.writerThread.stepsLeft ≤ 4 := by cases s.writerThread <;> simp [WriterPc.stepsLeft]
  unfold stepsLeft
  cases s.stop with
  | none => exact Nat.zero_le _
  | some call =>
      rw [Option.map_some, Option.getD_some]
      cases call.phase <;> simp only [StopPhase.stepsLeft] <;> omega

/-- A stop that finalises a session is never stuck, whatever its writes do, and for as long as it
has not returned it and the writer thread that it joins make no more steps than the buffer's
capacity allows. -/
theorem stop_returns {s : Daemon config}
    (reached : (daemonMachine config).Reach (fun _ _ => True) s) (inside : s.stop.isSome = true) :
    (∀ io : StopIo, ∃ e ∈ [Event.stopStep io, .writer io.write], s.drives e = true ∧
      (s.step e).isSome = true) ∧
    ∀ events s', events.foldlM step s = some s' →
      (∀ done, done <+: events → ∀ t, done.foldlM step s = some t → t.stop.isSome = true) →
      Machine.tally step drives s events ≤ 914 + 2 * mostFrames config := by
  refine ⟨exists_drives inside, fun events s' ran stays => ?_⟩
  have kept := bounded_of_reach reached
  have falls (s : Daemon config) (e : Event) (t : Daemon config) (kept : Shape s ∧ Bounded s)
      (inside : s.stop.isSome = true) (moved : s.step e = some t) : (Shape t ∧ Bounded t) ∧
      (t.stop.isSome = true → t.stepsLeft + (if s.drives e then 1 else 0) ≤ s.stepsLeft) := by
    have move := move_of_step moved
    exact ⟨⟨kept.1.step move, kept.2.step kept.1 move⟩, stepsLeft_step kept.1 kept.2 inside moved⟩
  have steps := Machine.tally_le_rank falls kept ran stays
  have most := stepsLeft_le kept.2
  omega

def joiningEvents : List Event :=
  .start cleanStart :: recordOne audioFrame
    (.clean {}) ++ .stop (ascii "user_stop") :: List.replicate 2 (.stopStep cleanStop)

theorem joiningEvents_run :
    (joiningEvents.foldlM step ({} : Daemon {})).isSome = true := by decide +kernel

theorem joiningEvents_returns : (∀ io : StopIo, ∃ e ∈ [Event.stopStep io, .writer io.write],
      (after {} joiningEvents).drives e = true ∧ ((after {} joiningEvents).step e).isSome = true) ∧
    ∀ events s', events.foldlM step (after {} joiningEvents) = some s' →
      (∀ done, done <+: events →
        ∀ t, done.foldlM step (after {} joiningEvents) = some t → t.stop.isSome = true) →
      Machine.tally step drives (after {} joiningEvents) events ≤ 914 + 2 * mostFrames {} :=
  stop_returns (reach_after joiningEvents_run (Machine.allowedAlong_true ..)) (by decide +kernel)

end Daemon
end LocalPC.Runtime
