import LocalPC.Runtime.FrameConservation

namespace LocalPC.Runtime
open Lib Contract

def RxPc.carried {m : UInt32} : RxPc m → List (ContractFrame m)
  | .received frame | .starting frame | .dispatched frame | .counted frame | .accepted frame =>
      [frame]
  | .idle | .ending => []

/-- The directory of a session that is finished and not handed over yet. -/
def StopPhase.finished {m : UInt32} : StopPhase m → List Dir
  | .released session _ => [session.dir]
  | _ => []

/-- The frames of a run, as they came and as they were written. -/
structure FrameTrace (m : UInt32) where
  received : List (ContractFrame m) := []
  stored : List (ContractFrame m) := []

def checkedFrame (m : UInt32) (bytes : Bytes) : List (ContractFrame m) :=
  match valid : validateContractFrame bytes m with
  | .ok () => [⟨bytes, valid⟩]
  | .error _ => []

theorem checkedFrame_ok {m : UInt32} {bytes : Bytes}
    (valid : validateContractFrame bytes m = .ok ()) :
    checkedFrame m bytes = [⟨bytes, valid⟩] := by
  unfold checkedFrame
  split
  · rfl
  · rename_i invalid
    rw [valid] at invalid
    cases invalid

def Event.arrival (m : UInt32) : Event → List (ContractFrame m)
  | .receive bytes => checkedFrame m bytes
  | _ => []

namespace Daemon
variable {config : RuntimeConfig} {s s' : Daemon config}

def stores (s : Daemon config) (e : Event) : List (ContractFrame config.maxPayloadBytes) :=
  if s.writeFails e then [] else ((s.frameWrite e).map Prod.snd).toList

def note (s : Daemon config) (e : Event) (trace : FrameTrace config.maxPayloadBytes) :
    FrameTrace config.maxPayloadBytes where
  received := trace.received ++ e.arrival config.maxPayloadBytes
  stored := trace.stored ++ s.stores e

def buffered (s : Daemon config) : List (ContractFrame config.maxPayloadBytes) :=
  (s.service.buffer.map PacketBuffer.queue).getD []

/-- The frames on their way, the first to be written in front. -/
def line (s : Daemon config) : List (ContractFrame config.maxPayloadBytes) :=
  s.held ++ s.buffered ++ s.rx.carried

theorem stores_nothing {e : Event} (none : s.frameWrite e = none) : s.stores e = [] := by
  simp [stores, none]

theorem stores_frame {e : Event} {io : WriteIo} {frame : ContractFrame config.maxPayloadBytes}
    (written : s.frameWrite e = some (io, frame)) {run : WriterRun}
    (held : s.service.writer = some run) :
    s.stores e = if (run.writer.writeContractFrame io frame.bytes).1 then [frame] else [] := by
  rw [stores, writeFails_eq written held, written]
  cases (run.writer.writeContractFrame io frame.bytes).1 <;> rfl

theorem stores_stop {io : StopIo} {call : StopCall config.maxPayloadBytes}
    (running : s.stop = some call) (none : call.phase.held = []) :
    s.stores (.stopStep io) = [] := by
  refine stores_nothing ?_
  rw [frameWrite, running, Option.bind_some, none]
  rfl

theorem buffered_some {buffer : PacketBuffer (ContractFrame config.maxPayloadBytes)}
    (queue : s.service.buffer = some buffer) : s.buffered = buffer.queue := by
  rw [buffered, queue]
  rfl

theorem buffered_pop {frame : ContractFrame config.maxPayloadBytes}
    {rest : PacketBuffer (ContractFrame config.maxPayloadBytes)}
    (popped : s.service.buffer.bind PacketBuffer.pop = some (frame, rest)) :
    s.buffered = frame :: rest.queue := by
  obtain ⟨buffer, queue, popped⟩ := Option.bind_eq_some_iff.mp popped
  rw [buffered_some queue, (PacketBuffer.pop_some popped).1]

theorem carried_of_rxStep {io : StartIo} (moved : s.rxStep io = some s') :
    s'.rx.carried.Sublist s.rx.carried := by
  cases here : s.rx with
  | idle =>
      rw [rxStep, here] at moved
      cases moved
  | received frame =>
      simp only [rxStep, here, Option.some.injEq] at moved
      rw [← moved]
      show (RxPc.carried (if _ then _ else _)).Sublist _
      split <;> exact .refl _
  | starting frame =>
      simp only [rxStep, here] at moved
      split at moved
      · cases moved
      · rw [← Option.some.inj moved]
        exact .refl _
  | dispatched frame =>
      simp only [rxStep, here, dispatch, Option.some.injEq] at moved
      split at moved <;> rw [← moved]
      · exact List.nil_sublist _
      · exact .refl _
  | ending =>
      simp only [rxStep, here] at moved
      split at moved
      · cases moved
      · rw [← Option.some.inj moved]
        rcases s.stopRecording_cases true
            (ascii "session_ended") with ⟨next, -⟩ | ⟨next, -⟩ <;> rw [next]
        · exact .refl _
        · show s.rx.carried.Sublist _
          rw [here]
  | counted frame =>
      simp only [rxStep, here, check, Option.some.injEq] at moved
      split at moved <;> rw [← moved]
      · exact List.nil_sublist _
      · exact .refl _
  | accepted frame =>
      simp only [rxStep, here, push, Option.some.injEq] at moved
      split at moved <;> rw [← moved] <;> exact List.nil_sublist _

theorem rx_of_writerStep {io : WriteIo} (moved : s.writerStep io = some s') : s'.rx = s.rx := by
  unfold writerStep at moved
  split at moved
  case h_5 => cases moved
  all_goals rw [← Option.some.inj moved]
  case h_3 state here =>
    unfold poll
    dsimp only
    split
    · rfl
    · split <;> rfl
  case h_4 => rfl

theorem carried_of_stopMove {io : StopIo} {call : StopCall config.maxPayloadBytes}
    (move : StopMove io call s s') :
    s'.rx.carried.Sublist s.rx.carried := by
  cases move with
  | write attempt frame here =>
      unfold drainWrite
      dsimp only
      split
      · exact .refl _
      · split <;> exact .refl _
  | finish session counted here =>
      show (RxPc.carried (if _ then _ else _)).Sublist _
      split
      · exact List.nil_sublist _
      · exact .refl _
  | _ => exact .refl _

theorem held_of_alive (shape : Shape s) (alive : s.writerThread ≠ .exited) :
    s.held = s.writerThread.held := by
  cases running : s.stop with
  | none => simp [held, running]
  | some call =>
      rcases shape.exited_or_early running with exited | here | ⟨i, here⟩ | here
      · exact absurd exited alive
      all_goals simp [held, running, here, StopPhase.held]

theorem order_writer (shape : Shape s) {io : WriteIo} (moved : s.writerStep io = some s') :
    (s.stores (.writer io) ++ (s'.held ++ s'.buffered)).Sublist (s.held ++ s.buffered) := by
  have idle (none : s.writerThread.held = []) : s.stores (.writer io) = [] :=
    stores_nothing (by simp [frameWrite, none])
  have quiet (none : s.writerThread.held = []) (pc : WriterPc config.maxPayloadBytes)
      (still : pc.held = []) :
      (s.stores (.writer io) ++ (held { s with writerThread := pc } ++ s.buffered)).Sublist
        (s.held ++ s.buffered) := by
    rw [idle none, held, held, none, still]
    exact .refl _
  cases here : s.writerThread with
  | top =>
      simp only [writerStep, here, Option.some.injEq] at moved
      rw [← moved]
      refine quiet (by rw [here]; rfl) _ ?_
      split <;> rfl
  | looping =>
      simp only [writerStep, here, Option.some.injEq] at moved
      rw [← moved]
      refine quiet (by rw [here]; rfl) _ ?_
      split <;> rfl
  | polled state =>
      have none : s.writerThread.held = [] := by rw [here]; rfl
      have nothing :
          (WriterPc.held (m := config.maxPayloadBytes)
            (if state = .kStopping then .exited else .top)) = [] := by
        split <;> rfl
      simp only [writerStep, here, poll, Option.some.injEq] at moved
      split at moved
      · rw [← moved]
        exact quiet none _ nothing
      · split at moved
        · rw [← moved]
          exact quiet none _ nothing
        · rename_i frame rest popped
          have alive : s.writerThread ≠ .exited := by simp [here]
          have still := held_of_alive shape alive
          rw [none] at still
          have stop : (s.stop.map fun call => call.phase.held).getD [] = [] :=
            (List.append_eq_nil_iff.mp still).2
          rw [← moved, idle none, still, buffered_pop popped, held, stop]
          exact .refl _
  | holding frame =>
      simp only [writerStep, here, Option.some.injEq] at moved
      obtain ⟨⟨log, -, writer⟩, -⟩ := shape.holding here
      obtain ⟨run, held⟩ := Option.isSome_iff_exists.mp writer
      have stored := stores_frame (frameWrite_writer here io) held
      have mine : s.held = [frame] := by
        rw [held_of_alive shape (by simp [here]), here]
        rfl
      have stop : (s.stop.map fun call => call.phase.held).getD [] = [] := by
        rw [Daemon.held, here] at mine
        exact (List.cons.inj mine).2
      rw [← moved, stored, mine]
      rcases writeHeld_cases held log io frame with ⟨done, next⟩ | ⟨fails, next⟩
      · rw [next, if_pos done, Daemon.held, stop]
        exact .refl _
      · rw [next, fails, Daemon.held, stop]
        exact List.sublist_cons_self _ _
  | exited =>
      simp only [writerStep, here] at moved
      cases moved

theorem order_stop (shape : Shape s) {io : StopIo} {call : StopCall config.maxPayloadBytes}
    (running : s.stop = some call) (move : StopMove io call s s') :
    (s.stores (.stopStep io) ++ (s'.held ++ s'.buffered)).Sublist (s.held ++ s.buffered) := by
  have phase := shape.busy call running
  have nothing (none : call.phase.held = []) : s.stores (.stopStep io) = [] :=
    stores_stop running none
  have quiet {call' : StopCall config.maxPayloadBytes} (none : call.phase.held = [])
      (after : s'.stop = some call')
      (still : call'.phase.held = []) (thread : s'.writerThread = s.writerThread)
      (buffer : s'.service.buffer = s.service.buffer) :
      (s.stores (.stopStep io) ++ (s'.held ++ s'.buffered)).Sublist (s.held ++ s.buffered) := by
    rw [nothing none]
    simp only [held, buffered, running, after, thread, buffer, Option.map_some,
      Option.getD_some, none, still]
    exact .refl _
  cases move with
  | enter here => exact quiet (by rw [here]; rfl) (goTo_stop ..) rfl rfl rfl
  | wait i here => exact quiet (by rw [here]; rfl) (goTo_stop ..) rfl rfl rfl
  | waited i here => exact quiet (by rw [here]; rfl) (goTo_stop ..) rfl rfl rfl
  | unequipped here exited missing => exact quiet (by rw [here]; rfl) (goTo_stop ..) rfl rfl rfl
  | joined here exited => exact quiet (by rw [here]; rfl) (goTo_stop ..) rfl rfl rfl
  | empty attempt wroteAny here none => exact quiet (by rw [here]; rfl) (goTo_stop ..) rfl rfl rfl
  | take attempt wroteAny here frame rest popped =>
      rw [here] at phase
      rw [nothing (by rw [here]; rfl), buffered_pop popped]
      simp only [held, Daemon.goTo, phase.2.2, running, here, WriterPc.held,
        StopPhase.held, List.nil_append, Option.map_some, Option.getD_some]
      exact .refl _
  | write attempt frame here =>
      rw [here] at phase
      obtain ⟨-, ⟨log, -, writer⟩, exited⟩ := phase
      obtain ⟨run, open'⟩ := Option.isSome_iff_exists.mp writer
      have mine : s.held = [frame] := by
        simp [held, exited, running, here, WriterPc.held, StopPhase.held]
      rw [stores_frame (frameWrite_stopStep running here io) open', mine]
      rcases drainWrite_cases open' log io.write call attempt frame with ⟨done, next⟩ |
          ⟨fails, next⟩
      · rw [next, if_pos done]
        simp only [held, Daemon.goTo, exited, WriterPc.held, StopPhase.held,
          Option.map_some, Option.getD_some]
        exact .refl _
      · rw [next, fails]
        simp only [held, Daemon.goTo, exited, WriterPc.held, StopPhase.held,
          Option.map_some, Option.getD_some]
        exact List.sublist_cons_self _ _
  | again attempt wroteAny here more => exact quiet (by rw [here]; rfl) (goTo_stop ..) rfl rfl rfl
  | leave attempt wroteAny here done => exact quiet (by rw [here]; rfl) (goTo_stop ..) rfl rfl rfl
  | close here => exact quiet (by rw [here]; rfl) (goTo_stop ..) rfl rfl rfl
  | mark here => exact quiet (by rw [here]; rfl) (goTo_stop ..) rfl rfl rfl
  | summarize here => exact quiet (by rw [here]; rfl) (goTo_stop ..) rfl rfl rfl
  | release summary counted here =>
      rw [nothing (by rw [here]; rfl)]
      simp only [held, Daemon.release, Daemon.goTo, running, here, StopPhase.held,
        Option.map_some, Option.getD_some]
      exact (List.nil_sublist _).append_left _
  | finish session counted here =>
      rw [nothing (by rw [here]; rfl)]
      exact (List.nil_sublist _).append (.refl _)

theorem order_startRecording (io : StartIo) :
    ((s.startRecording io).held ++ (s.startRecording io).buffered).Sublist
      (s.held ++ s.buffered) := by
  rcases s.startRecording_cases io with ⟨-, same⟩ | ⟨-, _, -, made⟩ | ⟨-, -, _, -, -, made⟩
  · rw [same]
  all_goals
    rw [made]
    exact (List.Sublist.refl s.held).append (List.nil_sublist _)

theorem order_stopRecording (free : s.stop = none) (fromRx : Bool) (reason : Bytes) :
    (s.stopRecording fromRx reason).held ++ (s.stopRecording fromRx reason).buffered =
      s.held ++ s.buffered := by
  rcases s.stopRecording_cases fromRx reason with ⟨next, -⟩ | ⟨next, -⟩
  all_goals
    rw [next, held, held, free]
    rfl

theorem order_push {frame : ContractFrame config.maxPayloadBytes}
    {buffer : PacketBuffer (ContractFrame config.maxPayloadBytes)}
    (queue : s.service.buffer = some buffer) (after : s'.service.buffer = some (buffer.push frame))
    (held : s'.held = s.held) :
    (s'.held ++ s'.buffered).Sublist (s.held ++ s.buffered ++ [frame]) := by
  obtain ⟨lost, split, -⟩ := buffer.push_drops frame
  rw [held, buffered_some queue, buffered_some after, List.append_assoc, split]
  exact (List.sublist_append_right lost _).append_left _

theorem order_rx {io : StartIo} (moved : s.rxStep io = some s') : s'.line.Sublist s.line := by
  have carried := carried_of_rxStep moved
  have move := move_of_rxStep moved
  cases move with
  | rx pc quiet lost => exact (List.Sublist.refl _).append carried
  | count io frame here =>
      have buffer := (RuntimeService.sameSession_countFrame frame.header s.service).buffer
      simp only [line, buffered, buffer]
      exact (List.Sublist.refl _).append carried
  | accept io frame here recording => exact (List.Sublist.refl _).append carried
  | push io frame here buffer queue =>
      obtain ⟨diagnostics, -, pushed⟩ := RuntimeService.pushFrame_some queue frame
      rw [line, line, here, pushed]
      exact (List.append_nil _).symm ▸ order_push queue rfl rfl
  | start io free pc same => exact (order_startRecording io).append carried
  | stop free fromRx reason calls =>
      rw [line, line, order_stopRecording free]
      exact (List.Sublist.refl _).append carried

theorem order_step (shape : Shape s) {e : Event} (moved : s.step e = some s') :
    (s.stores e ++ s'.line).Sublist (s.line ++ e.arrival config.maxPayloadBytes) := by
  cases e with
  | receive bytes =>
      simp only [step, receive] at moved
      split at moved
      · rename_i here
        rw [stores_nothing rfl, line, line, here, RxPc.carried, List.append_nil]
        split at moved
        · rename_i valid
          rw [← Option.some.inj moved, Event.arrival, checkedFrame_ok valid]
          exact .refl _
        · rw [← Option.some.inj moved, here, RxPc.carried, List.append_nil]
          exact List.sublist_append_left _ _
      · cases moved
  | rx io =>
      rw [stores_nothing rfl,
        show (Event.rx io).arrival config.maxPayloadBytes = [] from rfl, List.append_nil]
      exact order_rx moved
  | writer io =>
      have front := order_writer shape moved
      rw [line, line, rx_of_writerStep moved, ← List.append_assoc,
        show (Event.writer io).arrival config.maxPayloadBytes = [] from rfl, List.append_nil]
      exact front.append (.refl _)
  | start io =>
      simp only [step] at moved
      split at moved
      · cases moved
      · rw [stores_nothing rfl, ← Option.some.inj moved, line, line, rx_startRecording]
        exact (List.append_nil _).symm ▸ (order_startRecording io).append (.refl _)
  | stop reason =>
      simp only [step] at moved
      split at moved
      · cases moved
      · rename_i free
        have free : s.stop = none := by simpa using free
        rw [stores_nothing rfl, ← Option.some.inj moved, line, line, order_stopRecording free]
        have same : (s.stopRecording false reason).rx = s.rx := by
          rcases s.stopRecording_cases false reason with ⟨next, -⟩ | ⟨next, -⟩ <;> rw [next]
          rfl
        rw [same]
        exact List.sublist_append_left _ _
  | stopStep io =>
      simp only [step] at moved
      obtain ⟨call, running, moved⟩ := Option.bind_eq_some_iff.mp moved
      have move := stopMove_of_advance moved
      have front := order_stop shape running move
      rw [line, line, ← List.append_assoc,
        show (Event.stopStep io).arrival config.maxPayloadBytes = [] from rfl, List.append_nil]
      exact front.append (carried_of_stopMove move)
  | report io =>
      simp only [step] at moved
      split at moved
      · rw [stores_nothing rfl, ← Option.some.inj moved,
          show (Event.report io).arrival config.maxPayloadBytes = [] from rfl, List.append_nil]
        exact .refl _
      · cases moved

inductive WriterMove (s : Daemon config) (e : Event) (run : WriterRun) : WriterRun → Prop
  | keep (none : s.stores e = []) : WriterMove s e run run
  | write (io : WriteIo) (frame : ContractFrame config.maxPayloadBytes)
      (written : s.frameWrite e = some (io, frame)) :
      WriterMove s e run (run.step (.write io frame.bytes))
  | close (io : StopIo) (closes : e = .stopStep io) (none : s.stores e = []) :
      WriterMove s e run (run.step (.close io.close))

structure WriterStart (s : Daemon config) (e : Event) (s' : Daemon config)
    (run' : WriterRun) : Prop where
  free : s.stop = none
  idle : s.service.state ≠ .kRecording
  stop : s'.stop = none
  none : s.stores e = []
  fresh : ∃ io : StartIo, run' = (WriterRun.fresh config io.now).step (.open io.openIo)

def WriterMoves (s : Daemon config) (e : Event) (s' : Daemon config) : Prop :=
  ∀ run', s'.service.writer = some run' →
    WriterStart s e s' run' ∨ ∃ run, s.service.writer = some run ∧ WriterMove s e run run'

theorem WriterMoves.quiet {e : Event} (none : s.stores e = [])
    (same : s'.service.writer = s.service.writer) :
    WriterMoves s e s' := by
  intro run writer
  rw [same] at writer
  exact .inr ⟨run, writer, .keep none⟩

theorem WriterMoves.write {e : Event} {io : WriteIo} {frame : ContractFrame config.maxPayloadBytes}
    (written : s.frameWrite e = some (io, frame)) {run : WriterRun}
    (held : s.service.writer = some run)
    (after : s'.service.writer = some (run.step (.write io frame.bytes))) : WriterMoves s e s' := by
  intro run' writer
  rw [after] at writer
  cases writer
  exact .inr ⟨run, held, .write io frame written⟩

theorem moves_startRecording (io : StartIo) (pc : RxPc config.maxPayloadBytes)
    {e : Event} (free : s.stop = none) (none : s.stores e = []) :
    WriterMoves s e { s.startRecording io with rx := pc } := by
  rcases s.startRecording_cases io with ⟨-, same⟩ | ⟨idle, _, -, made⟩ | ⟨idle, -, _, -, -, made⟩
  · rw [same]
    exact .quiet none rfl
  all_goals
    rw [made]
    intro run writer
    cases writer
    exact .inl ⟨free, idle, free, none, io, rfl⟩

theorem moves_stopRecording (fromRx : Bool) (reason : Bytes) {e : Event} (none : s.stores e = []) :
    WriterMoves s e (s.stopRecording fromRx reason) := by
  rcases s.stopRecording_cases fromRx reason with ⟨next, -⟩ | ⟨next, -⟩
  all_goals
    rw [next]
    exact .quiet none rfl

theorem moves_rx {io : StartIo} (moved : s.rxStep io = some s') : WriterMoves s (.rx io) s' := by
  have move := move_of_rxStep moved
  cases move with
  | rx pc quiet lost => exact .quiet rfl rfl
  | count io frame here =>
      exact .quiet rfl (RuntimeService.sameSession_countFrame frame.header s.service).writer
  | accept io frame here recording => exact .quiet rfl rfl
  | push io frame here buffer queue =>
      obtain ⟨diagnostics, -, pushed⟩ := RuntimeService.pushFrame_some queue frame
      rw [pushed]
      exact .quiet rfl rfl
  | start io free pc same => exact moves_startRecording io pc free rfl
  | stop free fromRx reason calls => exact moves_stopRecording fromRx reason rfl

theorem moves_writer (shape : Shape s) {io : WriteIo} (moved : s.writerStep io = some s') :
    WriterMoves s (.writer io) s' := by
  have idle (none : s.writerThread.held = []) : s.stores (.writer io) = [] :=
    stores_nothing (by simp [frameWrite, none])
  cases here : s.writerThread with
  | top =>
      simp only [writerStep, here, Option.some.injEq] at moved
      exact moved ▸ .quiet (idle (by rw [here]; rfl)) rfl
  | looping =>
      simp only [writerStep, here, Option.some.injEq] at moved
      exact moved ▸ .quiet (idle (by rw [here]; rfl)) rfl
  | polled state =>
      simp only [writerStep, here, poll, Option.some.injEq] at moved
      rw [← moved]
      refine .quiet (idle (by rw [here]; rfl)) ?_
      split
      · rfl
      · split <;> rfl
  | holding frame =>
      simp only [writerStep, here, Option.some.injEq] at moved
      obtain ⟨⟨log, -, writer⟩, -⟩ := shape.holding here
      obtain ⟨run, held⟩ := Option.isSome_iff_exists.mp writer
      refine .write (frameWrite_writer here io) held ?_
      rw [← moved]
      rcases writeHeld_cases held log io frame with ⟨-, next⟩ | ⟨-, next⟩ <;> rw [next]
  | exited =>
      simp only [writerStep, here] at moved
      cases moved

theorem moves_stop (shape : Shape s) {io : StopIo} {call : StopCall config.maxPayloadBytes}
    (running : s.stop = some call) (move : StopMove io call s s') :
    WriterMoves s (.stopStep io) s' := by
  have phase := shape.busy call running
  have nothing (none : call.phase.held = []) : s.stores (.stopStep io) = [] :=
    stores_stop running none
  cases move with
  | write attempt frame here =>
      rw [here] at phase
      obtain ⟨-, ⟨log, -, writer⟩, -⟩ := phase
      obtain ⟨run, held⟩ := Option.isSome_iff_exists.mp writer
      refine .write (frameWrite_stopStep running here io) held ?_
      rcases drainWrite_cases held log io.write call attempt frame with ⟨-, next⟩ | ⟨-, next⟩
      all_goals
        rw [next]
        rfl
  | close here =>
      intro run' writer
      obtain ⟨run, held, step⟩ := Option.map_eq_some_iff.mp writer
      exact .inr ⟨run, held, step ▸ .close io rfl (nothing (by rw [here]; rfl))⟩
  | release summary counted here =>
      intro run' writer
      cases writer
  | enter here => exact .quiet (nothing (by rw [here]; rfl)) rfl
  | wait i here => exact .quiet (nothing (by rw [here]; rfl)) rfl
  | waited i here => exact .quiet (nothing (by rw [here]; rfl)) rfl
  | unequipped here exited missing => exact .quiet (nothing (by rw [here]; rfl)) rfl
  | joined here exited => exact .quiet (nothing (by rw [here]; rfl)) rfl
  | empty attempt wroteAny here none => exact .quiet (nothing (by rw [here]; rfl)) rfl
  | take attempt wroteAny here frame rest popped => exact .quiet (nothing (by rw [here]; rfl)) rfl
  | again attempt wroteAny here more => exact .quiet (nothing (by rw [here]; rfl)) rfl
  | leave attempt wroteAny here done => exact .quiet (nothing (by rw [here]; rfl)) rfl
  | mark here => exact .quiet (nothing (by rw [here]; rfl)) rfl
  | summarize here => exact .quiet (nothing (by rw [here]; rfl)) rfl
  | finish session counted here => exact .quiet (nothing (by rw [here]; rfl)) rfl

theorem moves_step (shape : Shape s) {e : Event} (moved : s.step e = some s') :
    WriterMoves s e s' := by
  cases e with
  | receive bytes =>
      simp only [step, receive] at moved
      split at moved
      · split at moved <;> exact Option.some.inj moved ▸ .quiet rfl rfl
      · cases moved
  | rx io => exact moves_rx moved
  | writer io => exact moves_writer shape moved
  | start io =>
      simp only [step] at moved
      split at moved
      · cases moved
      · rename_i free
        rw [← Option.some.inj moved]
        exact moves_startRecording io (s.startRecording io).rx (by simpa using free) rfl
  | stop reason =>
      simp only [step] at moved
      split at moved
      · cases moved
      · exact Option.some.inj moved ▸ moves_stopRecording false reason rfl
  | stopStep io =>
      simp only [step] at moved
      obtain ⟨call, running, moved⟩ := Option.bind_eq_some_iff.mp moved
      exact moves_stop shape running (stopMove_of_advance moved)
  | report io =>
      simp only [step] at moved
      split at moved
      · exact Option.some.inj moved ▸ .quiet rfl rfl
      · cases moved

theorem WriterMove.written {e : Event} {run run' : WriterRun} (move : WriterMove s e run run')
    (held : s.service.writer = some run) :
    run'.written = run.written ++ (s.stores e).map ContractFrame.bytes := by
  cases move with
  | keep none =>
      rw [none]
      exact (List.append_nil _).symm
  | write io frame written =>
      rw [stores_frame written held, WriterRun.step, WriterCall.written]
      split <;> rfl
  | close io closes none =>
      rw [none]
      rfl

theorem WriterMoves.written {e : Event} (moves : WriterMoves s e s') {run' : WriterRun}
    (writer : s'.service.writer = some run') :
    run'.written = [] ∨ ∃ run, s.service.writer = some run ∧
      run'.written = run.written ++ (s.stores e).map ContractFrame.bytes := by
  rcases moves run' writer with start | ⟨run, held, move⟩
  · obtain ⟨io, rfl⟩ := start.fresh
    exact .inl rfl
  · exact .inr ⟨run, held, move.written held⟩

theorem stores_unwritten {e : Event} (unwritten : s.service.writer = none) : s.stores e = [] := by
  cases written : s.frameWrite e with
  | none => exact stores_nothing written
  | some write =>
      have fails : s.writeFails e =
          true := by simp [writeFails, written, RuntimeService.writeFrame, unwritten]
      rw [stores, fails]
      rfl

/-- What is stored and what is on its way has come in, in this order, and the session that is being
recorded was the last to store frames. -/
structure InOrder (s : Daemon config) (trace : FrameTrace config.maxPayloadBytes) : Prop where
  order : (trace.stored ++ s.line).Sublist trace.received
  latest : ∀ run, s.service.writer = some run → run.written <:+ trace.stored.map ContractFrame.bytes

theorem InOrder.init : InOrder ({} : Daemon config) {} where
  order := .refl _
  latest _ writer := nomatch writer

theorem InOrder.step {trace : FrameTrace config.maxPayloadBytes} (kept : InOrder s trace)
    (shape : Shape s) {e : Event} (moved : s.step e = some s') : InOrder s' (s.note e trace) where
  order := by
    show (trace.stored ++ s.stores e ++ s'.line).Sublist
      (trace.received ++ e.arrival config.maxPayloadBytes)
    have behind := (order_step shape moved).append_left trace.stored
    rw [← List.append_assoc, ← List.append_assoc] at behind
    exact behind.trans (kept.order.append_right _)
  latest run' writer := by
    show run'.written <:+ (trace.stored ++ s.stores e).map ContractFrame.bytes
    rw [List.map_append]
    rcases (moves_step shape moved).written writer with fresh | ⟨run, before, more⟩
    · rw [fresh]
      exact List.nil_suffix
    · obtain ⟨earlier, split⟩ := kept.latest run before
      rw [more, ← split, List.append_assoc]
      exact List.suffix_append _ _

end Daemon

def tracedDaemon (config : RuntimeConfig) :
    Machine (Daemon config × FrameTrace config.maxPayloadBytes) Event :=
  Machine.ofPartial ({}, {}) (Machine.recording Daemon.step Daemon.note)

namespace Daemon
variable {config : RuntimeConfig}

theorem inOrder_of_reach {p : Daemon config × FrameTrace config.maxPayloadBytes}
    {allowed : Daemon config × FrameTrace config.maxPayloadBytes → Event → Prop}
    (reached : (tracedDaemon config).Reach allowed p) : Shape p.1 ∧ InOrder p.1 p.2 := by
  refine reached.invariant (I := fun p => Shape p.1 ∧ InOrder p.1 p.2)
    (fun p start => ?_) fun p e q kept moved _ => ?_
  · cases start
    exact ⟨.init, .init⟩
  · obtain ⟨moved, noted⟩ := Machine.recording_eq_some moved
    rw [noted]
    exact ⟨kept.1.step (move_of_step moved), kept.2.step kept.1 moved⟩

theorem forall₂_related {α β : Type*} {R : α → β → Prop} {S : β → β → Prop}
    (keeps : ∀ a b b', R a b → S b b' → R a b') {as : List α} {bs bs' : List β}
    (all : List.Forall₂ R as bs) (related : List.Forall₂ S bs bs') :
    List.Forall₂ R as bs' := by
  induction all generalizing bs' with
  | nil =>
      cases related
      exact .nil
  | cons head tail ih =>
      cases related with
      | cons next rest => exact .cons (keeps _ _ _ head next) (ih rest)

def finishedDirs (s : Daemon config) : List Dir :=
  s.closed.map (fun session => session.dir) ++ (s.stop.map fun call => call.phase.finished).getD []

def writing (s : Daemon config) : List Bytes := (s.service.writer.map WriterRun.written).getD []

/-- The files of the finished sessions hold the frames that were stored, or some of them, in the
order in which these were stored; `Files` says how the frames of a session are in its directory. -/
def FiledInOrder (Files : List (List Bytes) → Dir → Prop)
    (Within : List Bytes → List Bytes → Prop) (s : Daemon config)
    (trace : FrameTrace config.maxPayloadBytes) : Prop :=
  ∃ sessions : List (List (List Bytes)), List.Forall₂ Files sessions s.finishedDirs ∧
    Within (sessions.flatten.flatten ++ s.writing) (trace.stored.map ContractFrame.bytes)

def ReleasesFiled (Files : List (List Bytes) → Dir → Prop) (s : Daemon config) : Prop :=
  ∀ call summary counted, s.stop = some call → call.phase = .summarized summary counted →
    ∀ run, s.service.writer = some run →
      ∃ segments : List (List Bytes), segments.flatten = run.written ∧
      Files segments run.writer.dir

theorem Sound.releasesFiled {s : Daemon config} (sound : Sound s) : ReleasesFiled ChunksOf s := by
  intro call summary counted running here run writer
  cases sound with
  | gone noBuffer noWriter => exact absurd (noWriter.symm.trans writer) (Option.some_ne_none _).symm
  | failed free error => exact absurd (free.symm.trans running) (Option.some_ne_none _).symm
  | live buffer run' queue held live =>
      obtain rfl := Option.some.inj (held.symm.trans writer)
      exact live.filed

def DropsUnfinished (Within : List Bytes → List Bytes → Prop) (s : Daemon config) : Prop :=
  s.stop = none → s.service.state ≠ .kRecording →
    ∀ frames stored, Within (frames ++ s.writing) stored → Within frames stored

theorem dropsUnfinished_sublist (s : Daemon config) : DropsUnfinished List.Sublist s :=
  fun _ _ _ _ =>
  (List.sublist_append_left _ _).trans

namespace FiledInOrder
variable {Files : List (List Bytes) → Dir → Prop}
  {Within : List Bytes → List Bytes → Prop} {s s' : Daemon config}
  {trace : FrameTrace config.maxPayloadBytes}

theorem init (same : Within [] []) : FiledInOrder Files Within ({} : Daemon config) {} :=
  ⟨[], .nil, same⟩

theorem keepFiles (kept : FiledInOrder Files Within s trace)
    (appends : ∀ frames stored more, Within frames stored →
      Within (frames ++ more) (stored ++ more))
    (drops : DropsUnfinished Within s) {e : Event} (moves : WriterMoves s e s')
    (stays : s'.service.writer = none → s.service.writer = none)
    (still : ∀ sessions, List.Forall₂ Files sessions s.finishedDirs →
      List.Forall₂ Files sessions s'.finishedDirs) :
    FiledInOrder Files Within s' (s.note e trace) := by
  obtain ⟨sessions, files, order⟩ := kept
  refine ⟨sessions, still sessions files, ?_⟩
  show Within _ ((trace.stored ++ s.stores e).map ContractFrame.bytes)
  rw [List.map_append]
  cases writer : s'.service.writer with
  | none =>
      have before := stays writer
      rw [writing, before] at order
      rw [writing, writer, stores_unwritten before, List.map_nil, List.append_nil]
      exact order
  | some run' =>
      rw [writing, writer, Option.map_some, Option.getD_some]
      rcases moves run' writer with start | ⟨run, held, move⟩
      · obtain ⟨io, rfl⟩ := start.fresh
        have none : ((WriterRun.fresh config io.now).step (.open io.openIo)).written = [] := rfl
        rw [none, List.append_nil, start.none, List.map_nil, List.append_nil]
        exact drops start.free start.idle _ _ order
      · rw [writing, held, Option.map_some, Option.getD_some] at order
        rw [move.written held, ← List.append_assoc]
        exact appends _ _ _ order

theorem keep (kept : FiledInOrder Files Within s trace)
    (appends : ∀ frames stored more, Within frames stored →
      Within (frames ++ more) (stored ++ more))
    (drops : DropsUnfinished Within s) {e : Event} (moves : WriterMoves s e s')
    (stays : s'.service.writer = none → s.service.writer = none)
    (same : s'.finishedDirs = s.finishedDirs) :
    FiledInOrder Files Within s' (s.note e trace) :=
  kept.keepFiles appends drops moves stays fun _ files => same.symm ▸ files

theorem finishedDirs_report
    (keeps : ∀ segments dir writes, Files segments dir → Files segments (dir.withTexts writes))
    (io : ReportIo) (sessions : List (List (List Bytes)))
    (files : List.Forall₂ Files sessions s.finishedDirs) :
    List.Forall₂ Files sessions (s.report io).finishedDirs := by
  have again : List.Forall₂ (fun dir dir' : Dir => ∃ more, dir' = dir.withTexts more) s.finishedDirs
      (s.report io).finishedDirs := by
    refine List.rel_append (List.forall₂_map_left_iff.mpr (List.forall₂_map_right_iff.mpr ?_))
      (List.forall₂_same.mpr fun dir _ => ⟨[], rfl⟩)
    refine (s.closed_report io).imp fun session session' ⟨more, _, rewritten⟩ => ⟨more, ?_⟩
    rw [rewritten, ClosedSession.dir_addTexts]
  refine forall₂_related (fun segments dir dir' here ⟨more, rewritten⟩ => ?_) files again
  rw [rewritten]
  exact keeps segments dir more here

theorem step (kept : FiledInOrder Files Within s trace)
    (keeps : ∀ segments dir writes, Files segments dir → Files segments (dir.withTexts writes))
    (appends : ∀ frames stored more, Within frames stored →
      Within (frames ++ more) (stored ++ more))
    (drops : DropsUnfinished Within s) (shape : Shape s) (filed : ReleasesFiled Files s) {e : Event}
    (moved : s.step e = some s') : FiledInOrder Files Within s' (s.note e trace) := by
  have moves := moves_step shape moved
  have keep := kept.keep appends drops moves
  have move := move_of_step moved
  have free (none : s.stop = none)
      (still : (s'.stop.map fun call => call.phase.finished).getD [] = [])
      (closed : s'.closed = s.closed) : s'.finishedDirs = s.finishedDirs := by
    rw [finishedDirs, finishedDirs, closed, still, none]
    rfl
  have same (stop : s'.stop = s.stop)
      (closed : s'.closed = s.closed) : s'.finishedDirs = s.finishedDirs := by
    rw [finishedDirs, finishedDirs, closed, stop]
  cases move with
  | advance io call running move =>
      have phase := shape.busy call running
      have goes {call' : StopCall config.maxPayloadBytes} (here : call.phase.finished = [])
          (after : s'.stop = some call')
          (still : call'.phase.finished = []) (closed : s'.closed = s.closed)
          (stays : s'.service.writer = none → s.service.writer = none) :
          FiledInOrder Files Within s' (s.note (.stopStep io) trace) := by
        refine keep stays ?_
        rw [finishedDirs, finishedDirs, closed, after, running]
        exact congrArg (s.closed.map _ ++ ·) (still.trans here.symm)
      cases move with
      | write attempt frame here =>
          rw [here] at phase
          obtain ⟨-, ⟨log, -, writer⟩, -⟩ := phase
          obtain ⟨run, held⟩ := Option.isSome_iff_exists.mp writer
          rcases drainWrite_cases held log io.write call attempt frame with ⟨-, next⟩ | ⟨-, next⟩
          all_goals
            rw [next] at goes ⊢
            exact goes (by rw [here]; rfl) (goTo_stop ..) rfl rfl fun gone =>
              absurd gone (Option.some_ne_none _)
      | release summary counted here =>
          rw [here] at phase
          obtain ⟨run, writer⟩ := Option.isSome_iff_exists.mp phase.2.1.2.2
          obtain ⟨segments, frames, chunks⟩ := filed call summary counted running here run writer
          obtain ⟨sessions, files, order⟩ := kept
          have before : s.finishedDirs = s.closed.map (fun session => session.dir) := by
            rw [finishedDirs, running, Option.map_some, Option.getD_some, here]
            exact List.append_nil _
          have after : (s.release io call summary counted).finishedDirs =
              s.closed.map (fun session => session.dir) ++
                [run.writer.dir.withTexts (s.service.writeRuntimeReport io.report).side] := by
            show _ ++ [((s.service.writeRuntimeReport io.report).finished
              summary call.manifest).dir] = _
            rw [RuntimeService.dir_finished (s := s.service.writeRuntimeReport io.report) writer]
            rfl
          refine ⟨sessions ++ [segments], ?_, ?_⟩
          · rw [after]
            exact List.rel_append (before ▸ files) (.cons (keeps _ _ _ chunks) .nil)
          · show Within ((sessions ++ [segments]).flatten.flatten ++ [])
              ((trace.stored ++ s.stores (.stopStep io)).map ContractFrame.bytes)
            rw [writing, writer, Option.map_some, Option.getD_some, ← frames] at order
            rw [stores_stop running (by rw [here]; rfl), List.append_nil,
              List.append_nil, List.flatten_append, List.flatten_append, List.flatten_singleton]
            exact order
      | finish session counted here =>
          rw [here] at phase
          refine keep (fun _ => phase.2.2.1) ?_
          rw [finishedDirs, finishedDirs, running, Option.map_some, Option.getD_some, here]
          show (s.closed ++ [_]).map _ ++ [] = _
          rw [List.map_append, List.append_nil]
          rfl
      | enter here => exact goes (by rw [here]; rfl) (goTo_stop ..) rfl rfl id
      | wait i here => exact goes (by rw [here]; rfl) (goTo_stop ..) rfl rfl id
      | waited i here => exact goes (by rw [here]; rfl) (goTo_stop ..) rfl rfl id
      | unequipped here exited missing => exact goes (by rw [here]; rfl) (goTo_stop ..) rfl rfl id
      | joined here exited => exact goes (by rw [here]; rfl) (goTo_stop ..) rfl rfl id
      | empty attempt wroteAny here none => exact goes (by rw [here]; rfl) (goTo_stop ..) rfl rfl id
      | take attempt wroteAny here frame rest popped =>
          exact goes (by rw [here]; rfl) (goTo_stop ..) rfl rfl id
      | again attempt wroteAny here more => exact goes (by rw [here]; rfl) (goTo_stop ..) rfl rfl id
      | leave attempt wroteAny here done => exact goes (by rw [here]; rfl) (goTo_stop ..) rfl rfl id
      | close here =>
          exact goes (by rw [here]; rfl) (goTo_stop ..) rfl rfl Option.map_eq_none_iff.mp
      | mark here => exact goes (by rw [here]; rfl) (goTo_stop ..) rfl rfl id
      | summarize here => exact goes (by rw [here]; rfl) (goTo_stop ..) rfl rfl id
  | start io none pc fits =>
      rcases s.startRecording_cases io with ⟨-, made⟩ | ⟨-, _, -, made⟩ | ⟨-, -, _, -, -, made⟩
      all_goals rw [made] at keep same ⊢
      · exact keep id (same rfl rfl)
      · exact keep (fun gone => absurd gone (Option.some_ne_none _)) (same rfl rfl)
      · exact keep (fun gone => absurd gone (Option.some_ne_none _)) (same rfl rfl)
  | stop none fromRx reason calls =>
      rcases s.stopRecording_cases fromRx reason with ⟨next, -⟩ | ⟨next, -⟩
      all_goals
        rw [next] at keep free ⊢
        exact keep id (free none rfl rfl)
  | count io frame here =>
      have writer := (RuntimeService.sameSession_countFrame frame.header s.service).writer
      exact keep (fun gone => writer.symm.trans gone) (same rfl rfl)
  | push io frame here buffer held =>
      obtain ⟨diagnostics, -, pushed⟩ := RuntimeService.pushFrame_some held frame
      rw [pushed] at keep same ⊢
      exact keep id (same rfl rfl)
  | write io frame here =>
      obtain ⟨⟨log, -, writer⟩, -⟩ := shape.holding here
      obtain ⟨run, held⟩ := Option.isSome_iff_exists.mp writer
      rcases writeHeld_cases held log io frame with ⟨-, next⟩ | ⟨-, next⟩
      all_goals
        rw [next] at keep same ⊢
        exact keep (fun gone => absurd gone (Option.some_ne_none _)) (same rfl rfl)
  | report io running => exact kept.keepFiles appends drops moves id (finishedDirs_report keeps io)
  | _ => exact keep id (same rfl rfl)

end FiledInOrder

/-- In every run the frames that were written and the ones on their way are some of the valid frames
received, in the order in which they came. -/
theorem recorded_in_order {p : Daemon config × FrameTrace config.maxPayloadBytes}
    (reached : (tracedDaemon config).Reach (fun _ _ => True) p) : InOrder p.1 p.2 :=
  (inOrder_of_reach reached).2

theorem filedInOrder_of_reach {p : Daemon config × FrameTrace config.maxPayloadBytes}
    (reached : (tracedDaemon config).Reach (fun p e => KeepsFrames p.1 e) p) :
    FiledInOrder ChunksOf List.Sublist p.1 p.2 := by
  refine (reached.invariant
    (I := fun p => Shape p.1 ∧ Sound p.1 ∧ FiledInOrder ChunksOf List.Sublist p.1 p.2)
    (fun p start => ?_) fun p e q kept moved allowed => ?_).2.2
  · cases start
    exact ⟨.init, .init, .init (.refl _)⟩
  · obtain ⟨shape, sound, filed⟩ := kept
    obtain ⟨moved, noted⟩ := Machine.recording_eq_some moved
    have move := move_of_step moved
    rw [noted]
    exact ⟨shape.step move, sound.step shape move allowed, filed.step
      (fun _ dir writes files => files.transfer (.withTexts writes dir))
        (fun _ _ more within => within.append_right more)
      (dropsUnfinished_sublist _) shape sound.releasesFiled moved⟩

/-- The chunk files of the sessions that were stopped, session after session and chunk after chunk,
hold some of the valid frames received, in the order in which they came. -/
theorem filed_in_order {p : Daemon config × FrameTrace config.maxPayloadBytes}
    (reached : (tracedDaemon config).Reach (fun p e => KeepsFrames p.1 e) p) :
    ∃ sessions : List (List (List Bytes)),
      List.Forall₂ (fun segments session => ChunksOf segments session.dir) sessions p.1.closed ∧
      sessions.flatten.flatten.Sublist (p.2.received.map ContractFrame.bytes) := by
  obtain ⟨sessions, files, order⟩ := filedInOrder_of_reach reached
  have stored : (p.2.stored.map ContractFrame.bytes).Sublist
      (p.2.received.map ContractFrame.bytes) :=
    ((List.sublist_append_left _ _).trans (inOrder_of_reach reached).2.order).map _
  have closed := List.forall₂_take_append sessions _ _ files
  refine ⟨sessions.take p.1.closed.length, ?_, ?_⟩
  · rw [List.length_map] at closed
    exact List.forall₂_map_right_iff.mp closed
  · have kept : (sessions.take p.1.closed.length).flatten.flatten.Sublist
        sessions.flatten.flatten :=
      (List.take_sublist _ _).flatten.flatten
    exact kept.trans ((List.sublist_append_left _ _).trans (order.trans stored))

def recordedTrace : Daemon sampleConfig × FrameTrace sampleConfig.maxPayloadBytes :=
  (twoSessions.foldlM (Machine.recording step note) ({}, {})).getD ({}, {})

theorem recordedTrace_keepsFrames :
    (twoSessions.foldlM (Machine.recording step note)
      (({}, {}) : Daemon sampleConfig × FrameTrace _)).isSome = true ∧
    Machine.AllowedAlong (fun p e => KeepsFrames p.1 e) (Machine.recording step note)
      (({}, {}) : Daemon sampleConfig × FrameTrace _) twoSessions ∧
    recordedTrace.2.received.map (fun frame => frame.header.seq) = [1, 2, 20, 21, 22, 23] ∧
    recordedTrace.2.stored.map (fun frame => frame.header.seq) = [1, 2, 20, 21, 23] ∧
    recordedTrace.1.closed.length = 2 := by
  decide +kernel

theorem recordedTrace_reach {allowed : Daemon sampleConfig × FrameTrace _ → Event → Prop}
    (ok : Machine.AllowedAlong allowed (Machine.recording step note) ({}, {}) twoSessions) :
    (tracedDaemon sampleConfig).Reach allowed recordedTrace := by
  refine .foldlM ?_ ok
  obtain ⟨p, found⟩ := Option.isSome_iff_exists.mp recordedTrace_keepsFrames.1
  rw [recordedTrace, found]
  rfl

theorem recordedTrace_in_order :
    recordedTrace.2.received.map (fun frame => frame.header.seq) = [1, 2, 20, 21, 22, 23] ∧
    recordedTrace.2.stored.map (fun frame => frame.header.seq) = [1, 2, 20, 21, 23] ∧
    InOrder recordedTrace.1 recordedTrace.2 := by
  obtain ⟨-, -, received, stored, -⟩ := recordedTrace_keepsFrames
  exact ⟨received, stored, recorded_in_order (recordedTrace_reach (Machine.allowedAlong_true ..))⟩

theorem recordedTrace_filed : recordedTrace.1.closed.length = 2 ∧ ∃ sessions :
    List (List (List Bytes)),
    List.Forall₂
      (fun segments session => ChunksOf segments session.dir) sessions recordedTrace.1.closed ∧
    sessions.flatten.flatten.Sublist (recordedTrace.2.received.map ContractFrame.bytes) := by
  obtain ⟨-, keeps, -, -, closed⟩ := recordedTrace_keepsFrames
  exact ⟨closed, filed_in_order (recordedTrace_reach keeps)⟩

end Daemon
end LocalPC.Runtime
