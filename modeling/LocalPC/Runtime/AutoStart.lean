import Mathlib.Logic.Relation
import LocalPC.Runtime.DaemonInvariant

namespace LocalPC.Runtime
open Lib Contract

namespace Daemon
variable {config : RuntimeConfig}

def Serving (io : StartIo) (s t : Daemon config) : Prop :=
  s.rx ≠ .idle ∧ (s.step (.rx io) = some t ∨ ∃ w, s.step (.writer w) = some t)

/-- A call of `OnContractFrame` takes the daemon from `s` to `t`, beside the writer thread. -/
def OnContractFrame (io : StartIo) (bytes : Bytes) (s t : Daemon config) : Prop :=
  t.rx = .idle ∧ ∃ r, s.step (.receive bytes) = some r ∧ Relation.ReflTransGen (Serving io) r t

def Writing (w : WriteIo) (s t : Daemon config) : Prop := s.step (.writer w) = some t

structure AtRest (s : Daemon config) : Prop where
  rx : s.rx = .idle
  stop : s.stop = none
  state : s.service.state ≠ .kRecording

instance {m : UInt32} (pc : RxPc m) : Decidable (pc = .idle) :=
  match pc with
  | .idle => .isTrue rfl
  | .received _ | .starting _ | .dispatched _ | .ending | .counted _ | .accepted _ => .isFalse nofun

instance (s : Daemon config) : Decidable s.AtRest :=
  decidable_of_iff (s.rx = .idle ∧ s.stop = none ∧ s.service.state ≠ .kRecording)
    ⟨fun h => ⟨h.1, h.2.1, h.2.2⟩, fun h => ⟨h.rx, h.stop, h.state⟩⟩

/-- A session that was not there in `s` is being recorded, in a directory of its own. -/
structure NewSession (io : StartIo) (s t : Daemon config) : Prop where
  state : t.service.state = .kRecording
  id : t.service.sessions.activeId = some s.service.sessions.ids
  opened : t.opened = s.opened ++ [s.service.sessions.ids]
  fresh : s.service.sessions.ids ∉ s.opened
  writer : t.service.writer = some ((WriterRun.fresh config io.now).step (.open io.openIo))

def Stores (w : WriteIo) (frame : ContractFrame config.maxPayloadBytes)
    (t : Daemon config) : Prop :=
  ∃ u run, Relation.ReflTransGen (Writing w) t u ∧ u.service.writer = some run ∧
    run.written = [frame.bytes]

structure Records (frame : ContractFrame config.maxPayloadBytes) (t : Daemon config) : Prop where
  buffered : ∃ buffer, t.service.buffer = some buffer ∧ buffer.queue = [frame]
  stored : ∀ w run, t.service.writer = some run →
    (run.writer.writeContractFrame w frame.bytes).1 = true →
    Stores w frame t

/-- The frame starts a session and is recorded in it, whenever the call returns; and it returns. -/
def StartsSession (io : StartIo) (frame : ContractFrame config.maxPayloadBytes)
    (s : Daemon config) : Prop :=
  (∃ t, OnContractFrame io frame.bytes s t) ∧
  ∀ t, OnContractFrame io frame.bytes s t → NewSession io s t ∧ Records frame t

def Numbered (s : Daemon config) : Prop := ∀ id ∈ s.opened, id < s.service.sessions.ids

end Daemon

namespace SessionManager

@[simp] theorem ids_stop (reason : Bytes) (s : SessionManager) : (s.stop reason).2.ids = s.ids := by
  unfold stop
  split
  · rfl
  · split <;> rfl

end SessionManager

namespace Daemon
variable {config : RuntimeConfig} {s s' : Daemon config}

theorem Numbered.same (numbered : s.Numbered)
    (ids : s'.service.sessions.ids = s.service.sessions.ids) (opened : s'.opened = s.opened) :
    s'.Numbered := by
  unfold Numbered
  rw [ids, opened]
  exact numbered

theorem sessions_writeFrame (io : WriteIo) (frame : Bytes) (s : RuntimeService config) :
    (s.writeFrame io frame).2.sessions = s.sessions := by
  unfold RuntimeService.writeFrame
  split
  · rfl
  · dsimp only
    split <;> rfl

theorem ids_writeFailed (s : RuntimeService config) :
    s.writeFailed.sessions.ids = s.sessions.ids := by
  unfold RuntimeService.writeFailed
  split <;> rfl

theorem ids_startRecording {s : RuntimeService config}
    (idle : s.state ≠ .kRecording) (io : StartIo) :
    (s.startRecording io).2.sessions.ids = s.sessions.ids + 1 := by
  have made : s.sessions.start config io.clock = (.kOk, _) := if_neg idle
  unfold RuntimeService.startRecording
  rw [made]
  dsimp only
  split <;> rfl

theorem Numbered.startRecording (numbered : s.Numbered) (io : StartIo) :
    (s.startRecording io).Numbered := by
  by_cases recording : s.service.state = .kRecording
  · rcases s.startRecording_cases io with ⟨-, same⟩ | ⟨idle, -⟩ | ⟨idle, -⟩
    · rw [same]
      exact numbered
    all_goals exact absurd recording idle
  · have next := ids_startRecording recording io
    have older (id : Nat) (member : id ∈ s.opened) : id <
        (s.service.startRecording io).2.sessions.ids :=
      next ▸ Nat.lt_succ_of_lt (numbered id member)
    unfold Daemon.startRecording
    dsimp only
    split
    · exact numbered
    · intro id member
      dsimp only at member
      split at member
      · rcases List.mem_append.mp member with old | new
        · exact older id old
        · rw [List.mem_singleton.mp new]
          exact next ▸ Nat.lt_succ_self _
      · exact older id member

theorem Numbered.advance (numbered : s.Numbered) {io : StopIo}
    {call : StopCall config.maxPayloadBytes} (move : StopMove io call s s') : s'.Numbered := by
  cases move with
  | enter here => exact numbered.same (SessionManager.ids_stop ..) rfl
  | write attempt frame here =>
      unfold drainWrite
      dsimp only
      split
      · exact numbered.same (congrArg SessionManager.ids (sessions_writeFrame ..)) rfl
      · split
        · exact numbered.same
            ((ids_writeFailed _).trans (congrArg SessionManager.ids (sessions_writeFrame ..))) rfl
        · exact numbered.same (congrArg SessionManager.ids (sessions_writeFrame ..)) rfl
  | _ => exact numbered.same rfl rfl

theorem Numbered.step (numbered : s.Numbered) {e : Event} (move : Move s e s') : s'.Numbered := by
  cases move with
  | count io frame here =>
      exact numbered.same
        (congrArg SessionManager.ids (RuntimeService.sameSession_countFrame ..).sessions) rfl
  | push io frame here buffer held =>
      obtain ⟨diagnostics, -, pushed⟩ := RuntimeService.pushFrame_some held frame
      rw [pushed]
      exact numbered.same rfl rfl
  | start io free pc same => exact numbered.startRecording io
  | stop free fromRx reason calls =>
      rcases s.stopRecording_cases fromRx reason with ⟨refused, -⟩ | ⟨entered, -⟩
      · rw [refused]
        exact numbered.same rfl rfl
      · rw [entered]
        exact numbered.same rfl rfl
  | write io frame here =>
      unfold writeHeld
      dsimp only
      split
      · exact numbered.same (congrArg SessionManager.ids (sessions_writeFrame ..)) rfl
      · exact numbered.same
          ((ids_writeFailed _).trans (congrArg SessionManager.ids (sessions_writeFrame ..))) rfl
  | advance io call running move => exact numbered.advance move
  | _ => exact numbered.same rfl rfl

theorem numbered_of_reach {allowed : Daemon config → Event → Prop}
    (reached : (daemonMachine config).Reach allowed s) :
    s.Numbered :=
  reached.invariant (fun _ start => by cases start; exact nofun) fun _ _ _ numbered moved _ =>
    numbered.step (move_of_step moved)

theorem writerStep_calm {w : WriteIo} {t : Daemon config}
    (calm : s.writerThread.Resting ∨ s.writerThread.held = [] ∧
      s.service.buffer.bind PacketBuffer.pop = none)
    (moved : s.step (.writer w) = some t) :
    ∃ thread, thread.held = [] ∧ t = { s with writerThread := thread } := by
  cases here : s.writerThread with
  | top =>
      simp only [step, writerStep, here, Option.some.injEq] at moved
      exact ⟨_, by split <;> rfl, moved.symm⟩
  | looping =>
      simp only [step, writerStep, here, Option.some.injEq] at moved
      exact ⟨_, by split <;> rfl, moved.symm⟩
  | polled state =>
      have empty : s.service.buffer.bind PacketBuffer.pop = none := by
        rcases calm with resting | empty
        · rw [here] at resting
          exact resting.elim
        · exact empty.2
      simp only [step, writerStep, here, poll, empty, Option.some.injEq, ite_self] at moved
      exact ⟨_, by split <;> rfl, moved.symm⟩
  | holding frame =>
      rcases calm with resting | empty
      · rw [here] at resting
        exact resting.elim
      · rw [here] at empty
        cases empty.1
  | exited =>
      simp only [step, writerStep, here] at moved
      cases moved

structure Buffered (frame : ContractFrame config.maxPayloadBytes) (run : WriterRun)
    (service : RuntimeService config) :
    Prop where
  state : service.state = .kRecording
  writer : service.writer = some run
  empty : run.written = []
  buffer : ∃ buffer, service.buffer = some buffer ∧ buffer.queue = [frame]

section Storing
variable {frame : ContractFrame config.maxPayloadBytes} {run : WriterRun} {w : WriteIo}

theorem stores_polled (buffered : Buffered frame run s.service)
    (ok : (run.writer.writeContractFrame w frame.bytes).1 = true) {state : SessionState}
    (here : s.writerThread = .polled state) : Stores w frame s := by
  obtain ⟨buffer, held, queue⟩ := buffered.buffer
  let rest : PacketBuffer (ContractFrame config.maxPayloadBytes) :=
    { buffer with queue := [], totalBytes := buffer.totalBytes - frame.bytes.length }
  have popped : buffer.pop = some (frame, rest) := by
    unfold PacketBuffer.pop
    rw [queue]
    rfl
  let taken : Daemon config :=
    { s with service := { s.service with buffer := some rest }, writerThread := .holding frame }
  have take : Writing w s taken := by
    simp [Writing, step, writerStep, here, poll, buffered.writer, held, popped, taken]
  have write : Writing w taken (taken.writeHeld w frame) := rfl
  have writer : taken.service.writer = some run := buffered.writer
  refine ⟨_, run.step (.write w frame.bytes), .head take (.single write), ?_, ?_⟩
  · unfold writeHeld
    dsimp only
    rw [RuntimeService.writeFrame_some writer, if_pos ok]
    rfl
  · simp [WriterRun.step, WriterCall.written, ok, buffered.empty]

theorem stores_looping (buffered : Buffered frame run s.service)
    (ok : (run.writer.writeContractFrame w frame.bytes).1 = true)
    (here : s.writerThread = .looping) :
    Stores w frame s := by
  have look : Writing w s { s with writerThread := .polled .kRecording } := by
    simp [Writing, step, writerStep, here, buffered.state]
  obtain ⟨t, last, steps, result⟩ :=
    stores_polled (s := { s with writerThread := .polled .kRecording }) buffered ok rfl
  exact ⟨t, last, .head look steps, result⟩

theorem stores_top (buffered : Buffered frame run s.service)
    (ok : (run.writer.writeContractFrame w frame.bytes).1 = true) (here : s.writerThread = .top)
    (runs : s.service.stopThreads = false) : Stores w frame s := by
  have start : Writing w s { s with writerThread := .looping } := by
    simp [Writing, step, writerStep, here, runs]
  obtain ⟨t, last, steps, result⟩ :=
    stores_looping (s := { s with writerThread := .looping }) buffered ok rfl
  exact ⟨t, last, .head start steps, result⟩

theorem stores_of_buffered (shape : Shape s) (free : s.stop = none)
    (buffered : Buffered frame run s.service) (thread : s.writerThread.held = [])
    (ok : (run.writer.writeContractFrame w frame.bytes).1 = true) :
    Stores w frame s := by
  have working := (shape.recording free buffered.state).2
  cases here : s.writerThread with
  | top => exact stores_top buffered ok here (shape.free free).1
  | looping => exact stores_looping buffered ok here
  | polled state => exact stores_polled buffered ok here
  | holding frame =>
      rw [here] at thread
      cases thread
  | exited =>
      rw [here] at working
      exact working.elim

end Storing

inductive Starting (io : StartIo)
    (frame : ContractFrame config.maxPayloadBytes) (s : Daemon config) :
    Daemon config → Prop
  | waiting (pc : RxPc config.maxPayloadBytes) (thread : WriterPc config.maxPayloadBytes)
      (held : thread.held = []) (here : pc = .received frame ∨ pc = .starting frame) :
      Starting io frame s { s with rx := pc, writerThread := thread }
  | started (t : Daemon config) (session : NewSession io s t) (free : t.stop = none)
      (thread : t.writerThread.held = [])
      (buffer : ∃ buffer, t.service.buffer = some buffer ∧ buffer.queue = [])
      (here : t.rx = .dispatched frame ∨ t.rx = .counted frame ∨ t.rx = .accepted frame) :
      Starting io frame s t
  | recorded (t : Daemon config) (session : NewSession io s t) (free : t.stop = none)
      (thread : t.writerThread.held = [])
      (buffer : ∃ buffer, t.service.buffer = some buffer ∧ buffer.queue = [frame])
      (idle : t.rx = .idle) :
      Starting io frame s t

theorem NewSession.transfer {io : StartIo} {t t' : Daemon config} (session : NewSession io s t)
    (sessions : t'.service.sessions = t.service.sessions) (opened : t'.opened = t.opened)
    (writer : t'.service.writer = t.service.writer) : NewSession io s t' where
  state := (congrArg SessionManager.state sessions).trans session.state
  id := (congrArg SessionManager.activeId sessions).trans session.id
  opened := opened.trans session.opened
  fresh := session.fresh
  writer := writer.trans session.writer

theorem push_empty {m : UInt32} {buffer : PacketBuffer (ContractFrame m)}
    (empty : buffer.queue = []) (frame : ContractFrame m) :
    (buffer.push frame).queue = [frame] := by
  unfold PacketBuffer.push
  rw [empty]
  rfl

theorem endsSession_started {frame : ContractFrame config.maxPayloadBytes}
    (kind : frame.header.frameType = sessionStarted) (service : RuntimeService config) :
    service.endsSession frame.header = false := by
  unfold RuntimeService.endsSession
  rw [kind, decide_eq_false (by decide : sessionStarted ≠ sessionEnded), Bool.false_and]

theorem startRecording_opens {io : StartIo} (opens : RuntimeService.opens config io = true)
    (idle : s.service.state ≠ .kRecording) :
    ∃ sessions :
    SessionManager, sessions.state = .kRecording ∧ sessions.activeId = some s.service.sessions.ids ∧
      s.startRecording io = { s with
        service := { RuntimeService.equip io
          { s.service with
            sessions, seenTs := false, lastTsNs := 0, seqInitialized := false, lastSeq := 0 } with
          side := RuntimeService.startTexts config io }
        ledger := { base := s.service.diagnostics }
        opened := s.opened ++ [s.service.sessions.ids] } := by
  let sessions : SessionManager :=
    { active := some (.fresh config io.clock s.service.sessions.ids),
      ids := s.service.sessions.ids + 1 }
  have made : s.service.sessions.start config io.clock = (.kOk, sessions) := if_neg idle
  refine ⟨sessions, rfl, rfl, ?_⟩
  unfold Daemon.startRecording RuntimeService.startRecording
  rw [made]
  simp only [opens, Bool.not_true, Bool.false_eq_true, if_false]
  rfl

theorem Starting.rx {io : StartIo} {frame : ContractFrame config.maxPayloadBytes}
    (on : config.autoStartOnSessionStarted = true) (kind : frame.header.frameType = sessionStarted)
    (opens : RuntimeService.opens config io = true) (numbered : s.Numbered) (free : s.stop = none)
    (idle : s.service.state = .kIdle) {t t' : Daemon config}
    (starting : Starting io frame s t) (moved : t.step (.rx io) = some t') :
    Starting io frame s t' := by
  cases starting with
  | waiting pc thread held here =>
      rcases here with rfl | rfl
      · have starts : s.service.autoStarts frame.header = true := by
          unfold RuntimeService.autoStarts
          simp [on, idle, kind]
        simp only [step, rxStep, starts, if_true, Option.some.injEq] at moved
        exact moved ▸ .waiting _ thread held (Or.inr rfl)
      · have notRecording : s.service.state ≠ .kRecording := by
          rw [idle]
          decide
        obtain ⟨sessions, state, id, made⟩ :=
          startRecording_opens
            (s := { s with rx := .starting frame, writerThread := thread }) opens notRecording
        simp only [step, rxStep, free, Option.isSome_none, Bool.false_eq_true, if_false,
          Option.some.injEq] at moved
        simp only [free] at made
        rw [made] at moved
        subst moved
        exact .started _ ⟨state, id, rfl, fun member => (numbered _ member).false, rfl⟩ rfl held
          ⟨_, rfl, rfl⟩ (Or.inl rfl)
  | started t session free' thread' buffer here =>
      obtain ⟨buffer, held, empty⟩ := buffer
      rcases here with here | here | here
      · have same := RuntimeService.sameSession_countFrame frame.header t.service
        simp only [step, rxStep, here, dispatch, endsSession_started kind,
          Bool.false_eq_true, if_false, Option.some.injEq] at moved
        subst moved
        exact .started _ (session.transfer same.sessions rfl same.writer) free' thread'
          ⟨buffer, same.buffer.trans held, empty⟩ (Or.inr (Or.inl rfl))
      · simp only [step, rxStep, here, check, session.state, ne_eq, not_true, if_false,
          Option.some.injEq] at moved
        subst moved
        exact .started _ (session.transfer rfl rfl rfl) free' thread'
          ⟨buffer, held, empty⟩ (Or.inr (Or.inr rfl))
      · obtain ⟨diagnostics, -, pushed⟩ := RuntimeService.pushFrame_some held frame
        simp only [step, rxStep, here, push, held, pushed, Option.some.injEq] at moved
        subst moved
        exact .recorded _ (session.transfer rfl rfl rfl) free' thread'
          ⟨_, rfl, push_empty empty frame⟩ rfl
  | recorded t session free' thread' buffer idle' =>
      simp only [step, rxStep, idle'] at moved
      cases moved

theorem Starting.writer {io : StartIo} {frame : ContractFrame config.maxPayloadBytes}
    {w : WriteIo} {t t' : Daemon config} (shape : Shape t) (free : s.stop = none)
    (idle : s.service.state = .kIdle) (busy : t.rx ≠ .idle) (starting : Starting io frame s t)
    (moved : t.step (.writer w) = some t') : Starting io frame s t' := by
  cases starting with
  | waiting pc thread held here =>
      have resting :=
        shape.resting free fun recording => absurd (idle.symm.trans recording) (by decide)
      obtain ⟨thread', held', same⟩ := writerStep_calm (Or.inl resting) moved
      rw [same]
      exact .waiting pc thread' held' here
  | started t session free' thread buffer here =>
      obtain ⟨buffer', held, empty⟩ := buffer
      have nothing : t.service.buffer.bind PacketBuffer.pop = none := by
        simp [held, PacketBuffer.pop, empty]
      obtain ⟨thread', held', same⟩ := writerStep_calm (Or.inr ⟨thread, nothing⟩) moved
      rw [same]
      exact .started _ (session.transfer rfl rfl rfl) free' held' ⟨buffer', held, empty⟩ here
  | recorded t session free' thread buffer idle' => exact absurd idle' busy

def Returns (io : StartIo) (s : Daemon config) : Prop :=
  ∃ t, t.rx = .idle ∧ Relation.ReflTransGen (Serving io) s t

section Returning
variable {io : StartIo} {frame : ContractFrame config.maxPayloadBytes}

theorem Returns.rx {t : Daemon config} (busy : s.rx ≠ .idle) (moved : s.step (.rx io) = some t)
    (returns : Returns io t) :
    Returns io s := by
  obtain ⟨u, idle, steps⟩ := returns
  exact ⟨u, idle, .head ⟨busy, Or.inl moved⟩ steps⟩

theorem returns_accepted (here : s.rx = .accepted frame) : Returns io s := by
  refine .rx (t := s.push frame) (by rw [here]; nofun)
    (by simp only [step, rxStep, here]) ⟨_, ?_, .refl⟩
  unfold push
  split <;> rfl

theorem returns_counted (here : s.rx = .counted frame) : Returns io s := by
  refine .rx (t := s.check frame) (by rw [here]; nofun) (by simp only [step, rxStep, here]) ?_
  unfold check
  split
  · exact ⟨_, rfl, .refl⟩
  · exact returns_accepted rfl

theorem returns_dispatched (kind : frame.header.frameType = sessionStarted)
    (here : s.rx = .dispatched frame) :
    Returns io s := by
  refine .rx (t := s.dispatch frame) (by rw [here]; nofun) (by simp only [step, rxStep, here]) ?_
  unfold dispatch
  rw [endsSession_started kind]
  exact returns_counted rfl

theorem returns_starting (kind : frame.header.frameType = sessionStarted) (free : s.stop = none)
    (here : s.rx = .starting frame) : Returns io s := by
  refine .rx (t := { s.startRecording io with rx := .dispatched frame }) (by rw [here]; nofun) ?_
    (returns_dispatched kind rfl)
  simp only [step, rxStep, here, free, Option.isSome_none, Bool.false_eq_true, if_false]

theorem returns_received (kind : frame.header.frameType = sessionStarted) (free : s.stop = none)
    (here : s.rx = .received frame) : Returns io s := by
  refine .rx (t :=
      { s with
        rx := if s.service.autoStarts frame.header then .starting frame else .dispatched frame })
    (by rw [here]; nofun) (by simp only [step, rxStep, here]) ?_
  by_cases starts : s.service.autoStarts frame.header = true
  · exact returns_starting kind free (if_pos starts)
  · exact returns_dispatched kind (if_neg starts)

end Returning

theorem receive_frame (frame : ContractFrame config.maxPayloadBytes) (idle : s.rx = .idle) :
    s.step (.receive frame.bytes) = some { s with rx := .received frame } := by
  simp only [step, receive, idle]
  split
  · rfl
  · rename_i error invalid
    cases frame.accepted.symm.trans invalid

theorem onContractFrame_returns {frame : ContractFrame config.maxPayloadBytes} (rest : AtRest s)
    (kind : frame.header.frameType = sessionStarted) (io : StartIo) :
    ∃ t, OnContractFrame io frame.bytes s t := by
  obtain ⟨t, idle, steps⟩ :=
    @returns_received _ { s with rx := .received frame } io _ kind rest.stop rfl
  exact ⟨t, idle, _, receive_frame frame rest.rx, steps⟩

structure Refusing (frame : ContractFrame config.maxPayloadBytes) (s t : Daemon config) : Prop where
  sessions : t.service.sessions = s.service.sessions
  free : t.stop = none
  here : t.rx = .received frame ∨ t.rx = .dispatched frame ∨ t.rx = .counted frame ∨ t.rx = .idle

theorem Refusing.serving {io : StartIo} {frame : ContractFrame config.maxPayloadBytes}
    (kind : frame.header.frameType = sessionStarted) (notIdle : s.service.state ≠ .kIdle)
    (notRecording : s.service.state ≠ .kRecording) {t t' : Daemon config} (shape : Shape t)
    (refusing : Refusing frame s t) (served : Serving io t t') : Refusing frame s t' := by
  obtain ⟨sessions, free, here⟩ := refusing
  have state : t.service.state = s.service.state := congrArg SessionManager.state sessions
  obtain ⟨busy, moved | ⟨w, moved⟩⟩ := served
  · rcases here with here | here | here | here
    · have refused : t.service.autoStarts frame.header = false := by
        unfold RuntimeService.autoStarts
        simp [state, notIdle]
      simp only [step, rxStep, here, refused, Bool.false_eq_true, if_false, Option.some.injEq]
        at moved
      exact moved ▸ ⟨sessions, free, Or.inr (Or.inl rfl)⟩
    · simp only [step, rxStep, here, dispatch, endsSession_started kind,
        Bool.false_eq_true, if_false, Option.some.injEq] at moved
      exact moved ▸ ⟨(RuntimeService.sameSession_countFrame ..).sessions.trans sessions, free,
        Or.inr (Or.inr (Or.inl rfl))⟩
    · simp only [step, rxStep, here, check, state, notRecording, ne_eq, not_false_iff, if_true,
        Option.some.injEq] at moved
      exact moved ▸ ⟨sessions, free, Or.inr (Or.inr (Or.inr rfl))⟩
    · exact absurd here busy
  · have resting := shape.resting free fun recording => notRecording (state.symm.trans recording)
    obtain ⟨thread, -, same⟩ := writerStep_calm (Or.inl resting) moved
    rw [same]
    exact ⟨sessions, free, here⟩

theorem OnContractFrame.induct {io : StartIo}
    {frame : ContractFrame config.maxPayloadBytes} {t : Daemon config} {I : Daemon config → Prop}
    (shape : Shape s) (rest : AtRest s) (start : I { s with rx := .received frame })
    (kept : ∀ u u', Shape u → I u → Serving io u u' → I u')
    (call : OnContractFrame io frame.bytes s t) :
    Shape t ∧ I t := by
  obtain ⟨-, r, received, steps⟩ := call
  cases (receive_frame frame rest.rx).symm.trans received
  have first := shape.step (move_of_step received)
  induction steps with
  | refl => exact ⟨first, start⟩
  | tail _ served ih =>
      refine ⟨?_, kept _ _ ih.1 ih.2 served⟩
      obtain ⟨-, moved | ⟨w, moved⟩⟩ := served
      · exact ih.1.step (move_of_step moved)
      · exact ih.1.step (move_of_step moved)

theorem startsSession_of_idle {io : StartIo} {frame : ContractFrame config.maxPayloadBytes}
    (on : config.autoStartOnSessionStarted = true) (kind : frame.header.frameType = sessionStarted)
    (opens : RuntimeService.opens config io = true) (numbered : s.Numbered)
    (shape : Shape s) (rest : AtRest s) (idle : s.service.state = .kIdle) :
    StartsSession io frame s := by
  refine ⟨onContractFrame_returns rest kind io, fun t call => ?_⟩
  have resting := shape.resting rest.stop rest.state
  obtain ⟨shape', starting⟩ := call.induct (I := Starting io frame s) shape rest
    (.waiting (.received frame) s.writerThread resting.held (Or.inl rfl))
      fun u u' shapeU starting served => by
      obtain ⟨busy, moved | ⟨w, moved⟩⟩ := served
      · exact starting.rx on kind opens numbered rest.stop idle moved
      · exact starting.writer shapeU rest.stop idle busy moved
  have returned := call.1
  cases starting with
  | waiting pc thread held here => rcases here with rfl | rfl <;> cases returned
  | started t session free thread buffer here =>
      rcases here with here | here | here <;> cases here.symm.trans returned
  | recorded t session free thread buffer _ =>
      refine ⟨session, buffer, fun w run held ok => ?_⟩
      have empty : run.written = [] := by
        rw [Option.some.inj (held.symm.trans session.writer)]
        rfl
      exact stores_of_buffered shape' free ⟨session.state, held, empty, buffer⟩ thread ok

theorem not_startsSession {io : StartIo} {frame : ContractFrame config.maxPayloadBytes}
    (kind : frame.header.frameType = sessionStarted) (shape : Shape s) (rest : AtRest s)
    (notIdle : s.service.state ≠ .kIdle) : ¬ StartsSession io frame s := by
  rintro ⟨⟨t, call⟩, starts⟩
  obtain ⟨-, refusing⟩ :=
    call.induct (I := Refusing frame s) shape rest ⟨rfl, rest.stop, Or.inl rfl⟩
    fun u u' shapeU refusing served => refusing.serving kind notIdle rest.state shapeU served
  have state : t.service.state = s.service.state := congrArg SessionManager.state refusing.sessions
  exact rest.state (state.symm.trans (starts t call).1.state)

/-- A `SESSION_STARTED` frame starts and opens a session if and only if there was none before. -/
theorem startsSession_iff (on : config.autoStartOnSessionStarted = true)
    (reached : (daemonMachine config).Reach (fun _ _ => True) s) (rest : AtRest s) {io : StartIo}
    (opens : RuntimeService.opens config io = true) {frame : ContractFrame config.maxPayloadBytes}
    (kind : frame.header.frameType = sessionStarted) :
    StartsSession io frame s ↔ s.service.state = .kIdle :=
  ⟨not_imp_not.mp (not_startsSession kind (shape_of_reach reached) rest),
    startsSession_of_idle on kind opens (numbered_of_reach reached) (shape_of_reach reached) rest⟩

def autoConfig : RuntimeConfig := { autoStartOnSessionStarted := true }

def startedFrame : ContractFrame autoConfig.maxPayloadBytes :=
  ⟨_, sealFrame_accepted 1 7 10 11 (by decide : [].length ≤ 65536)⟩

theorem startsSession_first : StartsSession cleanStart startedFrame ({} : Daemon autoConfig) :=
  (startsSession_iff rfl (.init rfl) ⟨rfl, rfl, nofun⟩ (by decide) (by decide)).mpr rfl

def autoStartedEvents : List Event :=
  .receive startedFrame.bytes :: List.replicate 5 (.rx cleanStart) ++
    List.replicate 4 (.writer (.clean {})) ++
    drainAll ++ finishStop

theorem autoStartedEvents_run :
    (autoStartedEvents.foldlM step ({} : Daemon autoConfig)).isSome = true := by
  decide +kernel

/-- The next frame finds the state `kClosed`. -/
theorem startsSession_second_fails :
    ∃ s : Daemon autoConfig, (daemonMachine autoConfig).Reach (fun _ _ => True) s ∧
      s.AtRest ∧ s.opened = [0] ∧
      s.service.state = .kClosed ∧ RuntimeService.opens autoConfig cleanStart = true ∧
      startedFrame.header.frameType = sessionStarted ∧
        ¬ StartsSession cleanStart startedFrame s := by
  have reached : (daemonMachine autoConfig).Reach (fun _ _ => True)
      (after autoConfig autoStartedEvents) :=
    reach_after autoStartedEvents_run (Machine.allowedAlong_true ..)
  have rest : (after autoConfig autoStartedEvents).AtRest := by decide +kernel
  have closed : (after autoConfig autoStartedEvents).service.state = .kClosed := by decide +kernel
  refine ⟨_, reached, rest, by decide +kernel, closed, by decide, by decide, ?_⟩
  refine not_startsSession (by decide) (shape_of_reach reached) rest ?_
  rw [closed]
  decide

end Daemon
end LocalPC.Runtime
