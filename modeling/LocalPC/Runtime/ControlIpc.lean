import Mathlib.Data.List.DropRight
import LocalPC.Lib.PieceStream
import LocalPC.Runtime.DaemonInvariant

/-!
# The control protocol

`control_ipc.cpp`, `HandleControlCommand` and `RunIpcClient`: a client sends one line and reads the
answer up to its first blank line; the server takes what one `recv` gives it for the line. Both sides get
the bytes of the other in pieces.
-/

namespace LocalPC.Runtime
open Lib Contract

/-! ## The server -/

/-- `ReadRequest`, with the bytes in the pieces in which they come. -/
def readRequest (pieces : List Bytes) : Bytes :=
  let received := (PieceStream.receive 511 pieces).1
  (received.takeWhile (· ≠ newline)).rdropWhile fun c => c = 13 || c = newline

inductive ControlCommand
  | ping
  | diagnostics
  | stop (reason : Bytes)
  | start
  | unknown
  deriving DecidableEq, Repr

def stopReason (line : Bytes) : Bytes :=
  if 5 < line.length then
    let reason := line.drop 5
    if reason.head? = some 32 then reason.drop 1 else reason
  else ascii "ipc_stop"

def controlCommand (line : Bytes) : ControlCommand :=
  if line = ascii "PING" then .ping
  else if line = ascii "STATUS" ∨ line = ascii "DIAGNOSTICS" ∨ line = ascii "STATS" then
    .diagnostics
  else if (ascii "STOP").isPrefixOf line then .stop (stopReason line)
  else if (ascii "START").isPrefixOf line then .start
  else .unknown

def sessionStateToString : SessionState → String
  | .kIdle => "Idle"
  | .kRecording => "Recording"
  | .kStopping => "Stopping"
  | .kClosed => "Closed"
  | .kError => "Error"

/-- What the answer to `STATUS` says besides the counters, as it is printed. -/
structure StatusTexts where
  sessionId : Bytes
  egoHost : Bytes
  dataPort : UInt16
  diskFreeGb : Bytes

def statusEntries {config : RuntimeConfig} (texts : StatusTexts) (s : RuntimeService config) :
    List (String × Bytes) :=
  [("session_state", ascii (sessionStateToString s.state)),
    ("session_id", texts.sessionId),
    ("ego_host", texts.egoHost),
    ("data_port", decimal texts.dataPort.toNat),
    ("packets_received", decimal s.diagnostics.packetsReceived),
    ("packets_written", decimal s.diagnostics.packetsWritten),
    ("bad_packets", decimal s.diagnostics.badPackets),
    ("packets_lost", decimal s.diagnostics.packetsLost.toNat),
    ("seq_gaps", decimal s.diagnostics.seqGaps),
    ("disk_free_gb", texts.diskFreeGb),
    ("health", ascii s.diagnostics.health)] ++
  s.diagnostics.rejectByReason.entries.map fun entry => ("reject_" ++ entry.1, decimal entry.2)

def statusLine (entry : String × Bytes) : Bytes := ascii entry.1 ++ ascii "=" ++ entry.2

def buildDiagnosticsText {config : RuntimeConfig} (texts : StatusTexts)
    (s : RuntimeService config) : Bytes :=
  (statusEntries texts s).flatMap fun entry => statusLine entry ++ [newline]

/-- `HandleControlCommand`, given the code that `StopRecording` or `StartRecording` returns. -/
def controlAnswer {config : RuntimeConfig} (texts : StatusTexts) (rc : RuntimeErrorCode)
    (s : RuntimeService config) :
    ControlCommand → Bytes
  | .ping => ascii "OK\n\n"
  | .diagnostics => buildDiagnosticsText texts s ++ [newline]
  | .stop _ => if rc = .kOk then ascii "OK stopped\n\n" else ascii "ERR not_recording\n\n"
  | .start =>
      if rc = .kOk then ascii "OK recording\n\n"
      else if rc = .kSessionBusy then ascii "ERR session_busy\n\n"
      else ascii "ERR start_failed\n\n"
  | .unknown => ascii "ERR unknown_command\n\n"

/-! ## The client -/

def hasBlankLine : Bytes → Bool
  | a :: b :: rest => (a = newline && b = newline) || hasBlankLine (b :: rest)
  | _ => false

/-- The loop of `SendCommand` over the pieces of the answer. -/
def readAnswer (pieces : List Bytes) : Bytes := PieceStream.readUntil 4096 hasBlankLine [] pieces

def exitFromError : RuntimeErrorCode → Nat
  | .kOk => 0
  | .kSessionBusy => 1
  | .kNotRecording => 2
  | .kStorageCritical => 3
  | .kConfigError => 4
  | _ => 5

/-- The exit code of `RunIpcClient` when there is a daemon. -/
def ipcExitCode (response : Bytes) : Nat :=
  if response = [] then exitFromError .kInternalError
  else if (ascii "ERR").isPrefixOf response then exitFromError .kNotRecording
  else 0

/-! ## Answers -/

def Framed (text : Bytes) : Prop :=
  ∃ body, text = body ++ [newline, newline] ∧ hasBlankLine (body ++ [newline]) = false

theorem hasBlankLine_append {text : Bytes} (blank : hasBlankLine text = true) (rest : Bytes) :
    hasBlankLine (text ++ rest) = true := by
  induction text with
  | nil => cases blank
  | cons a text ih =>
      cases text with
      | nil => cases blank
      | cons b text =>
          rw [hasBlankLine, Bool.or_eq_true] at blank
          rw [List.cons_append, List.cons_append, hasBlankLine, Bool.or_eq_true]
          exact blank.imp_right ih

theorem Framed.only {text part : Bytes} (framed : Framed text) (cut : part <+: text)
    (blank : hasBlankLine part = true) :
    part = text := by
  obtain ⟨body, rfl, none⟩ := framed
  rw [show body ++ [newline, newline] = (body ++ [newline]) ++ [newline] by simp] at cut ⊢
  rcases List.prefix_concat_iff.mp cut with whole | ⟨rest, shorter⟩
  · exact whole
  · rw [← shorter, hasBlankLine_append blank rest] at none
    cases none

theorem Framed.read {text : Bytes} (framed : Framed text) (arrival : Pieces text) :
    readAnswer arrival.pieces = text :=
  PieceStream.readUntil_eq (by decide) arrival.nonempty arrival.whole fun _ => framed.only

theorem hasBlankLine_line {line : Bytes} (plain : newline ∉ line) (rest : Bytes) :
    hasBlankLine (line ++ newline :: rest) = hasBlankLine (newline :: rest) := by
  induction line with
  | nil => rfl
  | cons a line ih =>
      rw [List.mem_cons, not_or] at plain
      have other : a ≠ newline := fun same => plain.1 same.symm
      rw [← ih plain.2]
      cases line <;> simp [hasBlankLine, other]

theorem hasBlankLine_lines {lines : List Bytes}
    (plain : ∀ line ∈ lines, newline ∉ line ∧ line ≠ []) :
    hasBlankLine (lines.flatMap (· ++ [newline])) = false := by
  induction lines with
  | nil => rfl
  | cons line lines ih =>
      rw [List.forall_mem_cons] at plain
      have rest := ih plain.2
      rw [List.flatMap_cons, List.append_assoc, List.singleton_append, hasBlankLine_line plain.1.1]
      cases lines with
      | nil => rfl
      | cons next lines =>
          obtain ⟨clean, nonempty⟩ := plain.2 next (List.mem_cons_self ..)
          obtain ⟨c, cs, rfl⟩ := List.exists_cons_of_ne_nil nonempty
          have other : c ≠ newline := fun same => clean (same ▸ List.mem_cons_self ..)
          rw [List.flatMap_cons, List.cons_append, List.cons_append] at rest ⊢
          rw [hasBlankLine, rest]
          simp [other]

theorem framed_lines {lines : List Bytes} (nonempty : lines ≠ [])
    (plain : ∀ line ∈ lines, newline ∉ line ∧ line ≠ []) :
    Framed (lines.flatMap (· ++ [newline]) ++ [newline]) := by
  have none := hasBlankLine_lines plain
  obtain ⟨older, last, rfl⟩ := (List.eq_nil_or_concat' lines).resolve_left nonempty
  rw [List.flatMap_append, List.flatMap_singleton, ← List.append_assoc] at none ⊢
  exact ⟨_, by rw [List.append_assoc]; rfl, none⟩

theorem ipcExitCode_answer {config : RuntimeConfig} (texts : StatusTexts) (rc : RuntimeErrorCode)
    (s : RuntimeService config) (command : ControlCommand) :
    ipcExitCode (controlAnswer texts rc s command) =
      match command with
      | .ping | .diagnostics => 0
      | .stop _ | .start => if rc = .kOk then 0 else 2
      | .unknown => 2 := by
  cases command with
  | ping => rfl
  | unknown => rfl
  | stop reason => cases rc <;> rfl
  | start => cases rc <;> rfl
  | diagnostics =>
      obtain ⟨rest, text⟩ : ∃ rest,
          controlAnswer texts rc s .diagnostics = ascii "session_state=" ++ rest :=
        ⟨_, by simp only [controlAnswer, buildDiagnosticsText, statusEntries, List.cons_append, List.flatMap_cons,
          statusLine, List.append_assoc]; rfl⟩
      rw [text]
      rfl

/-! ## Texts of one line -/

theorem newline_notMem_decimal (n : Nat) : newline ∉ decimal n := by
  intro member
  have digit := isDigit_of_mem_decimal _ member
  revert digit
  decide

theorem ascii_append (a b : String) : ascii (a ++ b) = ascii a ++ ascii b := by
  simp [ascii]

structure StatusTexts.Plain (texts : StatusTexts) : Prop where
  sessionId : newline ∉ texts.sessionId
  egoHost : newline ∉ texts.egoHost
  diskFreeGb : newline ∉ texts.diskFreeGb

structure DiagnosticsCollector.Plain (d : DiagnosticsCollector) : Prop where
  health : newline ∉ ascii d.health
  reasons : ∀ reason ∈ d.rejectByReason, newline ∉ ascii reason

theorem statusLine_plain {config : RuntimeConfig} {texts : StatusTexts} {s : RuntimeService config}
    (texts' : texts.Plain) (plain : s.diagnostics.Plain) :
    ∀ entry ∈ statusEntries texts s, newline ∉ statusLine entry := by
  have line {key : String} {value : Bytes} (keys : newline ∉ ascii key) (values : newline ∉ value) :
      newline ∉ statusLine (key, value) := by
    have sign : newline ∉ ascii "=" := by decide
    simp only [statusLine, List.mem_append, not_or]
    exact ⟨⟨keys, sign⟩, values⟩
  have state : newline ∉ ascii (sessionStateToString s.state) := by cases s.state <;> decide
  intro entry member
  rcases List.mem_append.mp member with fixed | counted
  · simp only [List.mem_cons, List.not_mem_nil, or_false] at fixed
    rcases fixed with rfl | rfl | rfl | rfl | rfl | rfl | rfl | rfl | rfl | rfl | rfl
    · exact line (by decide) state
    · exact line (by decide) texts'.sessionId
    · exact line (by decide) texts'.egoHost
    · exact line (by decide) (newline_notMem_decimal _)
    · exact line (by decide) (newline_notMem_decimal _)
    · exact line (by decide) (newline_notMem_decimal _)
    · exact line (by decide) (newline_notMem_decimal _)
    · exact line (by decide) (newline_notMem_decimal _)
    · exact line (by decide) (newline_notMem_decimal _)
    · exact line (by decide) texts'.diskFreeGb
    · exact line (by decide) plain.health
  · obtain ⟨reason, here, rfl⟩ := List.mem_map.mp counted
    have known := plain.reasons reason.1 (List.mem_map_of_mem here)
    refine line ?_ (newline_notMem_decimal _)
    rw [ascii_append, List.mem_append, not_or]
    exact ⟨by decide, known⟩

theorem controlAnswer_framed {config : RuntimeConfig} {texts : StatusTexts}
    {s : RuntimeService config} (texts' : texts.Plain) (plain : s.diagnostics.Plain)
    (rc : RuntimeErrorCode) (command : ControlCommand) :
    Framed (controlAnswer texts rc s command) := by
  cases command with
  | ping => exact ⟨ascii "OK", rfl, by decide⟩
  | stop reason =>
      rw [controlAnswer]
      split
      · exact ⟨ascii "OK stopped", rfl, by decide⟩
      · exact ⟨ascii "ERR not_recording", rfl, by decide⟩
  | start =>
      rw [controlAnswer]
      split
      · exact ⟨ascii "OK recording", rfl, by decide⟩
      · split
        · exact ⟨ascii "ERR session_busy", rfl, by decide⟩
        · exact ⟨ascii "ERR start_failed", rfl, by decide⟩
  | unknown => exact ⟨ascii "ERR unknown_command", rfl, by decide⟩
  | diagnostics =>
      have lines : ∀ line ∈ (statusEntries texts s).map statusLine, newline ∉ line ∧ line ≠ [] := by
        intro line member
        obtain ⟨entry, here, rfl⟩ := List.mem_map.mp member
        exact ⟨statusLine_plain texts' plain entry here, by simp [statusLine, ascii]⟩
      have framed := framed_lines (by simp [statusEntries]) lines
      rwa [List.flatMap_map] at framed

/-! ## The collector of a running daemon -/

theorem validateContractFrame_plain {bytes : Bytes} {m : UInt32} {error : String}
    (invalid : validateContractFrame bytes m = .error error) : newline ∉ ascii error := by
  unfold validateContractFrame at invalid
  dsimp only at invalid
  split_ifs at invalid
  all_goals
    cases invalid
    decide

namespace DiagnosticsCollector.Plain
variable {d : DiagnosticsCollector}

theorem init : Plain ({} : DiagnosticsCollector) :=
  ⟨by decide, fun reason member => absurd member (AList.notMem_empty reason)⟩

theorem setHealth (plain : Plain d) {health : String} (line : newline ∉ ascii health) :
    Plain (d.setHealth health) :=
  ⟨line, plain.reasons⟩

theorem onBadPacket (plain : Plain d) {reason : String} (line : newline ∉ ascii reason) :
    Plain (d.onBadPacket reason) where
  health := plain.health
  reasons other member := by
    rcases (AList.mem_insert _).mp member with rfl | old
    · split
      · decide
      · exact line
    · exact plain.reasons other old

theorem countFrame {config : RuntimeConfig} {s : RuntimeService config}
    (plain : s.diagnostics.Plain) (header : EgoFrameHeader) :
    (s.countFrame header).diagnostics.Plain := by
  unfold RuntimeService.countFrame RuntimeService.trackContractSeq
  dsimp only
  split_ifs
  all_goals
    unfold RuntimeService.trackTime
    dsimp only
    split
    all_goals exact ⟨plain.health, plain.reasons⟩

theorem pushFrame {config : RuntimeConfig} {s : RuntimeService config} (plain : s.diagnostics.Plain)
    (frame : ContractFrame config.maxPayloadBytes) : (s.pushFrame frame).diagnostics.Plain := by
  have dropped (n : Nat) : (s.diagnostics.setBufferDropped n).Plain := ⟨plain.health, plain.reasons⟩
  unfold RuntimeService.pushFrame
  split
  · exact plain
  · dsimp only
    split
    · exact (dropped _).setHealth (by decide)
    · exact dropped _

theorem rejectFrame {config : RuntimeConfig} {s : RuntimeService config}
    (plain : s.diagnostics.Plain) {error : String} (line : newline ∉ ascii error) :
    (s.rejectFrame error).diagnostics.Plain := by
  refine plain.onBadPacket ?_
  split
  · decide
  · exact line

end DiagnosticsCollector.Plain

namespace Daemon
variable {config : RuntimeConfig} {s s' : Daemon config}

theorem plain_written {run : WriterRun} (plain : s.service.diagnostics.Plain)
    (held : s.service.writer = some run) (log : s.service.errorLog = true) (io : WriteIo)
    (frame : ContractFrame config.maxPayloadBytes) :
    (s.writeHeld io frame).service.diagnostics.Plain := by
  rcases writeHeld_cases held log io frame with ⟨-, next⟩ | ⟨-, next⟩ <;> rw [next]
  · exact ⟨plain.health, plain.reasons⟩
  · exact plain.setHealth (by decide)

theorem plain_stop (plain : s.service.diagnostics.Plain) (shape : Shape s) {io : StopIo}
    {call : StopCall config.maxPayloadBytes} (running : s.stop = some call)
    (move : StopMove io call s s') :
    s'.service.diagnostics.Plain := by
  have phase := shape.busy call running
  cases move with
  | write attempt frame here =>
      rw [here] at phase
      obtain ⟨-, ⟨log, -, writer⟩, -⟩ := phase
      obtain ⟨run, held⟩ := Option.isSome_iff_exists.mp writer
      rcases drainWrite_cases held log io.write call attempt frame with ⟨-, next⟩ |
          ⟨-, next⟩ <;> rw [next]
      · exact ⟨plain.health, plain.reasons⟩
      · exact plain.setHealth (by decide)
  | _ => exact plain

theorem plain_start (plain : s.service.diagnostics.Plain) (io : StartIo) :
    (s.startRecording io).service.diagnostics.Plain := by
  rcases s.startRecording_cases io with ⟨-, made⟩ | ⟨-, _, -, made⟩ |
      ⟨-, -, _, -, -, made⟩ <;> rw [made] <;>
    exact plain

theorem plain_stopRecording (plain : s.service.diagnostics.Plain) (fromRx : Bool) (reason : Bytes) :
    (s.stopRecording fromRx reason).service.diagnostics.Plain := by
  rcases s.stopRecording_cases fromRx reason with ⟨next, -⟩ |
      ⟨next, -⟩ <;> rw [next] <;> exact plain

theorem plain_rx (plain : s.service.diagnostics.Plain) {io : StartIo}
    (moved : s.rxStep io = some s') :
    s'.service.diagnostics.Plain := by
  have move := move_of_rxStep moved
  cases move with
  | rx pc quiet lost => exact plain
  | count io frame here => exact plain.countFrame frame.header
  | accept io frame here recording => exact plain
  | push io frame here buffer held => exact plain.pushFrame frame
  | start io free pc same => exact plain_start plain io
  | stop free fromRx reason calls => exact plain_stopRecording plain fromRx reason

theorem plain_step (plain : s.service.diagnostics.Plain) (shape : Shape s) {e : Event}
    (moved : s.step e = some s') :
    s'.service.diagnostics.Plain := by
  have move := move_of_step moved
  cases e with
  | receive bytes =>
      simp only [step, receive] at moved
      split at moved
      · split at moved
        · exact Option.some.inj moved ▸ plain
        · rename_i error invalid
          exact Option.some.inj moved ▸ plain.rejectFrame (validateContractFrame_plain invalid)
      · cases moved
  | rx io => exact plain_rx plain moved
  | writer io =>
      cases move with
      | write io frame here =>
          obtain ⟨⟨log, -, writer⟩, -⟩ := shape.holding here
          obtain ⟨run, held⟩ := Option.isSome_iff_exists.mp writer
          exact plain_written plain held log io frame
      | start io free pc same => exact plain_start plain io
      | stop free fromRx reason calls => exact plain_stopRecording plain fromRx reason
      | _ => exact plain
  | start io =>
      simp only [step] at moved
      split at moved
      · cases moved
      · exact Option.some.inj moved ▸ plain_start plain io
  | stop reason =>
      simp only [step] at moved
      split at moved
      · cases moved
      · exact Option.some.inj moved ▸ plain_stopRecording plain false reason
  | stopStep io =>
      simp only [step] at moved
      obtain ⟨call, running, moved⟩ := Option.bind_eq_some_iff.mp moved
      exact plain_stop plain shape running (stopMove_of_advance moved)
  | report io =>
      simp only [step] at moved
      split at moved
      · exact Option.some.inj moved ▸ plain
      · cases moved

theorem plain_of_reach {allowed : Daemon config → Event → Prop}
    (reached : (daemonMachine config).Reach allowed s) : s.service.diagnostics.Plain := by
  have kept := reached.invariant (I := fun s => Shape s ∧ s.service.diagnostics.Plain)
    (fun s start => by cases start; exact ⟨.init, .init⟩)
    fun s e t kept moved _ => ⟨kept.1.step (move_of_step moved), plain_step kept.2 kept.1 moved⟩
  exact kept.2

/-- Whatever line comes in, and in whatever pieces the answer comes back, the client gets the whole
of it from a daemon in any state, and exits with 0 or 2. -/
theorem answer_received (texts : StatusTexts)
    (reached : (daemonMachine config).Reach (fun _ _ => True) s) (plain : texts.Plain)
    (rc : RuntimeErrorCode) (request : List Bytes)
    (arrival : Pieces (controlAnswer texts rc s.service (controlCommand (readRequest request)))) :
    readAnswer arrival.pieces =
      controlAnswer texts rc s.service (controlCommand (readRequest request)) ∧
    ipcExitCode (readAnswer arrival.pieces) =
      match controlCommand (readRequest request) with
      | .ping | .diagnostics => 0
      | .stop _ | .start => if rc = .kOk then 0 else 2
      | .unknown => 2 := by
  have whole := (controlAnswer_framed plain (plain_of_reach reached) rc _).read arrival
  refine ⟨whole, ?_⟩
  rw [whole]
  exact ipcExitCode_answer texts rc s.service _

def sampleTexts : StatusTexts :=
  ⟨ascii "20260101_000000_1", ascii "192.168.10.50", 5001, ascii "100"⟩

theorem start_received :
    readAnswer [ascii "OK recording\n", ascii "\n"] = ascii "OK recording\n\n" ∧
      ipcExitCode (readAnswer [ascii "OK recording\n", ascii "\n"]) = 0 :=
  answer_received sampleTexts (reach_after stoppedEvents_run (Machine.allowedAlong_true ..))
    ⟨by decide, by decide, by decide⟩ .kOk [ascii "START\n"]
    ⟨[ascii "OK recording\n", ascii "\n"], by decide, by decide⟩

end Daemon

/-! ## Requests that are cut -/

theorem readRequest_part {line : Bytes} (plain : newline ∉ line) {pieces : List Bytes}
    (whole : pieces.flatten = line ++ [newline]) : readRequest pieces <+: line := by
  obtain ⟨split, -⟩ := PieceStream.receive_split 511 pieces
  rw [whole] at split
  have clean : (line ++ [newline]).takeWhile (· ≠ newline) = line := by
    have here : ∀ c ∈ line, decide (c ≠ newline) = true := by
      intro c member
      have other : c ≠ newline := fun same => plain (same ▸ member)
      simpa using other
    rw [List.takeWhile_append_of_pos here]
    simp
  have part : ((PieceStream.receive 511 pieces).1.takeWhile (· ≠ newline)) <+: line := by
    rw [← clean, ← split, List.takeWhile_append]
    split
    · exact (List.takeWhile_prefix _).trans (List.prefix_append _ _)
    · exact List.prefix_refl _
  exact (List.rdropWhile_prefix _ _).trans part

/-- A command that a request may be taken for when it is cut: nothing is done, or the same, a stop
with a part of its reason or the default one. -/
def ControlCommand.CutOf (whole : ControlCommand) : ControlCommand → Prop
  | .unknown => True
  | .stop reason => ∃ r, whole = .stop r ∧ (reason = ascii "ipc_stop" ∨ reason <+: r)
  | command => command = whole

theorem known_word {line : Bytes} (known : controlCommand line ≠ .unknown) : ∃ word, word <+: line ∧
    (word ∈ [ascii "PING"] ∧ controlCommand line = .ping ∨
      word ∈ [ascii "STATUS", ascii "DIAGNOSTICS", ascii "STATS"] ∧
        controlCommand line = .diagnostics ∨
      word ∈ [ascii "START"] ∧ controlCommand line = .start ∨
      word ∈ [ascii "STOP"] ∧ controlCommand line = .stop (stopReason line)) := by
  unfold controlCommand at known ⊢
  split_ifs at known ⊢ with ping diagnostics stop start
  · exact ⟨line, List.prefix_refl _, .inl ⟨List.mem_singleton.mpr ping, rfl⟩⟩
  · exact ⟨line, List.prefix_refl _, .inr (.inl ⟨by simpa using diagnostics, rfl⟩)⟩
  · exact ⟨_, List.isPrefixOf_iff_prefix.mp stop,
      .inr (.inr (.inr ⟨List.mem_singleton_self _, rfl⟩))⟩
  · exact ⟨_, List.isPrefixOf_iff_prefix.mp start,
      .inr (.inr (.inl ⟨List.mem_singleton_self _, rfl⟩))⟩
  · exact absurd rfl known

theorem stopReason_part {request line : Bytes} (part : request <+: line) :
    stopReason request = ascii "ipc_stop" ∨ stopReason request <+: stopReason line := by
  obtain ⟨rest, rfl⟩ := part
  by_cases long : 5 < request.length
  · refine .inr ?_
    have both : 5 < (request ++ rest).length := by
      rw [List.length_append]
      omega
    rw [stopReason, stopReason, if_pos long, if_pos both,
      List.drop_append_of_le_length (Nat.le_of_lt long)]
    have some : request.drop 5 ≠ [] := by
      rw [Ne, List.drop_eq_nil_iff]
      omega
    obtain ⟨c, cs, reason⟩ := List.exists_cons_of_ne_nil some
    simp only [reason, List.cons_append, List.head?_cons, List.drop_one, List.tail_cons]
    split
    · exact List.prefix_append _ _
    · exact List.prefix_append (c :: cs) rest
  · exact .inl (by rw [stopReason, if_neg long])

/-- No part of a known command is taken for another one. -/
theorem cut_request {line : Bytes} (plain : newline ∉ line) (known : controlCommand line ≠ .unknown)
    (arrival : Pieces (line ++ [newline])) :
    (controlCommand line).CutOf (controlCommand (readRequest arrival.pieces)) := by
  have part := readRequest_part plain arrival.whole
  generalize readRequest arrival.pieces = request at part
  by_cases lost : controlCommand request = .unknown
  · rw [lost]
    trivial
  obtain ⟨word, here, whole⟩ := known_word known
  obtain ⟨word', there, cut⟩ := known_word lost
  -- Words of different commands are not the beginnings of one line.
  have apart {words words' : List Bytes} (mine : word ∈ words) (other : word' ∈ words')
      (differ : ∀ a ∈ words, ∀ b ∈ words', ¬ (a <+: b ∨ b <+: a)) : False :=
    differ word mine word' other (List.prefix_or_prefix_of_prefix here (there.trans part))
  rcases cut with ⟨other, cut⟩ | ⟨other, cut⟩ | ⟨other, cut⟩ | ⟨other, cut⟩ <;>
    rcases whole with ⟨mine, whole⟩ | ⟨mine, whole⟩ | ⟨mine, whole⟩ | ⟨mine, whole⟩ <;>
    rw [cut, whole]
  case inr.inr.inr.inr.inr.inr => exact ⟨_, rfl, stopReason_part part⟩
  all_goals first | exact rfl | exact (apart mine other (by decide)).elim

theorem cutStop_request : (controlCommand (ascii "STOP cli_stop")).CutOf
    (controlCommand (readRequest [ascii "STOP cli", ascii "_stop\n"])) :=
  cut_request (by decide) (by decide) ⟨[ascii "STOP cli", ascii "_stop\n"], by decide, by decide⟩

end LocalPC.Runtime
