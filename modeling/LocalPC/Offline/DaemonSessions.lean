import LocalPC.Offline.SessionRuns
import LocalPC.Runtime.SealedSessions

namespace LocalPC.Offline
open Lib Contract LocalPC.Runtime

theorem listing_of_saved {segments : List (List Bytes)} {dir : Dir} (saved : SavedAs segments dir)
    (inTime : ∀ frame ∈ segments.flatten, InTime frame)
    (small : segments.flatten.flatten.length < 2 ^ 63) :
    ∃ text chunks, dir.lookup manifestName = some text ∧ Listing segments.length text chunks := by
  obtain ⟨chunks, found, names, entries⟩ := saved.manifest
  have count : chunks.length = segments.length := by
    have lengths := congrArg List.length names
    rwa [List.length_map, List.length_map, List.length_range] at lengths
  refine ⟨_, chunks, found, rfl, count, fun i c listed => ?_, fun i c listed => ?_⟩
  · have bound := (List.getElem?_eq_some_iff.mp listed).1
    rw [count] at bound
    have entry := congrArg (·[i]?) names
    simpa [listed, bound] using entry
  · have bound := (List.getElem?_eq_some_iff.mp listed).1
    have entry := entries c (List.mem_of_getElem? listed)
    have few := saved.few
    refine ⟨by omega, entry.bytes.trans_lt small, ?_, ?_⟩
    · rcases entry.first with zero | ⟨frame, member, time⟩
      · rw [zero]
        decide
      · exact time ▸ (inTime frame member).1
    · rcases entry.last with zero | ⟨frame, member, time⟩
      · rw [zero]
        decide
      · exact time ▸ (inTime frame member).2

theorem readsFrames_of_saved {m : UInt32} {segments : List (List Bytes)} {session dir : Dir}
    (saved : SavedAs segments session)
    (kept : ∀ name text, name = manifestName ∨ (∃ i, name = chunkFilename i) →
      session.lookup name = some text →
      dir.lookup name = some text)
    (accepted : ∀ frame ∈ segments.flatten, Accepted m frame)
    (inTime : ∀ frame ∈ segments.flatten, InTime frame)
    (small : segments.flatten.flatten.length < 2 ^ 63) : ReadsFrames dir segments.flatten := by
  obtain ⟨text, chunks, found, listing⟩ := listing_of_saved saved inTime small
  refine readsFrames_of_files (kept _ _ (.inl rfl) found) listing saved.some_ ?_ accepted
  refine List.forall₂_iff_get.mpr ⟨List.length_range, fun i _ bound => ⟨[], .inl rfl, ?_⟩⟩
  rw [List.get_eq_getElem, List.get_eq_getElem, List.getElem_range, List.append_nil]
  exact kept _ _ (.inr ⟨i, rfl⟩) (saved.files.file i _ (List.getElem?_eq_getElem bound))

/-- The pipeline reads these frames in the session and validates it as them. -/
def SeenAs (session : Dir) (frames : List Bytes) : Prop :=
  ∀ dir : Dir, (∀ name ∈ session, dir.lookup name = session.lookup name) → ReadsFrames dir frames ∧
    ∀ cfg opts, Pipeline.sourcePath opts ∉ dir →
      ((∃ run, Pipeline.runValidate cfg opts dir = .ok run) ↔ ∀ frame ∈ frames, Harmless frame) ∧
        ∀ run, Pipeline.runValidate cfg opts dir = .ok run → Pipeline.ValidatedAs cfg frames run

section Runs
variable {config : RuntimeConfig} {received : List (ContractFrame config.maxPayloadBytes)}

theorem forall_of_known {segments : List (List Bytes)} {P : Bytes → Prop}
    (known : segments.flatten.Sublist (received.map ContractFrame.bytes))
    (all : ∀ frame ∈ received, P frame.bytes) :
    ∀ frame ∈ segments.flatten, P frame := by
  intro frame member
  obtain ⟨came, listed, rfl⟩ := List.mem_map.mp (known.subset member)
  exact all came listed

theorem readsFrames_of_known {segments : List (List Bytes)} {session dir : Dir}
    (saved : SavedAs segments session)
    (kept : ∀ name text, name = manifestName ∨ (∃ i, name = chunkFilename i) →
      session.lookup name = some text →
      dir.lookup name = some text)
    (known : segments.flatten.Sublist (received.map ContractFrame.bytes))
    (inTime : ∀ frame ∈ received, InTime frame.bytes)
    (small : (received.map ContractFrame.bytes).flatten.length < 2 ^ 63) :
    ReadsFrames dir segments.flatten :=
  readsFrames_of_saved saved kept (forall_of_known known fun frame _ => frame.accepted)
    (forall_of_known known inTime)
    (known.flatten.length_le.trans_lt small)

theorem seenAs_of_saved {segments : List (List Bytes)} {session : Dir}
    (saved : SavedAs segments session)
    (known : segments.flatten.Sublist (received.map ContractFrame.bytes))
    (inTime : ∀ frame ∈ received, InTime frame.bytes)
    (small : (received.map ContractFrame.bytes).flatten.length < 2 ^ 63) :
    SeenAs session segments.flatten := by
  intro dir same
  have reads : ReadsFrames dir segments.flatten := by
    refine readsFrames_of_known saved (fun name text _ found => ?_) known inTime small
    exact (same name (AList.lookup_isSome.mp (found ▸ rfl))).trans found
  have accepted : ∀ frame ∈ segments.flatten, ∃ m, Accepted m frame :=
    forall_of_known known fun frame _ => ⟨_, frame.accepted⟩
  exact ⟨reads, fun cfg opts absent => Pipeline.runValidate_frames cfg opts accepted reads absent⟩

theorem seenAs_of_filed {sessions : List (List (List Bytes))}
    {closed : List (ClosedSession config.maxPayloadBytes)}
    (saved : List.Forall₂ (fun segments session => SavedAs segments session.dir) sessions closed)
    (known : sessions.flatten.flatten.Sublist (received.map ContractFrame.bytes))
    (inTime : ∀ frame ∈ received, InTime frame.bytes)
    (small : (received.map ContractFrame.bytes).flatten.length < 2 ^ 63) :
    List.Forall₂ (fun frames session => SeenAs session.dir frames)
      (sessions.map List.flatten) closed := by
  rw [List.forall₂_map_left_iff]
  induction saved with
  | nil => exact .nil
  | cons here rest ih =>
      rw [List.flatten_cons, List.flatten_append] at known
      exact .cons (seenAs_of_saved here ((List.sublist_append_left _ _).trans known) inTime small)
        (ih ((List.sublist_append_right _ _).trans known))

variable {p : Daemon config × FrameTrace config.maxPayloadBytes}

theorem stored_received {allowed : Daemon config × FrameTrace config.maxPayloadBytes → Event → Prop}
    (reached : (tracedDaemon config).Reach allowed p) :
    (p.2.stored.map ContractFrame.bytes).Sublist (p.2.received.map ContractFrame.bytes) :=
  ((List.sublist_append_left _ _).trans (Daemon.inOrder_of_reach reached).2.order).map _

theorem savedIn_of_reach
    (reached : (tracedDaemon config).Reach (fun p e => p.1.SavesSessions e) p) :
    ∃ sessions : List (List (List Bytes)),
      List.Forall₂ (fun segments session => SavedAs segments session.dir) sessions p.1.closed ∧
        sessions.flatten.flatten.Sublist (p.2.received.map ContractFrame.bytes) := by
  obtain ⟨sessions, saved, order⟩ := Daemon.savedInOrder_of_reach reached
  have closed := List.forall₂_take_append sessions _ _ saved
  rw [List.length_map] at closed
  exact ⟨_, List.forall₂_map_right_iff.mp closed, ((List.take_sublist _ _).flatten.flatten).trans
    ((List.sublist_append_left _ _).trans (order.trans (stored_received reached)))⟩

/-- What the pipeline finds in the sessions that the daemon has finished are frames that it has
received, in this order. -/
theorem received_validated
    (reached : (tracedDaemon config).Reach (fun p e => p.1.SavesSessions e) p)
    (inTime : ∀ frame ∈ p.2.received, InTime frame.bytes)
    (small : (p.2.received.map ContractFrame.bytes).flatten.length < 2 ^ 63) :
    ∃ sessions :
    List (List Bytes),
      List.Forall₂ (fun frames session => SeenAs session.dir frames) sessions p.1.closed ∧
      sessions.flatten.Sublist (p.2.received.map ContractFrame.bytes) := by
  obtain ⟨sessions, saved, below⟩ := savedIn_of_reach reached
  exact ⟨_, seenAs_of_filed saved below inTime small, List.flatten_flatten ▸ below⟩

/-- In a run in which no write fails, the pipeline finds every frame that was stored, once the
recording is over. -/
theorem stored_validated (reached : (tracedDaemon config).Reach (fun p e => p.1.SavesAll e) p)
    (free : p.1.stop = none)
    (idle : p.1.service.state ≠ .kRecording) (inTime : ∀ frame ∈ p.2.received, InTime frame.bytes)
    (small : (p.2.received.map ContractFrame.bytes).flatten.length < 2 ^ 63) :
    ∃ sessions :
    List (List Bytes),
      List.Forall₂ (fun frames session => SeenAs session.dir frames) sessions p.1.closed ∧
      sessions.flatten = p.2.stored.map ContractFrame.bytes := by
  obtain ⟨rested, sessions, saved, whole⟩ := Daemon.savedWhole_of_reach reached
  rw [rested free idle, List.append_nil] at whole
  rw [Daemon.finishedDirs, free, Option.map_none, Option.getD_none, List.append_nil] at saved
  have below := stored_received reached
  rw [← whole] at below
  exact ⟨_, seenAs_of_filed (List.forall₂_map_right_iff.mp saved) below inTime small,
    List.flatten_flatten ▸ whole⟩

end Runs

theorem recordedTrace_savesAll :
    Machine.AllowedAlong (fun p e => p.1.SavesAll e) (Machine.recording Daemon.step Daemon.note)
      (({}, {}) : Daemon sampleConfig × FrameTrace _) Daemon.twoSessions ∧
    (Daemon.recordedTrace.1.stop.isNone = true ∧
      Daemon.recordedTrace.1.service.state ≠ .kRecording) ∧
    (∀ frame ∈ Daemon.recordedTrace.2.received, InTime frame.bytes) ∧
    (Daemon.recordedTrace.2.received.map ContractFrame.bytes).flatten.length < 2 ^ 63 := by
  unfold InTime
  decide +kernel

theorem recordedTrace_reach_savesSessions :
    (tracedDaemon sampleConfig).Reach (fun p e => p.1.SavesSessions e) Daemon.recordedTrace :=
  (Daemon.recordedTrace_reach recordedTrace_savesAll.1).mono fun _ _ all => all.savesSessions

theorem recordedTrace_received :
    Daemon.recordedTrace.1.closed.length = 2 ∧ ∃ sessions : List (List Bytes),
    List.Forall₂
      (fun frames session => SeenAs session.dir frames) sessions Daemon.recordedTrace.1.closed ∧
      sessions.flatten.Sublist (Daemon.recordedTrace.2.received.map ContractFrame.bytes) := by
  obtain ⟨-, -, inTime, small⟩ := recordedTrace_savesAll
  exact ⟨Daemon.recordedTrace_keepsFrames.2.2.2.2,
    received_validated recordedTrace_reach_savesSessions inTime small⟩

theorem recordedTrace_validated :
    Daemon.recordedTrace.1.closed.length = 2 ∧ ∃ sessions : List (List Bytes),
    List.Forall₂
      (fun frames session => SeenAs session.dir frames) sessions Daemon.recordedTrace.1.closed ∧
      sessions.flatten = Daemon.recordedTrace.2.stored.map ContractFrame.bytes := by
  obtain ⟨saves, ⟨free, idle⟩, inTime, small⟩ := recordedTrace_savesAll
  exact ⟨Daemon.recordedTrace_keepsFrames.2.2.2.2,
    stored_validated (Daemon.recordedTrace_reach saves)
      (Option.isNone_iff_eq_none.mp free) idle inTime small⟩

end LocalPC.Offline
