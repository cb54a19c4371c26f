import LocalPC.Lib.RotatingLog
import LocalPC.Lib.Runs
import LocalPC.Runtime.ChunkWriter

/-!
# The error log

`error_log.cpp`: messages are appended to a file, which is rotated when it is full. A rename that fails
throws out of `Write`. The text of the time of day, how far a rotation gets and how much of a line
reaches the file are arguments of the call.
-/

namespace LocalPC.Runtime
open Lib Contract

inductive LogLevel
  | kInfo
  | kWarning
  | kError
  deriving DecidableEq, Repr

def levelToString : LogLevel → Bytes
  | .kInfo => ascii "INFO"
  | .kWarning => ascii "WARN"
  | .kError => ascii "ERROR"

structure ErrorLog where
  path : Bytes
  currentSize : Nat := 0

structure LogIo where
  renames : Option Nat := none
  opens : Bool := true
  utcNow : Bytes
  outcome : StreamWrite := .done

namespace ErrorLog

def kMaxFileBytes : Nat := 50 * 1024 * 1024
def kMaxRotations : Nat := 10

def create (path : Bytes) (dir : Dir) : ErrorLog where
  path := path
  currentSize := ((dir.lookup path).map List.length).getD 0

def generation (path : Bytes) : Nat → Bytes
  | 0 => path
  | g + 1 => path ++ ascii "." ++ decimal (g + 1)

def renameFile (source target : Bytes) (dir : Dir) : Dir :=
  match dir.lookup source with
  | none => dir
  | some content => (dir.erase source).insert target content

/-- The renames of a rotation, of which `k` are done, for the generations below `m`. -/
def renameFiles (path : Bytes) : Nat → Nat → Dir → Dir
  | m + 1, k + 1, dir =>
      renameFiles path m k (renameFile (generation path m) (generation path (m + 1)) dir)
  | _, _, dir => dir

def rotateIfNeeded (io : LogIo) (log : ErrorLog) (dir : Dir) : Bool × ErrorLog × Dir :=
  if log.currentSize < kMaxFileBytes then (true, log, dir)
  else
    match io.renames with
    | some k => (false, log, renameFiles log.path kMaxRotations k dir)
    | none =>
        (true, { log with currentSize := 0 }, renameFiles log.path kMaxRotations kMaxRotations dir)

def line (io : LogIo) (level : LogLevel) (message : Bytes) : Bytes :=
  io.utcNow ++ ascii " [" ++ levelToString level ++ ascii "] " ++ message ++ [newline]

def arrives : StreamWrite → Bytes → Bytes
  | .done, line => line
  | .failed written, line => line.take written

def write (io : LogIo) (level : LogLevel) (message : Bytes) (log : ErrorLog) (dir : Dir) :
    List Bytes × ErrorLog × Dir :=
  let (returns, log, dir) := log.rotateIfNeeded io dir
  if !returns || !io.opens then ([], log, dir)
  else
    let text := line io level message
    ([arrives io.outcome text],
      { log with currentSize := log.currentSize + text.length },
      dir.append log.path (arrives io.outcome text))

/-! ## The files -/

theorem generation_injective {path : Bytes} {g g' : Nat}
    (same : generation path g = generation path g') : g = g' := by
  have longer (g : Nat) : path.length < (generation path (g + 1)).length := by
    simp only [generation, List.length_append, show (ascii ".").length = 1 from rfl]
    omega
  cases g with
  | zero =>
      cases g' with
      | zero => rfl
      | succ g' => exact absurd (congrArg List.length same) (Nat.ne_of_lt (longer g'))
  | succ g =>
      cases g' with
      | zero => exact absurd (congrArg List.length same.symm) (Nat.ne_of_lt (longer g))
      | succ g' => exact decimal_injective (List.append_cancel_left same)

def Holds (path : Bytes) (gens : Generations Bytes) (dir : Dir) : Prop :=
  ∀ g ≤ kMaxRotations, dir.lookup (generation path g) = (gens g).map List.flatten

variable {path : Bytes} {gens : Generations Bytes} {dir : Dir}

theorem Holds.renameFile (holds : Holds path gens dir) {i : Nat} (bound : i < kMaxRotations) :
    Holds path (gens.moveUp i) (renameFile (generation path i) (generation path (i + 1)) dir) := by
  intro g low
  have here := holds i (Nat.le_of_lt bound)
  cases there : gens i with
  | none =>
      rw [there, Option.map_none] at here
      rw [ErrorLog.renameFile, here, Generations.moveUp, there]
      exact holds g low
  | some records =>
      have present : (gens i).isSome = true := by rw [there]; rfl
      rw [there, Option.map_some] at here
      rw [ErrorLog.renameFile, here]
      by_cases next : g = i + 1
      · rw [next, AList.lookup_insert, Generations.moveUp_succ present, there]
        rfl
      · have name : generation path g ≠ generation path (i + 1) :=
          fun same => next (generation_injective same)
        show (AList.insert _ _ _).lookup _ = _
        rw [AList.lookup_insert_ne name]
        by_cases moved : g = i
        · rw [moved, AList.lookup_erase, Generations.moveUp_self]
          rfl
        · have name : generation path g ≠ generation path i :=
            fun same => moved (generation_injective same)
          rw [AList.lookup_erase_ne name, Generations.moveUp_other moved next]
          exact holds g low

theorem Holds.renameFiles (holds : Holds path gens dir) {m : Nat} (k : Nat)
    (bound : m ≤ kMaxRotations) :
    Holds path (gens.moves m k) (renameFiles path m k dir) := by
  induction m generalizing k gens dir with
  | zero => cases k <;> exact holds
  | succ m ih =>
      cases k with
      | zero => exact holds
      | succ k => exact ih (holds.renameFile bound) k (Nat.le_of_lt bound)

theorem Holds.append (holds : Holds path gens dir) (text : Bytes) :
    Holds path (gens.record text) (dir.append path text) := by
  intro g low
  have here := holds 0 (Nat.zero_le _)
  cases g with
  | zero =>
      have content : dir.content path = ((gens 0).map List.flatten).getD [] :=
        congrArg (fun found => Option.getD found []) here
      show (AList.insert path _ dir).lookup path = _
      rw [AList.lookup_insert, Generations.record, Function.update_self, content]
      cases gens 0 <;> simp
  | succ g =>
      have name : generation path (g + 1) ≠ path := by
        intro same
        have first : generation path (g + 1) = generation path 0 := same
        exact Nat.succ_ne_zero g (generation_injective first)
      show (AList.insert _ _ _).lookup _ = _
      rw [AList.lookup_insert_ne name, Generations.record,
        Function.update_of_ne (Nat.succ_ne_zero g)]
      exact holds (g + 1) low

theorem lookup_renameFiles {name : Bytes}
    (other : ∀ g ≤ kMaxRotations, name ≠ generation path g) {m : Nat} (k : Nat)
    (bound : m ≤ kMaxRotations) : (renameFiles path m k dir).lookup name = dir.lookup name := by
  induction m generalizing k dir with
  | zero => cases k <;> rfl
  | succ m ih =>
      cases k with
      | zero => rfl
      | succ k =>
          refine (ih k (Nat.le_of_lt bound)).trans ?_
          rw [renameFile]
          split
          · rfl
          · rw [AList.lookup_insert_ne (other (m + 1) bound),
              AList.lookup_erase_ne (other m (Nat.le_of_lt bound))]

end ErrorLog

/-! ## Runs -/

inductive LogEvent
  | write (io : LogIo) (level : LogLevel) (message : Bytes)
  | restart

/-- The log with everything that was ever added to it. -/
structure LogRun where
  log : ErrorLog
  dir : Dir
  history : List Bytes := []

namespace LogRun
open ErrorLog

def step (r : LogRun) : LogEvent → LogRun
  | .write io level message =>
      let (added, log, dir) := r.log.write io level message r.dir
      { log, dir, history := r.history ++ added }
  | .restart => { r with log := ErrorLog.create r.log.path r.dir }

def start (path : Bytes) (dir : Dir) : LogRun := { log := ErrorLog.create path dir, dir }

def Short (longest : Nat) : LogRun → LogEvent → Prop
  | _, .write io level message => (line io level message).length ≤ longest
  | _, .restart => True

/-- The files hold the newest part of the log, and are within the limit. -/
structure Kept (path : Bytes) (before : Dir) (longest : Nat) (gens : Generations Bytes)
    (r : LogRun) : Prop where
  mine : r.log.path = path
  holds : Holds path gens r.dir
  order : gens.oldestFirst kMaxRotations <:+ r.history
  size : ∀ g ≤ kMaxRotations, ∀ records, gens g = some records →
    records.flatten.length < kMaxFileBytes + longest
  counted : ∀ records, gens 0 = some records → records.flatten.length ≤ r.log.currentSize
  others : ∀ name, (∀ g ≤ kMaxRotations, name ≠ generation path g) →
    r.dir.lookup name = before.lookup name

namespace Kept
variable {path : Bytes} {before : Dir} {longest : Nat} {gens : Generations Bytes} {r : LogRun}

theorem newest_le (kept : Kept path before longest gens r) :
    ((gens 0).getD []).flatten.length ≤ r.log.currentSize := by
  cases found : gens 0 with
  | none => exact Nat.zero_le _
  | some records => exact kept.counted records found

theorem rotated (kept : Kept path before longest gens r) (k : Nat) (log : ErrorLog)
    (same : log.path = path)
    (counted : ∀ records, gens.moves kMaxRotations k 0 = some records →
      records.flatten.length ≤ log.currentSize) :
    Kept path before longest (gens.moves kMaxRotations k)
      { r with log, dir := renameFiles path kMaxRotations k r.dir } where
  mine := same
  holds := kept.holds.renameFiles k (Nat.le_refl _)
  order := (Generations.oldestFirst_moves k).trans kept.order
  size g low records found := by
    obtain ⟨g', before, place⟩ := Generations.moves_of_moved found
    exact kept.size g' (by omega) records before
  counted := counted
  others name other := (lookup_renameFiles other k (Nat.le_refl _)).trans (kept.others name other)

theorem restart (kept : Kept path before longest gens r) :
    Kept path before longest gens (r.step .restart) where
  mine := kept.mine
  holds := kept.holds
  order := kept.order
  size := kept.size
  counted records found := by
    have here := kept.holds 0 (Nat.zero_le _)
    show _ ≤ ((r.dir.lookup r.log.path).map List.length).getD 0
    rw [kept.mine, show r.dir.lookup path = _ from here, found]
    exact Nat.le_refl _
  others := kept.others

theorem append (kept : Kept path before longest gens r)
    (room : r.log.currentSize < kMaxFileBytes) {text line : Bytes}
    (part : text.length ≤ line.length) (short : line.length ≤ longest) :
    Kept path before longest (gens.record text)
      { log := { r.log with currentSize := r.log.currentSize + line.length }
        dir := r.dir.append r.log.path text
        history := r.history ++ [text] } where
  mine := kept.mine
  holds := by
    rw [kept.mine]
    exact kept.holds.append text
  order := by
    rw [Generations.oldestFirst_record]
    obtain ⟨lost, split⟩ := kept.order
    exact ⟨lost, by rw [← List.append_assoc, split]⟩
  size g low records found := by
    cases g with
    | zero =>
        rw [Generations.record, Function.update_self, Option.some.injEq] at found
        rw [← found, List.flatten_append, List.length_append, List.flatten_singleton]
        have old := kept.newest_le
        omega
    | succ g =>
        rw [Generations.record, Function.update_of_ne (Nat.succ_ne_zero g)] at found
        exact kept.size (g + 1) low records found
  counted records found := by
    rw [Generations.record, Function.update_self, Option.some.injEq] at found
    rw [← found, List.flatten_append, List.length_append, List.flatten_singleton]
    exact Nat.add_le_add kept.newest_le part
  others name other := by
    have notMine : name ≠ r.log.path := by
      rw [kept.mine]
      exact other 0 (Nat.zero_le _)
    show (AList.insert _ _ _).lookup _ = _
    rw [AList.lookup_insert_ne notMine]
    exact kept.others name other

theorem length_arrives (outcome : StreamWrite) (text : Bytes) :
    (arrives outcome text).length ≤ text.length := by
  cases outcome with
  | done => exact Nat.le_refl _
  | failed written => exact (List.length_take_le' written text)

theorem write (kept : Kept path before longest gens r) {io : LogIo}
    {level : LogLevel} {message : Bytes} (short : (line io level message).length ≤ longest) :
    ∃ gens', Kept path before longest gens' (r.step (.write io level message)) := by
  obtain rfl := kept.mine
  -- The log after a rotation that returns.
  have finish {gens : Generations Bytes} {log : ErrorLog} {dir : Dir}
      (kept : Kept r.log.path before longest gens { r with log, dir })
        (room : log.currentSize < kMaxFileBytes)
      (rotated : r.log.rotateIfNeeded io r.dir = (true, log, dir)) :
      ∃ gens', Kept r.log.path before longest gens' (r.step (.write io level message)) := by
    cases opens : io.opens with
    | false =>
        refine ⟨gens, ?_⟩
        simp only [step, ErrorLog.write, rotated, opens]
        simpa using kept
    | true =>
        refine ⟨gens.record (arrives io.outcome (line io level message)), ?_⟩
        simp only [step, ErrorLog.write, rotated, opens]
        exact kept.append room (length_arrives io.outcome _) short
  by_cases room : r.log.currentSize < kMaxFileBytes
  · exact finish kept room (by rw [rotateIfNeeded, if_pos room])
  · cases renames : io.renames with
    | some k =>
        refine ⟨gens.moves kMaxRotations k, ?_⟩
        have cut := kept.rotated k r.log rfl fun records found => by
          obtain ⟨g', before, place⟩ := Generations.moves_of_moved found
          obtain rfl : g' = 0 := by omega
          exact kept.counted records before
        simp only [step, ErrorLog.write, rotateIfNeeded, if_neg room, renames]
        simpa using cut
    | none =>
        have gone : gens.moves kMaxRotations kMaxRotations 0 = none :=
          Generations.moves_newest (by decide)
        have whole :=
          kept.rotated kMaxRotations { r.log with currentSize := 0 } rfl fun records found => by
          rw [gone] at found
          cases found
        have empty : 0 < kMaxFileBytes := by decide
        refine finish whole empty ?_
        rw [rotateIfNeeded, if_neg room, renames]

end Kept
variable {path : Bytes} {before : Dir} {longest : Nat}

theorem oldestFirst_none (n : Nat) :
    Generations.oldestFirst (fun _ => none : Generations Bytes) n = [] := by
  induction n with
  | zero => rfl
  | succ n ih =>
      rw [Generations.oldestFirst, ih]
      rfl

theorem Kept.start (fresh : ∀ g ≤ kMaxRotations, before.lookup (generation path g) = none) :
    Kept path before longest (fun _ => none) (start path before) where
  mine := rfl
  holds := fresh
  order := by
    rw [oldestFirst_none]
    exact List.nil_suffix
  size := nofun
  counted := nofun
  others _ _ := rfl

/-- A log that starts without files, through any writes, any rotations that are cut short and any
new processes. -/
def logMachine (path : Bytes) (before : Dir) : Machine LogRun LogEvent :=
  Machine.ofFun (start path before) step

/-- The files of the log, from the oldest to the newest, hold the newest lines that were written,
each file within the limit and the longest line, and no other file is touched. -/
theorem keeps_newest {r : LogRun}
    (fresh : ∀ g ≤ kMaxRotations, before.lookup (generation path g) = none)
    (reached : (logMachine path before).Reach (Short longest) r) :
    ∃ gens, Kept path before longest gens r := by
  refine reached.invariant
    (I := fun r => ∃ gens, Kept path before longest gens r) (fun r start => ?_)
    fun r e r' kept moved short => ?_
  · cases start
    exact ⟨_, Kept.start fresh⟩
  · obtain ⟨gens, kept⟩ := kept
    cases moved
    cases e with
    | write io level message => exact kept.write short
    | restart => exact ⟨gens, kept.restart⟩

/-! ## What a log keeps when nothing fails -/

def Clean : LogEvent → Prop
  | .write io _ _ => io.renames = none ∧ io.opens = true ∧ io.outcome = .done
  | .restart => True

structure Full (path : Bytes) (gens : Generations Bytes) (r : LogRun) : Prop where
  mine : r.log.path = path
  holds : Holds path gens r.dir
  steady : ∀ g, g + 1 < kMaxRotations → (gens (g + 2)).isSome = true → (gens (g + 1)).isSome = true
  full : ∀ g < kMaxRotations, ∀ records, gens (g + 1) = some records →
    kMaxFileBytes ≤ records.flatten.length
  counted : r.log.currentSize = ((gens 0).getD []).flatten.length
  all : gens.oldestFirst kMaxRotations = r.history ∨ (gens kMaxRotations).isSome = true

namespace Full
variable {path : Bytes} {gens : Generations Bytes} {r : LogRun}

theorem present (full : Full path gens r) (last : (gens kMaxRotations).isSome = true) {g : Nat}
    (low : g < kMaxRotations) :
    (gens (g + 1)).isSome = true := by
  obtain ⟨d, eq⟩ := Nat.exists_eq_add_of_le low
  induction d generalizing g with
  | zero => rwa [eq] at last
  | succ d ih => exact full.steady g (by omega) (ih (by omega) (by omega))

theorem record (full : Full path gens r) (text : Bytes) : Full path (gens.record text)
    { log := { r.log with currentSize := r.log.currentSize + text.length }
      dir := r.dir.append r.log.path text
      history := r.history ++ [text] } where
  mine := full.mine
  holds := by
    rw [full.mine]
    exact full.holds.append text
  steady g low there := by
    rw [Generations.record, Function.update_of_ne (Nat.succ_ne_zero _)] at there ⊢
    exact full.steady g low there
  full g low records found := by
    rw [Generations.record, Function.update_of_ne (Nat.succ_ne_zero _)] at found
    exact full.full g low records found
  counted := by
    show r.log.currentSize + text.length = _
    rw [Generations.record, Function.update_self, Option.getD_some,
      List.flatten_append, List.length_append, List.flatten_singleton, full.counted]
  all := by
    rcases full.all with all | last
    · exact .inl (by rw [Generations.oldestFirst_record, all])
    · refine .inr ?_
      rw [Generations.record, Function.update_of_ne (by decide)]
      exact last

theorem rotate (full : Full path gens r) (enough : ¬ r.log.currentSize < kMaxFileBytes) {dir : Dir}
    (holds : Holds path (gens.moves kMaxRotations kMaxRotations) dir) :
    Full path (gens.moves kMaxRotations kMaxRotations)
      { r with log := { r.log with currentSize := 0 }, dir } := by
  have newest : (gens 0).isSome = true ∧ kMaxFileBytes ≤ ((gens 0).getD []).flatten.length := by
    have long := full.counted
    cases found : gens 0 with
    | none =>
        rw [found] at long
        exact absurd (show r.log.currentSize < kMaxFileBytes from long ▸ (by decide)) enough
    | some records =>
        rw [found] at long
        exact ⟨rfl, long ▸ Nat.not_lt.mp enough⟩
  have steady : ∀ g < kMaxRotations, (gens (g + 1)).isSome = true → (gens g).isSome = true := by
    intro g low there
    cases g with
    | zero => exact newest.1
    | succ g => exact full.steady g low there
  have moved {g : Nat} (low : g < kMaxRotations) : gens.moves kMaxRotations kMaxRotations (g + 1) =
      gens g :=
    Generations.moves_whole steady low
  have vacated : gens.moves kMaxRotations kMaxRotations 0 = none :=
    Generations.moves_newest (by decide)
  refine ⟨full.mine, holds, fun g low there => ?_, fun g low records found => ?_, ?_, ?_⟩
  · rw [moved low] at there
    rw [moved (Nat.lt_of_succ_lt low)]
    exact steady g (Nat.lt_of_succ_lt low) there
  · rw [moved low] at found
    cases g with
    | zero =>
        have long := newest.2
        rwa [found] at long
    | succ g => exact full.full g (Nat.lt_of_succ_lt low) records found
  · rw [vacated]
    rfl
  · by_cases last : (gens kMaxRotations).isSome = true
    · refine .inr ?_
      rw [show gens.moves kMaxRotations kMaxRotations kMaxRotations = gens 9 from moved (by decide)]
      exact full.present last (g := 8) (by decide)
    · refine .inl ?_
      rw [Generations.oldestFirst_moves_vacant _ (Nat.le_refl _) (by simpa using last)]
      exact full.all.resolve_right last

theorem write (full : Full path gens r) {io : LogIo} {level : LogLevel} {message : Bytes}
    (clean : Clean (.write io level message)) :
    ∃ gens', Full path gens' (r.step (.write io level message)) := by
  obtain rfl := full.mine
  obtain ⟨renames, opens, outcome⟩ := clean
  by_cases room : r.log.currentSize < kMaxFileBytes
  · refine ⟨gens.record (line io level message), ?_⟩
    simp only [step, ErrorLog.write, rotateIfNeeded, if_pos room, opens, outcome]
    exact full.record (line io level message)
  · refine ⟨(gens.moves kMaxRotations kMaxRotations).record (line io level message), ?_⟩
    have holds := full.holds.renameFiles kMaxRotations (Nat.le_refl _)
    simp only [step, ErrorLog.write, rotateIfNeeded, if_neg room, renames, opens, outcome]
    generalize renameFiles r.log.path kMaxRotations kMaxRotations r.dir = dir at holds ⊢
    exact (full.rotate room holds).record (line io level message)

theorem restart (full : Full path gens r) : Full path gens (r.step .restart) where
  mine := full.mine
  holds := full.holds
  steady := full.steady
  full := full.full
  counted := by
    have here := full.holds 0 (Nat.zero_le _)
    show ((r.dir.lookup r.log.path).map List.length).getD 0 = _
    rw [full.mine, show r.dir.lookup path = _ from here]
    cases gens 0 <;> rfl
  all := full.all

theorem start {before : Dir}
    (fresh : ∀ g ≤ kMaxRotations, before.lookup (generation path g) = none) :
    Full path (fun _ => none) (start path before) where
  mine := rfl
  holds := fresh
  steady _ _ there := nomatch there
  full := nofun
  counted := by
    show ((before.lookup path).map List.length).getD 0 = _
    rw [show before.lookup path = none from fresh 0 (Nat.zero_le _)]
    rfl
  all := .inl (oldestFirst_none _)

end Full

/-- As long as nothing fails, either every line is still there, or ten files older than the newest
hold at least `kMaxFileBytes` each. -/
theorem keeps_enough {r : LogRun}
    (fresh : ∀ g ≤ kMaxRotations, before.lookup (generation path g) = none)
    (reached : (logMachine path before).Reach (fun _ e => Clean e) r) :
    ∃ gens, Holds path gens r.dir ∧ (gens.oldestFirst kMaxRotations = r.history ∨
      ∀ g < kMaxRotations, ∃ records, gens (g + 1) = some records ∧
        kMaxFileBytes ≤ records.flatten.length) := by
  have kept : ∃ gens, Full path gens r := by
    refine reached.invariant (I := fun r => ∃ gens, Full path gens r)
      (fun r start => ?_) fun r e r' kept moved clean => ?_
    · cases start
      exact ⟨_, Full.start fresh⟩
    · obtain ⟨gens, full⟩ := kept
      cases moved
      cases e with
      | write io level message => exact full.write clean
      | restart => exact ⟨gens, full.restart⟩
  obtain ⟨gens, full⟩ := kept
  refine ⟨gens, full.holds, full.all.imp_right fun last g low => ?_⟩
  obtain ⟨records, found⟩ := Option.isSome_iff_exists.mp (full.present last low)
  exact ⟨records, found, full.full g low records found⟩

/-! ## A rotation by a new process -/

def sampleIo : LogIo := { utcNow := ascii "2026-01-01T00:00:00Z" }

/-- After a message a new process writes another one. -/
def restartedEvents (message : Bytes) (io : LogIo) : List LogEvent :=
  [.write sampleIo .kInfo message, .restart, .write io .kWarning (ascii "storage warning")]

def restartedRun (message : Bytes) (io : LogIo) : LogRun :=
  (restartedEvents message io).foldl step (start (ascii "error.log") ∅)

theorem length_line (io : LogIo) (level : LogLevel) (message : Bytes) :
    (line io level message).length =
      io.utcNow.length + (levelToString level).length + message.length + 5 := by
  simp only [line, List.length_append, List.length_singleton, show (ascii " [").length = 2 from rfl,
    show (ascii "] ").length = 2 from rfl]
  omega

theorem renameFiles_newest {path : Bytes} {dir : Dir} {m : Nat}
    (none : ∀ g, 0 < g → g ≤ m → dir.lookup (generation path g) = none) :
    renameFiles path (m + 1) (m + 1) dir = renameFile path (generation path 1) dir := by
  induction m with
  | zero => rfl
  | succ m ih =>
      have missing : renameFile (generation path (m + 1)) (generation path (m + 2)) dir = dir := by
        rw [renameFile, none (m + 1) (Nat.succ_pos m) le_rfl]
      rw [renameFiles, missing]
      exact ih fun g pos low => none g pos (Nat.le_succ_of_le low)

theorem restartedRun_rotates {message : Bytes} (long : kMaxFileBytes ≤ message.length) {io : LogIo}
    (renames : io.renames = none) (opens : io.opens = true) :
    (restartedRun message io).dir.lookup (generation (ascii "error.log") 1) =
      some (line sampleIo .kInfo message) := by
  have others (g : Nat) (pos : 0 < g) : generation (ascii "error.log") g ≠ ascii "error.log" := by
    intro same
    have first : generation (ascii "error.log") g = generation (ascii "error.log") 0 := same
    exact absurd (generation_injective first) pos.ne'
  let dir : Dir := (∅ : Dir).append (ascii "error.log") (line sampleIo .kInfo message)
  have content : dir.lookup (ascii "error.log") = some (line sampleIo .kInfo message) :=
    AList.lookup_insert _
  have older (g : Nat) (pos : 0 < g) (_ : g ≤ 9) : dir.lookup
      (generation (ascii "error.log") g) = none := by
    show (AList.insert _ _ _).lookup _ = _
    rw [AList.lookup_insert_ne (others g pos)]
    exact AList.lookup_empty _
  have renamed := @renameFiles_newest (ascii "error.log") dir 9 older
  have full : ¬ (ErrorLog.create (ascii "error.log") dir).currentSize < kMaxFileBytes := by
    rw [ErrorLog.create, content]
    show ¬ (line sampleIo .kInfo message).length < kMaxFileBytes
    rw [length_line]
    omega
  have rotates : (ErrorLog.create (ascii "error.log") dir).rotateIfNeeded io dir =
      (true, { path := ascii "error.log", currentSize := 0 },
        renameFile (ascii "error.log") (generation (ascii "error.log") 1) dir) := by
    rw [rotateIfNeeded, if_neg full, renames]
    show (true, ({ path := ascii "error.log" } : ErrorLog),
      renameFiles (ascii "error.log") (9 + 1) (9 + 1) dir) = _
    rw [renamed]
  show (LogRun.dir
    (step { log := ErrorLog.create (ascii "error.log") dir, dir } (.write io _ _))).lookup _ = _
  rw [step, ErrorLog.write, rotates, opens]
  show (AList.insert _ _ (renameFile _ _ dir)).lookup _ = _
  rw [AList.lookup_insert_ne (others 1 Nat.one_pos), renameFile, content]
  exact AList.lookup_insert _

theorem empty_fresh :
    ∀ g ≤ kMaxRotations, (∅ : Dir).lookup (generation (ascii "error.log") g) = none :=
  fun _ _ => AList.lookup_empty _

theorem exists_full : ∃ message : Bytes, message.length = kMaxFileBytes :=
  ⟨List.replicate kMaxFileBytes 46, List.length_replicate⟩

def tornIo : LogIo := { sampleIo with outcome := .failed 5 }

theorem tornRun_newest : ∃ message gens, message.length = kMaxFileBytes ∧
    (restartedRun message tornIo).dir.lookup (generation (ascii "error.log") 1) =
      some (line sampleIo .kInfo message) ∧
    Kept (ascii "error.log") ∅ (kMaxFileBytes + 100) gens (restartedRun message tornIo) := by
  obtain ⟨message, full⟩ := exists_full
  have first : (line sampleIo .kInfo message).length ≤ kMaxFileBytes + 100 := by
    have utc : sampleIo.utcNow.length = 20 := by decide
    have level : (levelToString .kInfo).length = 4 := by decide
    rw [length_line, utc, level, full]
    omega
  have second : (line tornIo .kWarning (ascii "storage warning")).length ≤
      kMaxFileBytes + 100 := by decide
  have short : Machine.AllowedFrom (Short (kMaxFileBytes + 100)) step (start (ascii "error.log") ∅)
      (restartedEvents message tornIo) := ⟨first, trivial, second, trivial⟩
  obtain ⟨gens, kept⟩ := keeps_newest empty_fresh (.foldl short)
  exact ⟨message, gens, full, restartedRun_rotates full.ge rfl rfl, kept⟩

theorem restartedRun_enough : ∃ message gens, message.length = kMaxFileBytes ∧
    (restartedRun message sampleIo).dir.lookup (generation (ascii "error.log") 1) =
      some (line sampleIo .kInfo message) ∧
    Holds (ascii "error.log") gens (restartedRun message sampleIo).dir ∧
      (gens.oldestFirst kMaxRotations = (restartedRun message sampleIo).history ∨
        ∀ g < kMaxRotations, ∃ records, gens (g + 1) = some records ∧
          kMaxFileBytes ≤ records.flatten.length) := by
  obtain ⟨message, full⟩ := exists_full
  have clean : Machine.AllowedFrom (fun _ e => Clean e) step (start (ascii "error.log") ∅)
      (restartedEvents message sampleIo) := ⟨⟨rfl, rfl, rfl⟩, trivial, ⟨rfl, rfl, rfl⟩, trivial⟩
  obtain ⟨gens, holds, enough⟩ := keeps_enough empty_fresh (.foldl clean)
  exact ⟨message, gens, full, restartedRun_rotates full.ge rfl rfl, holds, enough⟩

end LogRun
end LocalPC.Runtime
