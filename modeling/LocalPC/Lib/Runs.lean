import Mathlib.Tactic.TypeStar

namespace LocalPC.Lib

structure Machine (σ ε : Type*) where
  init : σ → Prop
  step : σ → ε → σ → Prop

namespace Machine
variable {σ ε : Type*}

def ofFun (start : σ) (next : σ → ε → σ) : Machine σ ε where
  init s := s = start
  step s e t := t = next s e

inductive Reach (S : Machine σ ε) (allowed : σ → ε → Prop) : σ → Prop
  | init {s : σ} : S.init s → Reach S allowed s
  | step {s t : σ} {e : ε} : Reach S allowed s → S.step s e t → allowed s e → Reach S allowed t

variable {S : Machine σ ε} {allowed : σ → ε → Prop}

theorem Reach.invariant {I : σ → Prop} (initial : ∀ s, S.init s → I s)
    (kept : ∀ s e t, I s → S.step s e t → allowed s e → I t) {s : σ}
    (reached : S.Reach allowed s) : I s := by
  induction reached with
  | init start => exact initial _ start
  | step _ move ok ih => exact kept _ _ _ ih move ok

theorem Reach.mono {allowed' : σ → ε → Prop} {s : σ} (reached : S.Reach allowed s)
    (weaker : ∀ s e, allowed s e → allowed' s e) : S.Reach allowed' s := by
  induction reached with
  | init start => exact .init start
  | step _ move ok ih => exact .step ih move (weaker _ _ ok)

def AllowedFrom (allowed : σ → ε → Prop) (next : σ → ε → σ) : σ → List ε → Prop
  | _, [] => True
  | s, e :: labels => allowed s e ∧ AllowedFrom allowed next (next s e) labels

theorem Reach.foldl {start : σ} {next : σ → ε → σ} {labels : List ε}
    (ok : AllowedFrom allowed next start labels) :
    (ofFun start next).Reach allowed (labels.foldl next start) := by
  suffices ∀ s, (ofFun start next).Reach allowed s → AllowedFrom allowed next s labels →
      (ofFun start next).Reach allowed (labels.foldl next s) from this start (.init rfl) ok
  clear ok
  induction labels with
  | nil => exact fun s reached _ => reached
  | cons e labels ih => exact fun s reached ok => ih _ (.step reached rfl ok.1) ok.2

def ofPartial (start : σ) (next : σ → ε → Option σ) : Machine σ ε where
  init s := s = start
  step s e t := next s e = some t

def AllowedAlong (allowed : σ → ε → Prop) (next : σ → ε → Option σ) : σ → List ε → Prop
  | _, [] => True
  | s, e :: labels => allowed s e ∧ ∀ t ∈ next s e, AllowedAlong allowed next t labels

instance AllowedAlong.decide [∀ s e, Decidable (allowed s e)] (next : σ → ε → Option σ)
    (s : σ) (labels : List ε) :
    Decidable (AllowedAlong allowed next s labels) :=
  match labels with
  | [] => .isTrue trivial
  | e :: labels =>
      have : ∀ t, Decidable (AllowedAlong allowed next t labels) := fun t => decide next t labels
      inferInstanceAs (Decidable (allowed s e ∧ ∀ t ∈ next s e, AllowedAlong allowed next t labels))

theorem allowedAlong_true (next : σ → ε → Option σ) (s : σ) (labels : List ε) :
    AllowedAlong (fun _ _ => True) next s labels := by
  induction labels generalizing s with
  | nil => trivial
  | cons e labels ih => exact ⟨trivial, fun t _ => ih t⟩

theorem Reach.foldlM {start : σ} {next : σ → ε → Option σ} {labels : List ε} {s : σ}
    (ran : labels.foldlM next start = some s) (ok : AllowedAlong allowed next start labels) :
    (ofPartial start next).Reach allowed s := by
  suffices ∀ r, (ofPartial start next).Reach allowed r → labels.foldlM next r = some s →
      AllowedAlong allowed next r labels →
        (ofPartial start next).Reach allowed s from this start (.init rfl) ran ok
  clear ran ok
  induction labels with
  | nil =>
      intro r reached ran _
      cases ran
      exact reached
  | cons e labels ih =>
      intro r reached ran ok
      rw [List.foldlM_cons] at ran
      obtain ⟨t, moved, rest⟩ := Option.bind_eq_some_iff.mp ran
      exact ih t (.step reached moved ok.1) rest (ok.2 t moved)

/-- A step function that also keeps a record of its run, which no step reads. -/
def recording {τ : Type*} (next : σ → ε → Option σ) (note : σ → ε → τ → τ) (p : σ × τ)
    (e : ε) : Option (σ × τ) :=
  (next p.1 e).map fun t => (t, note p.1 e p.2)

section Recording
variable {τ : Type*} {start : σ} {blank : τ} {next : σ → ε → Option σ} {note : σ → ε → τ → τ}

theorem recording_eq_some {p q : σ × τ} {e : ε} (moved : recording next note p e = some q) :
    next p.1 e = some q.1 ∧ q.2 = note p.1 e p.2 := by
  obtain ⟨t, found, rfl⟩ := Option.map_eq_some_iff.mp moved
  exact ⟨found, rfl⟩

end Recording

/-- How many labels of a run count, each where the step function takes it. -/
def tally (next : σ → ε → Option σ) (counts : σ → ε → Bool) : σ → List ε → Nat
  | _, [] => 0
  | s, e :: labels =>
      (if counts s e then 1 else 0) + ((next s e).elim 0 fun t => tally next counts t labels)

theorem tally_le_rank {next : σ → ε → Option σ} {counts : σ → ε → Bool}
    {I inside : σ → Prop} {rank : σ → Nat} (falls : ∀ s e t, I s → inside s → next s e = some t →
      I t ∧ (inside t → rank t + (if counts s e then 1 else 0) ≤ rank s))
    {labels : List ε} {s t : σ} (start : I s) (ran : labels.foldlM next s = some t)
    (stays : ∀ done, done <+: labels → ∀ u, done.foldlM next s = some u → inside u) :
    rank t + tally next counts s labels ≤ rank s := by
  induction labels generalizing s with
  | nil =>
      cases ran
      exact Nat.le_refl _
  | cons e labels ih =>
      rw [List.foldlM_cons] at ran
      obtain ⟨u, moved, rest⟩ := Option.bind_eq_some_iff.mp ran
      have after : ∀ done, done <+: labels → ∀ v, done.foldlM next u = some v → inside v := by
        intro done cut v there
        refine stays (e :: done) ((List.prefix_cons_inj e).mpr cut) v ?_
        rw [List.foldlM_cons, moved]
        exact there
      obtain ⟨kept, lower⟩ := falls s e u start (stays [] List.nil_prefix s rfl) moved
      have low := lower (after [] List.nil_prefix u rfl)
      have rest := ih kept rest after
      rw [tally, moved, Option.elim_some]
      omega

end Machine
end LocalPC.Lib
