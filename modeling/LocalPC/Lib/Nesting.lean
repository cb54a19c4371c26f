import Mathlib.Data.List.Infix

namespace LocalPC.Lib
variable {α : Type*} [DecidableEq α]

structure Marks (α : Type*) where
  quote : α
  escape : α
  separator : α
  opens : α → Bool
  closes : α → Bool

inductive TextPlace
  | outside (depth : Nat)
  | inString (depth : Nat)
  | escaped (depth : Nat)
  deriving DecidableEq, Repr

def TextPlace.depth : TextPlace → Nat
  | outside depth | inString depth | escaped depth => depth

namespace Marks
variable (m : Marks α)

def step : TextPlace → α → TextPlace
  | .outside depth, c =>
      if c = m.quote then .inString depth
      else if m.opens c then .outside (depth + 1)
      else if m.closes c then .outside (depth - 1)
      else .outside depth
  | .inString depth, c =>
      if c = m.quote then .outside depth
        else if c = m.escape then .escaped depth else .inString depth
  | .escaped depth, _ => .inString depth

/-- The place behind a text that starts at `place`. -/
def scan (place : TextPlace) (text : List α) : TextPlace := text.foldl m.step place

def IsPlain (c : α) : Prop := c ≠ m.quote ∧ c ≠ m.separator ∧ m.opens c = false ∧ m.closes c = false

instance (c : α) : Decidable (m.IsPlain c) :=
  inferInstanceAs
    (Decidable (c ≠ m.quote ∧ c ≠ m.separator ∧ m.opens c = false ∧ m.closes c = false))

structure Nested (w : List α) : Prop where
  returns : ∀ depth, m.scan (.outside depth) w = .outside depth
  above : ∀ depth p, p <+: w → depth ≤ (m.scan (.outside depth) p).depth

structure Item (w : List α) : Prop extends m.Nested w where
  unsplit : ∀ depth front, front ++ [m.separator] <+: w →
    m.scan (.outside depth) front ≠ .outside depth

structure StringRest (w : List α) : Prop where
  closes : ∀ depth, m.scan (.inString depth) w = .outside depth
  inside : ∀ depth p, p <+: w → p ≠ w →
    m.scan (.inString depth) p = .inString depth ∨ m.scan (.inString depth) p = .escaped depth

variable {m} {v w : List α} {c : α}

@[simp] theorem scan_nil (place : TextPlace) : m.scan place [] = place := rfl

@[simp] theorem scan_cons (place : TextPlace) (c : α) (w : List α) :
    m.scan place (c :: w) = m.scan (m.step place c) w := rfl

theorem scan_append (place : TextPlace) (v w : List α) :
    m.scan place (v ++ w) = m.scan (m.scan place v) w :=
  List.foldl_append

omit [DecidableEq α] in
theorem inside_or_behind {p : List α} (start : p <+: v ++ w) :
    (p <+: v ∧ p ≠ v) ∨ ∃ q, p = v ++ q ∧ q <+: w := by
  by_cases long : v <+: p
  · obtain ⟨q, rfl⟩ := long
    exact .inr ⟨q, rfl, (List.prefix_append_right_inj v).mp start⟩
  · have short :=
      (List.prefix_or_prefix_of_prefix start (List.prefix_append v w)).resolve_right long
    exact .inl ⟨short, fun whole => long (whole ▸ List.prefix_refl v)⟩

omit [DecidableEq α] in
theorem start_of_singleton {p : List α} (start : p <+: [c]) : p = [] ∨ p = [c] := by
  rcases List.prefix_cons_iff.mp start with rfl | ⟨q, rfl, nothing⟩
  · exact .inl rfl
  · exact .inr (by rw [List.prefix_nil.mp nothing])

theorem Nested.nil : m.Nested [] := by
  refine ⟨fun depth => rfl, fun depth p part => ?_⟩
  rw [List.prefix_nil.mp part]
  exact Nat.le_refl depth

theorem Nested.append (first : m.Nested v) (second : m.Nested w) : m.Nested (v ++ w) := by
  refine ⟨fun depth => ?_, fun depth p part => ?_⟩
  · rw [scan_append, first.returns, second.returns]
  · rcases inside_or_behind part with ⟨early, -⟩ | ⟨q, rfl, late⟩
    · exact first.above depth p early
    · rw [scan_append, first.returns]
      exact second.above depth q late

theorem Nested.singleton (unquoted : c ≠ m.quote) (flat : m.opens c = false ∧ m.closes c = false) :
    m.Nested [c] := by
  have stays (depth : Nat) : m.step (.outside depth) c = .outside depth := by
    rw [step, if_neg unquoted, flat.1, flat.2]
    rfl
  refine ⟨fun depth => stays depth, fun depth p part => ?_⟩
  rcases start_of_singleton part with rfl | rfl
  · exact Nat.le_refl depth
  · rw [scan_cons, stays]
    exact Nat.le_refl depth

theorem Item.nil : m.Item [] := by
  refine ⟨Nested.nil, fun depth front part => ?_⟩
  exact absurd (List.prefix_nil.mp part) (by simp)

theorem Item.append (first : m.Item v) (second : m.Item w) : m.Item (v ++ w) := by
  refine ⟨first.toNested.append second.toNested, fun depth front part => ?_⟩
  rcases inside_or_behind part with ⟨early, -⟩ | ⟨q, same, late⟩
  · exact first.unsplit depth front early
  · rcases List.eq_nil_or_concat q with rfl | ⟨front', last, rfl⟩
    · rw [List.append_nil] at same
      exact first.unsplit depth front (same ▸ List.prefix_refl _)
    · rw [List.concat_eq_append, ← List.append_assoc] at same
      obtain ⟨rfl, lastEq⟩ := List.append_inj' same rfl
      obtain rfl : m.separator = last := List.head_eq_of_cons_eq lastEq
      rw [scan_append, first.returns]
      exact second.unsplit depth front' (by rwa [List.concat_eq_append] at late)

theorem Item.singleton (plain : m.IsPlain c) : m.Item [c] := by
  refine ⟨Nested.singleton plain.1 plain.2.2, fun depth front part => ?_⟩
  rcases start_of_singleton part with empty | whole
  · exact absurd empty (by simp)
  · have last :=
      List.mem_singleton.mp
        (whole ▸ List.mem_append_right front (List.mem_singleton_self m.separator))
    exact absurd last.symm plain.2.1

theorem Item.of_plain (plain : ∀ c ∈ w, m.IsPlain c) : m.Item w := by
  induction w with
  | nil => exact Item.nil
  | cons c w ih =>
      have first := Item.singleton (plain c List.mem_cons_self)
      exact first.append (ih fun d mem => plain d (List.mem_cons_of_mem c mem))

theorem step_quote (depth : Nat) : m.step (.outside depth) m.quote = .inString depth := if_pos rfl

theorem step_opens (unquoted : c ≠ m.quote) (opens : m.opens c = true) (depth : Nat) :
    m.step (.outside depth) c = .outside (depth + 1) := by
  simp only [step, if_neg unquoted, if_pos opens]

theorem step_closes (unquoted : c ≠ m.quote)
    (closes : m.opens c = false ∧ m.closes c = true) (depth : Nat) :
    m.step (.outside (depth + 1)) c = .outside depth := by
  simp only [step, if_neg unquoted, closes.1, closes.2]
  rfl

theorem Nested.deeper {o : α} (unquoted : o ≠ m.quote) (opens : m.opens o = true)
    (inner : m.Nested w) (depth : Nat) {p : List α} (part : p <+: o :: w) (nonempty : p ≠ []) :
    depth + 1 ≤ (m.scan (.outside depth) p).depth := by
  rcases List.prefix_cons_iff.mp part with empty | ⟨q, rfl, inside⟩
  · exact absurd empty nonempty
  · rw [scan_cons, step_opens unquoted opens]
    exact inner.above (depth + 1) q inside

theorem Item.bracketed {o : α} (unquoted : o ≠ m.quote)
    (opens : m.opens o = true) (inner : m.Nested w) (unquoted' : c ≠ m.quote)
    (closes : m.opens c = false ∧ m.closes c = true) (flat : m.opens m.separator = false) :
    m.Item (o :: w ++ [c]) := by
  have returns (depth : Nat) : m.scan (.outside depth) (o :: w ++ [c]) = .outside depth := by
    have within : m.scan (.outside depth) (o :: w) = .outside (depth + 1) := by
      rw [scan_cons, step_opens unquoted opens, inner.returns]
    rw [scan_append, within, scan_cons, step_closes unquoted' closes, scan_nil]
  refine ⟨⟨returns, fun depth p part => ?_⟩, fun depth front part => ?_⟩
  · rcases inside_or_behind part with ⟨within, -⟩ | ⟨q, rfl, last⟩
    · by_cases empty : p = []
      · rw [empty]
        exact Nat.le_refl depth
      · exact Nat.le_of_succ_le (inner.deeper unquoted opens depth within empty)
    · rcases start_of_singleton last with rfl | rfl
      · rw [List.append_nil]
        exact Nat.le_of_succ_le
          (inner.deeper unquoted opens depth (List.prefix_refl _) (List.cons_ne_nil _ _))
      · rw [returns]
        exact Nat.le_refl depth
  · have short := part.length_le
    have within : front <+: o :: w := by
      refine List.prefix_of_prefix_length_le ((List.prefix_append _ _).trans part)
        (List.prefix_append _ _) ?_
      simp only [List.length_append, List.length_singleton] at short
      omega
    cases front with
    | nil =>
        have same :=
          List.head_eq_of_cons_eq
            (List.prefix_cons_iff.mp part |>.resolve_left (by simp)).choose_spec.1
        rw [same, opens] at flat
        cases flat
    | cons d front =>
        intro returned
        have deep := inner.deeper unquoted opens depth within (List.cons_ne_nil _ _)
        rw [returned] at deep
        exact Nat.not_succ_le_self depth deep

theorem StringRest.quote : m.StringRest [m.quote] := by
  refine ⟨fun depth => ?_, fun depth p part short => ?_⟩
  · rw [scan_cons, step, if_pos rfl, scan_nil]
  · rw [(start_of_singleton part).resolve_right short]
    exact .inl rfl

theorem StringRest.plain (unquoted : c ≠ m.quote) (unescaped : c ≠ m.escape)
    (rest : m.StringRest w) :
    m.StringRest (c :: w) := by
  have stays (depth : Nat) : m.step (.inString depth) c = .inString depth := by
    rw [step, if_neg unquoted, if_neg unescaped]
  refine ⟨fun depth => ?_, fun depth p part short => ?_⟩
  · rw [scan_cons, stays, rest.closes]
  · rcases List.prefix_cons_iff.mp part with rfl | ⟨q, rfl, inside⟩
    · exact .inl rfl
    · rw [scan_cons, stays]
      exact rest.inside depth q inside fun whole => short (by rw [whole])

theorem StringRest.escaped (unquoted : m.escape ≠ m.quote) (rest : m.StringRest w) :
    m.StringRest (m.escape :: c :: w) := by
  have starts (depth : Nat) : m.step (.inString depth) m.escape = .escaped depth := by
    rw [step, if_neg unquoted, if_pos rfl]
  refine ⟨fun depth => ?_, fun depth p part short => ?_⟩
  · rw [scan_cons, starts, scan_cons, step, rest.closes]
  · rcases List.prefix_cons_iff.mp part with rfl | ⟨p', rfl, part'⟩
    · exact .inl rfl
    rw [scan_cons, starts]
    rcases List.prefix_cons_iff.mp part' with rfl | ⟨q, rfl, inside⟩
    · exact .inr rfl
    · rw [scan_cons, step]
      exact rest.inside depth q inside fun whole => short (by rw [whole])

theorem Item.string (separate : m.separator ≠ m.quote) (rest : m.StringRest w) :
    m.Item (m.quote :: w) := by
  refine ⟨⟨fun depth => ?_, fun depth p part => ?_⟩, fun depth front part => ?_⟩
  · rw [scan_cons, step_quote, rest.closes]
  · rcases List.prefix_cons_iff.mp part with rfl | ⟨q, rfl, inside⟩
    · exact Nat.le_refl depth
    rw [scan_cons, step_quote]
    by_cases whole : q = w
    · rw [whole, rest.closes]
      exact Nat.le_refl depth
    · rcases rest.inside depth q inside whole with place | place
      all_goals
        rw [place]
        exact Nat.le_refl depth
  · cases front with
    | nil =>
        have same :=
          List.head_eq_of_cons_eq
            (List.prefix_cons_iff.mp part |>.resolve_left (by simp)).choose_spec.1
        exact absurd same separate
    | cons d front =>
        obtain ⟨rfl, within⟩ := List.cons_prefix_cons.mp part
        have short : front ≠ w := by
          rintro rfl
          have bound : (front ++ [m.separator]).length ≤ front.length := within.length_le
          rw [List.length_append, List.length_singleton] at bound
          omega
        rw [scan_cons, step_quote]
        rcases rest.inside depth front
            ((List.prefix_append _ _).trans within) short with place | place
        all_goals
          rw [place]
          exact nofun

end Marks
end LocalPC.Lib
