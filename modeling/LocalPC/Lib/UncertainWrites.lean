import Mathlib.Data.List.Induction
import Mathlib.Logic.Function.Basic

namespace LocalPC.Lib
variable {κ β : Type*} [DecidableEq κ]

structure Write (κ β : Type*) where
  key : κ
  value : β
  confirmed : Bool

def AfterWrites : List (Write κ β) → (κ → Option β) → (κ → Option β) → Prop
  | [], store, after => after = store
  | w :: ws, store, after =>
      AfterWrites ws (Function.update store w.key (some w.value)) after ∨
        w.confirmed = false ∧ AfterWrites ws store after

structure Confirms (k : κ) (v : β) (ws : List (Write κ β)) : Prop where
  keys : ∀ w ∈ ws, w.key = k
  last : ∃ w, ws.getLast? = some w ∧ w.confirmed = true ∧ w.value = v

namespace AfterWrites
variable {store after : κ → Option β} {k : κ} {v : β}

theorem append_iff {first second : List (Write κ β)} : AfterWrites (first ++ second) store after ↔
    ∃ mid, AfterWrites first store mid ∧ AfterWrites second mid after := by
  induction first generalizing store with
  | nil =>
      constructor
      · intro run
        exact ⟨store, rfl, run⟩
      · rintro ⟨mid, rfl, run⟩
        exact run
  | cons w ws ih =>
      rw [List.cons_append, AfterWrites, ih, ih]
      constructor
      · rintro (⟨mid, written, rest⟩ | ⟨unsure, mid, kept, rest⟩)
        · exact ⟨mid, .inl written, rest⟩
        · exact ⟨mid, .inr ⟨unsure, kept⟩, rest⟩
      · rintro ⟨mid, written | ⟨unsure, kept⟩, rest⟩
        · exact .inl ⟨mid, written, rest⟩
        · exact .inr ⟨unsure, mid, kept, rest⟩

theorem exists_after (ws : List (Write κ β)) (store : κ → Option β) :
    ∃ after, AfterWrites ws store after := by
  induction ws generalizing store with
  | nil => exact ⟨store, rfl⟩
  | cons w ws ih =>
      obtain ⟨after, written⟩ := ih (Function.update store w.key (some w.value))
      exact ⟨after, .inl written⟩

theorem other {ws : List (Write κ β)} (run : AfterWrites ws store after)
    (absent : ∀ w ∈ ws, w.key ≠ k) :
    after k = store k := by
  induction ws generalizing store with
  | nil => rw [show after = store from run]
  | cons w ws ih =>
      obtain ⟨here, later⟩ := List.forall_mem_cons.mp absent
      rcases run with written | ⟨-, kept⟩
      · rw [ih written later, Function.update_of_ne here.symm]
      · exact ih kept later

theorem confirmed {ws : List (Write κ β)} (run : AfterWrites ws store after)
    (confirms : Confirms k v ws) :
    after k = some v := by
  obtain ⟨keys, w, last, sure, value⟩ := confirms
  obtain ⟨front, rfl⟩ := List.getLast?_eq_some_iff.mp last
  obtain ⟨mid, -, written | ⟨unsure, -⟩⟩ := append_iff.mp run
  · rw [show after = _ from written, keys w (by simp), value, Function.update_self]
  · exact absurd (sure.symm.trans unsure) (by decide)

theorem blocks {blocks : List (List (Write κ β))} (run : AfterWrites blocks.flatten store after)
    (some_ : ∃ block ∈ blocks, Confirms k v block)
    (each : ∀ block ∈ blocks, Confirms k v block ∨ ∀ w ∈ block, w.key ≠ k) : after k = some v := by
  induction blocks using List.reverseRecOn generalizing after with
  | nil =>
      obtain ⟨block, ⟨⟩, -⟩ := some_
  | append_singleton front block ih =>
      rw [List.flatten_append, List.flatten_singleton, append_iff] at run
      obtain ⟨mid, before, here⟩ := run
      rcases each block (by simp) with confirms | absent
      · exact here.confirmed confirms
      · rw [here.other absent]
        refine ih before ?_ fun block member => each block (List.mem_append_left _ member)
        obtain ⟨found, member, confirms⟩ := some_
        rcases List.mem_append.mp member with early | late
        · exact ⟨found, early, confirms⟩
        · rw [List.mem_singleton.mp late] at confirms
          obtain ⟨w, last, -⟩ := confirms.last
          have inside := List.mem_of_getLast? last
          exact absurd (confirms.keys w inside) (absent w inside)

end AfterWrites

end LocalPC.Lib
