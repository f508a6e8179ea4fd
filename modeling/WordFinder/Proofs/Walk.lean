import Mathlib
import WordFinder.Walk

/-!
# What a walk finds

A walk finds what its first states amount to, where a state amounts to what it adds at once and to
what the states that follow from it amount to. The order in which the stack is worked off does not
matter to that. What a state adds in what order is another question: everything that a state amounts
to is added before the states under it on the stack are taken.
-/
set_option autoImplicit false

namespace WordFinder.Walk

universe u v

variable {σ : Type u} {α : Type v}

/-- The states that a walk takes from its stack sooner or later. -/
inductive Reaches (w : Walk σ α) (stack : List σ) : σ → Prop where
  | start {s : σ} (member : s ∈ stack) : w.Reaches stack s
  | next {s later : σ} (reached : w.Reaches stack s) (follows : later ∈ w.next s) :
    w.Reaches stack later

theorem Reaches.valid {w : Walk σ α} {valid : σ → Prop} {stack : List σ} {s : σ}
    (reached : w.Reaches stack s) (start : ∀ first ∈ stack, valid first)
    (keeps : ∀ s, valid s → ∀ later ∈ w.next s, valid later) : valid s := by
  induction reached with
  | start member => exact start _ member
  | next _ follows ih => exact keeps _ ih _ follows

variable (w : Walk σ α) (holds : α → Prop) (now total valid : σ → Prop)

theorem valid_push {valid : σ → Prop} (keeps : ∀ s, valid s → ∀ later ∈ w.next s, valid later)
    {s : σ} {stack : List σ} (allValid : ∀ later ∈ s :: stack, valid later) :
    ∀ later ∈ w.push s stack, valid later := by
  obtain ⟨top, rest⟩ := List.forall_mem_cons.mp allValid
  intro later member
  rcases List.mem_append.mp member with next | under
  · exact keeps s top later (List.mem_reverse.mp next)
  · exact rest later under

/-- The induction is on the run of the walk; each step moves what the state on top amounts to into
what was found and into the states put in its place. -/
theorem holds_run
    (visits : ∀ found s, valid s → (holds (w.visit found s) ↔ holds found ∨ now s))
    (keeps : ∀ s, valid s → ∀ later ∈ w.next s, valid later)
    (totals : ∀ s, valid s → (total s ↔ now s ∨ ∃ later ∈ w.next s, total later))
    (found : α) (stack : List σ) (allValid : ∀ s ∈ stack, valid s) :
    holds (w.run found stack) ↔ holds found ∨ ∃ s ∈ stack, total s := by
  induction found, stack using Walk.run.induct (w := w) with
  | case1 found => simp [run]
  | case2 found s stack ih =>
    have top := allValid s (List.mem_cons_self ..)
    have split : (∃ later ∈ w.push s stack, total later) ↔
        (∃ later ∈ w.next s, total later) ∨ ∃ later ∈ stack, total later := by
      simp only [push, List.mem_append, List.mem_reverse, or_and_right, exists_or]
    rw [run, ih (w.valid_push keeps allValid), visits found s top, split, or_assoc,
      ← or_assoc (a := now s), ← totals s top]
    simp

theorem keeps_run (visits : ∀ found s, valid s → holds found → holds (w.visit found s))
    (keeps : ∀ s, valid s → ∀ later ∈ w.next s, valid later)
    (found : α) (stack : List σ) (allValid : ∀ s ∈ stack, valid s) (start : holds found) :
    holds (w.run found stack) := by
  induction found, stack using Walk.run.induct (w := w) with
  | case1 found => rwa [run]
  | case2 found s stack ih =>
    rw [run]
    exact ih (w.valid_push keeps allValid)
      (visits found s (allValid s (List.mem_cons_self ..)) start)

/-- What is added one after the other: a state adds what it adds at once, and then, from the last of
the states that follow from it to the first, everything that they amount to. -/
theorem look_run {β γ : Type} (look : α → β) (add : β → γ → β) (now total : σ → List γ)
    (visits : ∀ found s, valid s → look (w.visit found s) = (now s).foldl add (look found))
    (keeps : ∀ s, valid s → ∀ later ∈ w.next s, valid later)
    (totals : ∀ s, valid s → total s = now s ++ (w.next s).reverse.flatMap total)
    (found : α) (stack : List σ) (allValid : ∀ s ∈ stack, valid s) :
    look (w.run found stack) = (stack.flatMap total).foldl add (look found) := by
  induction found, stack using Walk.run.induct (w := w) with
  | case1 found => simp [run]
  | case2 found s stack ih =>
    have top := allValid s (List.mem_cons_self ..)
    rw [run, ih (w.valid_push keeps allValid), visits found s top, push, List.flatMap_append,
      List.foldl_append, List.flatMap_cons, List.foldl_append, totals s top, List.foldl_append]

end WordFinder.Walk
