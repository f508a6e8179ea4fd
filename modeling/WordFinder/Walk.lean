import WordFinder.Total

/-!
# Walks with a stack of pending states

A walk keeps a stack of states. It takes the state on top, lets it add to what was found, and puts
the states that follow from it on the stack, the last of them on top. A walk ends because the states
that follow from a state weigh less together than the state.
-/
set_option autoImplicit false

namespace WordFinder

universe u v

/-- A walk over states `σ` that collects into `α`. -/
structure Walk (σ : Type u) (α : Type v) where
  /-- What was found, once a state has added to it. -/
  visit : α → σ → α
  /-- The states that follow from a state. -/
  next : σ → List σ
  weight : σ → Nat
  weight_next : ∀ s, totalOf weight (next s) < weight s

namespace Walk

variable {σ : Type u} {α : Type v}

def stackWeight (w : Walk σ α) (stack : List σ) : Nat :=
  totalOf w.weight stack

/-- The stack after the state on top was taken. -/
def push (w : Walk σ α) (s : σ) (stack : List σ) : List σ :=
  (w.next s).reverse ++ stack

theorem stackWeight_push (w : Walk σ α) (s : σ) (stack : List σ) :
    w.stackWeight (w.push s stack) < w.stackWeight (s :: stack) := by
  simp only [stackWeight, push, totalOf_append, totalOf_reverse, totalOf]
  exact Nat.add_lt_add_right (w.weight_next s) _

def run (w : Walk σ α) (found : α) : List σ → α
  | [] => found
  | s :: stack => w.run (w.visit found s) (w.push s stack)
termination_by stack => w.stackWeight stack
decreasing_by exact w.stackWeight_push s stack

end Walk

end WordFinder
