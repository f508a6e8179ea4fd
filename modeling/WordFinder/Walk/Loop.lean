import WordFinder.MatchSet

/-!
# Loops over a stack

A loop takes the state on top of its stack, turn by turn, until the stack is empty. A turn finds
spellings and puts further states on the stack. A turn that runs into a fault has no result, and
neither has the loop from there on.
-/
set_option autoImplicit false

namespace WordFinder

structure Turn (σ : Type) where
  /-- The spellings found, first one first. -/
  found : List String
  /-- The states put on the stack, last one on top. -/
  pushed : List σ

/-- Where a loop stands: its stack, top first, and what it has found. -/
structure Pending (σ : Type) where
  stack : List σ
  found : MatchSet := .empty

namespace Pending

variable {σ : Type}

/-- One turn. Once the stack is empty, nothing changes any more. -/
def step? (turn? : σ → Option (Turn σ)) (p : Pending σ) : Option (Pending σ) :=
  match p.stack with
  | [] => some p
  | s :: stack => do
    let turn ← turn? s
    return ⟨turn.pushed.reverse ++ stack, turn.found.foldl MatchSet.insert p.found⟩

def after? (turn? : σ → Option (Turn σ)) : Nat → Pending σ → Option (Pending σ)
  | 0, p => some p
  | n + 1, p => do (← p.step? turn?).after? turn? n

end Pending

end WordFinder
