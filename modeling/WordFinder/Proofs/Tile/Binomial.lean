import Mathlib
import WordFinder.Tile.Bag

/-!
# Binomial coefficients by products and quotients

A binomial coefficient is computed by multiplying and dividing in turn. In exact arithmetic the product
so far is a binomial coefficient after every step, so each division leaves no remainder.
-/
set_option autoImplicit false

namespace WordFinder

/-- The product so far, after some steps of the computation of a binomial coefficient. -/
def binomialSteps (α : Type) [NatCast α] [Mul α] [Div α] (m steps : Nat) : α :=
  (List.range steps).foldl
    (fun product i => product * ((m - i : Nat) : α) / ((i + 1 : Nat) : α)) ((1 : Nat) : α)

theorem binomial_eq_steps (α : Type) [NatCast α] [Mul α] [Div α] (m n : Nat) :
    binomial α m n = if n > m then ((0 : Nat) : α) else binomialSteps α m (min n (m - n)) :=
  rfl

theorem binomialSteps_succ (α : Type) [NatCast α] [Mul α] [Div α] (m steps : Nat) :
    binomialSteps α m (steps + 1) =
      binomialSteps α m steps * ((m - steps : Nat) : α) / ((steps + 1 : Nat) : α) := by
  rw [binomialSteps, List.range_succ, List.foldl_append]
  rfl

/-- Each step multiplies by the number of things left and divides by the number of things taken. -/
theorem binomialSteps_rat (m steps : Nat) : binomialSteps Rat m steps = (m.choose steps : Rat) := by
  induction steps with
  | zero => rw [Nat.choose_zero_right]; rfl
  | succ steps ih =>
    have positive : ((steps + 1 : Nat) : Rat) ≠ 0 := by exact_mod_cast Nat.succ_ne_zero steps
    rw [binomialSteps_succ, ih, div_eq_iff positive]
    exact_mod_cast (m.choose_succ_right_eq steps).symm

theorem binomial_rat (m n : Nat) : binomial Rat m n = (m.choose n : Rat) := by
  rw [binomial_eq_steps, binomialSteps_rat]
  split
  · next more => rw [Nat.choose_eq_zero_of_lt more]
  · next fits =>
    have within : n ≤ m := Nat.not_lt.mp fits
    rcases Nat.le_total n (m - n) with low | high
    · rw [Nat.min_eq_left low]
    · rw [Nat.min_eq_right high, Nat.choose_symm within]

theorem exists_exact_step (m steps : Nat) :
    ∃ product quotient : Nat, binomialSteps Rat m steps = product ∧
      product * (m - steps) = quotient * (steps + 1) ∧
      binomialSteps Rat m (steps + 1) = quotient :=
  ⟨m.choose steps, m.choose (steps + 1), binomialSteps_rat m steps,
    (m.choose_succ_right_eq steps).symm, binomialSteps_rat m (steps + 1)⟩

end WordFinder
