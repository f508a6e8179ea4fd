/-!
# Totals

The total of a measure over a list: the points of the letters of a word, the tiles of a bag, the
weight of the states on a stack. Order does not matter to it, and leaving elements out does not make
it larger.
-/
set_option autoImplicit false

namespace WordFinder

universe u v

variable {α : Type u} {β : Type v}

def totalOf (f : α → Nat) : List α → Nat
  | [] => 0
  | x :: xs => f x + totalOf f xs

theorem totalOf_append (f : α → Nat) (xs ys : List α) :
    totalOf f (xs ++ ys) = totalOf f xs + totalOf f ys := by
  induction xs with
  | nil => simp [totalOf]
  | cons x xs ih => simp only [List.cons_append, totalOf, ih]; omega

theorem totalOf_reverse (f : α → Nat) (xs : List α) : totalOf f xs.reverse = totalOf f xs := by
  induction xs with
  | nil => rfl
  | cons x xs ih =>
    simp only [List.reverse_cons, totalOf_append, totalOf, ih]
    omega

theorem totalOf_map (f : β → Nat) (g : α → β) (xs : List α) :
    totalOf f (xs.map g) = totalOf (fun x => f (g x)) xs := by
  induction xs with
  | nil => rfl
  | cons x xs ih => simp only [List.map_cons, totalOf, ih]

theorem totalOf_filter_le (f : α → Nat) (keep : α → Bool) (xs : List α) :
    totalOf f (xs.filter keep) ≤ totalOf f xs := by
  induction xs with
  | nil => exact Nat.le_refl _
  | cons x xs ih =>
    by_cases h : keep x
    · rw [List.filter_cons_of_pos h]; exact Nat.add_le_add_left ih _
    · rw [List.filter_cons_of_neg h]; exact Nat.le_trans ih (Nat.le_add_left _ _)

theorem totalOf_le_length_mul (f : α → Nat) (bound : Nat) (xs : List α)
    (h : ∀ x ∈ xs, f x ≤ bound) : totalOf f xs ≤ xs.length * bound := by
  induction xs with
  | nil => exact Nat.zero_le _
  | cons x xs ih =>
    have hx := h x (List.mem_cons_self ..)
    have hxs := ih fun y hy => h y (List.mem_cons_of_mem _ hy)
    simp only [totalOf, List.length_cons, Nat.succ_mul]
    omega

end WordFinder
