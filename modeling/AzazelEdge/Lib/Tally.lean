/-
# Tallies

The sum of a measure over a list of records, and what it does when one record changes.
-/
import Mathlib.Data.Int.Basic
import Mathlib.Tactic.Linarith

namespace AzazelEdge.Lib

variable {α : Type} {f g : α → ℤ} {xs : List α} {i : ℕ} {x y : α}

/-- The sum of the measure over the list. -/
def tally (f : α → ℤ) (xs : List α) : ℤ := (xs.map f).sum

@[simp] theorem tally_nil : tally f [] = 0 := rfl

@[simp] theorem tally_cons : tally f (x :: xs) = f x + tally f xs := by
  simp [tally]

theorem tally_concat : tally f (xs ++ [x]) = tally f xs + f x := by
  simp [tally]

/-- **A changed record changes the sum by its own change.** -/
theorem tally_set (h : xs[i]? = some x) : tally f (xs.set i y) = tally f xs + (f y - f x) := by
  induction xs generalizing i with
  | nil => cases h
  | cons z xs ih =>
    cases i with
    | zero =>
      obtain rfl := Option.some.inj h
      rw [List.set_cons_zero, tally_cons, tally_cons]
      linarith
    | succ i =>
      rw [List.set_cons_succ, tally_cons, tally_cons, ih h]
      linarith

theorem tally_nonneg (h : ∀ x ∈ xs, 0 ≤ f x) : 0 ≤ tally f xs := by
  induction xs with
  | nil => exact le_refl _
  | cons x xs ih =>
    rw [tally_cons]
    have := h x List.mem_cons_self
    have := ih fun y hy => h y (List.mem_cons_of_mem _ hy)
    linarith

theorem tally_le (h : ∀ x ∈ xs, f x ≤ g x) : tally f xs ≤ tally g xs := by
  induction xs with
  | nil => exact le_refl _
  | cons x xs ih =>
    rw [tally_cons, tally_cons]
    have := h x List.mem_cons_self
    have := ih fun y hy => h y (List.mem_cons_of_mem _ hy)
    linarith

theorem tally_add : tally (fun x => f x + g x) xs = tally f xs + tally g xs := by
  induction xs with
  | nil => rfl
  | cons x xs ih =>
    rw [tally_cons, tally_cons, tally_cons, ih]
    linarith

theorem tally_zero (h : ∀ x ∈ xs, f x = 0) : tally f xs = 0 := by
  induction xs with
  | nil => rfl
  | cons x xs ih =>
    rw [tally_cons, h x List.mem_cons_self, ih fun y hy => h y (List.mem_cons_of_mem _ hy)]
    rfl

/-- A count is the sum of a measure. -/
theorem tally_countP (p : α → Bool) : tally (fun x => if p x then 1 else 0) xs = xs.countP p := by
  induction xs with
  | nil => rfl
  | cons x xs ih =>
    rw [tally_cons, ih, List.countP_cons]
    split
    · push_cast
      exact Int.add_comm _ _
    · exact Int.zero_add _

end AzazelEdge.Lib
