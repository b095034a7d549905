/-
# Texts cut at a separator

A text that a separator ends is cut there in one way only.  Both readings below need nothing more
of separators: a key built of parts, and a stream built of lines.
-/
import Mathlib.Data.List.Basic

namespace AzazelEdge.Lib

variable {α : Type*} {a : α} {xs ys us vs : List α}

/-- **Two lists cut at the first occurrence of the same separator agree on both sides of it.** -/
theorem append_cons_inj (hx : a ∉ xs) (hy : a ∉ ys) (h : xs ++ a :: us = ys ++ a :: vs) :
    xs = ys ∧ us = vs := by
  induction xs generalizing ys with
  | nil =>
    cases ys with
    | nil => exact ⟨rfl, (List.cons.inj h).2⟩
    | cons y ys => exact absurd (List.mem_cons.mpr (Or.inl (List.cons.inj h).1)) hy
  | cons x xs ih =>
    cases ys with
    | nil => exact absurd (List.mem_cons.mpr (Or.inl (List.cons.inj h).1.symm)) hx
    | cons y ys =>
      obtain ⟨rfl, htail⟩ := List.cons.inj h
      obtain ⟨rfl, rfl⟩ := ih (fun hm => hx (List.mem_cons_of_mem _ hm))
        (fun hm => hy (List.mem_cons_of_mem _ hm)) htail
      exact ⟨rfl, rfl⟩

/-- Cut at the last occurrence, they do too. -/
theorem append_cons_inj_last (hu : a ∉ us) (hv : a ∉ vs) (h : xs ++ a :: us = ys ++ a :: vs) :
    xs = ys ∧ us = vs := by
  have hrev : us.reverse ++ a :: xs.reverse = vs.reverse ++ a :: ys.reverse := by
    have := congrArg List.reverse h
    simpa using this
  obtain ⟨h1, h2⟩ := append_cons_inj (by simpa using hu) (by simpa using hv) hrev
  exact ⟨List.reverse_injective h2, List.reverse_injective h1⟩

end AzazelEdge.Lib
