/-
# No retained explanation goes missing, but in one place

A request is part of a history of appends and rotations: its refreshes are two more of it, and its
lookups open the names later on.  When the rotation comes after the second refresh and before a
lookup of the active file, `not_found` is said of a record that is retained.
-/
import AzazelEdge.Explanations.Found
import AzazelEdge.Lib.PyWhole

namespace AzazelEdge.Explanations

open AzazelEdge.Lib AzazelEdge.Lib.Py AzazelEdge.Audit

variable {F : Type} [PyFloat F] {wide : Text → Option Text} {tid : PyStr} {f g : File} {name : Name}
  {reader : Name → Index} {d d' d₀ d₁ d₂ d₃ : Disk} {ws ws₁ ws₂ ws₃ : List Write}

/-! ## 1. The four opens for one trace id -/

/-- What the two refreshes and the two lookups open, and what the writer does in between. -/
structure Opened (d₀ d₁ d₂ d₃ : Disk) (ws₁ ws₂ ws₃ : List Write) : Prop where
  sound : d₀.Sound
  first : Run Written d₀ ws₁ d₁
  second : Run Written d₁ ws₂ d₂
  third : Run Written d₂ ws₃ d₃
  once : ws₁.count .rotate + ws₂.count .rotate + ws₃.count .rotate ≤ 1

/-- The opens of a request, and what the writer does between one and the next. -/
structure Request (d : Disk) (disks : ℕ → Disk) (gaps : ℕ → List Write) : Prop where
  start : disks 0 = d
  gap : ∀ n, Run Written (disks n) (gaps n) (disks (n + 1))
  once : ∀ n, ((List.range n).flatMap gaps).count .rotate ≤ 1

variable {disks : ℕ → Disk} {gaps : ℕ → List Write} {events : List Event} {w : World}

theorem Request.gaps_run (h : Request d disks gaps) (n m : ℕ) :
    Run Written (disks n) ((List.range' n m).flatMap gaps) (disks (n + m)) := by
  induction m with
  | zero => exact .refl _
  | succ m ih =>
    rw [List.range'_concat, List.flatMap_append, List.flatMap_singleton, Nat.one_mul]
    exact ih.append (h.gap (n + m))

/-- The four opens for the `k`-th trace id. -/
theorem Request.opened (h : Request d disks gaps) (hsound : d.Sound) (k : ℕ) :
    Opened (disks 0) (disks 1) (disks (2 * k + 2)) (disks (2 * k + 3)) (gaps 0)
      ((List.range' 1 (2 * k + 1)).flatMap gaps) (gaps (2 * k + 2)) := by
  refine ⟨h.start ▸ hsound, h.gap 0, ?_, h.gap (2 * k + 2), ?_⟩
  · have := h.gaps_run 1 (2 * k + 1)
    rwa [show 1 + (2 * k + 1) = 2 * k + 2 by omega] at this
  · have honce := h.once (2 * k + 3)
    rw [List.range_succ, List.range_eq_range', List.range'_succ, List.flatMap_append,
      List.flatMap_cons, List.flatMap_singleton, List.count_append, List.count_append] at honce
    exact honce

def sampleFile : File := ⟨0, (1, 1), ascii "\x7b\"trace_id\":\"t\"\x7d\n"⟩

/-- The file is the active one, or the rotated one. -/
def oneFile (f : File) : Disk := ⟨Function.update (fun _ => none) .active (some f), 1⟩

def sampleDisk : Disk := oneFile sampleFile

end AzazelEdge.Explanations
