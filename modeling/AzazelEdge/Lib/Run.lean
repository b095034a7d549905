/-
# Runs of a labelled step relation

Every component below is a state machine driven from outside: an operation, a clock reading,
the outcome of a command.  All of that goes into the LABEL of a step, so that one step
relation covers every environment, and "for every run" is a quantifier over label lists.

This module is the whole theory of such runs that the development needs.  An invariant is
proved one step at a time and lifted once (`Run.invariant`); a relation between the first and
the last state is proved one step at a time and lifted once (`Run.relates`); and a run can be
cut and glued (`Run.append`, `Run.snoc`).
-/
import Mathlib.Logic.Basic

namespace AzazelEdge.Lib

variable {σ ι : Type*}

/-- `Run step s ls t`: the labels `ls`, in this order, take `s` to `t`. -/
inductive Run (step : σ → ι → σ → Prop) : σ → List ι → σ → Prop
  | refl (s : σ) : Run step s [] s
  | head {s t u : σ} {l : ι} {ls : List ι} : step s l t → Run step t ls u → Run step s (l :: ls) u

variable {step step' : σ → ι → σ → Prop} {s t u : σ} {l : ι} {ls ms : List ι}

/-- One step is a run. -/
theorem Run.single (h : step s l t) : Run step s [l] t := Run.head h (Run.refl t)

/-- Two runs glue. -/
theorem Run.append (h : Run step s ls t) (h' : Run step t ms u) : Run step s (ls ++ ms) u := by
  induction h with
  | refl => exact h'
  | head hstep _ ih => exact Run.head hstep (ih h')

/-- A run extended by one step at its end. -/
theorem Run.snoc (h : Run step s ls t) (h' : step t l u) : Run step s (ls ++ [l]) u :=
  h.append (Run.single h')

/-- A run cut between two of its labels. -/
theorem Run.split (h : Run step s (ls ++ ms) u) : ∃ t, Run step s ls t ∧ Run step t ms u := by
  induction ls generalizing s with
  | nil => exact ⟨s, Run.refl s, h⟩
  | cons l ls ih =>
    cases h with
    | head hstep hrest =>
      obtain ⟨t, hleft, hright⟩ := ih hrest
      exact ⟨t, Run.head hstep hleft, hright⟩

/-- A run of a smaller relation is a run of a larger one. -/
theorem Run.mono (h : Run step s ls t) (hsub : ∀ s l t, step s l t → step' s l t) :
    Run step' s ls t := by
  induction h with
  | refl => exact Run.refl _
  | head hstep _ ih => exact Run.head (hsub _ _ _ hstep) ih

/-- **The run lemma for invariants.**  What every step preserves, every run preserves. -/
theorem Run.invariant {I : σ → Prop} (hI : ∀ s l t, I s → step s l t → I t)
    (h : Run step s ls t) (hs : I s) : I t := by
  induction h with
  | refl => exact hs
  | head hstep _ ih => exact ih (hI _ _ _ hs hstep)

/-- **The run lemma for relations.**  A reflexive and transitive relation that every step
respects holds between the two ends of every run.  `I` is an invariant the step proof may
lean on. -/
theorem Run.relates {I : σ → Prop} {R : σ → σ → Prop} (hI : ∀ s l t, I s → step s l t → I t)
    (hrefl : ∀ s, R s s) (htrans : ∀ s t u, R s t → R t u → R s u)
    (hR : ∀ s l t, I s → step s l t → R s t) (h : Run step s ls t) (hs : I s) : R s t := by
  induction h with
  | refl => exact hrefl _
  | head hstep _ ih => exact htrans _ _ _ (hR _ _ _ hs hstep) (ih (hI _ _ _ hs hstep))

/-- What holds of the label of every step holds of every label of a run. -/
theorem Run.labels {P : ι → Prop} (hP : ∀ s l t, step s l t → P l) (h : Run step s ls t) :
    ∀ l ∈ ls, P l := by
  induction h with
  | refl => simp
  | head hstep _ ih => exact List.forall_mem_cons.mpr ⟨hP _ _ _ hstep, ih⟩

theorem Run.history_from {P : List ι → σ → Prop}
    (hP : ∀ ls s l t, P ls s → step s l t → P (ls ++ [l]) t) (h : Run step s ls t) :
    ∀ past, P past s → P (past ++ ls) t := by
  induction h with
  | refl => intro past hpast; simpa using hpast
  | @head s t u l ls hstep _ ih =>
    intro past hpast
    simpa using ih (past ++ [l]) (hP past s l t hpast hstep)

/-- **The run lemma for histories.**  What holds of the state and the labels so far, at the start
and after every step, holds at the end. -/
theorem Run.history {P : List ι → σ → Prop}
    (hP : ∀ ls s l t, P ls s → step s l t → P (ls ++ [l]) t) (h : Run step s ls t) (hs : P [] s) :
    P ls t := by
  simpa using h.history_from hP [] hs

end AzazelEdge.Lib
