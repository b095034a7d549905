/-
# A hypothesis, and what grounds a list of them

`MioHypothesis` of `contracts.py`, and `GroundingValidator.validate_hypotheses` of `grounding.py`.
A list without errors has one to six hypotheses of different ids, each with a statement, and their
evidence is among the references that the validator was given (`validateHypotheses_eq_nil`).
-/
import AzazelEdge.Mio.Records
import AzazelEdge.Outcome.Contracts
import Mathlib.Data.List.Dedup

namespace AzazelEdge.Mio

open AzazelEdge.Lib AzazelEdge.Lib.Py
open AzazelEdge.Arbiter (sortedUnique sortedUnique_eq_nil)
open AzazelEdge.Outcome (distinct)

/-! ## 1. The record -/

/-- `HypothesisStatus`. -/
inductive HypothesisStatus where
  | proposed | active | weakened | strengthened | falsified | unresolved | superseded
  deriving DecidableEq

instance : Vocabulary HypothesisStatus where
  all := [.proposed, .active, .weakened, .strengthened, .falsified, .unresolved, .superseded]
  text
    | .proposed => "proposed"
    | .active => "active"
    | .weakened => "weakened"
    | .strengthened => "strengthened"
    | .falsified => "falsified"
    | .unresolved => "unresolved"
    | .superseded => "superseded"
  complete a := by cases a <;> decide
  injective a b := by cases a <;> cases b <;> decide

/-- `MioHypothesis`. -/
structure MioHypothesis where
  hypothesisId : PyStr
  statement : PyStr
  status : HypothesisStatus := .proposed
  supportingEvidenceRefs : List PyStr := []
  contradictingEvidenceRefs : List PyStr := []
  assumptions : List PyStr := []
  falsificationConditions : List PyStr := []
  expectedObservations : List PyStr := []
  missingEvidence : List PyStr := []
  deriving DecidableEq

/-- The ids of hypotheses, in order. -/
def ids (hypotheses : List MioHypothesis) : List PyStr := hypotheses.map (·.hypothesisId)

/-- `INVALID_MODEL_ID`. -/
def invalidModelId : PyStr := pyStr "invalid-model-id"

/-- An error when it is due. -/
def flag (due : Prop) [Decidable due] (error : PyStr) : List PyStr := if due then [error] else []

@[simp] theorem flag_eq_nil {due : Prop} [Decidable due] {error : PyStr} :
    flag due error = [] ↔ ¬ due := by
  simp [flag]

/-! ## 2. Grounding -/

/-- What `validate_hypotheses` says of one hypothesis behind those of the ids `seen`.  The source
goes through the references as a set, in an order of its own. -/
def hypothesisErrors (allowedRefs seen : List PyStr) (h : MioHypothesis) : List PyStr :=
  let shared := h.supportingEvidenceRefs.filter (· ∈ h.contradictingEvidenceRefs)
  let refs := distinct (h.supportingEvidenceRefs ++ h.contradictingEvidenceRefs)
  flag (h.hypothesisId = invalidModelId) (pyStr "invalid_model_id:hypothesis_id") ++
    flag (invalidModelId ∈ h.supportingEvidenceRefs ∨ invalidModelId ∈ h.contradictingEvidenceRefs)
      (pyStr "invalid_model_id:evidence_ref") ++
    (if h.hypothesisId = [] then [pyStr "empty_hypothesis_id"]
      else flag (h.hypothesisId ∈ seen) (pyStr "duplicate_hypothesis_id:" ++ h.hypothesisId)) ++
    flag (h.statement = []) (pyStr "empty_statement:" ++ h.hypothesisId) ++
    (sortedUnique shared).map (fun ref =>
      pyStr "conflicting_hypothesis_evidence_ref:" ++ h.hypothesisId ++ pyStr ":" ++ ref) ++
    (refs.filter (· ∉ allowedRefs)).map fun ref =>
      pyStr "unknown_hypothesis_ref:" ++ h.hypothesisId ++ pyStr ":" ++ ref

/-- The loop of `validate_hypotheses`. -/
def walkHypotheses (allowedRefs : List PyStr) : List PyStr → List MioHypothesis → List PyStr
  | _, [] => []
  | seen, h :: hs => hypothesisErrors allowedRefs seen h ++
      walkHypotheses allowedRefs (seen ++ [h.hypothesisId]) hs

/-- `GroundingValidator.validate_hypotheses`, by its errors. -/
def validateHypotheses (allowedRefs : List PyStr) (hypotheses : List MioHypothesis) : List PyStr :=
  flag (hypotheses = []) (pyStr "no_hypotheses") ++
    flag (6 < hypotheses.length) (pyStr "too_many_hypotheses") ++
    walkHypotheses allowedRefs [] hypotheses

/-- The references that a hypothesis cites. -/
def MioHypothesis.evidenceRefs (h : MioHypothesis) : List PyStr :=
  h.supportingEvidenceRefs ++ h.contradictingEvidenceRefs

/-- A hypothesis that says something, on evidence that is allowed. -/
structure Grounded (allowedRefs : List PyStr) (h : MioHypothesis) : Prop where
  id_valid : h.hypothesisId ≠ invalidModelId
  id_nonempty : h.hypothesisId ≠ []
  statement_nonempty : h.statement ≠ []
  refs_valid : invalidModelId ∉ h.evidenceRefs
  refs_apart : ∀ ref ∈ h.supportingEvidenceRefs, ref ∉ h.contradictingEvidenceRefs
  refs_allowed : ∀ ref ∈ h.evidenceRefs, ref ∈ allowedRefs

variable {allowedRefs seen : List PyStr} {h : MioHypothesis} {hs : List MioHypothesis}

theorem hypothesisErrors_eq_nil :
    hypothesisErrors allowedRefs seen h = [] ↔ Grounded allowedRefs h ∧ h.hypothesisId ∉ seen := by
  simp only [hypothesisErrors, List.append_eq_nil_iff, flag_eq_nil, List.map_eq_nil_iff,
    sortedUnique_eq_nil, List.filter_eq_nil_iff, distinct, List.mem_eraseDups, decide_eq_true_eq,
    not_not]
  constructor
  · rintro ⟨⟨⟨⟨⟨hid, hrefs⟩, hseen⟩, hstatement⟩, hapart⟩, hallowed⟩
    have hne : h.hypothesisId ≠ [] := by
      intro hnil
      simp [hnil] at hseen
    rw [if_neg hne, flag_eq_nil] at hseen
    exact ⟨⟨hid, hne, hstatement, by simpa [MioHypothesis.evidenceRefs] using hrefs, hapart,
      hallowed⟩, hseen⟩
  · rintro ⟨hg, hseen⟩
    refine ⟨⟨⟨⟨⟨hg.id_valid, ?_⟩, ?_⟩, hg.statement_nonempty⟩, hg.refs_apart⟩, hg.refs_allowed⟩
    · simpa [MioHypothesis.evidenceRefs] using hg.refs_valid
    · rw [if_neg hg.id_nonempty, flag_eq_nil]
      exact hseen

theorem walkHypotheses_eq_nil : walkHypotheses allowedRefs seen hs = [] ↔
    (∀ h ∈ hs, Grounded allowedRefs h) ∧ (ids hs).Nodup ∧ ∀ id ∈ ids hs, id ∉ seen := by
  induction hs generalizing seen with
  | nil => simp [walkHypotheses, ids]
  | cons h hs ih =>
    simp only [walkHypotheses, List.append_eq_nil_iff, hypothesisErrors_eq_nil, ih, ids,
      List.map_cons, List.nodup_cons, List.forall_mem_cons, List.mem_append, List.mem_singleton,
      not_or]
    constructor
    · rintro ⟨⟨hg, hnew⟩, hall, hnodup, hseen⟩
      exact ⟨⟨hg, hall⟩, ⟨fun hmem => (hseen _ hmem).2 rfl, hnodup⟩, hnew,
        fun id hid => (hseen id hid).1⟩
    · rintro ⟨⟨hg, hall⟩, ⟨hother, hnodup⟩, hnew, hseen⟩
      exact ⟨⟨hg, hnew⟩, hall, hnodup, fun id hid => ⟨hseen id hid, fun heq => hother (heq ▸ hid)⟩⟩

/-- **What a list without errors is.** -/
theorem validateHypotheses_eq_nil : validateHypotheses allowedRefs hs = [] ↔
    hs ≠ [] ∧ hs.length ≤ 6 ∧ (ids hs).Nodup ∧ ∀ h ∈ hs, Grounded allowedRefs h := by
  simp only [validateHypotheses, List.append_eq_nil_iff, flag_eq_nil, walkHypotheses_eq_nil,
    List.not_mem_nil, not_false_eq_true, implies_true, and_true, not_lt]
  constructor
  · rintro ⟨⟨hne, hlen⟩, hall, hnodup⟩
    exact ⟨hne, hlen, hnodup, hall⟩
  · rintro ⟨hne, hlen, hnodup, hall⟩
    exact ⟨⟨hne, hlen⟩, hall, hnodup⟩

end AzazelEdge.Mio
