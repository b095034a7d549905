/-
# What is read out of a model's answer

The `from_mapping` constructors of `contracts.py`: a hypothesis, an evidence gap and a
recommendation, each out of a mapping that a model wrote.  Every text is cut, every list is cut and
its items come once; nothing is refused here but an identifier.

A value that a model writes is a value of JSON.
-/
import AzazelEdge.Mio.IdGrammar

namespace AzazelEdge.Mio

open AzazelEdge.Lib AzazelEdge.Lib.Py
open AzazelEdge.Audit (Row)
open AzazelEdge.Arbiter (asList)

/-! ## 1. Exceptions -/

/-- The exceptions that the loop tells apart.  An interrupt is a `BaseException` that is no
`Exception`. -/
inductive ExceptionClass where
  | modelBlocked | modelUnavailable | capabilityBroker | other | interrupt
  deriving DecidableEq

/-- An exception that was raised, with the text of `str(exc)`. -/
structure Raised where
  cls : ExceptionClass
  text : PyStr
  deriving DecidableEq

/-! ## 2. Fields -/

section Fields

variable {F : Type} [PyFloat F] [PyRepr F]

/-- `_bounded_text`. -/
def boundedText (limit : ℕ) (value : Option (PyJson F)) : PyStr := (strOr value).take limit

/-- An item that `_bounded_unique` takes. -/
def pickText (itemLimit : ℕ) (value : PyJson F) : Option PyStr :=
  if boundedText itemLimit (some value) = [] then none else some (boundedText itemLimit (some value))

/-- `_bounded_unique`, with its default for the items. -/
def boundedUnique (limit : ℕ) (values : Option (PyJson F)) : List PyStr :=
  collect limit (pickText 160) (asList values)

variable [PyConvert F] [PyArith F]

/-- `_safe_int(value, default)`; the integer of an infinite float raises what is not caught. -/
def safeInt (default : ℤ) (value : PyJson F) : Except Raised ℤ :=
  match value with
  | .float x =>
    match PyConvert.intOfFloat x with
    | some n => .ok n
    | none =>
      if PyArith.isNan x then .ok default
      else .error ⟨.other, pyStr "cannot convert float infinity to integer"⟩
  | value => .ok ((toInt value).getD default)

end Fields

/-! ## 3. A hypothesis -/

section Hypothesis

variable {F : Type} [PyFloat F] [PyRepr F] [Redaction]

/-- `str(payload.get("status") or "proposed")`. -/
def rawStatus (payload : Row F) : PyStr :=
  let value := getKey (pyStr "status") payload
  if isTruthy value then strOr value else word HypothesisStatus.proposed

/-- `h{ordinal}`. -/
def ordinalId (letter : String) (ordinal : ℕ) : PyStr := pyStr letter ++ ofText (natText ordinal)

/-- `MioHypothesis.from_mapping`. -/
def MioHypothesis.fromMapping (payload : Row F) (ordinal : ℕ) : MioHypothesis :=
  { hypothesisId := modelId (ordinalId "h" ordinal) .hypothesisId
      (getKey (pyStr "hypothesis_id") payload)
    statement := boundedText 360 (getKey (pyStr "statement") payload)
    status := (readWord (some (.str (rawStatus payload) : PyJson F))).getD .proposed
    supportingEvidenceRefs :=
      modelIdList 16 .evidenceRef (getKey (pyStr "supporting_evidence_refs") payload)
    contradictingEvidenceRefs :=
      modelIdList 16 .evidenceRef (getKey (pyStr "contradicting_evidence_refs") payload)
    assumptions := boundedUnique 8 (getKey (pyStr "assumptions") payload)
    falsificationConditions := boundedUnique 8 (getKey (pyStr "falsification_conditions") payload)
    expectedObservations := boundedUnique 8 (getKey (pyStr "expected_observations") payload)
    missingEvidence := boundedUnique 8 (getKey (pyStr "missing_evidence") payload) }

end Hypothesis

/-! ## 4. A gap and a recommendation -/

/-- `MioEvidenceGap`. -/
structure MioEvidenceGap where
  gapId : PyStr
  question : PyStr
  discriminatesHypothesisIds : List PyStr
  capability : PyStr
  priority : ℤ := 50
  deriving DecidableEq

/-- `MioRecommendation`. -/
structure MioRecommendation where
  advisoryId : PyStr
  summary : PyStr
  recommendedAction : PyStr
  rationale : PyStr
  evidenceRefs : List PyStr
  limitations : List PyStr := []
  executable : Bool := false
  deriving DecidableEq

section Mappings

variable {F : Type} [PyFloat F] [PyRepr F] [PyConvert F] [PyArith F] [Redaction]

/-- `MioEvidenceGap.from_mapping`. -/
def MioEvidenceGap.fromMapping (payload : Row F) (ordinal : ℕ) : Except Raised MioEvidenceGap := do
  let priority ← safeInt 50 ((getKey (pyStr "priority") payload).getD (.int 50))
  return {
    gapId := modelId (ordinalId "g" ordinal) .gapId (getKey (pyStr "gap_id") payload)
    question := boundedText 300 (getKey (pyStr "question") payload)
    discriminatesHypothesisIds :=
      modelIdList 8 .hypothesisId (getKey (pyStr "discriminates_hypothesis_ids") payload)
    capability := modelId [] .capability (getKey (pyStr "capability") payload)
    priority := max 0 (min priority 100) }

/-- `MioRecommendation.from_mapping`. -/
def MioRecommendation.fromMapping (payload : Row F) (advisoryId : PyStr) : MioRecommendation :=
  { advisoryId := advisoryId.take 96
    summary := boundedText 360 (getKey (pyStr "summary") payload)
    recommendedAction :=
      PyConvert.upper F (boundedText 32 (getKey (pyStr "recommended_action") payload))
    rationale := boundedText 720 (getKey (pyStr "rationale") payload)
    evidenceRefs := modelIdList 32 .evidenceRef (getKey (pyStr "evidence_refs") payload)
    limitations := boundedUnique 8 (getKey (pyStr "limitations") payload) }

end Mappings

/-! ## 5. Lists of them -/

/-- `items[:limit]`, where a negative limit counts from the end. -/
def takeInt {α : Type} (limit : ℤ) (items : List α) : List α :=
  if 0 ≤ limit then items.take limit.toNat else items.take (items.length - limit.natAbs)

/-- The mappings among the items, each with its ordinal. -/
def mappings {F : Type} (items : List (PyJson F)) : List (Row F × ℕ) :=
  items.zipIdx.filterMap fun
    | (.obj payload, index) => some (payload, index + 1)
    | _ => none

end AzazelEdge.Mio
