/-
# The score of an evidence gap

`evidence_gap_scoring.py`: which of the proposed gaps may be asked of the broker, and in what
order.  A score is the sum of what its rules contribute.  The choice is greedy: the capability of a
chosen gap counts as collected for those that are left.
-/
import AzazelEdge.Lib.Greedy
import AzazelEdge.Mio.Lifecycle
import AzazelEdge.Mio.Parsed
import Mathlib.Algebra.Ring.Int.Defs

namespace AzazelEdge.Mio

open AzazelEdge.Lib AzazelEdge.Lib.Py
open AzazelEdge.Arbiter (sortedUnique)
open AzazelEdge.Outcome (distinct)

/-! ## 1. Weights -/

/-- The classes of cost. -/
inductive CostClass where
  | low | medium | high
  deriving DecidableEq

def CostClass.text : CostClass → PyStr
  | .low => pyStr "low"
  | .medium => pyStr "medium"
  | .high => pyStr "high"

/-- `CAPABILITY_COST_CLASS.get(capability, "medium")`. -/
def costClass (capability : PyStr) : CostClass :=
  if capability ∈ ["query_recent_alerts", "lookup_behavior_pattern", "get_host_health",
      "get_deception_state"].map pyStr then .low
  else if capability = pyStr "request_trace" then .high
  else .medium

/-- The rules of a score. -/
inductive ScoreRule where
  | base | discriminatesMultipleHypotheses | targetsFalsifiableHypothesis | modelPriorityHint
  | alreadyCollectedThisCycle | cost (c : CostClass)
  deriving DecidableEq

/-- `WEIGHTS` of the classes of cost. -/
def costWeight : CostClass → ℤ
  | .low => 0
  | .medium => -5
  | .high => -15

/-- `MIN_ELIGIBLE_SCORE`. -/
def minEligibleScore : ℤ := 40

/-- The reasons against a gap: `INELIGIBLE_NOT_IN_PLAYBOOK` and the others, in their order. -/
inductive IneligibleReason where
  | notInPlaybook | notRegistered | noHypothesis | budget | lowValue
  deriving DecidableEq

def IneligibleReason.text : IneligibleReason → PyStr
  | .notInPlaybook => pyStr "capability_not_allowed_by_playbook"
  | .notRegistered => pyStr "capability_not_registered_in_broker"
  | .noHypothesis => pyStr "cannot_change_hypothesis_state"
  | .budget => pyStr "cycle_broker_budget_exhausted"
  | .lowValue => pyStr "insufficient_expected_value"

/-! ## 2. One gap -/

/-- `GapScore`. -/
structure GapScore where
  gapId : PyStr
  capability : PyStr
  score : ℤ
  reasons : List (ScoreRule × ℤ)
  ineligibleReasons : List IneligibleReason
  rank : ℕ := 0
  basis : List (ScoreRule × List PyStr)
  ineligibleBasis : List (IneligibleReason × List PyStr)
  targets : List PyStr
  capabilityLabel : PyStr
  deriving DecidableEq

/-- The field `eligible`: whether nothing was found against the gap. -/
def GapScore.eligible (s : GapScore) : Bool := s.ineligibleReasons.isEmpty

/-- What one rule contributes, and what it rests on. -/
structure Contribution where
  rule : ScoreRule
  delta : ℤ
  basis : List PyStr

section Score

variable [Redaction]

/-- The hypotheses that a gap could move. -/
def gapTargets (hypotheses : List MioHypothesis) (gap : MioEvidenceGap) : List MioHypothesis :=
  ((distinct gap.discriminatesHypothesisIds).filterMap (prior hypotheses)).filter
    (·.status ∉ terminalHypothesisStatuses)

/-- A condition with something in it. -/
def isFalsifiable (h : MioHypothesis) : Bool :=
  h.falsificationConditions.any fun c => decide (Decision.strip c ≠ [])

/-- The ids of hypotheses as an explanation shows them. -/
def shownIds (hypotheses : List MioHypothesis) : List PyStr :=
  sortedUnique (hypotheses.map fun h => safeId .hypothesisId h.hypothesisId)

/-- `hypothesis:{id}` of each id. -/
def hypothesisRefs (ids : List PyStr) : List PyStr := ids.map (pyStr "hypothesis:" ++ ·)

/-- `gap:{id}`. -/
def gapRef (gap : MioEvidenceGap) : PyStr := pyStr "gap:" ++ safeId .gapId gap.gapId

/-- The priority in its bounds. -/
def boundedPriority (gap : MioEvidenceGap) : ℤ := max 0 (min gap.priority 100)

/-- What the model's priority adds to a score. -/
def priorityHint (gap : MioEvidenceGap) : ℤ := boundedPriority gap * 10 / 100

/-- The sets of capabilities that a score looks at. -/
structure Capabilities where
  allowed : List PyStr
  registered : List PyStr

variable (caps : Capabilities)

/-- `capability:{label}`. -/
def capabilityRef (gap : MioEvidenceGap) : PyStr :=
  pyStr "capability:" ++ capabilityLabel gap.capability caps.registered

/-- What the rules contribute, in the order they are asked. -/
def contributions (collected : List PyStr) (targets : List MioHypothesis) (gap : MioEvidenceGap) :
    List Contribution :=
  [⟨.base, 50, [gapRef gap]⟩] ++
    (if 2 ≤ targets.length then
      [⟨.discriminatesMultipleHypotheses, 20, hypothesisRefs (shownIds targets)⟩] else []) ++
    (if targets.any isFalsifiable then
      [⟨.targetsFalsifiableHypothesis, 10,
        hypothesisRefs (shownIds (targets.filter isFalsifiable))⟩] else []) ++
    [⟨.modelPriorityHint, priorityHint gap,
      [gapRef gap, pyStr "model_priority:" ++ ofText (intText (boundedPriority gap))]⟩] ++
    (if gap.capability ∈ collected then
      [⟨.alreadyCollectedThisCycle, -30, [capabilityRef caps gap]⟩] else []) ++
    [⟨.cost (costClass gap.capability), costWeight (costClass gap.capability),
      [capabilityRef caps gap, pyStr "cost_class:" ++ (costClass gap.capability).text]⟩]

/-- What stands against a gap before its score is looked at. -/
def structuralReasons (budgetLeft : ℤ) (targets : List MioHypothesis) (gap : MioEvidenceGap) :
    List (IneligibleReason × List PyStr) :=
  (if gap.capability ∉ caps.allowed then [(.notInPlaybook, [capabilityRef caps gap])] else []) ++
    (if gap.capability ∉ caps.registered then [(.notRegistered, [capabilityRef caps gap])]
      else []) ++
    (if targets = [] then
      [(.noHypothesis, gapRef gap ::
        sortedUnique (hypothesisRefs (gap.discriminatesHypothesisIds.map (safeId .hypothesisId))))]
      else []) ++
    (if budgetLeft ≤ 0 then [(.budget, [pyStr "budget:remaining_broker_calls=0"])] else [])

/-- All that stands against a gap: a score that is too low without the model's hint counts only
where nothing else does. -/
def ineligible (budgetLeft : ℤ) (targets : List MioHypothesis) (score : ℤ) (gap : MioEvidenceGap) :
    List (IneligibleReason × List PyStr) :=
  let structural := structuralReasons caps budgetLeft targets gap
  if structural = [] ∧ score - priorityHint gap < minEligibleScore then
    [(.lowValue, [gapRef gap,
      pyStr "structural_score:" ++ ofText (intText (score - priorityHint gap)),
      pyStr "min_eligible_score:" ++ ofText (intText minEligibleScore)])]
  else structural

/-- `budget_left` and `collected`, which change from choice to choice. -/
structure ChoiceState where
  budgetLeft : ℤ
  collected : List PyStr

/-- `_score_one`. -/
def scoreOne (hypotheses : List MioHypothesis) (s : ChoiceState) (gap : MioEvidenceGap) :
    GapScore :=
  let targets := gapTargets hypotheses gap
  let rules := contributions caps s.collected targets gap
  let score := (rules.map (·.delta)).sum
  let against := ineligible caps s.budgetLeft targets score gap
  { gapId := gap.gapId, capability := gap.capability, score
    reasons := rules.map fun c => (c.rule, c.delta)
    ineligibleReasons := against.map (·.1)
    basis := rules.map fun c => (c.rule, c.basis)
    ineligibleBasis := against
    targets := shownIds targets
    capabilityLabel := capabilityLabel gap.capability caps.registered }

/-! ## 3. All gaps -/

/-- The one that is chosen before the other: the better score, then the smaller id. -/
def isBefore (a b : GapScore) : Bool :=
  decide (b.score < a.score) ||
    (decide (a.score = b.score) && (keyLe a.gapId b.gapId && decide (a.gapId ≠ b.gapId)))

/-- `min(scores, key=...)`; of equal ones the first. -/
def bestScore : List GapScore → Option GapScore
  | [] => none
  | s :: rest =>
    match bestScore rest with
    | none => some s
    | some t => if isBefore t s then some t else some s

omit [Redaction] in
theorem mem_of_bestScore {scores : List GapScore} {s : GapScore} (h : bestScore scores = some s) :
    s ∈ scores := by
  induction scores generalizing s with
  | nil => cases h
  | cons t rest ih =>
    rw [bestScore] at h
    cases hrest : bestScore rest with
    | none =>
      rw [hrest] at h
      cases h
      exact List.mem_cons_self
    | some u =>
      rw [hrest] at h
      dsimp only at h
      split at h
      · cases h
        exact List.mem_cons_of_mem _ (ih hrest)
      · cases h
        exact List.mem_cons_self

/-- The loop of `score_evidence_gaps`: the best eligible gap is chosen, its capability counts as
collected, and it takes one call of the budget. -/
def choice (hypotheses : List MioHypothesis) : Policy MioEvidenceGap GapScore ChoiceState PyStr where
  key := (·.gapId)
  keyOf := (·.gapId)
  assess := scoreOne caps hypotheses
  best scores := bestScore (scores.filter (·.eligible))
  advance s best := ⟨s.budgetLeft - 1, best.capability :: s.collected⟩
  keyOf_assess _ _ := rfl
  mem_of_best h := List.mem_of_mem_filter (mem_of_bestScore h)

/-- `gaps` in the order of their ids. -/
def byGapId (gaps : List MioEvidenceGap) : List MioEvidenceGap :=
  gaps.insertionSort fun a b => keyLe a.gapId b.gapId = true

/-- `replace(best, rank=len(chosen) + 1)` of each that is chosen. -/
def ranked (chosen : List GapScore) : List GapScore :=
  (chosen.zipIdx 1).map fun (s, rank) => { s with rank }

/-- `score_evidence_gaps`. -/
def scoreEvidenceGaps (hypotheses : List MioHypothesis) (remainingBrokerCalls : ℤ)
    (collected : List PyStr) (gaps : List MioEvidenceGap) : List GapScore :=
  let (chosen, rejected) :=
    (choice caps hypotheses).greedy ⟨max 0 remainingBrokerCalls, collected⟩ (byGapId gaps)
  ranked chosen ++ rejected.insertionSort fun a b => keyLe a.gapId b.gapId = true

end Score

end AzazelEdge.Mio
