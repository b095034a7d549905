/-
# Receipts and mechanisms

The records of `outcome/contracts.py`: what was executed for a decision, and what the execution is
held to have put in place.  A record that its own check refuses cannot be built (`make`).
-/
import AzazelEdge.Decision.Payload
import AzazelEdge.Arbiter.Action
import AzazelEdge.Lib.Words

namespace AzazelEdge.Outcome

open AzazelEdge.Lib AzazelEdge.Lib.Py AzazelEdge.Audit AzazelEdge.Arbiter

/-! ## 1. Errors and texts -/

/-- What the functions of this component raise, by the name of the exception. -/
inductive PyError where
  | valueError (message : String)
  | typeError
  | overflowError
  | jsonDecodeError
  | readOnlyCommandRejected (message : String)
  | osError
  | subprocessError
  deriving DecidableEq, Repr

/-- `type(exc).__name__`; a JSON error is a `ValueError` of its own. -/
def PyError.name : PyError → String
  | .valueError _ => "ValueError"
  | .typeError => "TypeError"
  | .overflowError => "OverflowError"
  | .jsonDecodeError => "JSONDecodeError"
  | .readOnlyCommandRejected _ => "ReadOnlyCommandRejected"
  | .osError => "OSError"
  | .subprocessError => "SubprocessError"

/-- A blank space. -/
def space : CodePoint := 32

/-- `text.split()`. -/
def split (text : PyStr) : List PyStr := words Decision.isSpace text

/-- `" ".join(parts)`. -/
def joinSpace (parts : List PyStr) : PyStr := joinWith space parts

@[simp] theorem isSpace_space : Decision.isSpace space = true := by decide

theorem pyStr_append (s t : String) : pyStr (s ++ t) = pyStr s ++ pyStr t := by
  simp [pyStr]

theorem pyStr_intercalate (parts : List String) :
    pyStr (" ".intercalate parts) = joinSpace (parts.map pyStr) := by
  induction parts with
  | nil => rfl
  | cons part parts ih =>
    cases parts with
    | nil => simp [joinSpace, joinWith]
    | cons other parts =>
      rw [String.intercalate_cons_cons, pyStr_append, pyStr_append, ih]
      simp only [joinSpace, List.map_cons, joinWith_cons_cons, List.append_assoc]
      rfl

/-- A text with no blank in it, found by looking. -/
theorem solid_of_all {w : PyStr} (h : (!w.isEmpty && w.all fun c => !Decision.isSpace c) = true) :
    Solid Decision.isSpace w := by
  obtain ⟨hne, hall⟩ := Bool.and_eq_true_iff.mp h
  exact ⟨by simpa using hne, fun c hc => by simpa using List.all_eq_true.mp hall c hc⟩

/-- Words joined are cut into the same words again. -/
theorem split_joinSpace {parts : List PyStr} (h : ∀ word ∈ parts, Solid Decision.isSpace word) :
    split (joinSpace parts) = parts :=
  words_join isSpace_space h

/-- `tuple(dict.fromkeys(refs))`. -/
def distinct (refs : List PyStr) : List PyStr := refs.eraseDups

/-! ## 2. Statuses -/

inductive ExecutionStatus where
  | unverified | applied | partly | rejected | failed | expired | released
  deriving DecidableEq, Repr

inductive MechanismKind where
  | trafficShaping | routeChange | redirection | isolation | notification | observationOnly | unknown
  deriving DecidableEq, Repr

inductive MechanismStatus where
  | observed | notObserved | unverified | released | stale | disputed
  deriving DecidableEq, Repr

inductive ActionLifecycle where
  | unverified | active | superseded | released | expired | failed | rejected
  deriving DecidableEq, Repr

/-! ## 3. Records -/

variable {F : Type}

/-- `ActionExecutionReceipt`. -/
structure ActionExecutionReceipt (F : Type) where
  incidentId : PyStr
  decisionId : PyStr
  actionId : PyStr
  executionId : PyStr
  actionKind : PyStr
  provider : PyStr
  scope : Row F
  requestedParameters : Row F
  appliedParameters : Row F
  status : ExecutionStatus
  requestedAt : PyStr
  completedAt : PyStr
  expiresAt : PyStr
  reversible : Bool
  releaseRef : PyStr
  errorCode : PyStr
  providerEvidenceRefs : List PyStr
  producer : PyStr
  lifecycle : ActionLifecycle
  supersededByDecisionId : PyStr
  idempotencyKey : PyStr

/-- `__post_init__` of the receipt. -/
def ActionExecutionReceipt.make (r : ActionExecutionReceipt F) :
    Except PyError (ActionExecutionReceipt F) :=
  if [r.incidentId, r.decisionId, r.actionId, r.executionId, r.actionKind, r.provider,
      r.requestedAt].any fun value => Decision.strip value = [] then
    .error (.valueError
      "execution receipt requires incident/decision/action/execution ids, action_kind, provider, requested_at")
  else if r.lifecycle = .superseded ∧ r.supersededByDecisionId = [] then
    .error (.valueError "superseded receipt requires superseded_by_decision_id")
  else .ok r

theorem ActionExecutionReceipt.make_ok {r : ActionExecutionReceipt F}
    (h : ∀ value ∈ [r.incidentId, r.decisionId, r.actionId, r.executionId, r.actionKind, r.provider,
      r.requestedAt], Decision.strip value ≠ []) (hlifecycle : r.lifecycle ≠ .superseded) :
    r.make = .ok r := by
  unfold ActionExecutionReceipt.make
  rw [if_neg, if_neg fun hno => hlifecycle hno.1]
  intro hblank
  obtain ⟨value, hvalue, hstrip⟩ := List.any_eq_true.mp hblank
  exact h value hvalue (by simpa using hstrip)

theorem ActionExecutionReceipt.make_eq_ok {r r' : ActionExecutionReceipt F} (h : r.make = .ok r') :
    r' = r := by
  unfold ActionExecutionReceipt.make at h
  split at h
  · cases h
  · split at h
    · cases h
    · exact (Except.ok.inj h).symm

/-- `AppliedMechanism`. -/
structure AppliedMechanism (F : Type) where
  mechanismId : PyStr
  executionId : PyStr
  decisionId : PyStr
  mechanismKind : MechanismKind
  scope : Row F
  observedParameters : Row F
  status : MechanismStatus
  observedAt : PyStr
  expiresAt : PyStr
  reversible : Bool
  evidenceRefs : List PyStr
  producer : PyStr

/-- `__post_init__` of the mechanism. -/
def AppliedMechanism.make (m : AppliedMechanism F) : Except PyError (AppliedMechanism F) :=
  if m.mechanismId = [] ∨ m.executionId = [] ∨ m.decisionId = [] ∨ m.observedAt = [] then
    .error (.valueError "mechanism requires mechanism/execution/decision ids and observed_at")
  else .ok m

theorem AppliedMechanism.make_ok {m : AppliedMechanism F}
    (h : ∀ value ∈ [m.mechanismId, m.executionId, m.decisionId, m.observedAt], value ≠ []) :
    m.make = .ok m := by
  have h : m.mechanismId ≠ [] ∧ m.executionId ≠ [] ∧ m.decisionId ≠ [] ∧ m.observedAt ≠ [] := by
    simpa using h
  unfold AppliedMechanism.make
  simp [h]

theorem AppliedMechanism.make_eq_ok {m m' : AppliedMechanism F} (h : m.make = .ok m') : m' = m := by
  unfold AppliedMechanism.make at h
  split at h
  · cases h
  · exact (Except.ok.inj h).symm

/-- `Correlation`. -/
structure Correlation where
  incidentId : PyStr
  decisionId : PyStr
  actionId : PyStr
  executionId : PyStr
  mechanismId : PyStr
  reasoningTraceId : PyStr

/-- The names of the fields that `__post_init__` of the correlation misses. -/
def Correlation.missing (c : Correlation) : List String :=
  ([("incident_id", c.incidentId), ("decision_id", c.decisionId), ("action_id", c.actionId),
      ("execution_id", c.executionId), ("mechanism_id", c.mechanismId)].filter
    fun field => Decision.strip field.2 = []).map Prod.fst

/-- `__post_init__` of the correlation. -/
def Correlation.make (c : Correlation) : Except PyError Correlation :=
  if c.missing = [] then .ok c
  else .error (.valueError ("missing correlation fields: " ++ ", ".intercalate c.missing))

theorem Correlation.make_ok {c : Correlation}
    (h : ∀ value ∈ [c.incidentId, c.decisionId, c.actionId, c.executionId, c.mechanismId],
      Decision.strip value ≠ []) : c.make = .ok c := by
  have hmissing : c.missing = [] := by
    simp only [List.mem_cons, List.not_mem_nil, or_false, forall_eq_or_imp, forall_eq] at h
    simp [Correlation.missing, h]
  rw [Correlation.make, if_pos hmissing]

/-- `ShadowRecordBundle`. -/
structure ShadowRecordBundle (F : Type) where
  correlation : Correlation
  execution : ActionExecutionReceipt F
  mechanism : AppliedMechanism F

end AzazelEdge.Outcome
