/-
# The action arbiter

`ActionArbiter` (`arbiter/action.py`): from the NOC and the SOC evaluation and the client impact to one
of five actions, with the reason, the alternatives and the trace that go with it.

Its inputs are dicts whose values may be anything JSON has.  What can be missing or of another type
is read as the code reads it, and a call that raises is an `Error`.
-/
import AzazelEdge.Audit.Record
import AzazelEdge.Lib.PyNumber
import Mathlib.Data.List.Dedup

namespace AzazelEdge.Arbiter

open AzazelEdge.Lib AzazelEdge.Lib.Py AzazelEdge.Audit

variable {F : Type} [PyFloat F] [PyRepr F] [PyConvert F]

/-! ## 1. The policy -/

/-- What `decide` raises: a `ValueError` of the schema check, or what a conversion or an access
raises. -/
inductive Error where
  | schema (message : PyStr)
  | conversion
  | attribute
  deriving DecidableEq

/-- `_to_int`. -/
def toIntOr (default : ℤ) (value : Option (PyJson F)) : ℤ := (value.bind toInt).getD default

/-- The minima of `isolate` and `redirect`. -/
structure Gate where
  suspicionMin : ℤ
  confidenceMin : ℤ
  blastMin : ℤ
  deriving DecidableEq

/-- The minima of `throttle`. -/
structure ThrottleGate where
  confidenceMin : ℤ
  blastMin : ℤ
  deriving DecidableEq

/-- `self.policy`, with its hash. -/
structure Policy where
  version : PyStr
  notes : PyStr
  isolate : Gate
  redirect : Gate
  throttle : ThrottleGate
  strongSocConfidenceMin : ℤ
  hash : PyStr

/-- A value when it is a dict, else `{}`. -/
def asDict : Option (PyJson F) → Row F
  | some (.obj members) => members
  | _ => []

/-- `value or {}`, then `.get`: a value that is neither falsy nor a dict has no `get`. -/
def orEmpty (value : Option (PyJson F)) : Except Error (Row F) :=
  match value with
  | none => .ok []
  | some (.obj members) => .ok members
  | some value => if truthy value then .error .attribute else .ok []

/-- The minima of an action that needs suspicion. -/
def readGate (mapping : Row F) (key : PyStr) (suspicion confidence blast : ℤ) :
    Except Error Gate := do
  let gate ← orEmpty (getKey key mapping)
  return ⟨toIntOr suspicion (getKey (pyStr "suspicion_min") gate),
    toIntOr confidence (getKey (pyStr "confidence_min") gate),
    toIntOr blast (getKey (pyStr "blast_min") gate)⟩

/-- `str(value or default)`. -/
def strOrDefault (default : PyStr) (value : Option (PyJson F)) : PyStr :=
  match value with
  | some value => if truthy value then strOf value else default
  | none => default

/-- The policy as a value, which its hash is made of. -/
def Policy.value (p : Policy) : PyJson F :=
  let gate (g : Gate) : PyJson F := .obj [(pyStr "suspicion_min", .int g.suspicionMin),
    (pyStr "confidence_min", .int g.confidenceMin), (pyStr "blast_min", .int g.blastMin)]
  .obj [(pyStr "version", .str p.version), (pyStr "notes", .str p.notes),
    (pyStr "action_mapping", .obj
      [(pyStr "isolate", gate p.isolate), (pyStr "redirect", gate p.redirect),
        (pyStr "throttle", .obj [(pyStr "confidence_min", .int p.throttle.confidenceMin),
          (pyStr "blast_min", .int p.throttle.blastMin)]),
        (pyStr "strong_soc", .obj [(pyStr "confidence_min", .int p.strongSocConfidenceMin)])])]

/-- `ActionArbiter.__init__`; `hexdigest` is SHA-256 of a text's UTF-8. -/
def newPolicy (hexdigest : PyStr → PyStr) (policy : Option (PyJson F)) : Except Error Policy := do
  let base := asDict policy
  let mapping := asDict (getKey (pyStr "action_mapping") base)
  let isolate ← readGate mapping (pyStr "isolate") 95 90 80
  let redirect ← readGate mapping (pyStr "redirect") 90 80 70
  let throttle ← orEmpty (getKey (pyStr "throttle") mapping)
  let strongSoc ← orEmpty (getKey (pyStr "strong_soc") mapping)
  let policy : Policy :=
    { version := strOrDefault (pyStr "soc-policy-v1") (getKey (pyStr "version") base)
      notes := strOr (getKey (pyStr "notes") base)
      isolate := isolate
      redirect := redirect
      throttle := ⟨toIntOr 60 (getKey (pyStr "confidence_min") throttle),
        toIntOr 40 (getKey (pyStr "blast_min") throttle)⟩
      strongSocConfidenceMin := toIntOr 60 (getKey (pyStr "confidence_min") strongSoc)
      hash := [] }
  return { policy with hash := (hexdigest (strOf (policy.value (F := F)))).take 16 }

/-! ## 2. Actions -/

inductive Action where
  | observe
  | notify
  | throttle
  | redirect
  | isolate
  deriving DecidableEq

def Action.name : Action → PyStr
  | .observe => pyStr "observe"
  | .notify => pyStr "notify"
  | .throttle => pyStr "throttle"
  | .redirect => pyStr "redirect"
  | .isolate => pyStr "isolate"

/-- The actions that the client impact is weighed against. -/
def Action.isControl : Action → Bool
  | .throttle | .redirect | .isolate => true
  | _ => false

/-- `ACTION_PROFILES`. -/
structure ActionProfile where
  reversible : Bool
  approvalRequired : Bool
  audited : Bool
  effect : PyStr
  mode : PyStr

/-- `action_profile`. -/
def actionProfile : Action → ActionProfile
  | .observe => ⟨true, false, true, pyStr "visibility_only", pyStr "passive"⟩
  | .notify => ⟨true, false, true, pyStr "operator_notification", pyStr "human_loop"⟩
  | .throttle => ⟨true, true, true, pyStr "traffic_shaping", pyStr "bounded_control"⟩
  | .redirect => ⟨true, true, true, pyStr "controlled_redirect", pyStr "bounded_control"⟩
  | .isolate => ⟨true, true, true, pyStr "segment_isolation", pyStr "high_risk_control"⟩

/-- `_release_condition`. -/
def releaseCondition : Action → PyStr
  | .throttle | .redirect => pyStr "no_repeated_failures_for_300_seconds"
  | .isolate => pyStr "manual_review_and_no_high_risk_signals_for_600_seconds"
  | .notify => pyStr "operator_acknowledged_or_signal_stabilized"
  | .observe => pyStr "observe_only_no_control_applied"

/-! ## 3. Reading the inputs -/

/-- `REQUIRED_NOC_KEYS`, sorted. -/
def requiredNocKeys : List PyStr :=
  ["availability", "client_health", "device_health", "evidence_ids", "path_health", "summary"].map
    pyStr

/-- `REQUIRED_SOC_KEYS`, sorted. -/
def requiredSocKeys : List PyStr :=
  ["blast_radius", "confidence", "evidence_ids", "summary", "suspicion",
    "technique_likelihood"].map pyStr

/-- `','.join(parts)`. -/
def joinComma : List PyStr → PyStr
  | [] => []
  | [part] => part
  | part :: parts => part ++ pyStr "," ++ joinComma parts

/-- `_validate_schema`: the dict itself when no key is missing. -/
def validateSchema (payload : PyJson F) (required : List PyStr) (name : PyStr) :
    Except Error (Row F) :=
  match payload with
  | .obj members =>
    let missing := required.filter fun key => (getKey key members).isNone
    if missing = [] then .ok members
    else .error (.schema (name ++ pyStr "_missing_keys:" ++ joinComma missing))
  | _ => .error (.schema (name ++ pyStr "_input_not_dict"))

/-- `_section`. -/
def dictSection (source : Row F) (key : PyStr) : Row F := asDict (getKey key source)

/-- `_health_label`. -/
def healthLabel (source : Row F) (key : PyStr) : PyStr :=
  strOrDefault (pyStr "unknown") (getKey (pyStr "label") (dictSection source key))

/-- A list, else the empty one. -/
def asList : Option (PyJson F) → List (PyJson F)
  | some (.arr items) => items
  | _ => []

/-- `_evidence_ids`. -/
def evidenceIds (source : Row F) (key : PyStr) : List (PyJson F) :=
  asList (getKey (pyStr "evidence_ids") (dictSection source key))

/-- `sorted(dict.fromkeys(texts))`. -/
def sortedUnique (texts : List PyStr) : List PyStr :=
  texts.dedup.insertionSort fun a b => keyLe a b = true

theorem mem_sortedUnique {s : PyStr} {texts : List PyStr} : s ∈ sortedUnique texts ↔ s ∈ texts := by
  rw [sortedUnique, List.mem_insertionSort, List.mem_dedup]

theorem sortedUnique_eq_nil {texts : List PyStr} : sortedUnique texts = [] ↔ texts = [] := by
  unfold sortedUnique
  rw [← List.length_eq_zero_iff, List.length_insertionSort, List.length_eq_zero_iff]
  simp

/-- `_chosen_evidence_ids`. -/
def chosenEvidenceIds (action : Action) (noc soc : Row F) : List PyStr :=
  let chosen := match action with
    | .observe =>
      asList (getKey (pyStr "evidence_ids") noc) ++ asList (getKey (pyStr "evidence_ids") soc)
    | .notify =>
      (["availability", "path_health", "device_health", "capacity_health",
        "client_inventory_health", "config_drift_health"].flatMap fun key =>
          evidenceIds noc (pyStr key)) ++ evidenceIds soc (pyStr "suspicion")
    | _ =>
      evidenceIds soc (pyStr "suspicion") ++ evidenceIds soc (pyStr "blast_radius") ++
        ["availability", "path_health", "capacity_health", "client_inventory_health",
          "config_drift_health"].flatMap fun key => evidenceIds noc (pyStr key)
  sortedUnique ((chosen.map strOf).filter fun id => id ≠ [])

/-- An action that was not chosen, and why. -/
structure Rejected where
  action : Action
  reason : PyStr
  deriving DecidableEq

/-- `_rejected_alternatives`. -/
def rejectedAlternatives (action : Action) (nocFragile strongSoc : Bool) (blastScore : ℤ) :
    List Rejected :=
  (if action = .observe then []
    else if strongSoc then [⟨.observe, pyStr "insufficient_response_for_detected_threat"⟩]
    else [⟨.observe, pyStr "deferred_to_higher_visibility_action"⟩]) ++
  (if action = .notify then []
    else if nocFragile && strongSoc then
      [⟨.notify, pyStr "control_path_was_not_safe_due_to_availability_risk"⟩]
    else [⟨.notify, pyStr "operator_notification_not_primary_choice"⟩]) ++
  (if action = .throttle then []
    else if !strongSoc then [⟨.throttle, pyStr "threat_signal_not_strong_enough"⟩]
    else if nocFragile then [⟨.throttle, pyStr "availability_risk_too_high"⟩]
    else if blastScore < 40 then [⟨.throttle, pyStr "blast_radius_too_small_for_control"⟩]
    else []) ++
  (if action = .redirect then []
    else if !strongSoc then [⟨.redirect, pyStr "threat_signal_not_strong_enough"⟩]
    else if nocFragile then [⟨.redirect, pyStr "availability_risk_too_high"⟩]
    else [⟨.redirect, pyStr "redirect_gate_not_satisfied"⟩]) ++
  (if action = .isolate then []
    else if !strongSoc then [⟨.isolate, pyStr "threat_signal_not_strong_enough"⟩]
    else if nocFragile then [⟨.isolate, pyStr "availability_risk_too_high"⟩]
    else [⟨.isolate, pyStr "isolate_gate_not_satisfied"⟩])

/-! ## 4. The decision -/

/-- What is read of the two evaluations. -/
structure Signals where
  availabilityLabel : PyStr
  pathLabel : PyStr
  deviceLabel : PyStr
  suspicionScore : ℤ
  suspicionLabel : PyStr
  blastScore : ℤ
  confidenceScore : ℤ

/-- The signals of the evaluations. -/
def readSignals (noc soc : Row F) : Signals :=
  let suspicion := dictSection soc (pyStr "suspicion")
  { availabilityLabel := healthLabel noc (pyStr "availability")
    pathLabel := healthLabel noc (pyStr "path_health")
    deviceLabel := healthLabel noc (pyStr "device_health")
    suspicionScore := toIntOr 0 (getKey (pyStr "score") suspicion)
    suspicionLabel := strOrDefault (pyStr "low") (getKey (pyStr "label") suspicion)
    blastScore := toIntOr 0 (getKey (pyStr "score") (dictSection soc (pyStr "blast_radius")))
    confidenceScore := toIntOr 0 (getKey (pyStr "score") (dictSection soc (pyStr "confidence"))) }

/-- `_FRAGILE_LABELS`. -/
def fragileLabels : List PyStr := [pyStr "poor", pyStr "critical", pyStr "unknown"]

def Signals.nocFragile (s : Signals) : Bool :=
  decide (s.availabilityLabel ∈ fragileLabels) || decide (s.pathLabel ∈ fragileLabels) ||
    decide (s.deviceLabel ∈ fragileLabels)

def Signals.strongSoc (s : Signals) (p : Policy) : Bool :=
  decide (s.suspicionLabel ∈ [pyStr "high", pyStr "critical"]) &&
    decide (p.strongSocConfidenceMin ≤ s.confidenceScore)

/-- The scores reach the minima. -/
def Gate.met (g : Gate) (s : Signals) : Bool :=
  decide (g.suspicionMin ≤ s.suspicionScore) && decide (g.confidenceMin ≤ s.confidenceScore) &&
    decide (g.blastMin ≤ s.blastScore)

def ThrottleGate.met (g : ThrottleGate) (s : Signals) : Bool :=
  decide (g.confidenceMin ≤ s.confidenceScore) && decide (g.blastMin ≤ s.blastScore)

/-- An action, its reason and its control mode. -/
structure Choice where
  action : Action
  reason : PyStr
  controlMode : PyStr

/-- What is chosen before the client impact is looked at. -/
def choose (p : Policy) (s : Signals) : Choice :=
  if s.strongSoc p && !s.nocFragile && p.isolate.met s then
    ⟨.isolate, pyStr "soc_extreme_and_target_is_narrow_enough", pyStr "segment_isolation"⟩
  else if s.strongSoc p && !s.nocFragile && p.redirect.met s then
    ⟨.redirect, pyStr "soc_high_confidence_redirect_is_preferred", pyStr "opencanary_redirect"⟩
  else if s.strongSoc p && !s.nocFragile && p.throttle.met s then
    ⟨.throttle, pyStr "soc_high_and_reversible_control_is_safe", pyStr "route_preference"⟩
  else if s.strongSoc p then ⟨.notify, pyStr "soc_high_but_noc_fragile", pyStr "none"⟩
  else if s.nocFragile then
    ⟨.notify, pyStr "noc_degraded_requires_operator_attention", pyStr "none"⟩
  else ⟨.observe, pyStr "baseline", pyStr "none"⟩

/-- The score of a client impact and its critical clients; it raises when one is no integer. -/
def readImpact (impact : Row F) : Except Error (ℤ × ℤ) :=
  match intOr0 (getKey (pyStr "score") impact),
      intOr0 (getKey (pyStr "critical_client_count") impact) with
  | some score, some critical => .ok (score, critical)
  | _, _ => .error .conversion

/-- A control action gives way to a client impact that is too high. -/
def weighImpact (choice : Choice) (clientImpact : Option (PyJson F)) : Except Error Choice :=
  if choice.action.isControl then
    match clientImpact with
    | some (.obj impact) => do
      let (score, critical) ← readImpact impact
      return if 70 ≤ score ∨ 0 < critical then
        ⟨.notify, pyStr "client_impact_too_high_for_control", pyStr "none"⟩
      else choice
    | _ => .ok choice
  else .ok choice

/-- `_decision_trace`. -/
structure DecisionTrace where
  selectedAction : Action
  selectedReason : PyStr
  nocFragile : Bool
  strongSoc : Bool
  availabilityLabel : PyStr
  pathLabel : PyStr
  deviceLabel : PyStr
  capacityLabel : PyStr
  clientInventoryLabel : PyStr
  configDriftLabel : PyStr
  suspicionLabel : PyStr
  suspicionScore : ℤ
  confidenceScore : ℤ
  blastScore : ℤ
  clientImpactScore : ℤ
  criticalClientCount : ℤ
  safetyProfile : ActionProfile

/-- What `decide` returns. -/
structure Decision (F : Type) where
  action : Action
  reason : PyStr
  controlMode : PyStr
  releaseCondition : PyStr
  chosenEvidenceIds : List PyStr
  rejectedAlternatives : List Rejected
  clientImpact : PyJson F
  actionProfile : ActionProfile
  decisionTrace : DecisionTrace
  policyVersion : PyStr
  policyHash : PyStr

/-- `client_impact or {}`. -/
def impactOrEmpty (clientImpact : Option (PyJson F)) : PyJson F :=
  match clientImpact with
  | some value => if truthy value then value else .obj []
  | none => .obj []

/-- The decision's trace; it raises on a client impact that has no `get`. -/
def decisionTrace (noc soc : Row F) (choice : Choice) (p : Policy) (s : Signals)
    (clientImpact : Option (PyJson F)) : Except Error DecisionTrace := do
  let impact ← orEmpty clientImpact
  let suspicion := dictSection soc (pyStr "suspicion")
  return {
    selectedAction := choice.action
    selectedReason := choice.reason
    nocFragile := s.nocFragile
    strongSoc := s.strongSoc p
    availabilityLabel := s.availabilityLabel
    pathLabel := s.pathLabel
    deviceLabel := s.deviceLabel
    capacityLabel := healthLabel noc (pyStr "capacity_health")
    clientInventoryLabel := healthLabel noc (pyStr "client_inventory_health")
    configDriftLabel := healthLabel noc (pyStr "config_drift_health")
    suspicionLabel := strOrDefault (pyStr "unknown") (getKey (pyStr "label") suspicion)
    suspicionScore := s.suspicionScore
    confidenceScore := s.confidenceScore
    blastScore := s.blastScore
    clientImpactScore := toIntOr 0 (getKey (pyStr "score") impact)
    criticalClientCount := toIntOr 0 (getKey (pyStr "critical_client_count") impact)
    safetyProfile := actionProfile choice.action }

/-- `decide`. -/
def decideAction (p : Policy) (noc soc : PyJson F) (clientImpact : Option (PyJson F)) :
    Except Error (Decision F) := do
  let noc ← validateSchema noc requiredNocKeys (pyStr "noc")
  let soc ← validateSchema soc requiredSocKeys (pyStr "soc")
  let s := readSignals noc soc
  let choice ← weighImpact (choose p s) clientImpact
  let trace ← decisionTrace noc soc choice p s clientImpact
  return {
    action := choice.action
    reason := choice.reason
    controlMode := choice.controlMode
    releaseCondition := releaseCondition choice.action
    chosenEvidenceIds := chosenEvidenceIds choice.action noc soc
    rejectedAlternatives :=
      rejectedAlternatives choice.action s.nocFragile (s.strongSoc p) s.blastScore
    clientImpact := impactOrEmpty clientImpact
    actionProfile := actionProfile choice.action
    decisionTrace := trace
    policyVersion := p.version
    policyHash := p.hash }

end AzazelEdge.Arbiter
