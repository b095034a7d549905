/-
# Triage flows

`TriageFlow` and its parts (`triage/types.py`), as they are read from what a flow file is loaded as,
and `validate_flow` (`triage/loader.py`).

The keys of a transition map are normalized when the flow is read: words for yes and no to `yes` and
`no`, any other key to its text without the spaces around it.
-/
import AzazelEdge.Lib.Dict
import AzazelEdge.Lib.PyYaml
import AzazelEdge.Decision.Payload

namespace AzazelEdge.Triage

open AzazelEdge.Lib AzazelEdge.Lib.Py

variable {F : Type} [PyFloat F] [PyConvert F] [YamlRepr F]

/-! ## 1. Errors -/

/-- What is raised. -/
inductive TriageError where
  | valueError (text : PyStr)
  | keyError (text : PyStr)
  | fileNotFoundError (text : PyStr)
  /-- A builtin refuses its argument. -/
  | conversion
  | unicodeEncodeError
  | jsonDecodeError
  deriving DecidableEq

/-- A code, and the ids that it is about. -/
def errorText (code : String) (ids : List PyStr) : PyStr :=
  pyStr code ++ ids.flatMap fun id => 58 :: id

def orRaise {α : Type} (value : Option α) : Except TriageError α :=
  match value with
  | some value => .ok value
  | none => .error .conversion

/-- `raise ValueError`, unless the condition holds. -/
def ensure (condition : Prop) [Decidable condition] (code : String) (ids : List PyStr) :
    Except TriageError Unit :=
  if condition then .ok () else .error (.valueError (errorText code ids))

/-! ## 2. Keys and labels -/

/-- `{"true", "yes", "はい"}`. -/
def yesKeys : List PyStr := ["true", "yes", "はい"].map pyStr

/-- `{"false", "no", "いいえ"}`. -/
def noKeys : List PyStr := ["false", "no", "いいえ"].map pyStr

/-- `_normalize_transition_key`. -/
def normalizeTransitionKey (value : Yaml F) : PyStr :=
  match value with
  | .bool b => if b then pyStr "yes" else pyStr "no"
  | value =>
    let text := Decision.strip value.text
    let lowered := PyConvert.lower F text
    if lowered ∈ yesKeys then pyStr "yes" else if lowered ∈ noKeys then pyStr "no" else text

/-- `_normalize_choice_label`. -/
def normalizeChoiceLabel (value : Yaml F) : PyStr :=
  match value with
  | .bool b => if b then pyStr "Yes" else pyStr "No"
  | value => value.text

/-- `str(payload.get(key, default)).strip()`. -/
def textAt (key default : String) (payload : List (Yaml F × Yaml F)) : PyStr :=
  Decision.strip (((Yaml.get key payload).map Yaml.text).getD (pyStr default))

/-- A dict; anything else has no `get`. -/
def asMapping (value : Yaml F) : Except TriageError (List (Yaml F × Yaml F)) :=
  match value with
  | .map entries => .ok entries
  | _ => .error .conversion

/-! ## 3. The parts of a flow -/

inductive Severity where
  | low
  | medium
  | high
  deriving DecidableEq

def Severity.name : Severity → PyStr
  | .low => pyStr "low"
  | .medium => pyStr "medium"
  | .high => pyStr "high"

/-- A severity of `VALID_SEVERITIES`. -/
def Severity.ofText (text : PyStr) : Option Severity :=
  [Severity.low, .medium, .high].find? fun severity => severity.name = text

inductive AnswerType where
  | singleChoice
  | boolean
  | text
  deriving DecidableEq

def AnswerType.name : AnswerType → PyStr
  | .singleChoice => pyStr "single_choice"
  | .boolean => pyStr "boolean"
  | .text => pyStr "text"

/-- An answer type of `VALID_ANSWER_TYPES`. -/
def AnswerType.ofText (text : PyStr) : Option AnswerType :=
  [AnswerType.singleChoice, .boolean, .text].find? fun type => type.name = text

/-- `DiagnosticState`. -/
structure DiagnosticState where
  stateId : PyStr
  severity : Severity
  summaryKey : PyStr
  userGuidanceKey : PyStr
  operatorNoteKey : PyStr

/-- `DiagnosticState.from_dict`. -/
def DiagnosticState.fromDict (payload : Yaml F) : Except TriageError DiagnosticState := do
  let payload ← asMapping payload
  let stateId := textAt "state_id" "" payload
  ensure (stateId ≠ []) "diagnostic_state_id_required" []
  let text := textAt "severity" "low" payload
  let text := if text = [] then pyStr "low" else text
  match Severity.ofText text with
  | none => throw (.valueError (errorText "invalid_diagnostic_severity" [text]))
  | some severity =>
    return {
      stateId, severity
      summaryKey := textAt "summary_key" "" payload
      userGuidanceKey := textAt "user_guidance_key" "" payload
      operatorNoteKey := textAt "operator_note_key" "" payload }

/-- `TriageStep`. -/
structure TriageStep (F : Type) where
  stepId : PyStr
  questionI18n : List (Yaml F × Yaml F)
  answerType : AnswerType
  choices : List (List (Yaml F × Yaml F))
  transitionMap : List (PyStr × PyStr)
  fallbackTransition : PyStr

/-- A choice, with labels that are texts. -/
def readChoice (item : Yaml F) : Except TriageError (List (Yaml F × Yaml F)) := do
  let choice ← orRaise (Yaml.dictOr (some item))
  let labels ← orRaise (Yaml.dictOr (Yaml.get "label_i18n" choice))
  let texts := dictOf (labels.map fun label => (label.1.text, normalizeChoiceLabel label.2))
  return if texts = [] then choice
    else Yaml.put (.str (pyStr "label_i18n"))
      (.map (texts.map fun label => (.str label.1, .str label.2))) choice

/-- The items of a transition map, as they are declared. -/
def declaredKeys (payload : List (Yaml F × Yaml F)) : Option (List (Yaml F × Yaml F)) :=
  Yaml.dictOr (Yaml.get "transition_map" payload)

/-- The items of the map that is built: those with a target. -/
def transitionItems (declared : List (Yaml F × Yaml F)) : List (PyStr × PyStr) :=
  (declared.filter fun item => Decision.strip item.2.text ≠ []).map fun item =>
    (normalizeTransitionKey item.1, item.2.text)

/-- `TriageStep.from_dict`. -/
def TriageStep.fromDict (payload : Yaml F) : Except TriageError (TriageStep F) := do
  let payload ← asMapping payload
  let stepId := textAt "step_id" "" payload
  ensure (stepId ≠ []) "step_id_required" []
  let questionI18n ← orRaise (Yaml.dictOr (Yaml.get "question_i18n" payload))
  ensure (questionI18n.length ≠ 0 ∧
    (questionI18n.all fun item => decide (Decision.strip item.2.text ≠ [])) = true)
    "question_i18n_required" [stepId]
  let typeText := textAt "answer_type" "" payload
  match AnswerType.ofText typeText with
  | none => throw (.valueError (errorText "invalid_answer_type" [stepId, typeText]))
  | some answerType =>
    let choices ← (← orRaise (Yaml.listAt "choices" payload)).mapM readChoice
    ensure (answerType = .text ∨ choices.length ≠ 0) "choices_required" [stepId]
    let declared ← orRaise (declaredKeys payload)
    let transitionMap := dictOf (transitionItems declared)
    ensure (transitionMap ≠ []) "transition_map_required" [stepId]
    let fallbackTransition := textAt "fallback_transition" "" payload
    ensure (fallbackTransition ≠ []) "fallback_transition_required" [stepId]
    return { stepId, questionI18n, answerType, choices, transitionMap, fallbackTransition }

/-! ## 4. Flows -/

/-- `TriageFlow`. -/
structure TriageFlow (F : Type) where
  flowId : PyStr
  version : ℤ
  intents : List PyStr
  labelI18n : List (Yaml F × Yaml F)
  entryState : PyStr
  steps : List (TriageStep F)
  diagnosticStates : List DiagnosticState

/-- `TriageFlow.from_dict`. -/
def TriageFlow.fromDict (payload : Yaml F) : Except TriageError (TriageFlow F) := do
  let payload ← asMapping payload
  let flowId := textAt "flow_id" "" payload
  ensure (flowId ≠ []) "flow_id_required" []
  let version ← orRaise (((Yaml.get "version" payload).map Yaml.toInt).getD (some 1))
  let intents := ((← orRaise (Yaml.listAt "intents" payload)).map fun item =>
    Decision.strip item.text).filter fun text => text ≠ []
  ensure (intents ≠ []) "intents_required" [flowId]
  let labelI18n ← orRaise (Yaml.dictOr (Yaml.get "label_i18n" payload))
  ensure (labelI18n.length ≠ 0) "label_i18n_required" [flowId]
  let entryState := textAt "entry_state" "" payload
  ensure (entryState ≠ []) "entry_state_required" [flowId]
  let steps ← (← orRaise (Yaml.listAt "steps" payload)).mapM TriageStep.fromDict
  ensure (steps.length ≠ 0) "steps_required" [flowId]
  let diagnosticStates ←
    (← orRaise (Yaml.listAt "diagnostic_states" payload)).mapM DiagnosticState.fromDict
  return { flowId, version, intents, labelI18n, entryState, steps, diagnosticStates }

def TriageFlow.stepIds (flow : TriageFlow F) : List PyStr := flow.steps.map (·.stepId)

def TriageFlow.diagnosticIds (flow : TriageFlow F) : List PyStr :=
  flow.diagnosticStates.map (·.stateId)

/-- The targets of a step. -/
def TriageStep.targets (step : TriageStep F) : List PyStr :=
  step.transitionMap.map Prod.snd ++ [step.fallbackTransition]

/-- A target that the flow has. -/
def TriageFlow.HasTarget (flow : TriageFlow F) (target : PyStr) : Prop :=
  target ∈ flow.stepIds ∨ target ∈ flow.diagnosticIds

instance (flow : TriageFlow F) (target : PyStr) : Decidable (flow.HasTarget target) :=
  inferInstanceAs (Decidable (_ ∨ _))

/-- `validate_flow`. -/
def validateFlow (flow : TriageFlow F) : Except TriageError (TriageFlow F) := do
  ensure flow.stepIds.Nodup "duplicate_step_id" [flow.flowId]
  ensure (flow.entryState ∈ flow.stepIds) "entry_state_not_found" [flow.flowId, flow.entryState]
  flow.steps.forM fun step => step.targets.forM fun target =>
    ensure (flow.HasTarget target) "invalid_transition_target" [flow.flowId, step.stepId, target]
  return flow

end AzazelEdge.Triage
