/-
# The triage engine

`TriageFlowEngine` (`triage/engine.py`) over `TriageSessionStore` (`triage/session.py`): a session
is started at the entry of a flow, and each answer moves it along the flow's transitions.

The store keeps one JSON file for each session, written with the characters as they are, so that a
text with a surrogate raises while the file is written, which is then no JSON.  What the flow files
are loaded as, and which runbooks are selected for a state, are parameters; files are otherwise
written without errors.
-/
import AzazelEdge.Triage.Types

namespace AzazelEdge.Triage

open AzazelEdge.Lib AzazelEdge.Lib.Py

section Engine

variable {F : Type} [PyFloat F] [PyConvert F] [YamlRepr F]

/-! ## 1. Sessions -/

/-- An item of `intent_candidates`. -/
structure IntentCandidate (F : Type) where
  intentId : PyStr
  label : Yaml F

inductive SessionStatus where
  | active
  | diagnosticReady
  deriving DecidableEq

/-- `TriageSession`, but for its times. -/
structure TriageSession (F : Type) where
  sessionId : PyStr
  audience : PyStr
  lang : PyStr
  intentCandidates : List (IntentCandidate F)
  selectedIntent : PyStr
  currentState : PyStr
  answers : List (PyStr × PyStr)
  diagnosticState : PyStr
  proposedRunbooks : List PyStr
  status : SessionStatus
  handoffReason : PyStr

/-- `value or default`. -/
def orDefault (value default : PyStr) : PyStr := if value = [] then default else value

/-- `TriageSession.from_dict`, of the file of a session. -/
def TriageSession.reload (s : TriageSession F) : Except TriageError (TriageSession F) := do
  let sessionId := Decision.strip s.sessionId
  ensure (sessionId ≠ []) "triage_session_id_required" []
  return { s with
    sessionId
    audience := orDefault s.audience (pyStr "temporary")
    lang := orDefault s.lang (pyStr "ja")
    selectedIntent := Decision.strip s.selectedIntent
    currentState := Decision.strip s.currentState
    diagnosticState := Decision.strip s.diagnosticState
    handoffReason := Decision.strip s.handoffReason }

/-- The texts of a session. -/
def TriageSession.texts (s : TriageSession F) : List PyStr :=
  [s.sessionId, s.audience, s.lang, s.selectedIntent, s.currentState, s.diagnosticState,
    s.handoffReason] ++ s.proposedRunbooks ++ s.answers.map Prod.fst ++ s.answers.map Prod.snd ++
    s.intentCandidates.map (·.intentId)

/-- The session's file can be written. -/
def TriageSession.Storable (s : TriageSession F) : Prop :=
  (∀ text ∈ s.texts, Encodable text) ∧ ∀ item ∈ s.intentCandidates, item.label.storable = true

instance (s : TriageSession F) : Decidable s.Storable := inferInstanceAs (Decidable (_ ∧ _))

/-! ## 2. The store and the audit -/

/-- A record of the triage audit. -/
inductive AuditRecord where
  | sessionStarted (sessionId intentId audience lang initialState : PyStr)
  | stepAnswered (sessionId intentId stepId answer previousState targetState : PyStr)
  | stateChanged (sessionId intentId previousState nextState : PyStr) (diagnostic : Bool)
  | runbookProposed (sessionId intentId diagnosticState : PyStr) (proposedRunbooks : List PyStr)
  | handoff (sessionId intentId diagnosticState target reason : PyStr)
  | completed (sessionId intentId diagnosticState : PyStr) (proposedRunbooks : List PyStr)
      (handoffReason : PyStr)
  deriving DecidableEq

/-- The files of the sessions, none for one that is no JSON, and the audit. -/
structure TriageWorld (F : Type) where
  store : List (PyStr × Option (TriageSession F))
  audit : List AuditRecord

def TriageWorld.empty : TriageWorld F := ⟨[], []⟩

def TriageWorld.log (w : TriageWorld F) (record : AuditRecord) : TriageWorld F :=
  { w with audit := w.audit ++ [record] }

/-- `TriageSessionStore.save`. -/
def TriageWorld.save (w : TriageWorld F) (s : TriageSession F) :
    TriageWorld F × Except TriageError Unit :=
  if s.Storable then ({ w with store := setItem s.sessionId (some s) w.store }, .ok ())
  else ({ w with store := setItem s.sessionId none w.store }, .error .unicodeEncodeError)

/-- `TriageSessionStore.get`. -/
def TriageWorld.get (w : TriageWorld F) (id : PyStr) :
    Except TriageError (Option (TriageSession F)) :=
  match getItem id w.store with
  | none => .ok none
  | some none => .error .jsonDecodeError
  | some (some s) => s.reload.map some

/-! ## 3. Flows -/

/-- What the engine runs on: the flow files as they are loaded, and `proposed_runbooks` of
`select_runbooks_for_diagnostic_state` for a state, an audience and a language. -/
structure TriageEnv (F : Type) where
  files : PyStr → Option (Yaml F)
  select : PyStr → PyStr → PyStr → Except TriageError (List PyStr)

/-- `load_flow`. -/
def loadFlow (env : TriageEnv F) (flowId : PyStr) : Except TriageError (TriageFlow F) :=
  match env.files flowId with
  | none => .error (.fileNotFoundError (errorText "triage_flow_not_found" [flowId]))
  | some payload => do
    let flow ← TriageFlow.fromDict (if payload.truthy then payload else .map [])
    validateFlow flow

/-- The error of `_step`. -/
def stepNotFound (flow : TriageFlow F) (stepId : PyStr) : TriageError :=
  .keyError (errorText "triage_step_not_found" [flow.flowId, stepId])

/-- `_step`. -/
def findStep (flow : TriageFlow F) (stepId : PyStr) : Except TriageError (TriageStep F) :=
  match flow.steps.find? fun step => step.stepId = stepId with
  | some step => .ok step
  | none => .error (stepNotFound flow stepId)

/-- `_diagnostic`. -/
def findDiagnostic (flow : TriageFlow F) (stateId : PyStr) : Option DiagnosticState :=
  flow.diagnosticStates.find? fun item => item.stateId = stateId

/-- The words for yes, of a boolean step. -/
def yesWords : List PyStr := ["yes", "true", "1", "y", "はい"].map pyStr

/-- The words for no. -/
def noWords : List PyStr := ["no", "false", "0", "n", "いいえ"].map pyStr

/-- `str(choice.get("value", "")).strip()`. -/
def choiceValue (choice : List (Yaml F × Yaml F)) : PyStr := textAt "value" "" choice

/-- `_normalize_answer`, of `str(answer)`. -/
def normalizeAnswer (step : TriageStep F) (answer : PyStr) : PyStr :=
  let raw := PyConvert.lower F (Decision.strip answer)
  if step.answerType = .boolean ∧ raw ∈ yesWords then pyStr "yes"
  else if step.answerType = .boolean ∧ raw ∈ noWords then pyStr "no"
  else raw

/-- The target that the transition map or the fallback has for a normalized answer. -/
def targetFor (step : TriageStep F) (normalized : PyStr) : PyStr :=
  (getItem normalized step.transitionMap).getD step.fallbackTransition

/-! ## 4. The engine -/

/-- `TriageProgress`. -/
structure TriageProgress (F : Type) where
  session : TriageSession F
  flow : TriageFlow F
  nextStep : Option (TriageStep F)
  diagnosticState : Option DiagnosticState
  completed : Bool

/-- `flow.label_i18n.get(lang) or flow.label_i18n.get("en") or intent_id`. -/
def sessionLabel (flow : TriageFlow F) (lang intentId : PyStr) : Yaml F :=
  let labelOf (key : PyStr) : Option (Yaml F) :=
    (flow.labelI18n.find? fun item => item.1.sameKey (.str key)).map Prod.snd
  match (labelOf lang).filter Yaml.truthy, (labelOf (pyStr "en")).filter Yaml.truthy with
  | some label, _ => label
  | none, some label => label
  | none, none => .str intentId

/-- The session is saved, and then a record is logged. -/
def saveThen (w : TriageWorld F) (record : AuditRecord) (progress : TriageProgress F) :
    TriageWorld F × Except TriageError (TriageProgress F) :=
  match w.save progress.session with
  | (w, .error error) => (w, .error error)
  | (w, .ok ()) => (w.log record, .ok progress)

/-- The session that `TriageSessionStore.create` makes. -/
def createdSession (F : Type) (id intentId audience lang entryState : PyStr) : TriageSession F :=
  { sessionId := id
    audience := orDefault audience (pyStr "temporary")
    lang := orDefault lang (pyStr "ja")
    intentCandidates := []
    selectedIntent := intentId
    currentState := entryState
    answers := []
    diagnosticState := []
    proposedRunbooks := []
    status := .active
    handoffReason := [] }

/-- The session with the intent that was selected as its only candidate. -/
def selectedSession (flow : TriageFlow F) (id intentId audience lang : PyStr) : TriageSession F :=
  { createdSession F id intentId audience lang flow.entryState with
    intentCandidates := [⟨intentId, sessionLabel flow lang intentId⟩] }

omit [PyFloat F] [PyConvert F] [YamlRepr F] in
@[simp] theorem createdSession_sessionId {id intentId audience lang entryState : PyStr} :
    (createdSession F id intentId audience lang entryState).sessionId = id := rfl

omit [PyConvert F] [YamlRepr F] in
@[simp] theorem selectedSession_sessionId {flow : TriageFlow F}
    {id intentId audience lang : PyStr} :
    (selectedSession flow id intentId audience lang).sessionId = id := rfl

/-- `start`; the session's id is made by `uuid4`. -/
def start (env : TriageEnv F) (w : TriageWorld F) (id intentId audience lang : PyStr) :
    TriageWorld F × Except TriageError (TriageProgress F) :=
  match loadFlow env intentId with
  | .error error => (w, .error error)
  | .ok flow =>
    match w.save (createdSession F id intentId audience lang flow.entryState) with
    | (w, .error error) => (w, .error error)
    | (w, .ok ()) =>
      let session := selectedSession flow id intentId audience lang
      match w.save session with
      | (w, .error error) => (w, .error error)
      | (w, .ok ()) =>
        (w.log (.sessionStarted id intentId audience lang flow.entryState),
          (findStep flow flow.entryState).map fun step => ⟨session, flow, some step, none, false⟩)

/-- The session is saved with its runbooks, and handed off where the user cannot answer. -/
def propose (w : TriageWorld F) (flow : TriageFlow F) (session : TriageSession F)
    (diagnostic : DiagnosticState) (runbooks : List PyStr) :
    TriageWorld F × Except TriageError (TriageProgress F) :=
  let state := diagnostic.stateId
  let session := { session with proposedRunbooks := runbooks }
  let w := w.log (.runbookProposed session.sessionId session.selectedIntent state runbooks)
  let reason := pyStr "insufficient_user_input"
  let handsOff := state = pyStr "user_cannot_answer"
  let session := if handsOff then { session with handoffReason := reason } else session
  let w :=
    if handsOff then
      w.log (.handoff session.sessionId session.selectedIntent state (pyStr "operator") reason)
    else w
  saveThen w (.completed session.sessionId session.selectedIntent state runbooks
    session.handoffReason) ⟨session, flow, none, some diagnostic, true⟩

/-- The end of `answer` at a diagnostic state. -/
def diagnose (env : TriageEnv F) (w : TriageWorld F) (flow : TriageFlow F) (stepId : PyStr)
    (session : TriageSession F) (diagnostic : DiagnosticState) :
    TriageWorld F × Except TriageError (TriageProgress F) :=
  let state := diagnostic.stateId
  let session := { session with
    currentState := [], diagnosticState := state, status := .diagnosticReady }
  let w := w.log (.stateChanged session.sessionId session.selectedIntent stepId state true)
  match env.select state session.audience session.lang with
  | .error error => (w, .error error)
  | .ok runbooks => propose w flow session diagnostic runbooks

/-- The end of `answer` at a step. -/
def proceed (w : TriageWorld F) (flow : TriageFlow F) (stepId : PyStr) (session : TriageSession F)
    (next : TriageStep F) : TriageWorld F × Except TriageError (TriageProgress F) :=
  let session := { session with currentState := next.stepId }
  saveThen w (.stateChanged session.sessionId session.selectedIntent stepId next.stepId false)
    ⟨session, flow, some next, none, false⟩

/-- The session moves from a step to its target. -/
def advance (env : TriageEnv F) (w : TriageWorld F) (flow : TriageFlow F) (stepId : PyStr)
    (session : TriageSession F) (target : PyStr) :
    TriageWorld F × Except TriageError (TriageProgress F) :=
  match findDiagnostic flow target with
  | some diagnostic => diagnose env w flow stepId session diagnostic
  | none =>
    match findStep flow target with
    | .error error => (w, .error error)
    | .ok next => proceed w flow stepId session next

/-- `answer` of an active session at a step. -/
def answerStep (env : TriageEnv F) (w : TriageWorld F) (flow : TriageFlow F)
    (session : TriageSession F) (current : TriageStep F) (answer : PyStr) :
    TriageWorld F × Except TriageError (TriageProgress F) :=
  let normalized := normalizeAnswer current answer
  let session := { session with answers := setItem current.stepId normalized session.answers }
  let target := targetFor current normalized
  let w := w.log (.stepAnswered session.sessionId session.selectedIntent current.stepId normalized
    current.stepId target)
  advance env w flow current.stepId session target

def SessionStatus.name : SessionStatus → PyStr
  | .active => pyStr "active"
  | .diagnosticReady => pyStr "diagnostic_ready"

/-- `answer`, of `str(answer)`. -/
def answer (env : TriageEnv F) (w : TriageWorld F) (id answer : PyStr) :
    TriageWorld F × Except TriageError (TriageProgress F) :=
  match w.get id with
  | .error error => (w, .error error)
  | .ok none => (w, .error (.keyError (errorText "triage_session_not_found" [id])))
  | .ok (some session) =>
    if session.status ≠ .active then
      (w, .error (.valueError
        (errorText "triage_session_not_active" [session.sessionId, session.status.name])))
    else if session.selectedIntent = [] then
      (w, .error (.valueError (errorText "triage_intent_not_selected" [session.sessionId])))
    else
      match loadFlow env session.selectedIntent with
      | .error error => (w, .error error)
      | .ok flow =>
        match findStep flow session.currentState with
        | .error error => (w, .error error)
        | .ok current => answerStep env w flow session current answer

end Engine

end AzazelEdge.Triage
