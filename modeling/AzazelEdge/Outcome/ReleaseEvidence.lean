/-
# Release evidence

`outcome/release_evidence.py`: the event that the core writes for each outcome of its sweep
(`process_release_events`, `main.rs`), what `from_rust_release_event` reads of it, and how
`reconcile_release_evidence` ends the life of the records it belongs to.  The text of a float with
six decimals is a parameter (`fixed6`).
-/
import AzazelEdge.Outcome.Postcondition
import AzazelEdge.Release.Attempt

namespace AzazelEdge.Outcome

open AzazelEdge.Lib AzazelEdge.Lib.Py AzazelEdge.Audit AzazelEdge.Arbiter AzazelEdge.Release

variable {F : Type} [PyFloat F] [PyRepr F] [PyConvert F] [PyDate F]

/-! ## 1. The event of the core -/

mutual

/-- A value of the core as Python reads it. -/
def ofJson : Json → PyJson F
  | .null => .null
  | .bool b => .bool b
  | .int n => .int n
  | .float q => .float (PyDate.ofEpoch q)
  | .str s => jstr s
  | .arr items => .arr (ofItems items)
  | .obj members => .obj (ofMembers members)

def ofItems : List Json → List (PyJson F)
  | [] => []
  | item :: items => ofJson item :: ofItems items

def ofMembers : List (String × Json) → Row F
  | [] => []
  | (key, value) :: members => (pyStr key, ofJson value) :: ofMembers members

end

/-- The status of an outcome as the core writes it. -/
def statusText : OutcomeStatus → String
  | .released => "released"
  | .retryPending => "retry_pending"
  | .superseded => "superseded"

/-- An outcome as JSON. -/
def releaseJson (outcome : ReleaseOutcome) : Row F :=
  [(pyStr "release_task_id", jstr outcome.releaseTaskId), (pyStr "trace_id", jstr outcome.traceId),
    (pyStr "action", jstr outcome.action.asStr), (pyStr "resource_key", jstr outcome.resourceKey),
    (pyStr "owner_token", jstr outcome.ownerToken), (pyStr "tc_handle", jstr outcome.tcHandle),
    (pyStr "due_epoch", .float (PyDate.ofEpoch outcome.dueEpoch)),
    (pyStr "attempted_at_epoch", .float (PyDate.ofEpoch outcome.attemptedAtEpoch)),
    (pyStr "status", jstr (statusText outcome.status)), (pyStr "result", jstr outcome.result),
    (pyStr "command_count", .int outcome.commandCount),
    (pyStr "failed_count", .int outcome.failedCount),
    (pyStr "errors", .arr (outcome.errors.map jstr)),
    (pyStr "postcondition", ofJson outcome.postcondition),
    (pyStr "rollback_start_audit", jstr outcome.rollbackStartAudit),
    (pyStr "expiry_clock", jstr outcome.expiryClock)]

/-- The event of `process_release_events`. -/
def releaseEvent (outcome : ReleaseOutcome) (enforcementStatus : PyJson F) : Row F :=
  [(pyStr "release", .obj (releaseJson outcome)), (pyStr "enforcement_status", enforcementStatus),
    (pyStr "source", jstr "release_ledger"), (pyStr "pipeline", jstr "rust_release_engine_v1")]

/-! ## 2. `from_rust_release_event` -/

/-- `ReleaseEvidenceStatus`. -/
inductive ReleaseEvidenceStatus where
  | released | retryPending | superseded
  deriving DecidableEq, Repr

def ReleaseEvidenceStatus.value : ReleaseEvidenceStatus → PyStr
  | .released => pyStr "released"
  | .retryPending => pyStr "retry_pending"
  | .superseded => pyStr "superseded"

/-- `ReleaseEvidenceStatus(text)`. -/
def ReleaseEvidenceStatus.ofText (text : PyStr) : Except PyError ReleaseEvidenceStatus :=
  if text = pyStr "released" then .ok .released
  else if text = pyStr "retry_pending" then .ok .retryPending
  else if text = pyStr "superseded" then .ok .superseded
  else .error (.valueError "unsupported release evidence status")

/-- `ReleaseEvidenceRecord`. -/
structure ReleaseEvidenceRecord (F : Type) where
  releaseTaskId : PyStr
  decisionId : PyStr
  actionKind : PyStr
  resourceKey : PyStr
  ownerToken : PyStr
  tcHandle : PyStr
  dueEpoch : F
  attemptedAtEpoch : F
  status : ReleaseEvidenceStatus
  result : PyStr
  commandCount : ℤ
  failedCount : ℤ
  errors : List PyStr
  postcondition : Row F
  evidenceRefs : List PyStr
  observedAt : PyStr

/-- `_required_text`. -/
def requiredText (release : Row F) (key : String) : Except PyError PyStr :=
  if Decision.strip (strOr (getStr key release)) = [] then
    .error (.valueError ("release evidence requires " ++ key))
  else .ok (Decision.strip (strOr (getStr key release)))

/-- `_epoch`. -/
def epoch (value : Option (PyJson F)) (name : String) : Except PyError F :=
  match value with
  | some (.bool _) => .error (.valueError (name ++ " must be numeric"))
  | value =>
    match value, value.bind toFloat with
    | some (.int _), none => .error .overflowError
    | _, none => .error (.valueError (name ++ " must be numeric"))
    | _, some parsed =>
      if PyDate.isFinite parsed = false ∨ PyFloat.lt (.inr parsed) (.inr (lit "0.0")) then
        .error (.valueError (name ++ " must be finite and non-negative"))
      else .ok parsed

/-- `x.is_integer()`. -/
def isInteger (x : F) : Bool :=
  match PyConvert.intOfFloat x with
  | some n => !PyFloat.lt (.inl n) (.inr x) && !PyFloat.lt (.inr x) (.inl n)
  | none => false

/-- `_nonnegative_int`. -/
def nonnegativeInt (value : Option (PyJson F)) (name : String) : Except PyError ℤ :=
  let message := name ++ " must be a non-negative integer"
  match value with
  | some (.bool _) => .error (.valueError message)
  | value =>
    if (match value with
        | some (.float x) => !isInteger x
        | _ => false) then
      .error (.valueError message)
    else match value.bind toInt with
    | none => .error (.valueError message)
    | some parsed => if parsed < 0 then .error (.valueError message) else .ok parsed

/-- `postcondition.get("verified") is True`. -/
def isVerified (postcondition : Row F) : Bool := Decision.isTrue (getStr "verified" postcondition)

section Evidence

variable [PyChars] (fixed6 : F → PyStr)

/-- `from_rust_release_event`. -/
def fromRustReleaseEvent (event : Row F) : Except PyError (ReleaseEvidenceRecord F) := do
  if strOr (getStr "pipeline" event) ≠ pyStr "rust_release_engine_v1" then
    throw (.valueError "release evidence requires rust_release_engine_v1 pipeline")
  match mapping? (getStr "release" event) with
  | none => throw (.valueError "release event requires release object")
  | some release =>
    let taskId ← requiredText release "release_task_id"
    let decisionId ← requiredText release "trace_id"
    let action := PyConvert.lower F (← requiredText release "action")
    let resourceKey ← requiredText release "resource_key"
    let ownerToken ← requiredText release "owner_token"
    let result ← requiredText release "result"
    if action ∉ ["throttle", "redirect", "isolate"].map pyStr then
      throw (.valueError "unsupported release action")
    if (pyStr "azazel-edge:release-").isPrefixOf ownerToken = false then
      throw (.valueError "release evidence has invalid owner token")
    let status ← ReleaseEvidenceStatus.ofText (strOr (getStr "status" release))
    let dueEpoch ← epoch (getStr "due_epoch" release) "due_epoch"
    let attemptedAtEpoch ← epoch (getStr "attempted_at_epoch" release) "attempted_at_epoch"
    if PyFloat.lt (.inr attemptedAtEpoch) (.inr dueEpoch) ∧ status ≠ .superseded then
      throw (.valueError "release attempt predates due time")
    match mapping? (getStr "postcondition" release) with
    | none => throw (.valueError "release evidence requires postcondition object")
    | some postcondition =>
      if status = .released ∧ isVerified postcondition = false then
        throw (.valueError "released evidence requires verified absence postcondition")
      let tcHandle := strOr (getStr "tc_handle" release)
      if action = pyStr "throttle" ∧ validHandle tcHandle = false then
        throw (.valueError "throttle release evidence requires valid tc handle")
      if action ≠ pyStr "throttle" ∧ tcHandle ≠ [] then
        throw (.valueError "nft release evidence must not claim tc handle")
      let commandCount ← nonnegativeInt (getStr "command_count" release) "command_count"
      let failedCount ← nonnegativeInt (getStr "failed_count" release) "failed_count"
      match getStr "errors" release with
      | some (.arr rawErrors) =>
        let observedAt ← orRaise (PyDate.isoTimestamp attemptedAtEpoch)
        return {
          releaseTaskId := taskId
          decisionId, actionKind := action
          resourceKey, ownerToken, tcHandle, dueEpoch, attemptedAtEpoch, status, result
          commandCount, failedCount
          errors := rawErrors.map fun value => (strOf value).take 512
          postcondition
          evidenceRefs := [pyStr "rust_release_engine_v1:" ++ taskId ++ pyStr ":" ++
            fixed6 attemptedAtEpoch]
          observedAt }
      | _ => throw (.valueError "release evidence errors must be a sequence")

end Evidence

/-! ## 3. `reconcile_release_evidence` -/

/-- `_validate_provider_release_identity`. -/
def validateProviderReleaseIdentity (execution : ActionExecutionReceipt F)
    (release : ReleaseEvidenceRecord F) : Except PyError Unit := do
  if execution.releaseRef ≠ release.releaseTaskId then
    throw (.valueError "release evidence task id does not match execution release reference")
  match mapping? (getStr "metadata" execution.appliedParameters) with
  | none => throw (.valueError "release evidence requires provider release metadata")
  | some metadata =>
    let expectedTcHandle := strOr (getStr "release_tc_handle" metadata)
    if strOr (getStr "release_task_id" metadata) ≠ release.releaseTaskId then
      throw (.valueError "release evidence task id does not match provider metadata")
    if strOr (getStr "release_owner_token" metadata) ≠ release.ownerToken then
      throw (.valueError "release evidence owner token does not match provider metadata")
    if strOr (getStr "release_resource_key" metadata) ≠ release.resourceKey then
      throw (.valueError "release evidence resource key does not match provider metadata")
    if release.actionKind = pyStr "throttle" ∧ expectedTcHandle ≠ release.tcHandle then
      throw (.valueError "release evidence tc handle does not match provider metadata")
    if release.actionKind ≠ pyStr "throttle" ∧ expectedTcHandle ≠ [] then
      throw (.valueError "nft execution unexpectedly claims tc release handle")

/-- `_release_ownership`. -/
def releaseOwnership (release : ReleaseEvidenceRecord F) : Ownership :=
  if release.actionKind = pyStr "throttle" then .tcHandle release.tcHandle
  else .nftComment release.ownerToken

/-- The summary of a release in its mechanism's record. -/
def releaseSummary (release : ReleaseEvidenceRecord F) (expected : Ownership) : Row F :=
  [(pyStr "release_task_id", .str release.releaseTaskId),
    (pyStr "status", .str release.status.value), (pyStr "result", .str release.result),
    (pyStr "observed_at", .str release.observedAt), (pyStr "ownership", expected.value),
    (pyStr "postcondition", .obj release.postcondition)]

/-- The records of a released action. -/
def endRecords (execution : ActionExecutionReceipt F) (mechanism : AppliedMechanism F)
    (release : ReleaseEvidenceRecord F) (expected : Ownership) :
    Except PyError (ActionExecutionReceipt F × AppliedMechanism F) := do
  let execution ← ActionExecutionReceipt.make
    { execution with
      status := .released
      lifecycle := .released
      completedAt := release.observedAt
      releaseRef := release.releaseTaskId
      providerEvidenceRefs := distinct (execution.providerEvidenceRefs ++ release.evidenceRefs) }
  let mechanism ← AppliedMechanism.make
    { mechanism with
      status := .released
      observedParameters := setKey (pyStr "release_evidence") (.obj (releaseSummary release expected))
        mechanism.observedParameters
      observedAt := release.observedAt
      evidenceRefs := distinct (mechanism.evidenceRefs ++ release.evidenceRefs)
      producer := pyStr "azazel_edge.outcome.release_reconciliation" }
  return (execution, mechanism)

/-- `reconcile_release_evidence`. -/
def reconcileReleaseEvidence [PyChars] (execution : ActionExecutionReceipt F)
    (mechanism : AppliedMechanism F) (release : ReleaseEvidenceRecord F) :
    Except PyError (ActionExecutionReceipt F × AppliedMechanism F) := do
  if execution.decisionId ≠ release.decisionId ∨ mechanism.decisionId ≠ release.decisionId then
    throw (.valueError "release evidence decision correlation mismatch")
  if execution.executionId ≠ mechanism.executionId then
    throw (.valueError "release evidence execution/mechanism correlation mismatch")
  if PyConvert.lower F execution.actionKind ≠ release.actionKind then
    throw (.valueError "release evidence action correlation mismatch")
  match ← expectedOwnership execution with
  | none => return (execution, mechanism)
  | some expected =>
    validateProviderReleaseIdentity execution release
    if expected ≠ releaseOwnership release then
      throw (.valueError "release evidence ownership mismatch")
    match mapping? (getStr "postcondition_probe" mechanism.observedParameters) with
    | none => return (execution, mechanism)
    | some probe =>
      match mapping? (getStr "ownership" probe) with
      | none => return (execution, mechanism)
      | some observedOwner =>
        if strOr (getStr "kind" observedOwner) ≠ expected.kind ∨
            strOr (getStr "value" observedOwner) ≠ expected.token then
          throw (.valueError "release evidence does not match observed mechanism owner")
        if release.status ≠ .released ∨ isVerified release.postcondition = false ∨
            execution.status ≠ .applied ∨ execution.lifecycle ≠ .active ∨
            mechanism.status ≠ .observed then
          return (execution, mechanism)
        endRecords execution mechanism release expected

end AzazelEdge.Outcome
