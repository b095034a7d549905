/-
# The core's event as a receipt and a mechanism

`from_rust_event` (`outcome/adapter.py`), and the event of the core that it reads (`core_event`).
Ids are digests of texts (`digest`), and the form of a date is a parameter (`PyDate`).
-/
import AzazelEdge.Lib.PyNumber
import AzazelEdge.Outcome.Contracts
import AzazelEdge.Release.Plan

namespace AzazelEdge.Outcome

open AzazelEdge.Lib AzazelEdge.Lib.Py AzazelEdge.Audit AzazelEdge.Arbiter AzazelEdge.Release

/-- Dates of epochs. -/
class PyDate (F : Type) where
  isFinite : F → Bool
  /-- `datetime.fromtimestamp(x, tz=timezone.utc).isoformat()`; none when it raises. -/
  isoTimestamp : F → Option PyStr
  /-- The float that an epoch of the core is read as. -/
  ofEpoch : Epoch → F

/-- Dates of whole seconds, all of them written alike. -/
instance : PyDate Whole where
  isFinite _ := true
  isoTimestamp _ := some (pyStr "2023-11-14T22:18:20+00:00")
  ofEpoch t := ⟨t.floor.toNat⟩

variable {F : Type} [PyFloat F] [PyRepr F] [PyConvert F] [PyDate F]

/-! ## 1. The event of the core -/

/-- A string of the core, as JSON. -/
def jstr (s : String) : PyJson F := .str (pyStr s)

/-- What `add_release_metadata` writes. -/
def releaseMetadata (release : Option ReleaseTask) (state : String) : Row F :=
  match release with
  | some task =>
    [(pyStr "release_task_id", jstr task.taskId),
      (pyStr "release_due_epoch", .float (PyDate.ofEpoch task.dueEpoch)),
      (pyStr "release_resource_key", jstr task.resourceKey),
      (pyStr "release_owner_token", jstr task.ownerToken),
      (pyStr "release_tc_handle", jstr task.tcHandle),
      (pyStr "release_ledger_state", jstr state)]
  | none =>
    [(pyStr "release_task_id", .null), (pyStr "release_due_epoch", .null),
      (pyStr "release_resource_key", .null), (pyStr "release_owner_token", .null),
      (pyStr "release_tc_handle", .null), (pyStr "release_ledger_state", jstr state)]

/-- An outcome as JSON; `metadata` is what else its metadata says. -/
def enforcementJson (outcome : EnforcementOutcome) (metadata : Row F) : Row F :=
  [(pyStr "mode", jstr outcome.mode), (pyStr "trace_id", jstr outcome.traceId),
    (pyStr "selected_action", jstr outcome.selectedAction), (pyStr "target", jstr outcome.target),
    (pyStr "policy_reason", jstr outcome.policyReason),
    (pyStr "command_plan", .arr (outcome.commandPlan.map jstr)),
    (pyStr "rollback_plan", .arr (outcome.rollbackPlan.map jstr)),
    (pyStr "executed_count", .int outcome.executedCount),
    (pyStr "failed_count", .int outcome.failedCount), (pyStr "errors", .arr (outcome.errors.map jstr)),
    (pyStr "result", jstr outcome.result),
    (pyStr "metadata", .obj (releaseMetadata outcome.release outcome.ledgerState ++ metadata))]

/-- `core_event`. -/
def coreEvent (ev : NormalizedEvent) (decision : DefensiveDecision) (outcome : EnforcementOutcome)
    (metadata : Row F) : Row F :=
  [(pyStr "normalized", .obj
      [(pyStr "ts", jstr ev.ts), (pyStr "src_ip", jstr ev.srcIp), (pyStr "dst_ip", jstr ev.dstIp),
        (pyStr "severity", .int ev.severity), (pyStr "target_port", .int ev.targetPort),
        (pyStr "protocol", jstr ev.protocol), (pyStr "sid", .int ev.sid)]),
    (pyStr "defense", .obj
      [(pyStr "action", jstr decision.action), (pyStr "reason", jstr decision.reason),
        (pyStr "policy_reason", jstr decision.policyReason),
        (pyStr "delay_ms", .int decision.delayMs), (pyStr "target", jstr decision.target)]),
    (pyStr "enforcement", .obj (enforcementJson outcome metadata)),
    (pyStr "source", jstr "suricata_eve"), (pyStr "pipeline", jstr "rust_event_engine_v1")]

/-! ## 2. The parts of the adapter -/

/-- A conversion that may raise. -/
def orRaise {α : Type} (value : Option α) : Except PyError α :=
  match value with
  | some value => .ok value
  | none => .error (.valueError "invalid literal")

/-- `str(row.get(key, ''))`. -/
def strGet (key : String) (row : Row F) : PyStr := ((getKey (pyStr key) row).map strOf).getD []

/-- `_action_kind`. -/
def actionKind (event : Row F) : PyStr :=
  let enforcement := asDict (getKey (pyStr "enforcement") event)
  let defense := asDict (getKey (pyStr "defense") event)
  PyConvert.lower F (strOrDefault (pyStr "unknown")
    (pyOr (getKey (pyStr "selected_action") enforcement) (getKey (pyStr "action") defense)))

/-- `_DISRUPTIVE_ACTIONS`. -/
def disruptiveActions : List PyStr := ["throttle", "redirect", "isolate"].map pyStr

/-- `_execution_status`. -/
def executionStatus (enforcement : Row F) (action : PyStr) : Except PyError ExecutionStatus := do
  let mode := PyConvert.lower F (strGet "mode" enforcement)
  let result := PyConvert.lower F (strGet "result" enforcement)
  let failedCount ← orRaise (intOr0 (getKey (pyStr "failed_count") enforcement))
  let executedCount ← orRaise (intOr0 (getKey (pyStr "executed_count") enforcement))
  return if mode = pyStr "policy_gated" then .rejected
    else if mode ∈ ["dry_run", "release_guard_failed"].map pyStr then .unverified
    else if 0 < failedCount ∧ executedCount = 0 then .failed
    else if 0 < failedCount ∧ 0 < executedCount then .partly
    else if result = pyStr "partial_failure" then .unverified
    else if mode = pyStr "enforced" ∧ result = pyStr "applied" ∧ failedCount = 0 then
      if action ∈ disruptiveActions ∧ executedCount ≤ 0 then .unverified else .applied
    else if action = pyStr "observe" ∧ result = pyStr "no_disruptive_action" then .applied
    else .unverified

/-- `_action_lifecycle`. -/
def actionLifecycle : ExecutionStatus → ActionLifecycle
  | .applied => .active
  | .partly => .unverified
  | .rejected => .rejected
  | .failed => .failed
  | .expired => .expired
  | .released => .released
  | .unverified => .unverified

/-- `_mechanism_kind`. -/
def mechanismKind (action : PyStr) : MechanismKind :=
  if action = pyStr "throttle" then .trafficShaping
  else if action = pyStr "redirect" then .redirection
  else if action = pyStr "isolate" then .isolation
  else if action = pyStr "notify" then .notification
  else if action = pyStr "observe" then .observationOnly
  else .unknown

/-- `_mechanism_status`. -/
def mechanismStatus (status : ExecutionStatus) (action : PyStr) : MechanismStatus :=
  match status with
  | .applied => if action = pyStr "observe" then .observed else .unverified
  | .partly => .disputed
  | .rejected => .notObserved
  | .failed => .notObserved
  | .released => .released
  | _ => .unverified

/-- Only an observation is taken as observed. -/
theorem mechanismStatus_ne_observed {status : ExecutionStatus} {action : PyStr}
    (h : action ≠ pyStr "observe") : mechanismStatus status action ≠ .observed := by
  cases status <;> simp [mechanismStatus, h]

/-- The word after `dev` of a root qdisc's command. -/
def qdiscDevice (command : PyStr) : Option PyStr :=
  let parts := split command
  if parts.take 3 = ["tc", "qdisc", "replace"].map pyStr ∧ pyStr "dev" ∈ parts then
    parts[parts.idxOf (pyStr "dev") + 1]?
  else none

/-- `_extract_iface`. -/
def extractIface (commandPlan : List PyStr) : PyStr := (commandPlan.findSome? qdiscDevice).getD []

/-- `_scope`. -/
def scopeOf (event : Row F) (action : PyStr) (commandPlan : List PyStr) : Row F :=
  let normalized := asDict (getKey (pyStr "normalized") event)
  let srcIp := strOr (getKey (pyStr "src_ip") normalized)
  if action = pyStr "throttle" then
    [(pyStr "scope_kind", jstr "interface_root_qdisc"),
      (pyStr "interface", .str (extractIface commandPlan)),
      (pyStr "decision_subject_ip", .str srcIp)]
  else if action = pyStr "redirect" then
    [(pyStr "scope_kind", jstr "source_ip_and_destination_port"), (pyStr "source_ip", .str srcIp),
      (pyStr "destination_port", (getKey (pyStr "target_port") normalized).getD .null)]
  else if action = pyStr "isolate" then
    [(pyStr "scope_kind", jstr "source_ip"), (pyStr "source_ip", .str srcIp)]
  else [(pyStr "scope_kind", jstr "logical_action"), (pyStr "subject_ip", .str srcIp)]

/-- `_provider_execution_summary`. -/
def providerExecutionSummary (enforcement : Row F) : Except PyError (Row F) := do
  let executedCount ← orRaise (intOr0 (getKey (pyStr "executed_count") enforcement))
  let failedCount ← orRaise (intOr0 (getKey (pyStr "failed_count") enforcement))
  return [(pyStr "executed_count", .int executedCount), (pyStr "failed_count", .int failedCount),
    (pyStr "result", .str (strOr (getKey (pyStr "result") enforcement))),
    (pyStr "mode", .str (strOr (getKey (pyStr "mode") enforcement))),
    (pyStr "metadata", .obj (asDict (getKey (pyStr "metadata") enforcement))),
    (pyStr "individual_command_mapping_verified", .bool false)]

/-- `_mechanism_observation_parameters`. -/
def mechanismObservationParameters (action : PyStr) (status : MechanismStatus) (summary : Row F) :
    Row F :=
  let basis :=
    if action = pyStr "observe" ∧ status = .observed then "no_runtime_change_action"
    else if status = .notObserved then "provider_report_no_successful_postcondition"
    else "provider_command_exit_status_only"
  [(pyStr "verification_basis", jstr basis), (pyStr "provider_report", .obj summary)]

/-- `_epoch_iso`. -/
def epochIso (value : Option (PyJson F)) : Except PyError PyStr :=
  match value with
  | some (.bool _) => .ok []
  | value =>
    match value, value.bind toFloat with
    | some (.int _), none => .error .overflowError
    | _, none => .ok []
    | _, some epoch =>
      if PyDate.isFinite epoch = false ∨ PyFloat.lt (.inr epoch) (.inr (lit "0.0")) then .ok []
      else orRaise (PyDate.isoTimestamp epoch)

/-- `_release_fields`: the reference to the release that counts, and when it is due. -/
def releaseFields (enforcement : Row F) (status : ExecutionStatus) (rollbackPlan : List PyStr) :
    Except PyError (PyStr × PyStr) := do
  let metadata := asDict (getKey (pyStr "metadata") enforcement)
  let taskId := Decision.strip (strOr (getKey (pyStr "release_task_id") metadata))
  let ledgerState := PyConvert.lower F
    (Decision.strip (strOr (getKey (pyStr "release_ledger_state") metadata)))
  let held := Decision.strip (strOr (getKey (pyStr "release_extended_task_id") metadata))
  let mode := PyConvert.lower F (strOr (getKey (pyStr "mode") enforcement))
  let result := PyConvert.lower F (strOr (getKey (pyStr "result") enforcement))
  if mode = pyStr "enforced" ∧ result ∈ ["extended", "already_held"].map pyStr ∧ held ≠ [] then
    return (held, ← epochIso (getKey (pyStr "release_due_epoch") metadata))
  if (status = .applied ∨ status = .partly) ∧ taskId ≠ [] ∧
      ledgerState ∈ ["active", "uncertain", "prepared"].map pyStr then
    return (taskId, ← epochIso (getKey (pyStr "release_due_epoch") metadata))
  if taskId = [] ∧ rollbackPlan ≠ [] then return (pyStr "rollback_plan", [])
  return ([], [])

/-- The strings of an iterable. -/
def stringsOf (value : Option (PyJson F)) : Except PyError (List PyStr) :=
  match value with
  | none => .ok []
  | some (.arr items) => .ok (items.filterMap fun | .str s => some s | _ => none)
  | some (.obj members) => .ok (members.map Prod.fst)
  | some (.str s) => .ok (s.map ([·]))
  | some _ => .error .typeError

/-! ## 3. `from_rust_event` -/

/-- `a or b`, where neither gives `None`. -/
def orNone (a b : Option (PyJson F)) : PyJson F := (pyOr a b).getD .null

section Adapt

variable (digest : PyStr → PyStr)

/-- `_stable_id`. -/
def stableId (start : String) (parts : List PyStr) : PyStr :=
  pyStr start ++ pyStr "-" ++ (digest (joinWith 31 parts)).take 24

/-- `str(row.get(key))`. -/
def strValue (key : String) (row : Row F) : PyStr :=
  strOf ((getKey (pyStr key) row).getD .null)

/-- `from_rust_event`. -/
def fromRustEvent (event : Row F) : Except PyError (ShadowRecordBundle F) := do
  let normalized := asDict (getKey (pyStr "normalized") event)
  let defense := asDict (getKey (pyStr "defense") event)
  let enforcement := asDict (getKey (pyStr "enforcement") event)
  if normalized = [] ∨ defense = [] ∨ enforcement = [] then
    throw (.valueError "rust event must contain normalized, defense and enforcement objects")
  let traceId := strOr (getKey (pyStr "trace_id") enforcement)
  let ts := strOr (getKey (pyStr "ts") normalized)
  let srcIp := strOr (getKey (pyStr "src_ip") normalized)
  let dstIp := strOr (getKey (pyStr "dst_ip") normalized)
  let sid := strOrDefault (pyStr "0") (getKey (pyStr "sid") normalized)
  let action := actionKind event
  if ts = [] then
    throw (.valueError "normalized.ts is required for canonical shadow evidence")
  let decisionId := if traceId = [] then stableId digest "decision" [ts, srcIp, dstIp, sid, action]
    else traceId
  let incidentId := stableId digest "incident" [decisionId]
  let actionId := stableId digest "action" [decisionId, action]
  let executionId := stableId digest "execution"
    [decisionId, strValue "mode" enforcement, strValue "result" enforcement]
  let mechanismId := stableId digest "mechanism" [executionId, action]
  let commandPlan ← stringsOf (getKey (pyStr "command_plan") enforcement)
  let rollbackPlan ← stringsOf (getKey (pyStr "rollback_plan") enforcement)
  let status ← executionStatus enforcement action
  let mechanismStatus := mechanismStatus status action
  let scope := scopeOf event action commandPlan
  let summary ← providerExecutionSummary enforcement
  let (releaseRef, expiresAt) ← releaseFields enforcement status rollbackPlan
  let provider := strOrDefault (pyStr "rust_event_engine_v1") (getKey (pyStr "pipeline") event)
  let evidenceRef := provider ++ pyStr ":" ++ decisionId
  let errorCode := match getKey (pyStr "errors") enforcement with
    | some (.arr (_ :: _)) => pyStr "provider_command_failure"
    | _ => []
  let execution ← ActionExecutionReceipt.make
    { incidentId, decisionId, actionId, executionId
      actionKind := action
      provider, scope
      requestedParameters :=
        [(pyStr "target", orNone (getKey (pyStr "target") enforcement)
            (getKey (pyStr "target") defense)),
          (pyStr "policy_reason", orNone (getKey (pyStr "policy_reason") enforcement)
            (getKey (pyStr "policy_reason") defense)),
          (pyStr "command_plan", .arr (commandPlan.map .str)),
          (pyStr "rollback_plan", .arr (rollbackPlan.map .str))]
      appliedParameters := if status = .applied ∨ status = .partly then summary else []
      status
      requestedAt := ts
      completedAt := []
      expiresAt
      reversible := !rollbackPlan.isEmpty
      releaseRef, errorCode
      providerEvidenceRefs := [evidenceRef]
      producer := pyStr "azazel_edge.outcome.rust_adapter"
      lifecycle := actionLifecycle status
      supersededByDecisionId := []
      idempotencyKey := executionId }
  let mechanism ← AppliedMechanism.make
    { mechanismId, executionId, decisionId
      mechanismKind := mechanismKind action
      scope
      observedParameters := mechanismObservationParameters action mechanismStatus summary
      status := mechanismStatus
      observedAt := ts
      expiresAt
      reversible := !rollbackPlan.isEmpty
      evidenceRefs := [evidenceRef]
      producer := pyStr "azazel_edge.outcome.rust_adapter" }
  let correlation ← Correlation.make
    { incidentId, decisionId, actionId, executionId, mechanismId, reasoningTraceId := traceId }
  return { correlation, execution, mechanism }

end Adapt

end AzazelEdge.Outcome
