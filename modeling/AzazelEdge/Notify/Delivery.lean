/-
# Sending an alert

`DecisionNotifier.notify` (`notify/delivery.py`): the alert of a decision is offered to one adapter
after the other until one of them answers, and what came of it is put on record.

An adapter that raises is passed over.  One that answers has taken the alert, whatever it answers:
`ok` is not read, though `flush` reads it of its delegate.  Since `OfflineQueueNotifier.send`
answers `ok: False` where it cannot queue, an alert that nobody took may be reported sent.
-/
import AzazelEdge.Arbiter.Action
import AzazelEdge.Notify.OfflineQueue
import Mathlib.Data.List.Infix

namespace AzazelEdge.Notify

open AzazelEdge.Lib AzazelEdge.Lib.Py AzazelEdge.Audit
open AzazelEdge.Arbiter (asDict orEmpty)

section Delivery

variable {F : Type} [PyFloat F] [PyRepr F]

/-! ## 1. The payload -/

structure Payload where
  action : PyStr
  reason : PyStr
  target : PyStr
  evidenceIds : List PyStr
  level : PyStr
  operatorWording : PyStr
  incidentId : PyStr
  runbookCandidateId : PyStr
  decisionId : PyStr
  alertClass : PyStr
  deriving DecidableEq

/-- What `for x in value` goes over, as `str(x)`; none when it cannot be iterated. -/
def iterated : Option (PyJson F) → Option (List PyStr)
  | none => some []
  | some (.arr items) => some (items.map strOf)
  | some (.obj members) => some (members.map Prod.fst)
  | some (.str s) => some (s.map fun c => [c])
  | some _ => none

/-- `ALERT_CLASS_RULE`. -/
def alertClassRule : PyStr := pyStr "edge-alert-class/v1:notify-at-critical-is-P0"

/-- `classify_alert`. -/
def classifyAlert (action level : PyStr) : PyStr :=
  if action = pyStr "notify" ∧ level = pyStr "critical" then pyStr "P0" else []

/-- The level of an alert for this reason. -/
def levelOf (reason : PyStr) : PyStr :=
  if pyStr "high" <:+: reason then pyStr "critical" else pyStr "warning"

/-- A text of a part of `why_chosen`; none when the part has no `get`. -/
def whyChosen (explanation : Row F) (part key : PyStr) : Option PyStr :=
  ((orEmpty (getKey part (asDict (getKey (pyStr "why_chosen") explanation)))).toOption).map
    fun members => strOr (getKey key members)

/-- The payload of an alert; none when it raises. -/
def buildPayload (arbiter explanation : Row F) (target decisionId : PyStr) : Option Payload := do
  let action := strOr (getKey (pyStr "action") arbiter)
  let reason := strOr (getKey (pyStr "reason") arbiter)
  let evidenceIds ← iterated (getKey (pyStr "chosen_evidence_ids") arbiter)
  let incidentId ← whyChosen explanation (pyStr "incident_summary") (pyStr "incident_id")
  let runbookCandidateId ← whyChosen explanation (pyStr "runbook_support") (pyStr "runbook_candidate_id")
  return {
    action := action
    reason := reason
    target := target
    evidenceIds := evidenceIds.filter fun id => id ≠ []
    level := levelOf reason
    operatorWording := strOr (getKey (pyStr "operator_wording") explanation)
    incidentId := incidentId
    runbookCandidateId := runbookCandidateId
    decisionId := decisionId
    alertClass := classifyAlert action (levelOf reason) }

/-- `_payload_for_adapter`. -/
def Payload.forAdapter (summaryOnly : Bool) (payload : Payload) : Payload :=
  if summaryOnly then
    { payload with evidenceIds := [], operatorWording := payload.operatorWording.take 200 }
  else payload

/-- The payload as the dict that an adapter gets. -/
def Payload.dict (payload : Payload) : List (PyStr × PyValue F) :=
  [(pyStr "action", .str payload.action), (pyStr "reason", .str payload.reason),
    (pyStr "target", .str payload.target),
    (pyStr "evidence_ids", .list (payload.evidenceIds.map .str)),
    (pyStr "level", .str payload.level), (pyStr "operator_wording", .str payload.operatorWording),
    (pyStr "incident_id", .str payload.incidentId),
    (pyStr "runbook_candidate_id", .str payload.runbookCandidateId),
    (pyStr "decision_id", .str payload.decisionId), (pyStr "alert_class", .str payload.alertClass)]

/-! ## 2. The adapters and the audit log -/

/-- An adapter at its place in the list: its `_adapter_name`, and what its `send` does at the time,
which is to raise a text or to return a dict. -/
structure Notifier (F : Type) where
  name : PyStr
  send : Payload → Except PyStr (Row F)

/-- `OfflineQueueNotifier`, with the queue file as it is and what becomes of it. -/
def offlineQueue (reprOf : PyValue F → PyStr) (maxQueueEntries : ℤ) (stamp : Stamp)
    (outcome : Replacement) (file : Option Text) (error : PyStr) : Notifier F where
  name := pyStr "offlinequeuenotifier"
  send payload :=
    match (send maxQueueEntries (summaryPayload reprOf payload.dict stamp) outcome file).2 with
    | some queued => .ok [(pyStr "ok", .bool true), (pyStr "adapter", .str (pyStr "offline_queue")),
        (pyStr "queued", .int queued)]
    | none => .ok [(pyStr "ok", .bool false), (pyStr "adapter", .str (pyStr "offline_queue")),
        (pyStr "error", .str error)]

structure Attempt (F : Type) where
  adapter : PyStr
  /-- The text that was raised, or the `status` of the answer. -/
  outcome : Except PyStr (Option (PyJson F))

/-- What `notify` returns, the audit record apart. -/
inductive Result (F : Type) where
  | skipped
  | sent (adapter : Option (PyJson F)) (ack : Option (PyJson F)) (attempts : List (Attempt F))
      (payload : Payload)
  | failed (errors : List PyStr) (attempts : List (Attempt F)) (payload : Payload)

/-- `result['ok']`. -/
def Result.ok : Result F → Bool
  | .sent .. => true
  | _ => false

/-- `result.get('adapter')`. -/
def Result.adapter : Result F → Option (PyJson F)
  | .sent adapter .. => adapter
  | _ => none

/-- The `decision` of a notification's audit record. -/
inductive Recorded where
  | skipped
  | sent
  | failed
  deriving DecidableEq

/-- What the result is recorded as. -/
def Result.recorded : Result F → Recorded
  | .skipped => .skipped
  | .sent .. => .sent
  | .failed .. => .failed

/-- What is handed to the audit log, as a `notification` of the `decision_notifier`. -/
structure AuditEntry (F : Type) where
  traceId : PyStr
  decision : Recorded
  payload : Result F
  decisionId : PyStr
  alertClass : PyStr
  alertClassRule : PyStr

/-- What the audit log does with a record. -/
inductive LogAnswer where
  | fsynced
  /-- Another durability, or `durability_unknown` of a log that cannot say. -/
  | returned (durability : PyStr)
  | durabilityError (error : PyStr)
  | osError (error : PyStr)
  | raised (error : PyStr)

inductive AuditState where
  | durable
  | notDurable
  | notWritten
  deriving DecidableEq

/-- What is reported of the audit record: `audit_record` and `audit_error`. -/
structure Written where
  state : AuditState
  error : Option PyStr

/-- `_record`. -/
def record (audit : AuditEntry F → LogAnswer) (entry : AuditEntry F) : Written :=
  match audit entry with
  | .fsynced => ⟨.durable, none⟩
  | .returned durability => ⟨.notDurable, some durability⟩
  | .durabilityError error => ⟨.notDurable, some error⟩
  | .osError error => ⟨.notWritten, some error⟩
  | .raised error => ⟨.notWritten, some error⟩

/-! ## 3. The failover -/

/-- The loop over the adapters: what comes of the alert, and how many of them were called. -/
def offer (payload : Payload) (errors : List PyStr) (attempts : List (Attempt F)) :
    List (Notifier F) → Result F × ℕ
  | [] => (.failed errors attempts payload, 0)
  | notifier :: notifiers =>
    match notifier.send payload with
    | .error error =>
      let (result, called) := offer payload (errors ++ [error])
        (attempts ++ [⟨notifier.name, .error error⟩]) notifiers
      (result, called + 1)
    | .ok answer =>
      let ack := getKey (pyStr "status") answer
      (.sent (pyOr (getKey (pyStr "adapter") answer) (some (.str notifier.name))) ack
        (attempts ++ [⟨notifier.name, .ok ack⟩]) payload, 1)

/-- What a call of `notify` returns and does. -/
structure Notified (F : Type) where
  result : Result F
  entry : AuditEntry F
  written : Written
  called : ℕ

/-- `notify`; none when it raises. -/
def notify (notifiers : List (Notifier F)) (audit : AuditEntry F → LogAnswer) (summaryOnly : Bool)
    (arbiter explanation : Row F) (target decisionId : PyStr) : Option (Notified F) :=
  if strOr (getKey (pyStr "action") arbiter) ≠ pyStr "notify" then
    let entry := ⟨target, .skipped, .skipped, decisionId, [], alertClassRule⟩
    some ⟨.skipped, entry, record audit entry, 0⟩
  else do
    let payload ← buildPayload arbiter explanation target decisionId
    let (result, called) := offer (payload.forAdapter summaryOnly) [] [] notifiers
    let entry := ⟨target, result.recorded, result, decisionId, payload.alertClass, alertClassRule⟩
    return ⟨result, entry, record audit entry, called⟩

end Delivery

end AzazelEdge.Notify
