/-
# The release sweep

`release.rs`: `process_due_releases_with_runner`.  A sweep takes the due leases of the ledger it
loaded, attempts each in turn on that ledger in memory, and saves it once at the end.  It is the
program of the commands its attempts issue; its result is the ledger to save and the outcomes.
-/
import AzazelEdge.Release.Attempt
import AzazelEdge.Release.Ledger

namespace AzazelEdge.Release

open AzazelEdge.Lib

/-! ## 1. Candidates -/

/-- `attempt_due`: a first attempt waits only for expiry, unless the lease has a wall deadline
only; a retry waits for its time on either clock. -/
def attemptDue (task : ReleaseTask) (now : LeaseNow) (clock : ExpiryClock) : Bool :=
  decide (task.nextAttemptEpoch ≤ now.wallEpoch) ||
    (decide (task.attempts = 0) && decide (clock ≠ .legacy)) || retryDueOnBoottime task now

/-- Whether this sweep attempts the release of the task, and which deadline expired it. -/
def candidate? (inFlight : List String) (now : LeaseNow) (task : ReleaseTask) :
    Option (String × ExpiryClock) :=
  if task.status.eligible ∧ task.taskId ∉ inFlight then
    (leaseExpiry task now).bind fun clock =>
      if attemptDue task now clock then some (task.taskId, clock) else none
  else none

/-- The candidates, collected before the first attempt. -/
def candidates (inFlight : List String) (now : LeaseNow) (tasks : List ReleaseTask) :
    List (String × ExpiryClock) := tasks.filterMap (candidate? inFlight now)

/-! ## 2. One candidate -/

/-- A newer legacy throttle on the same interface: one root qdisc serves both. -/
def newerThrottle (tasks : List ReleaseTask) (current : ReleaseTask) : Option ReleaseTask :=
  tasks.find? fun other =>
    other.taskId ≠ current.taskId && isLegacyTcThrottle other &&
      other.resourceKey = current.resourceKey && other.status.eligible &&
      current.createdEpoch < other.createdEpoch

/-- The task superseded by an active newer throttle. -/
def supersededBy (newer : ReleaseTask) (now : LeaseNow) (task : ReleaseTask) : ReleaseTask :=
  { task with
    status := .superseded
    updatedEpoch := now.wallEpoch
    lastError := "superseded_by:" ++ newer.taskId }

/-- The task put off because a newer throttle not yet reconciled owns the same handle. -/
def deferredTo (newer : ReleaseTask) (now : LeaseNow) (task : ReleaseTask) : ReleaseTask :=
  scheduleRetry
    { task with
      updatedEpoch := now.wallEpoch
      attempts := u32Succ task.attempts
      lastError := "ambiguous_newer_owner:" ++ newer.taskId ++ ":" ++ newer.status.asStr } now

/-- What a sweep does with a legacy throttle instead of releasing it: the edit of its task and
the outcome. -/
def yieldToNewer (tasks : List ReleaseTask) (current : ReleaseTask) (now : LeaseNow) :
    Option ((ReleaseTask → ReleaseTask) × ReleaseOutcome) :=
  if isLegacyTcThrottle current = false then none
  else match newerThrottle tasks current with
    | none => none
    | some newer =>
      if newer.status = .active then
        some (supersededBy newer now,
          outcomeFor current now.wallEpoch .superseded "superseded_by_newer_throttle" 0 0 []
            (.obj [("verified", .bool false), ("reason", .str "newer_throttle_owner_exists")]))
      else if newer.tcHandle = current.tcHandle ∧
          (newer.status = .prepared ∨ newer.status = .uncertain) then
        some (deferredTo newer now,
          outcomeFor current now.wallEpoch .retryPending "ambiguous_newer_throttle_owner" 0 0 []
            (.obj [("verified", .bool false),
              ("reason", .str "same_tc_handle_owned_by_newer_unreconciled_task"),
              ("newer_task_id", .str newer.taskId), ("newer_status", .str newer.status.asStr)]))
      else none

/-- `errors.join("; ")`. -/
def joinErrors (errors : List String) : String := "; ".intercalate errors

/-- The task of a released lease. -/
def markReleased (now : LeaseNow) (task : ReleaseTask) : ReleaseTask :=
  { task with
    status := .released
    lastError := ""
    nextAttemptEpoch := now.wallEpoch
    nextAttemptBoottimeNs := none
    nextAttemptBootId := "" }

/-- The task of a lease whose release goes on: the error, the rule's absence when it was
verified, and the next retry. -/
def markPending (now : LeaseNow) (error : String) (ruleAbsent : Bool) (task : ReleaseTask) :
    ReleaseTask :=
  scheduleRetry
    { task with
      lastError := boundedError error
      ruleRemovedEpoch :=
        if ruleAbsent ∧ task.ruleRemovedEpoch = none then some now.wallEpoch
        else task.ruleRemovedEpoch } now

/-- The update of the task after its attempt. -/
def afterAttempt (now : LeaseNow) (result : Except String ReleaseOutcome) (task : ReleaseTask) :
    ReleaseTask :=
  let task := { task with updatedEpoch := now.wallEpoch, attempts := u32Succ task.attempts }
  match result with
  | .ok outcome =>
    if outcome.status = .released then markReleased now task
    else
      markPending now (joinErrors outcome.errors)
        (decide (outcome.result = "connections_not_cleared")) task
  | .error error => markPending now error false task

/-- The outcome a failed attempt is reported with. -/
def outcomeOf (task : ReleaseTask) (nowEpoch : Epoch) :
    Except String ReleaseOutcome → ReleaseOutcome
  | .ok outcome => outcome
  | .error error =>
    outcomeFor task nowEpoch .retryPending "release_attempt_failed" 0 1 [boundedError error]
      (.obj [("verified", .bool false)])

/-- What `record_rollback_start` did: whether the record that the rollback began was written. -/
abbrev StartAudit := ReleaseTask → Except String Unit

def startAuditText : Except String Unit → String
  | .ok () => "recorded"
  | .error e => boundedError ("failed:" ++ e)

/-- The ledger with the task of this id edited. -/
def editTask (ledger : ReleaseLedger) (taskId : String) (f : ReleaseTask → ReleaseTask) :
    ReleaseLedger :=
  { ledger with tasks := editFirst (fun item => item.taskId = taskId) f ledger.tasks }

/-- The attempt on a candidate whose task is still eligible. -/
def attemptRelease (now : LeaseNow) (audit : StartAudit) (ledger : ReleaseLedger)
    (current : ReleaseTask) (clock : ExpiryClock) : Cmd (ReleaseLedger × List ReleaseOutcome) :=
  match yieldToNewer ledger.tasks current now with
  | some (f, outcome) =>
    .done (editTask ledger current.taskId f, [{ outcome with expiryClock := clock.asStr }])
  | none =>
    (releaseOwnedState current now.wallEpoch).map fun result =>
      (editTask ledger current.taskId (afterAttempt now result),
        [{ outcomeOf current now.wallEpoch result with
            rollbackStartAudit := startAuditText (audit current)
            expiryClock := clock.asStr }])

/-- One turn of the loop: a candidate that an earlier turn took out of the eligible statuses is
passed over. -/
def sweepOne (now : LeaseNow) (audit : StartAudit) (ledger : ReleaseLedger)
    (candidate : String × ExpiryClock) : Cmd (ReleaseLedger × List ReleaseOutcome) :=
  match ledger.tasks.find? fun item => item.taskId = candidate.1 with
  | none => .done (ledger, [])
  | some current =>
    if current.status.eligible then attemptRelease now audit ledger current candidate.2
    else .done (ledger, [])

/-! ## 3. The loop and the save -/

/-- The loop over the candidates. -/
def sweepLoop (now : LeaseNow) (audit : StartAudit) :
    List (String × ExpiryClock) → ReleaseLedger → Cmd (ReleaseLedger × List ReleaseOutcome)
  | [], ledger => .done (ledger, [])
  | candidate :: rest, ledger =>
    (sweepOne now audit ledger candidate).bind fun (ledger, outcomes) =>
      (sweepLoop now audit rest ledger).map fun (ledger, later) => (ledger, outcomes ++ later)

/-- The save at the end of a sweep.  Release never fails on capacity: when the save fails, the
ledger is compacted and saved again. -/
def sweepSave (encodedLen : ReleaseLedger → ℕ) (io retryIo : SaveIo) (ledger : ReleaseLedger)
    (now : LeaseNow) : Except String LedgerFile :=
  match saveLedger encodedLen io ledger with
  | .ok file => .ok file
  | .error e =>
    if (compactLedger ledger now).2 = 0 then .error e
    else saveLedger encodedLen retryIo (compactLedger ledger now).1

end AzazelEdge.Release
