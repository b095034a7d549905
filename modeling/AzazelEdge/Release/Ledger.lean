/-
# The release ledger: loading, saving, compaction, cooldown, admission

`release.rs`: `load_ledger`, `save_ledger`, `compact_ledger`, `cooldown_may_be_running`,
`record_cooldown`, `cooldown_running`, `admit_new_task` and `admit_release_task`.

The size of the encoded ledger is the one thing `serde_json` decides here, so `encodedLen` is a
parameter of every function that compares it with a bound.  An admission is a PLAN: the ledger
it wants saved, if any, and the answer it gives once that save has succeeded.  What a failed
save turns the answer into is in `Store.lean`.
-/
import AzazelEdge.Lib.Edit
import AzazelEdge.Release.Lease

namespace AzazelEdge.Release

open AzazelEdge.Lib

/-! ## 1. The ledger and its file -/

/-- What a generation migration leaves of the terminal tasks it removes. -/
structure LedgerCheckpoint where
  generation : ℕ
  replayWatermarkEpoch : Epoch
  compactedTotal : ℕ
  lastCompactedEpoch : Epoch
  /-- The trace ids of the tasks a v1 ledger held when it was migrated. -/
  legacyTraceIds : List String
deriving DecidableEq, Repr

/-- `ReleaseLedger` in memory, always of schema v2. -/
structure ReleaseLedger where
  tasks : List ReleaseTask
  checkpoint : LedgerCheckpoint
deriving DecidableEq, Repr

/-- `ReleaseLedger::default`. -/
def ReleaseLedger.empty : ReleaseLedger := ⟨[], ⟨0, 0, 0, 0, []⟩⟩

inductive Schema where
  | v1 | v2 | other
deriving DecidableEq, Repr

/-- A ledger file as it stands on disk: what it decodes to, its length, and its mtime when the
file system gives one. -/
structure LedgerFile where
  schema : Schema
  ledger : ReleaseLedger
  bytes : ℕ
  modified : Option Epoch
deriving DecidableEq, Repr

/-- `f64::MAX / 4.0`, the v1 boundary's time of a file without a readable mtime. -/
def unreadableMtime : Epoch := (2 ^ 53 - 1) * 2 ^ 969

/-- The trace ids of the tasks, sorted, each once. -/
def sortedTraces (tasks : List ReleaseTask) : List String :=
  ((tasks.map (·.traceId)).mergeSort (fun a b => decide (a ≤ b))).dedup

/-- Append the trace ids that are not in the list yet. -/
def addTraces (ids traces : List String) : List String :=
  traces.foldl (fun acc trace => if trace ∈ acc then acc else acc ++ [trace]) ids

/-- The v1 migration boundary: the latest of the file's mtime and every time its tasks carry,
plus the future an alert may claim. -/
def v1Boundary (tasks : List ReleaseTask) (modified : Option Epoch) : Epoch :=
  (tasks.flatMap fun t => [t.createdEpoch, t.updatedEpoch]).foldl max
    (modified.getD unreadableMtime) + v1MigrationFutureSec

/-- The v1 branch of `load_ledger`. -/
def migrateV1 (file : LedgerFile) : ReleaseLedger :=
  let ledger := file.ledger
  let checkpoint :=
    { ledger.checkpoint with
      legacyTraceIds := addTraces ledger.checkpoint.legacyTraceIds (sortedTraces ledger.tasks) }
  if ledger.tasks = [] then { ledger with checkpoint }
  else
    { ledger with
      checkpoint :=
        { checkpoint with
          replayWatermarkEpoch :=
            max checkpoint.replayWatermarkEpoch (v1Boundary ledger.tasks file.modified)
          generation := max checkpoint.generation 1 } }

/-- The first complaint of `validate_task` about any of the tasks. -/
def validateTasks : List ReleaseTask → Except String Unit
  | [] => .ok ()
  | task :: rest =>
    match validateTask task with
    | .ok () => validateTasks rest
    | .error e => .error e

/-- The checks of `load_ledger` on the decoded ledger. -/
def checkLoaded (ledger : ReleaseLedger) : Except String ReleaseLedger :=
  if ledger.checkpoint.replayWatermarkEpoch < 0 then
    .error "release ledger checkpoint is invalid"
  else if maxLedgerTasks < ledger.tasks.length then
    .error "release ledger task count exceeds safety bound"
  else match validateTasks ledger.tasks with
    | .ok () => .ok ledger
    | .error e => .error e

/-- `load_ledger`. -/
def loadLedger : Option LedgerFile → Except String ReleaseLedger
  | none => .ok .empty
  | some file =>
    if maxLedgerBytes < file.bytes then .error "release ledger exceeds safety size bound"
    else match file.schema with
      | .v1 => checkLoaded (migrateV1 file)
      | .v2 => checkLoaded file.ledger
      | .other => .error "unsupported release ledger schema"

/-- The text of a file error: every one of them names the ledger first. -/
def ledgerError (detail : String) : String := "release ledger " ++ detail

/-- What the file system did with a save: what failed, or the new file's mtime. -/
abbrev SaveIo := Except String (Option Epoch)

/-- `save_ledger`: written as v2 to a temporary file and renamed over the old one, so a failure
leaves the old file. -/
def saveLedger (encodedLen : ReleaseLedger → ℕ) (io : SaveIo) (ledger : ReleaseLedger) :
    Except String LedgerFile :=
  if maxLedgerBytes < encodedLen ledger then
    .error "release ledger encoded size exceeds safety bound"
  else match io with
    | .error detail => .error (ledgerError detail)
    | .ok modified => .ok ⟨.v2, ledger, encodedLen ledger, modified⟩

/-! ## 2. Compaction -/

/-- `cooldown_may_be_running`: until the wall clock is a full cooldown past its end, and while
its own boot's monotonic end has not passed. -/
def cooldownMayBeRunning (task : ReleaseTask) (now : LeaseNow) : Bool :=
  match task.cooldownUntilEpoch with
  | none => false
  | some untilEpoch =>
    if now.wallEpoch < untilEpoch + flowCooldownSec then true
    else match task.cooldownUntilBoottimeNs, now.boottimeNs, now.bootId with
      | some endNs, some mono, some boot => boot = task.cooldownBootId && mono < endNs
      | _, _, _ => false

/-- The retention test of `compact_ledger`: this task leaves the ledger. -/
def compactable (now : LeaseNow) (task : ReleaseTask) : Bool :=
  task.status.terminal && task.updatedEpoch ≤ now.wallEpoch - compactMinAgeSec &&
    !cooldownMayBeRunning task now

/-- The time the watermark must cover when the task leaves the ledger. -/
def replayBasis (task : ReleaseTask) : Epoch :=
  max (task.eventEpoch.getD task.createdEpoch) task.createdEpoch

/-- `compact_ledger`: terminal tasks unchanged for long enough leave the ledger and the
watermark rises to the latest of their times.  Returns how many left. -/
def compactLedger (ledger : ReleaseLedger) (now : LeaseNow) : ReleaseLedger × ℕ :=
  let kept := ledger.tasks.filter fun task => !compactable now task
  let gone := ledger.tasks.filter (compactable now)
  let checkpoint := ledger.checkpoint
  if gone = [] then (ledger, 0)
  else
    ({ tasks := kept
       checkpoint :=
        { checkpoint with
          generation := u64Add checkpoint.generation 1
          replayWatermarkEpoch :=
            gone.foldl (fun mark task => max mark (replayBasis task))
              checkpoint.replayWatermarkEpoch
          compactedTotal := u64Add checkpoint.compactedTotal gone.length
          lastCompactedEpoch := now.wallEpoch } },
     gone.length)

/-! ## 3. Cooldown -/

/-- The cooldown's end on `CLOCK_BOOTTIME`, when both readings of this boot are usable. -/
def cooldownAnchor (remaining : ℚ) (now : LeaseNow) : Option (ℕ × String) :=
  match now.boottimeNs, now.bootId with
  | some mono, some boot =>
    if validBootId boot then some (min (u64Add mono (secToNs remaining)) i64Max, boot) else none
  | _, _ => none

/-- `record_cooldown`: a cooldown ending at `untilWall`, on both clocks. -/
def recordCooldown (task : ReleaseTask) (untilWall : Epoch) (now : LeaseNow) : ReleaseTask :=
  let anchor := cooldownAnchor (max (untilWall - now.wallEpoch) 0) now
  { task with
    cooldownUntilEpoch := some untilWall
    cooldownRecordedEpoch := some now.wallEpoch
    cooldownUntilBoottimeNs := anchor.map Prod.fst
    cooldownBootId := (anchor.map Prod.snd).getD ""
    updatedEpoch := max task.updatedEpoch now.wallEpoch }

/-- The monotonic reading of a cooldown in its own boot: `some` remaining nanoseconds (zero when
it is over), `none` when the wall clock has to decide. -/
def cooldownBootRemaining (task : ReleaseTask) (now : LeaseNow) : Option ℕ :=
  match task.cooldownUntilBoottimeNs, now.boottimeNs, now.bootId with
  | some endNs, some mono, some boot => if boot = task.cooldownBootId then some (endNs - mono) else none
  | _, _, _ => none

/-- What `cooldown_running` found: the wall-clock end to report, whether the task was
re-anchored, and the task as it leaves it. -/
structure CooldownReading where
  running : Option Epoch
  anchored : Bool
  task : ReleaseTask

/-- `cooldown_running`: in its own boot the monotonic clock decides; in another boot (or without
a monotonic end) the wall clock does, and the cooldown is re-anchored on this boot. -/
def cooldownRunning (task : ReleaseTask) (now : LeaseNow) : CooldownReading :=
  match task.cooldownUntilEpoch with
  | none => ⟨none, false, task⟩
  | some untilWall =>
    match cooldownBootRemaining task now with
    | some 0 => ⟨none, false, task⟩
    | some ns => ⟨some (now.wallEpoch + ns / nsPerSec), false, task⟩
    | none =>
      let recorded := task.cooldownRecordedEpoch.getD (untilWall - flowCooldownSec)
      let steppedBack := decide (now.wallEpoch < recorded - 1)
      if untilWall ≤ now.wallEpoch ∧ steppedBack = false then ⟨none, false, task⟩
      else
        let remaining : ℚ :=
          if steppedBack then flowCooldownSec else min (untilWall - now.wallEpoch) flowCooldownSec
        let anchored := now.boottimeNs.isSome && now.bootId.isSome
        let task' :=
          if anchored then recordCooldown task (now.wallEpoch + remaining) now else task
        ⟨some (now.wallEpoch + remaining), anchored, task'⟩

/-- The cooldown pass of `admit_release_task` over the tasks of one flow. -/
def cooldownPass (task : ReleaseTask) (now : LeaseNow) (tasks : List ReleaseTask) :
    List ReleaseTask :=
  tasks.map fun item => if sameFlow item task then (cooldownRunning item now).task else item

/-- The latest end among the running cooldowns of the flow. -/
def cooldownEnd (task : ReleaseTask) (now : LeaseNow) (tasks : List ReleaseTask) : Option Epoch :=
  ((tasks.filter fun item => sameFlow item task).filterMap fun item =>
    (cooldownRunning item now).running).foldl
      (fun acc untilEpoch => some (acc.elim untilEpoch fun c => max c untilEpoch)) none

/-- Whether the cooldown pass re-anchored any task. -/
def cooldownAnchored (task : ReleaseTask) (now : LeaseNow) (tasks : List ReleaseTask) : Bool :=
  (tasks.filter fun item => sameFlow item task).any fun item => (cooldownRunning item now).anchored

/-! ## 4. Admission -/

/-- What admission did with a new restriction. -/
inductive Admission where
  /-- A new lease was written as `prepared`. -/
  | prepared (task : ReleaseTask)
  /-- An active lease of the same resource was extended; `held` is the lease in force. -/
  | extended (taskId : String) (dueEpoch : Epoch) (extensions : ℕ) (held : ReleaseTask)
  /-- An active lease of the same resource already lasts at least as long. -/
  | alreadyHeld (taskId : String) (dueEpoch : Epoch) (held : ReleaseTask)
  /-- The flow used up its lease family: nothing is applied. -/
  | cooldown (untilEpoch : Epoch)
deriving DecidableEq, Repr

/-- The answers under which the alert acts: a lease is granted, extended or confirmed held. -/
def Admission.grants : Admission → Bool
  | .cooldown _ => false
  | _ => true

/-- An admission up to its save: the ledger to write, if any, and the answer after it. -/
structure AdmitPlan where
  save : Option ReleaseLedger
  answer : Except String Admission

/-- The refusal of a flow that used up its lease family. -/
def limitReached : String := "lease cumulative limit reached"

/-- A refusal that writes nothing. -/
def AdmitPlan.refuse (error : String) : AdmitPlan := ⟨none, .error error⟩

/-- `same_task_identity`. -/
def sameTaskIdentity (left right : ReleaseTask) : Bool :=
  left.traceId = right.traceId && left.action = right.action &&
    left.resourceKey = right.resourceKey && left.ownerToken = right.ownerToken &&
    left.iface = right.iface && left.tcHandle = right.tcHandle &&
    left.sourceIp = right.sourceIp && left.destinationPort = right.destinationPort &&
    left.redirectPort = right.redirectPort && left.expectedRateBps = right.expectedRateBps &&
    left.expectedBurstBytes = right.expectedBurstBytes &&
    left.expectedLatencyUs = right.expectedLatencyUs && left.mechanism = right.mechanism &&
    left.destinationIp = right.destinationIp && left.protocol = right.protocol &&
    left.limitRateKbytes = right.limitRateKbytes &&
    left.limitBurstKbytes = right.limitBurstKbytes && left.eventKey = right.eventKey

section Admission

variable (encodedLen : ReleaseLedger → ℕ)

/-- The compaction an admission runs on a ledger at or above the marks. -/
def compactAtMarks (ledger : ReleaseLedger) (now : LeaseNow) : ReleaseLedger :=
  if compactAtTasks ≤ ledger.tasks.length ∨ compactAtBytes ≤ encodedLen ledger then
    (compactLedger ledger now).1
  else ledger

/-- `admit_new_task`: the replay guard, generation migration and capacity. -/
def admitNewTask (ledger : ReleaseLedger) (task : ReleaseTask) (now : LeaseNow) :
    Except String ReleaseLedger :=
  match ledger.tasks.find? fun item => item.taskId = task.taskId with
  | some existing =>
    if sameTaskIdentity existing task then
      .error s!"release task already exists; replayed disruptive apply blocked (status={existing.status.asStr})"
    else .error "release task id collision"
  | none =>
    if task.eventKey ≠ "" ∧ ledger.tasks.any (fun item => item.eventKey = task.eventKey) then
      .error "this alert already led to a lease; replayed disruptive apply blocked"
    else if 0 < ledger.checkpoint.generation ∧
        task.eventEpoch.getD task.createdEpoch ≤ ledger.checkpoint.replayWatermarkEpoch then
      .error "release task is at or before the ledger replay checkpoint; replayed disruptive apply blocked"
    else
      let ledger := compactAtMarks encodedLen ledger now
      if admitMaxTasks ≤ ledger.tasks.length ∨ admitMaxBytes ≤ encodedLen ledger then
        .error "release ledger capacity reached; disruptive apply blocked (release continues)"
      else .ok ledger

/-- An alert the previous core handled, by one of the trace ids that core gave it. -/
def legacyHandled (ledger : ReleaseLedger) (legacyTraces : List String) : Bool :=
  legacyTraces.any fun trace =>
    ledger.checkpoint.legacyTraceIds.contains trace ||
      ledger.tasks.any fun item => item.eventKey = "" && item.traceId = trace

/-- The requested time of a lease, clamped into the Edge-fixed range. -/
def clampTtl (ttlSec : ℕ) : ℕ := max minLeaseTtlSec (min ttlSec maxLeaseTtlSec)

/-- The entry of the ledger that holds the resource. -/
def holdsResource (task item : ReleaseTask) : Bool :=
  item.resourceKey = task.resourceKey && item.status.eligible

/-- `merged`: the identity of an alert that changed no rule, kept so that a replay is refused. -/
def tombstoneOf (task held : ReleaseTask) (now : LeaseNow) : ReleaseTask :=
  { task with
    status := .merged
    lastError := "merged_into:" ++ held.taskId
    updatedEpoch := now.wallEpoch }

/-- The end of the family `start` belongs to. -/
def familyCap (start : Epoch) : Epoch := start + maxCumulativeLeaseSec

/-- The extended lease, before its cooldown is recorded. -/
def extendTo (newDue : Epoch) (dueBoottimeNs : Option ℕ) (now : LeaseNow) (item : ReleaseTask) :
    ReleaseTask :=
  { item with
    dueEpoch := newDue
    nextAttemptEpoch := newDue
    dueBoottimeNs
    extensions := item.extensions + 1
    updatedEpoch := now.wallEpoch }

/-- The monotonic deadline of an extension: moved by the same amount on the lease's own boot. -/
def extendedBoottime (held : ReleaseTask) (newDue : Epoch) (now : LeaseNow) :
    Except String (Option ℕ) :=
  match held.dueBoottimeNs with
  | none => .ok none
  | some due =>
    if now.bootId = some held.dueBootId then
      .ok (some (min (u64Add due (secToNs (newDue - held.dueEpoch))) i64Max))
    else .error "lease belongs to another boot; not extended"

/-- The extension of `held` to `newDue`, with the cooldown when it reaches the family's cap. -/
def extended (held : ReleaseTask) (newDue : Epoch) (dueBoottimeNs : Option ℕ) (now : LeaseNow) :
    ReleaseTask :=
  let item := extendTo newDue dueBoottimeNs now held
  if familyCap held.familyStart ≤ newDue then
    recordCooldown item (familyCap held.familyStart + flowCooldownSec) now
  else item

/-- `admit_release_task` on a resource that `held` holds. -/
def admitHeld (ledger : ReleaseLedger) (task held : ReleaseTask) (ttlSec : ℕ) (now : LeaseNow) :
    AdmitPlan :=
  if held.ruleRemovedEpoch.isSome then
    .refuse "resource is being released (redirected connections not yet cleared); not extended"
  else if held.status ≠ .active then
    .refuse s!"resource has an unconfirmed lease (status={held.status.asStr}); not extended"
  else
    let cap := familyCap held.familyStart
    let newDue := min (now.wallEpoch + clampTtl ttlSec) cap
    if newDue ≤ held.dueEpoch + 1 then
      if cap ≤ held.dueEpoch + 1 then .refuse limitReached
      else
        { save := some { ledger with tasks := ledger.tasks ++ [tombstoneOf task held now] }
          answer := .ok (.alreadyHeld held.taskId held.dueEpoch held) }
    else if maxLeaseExtensions ≤ held.extensions then .refuse "lease extension limit reached"
    else match extendedBoottime held newDue now with
      | .error e => .refuse e
      | .ok dueBoottimeNs =>
        let item := extended held newDue dueBoottimeNs now
        { save := some
            { ledger with
              tasks :=
                editFirst (holdsResource task) (fun _ => item) ledger.tasks ++
                  [tombstoneOf task held now] }
          answer := .ok (.extended item.taskId newDue item.extensions item) }

/-- A task of the flow that belongs to a lease family (a tombstone does not). -/
def inFamilyOf (task item : ReleaseTask) : Bool := sameFlow item task && item.status ≠ .merged

/-- The start of the flow's current family: the earliest one that began less than the cumulative
bound ago. -/
def currentFamily (tasks : List ReleaseTask) (task : ReleaseTask) (now : LeaseNow) :
    Option Epoch :=
  (((tasks.filter (inFamilyOf task)).map (·.familyStart)).filter fun start =>
    now.wallEpoch - start < maxCumulativeLeaseSec).foldl
      (fun acc start => some (acc.elim start fun a => min a start)) none

/-- The family start a new lease of the flow gets. -/
def familyStartFor (tasks : List ReleaseTask) (task : ReleaseTask) (now : LeaseNow) : Epoch :=
  (currentFamily tasks task now).getD now.wallEpoch

/-- The lease a used-up family records its cooldown on: its latest one. -/
def latestOfFamily (tasks : List ReleaseTask) (task : ReleaseTask) (start : Epoch) : Option ℕ :=
  lastMax (fun item => inFamilyOf task item && item.familyStart = start) (·.createdEpoch) tasks

/-- A new lease cut at its family's cap, with the family's cooldown. -/
def cutAt (admitted : ReleaseTask) (cap : Epoch) (now : LeaseNow) : ReleaseTask :=
  let admitted := recordCooldown admitted (cap + flowCooldownSec) now
  { admitted with
    dueEpoch := cap
    nextAttemptEpoch := cap
    dueBoottimeNs := admitted.dueBoottimeNs.map fun due => due - secToNs (admitted.dueEpoch - cap) }

/-- The plan that writes a new `prepared` lease. -/
def AdmitPlan.prepare (ledger : ReleaseLedger) (admitted : ReleaseTask) : AdmitPlan :=
  let admitted := { admitted with status := .prepared }
  { save := some { ledger with tasks := ledger.tasks ++ [admitted] }
    answer := .ok (.prepared admitted) }

/-- `admit_release_task` on a resource nobody holds. -/
def admitFresh (ledger : ReleaseLedger) (task : ReleaseTask) (now : LeaseNow) : AdmitPlan :=
  if maxActiveLeases ≤ ledger.tasks.countP (·.status.eligible) then
    .refuse "active lease limit reached; restriction not widened"
  else
    let start := familyStartFor ledger.tasks task now
    let cap := familyCap start
    let admitted := { task with familyStartedEpoch := some start }
    if admitted.dueEpoch < cap then .prepare ledger admitted
    else if cap - now.wallEpoch < minLeaseTtlSec then
      match latestOfFamily ledger.tasks task start with
      | some k =>
        { save := some
            { ledger with
              tasks := ledger.tasks.modify k fun item =>
                recordCooldown item (cap + flowCooldownSec) now }
          answer := .error limitReached }
      | none => .refuse limitReached
    else .prepare ledger (cutAt admitted cap now)

/-- `admit_release_task` after the replay guards: the flow's cooldown, then the lease that holds
the resource, then a new one. -/
def admitGuarded (ledger : ReleaseLedger) (task : ReleaseTask) (ttlSec : ℕ) (now : LeaseNow) :
    AdmitPlan :=
  let anchored := cooldownAnchored task now ledger.tasks
  match cooldownEnd task now ledger.tasks with
  | some untilEpoch =>
    let ledger := { ledger with tasks := cooldownPass task now ledger.tasks }
    { save := if anchored then some ledger else none
      answer := .ok (.cooldown untilEpoch) }
  | none =>
    -- No cooldown runs, so the pass re-anchored nothing (`cooldownPass_of_none`).
    match ledger.tasks.find? (holdsResource task) with
    | some held => admitHeld ledger task held ttlSec now
    | none => admitFresh ledger task now

/-- `admit_release_task` on a loaded ledger. -/
def admitReleaseTask (ledger : ReleaseLedger) (task : ReleaseTask) (legacyTraces : List String)
    (ttlSec : ℕ) (now : LeaseNow) : AdmitPlan :=
  match admitNewTask encodedLen ledger task now with
  | .error e => .refuse e
  | .ok ledger =>
    if legacyHandled ledger legacyTraces then
      .refuse "this alert already led to a lease under the previous core; replayed disruptive apply blocked"
    else admitGuarded ledger task ttlSec now

end Admission

/-! ## 5. The other updates of a task -/

/-- An unconfirmed lease that is released at once. -/
def markUncertain (now : LeaseNow) (error : String) (task : ReleaseTask) : ReleaseTask :=
  { makeDueNow task now with status := .uncertain, lastError := error }

/-- The update of `abandon_release_task`. -/
def abandonReleaseTask (ledger : ReleaseLedger) (taskId reason : String) (now : LeaseNow) :
    Except String ReleaseLedger :=
  match ledger.tasks.find? fun item => item.taskId = taskId with
  | none => .error "release task missing"
  | some task =>
    if task.status ≠ .prepared then
      .error s!"invalid release lifecycle transition {task.status.asStr} -> uncertain"
    else
      .ok { ledger with
        tasks := editFirst (fun item => item.taskId = taskId)
          (markUncertain now (boundedError reason)) ledger.tasks }

/-- The update of `recover_unconfirmed_on_start`, and how many leases it touched. -/
def recoverUnconfirmed (ledger : ReleaseLedger) (now : LeaseNow) : ReleaseLedger × ℕ :=
  ({ ledger with
      tasks := ledger.tasks.map fun task =>
        if task.status = .prepared then markUncertain now "apply_unconfirmed_at_restart" task
        else task },
   ledger.tasks.countP (·.status = .prepared))

/-- The older legacy throttles of the interface that an activation supersedes. -/
def supersede (snapshot : ReleaseTask) (nowEpoch : Epoch) (item : ReleaseTask) : ReleaseTask :=
  if isLegacyTcThrottle snapshot ∧ item.taskId ≠ snapshot.taskId ∧ isLegacyTcThrottle item ∧
      item.resourceKey = snapshot.resourceKey ∧ item.status.eligible then
    { item with
      status := .superseded
      updatedEpoch := nowEpoch
      lastError := "superseded_by:" ++ snapshot.taskId }
  else item

/-- The update of `activate_release_task`. -/
def activateReleaseTask (ledger : ReleaseLedger) (taskId : String) (nowEpoch : Epoch) :
    Except String ReleaseLedger :=
  match ledger.tasks.find? fun item => item.taskId = taskId with
  | none => .error "release task missing during activation"
  | some snapshot =>
    if snapshot.status ≠ .prepared then
      .error s!"release task cannot activate from status={snapshot.status.asStr}"
    else
      .ok { ledger with
        tasks := editFirst (fun item => item.taskId = taskId)
          (fun item => { item with status := .active, updatedEpoch := nowEpoch, lastError := "" })
          (ledger.tasks.map (supersede snapshot nowEpoch)) }

end AzazelEdge.Release
