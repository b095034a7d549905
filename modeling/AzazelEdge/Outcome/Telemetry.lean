/-
# Telemetry before and after an action

`OutcomeTelemetryCollector` (`outcome/telemetry.py`): samples and events come into two bounded
queues, an applied action opens an observation with a window before it and one after it, and when
the second window has elapsed an outcome is built of what is in the queues.

The queues are pruned by the time of the call, whatever is still pending, and the constructor
compares the buffer with each of the two windows, not with both together.

The metrics of an outcome are statistics of the samples and events that it is built of, which is
where `BuiltOutcome` stops.
-/
import AzazelEdge.Lib.HeadPruned
import AzazelEdge.Lib.Run
import AzazelEdge.Outcome.ReleaseEvidence

namespace AzazelEdge.Outcome

open AzazelEdge.Lib AzazelEdge.Lib.Py AzazelEdge.Audit AzazelEdge.Arbiter AzazelEdge.Release

/-! ## 1. Times -/

/-- Floats that are compared and added, but for NaN. -/
class PyEpoch (F : Type) extends LinearOrder F where
  add : F → F → F
  sub : F → F → F
  sub_le_sub : ∀ a b c : F, a ≤ b → sub a c ≤ sub b c

section Telemetry

variable {F : Type} [PyFloat F] [PyRepr F] [PyConvert F] [PyDate F] [PyChars]
  [PyEpoch F]

/-- `0.0`. -/
def zero : F := lit "0.0"

/-- `DEFAULT_BUFFER_SECONDS`. -/
def defaultBufferSeconds : F := lit "600.0"

/-- `_window_seconds`, or the error that it raises. -/
def windowSeconds (window : Row F) : Except String (F × F) :=
  match (getStr "pre_seconds" window).bind toFloat, (getStr "post_seconds" window).bind toFloat with
  | some pre, some post =>
    if ¬ ([pre, post].all fun value => PyDate.isFinite value && decide (zero < value)) then
      .error "observation_window pre_seconds/post_seconds must be finite and positive"
    else if defaultBufferSeconds < pre ∨ defaultBufferSeconds < post then
      .error "observation window exceeds G3 v1 safety bound"
    else .ok (pre, post)
  | _, _ => .error "observation_window requires numeric pre_seconds/post_seconds"

/-! ## 2. The collector -/

/-- `ObjectiveTemplate`, as far as the collector looks at it. -/
structure ObjectiveTemplate (F : Type) where
  metric : PyStr
  observationWindow : Row F

/-- `EffectObjective`, likewise. -/
structure EffectObjective (F : Type) where
  decisionId : PyStr
  metric : PyStr
  observationWindow : Row F
  objectiveId : PyStr

/-- What the constructor is given, and what it is built on: the digests of ids, the text of a float
with six decimals, and `datetime.fromisoformat(text)` as a timestamp. -/
structure CollectorArgs (F : Type) where
  templates : List (PyStr × ObjectiveTemplate F)
  policyRef : PyStr
  interface : PyStr
  sampleIntervalSeconds : F
  bufferSeconds : F
  maxSamples : ℤ
  maxActivityEvents : ℤ
  maxPending : ℤ
  maxSeenExecutions : ℤ
  objectiveId : ObjectiveTemplate F → PyStr → PyStr
  digest : PyStr → PyStr
  fixed6 : F → PyStr
  isoTime : PyStr → Option F

/-- `_valid_interface`. -/
def validInterface (value : PyStr) : Bool :=
  !value.isEmpty && decide (value.length ≤ 15) &&
    value.all fun ch => PyChars.isalnum ch || [95, 46, 58, 45].contains ch.val

/-- `max_window_seconds`. -/
def maxWindowSeconds (templates : List (PyStr × ObjectiveTemplate F)) : Except String F :=
  templates.foldlM (fun maximum item => do
    let (pre, post) ← windowSeconds item.2.observationWindow
    return max (max maximum pre) post) zero

/-- `OutcomeTelemetryCollector.__init__`, as far as it raises. -/
def checkCollector (args : CollectorArgs F) : Except String Unit := do
  if validInterface args.interface = false then throw "invalid telemetry interface"
  if args.sampleIntervalSeconds ≤ zero ∨ PyDate.isFinite args.sampleIntervalSeconds = false then
    throw "sample interval must be finite and positive"
  if args.bufferSeconds ≤ zero ∨ PyDate.isFinite args.bufferSeconds = false then
    throw "buffer_seconds must be finite and positive"
  if args.bufferSeconds < (← maxWindowSeconds args.templates) then
    throw "collector buffer is shorter than policy observation window"
  if args.maxSamples ≤ 0 ∨ args.maxActivityEvents ≤ 0 ∨ args.maxPending ≤ 0 ∨
      args.maxSeenExecutions ≤ 0 then
    throw "collector capacity bounds must be positive"

/-- A collector that the constructor has accepted. -/
structure OutcomeTelemetryCollector (F : Type) [PyFloat F] [PyRepr F] [PyConvert F] [PyDate F]
    [PyChars] [PyEpoch F] extends CollectorArgs F where
  accepted : checkCollector toCollectorArgs = .ok ()

/-- `TelemetrySample`, as far as the windows go. -/
structure TelemetrySample (F : Type) where
  epoch : F
  evidenceRef : PyStr
  deriving DecidableEq

/-- `ActivityEvent`. -/
structure ActivityEvent (F : Type) where
  epoch : F
  srcIp : PyStr
  dstIp : PyStr
  targetPort : ℤ
  sid : ℤ
  evidenceRef : PyStr
  deriving DecidableEq

/-- `_PendingObservation`. -/
structure PendingObservation (F : Type) where
  incidentId : PyStr
  decisionId : PyStr
  executionId : PyStr
  mechanismId : PyStr
  actionKind : PyStr
  srcIp : PyStr
  objective : EffectObjective F
  triggerEpoch : F
  preStartEpoch : F
  plannedEndEpoch : F
  effectiveEndEpoch : F
  triggerActivityRef : PyStr
  releaseRef : PyStr
  releaseOwnerToken : PyStr
  releaseResourceKey : PyStr
  terminationReason : PyStr
  executionEvidenceRefs : List PyStr
  mechanismStatus : MechanismStatus

/-- What the collector holds. -/
structure CollectorState (F : Type) where
  samples : List (TelemetrySample F)
  activity : List (ActivityEvent F)
  pending : List (PendingObservation F)
  seenExecutionIds : List PyStr

def CollectorState.empty : CollectorState F := ⟨[], [], [], []⟩

/-- `deque.append`, with a `maxlen`. -/
def appendBounded {α : Type} (maxlen : ℤ) (queue : List α) (item : α) : List α :=
  (queue ++ [item]).drop (queue.length + 1 - maxlen.toNat)

variable (c : OutcomeTelemetryCollector F)

/-- `cutoff`. -/
def cutoffAt (now : F) : F := max zero (PyEpoch.sub now c.bufferSeconds)

/-- `_prune`. -/
def prune (now : F) (s : CollectorState F) : CollectorState F :=
  { s with
    samples := pruneHead (·.epoch) (cutoffAt c now) s.samples
    activity := pruneHead (·.epoch) (cutoffAt c now) s.activity }

/-- `record_sample`; the source gives a reference to its reading, or raises. -/
def recordSample (now : F) (reading : Option PyStr) (s : CollectorState F) : CollectorState F :=
  match reading with
  | none => s
  | some evidenceRef =>
    prune c now { s with samples := appendBounded c.maxSamples s.samples ⟨now, evidenceRef⟩ }

/-! ## 3. Events -/

/-- `_safe_int`; an infinite float raises. -/
def safeInt [PyArith F] (value : Option (PyJson F)) : Except PyError ℤ :=
  match value with
  | some (.bool _) => .ok 0
  | value =>
    match intRaise value with
    | .error .overflowError => .error .overflowError
    | .error _ => .ok 0
    | .ok n => .ok n

/-- `_epoch_from_iso`; `isoTime` is the timestamp of a text, in UTC if it has no offset. -/
def epochFromIso (isoTime : PyStr → Option F) (value : Option (PyJson F)) : Option F :=
  let raw := Decision.strip (strOr value)
  if raw = [] then none
  else
    let text := raw.flatMap fun ch => if ch.val = 90 then pyStr "+00:00" else [ch]
    (isoTime text).filter fun epoch => PyDate.isFinite epoch && decide (zero ≤ epoch)

/-- `_stable_id`. -/
def telemetryId (digest : PyStr → PyStr) (start : String) (parts : List PyStr) : PyStr :=
  pyStr start ++ pyStr "-" ++ (digest (joinWith 124 parts)).take 24

section Events

variable [PyArith F]

/-- The event that `_record_activity` appends; none without a source. -/
def readActivity (event normalized : Row F) (now : F) :
    Except PyError (Option (ActivityEvent F)) := do
  let srcIp := strOr (getStr "src_ip" normalized)
  if srcIp = [] then return none
  let epoch := (epochFromIso c.isoTime (getStr "ts" normalized)).getD now
  let trace := match mapping? (getStr "enforcement" event) with
    | some enforcement => strOr (getStr "trace_id" enforcement)
    | none => []
  let id := if trace = [] then telemetryId c.digest "event" [PyFloat.str epoch, srcIp] else trace
  let targetPort ← safeInt (getStr "target_port" normalized)
  let sid ← safeInt (getStr "sid" normalized)
  return some
    { epoch, srcIp
      dstIp := strOr (getStr "dst_ip" normalized)
      targetPort, sid
      evidenceRef := pyStr "rust-activity:" ++ id }

/-- `objective_for`. -/
def objectiveFor (action decisionId : PyStr) : Option (EffectObjective F) :=
  (c.templates.lookup (PyConvert.lower F action)).map fun template =>
    { decisionId, metric := template.metric, observationWindow := template.observationWindow
      objectiveId := c.objectiveId template decisionId }

/-- The observation that an event opens, if it does. -/
def opens (event : Row F) (now : F) (trigger : Option (ActivityEvent F)) (s : CollectorState F) :
    Option (PendingObservation F) := do
  let bundle ← (fromRustEvent c.digest event).toOption
  let execution := bundle.execution
  let action := PyConvert.lower F execution.actionKind
  guard (action ∈ disruptiveActions ∧ execution.status = .applied)
  let objective ← objectiveFor c action execution.decisionId
  guard (execution.executionId ∉ s.seenExecutionIds)
  guard (s.seenExecutionIds.length < c.maxSeenExecutions ∧ s.pending.length < c.maxPending)
  let (pre, post) ← (windowSeconds objective.observationWindow).toOption
  let srcIp := match mapping? (getStr "normalized" event) with
    | some normalized => strOr (getStr "src_ip" normalized)
    | none => []
  let metadata := (mapping? (getStr "metadata" execution.appliedParameters)).getD []
  return {
    incidentId := execution.incidentId
    decisionId := execution.decisionId
    executionId := execution.executionId
    mechanismId := bundle.mechanism.mechanismId
    actionKind := action
    srcIp, objective
    triggerEpoch := now
    preStartEpoch := max zero (PyEpoch.sub now pre)
    plannedEndEpoch := PyEpoch.add now post
    effectiveEndEpoch := PyEpoch.add now post
    triggerActivityRef := (trigger.map (·.evidenceRef)).getD []
    releaseRef := execution.releaseRef
    releaseOwnerToken := strOr (getStr "release_owner_token" metadata)
    releaseResourceKey := strOr (getStr "release_resource_key" metadata)
    terminationReason := pyStr "observation_window_elapsed"
    executionEvidenceRefs := execution.providerEvidenceRefs
    mechanismStatus := bundle.mechanism.status }

/-- The release is of the action that is observed. -/
def Releases (release : ReleaseEvidenceRecord F) (p : PendingObservation F) : Prop :=
  p.decisionId = release.decisionId ∧ p.actionKind = release.actionKind ∧
    release.releaseTaskId = p.releaseRef ∧ release.ownerToken = p.releaseOwnerToken ∧
    release.resourceKey = p.releaseResourceKey ∧
    p.releaseRef ≠ [] ∧ p.releaseOwnerToken ≠ [] ∧ p.releaseResourceKey ≠ []

instance (release : ReleaseEvidenceRecord F) (p : PendingObservation F) :
    Decidable (Releases release p) := inferInstanceAs (Decidable (_ ∧ _))

/-- An observation whose action is released ends then. -/
def endAt (release : ReleaseEvidenceRecord F) (p : PendingObservation F) : PendingObservation F :=
  if Releases release p then
    { p with
      effectiveEndEpoch := min p.effectiveEndEpoch (max p.triggerEpoch release.attemptedAtEpoch)
      terminationReason := pyStr "owned_mechanism_released" }
  else p

/-- `_observe_release`. -/
def observeRelease (event : Row F) (s : CollectorState F) : CollectorState F :=
  match fromRustReleaseEvent c.fixed6 event with
  | .error _ => s
  | .ok release =>
    if release.status = .released then { s with pending := s.pending.map (endAt release) } else s

/-- A time that the collector takes. -/
def ValidTime (now : F) : Prop := PyDate.isFinite now = true ∧ zero ≤ now

instance (now : F) : Decidable (ValidTime now) := inferInstanceAs (Decidable (_ ∧ _))

/-- What `observe_event` makes of an event of the core: the activity, and the observation. -/
def readEvent (event : Row F) (now : F) (s : CollectorState F) :
    Option (ActivityEvent F) × Option (PendingObservation F) :=
  match mapping? (getStr "normalized" event) with
  | none => (none, opens c event now none s)
  | some normalized =>
    match readActivity c event normalized now with
    | .error _ => (none, none)
    | .ok trigger => (trigger, opens c event now trigger s)

/-- An event of a release. -/
def isRelease (event : Row F) : Prop :=
  strOr (getStr "pipeline" event) = pyStr "rust_release_engine_v1"

instance (event : Row F) : Decidable (isRelease event) := inferInstanceAs (Decidable (_ = _))

/-- `observe_event`, by what it leaves behind. -/
def observeEvent (event : Row F) (now : F) (s : CollectorState F) : CollectorState F :=
  if ¬ ValidTime now then s
  else if isRelease event then observeRelease c event s
  else
    let (trigger, opened) := readEvent c event now s
    let s := match trigger with
      | none => s
      | some item => { s with activity := appendBounded c.maxActivityEvents s.activity item }
    match opened with
    | none => s
    | some p => prune c now
        { s with
          pending := s.pending ++ [p]
          seenExecutionIds := s.seenExecutionIds ++ [p.executionId] }

end Events

/-! ## 4. Outcomes -/

/-- `start <= epoch < trigger`. -/
def InPre (p : PendingObservation F) (epoch : F) : Prop :=
  p.preStartEpoch ≤ epoch ∧ epoch < p.triggerEpoch

/-- `trigger <= epoch <= end`. -/
def InPost (p : PendingObservation F) (epoch : F) : Prop :=
  p.triggerEpoch ≤ epoch ∧ epoch ≤ p.effectiveEndEpoch

instance (p : PendingObservation F) (epoch : F) : Decidable (InPre p epoch) :=
  inferInstanceAs (Decidable (_ ∧ _))

instance (p : PendingObservation F) (epoch : F) : Decidable (InPost p epoch) :=
  inferInstanceAs (Decidable (_ ∧ _))

/-- The first event of each reference, of those that are not `seen`. -/
def firstByRef : List PyStr → List (ActivityEvent F) → List (ActivityEvent F)
  | _, [] => []
  | seen, item :: rest =>
    if item.evidenceRef ∈ seen then firstByRef seen rest
    else item :: firstByRef (seen ++ [item.evidenceRef]) rest

/-- `_activity_between`, without what has the trigger's reference. -/
def activityOf (p : PendingObservation F) (window : F → Prop) [DecidablePred window]
    (activity : List (ActivityEvent F)) : List (ActivityEvent F) :=
  (firstByRef [] (activity.filter fun item => item.srcIp = p.srcIp ∧ window item.epoch)).filter
    fun item => item.evidenceRef ≠ p.triggerActivityRef

/-- An `OutcomeRecord`, up to the statistics of the samples and events. -/
structure BuiltOutcome (F : Type) where
  observation : PendingObservation F
  preSamples : List (TelemetrySample F)
  postSamples : List (TelemetrySample F)
  preActivity : List (ActivityEvent F)
  postActivity : List (ActivityEvent F)
  evidenceRefs : List PyStr
  observedAt : PyStr

/-- `_build_outcome`. -/
def buildOutcome (p : PendingObservation F) (observedAt : PyStr) (s : CollectorState F) :
    BuiltOutcome F :=
  let preSamples := s.samples.filter fun sample => InPre p sample.epoch
  let postSamples := s.samples.filter fun sample => InPost p sample.epoch
  let preActivity := activityOf p (InPre p) s.activity
  let postActivity := activityOf p (InPost p) s.activity
  { observation := p
    preSamples, postSamples, preActivity, postActivity
    evidenceRefs := distinct (p.executionEvidenceRefs ++ [c.policyRef] ++
      preSamples.map (·.evidenceRef) ++ postSamples.map (·.evidenceRef) ++
      preActivity.map (·.evidenceRef) ++ postActivity.map (·.evidenceRef))
    observedAt }

/-- The observations that are over. -/
def due (now : F) (s : CollectorState F) : List (PendingObservation F) :=
  s.pending.filter fun p => p.effectiveEndEpoch ≤ now

/-- `finalize_due`.  A time that is not a date raises at the first record. -/
def finalizeDue (now : F) (s : CollectorState F) : CollectorState F × List (BuiltOutcome F) :=
  if ¬ ValidTime now then (s, [])
  else
    let rest := s.pending.filter fun p => ¬ p.effectiveEndEpoch ≤ now
    match due now s, PyDate.isoTimestamp now with
    | p :: _, none =>
      ({ s with pending := s.pending.filter fun q => q.executionId ≠ p.executionId }, [])
    | ended, iso =>
      (prune c now { s with pending := rest },
        ended.map fun p => buildOutcome c p (iso.getD []) s)

/-! ## 5. Calls -/

/-- A call of the collector, with the time of it. -/
inductive Call (F : Type) where
  | record (now : F) (reading : Option PyStr)
  | observe (now : F) (event : Row F)
  | finalize (now : F)

def Call.now : Call F → F
  | .record now _ => now
  | .observe now _ => now
  | .finalize now => now

variable [PyArith F]

/-- The state after a call. -/
def step (s : CollectorState F) : Call F → CollectorState F
  | .record now reading => recordSample c now reading s
  | .observe now event => observeEvent c event now s
  | .finalize now => (finalizeDue c now s).1

/-- The outcomes that a call returns. -/
def built (s : CollectorState F) : Call F → List (BuiltOutcome F)
  | .finalize now => (finalizeDue c now s).2
  | _ => []

/-- The sample that a call records. -/
def recorded : Call F → Option (TelemetrySample F)
  | .record now reading => reading.map fun evidenceRef => ⟨now, evidenceRef⟩
  | _ => none

/-- The event that a call puts into the activity. -/
def received (s : CollectorState F) : Call F → Option (ActivityEvent F)
  | .observe now event =>
    if ValidTime now ∧ ¬ isRelease event then (readEvent c event now s).1 else none
  | _ => none

/-- A call prunes. -/
def Prunes (s : CollectorState F) : Call F → Prop
  | .record _ reading => reading.isSome = true
  | .observe now event =>
    ValidTime now ∧ ¬ isRelease event ∧ (readEvent c event now s).2.isSome = true
  | .finalize now =>
    ValidTime now ∧ ((due now s).isEmpty = true ∨ (PyDate.isoTimestamp now).isSome = true)

instance (s : CollectorState F) : (call : Call F) → Decidable (Prunes c s call)
  | .record _ _ => inferInstanceAs (Decidable (_ = true))
  | .observe _ _ => inferInstanceAs (Decidable (_ ∧ _ ∧ _))
  | .finalize _ => inferInstanceAs (Decidable (_ ∧ (_ ∨ _)))

/-- The pruning of a call. -/
def pruning {α : Type} (s : CollectorState F) (call : Call F) : List (QueueAct α F) :=
  if Prunes c s call then [.prune (cutoffAt c call.now)] else []

/-- What a call does to the samples. -/
def sampleActs (s : CollectorState F) (call : Call F) : List (QueueAct (TelemetrySample F) F) :=
  (recorded call).toList.map .put ++ pruning c s call

/-- What a call does to the activity. -/
def activityActs (s : CollectorState F) (call : Call F) : List (QueueAct (ActivityEvent F) F) :=
  (received c s call).toList.map .put ++ pruning c s call

/-- Neither queue is full. -/
def HasRoom (s : CollectorState F) : Prop :=
  s.samples.length < c.maxSamples ∧ s.activity.length < c.maxActivityEvents

variable {c} {s t : CollectorState F} {call : Call F}

omit [PyChars] in
theorem appendBounded_of_room {α : Type} {maxlen : ℤ} {queue : List α} {item : α}
    (h : queue.length < maxlen) : appendBounded maxlen queue item = queue ++ [item] := by
  have hfits : queue.length + 1 - maxlen.toNat = 0 := by omega
  rw [appendBounded, hfits, List.drop_zero]

omit [PyArith F] in
theorem observeRelease_queues (event : Row F) :
    (observeRelease c event s).samples = s.samples ∧
      (observeRelease c event s).activity = s.activity := by
  unfold observeRelease
  split
  · exact ⟨rfl, rfl⟩
  · split <;> exact ⟨rfl, rfl⟩

/-- A finalization prunes or leaves the queues, and builds what it returns of them as they were. -/
theorem finalizeDue_queues (now : F) :
    (((finalizeDue c now s).1.samples, (finalizeDue c now s).1.activity) =
      if Prunes c s (.finalize now) then
        (pruneHead (·.epoch) (cutoffAt c now) s.samples,
          pruneHead (·.epoch) (cutoffAt c now) s.activity)
      else (s.samples, s.activity)) ∧
    ∀ o ∈ (finalizeDue c now s).2, ∃ p iso, o = buildOutcome c p iso s := by
  unfold finalizeDue
  by_cases hvalid : ValidTime now
  · rw [if_neg (not_not.mpr hvalid)]
    cases hdue : due now s with
    | nil => simp [Prunes, hvalid, hdue, prune]
    | cons p ended =>
      cases hiso : PyDate.isoTimestamp now with
      | none => simp [Prunes, hvalid, hdue, hiso]
      | some iso =>
        refine ⟨by simp [Prunes, hvalid, hdue, hiso, prune], fun o ho => ?_⟩
        obtain ⟨q, -, rfl⟩ := List.mem_map.mp ho
        exact ⟨q, iso, rfl⟩
  · rw [if_pos hvalid]
    simp [Prunes, hvalid]

/-- The samples of a call, act by act. -/
theorem samples_step (hroom : HasRoom c s) :
    (step c s call).samples = (sampleActs c s call).foldl (queueAct (·.epoch)) s.samples := by
  cases call with
  | record now reading =>
    cases reading with
    | none => simp [step, recordSample, sampleActs, recorded, pruning, Prunes]
    | some evidenceRef =>
      simp [step, recordSample, sampleActs, recorded, pruning, Prunes, prune, queueAct, Call.now,
        appendBounded_of_room hroom.1]
  | observe now event =>
    by_cases hvalid : ValidTime now
    · by_cases hrelease : isRelease event
      · simp [step, observeEvent, sampleActs, recorded, pruning, Prunes, hvalid, hrelease,
          (observeRelease_queues event).1]
      · rcases hread : readEvent c event now s with ⟨trigger, opened⟩
        cases trigger <;> cases opened <;>
          simp [step, observeEvent, sampleActs, recorded, pruning, Prunes, hvalid, hrelease,
            hread, prune, queueAct, Call.now]
    · simp [step, observeEvent, sampleActs, recorded, pruning, Prunes, hvalid]
  | finalize now =>
    have h := congrArg Prod.fst (finalizeDue_queues (c := c) (s := s) now).1
    by_cases hprunes : Prunes c s (.finalize now)
    · simpa [step, sampleActs, recorded, pruning, hprunes, queueAct, Call.now] using h
    · simpa [step, sampleActs, recorded, pruning, hprunes] using h

/-- The events of a call, act by act. -/
theorem activity_step (hroom : HasRoom c s) :
    (step c s call).activity = (activityActs c s call).foldl (queueAct (·.epoch)) s.activity := by
  cases call with
  | record now reading =>
    cases reading <;>
      simp [step, recordSample, activityActs, received, pruning, Prunes, prune, queueAct, Call.now]
  | observe now event =>
    by_cases hvalid : ValidTime now
    · by_cases hrelease : isRelease event
      · simp [step, observeEvent, activityActs, received, pruning, Prunes, hvalid, hrelease,
          (observeRelease_queues event).2]
      · rcases hread : readEvent c event now s with ⟨trigger, opened⟩
        cases trigger <;> cases opened <;>
          simp [step, observeEvent, activityActs, received, pruning, Prunes, hvalid, hrelease,
            hread, prune, queueAct, Call.now, appendBounded_of_room hroom.2]
    · simp [step, observeEvent, activityActs, received, pruning, Prunes, hvalid]
  | finalize now =>
    have h := congrArg Prod.snd (finalizeDue_queues (c := c) (s := s) now).1
    by_cases hprunes : Prunes c s (.finalize now)
    · simpa [step, activityActs, received, pruning, hprunes, queueAct, Call.now] using h
    · simpa [step, activityActs, received, pruning, hprunes] using h

/-! ## 6. Runs -/

/-- A call, what it did to the queues, and the outcomes it returned. -/
structure Moment (F : Type) where
  call : Call F
  samples : List (QueueAct (TelemetrySample F) F)
  activity : List (QueueAct (ActivityEvent F) F)
  built : List (BuiltOutcome F)

/-- A call while neither queue is full. -/
structure Steps (c : OutcomeTelemetryCollector F) (s : CollectorState F) (m : Moment F)
    (t : CollectorState F) : Prop where
  room : HasRoom c s
  samples : m.samples = sampleActs c s m.call
  activity : m.activity = activityActs c s m.call
  built : m.built = built c s m.call
  next : t = step c s m.call

/-- What was done to the samples. -/
def allSamples (ms : List (Moment F)) : List (QueueAct (TelemetrySample F) F) :=
  ms.flatMap (·.samples)

/-- What was done to the activity. -/
def allActivity (ms : List (Moment F)) : List (QueueAct (ActivityEvent F) F) :=
  ms.flatMap (·.activity)

/-- The clock does not go back. -/
def Clocked (ms : List (Moment F)) : Prop := (ms.map (·.call.now)).Pairwise (· ≤ ·)

variable {ms past rest : List (Moment F)} {m : Moment F} {p : PendingObservation F}

omit [PyFloat F] [PyRepr F] [PyConvert F] [PyDate F] [PyChars] [PyEpoch F] [PyArith F] in
@[simp] theorem allSamples_concat : allSamples (ms ++ [m]) = allSamples ms ++ m.samples := by
  simp [allSamples]

omit [PyFloat F] [PyRepr F] [PyConvert F] [PyDate F] [PyChars] [PyEpoch F] [PyArith F] in
@[simp] theorem allActivity_concat : allActivity (ms ++ [m]) = allActivity ms ++ m.activity := by
  simp [allActivity]

/-- The queues are what was done to them. -/
theorem queues_run (h : Run (Steps c) .empty ms t) :
    t.samples = queueOf (·.epoch) (allSamples ms) ∧
      t.activity = queueOf (·.epoch) (allActivity ms) := by
  refine Run.history (P := fun ms t => t.samples = queueOf (·.epoch) (allSamples ms) ∧
    t.activity = queueOf (·.epoch) (allActivity ms)) ?_ h ⟨rfl, rfl⟩
  rintro ms s m t ⟨hsamples, hactivity⟩ hstep
  constructor
  · rw [hstep.next, samples_step hstep.room, hsamples, ← hstep.samples, allSamples_concat,
      queueOf_append]
  · rw [hstep.next, activity_step hstep.room, hactivity, ← hstep.activity, allActivity_concat,
      queueOf_append]

/-- A call prunes by its own time, and a sample has the time of its call. -/
structure Timed (c : OutcomeTelemetryCollector F) (m : Moment F) : Prop where
  samples : ∀ cutoff ∈ cutoffs m.samples, cutoff = cutoffAt c m.call.now
  activity : ∀ cutoff ∈ cutoffs m.activity, cutoff = cutoffAt c m.call.now
  puts : ∀ sample ∈ puts m.samples, sample.epoch = m.call.now

theorem cutoffs_pruning {α : Type} {cutoff : F}
    (h : cutoff ∈ cutoffs (pruning c s call : List (QueueAct α F))) :
    cutoff = cutoffAt c call.now := by
  unfold pruning at h
  split at h
  · simpa using h
  · simp at h

theorem puts_pruning {α : Type} : puts (pruning c s call : List (QueueAct α F)) = [] := by
  unfold pruning
  split <;> rfl

theorem timed_of_steps (h : Steps c s m t) : Timed c m := by
  refine ⟨fun cutoff hcutoff => ?_, fun cutoff hcutoff => ?_, fun sample hsample => ?_⟩
  · rw [h.samples, sampleActs, cutoffs_append, List.mem_append] at hcutoff
    refine hcutoff.elim (fun hput => ?_) cutoffs_pruning
    cases hrecorded : recorded m.call <;> simp [hrecorded] at hput
  · rw [h.activity, activityActs, cutoffs_append, List.mem_append] at hcutoff
    refine hcutoff.elim (fun hput => ?_) cutoffs_pruning
    cases hreceived : received c s m.call <;> simp [hreceived] at hput
  · rw [h.samples, sampleActs, puts_append, puts_pruning, List.append_nil] at hsample
    cases hcall : m.call with
    | record now reading =>
      cases reading with
      | none => simp [hcall, recorded] at hsample
      | some evidenceRef =>
        simp only [hcall, recorded, Option.map_some, Option.toList_some, List.map_cons,
          List.map_nil, puts_cons_put, puts_nil, List.mem_singleton] at hsample
        rw [hsample]
        rfl
    | observe now event => simp [hcall, recorded] at hsample
    | finalize now => simp [hcall, recorded] at hsample

omit [PyArith F] in
theorem cutoffAt_mono {a b : F} (h : a ≤ b) : cutoffAt c a ≤ cutoffAt c b :=
  max_le_max le_rfl (PyEpoch.sub_le_sub a b c.bufferSeconds h)

omit [PyArith F] in
/-- Where the clock does not go back, the cutoffs and the times of the samples rise. -/
theorem rising_of_clocked (htimed : ∀ m ∈ ms, Timed c m) (hclock : Clocked ms) :
    Rising (allSamples ms) ∧ Rising (allActivity ms) ∧
      (puts (allSamples ms)).Pairwise fun a b => a.epoch ≤ b.epoch := by
  have hpairs := List.pairwise_map.mp hclock
  refine ⟨?_, ?_, ?_⟩
  · rw [Rising, allSamples, cutoffs_flatMap, List.pairwise_flatMap]
    refine ⟨fun m hm => ?_, hpairs.imp_of_mem fun {m n} hm hn hle x hx y hy => ?_⟩
    · refine List.pairwise_of_forall_mem_list fun x hx y hy => ?_
      rw [(htimed m hm).samples x hx, (htimed m hm).samples y hy]
    · rw [(htimed m hm).samples x hx, (htimed n hn).samples y hy]
      exact cutoffAt_mono hle
  · rw [Rising, allActivity, cutoffs_flatMap, List.pairwise_flatMap]
    refine ⟨fun m hm => ?_, hpairs.imp_of_mem fun {m n} hm hn hle x hx y hy => ?_⟩
    · refine List.pairwise_of_forall_mem_list fun x hx y hy => ?_
      rw [(htimed m hm).activity x hx, (htimed m hm).activity y hy]
    · rw [(htimed m hm).activity x hx, (htimed n hn).activity y hy]
      exact cutoffAt_mono hle
  · rw [allSamples, puts_flatMap, List.pairwise_flatMap]
    refine ⟨fun m hm => ?_, hpairs.imp_of_mem fun {m n} hm hn hle x hx y hy => ?_⟩
    · refine List.pairwise_of_forall_mem_list fun x hx y hy => ?_
      rw [(htimed m hm).puts x hx, (htimed m hm).puts y hy]
    · rw [(htimed m hm).puts x hx, (htimed n hn).puts y hy]
      exact hle

/-! ## 7. Complete windows -/

/-- An event that counts for a window of an observation: one of its source, not the trigger. -/
structure Counts (p : PendingObservation F) (window : F → Prop) (item : ActivityEvent F) :
    Prop where
  source : item.srcIp = p.srcIp
  within : window item.epoch
  other : item.evidenceRef ≠ p.triggerActivityRef

/-- An outcome has every sample that was recorded in its windows, and the evidence of every event
that was received and counts for them. -/
structure WindowsComplete (past : List (Moment F)) (o : BuiltOutcome F) : Prop where
  preSamples : ∀ sample ∈ puts (allSamples past), InPre o.observation sample.epoch →
    sample ∈ o.preSamples
  postSamples : ∀ sample ∈ puts (allSamples past), InPost o.observation sample.epoch →
    sample ∈ o.postSamples
  preActivity : ∀ item ∈ puts (allActivity past), Counts o.observation (InPre o.observation) item →
    ∃ used ∈ o.preActivity, used.evidenceRef = item.evidenceRef
  postActivity : ∀ item ∈ puts (allActivity past),
    Counts o.observation (InPost o.observation) item →
      ∃ used ∈ o.postActivity, used.evidenceRef = item.evidenceRef

/-- No pruning since a sample was recorded has a cutoff after it. -/
def SampleLasts (past : List (Moment F)) (sample : TelemetrySample F) : Prop :=
  ∃ before after, allSamples past = before ++ .put sample :: after ∧
    ∀ cutoff ∈ cutoffs after, cutoff ≤ sample.epoch

/-- Of the events with the evidence of this one that count for the window there is one which at each
pruning since it was received had, at it or before it in the order of receipt, an event that was not
before the cutoff. -/
def EventLasts (past : List (Moment F)) (p : PendingObservation F) (window : F → Prop)
    (item : ActivityEvent F) : Prop :=
  ∃ used, Counts p window used ∧ used.evidenceRef = item.evidenceRef ∧
    Survives (·.epoch) (allActivity past) used

/-- The buffer lasts for what an observation needs. -/
structure BufferLasts (past : List (Moment F)) (p : PendingObservation F) : Prop where
  samples : ∀ sample ∈ puts (allSamples past), InPre p sample.epoch ∨ InPost p sample.epoch →
    SampleLasts past sample
  preActivity : ∀ item ∈ puts (allActivity past), Counts p (InPre p) item →
    EventLasts past p (InPre p) item
  postActivity : ∀ item ∈ puts (allActivity past), Counts p (InPost p) item →
    EventLasts past p (InPost p) item

omit [PyFloat F] [PyRepr F] [PyConvert F] [PyDate F] [PyChars] [PyEpoch F] [PyArith F] in
theorem exists_firstByRef (seen : List PyStr) (items : List (ActivityEvent F)) (ref : PyStr) :
    (∃ used ∈ firstByRef seen items, used.evidenceRef = ref) ↔
      ref ∉ seen ∧ ∃ item ∈ items, item.evidenceRef = ref := by
  fun_induction firstByRef seen items with
  | case1 => simp
  | case2 seen item rest hseen ih =>
    rw [ih]
    refine and_congr_right fun hnew => ⟨?_, ?_⟩
    · rintro ⟨other, hother, href⟩
      exact ⟨other, List.mem_cons_of_mem _ hother, href⟩
    · rintro ⟨other, hother, href⟩
      rcases List.mem_cons.mp hother with rfl | hother
      · exact absurd (href ▸ hseen) hnew
      · exact ⟨other, hother, href⟩
  | case3 seen item rest hnew ih =>
    simp only [List.mem_cons, or_and_right, exists_or, exists_eq_left, ih, List.mem_append,
      not_or, List.not_mem_nil, or_false]
    by_cases href : item.evidenceRef = ref
    · subst href
      simp [hnew]
    · simp [href, Ne.symm href]

omit [PyFloat F] [PyRepr F] [PyConvert F] [PyDate F] [PyChars] [PyEpoch F] [PyArith F] in
/-- The evidence that an outcome has of a window. -/
theorem exists_activityOf {window : F → Prop} [DecidablePred window]
    {activity : List (ActivityEvent F)} {ref : PyStr} :
    (∃ used ∈ activityOf p window activity, used.evidenceRef = ref) ↔
      ∃ used ∈ activity, Counts p window used ∧ used.evidenceRef = ref := by
  have hfirst := exists_firstByRef []
    (activity.filter fun item => item.srcIp = p.srcIp ∧ window item.epoch) ref
  constructor
  · rintro ⟨used, hused, href⟩
    obtain ⟨hmem, hother⟩ := List.mem_filter.mp hused
    obtain ⟨-, item, hitem, hitemref⟩ := hfirst.mp ⟨used, hmem, href⟩
    obtain ⟨hin, hcounts⟩ := List.mem_filter.mp hitem
    have hcounts := of_decide_eq_true hcounts
    refine ⟨item, hin, ⟨hcounts.1, hcounts.2, ?_⟩, hitemref⟩
    rw [hitemref, ← href]
    exact of_decide_eq_true hother
  · rintro ⟨item, hin, hcounts, href⟩
    have hitem : item ∈ activity.filter fun item => item.srcIp = p.srcIp ∧ window item.epoch :=
      List.mem_filter.mpr ⟨hin, decide_eq_true ⟨hcounts.source, hcounts.within⟩⟩
    obtain ⟨used, hused, husedref⟩ := hfirst.mpr ⟨by simp, item, hitem, href⟩
    refine ⟨used, List.mem_filter.mpr ⟨hused, decide_eq_true ?_⟩, husedref⟩
    rw [husedref, ← href]
    exact hcounts.other

omit [PyArith F] in
/-- An outcome that is built of queues as they have become is complete when the buffer lasts. -/
theorem complete_iff (hsamples : s.samples = queueOf (·.epoch) (allSamples past))
    (hactivity : s.activity = queueOf (·.epoch) (allActivity past))
    (htimed : ∀ m ∈ past, Timed c m) (hclock : Clocked past) (iso : PyStr) :
    WindowsComplete past (buildOutcome c p iso s) ↔ BufferLasts past p := by
  obtain ⟨hrising, hrising', hsorted⟩ := rising_of_clocked htimed hclock
  have hsample : ∀ sample, sample ∈ s.samples ↔ SampleLasts past sample := fun sample => by
    rw [hsamples, mem_queueOf_iff hrising, survives_iff_of_sorted hsorted]
    rfl
  have hevent : ∀ item, item ∈ s.activity ↔ Survives (·.epoch) (allActivity past) item :=
    fun item => by rw [hactivity, mem_queueOf_iff hrising']
  have hwindow : ∀ (window : F → Prop) [DecidablePred window] (item : ActivityEvent F),
      (∃ used ∈ activityOf p window s.activity, used.evidenceRef = item.evidenceRef) ↔
        EventLasts past p window item := by
    intro window _ item
    rw [exists_activityOf]
    constructor
    · rintro ⟨used, hused, hcounts, href⟩
      exact ⟨used, hcounts, href, (hevent used).mp hused⟩
    · rintro ⟨used, hcounts, href, hlasts⟩
      exact ⟨used, (hevent used).mpr hlasts, hcounts, href⟩
  constructor
  · intro h
    refine ⟨?_, ?_, ?_⟩
    · rintro sample hput (hpre | hpost)
      · exact (hsample sample).mp (List.mem_filter.mp (h.preSamples sample hput hpre)).1
      · exact (hsample sample).mp (List.mem_filter.mp (h.postSamples sample hput hpost)).1
    · intro item hput hcounts
      exact (hwindow (InPre p) item).mp (h.preActivity item hput hcounts)
    · intro item hput hcounts
      exact (hwindow (InPost p) item).mp (h.postActivity item hput hcounts)
  · intro h
    refine ⟨?_, ?_, ?_, ?_⟩
    · intro sample hput hpre
      have hin := (hsample sample).mpr (h.samples sample hput (Or.inl hpre))
      exact List.mem_filter.mpr ⟨hin, decide_eq_true hpre⟩
    · intro sample hput hpost
      have hin := (hsample sample).mpr (h.samples sample hput (Or.inr hpost))
      exact List.mem_filter.mpr ⟨hin, decide_eq_true hpost⟩
    · intro item hput hcounts
      exact (hwindow (InPre p) item).mpr (h.preActivity item hput hcounts)
    · intro item hput hcounts
      exact (hwindow (InPost p) item).mpr (h.postActivity item hput hcounts)

/-- Every outcome of a run has its windows complete. -/
def AllComplete (ms : List (Moment F)) : Prop :=
  ∀ past m rest, ms = past ++ m :: rest → ∀ o ∈ m.built, WindowsComplete past o

/-- The buffer lasts for every outcome of a run. -/
def AllLast (ms : List (Moment F)) : Prop :=
  ∀ past m rest, ms = past ++ m :: rest → ∀ o ∈ m.built, BufferLasts past o.observation

theorem built_of_steps {o : BuiltOutcome F} (h : Steps c s m t) (ho : o ∈ m.built) :
    ∃ p iso, o = buildOutcome c p iso s := by
  rw [h.built] at ho
  cases hcall : m.call with
  | record now reading => simp [hcall, built] at ho
  | observe now event => simp [hcall, built] at ho
  | finalize now =>
    rw [hcall, built] at ho
    exact (finalizeDue_queues now).2 o ho

/-- **Telemetry windows are complete exactly in the runs in which nothing that an outcome needs is
pruned before it is built.** -/
theorem windows_complete_iff (hrun : Run (Steps c) .empty ms t) (hclock : Clocked ms) :
    AllComplete ms ↔ AllLast ms := by
  have hiff : ∀ past m rest, ms = past ++ m :: rest → ∀ o ∈ m.built,
      (WindowsComplete past o ↔ BufferLasts past o.observation) := by
    rintro past m rest rfl o ho
    obtain ⟨s, hpast, hlater⟩ := hrun.split
    cases hlater with
    | head hstep _ =>
      obtain ⟨p, iso, rfl⟩ := built_of_steps hstep ho
      obtain ⟨hsamples, hactivity⟩ := queues_run hpast
      have htimed : ∀ m ∈ past, Timed c m := Run.labels (fun _ _ _ h => timed_of_steps h) hpast
      have hbefore : Clocked past := by
        rw [Clocked, List.map_append] at hclock
        exact (List.pairwise_append.mp hclock).1
      exact complete_iff hsamples hactivity htimed hbefore iso
  constructor
  · exact fun h past m rest heq o ho => (hiff past m rest heq o ho).mp (h past m rest heq o ho)
  · exact fun h past m rest heq o ho => (hiff past m rest heq o ho).mpr (h past m rest heq o ho)

/-! ## 8. A sample that is pruned before its outcome -/

/-- The moment of a call. -/
def momentOf (c : OutcomeTelemetryCollector F) (s : CollectorState F) (call : Call F) : Moment F :=
  ⟨call, sampleActs c s call, activityActs c s call, built c s call⟩

/-- The moments of some calls. -/
def momentsOf (c : OutcomeTelemetryCollector F) (s : CollectorState F) :
    List (Call F) → List (Moment F)
  | [] => []
  | call :: calls => momentOf c s call :: momentsOf c (step c s call) calls

/-- Neither queue is full before any of the calls. -/
def roomFor (c : OutcomeTelemetryCollector F) (s : CollectorState F) : List (Call F) → Bool
  | [] => true
  | call :: calls =>
    decide (s.samples.length < c.maxSamples ∧ s.activity.length < c.maxActivityEvents) &&
      roomFor c (step c s call) calls

theorem run_momentsOf {calls : List (Call F)} (hroom : roomFor c s calls = true) :
    Run (Steps c) s (momentsOf c s calls) (calls.foldl (step c) s) := by
  induction calls generalizing s with
  | nil => exact .refl s
  | cons call calls ih =>
    rw [roomFor, Bool.and_eq_true, decide_eq_true_eq] at hroom
    exact .head ⟨hroom.1, rfl, rfl, rfl, rfl⟩ (ih hroom.2)

theorem momentsOf_concat {calls : List (Call F)} :
    momentsOf c s (calls ++ [call]) =
      momentsOf c s calls ++ [momentOf c (calls.foldl (step c) s) call] := by
  induction calls generalizing s with
  | nil => rfl
  | cons first calls ih =>
    rw [List.cons_append, momentsOf, ih, momentsOf, List.foldl_cons, List.cons_append]

/-- The samples are recorded at the interval. -/
def AtInterval (c : OutcomeTelemetryCollector F) (ms : List (Moment F)) : Prop :=
  ((puts (allSamples ms)).map (·.epoch)).IsChain fun a b =>
    b = PyEpoch.add a c.sampleIntervalSeconds

end Telemetry

instance : PyEpoch Whole :=
  { LinearOrder.lift' Whole.n fun a b h => by cases a; cases b; exact congrArg Whole.mk h with
    add := fun a b => ⟨a.n + b.n⟩
    sub := fun a b => ⟨a.n - b.n⟩
    sub_le_sub := fun a b c h => Nat.sub_le_sub_right h c.n }

/-- Eight seconds before and eight after. -/
def sampleWindow : Row Whole := [(pyStr "pre_seconds", .int 8), (pyStr "post_seconds", .int 8)]

/-- A collector that keeps ten seconds, and samples every twelve. -/
def sampleCollector : OutcomeTelemetryCollector Whole where
  templates := [(pyStr "throttle", ⟨pyStr "source_ip_event_rate_hz", sampleWindow⟩)]
  policyRef := pyStr "outcome-policy:dedup-v1"
  interface := pyStr "br0"
  sampleIntervalSeconds := ⟨12⟩
  bufferSeconds := ⟨10⟩
  maxSamples := 1024
  maxActivityEvents := 2048
  maxPending := 128
  maxSeenExecutions := 4096
  objectiveId _ decisionId := decisionId
  digest := id
  fixed6 x := PyFloat.str x
  isoTime text := if text = pyStr "1970-01-01T00:01:40+00:00" then some ⟨100⟩ else none
  accepted := by decide +kernel

/-- A throttle that was applied. -/
def sampleThrottle : Row Whole :=
  [(pyStr "normalized", .obj
      [(pyStr "ts", jstr "1970-01-01T00:01:40+00:00"), (pyStr "src_ip", jstr "10.0.0.8"),
        (pyStr "dst_ip", jstr "10.0.0.1"), (pyStr "target_port", .int 22),
        (pyStr "sid", .int 1001)]),
    (pyStr "defense", .obj
      [(pyStr "action", jstr "throttle"), (pyStr "target", jstr "10.0.0.8"),
        (pyStr "policy_reason", jstr "test"), (pyStr "delay_ms", .int 1000)]),
    (pyStr "enforcement", .obj
      [(pyStr "mode", jstr "enforced"), (pyStr "trace_id", jstr "decision"),
        (pyStr "selected_action", jstr "throttle"), (pyStr "target", jstr "10.0.0.8"),
        (pyStr "policy_reason", jstr "test"),
        (pyStr "command_plan", .arr [jstr "tc qdisc replace dev br0 root handle 1a: tbf"]),
        (pyStr "rollback_plan", .arr [jstr "tc qdisc del dev br0 root handle 1a:"]),
        (pyStr "executed_count", .int 1), (pyStr "failed_count", .int 0),
        (pyStr "errors", .arr []), (pyStr "result", jstr "applied"),
        (pyStr "metadata", .obj
          [(pyStr "release_task_id", jstr "release-decision"),
            (pyStr "release_due_epoch", .int 2000),
            (pyStr "release_resource_key", jstr "tc:root:br0"),
            (pyStr "release_owner_token", jstr "azazel-edge:release-decision"),
            (pyStr "release_tc_handle", jstr "1a:"),
            (pyStr "release_ledger_state", jstr "active")])]),
    (pyStr "pipeline", jstr "rust_event_engine_v1")]

/-- A sample eight seconds before a throttle, and another four seconds after it. -/
def sampleCalls : List (Call Whole) :=
  [.record ⟨92⟩ (some (pyStr "sample:1")), .observe ⟨100⟩ sampleThrottle,
    .record ⟨104⟩ (some (pyStr "sample:2"))]

/-- The finalization. -/
def sampleLast : Call Whole := .finalize ⟨108⟩

def sampleMoments : List (Moment Whole) :=
  momentsOf sampleCollector .empty (sampleCalls ++ [sampleLast])

theorem sampleMoments_run : Run (Steps sampleCollector) .empty sampleMoments
    ((sampleCalls ++ [sampleLast]).foldl (step sampleCollector) .empty) :=
  run_momentsOf (by decide +kernel)

theorem sampleMoments_clocked : Clocked sampleMoments := by
  unfold Clocked
  decide +kernel

theorem windows_complete_iff_sample : AllComplete sampleMoments ↔ AllLast sampleMoments :=
  windows_complete_iff sampleMoments_run sampleMoments_clocked

/-- **The first sample of a baseline is pruned by a later one, before the outcome is built.** -/
theorem baseline_pruned : ∃ (c : OutcomeTelemetryCollector Whole) (ms : List (Moment Whole))
    (t : CollectorState Whole), Run (Steps c) .empty ms t ∧ Clocked ms ∧ AtInterval c ms ∧
      ¬ AllComplete ms := by
  have hinterval : AtInterval sampleCollector sampleMoments := by
    unfold AtInterval
    decide +kernel
  refine ⟨sampleCollector, sampleMoments, _, sampleMoments_run, sampleMoments_clocked,
    hinterval, fun hcomplete => ?_⟩
  have hmissed : ∃ o ∈ (momentOf sampleCollector
      (sampleCalls.foldl (step sampleCollector) .empty) sampleLast).built,
      InPre o.observation ⟨92⟩ ∧ ⟨⟨92⟩, pyStr "sample:1"⟩ ∉ o.preSamples := by
    decide +kernel
  have hput : ⟨⟨92⟩, pyStr "sample:1"⟩ ∈
      puts (allSamples (momentsOf sampleCollector .empty sampleCalls)) := by
    decide +kernel
  obtain ⟨o, ho, hpre, hmissing⟩ := hmissed
  exact hmissing ((hcomplete _ _ [] momentsOf_concat o ho).preSamples _ hput hpre)

end AzazelEdge.Outcome
