/-
# The live auxiliary

`LiveMioAuxiliary` of `mio_live_auxiliary.py`: a queue of one job, a worker, and what is published
under a lock that the worker lets go of while it reasons.

A step is one access to what the threads share.  A caller of `submit` holds the lock from the new
generation to the queued result, but the worker takes from the queue without it; before that a caller
only reads its own event, so that callers that wait for the lock are no part of the state.  What
`_safe_event` and the package `azazel_mio` make of a job comes from outside: each call returns
something, raises an `Exception`, or exits, which is to raise what no `except Exception` catches.  So
does the clock, as whether a job is late.  The knowledge input builder does not raise.
-/
import AzazelEdge.Lib.Run
import AzazelEdge.Mio.LiveEnvelope

namespace AzazelEdge.Mio.Live

open AzazelEdge.Lib AzazelEdge.Lib.Py AzazelEdge.Audit AzazelEdge.Decision

/-! ## 1. Jobs -/

/-- What a call into the package did. -/
inductive Answer (α : Type) where
  | returned (a : α)
  /-- An `Exception` of this class. -/
  | raised (name : PyStr)
  | exits

/-- `MAX_RESULT_BYTES`. -/
def maxResultBytes : ℕ := 16 * 1024

/-- An instance: `max_age_seconds`, and the values of `ContextDependencyOutcome`. -/
structure Config (F : Type) where
  maxAge : F
  knowledgeStatuses : List PyStr

/-- `str(generation)`. -/
def genText (generation : ℕ) : PyStr := ofText (natText generation)

/-- A job, as far as it decides what is published. -/
structure Job (F : Type) where
  generation : ℕ
  sourceTraceId : PyStr
  edgeEvent : EdgeEvent
  sourceContext : SourceContext F

section Jobs

variable {F : Type} [PyFloat F] [PyRepr F] [PyConvert F]

/-- What `submit` keeps of an event. -/
def jobOf (event : Row F) (generation : ℕ) : Job F where
  generation := generation
  sourceTraceId := (strOr (getKey kTraceId (mapping kEnforcement event))).take 96
  edgeEvent := safeEdgeEvent event
  sourceContext := sourceContext event

/-- The result that `submit` publishes. -/
def queuedResult (job : Job F) : Envelope F :=
  { unavailable (pyStr "queued") with
    status := pyStr "queued"
    reason := []
    generation := genText job.generation
    traceId := job.sourceTraceId
    observations := [pyStr "rust_core_normalized_event"]
    derivedSignals := [pyStr "edge_tactical_scorer_v1"]
    edgeEvent := job.edgeEvent
    sourceContext := some job.sourceContext }

/-- The result when the queue is still full. -/
def queueFull (job : Job F) : Envelope F :=
  { unavailable (pyStr "queue_full") with
    generation := genText job.generation
    traceId := job.sourceTraceId
    edgeEvent := job.edgeEvent
    sourceContext := some job.sourceContext }

/-- What `submit` returns. -/
def receipt (job : Job F) (accepted : Bool) : Envelope F :=
  { queuedResult job with
    status := if accepted then pyStr "queued" else pyStr "degraded"
    reason := if accepted then [] else pyStr "queue_full" }

/-- A result that is complete. -/
def completeResult (job : Job F) (assistance : Row F) (knowledge : PyStr) : Envelope F where
  status := sComplete
  reason := []
  generation := genText job.generation
  traceId := job.sourceTraceId.take 96
  observations := [pyStr "rust_core_normalized_event"]
  derivedSignals := [pyStr "edge_tactical_scorer_v1"]
  knowledgeStatus := knowledge
  advisory := some assistance
  edgeEvent := job.edgeEvent
  sourceContext := some job.sourceContext
  handoffBinding := some
    { status := sMatched
      generation := genText job.generation
      eventKey := job.sourceContext.eventKey
      edgeTraceId := job.edgeEvent.traceId.getD []
      edgeAction := job.edgeEvent.action
      edgeMode := job.edgeEvent.mode
      edgeResult := job.edgeEvent.result
      mioTraceId := strOr (getKey kTraceId assistance)
      frameId := strOr (getKey kFrameId assistance)
      valid := none }
  knowledgeAdvisory := none

/-- `mio_failure`. -/
def failed (name : PyStr) : Envelope F := unavailable (pyStr "mio_failure:" ++ name.take 48)

/-- What `to_dict()` returned, and whether it has the two ids of the frame. -/
structure Assistance (F : Type) where
  value : PyJson F
  named : Bool

/-- The status of `dependency_outcome`. -/
def knowledgeStatus (cfg : Config F) (assistance : Row F) : Option PyStr :=
  match getKey (pyStr "dependency_outcome") assistance with
  | some (.obj outcome) =>
    match getKey (pyStr "knowledge") outcome with
    | some (.str status) => if status ∈ cfg.knowledgeStatuses then some status else none
    | _ => none
  | _ => none

/-- The result of a job whose assistance came in time and is not `None`. -/
def assisted (cfg : Config F) (job : Job F) (a : Assistance F) : Envelope F :=
  if maxResultBytes < (text (sortKeys a.value)).length then failed (pyStr "ValueError")
  else
    match a.value with
    | .obj assistance =>
      if a.named = false then failed (pyStr "ValueError")
      else
        match knowledgeStatus cfg assistance with
        | none => { unavailable (pyStr "invalid_knowledge_status") with knowledgeStatus := pyStr "rejected" }
        | some status => completeResult job assistance status
    | _ => failed (pyStr "AttributeError")

/-- How the reasoning about a job ends. -/
inductive Ended (F : Type) where
  | result (e : Envelope F)
  /-- `result` keeps what it was bound to. -/
  | unbound
  | exits

/-- The reasoning, which may be late when it has returned. -/
def explained (cfg : Config F) (job : Job F) (late : Bool) : Answer (Assistance F) → Ended F
  | .exits => .exits
  | .raised name => .result (failed name)
  | .returned a =>
    if late then .result (unavailable (pyStr "stale_job"))
    else match a.value with
      | .null => .unbound
      | _ => .result (assisted cfg job a)

/-! ## 2. The end of a job -/

variable [PyArith F]

def kReceipt : PyStr := pyStr "knowledge_context_response_advisory"

/-- The knowledge advisory of the assistance becomes one of its own. -/
def withKnowledge (job : Job F) (result : Envelope F) : Envelope F :=
  match result.advisory with
  | none => result
  | some advisory =>
    let projected := projectKnowledgeAdvisory (genText job.generation) (job.sourceTraceId.take 96)
      (getKey kReceipt advisory)
    { result with
      advisory := some (popKey kReceipt advisory)
      knowledgeAdvisory := projected.or result.knowledgeAdvisory }

/-- The generation, the trace id and the binding of the job, as far as they are missing. -/
def withBinding (job : Job F) (result : Envelope F) : Envelope F :=
  let result := { result with
    generation := genText job.generation
    traceId := job.sourceTraceId.take 96
    sourceContext := result.sourceContext.or (some job.sourceContext) }
  { result with
    handoffBinding := result.handoffBinding.or (some
      { status := sMatched
        generation := genText job.generation
        eventKey := job.sourceContext.eventKey
        edgeTraceId := result.edgeEvent.traceId.getD []
        edgeAction := result.edgeEvent.action
        edgeMode := result.edgeEvent.mode
        edgeResult := result.edgeEvent.result
        mioTraceId := []
        frameId := []
        valid := none }) }

/-- `valid` says whether the binding matches. -/
def withValid (result : Envelope F) : Envelope F :=
  { result with
    handoffBinding := result.handoffBinding.map fun binding =>
      if bindingMatches result then { binding with valid := some true }
      else { binding with status := pyStr "mismatch", valid := some false } }

/-- What `_run` makes of a result before it publishes it. -/
def finishJob (cfg : Config F) (job : Job F) (result : Envelope F) : Envelope F :=
  let result := withValid (withBinding job (withKnowledge job result))
  if maxResultBytes < result.size cfg.maxAge then
    { unavailable (pyStr "result_too_large") with
      edgeEvent := job.edgeEvent
      generation := genText job.generation
      traceId := job.sourceTraceId.take 96 }
  else result

end Jobs

/-! ## 3. The threads -/

/-- Where the caller of `submit` is that holds the lock. -/
inductive Submitting (F : Type) where
  | put (job : Job F)
  | takeBack (job : Job F)
  | putAgain (job : Job F)
  | publish (job : Job F) (accepted : Bool)

/-- Where the worker is. -/
inductive Worker (F : Type) where
  | starting
  | idle
  | took (job : Job F)
  | framed (job : Job F)
  | reasoning (job : Job F)
  | done (job : Job F) (result : Envelope F)
  | dead

structure State (F : Type) where
  generation : ℕ
  queue : Option (Job F)
  /-- The tasks of the queue that are not done. -/
  unfinished : ℕ
  lock : Option (Submitting F)
  result : Envelope F
  resultGeneration : ℕ
  /-- `_result_completed_monotonic` is set. -/
  completed : Bool
  frameSnapshot : Option (PyJson F)
  knowledgeInput : Option (Row F)
  /-- The package is there. -/
  core : Bool
  worker : Worker F
  /-- What the variable `result` of `_run` is bound to. -/
  carried : Option (Envelope F)

/-- A new instance. -/
def newState (F : Type) : State F where
  generation := 0
  queue := none
  unfinished := 0
  lock := none
  result := { unavailable (pyStr "starting") with status := pyStr "pending" }
  resultGeneration := 0
  completed := false
  frameSnapshot := none
  knowledgeInput := none
  core := false
  worker := .starting
  carried := none

/-- A step, and what comes from outside with it. -/
inductive Event (F : Type) where
  /-- The import of the package. -/
  | start (answer : Answer Unit)
  /-- The new generation of `submit`. -/
  | begin (event : Row F) (knowledge : Option (Row F))
  | put
  | takeBack
  | putAgain
  /-- The result of `submit`, and what it returns. -/
  | queued (answer : Envelope F)
  | take
  /-- The frame of a job, unless the job is late or there is no package. -/
  | frame (late : Bool) (answer : Answer Unit)
  /-- `frame.to_dict()`, where the generation is the latest. -/
  | publishFrame (generation : ℕ) (answer : Answer (PyJson F))
  | explain (late : Bool) (answer : Answer (Assistance F))
  | publish

section Steps

variable {F : Type} [PyFloat F] [PyRepr F] [PyConvert F] [PyArith F]

/-- The new generation: what belongs to the one before is cleared. -/
def State.beginning (s : State F) (event : Row F) (knowledge : Option (Row F)) : State F :=
  { s with
    generation := s.generation + 1
    frameSnapshot := none
    knowledgeInput := knowledge
    completed := false
    resultGeneration := s.generation + 1
    lock := some (.put (jobOf event (s.generation + 1))) }

/-- `put_nowait`; the caller goes on with `full` when the queue is full. -/
def State.putting (s : State F) (job : Job F) (full : Submitting F) : State F :=
  match s.queue with
  | none =>
    { s with queue := some job, unfinished := s.unfinished + 1, lock := some (.publish job true) }
  | some _ => { s with lock := some full }

/-- `get_nowait` and `task_done`, which raises when no task is unfinished. -/
def State.takingBack (s : State F) (job : Job F) : State F :=
  match s.queue with
  | none => { s with lock := some (.putAgain job) }
  | some _ =>
    if s.unfinished = 0 then { s with queue := none, lock := none }
    else { s with queue := none, unfinished := s.unfinished - 1, lock := some (.putAgain job) }

/-- The end of `submit`. -/
def State.queueing (s : State F) (job : Job F) (accepted : Bool) : State F :=
  { s with
    result := if accepted then queuedResult job else queueFull job
    resultGeneration := job.generation
    completed := false
    lock := none }

/-- The result of the job, which `result` is bound to from here on. -/
def State.finishing (s : State F) (cfg : Config F) (job : Job F) (result : Envelope F) : State F :=
  { s with
    worker := .done job (finishJob cfg job result)
    carried := some (finishJob cfg job result) }

/-- The end of the worker. -/
def State.dying (s : State F) : State F :=
  { s with worker := .dead, unfinished := s.unfinished - 1 }

/-- The age of the job and its frame. -/
def State.framing (s : State F) (cfg : Config F) (job : Job F) (late : Bool) (answer : Answer Unit) :
    State F :=
  if s.core = false then s.finishing cfg job (unavailable (pyStr "package_unavailable"))
  else if late then s.finishing cfg job (unavailable (pyStr "stale_job"))
  else match answer with
    | .returned () => { s with worker := .framed job }
    | .raised name => s.finishing cfg job (failed name)
    | .exits => s.dying

/-- The frame, if the generation is still the latest. -/
def State.publishingFrame (s : State F) (cfg : Config F) (job : Job F) (answer : Answer (PyJson F)) :
    State F :=
  if job.generation = s.generation then
    match answer with
    | .returned frame => { s with frameSnapshot := some frame, worker := .reasoning job }
    | .raised name => s.finishing cfg job (failed name)
    | .exits => s.dying
  else { s with worker := .reasoning job }

/-- The reasoning. -/
def State.explaining (s : State F) (cfg : Config F) (job : Job F) (late : Bool)
    (answer : Answer (Assistance F)) : State F :=
  match explained cfg job late answer with
  | .result e => s.finishing cfg job e
  | .unbound =>
    match s.carried with
    | some e => s.finishing cfg job e
    | none => s.dying
  | .exits => s.dying

/-- The publication, if the generation is still the latest, and `task_done`. -/
def State.publishing (s : State F) (job : Job F) (result : Envelope F) : State F :=
  let s := if job.generation = s.generation then
      { s with
        result := result
        resultGeneration := job.generation
        completed := decide (result.status = sComplete) }
    else s
  if s.unfinished = 0 then s.dying else { s with unfinished := s.unfinished - 1, worker := .idle }

/-- A step of a thread.  The lock has to be free where a thread takes it. -/
inductive Step (cfg : Config F) : State F → Event F → State F → Prop
  | start (s : State F) (answer : Answer Unit) : s.worker = .starting →
      Step cfg s (.start answer) (match answer with
        | .returned () => { s with worker := .idle, core := true }
        | .raised _ => { s with worker := .idle }
        | .exits => { s with worker := .dead })
  | begin (s : State F) (event : Row F) (knowledge : Option (Row F)) : s.lock = none →
      Step cfg s (.begin event knowledge) (s.beginning event knowledge)
  | put (s : State F) (job : Job F) : s.lock = some (.put job) →
      Step cfg s .put (s.putting job (.takeBack job))
  | takeBack (s : State F) (job : Job F) : s.lock = some (.takeBack job) →
      Step cfg s .takeBack (s.takingBack job)
  | putAgain (s : State F) (job : Job F) : s.lock = some (.putAgain job) →
      Step cfg s .putAgain (s.putting job (.publish job false))
  | queued (s : State F) (job : Job F) (accepted : Bool) : s.lock = some (.publish job accepted) →
      Step cfg s (.queued (receipt job accepted)) (s.queueing job accepted)
  | take (s : State F) (job : Job F) : s.worker = .idle → s.queue = some job →
      Step cfg s .take { s with queue := none, worker := .took job }
  | frame (s : State F) (job : Job F) (late : Bool) (answer : Answer Unit) : s.worker = .took job →
      Step cfg s (.frame late answer) (s.framing cfg job late answer)
  | publishFrame (s : State F) (job : Job F) (answer : Answer (PyJson F)) : s.worker = .framed job →
      s.lock = none →
      Step cfg s (.publishFrame job.generation answer) (s.publishingFrame cfg job answer)
  | explain (s : State F) (job : Job F) (late : Bool) (answer : Answer (Assistance F)) :
      s.worker = .reasoning job →
      Step cfg s (.explain late answer) (s.explaining cfg job late answer)
  | publish (s : State F) (job : Job F) (result : Envelope F) : s.worker = .done job result →
      s.lock = none → Step cfg s .publish (s.publishing job result)

/-! ## 4. Readers -/

/-- `_knowledge_advisory_current` and the binding. -/
def knowledgeShown (result : Envelope F) (isCurrent : Bool) : Bool :=
  match result.knowledgeAdvisory with
  | none => false
  | some advisory =>
    isCurrent && decide (result.status = sComplete) && decide (result.traceId ≠ []) &&
      isStr result.generation (getKey (pyStr "generation") advisory) &&
      isStr result.traceId (getKey kTraceId advisory) && bindingMatches result

/-- `snapshot`, and whether it is current. -/
def snapshot (s : State F) (late : Bool) : Envelope F × Bool :=
  let isCurrent := decide (s.result.status = sComplete) &&
    decide (s.result.generation = genText s.generation) && s.completed && !late
  if knowledgeShown s.result isCurrent then (s.result, isCurrent)
  else ({ s.result with knowledgeAdvisory := none }, isCurrent)

/-- `frame_snapshot`. -/
def frameSnapshotOf (s : State F) (generation : PyStr) : Option (PyJson F) :=
  if generation ≠ genText s.generation then none else s.frameSnapshot

end Steps

end AzazelEdge.Mio.Live
