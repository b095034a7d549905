/-
# The recorder of core decisions

`CoreDecisionRecorder` (`core_decisions.py`) over the logger of its chain: submissions, the queue
between the agent's threads and the writer thread, the startup reconcile, loss recovery, and each
record that is written.

A pass over the core's log is a step that leaves its decisions to be recorded (`work`), and each of
them is recorded by a step of its own, so that a process can die at any of them.  The counters and
the status records that are made of them are left out.
-/
import AzazelEdge.Decision.Payload
import AzazelEdge.Audit.Logger
import AzazelEdge.Lib.Recent

namespace AzazelEdge.Decision

open AzazelEdge.Lib AzazelEdge.Lib.Py AzazelEdge.Lib.Recent AzazelEdge.Audit

variable {F : Type} [PyFloat F] [PyRepr F] [PyTime F]

/-! ## 1. The recorder -/

/-- `_SEEN_MAX`. -/
def seenMax : ℕ := 65536

/-- The parameters of a recorder. -/
structure Config (F : Type) where
  maxPending : ℕ+
  reconcileMaxBytes : ℕ
  chainKeyMaxBytes : ℕ
  maxReconcile : ℕ
  reconcileMaxAge : F
  lossRecoverInterval : F
  maxLost : ℕ+

/-- What a recorder knows.  `work` is what its thread has in hand. -/
structure Recorder (F : Type) where
  seen : List PyStr
  pending : List (Entry F)
  lost : List PyStr
  /-- `_last_loss_pass`; none before the first. -/
  lastLossPass : Option F
  running : Bool
  work : List (Entry F)

/-- A recorder before its thread is started. -/
def newRecorder (F : Type) : Recorder F := ⟨[], [], [], none, false, []⟩

/-- A process: its recorder and the logger of its chain. -/
structure Process (F : Type) where
  config : Config F
  host : Host
  recorder : Recorder F

/-! ## 2. Reading the chain and the core's log -/

section Read

variable (wide : Text → Option Text)

variable (F) in
/-- The core event key on a line of the chain. -/
def chainKey (line : Text) : Option PyStr :=
  (loadsDict wide line : Option (Row F)).bind fun row => nonempty? (getKey kEventKey row)

/-- The core's ingest epoch on a line that has a key. -/
def chainEpoch (line : Text) : Option F :=
  (loadsDict wide line : Option (Row F)).bind fun row =>
    (nonempty? (getKey kEventKey row)).bind fun _ => finiteEpoch (getKey kIngestEpoch row)

/-- The earlier of two epochs. -/
def earlier (oldest : Option F) (epoch : F) : Option F :=
  match oldest with
  | none => some epoch
  | some oldest => if less (.inr epoch) (.inr oldest) then some epoch else some oldest

/-- What `_chain_keys` returns, but for the newest key. -/
structure Window (F : Type) where
  complete : Bool
  oldest : Option F

/-- `_chain_keys` of a snapshot of the chain. -/
def chainWindow (snapshot : Snapshot) : Window F :=
  { complete := !(snapshot.truncated || snapshot.anchored)
    oldest := (snapshot.lines.filterMap (chainEpoch wide)).foldl earlier none }

/-- The lines that `_tail_lines` returns. -/
def tailLines (maxBytes : ℕ) (file : Text) : List Text :=
  let start := file.length - maxBytes
  let lines := completeLines nl (file.drop start)
  if 0 < start then lines.drop 1 else lines

/-- The lines of the core's log; none when there is no file that can be read. -/
def logLines (maxBytes : ℕ) (log : Option Text) : List Text :=
  match log with
  | some file => tailLines maxBytes file
  | none => []

variable (sha : Text → PyStr)

/-- The payload of a line of the core's log. -/
def linePayload (line : Text) : Option (Payload F) :=
  (loadsDict wide line).bind (coreDecisionPayload sha)

/-- The part of the chain that was read does not tell whether the event is recorded. -/
def outOfWindow (window : Window F) (p : Payload F) : Bool :=
  match window.complete, window.oldest with
  | false, some oldest =>
    match p.ingestEpoch with
    | none => true
    | some epoch => less (.inr epoch) (.inr oldest)
  | _, _ => false

/-- `candidates[skipped:]`. -/
def newest (maxReconcile : ℕ) (candidates : List (Entry F)) : List (Entry F) :=
  candidates.drop (candidates.length - maxReconcile)

/-- The decisions that `reconcile` records. -/
def reconcileWork (config : Config F) (seen : List PyStr) (window : Window F) (log : Option Text)
    (now : F) : List (Entry F) :=
  newest config.maxReconcile <|
    (logLines config.reconcileMaxBytes log).filterMap fun line =>
      match (linePayload wide sha line : Option (Payload F)) with
      | none => none
      | some p =>
        if !isP0 p || p.key ∈ seen then none
        else if outOfWindow window p then none
        else some ⟨p, .startupReconcile (markStale config.reconcileMaxAge p now)⟩

/-- The first payload of each wanted key. -/
def firstFound (wanted : List PyStr) : List (Payload F) → List (Payload F) → List (Payload F)
  | found, [] => found
  | found, p :: ps =>
    if p.key ∈ wanted ∧ p.key ∉ found.map Payload.key ∧ isP0 p = true then
      firstFound wanted (found ++ [p]) ps
    else firstFound wanted found ps

/-- The decisions that `recover_losses` records. -/
def lossWork (config : Config F) (seen lost : List PyStr) (log : Option Text) (now : F) :
    List (Entry F) :=
  newest config.maxReconcile <|
    ((firstFound lost []
      ((logLines config.reconcileMaxBytes log).filterMap (linePayload wide sha))).filter
        fun p => p.key ∉ seen).map
      fun p => ⟨p, .lossReconcile (markStale config.reconcileMaxAge p now)⟩

end Read

/-! ## 3. The call of the logger -/

omit [PyFloat F] [PyRepr F] [PyTime F] in
theorem entry_keys (e : Entry F) : (e.items.map Prod.fst).Nodup ∧
    ∀ key ∈ parameters, key ∉ e.items.map Prod.fst := by
  obtain ⟨p, recordedBy⟩ := e
  rcases recordedBy with ⟨ns, epoch⟩ | (- | age) | (- | age) <;>
    simp only [Entry.items, Payload.items, RecordedBy.items, staleItems, List.cons_append,
      List.nil_append, List.map_cons, List.map_nil] <;>
    exact ⟨by simp, by decide +kernel⟩

/-- `log_action_decision(trace_id, source, **payload)`. -/
def Entry.call (e : Entry F) (ts : PyStr) : Call F where
  kind := pyStr "action_decision"
  traceId := e.traceId
  source := coreDecisionSource
  payload := e.items
  ts := ts
  payload_nodup := (entry_keys e).1
  payload_free := (entry_keys e).2

/-! ## 4. Steps -/

/-- What happens. -/
inductive Event (F : Type) where
  /-- A core event is handed to `submit`. -/
  | submit (event : PyJson F) (monotonicNs : ℤ) (epoch : F)
  /-- The thread is started and reads the chain, if it can, and the core's log. -/
  | reconcile (readable : Bool) (log : Option Text) (now : F)
  | lossPass (log : Option Text) (monotonic now : F)
  /-- The thread takes a decision from the queue. -/
  | take
  /-- It records the decision that it has in hand. -/
  | record (ts : PyStr) (a : Answers)
  /-- The thread ends. -/
  | stop
  | restart (config : Config F) (maxBytes : Option ℕ+)
  /-- The process dies while it records a decision, and another one starts. -/
  | crash (ts : PyStr) (a : Answers) (point : CrashPoint) (config : Config F) (maxBytes : Option ℕ+)

section Step

variable (reprOf : PyValue F → PyStr) (sha : Text → PyStr) (wide : Text → Option Text)

/-- The decision of an event that `submit` takes. -/
def submitted (event : PyJson F) (monotonicNs : ℤ) (epoch : F) : Option (Entry F) :=
  match event with
  | .obj members =>
    match coreDecisionPayload sha members with
    | some p => if isP0 p then some ⟨p, .live monotonicNs epoch⟩ else none
    | none => none
  | _ => none

/-- The hand-off. -/
def handOff (config : Config F) (r : Recorder F) (entry : Entry F) : Recorder F :=
  if r.pending.length < config.maxPending then { r with pending := r.pending ++ [entry] }
  else { r with lost := put config.maxLost r.lost entry.key }

/-- The lines of the chain that `_chain_keys` reads. -/
def readLines (p : Process F) : Snapshot :=
  readChain F wide p.host.dir (some p.config.chainKeyMaxBytes)

/-- The keys on some lines. -/
def keysOf (lines : List Text) : List PyStr := lines.filterMap (chainKey F wide)

/-- A loss pass is due. -/
def lossDue (p : Process F) (monotonic : F) : Bool :=
  p.recorder.running && p.recorder.work.isEmpty && !p.recorder.lost.isEmpty &&
    decide (p.recorder.pending.length ≤ (p.config.maxPending : ℕ) / 2) &&
    match p.recorder.lastLossPass with
    | some last => !less (.inr (PyTime.sub monotonic last)) (.inr p.config.lossRecoverInterval)
    | none => true

/-- The decision in hand, when `_record` is going to log it. -/
def toLog (r : Recorder F) : Option (Entry F) :=
  match r.work with
  | entry :: _ => if entry.key ≠ [] ∧ entry.key ∈ r.seen then none else some entry
  | [] => none

/-- `_remember`. -/
def remember (r : Recorder F) (key : PyStr) : Recorder F :=
  if key = [] then r else { r with seen := put seenMax r.seen key }

/-- A process that starts on a directory. -/
def newProcess (config : Config F) (maxBytes : Option ℕ+) (dir : Dir) : Process F :=
  ⟨config, start (F := F) wide maxBytes dir, newRecorder F⟩

/-- What the logger does with a decision. -/
def logged (p : Process F) (entry : Entry F) (ts : PyStr) (a : Answers) :
    Dir × Logger × Outcome F :=
  log reprOf sha p.host.logger p.host.dir (entry.call ts) a

def step (p : Process F) : Event F → Process F
  | .submit event monotonicNs epoch =>
    match submitted sha event monotonicNs epoch with
    | some entry => { p with recorder := handOff p.config p.recorder entry }
    | none => p
  | .reconcile readable log now =>
    let r := p.recorder
    if r.running ∨ r.work ≠ [] then p
    else if readable then
      let snapshot := readLines wide p
      let seen := (keysOf (F := F) wide snapshot.lines).foldl (put seenMax) r.seen
      { p with recorder :=
          { r with
            seen := seen
            running := true
            work := reconcileWork wide sha p.config seen (chainWindow wide snapshot) log now } }
    else { p with recorder := { r with running := true } }
  | .lossPass log monotonic now =>
    if lossDue p monotonic then
      { p with recorder :=
          { p.recorder with
            lost := []
            lastLossPass := some monotonic
            work := lossWork wide sha p.config p.recorder.seen p.recorder.lost log now } }
    else p
  | .take =>
    match p.recorder.running, p.recorder.work, p.recorder.pending with
    | true, [], entry :: pending =>
      { p with recorder := { p.recorder with work := [entry], pending := pending } }
    | _, _, _ => p
  | .record ts a =>
    match toLog p.recorder with
    | none => { p with recorder := { p.recorder with work := p.recorder.work.drop 1 } }
    | some entry =>
      let result := logged reprOf sha p entry ts a
      let r := { p.recorder with work := p.recorder.work.drop 1 }
      { p with
        host := ⟨result.2.1, result.1⟩
        recorder := if result.2.2.record?.isSome then remember r entry.key else r }
  | .stop =>
    if p.recorder.running ∧ p.recorder.work = [] ∧ p.recorder.pending = [] then
      { p with recorder := { p.recorder with running := false } }
    else p
  | .restart config maxBytes => newProcess wide config maxBytes p.host.dir
  | .crash ts a point config maxBytes =>
    match toLog p.recorder with
    | none => p
    | some entry =>
      newProcess wide config maxBytes
        (crashDir sha p.host.logger p.host.dir (entry.call ts) a point)

end Step

end AzazelEdge.Decision
