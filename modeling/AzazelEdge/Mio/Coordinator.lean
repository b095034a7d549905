/-
# Reasoning cycles

`ReasoningCoordinator` of `lifecycle.py`: it hands out a ticket for every frame that says something
new of a trace, and decides which finished cycle may become the current advisory of its trace.

Every method of the source runs under one lock, so a system of many callers is a run of the methods
below, one after another in any order.  `broker.close()` is written down in `closed`.
-/
import AzazelEdge.Audit.Ends
import AzazelEdge.Mio.Lifecycle

namespace AzazelEdge.Mio

open AzazelEdge.Lib AzazelEdge.Lib.Py
open AzazelEdge.Audit (Row)
open AzazelEdge.Outcome (distinct)

/-! ## 1. Cycles and tickets -/

/-- `CycleStatus`. -/
inductive CycleStatus where
  | inFlight | accepted | superseded | cancelled | abandonedOnRestart | restoredStale
  deriving DecidableEq

instance : Vocabulary CycleStatus where
  all := [.inFlight, .accepted, .superseded, .cancelled, .abandonedOnRestart, .restoredStale]
  text
    | .inFlight => "in_flight"
    | .accepted => "accepted"
    | .superseded => "superseded"
    | .cancelled => "cancelled"
    | .abandonedOnRestart => "abandoned_on_restart"
    | .restoredStale => "restored_stale"
  complete a := by cases a <;> decide
  injective a b := by cases a <;> cases b <;> decide

/-- `STALE_RESULT_REASONS`. -/
inductive StaleReason where
  | preRestart | unknownOrEvicted | ticketMismatch | superseded | cancelled | alreadyCompleted
  deriving DecidableEq

instance : Vocabulary StaleReason where
  all := [.preRestart, .unknownOrEvicted, .ticketMismatch, .superseded, .cancelled,
    .alreadyCompleted]
  text
    | .preRestart => "stale_pre_restart_cycle"
    | .unknownOrEvicted => "stale_unknown_or_evicted_cycle"
    | .ticketMismatch => "stale_ticket_mismatch"
    | .superseded => "stale_cycle_superseded"
    | .cancelled => "stale_cycle_cancelled"
    | .alreadyCompleted => "stale_cycle_already_completed"
  complete a := by cases a <;> decide
  injective a b := by cases a <;> cases b <;> decide

/-- `CycleTicket`. -/
structure CycleTicket where
  traceId : PyStr
  cycleId : PyStr
  epoch : ℤ
  frameId : PyStr
  materialDigest : PyStr
  deduplicated : Bool := false
  deriving DecidableEq

/-- `_same_cycle`. -/
def SameCycle (ticket own : CycleTicket) : Prop :=
  (ticket.cycleId, ticket.traceId, ticket.epoch, ticket.frameId, ticket.materialDigest) =
    (own.cycleId, own.traceId, own.epoch, own.frameId, own.materialDigest)

instance (ticket own : CycleTicket) : Decidable (SameCycle ticket own) :=
  inferInstanceAs (Decidable (_ = _))

/-- `_Cycle`. -/
structure Cycle where
  ticket : CycleTicket
  status : CycleStatus
  outcomeState : PyStr := []
  advisoryId : PyStr := []
  discards : ℕ := 0
  deriving DecidableEq

/-- The latest cycle of a trace once a new one takes its place. -/
def Cycle.displaced (old : Cycle) : Cycle :=
  if old.status = .inFlight then { old with status := .superseded } else old

/-- A cycle that the operator cancelled. -/
def Cycle.cancelled (cycle : Cycle) : Cycle := { cycle with status := .cancelled }

/-- A cycle for which one more result was discarded. -/
def Cycle.refused (cycle : Cycle) : Cycle := { cycle with discards := cycle.discards + 1 }

/-- What `begin` reads of a `MioSituationFrame`; `digest` is its `material_frame_digest`. -/
structure Frame where
  traceId : PyStr
  frameId : PyStr
  digest : PyStr
  deriving DecidableEq

/-- What `complete` reads of an outcome; `advisoryId` is empty without a recommendation. -/
structure CycleOutcome where
  state : PyStr
  hypotheses : List MioHypothesis := []
  advisoryId : PyStr := []
  deriving DecidableEq

/-- A cycle whose outcome was accepted. -/
def Cycle.settledBy (cycle : Cycle) (outcome : CycleOutcome) : Cycle :=
  { cycle with
    status := .accepted, outcomeState := outcome.state.take 64
    advisoryId := outcome.advisoryId.take 192 }

/-- `CompletionResult`. -/
structure CompletionResult where
  accepted : Bool
  cycleStatus : PyStr
  reason : PyStr
  outcome : Option CycleOutcome := none
  deriving DecidableEq

/-! ## 2. Hypotheses of a dead cycle -/

/-- `supersede_all`. -/
def supersedeAll (hypotheses : List MioHypothesis) (reason : PyStr) : List HypothesisAuditEntry :=
  (hypotheses.filter (·.status ∉ terminalHypothesisStatuses)).map fun h =>
    { hypothesisId := h.hypothesisId, fromStatus := word h.status
      toStatus := word HypothesisStatus.superseded, reason
      evidenceRefs := distinct (h.supportingEvidenceRefs ++ h.contradictingEvidenceRefs)
      falsificationConditions := h.falsificationConditions, statement := h.statement }

section Audit

variable {F : Type}

/-- `HypothesisAuditEntry.to_dict`. -/
def HypothesisAuditEntry.toDict (e : HypothesisAuditEntry) : PyJson F :=
  .obj [(pyStr "hypothesis_id", .str e.hypothesisId), (pyStr "from_status", .str e.fromStatus),
    (pyStr "to_status", .str e.toStatus), (pyStr "reason", .str e.reason),
    (pyStr "evidence_refs", .arr (e.evidenceRefs.map .str)),
    (pyStr "falsification_conditions", .arr (e.falsificationConditions.map .str)),
    (pyStr "statement", .str e.statement)]

/-! ## 3. The audit log -/

variable [PyFloat F] [PyRepr F]

/-- `_bound`, where `levels` more levels of lists and dicts are kept. -/
def bound : ℕ → PyJson F → PyJson F
  | _, .null => .null
  | _, .bool b => .bool b
  | _, .int n => .int n
  | _, .str s => .str (s.take 160)
  | levels + 1, .obj members =>
    .obj (pyDict ((members.take 16).map fun item => (item.1.take 64, bound levels item.2)))
  | levels + 1, .arr items => .arr ((items.take 8).map (bound levels))
  | _, value => .str ((strOf value).take 160)

/-- `_bound` of a row. -/
def boundRow (row : Row F) : Row F :=
  pyDict ((row.take 16).map fun item => (item.1.take 64, bound 2 item.2))

/-- `_audit`, `_audit_seq` and `_audit_dropped`. -/
structure Trail (F : Type) where
  rows : List (Row F) := []
  seq : ℤ := 0
  dropped : ℕ := 0

/-- The row is put at the end; the first one goes when there are more than `maxAudit`. -/
def Trail.push (trail : Trail F) (maxAudit : ℕ) (row : Row F) : Trail F :=
  if maxAudit < (trail.rows ++ [row]).length then
    { rows := (trail.rows ++ [row]).tail, seq := trail.seq + 1, dropped := trail.dropped + 1 }
  else { trail with rows := trail.rows ++ [row], seq := trail.seq + 1 }

/-- The number of a row. -/
def seqOf (row : Row F) : Option ℤ :=
  match getKey (pyStr "seq") row with
  | some (.int n) => some n
  | _ => none

/-- A row has an event. -/
def hasEvent (row : Row F) : Bool :=
  match getKey (pyStr "event") row with
  | some (.str _) => true
  | _ => false

/-- What a row says of a cycle. -/
def Cycle.fields (cycle : Cycle) : Row F :=
  [(pyStr "trace_id", .str cycle.ticket.traceId), (pyStr "cycle_id", .str cycle.ticket.cycleId),
    (pyStr "frame_id", .str cycle.ticket.frameId), (pyStr "cycle_status", .str (word cycle.status))]

/-- The row of an event; the fields of the event are put over the others. -/
def eventRow (seq : ℤ) (epoch : ℕ) (event : String) (cycle : Option Cycle) (fields : Row F) : Row F :=
  boundRow (pyDict ([(pyStr "seq", .int seq), (pyStr "epoch", .int epoch),
    (pyStr "event", .str (pyStr event))] ++ (cycle.map Cycle.fields).getD [] ++ fields))

end Audit

/-! ## 4. The coordinator -/

/-- The id of a cycle. -/
def cycleIdOf (traceId : PyStr) (epoch number : ℕ) : PyStr :=
  traceId ++ pyStr ":e" ++ ofText (natText epoch) ++ pyStr ":c" ++ ofText (natText number)

/-- The bounds that a coordinator is made with, each `max(1, int(..))`. -/
structure Limits where
  maxTraces : ℕ := 64
  maxRetained : ℕ := 256
  maxAudit : ℕ := 512
  traces_pos : 0 < maxTraces := by decide
  retained_pos : 0 < maxRetained := by decide
  audit_pos : 0 < maxAudit := by decide

/-- `ReasoningCoordinator`. -/
structure Coordinator (F : Type) where
  limits : Limits
  epoch : ℕ := 0
  nextCycle : ℕ := 1
  cycles : List (PyStr × Cycle) := []
  latest : List (PyStr × PyStr) := []
  current : List (PyStr × CycleOutcome) := []
  trail : Trail F := {}
  unattributed : List (PyStr × ℕ) := []
  brokers : List (PyStr × ℕ) := []
  closed : List ℕ := []

namespace Coordinator

variable {F : Type} [PyFloat F] [PyRepr F] (c : Coordinator F)

/-- `_log`. -/
def log (event : String) (cycle : Option Cycle) (fields : Row F) : Coordinator F :=
  { c with
    trail := c.trail.push c.limits.maxAudit (eventRow (c.trail.seq + 1) c.epoch event cycle fields) }

/-- The cycle of a record changes. -/
def put (cycle : Cycle) : Coordinator F :=
  { c with cycles := setKey cycle.ticket.cycleId cycle c.cycles }

/-- The cycle that `_latest` has of a trace. -/
def latestCycle (traceId : PyStr) : Option Cycle :=
  (getKey traceId c.latest).bind fun id => if id = [] then none else getKey id c.cycles

/-- The number of cycles in flight. -/
def inFlight : ℕ := c.cycles.countP (·.2.status = .inFlight)

/-- The cycles that are not in flight, oldest first. -/
def finished : List Cycle := (c.cycles.map Prod.snd).filter (·.status ≠ .inFlight)

/-- `_close_broker`. -/
def closeBroker (cycleId : PyStr) : Coordinator F :=
  match getKey cycleId c.brokers with
  | some broker => { c with brokers := popKey cycleId c.brokers, closed := c.closed ++ [broker] }
  | none => c

/-- The trace of an evicted cycle that was its latest has neither a latest cycle nor a current
advisory. -/
def forget (cycle : Cycle) : Coordinator F :=
  let c' := { c with latest := popKey cycle.ticket.traceId c.latest
                     current := popKey cycle.ticket.traceId c.current }
  if (getKey cycle.ticket.traceId c.current).isSome then
    c'.log "current_advisory_evicted" (some cycle) []
  else c'

/-- The loop of `_prune`, at one cycle. -/
def evict (cycle : Cycle) : Coordinator F :=
  let c' := { c with cycles := popKey cycle.ticket.cycleId c.cycles }
  (if getKey cycle.ticket.traceId c.latest = some cycle.ticket.cycleId then c'.forget cycle
    else c').log "cycle_evicted" (some cycle) []

/-- `_prune`. -/
def prune : Coordinator F :=
  (c.finished.take (c.finished.length - c.limits.maxRetained)).foldl evict c

/-! ### Opening a cycle -/

/-- The ticket of a new cycle. -/
def mint (frame : Frame) : CycleTicket :=
  { traceId := frame.traceId, cycleId := cycleIdOf frame.traceId c.epoch c.nextCycle
    epoch := c.epoch, frameId := frame.frameId, materialDigest := frame.digest }

/-- The latest cycle, if it is in flight, makes way for a new one. -/
def supersede (old : Cycle) (cycleId : PyStr) : Coordinator F :=
  if old.status = .inFlight then
    ((c.put old.displaced).log "cycle_superseded" (some old.displaced)
      [(pyStr "superseded_by", .str cycleId)]).closeBroker old.ticket.cycleId
  else c

/-- The current advisory was of another material situation, and goes. -/
def retire (old : Cycle) (frame : Frame) (cycleId : PyStr) : Coordinator F :=
  if (getKey frame.traceId c.current).isSome ∧ old.ticket.materialDigest ≠ frame.digest then
    { c with current := popKey frame.traceId c.current }.log "current_advisory_retired"
      (some old.displaced) [(pyStr "superseded_by", .str cycleId)]
  else c

/-- What becomes of the latest cycle of a trace before a new one is opened. -/
def makeWay (old : Cycle) (frame : Frame) : Coordinator F :=
  (c.supersede old (c.mint frame).cycleId).retire old frame (c.mint frame).cycleId

/-- The new cycle is recorded, as the latest of its trace. -/
def record (ticket : CycleTicket) : Coordinator F :=
  { c with
    nextCycle := c.nextCycle + 1
    cycles := setKey ticket.cycleId { ticket, status := .inFlight } c.cycles
    latest := setKey ticket.traceId ticket.cycleId c.latest }

/-- The new cycle. -/
def start (ticket : CycleTicket) : Coordinator F :=
  ((c.record ticket).log "cycle_started" (some { ticket, status := .inFlight })
    [(pyStr "material_digest", .str ticket.materialDigest)]).prune

/-- The latest cycle of a trace is in flight. -/
def busy (traceId : PyStr) : Bool := (c.latestCycle traceId).any (·.status = .inFlight)

/-- `begin`; no ticket when it raises for backpressure. -/
def begin (frame : Frame) : Coordinator F × Option CycleTicket :=
  match (c.latestCycle frame.traceId).filter
      fun old => old.status = .inFlight ∧ old.ticket.materialDigest = frame.digest with
  | some old =>
    (c.log "frame_not_material" (some old) [(pyStr "new_frame_id", .str frame.frameId)],
      some { old.ticket with deduplicated := true })
  | none =>
    if ¬ c.busy frame.traceId ∧ c.limits.maxTraces ≤ c.inFlight then
      (c.log "begin_rejected_backpressure" none
        [(pyStr "trace_id", .str frame.traceId), (pyStr "frame_id", .str frame.frameId)], none)
    else
      match c.latestCycle frame.traceId with
      | some old => ((c.makeWay old frame).start (c.mint frame), some (c.mint frame))
      | none => (c.start (c.mint frame), some (c.mint frame))

/-! ### Ending a cycle -/

/-- `cancel`. -/
def cancel (traceId reason : PyStr) : Coordinator F × Bool :=
  match (getKey ((getKey traceId c.latest).getD []) c.cycles).filter (·.status = .inFlight) with
  | some cycle =>
    ((((c.put cycle.cancelled).log "cycle_cancelled" (some cycle.cancelled)
      [(pyStr "reason", .str (reason.take 64))]).closeBroker cycle.ticket.cycleId).prune, true)
  | none => (c, false)

/-- `_stale_reason` of a well-typed ticket: the cycle it may complete, or the reason why not and the
status to report. -/
def staleReason (ticket : CycleTicket) (cycle : Option Cycle) : Except (StaleReason × PyStr) Cycle :=
  if cycle.any fun cycle => ¬ SameCycle ticket cycle.ticket then
    .error (.ticketMismatch, pyStr "unknown")
  else if ticket.epoch < c.epoch then .error (.preRestart, word CycleStatus.abandonedOnRestart)
  else
    match cycle.filter fun _ => ticket.epoch = c.epoch with
    | none => .error (.unknownOrEvicted, pyStr "unknown")
    | some cycle =>
      match cycle.status with
      | .inFlight => .ok cycle
      | .cancelled => .error (.cancelled, word cycle.status)
      | .accepted => .error (.alreadyCompleted, word cycle.status)
      | .abandonedOnRestart | .restoredStale => .error (.preRestart, word cycle.status)
      | .superseded => .error (.superseded, word cycle.status)

/-- A result that cannot be tied to a recorded cycle is counted. -/
def count (reason : StaleReason) : Coordinator F :=
  { c with unattributed :=
      setKey (word reason) ((getKey (word reason) c.unattributed).getD 0 + 1) c.unattributed }

/-- The row of a result that is discarded. -/
def discardFields (ticket : CycleTicket) (outcome : CycleOutcome) (reason : StaleReason) : Row F :=
  [(pyStr "reason", .str (word reason)), (pyStr "ticket_epoch", .int ticket.epoch),
    (pyStr "outcome_state", .str outcome.state), (pyStr "advisory_id", .str outcome.advisoryId),
    (pyStr "hypotheses", .arr ((supersedeAll (outcome.hypotheses.take 6)
      (if reason = .cancelled then pyStr "cycle_cancelled_by_operator"
        else pyStr "cycle_superseded_by_newer_frame")).map HypothesisAuditEntry.toDict))]

/-- A result for a recorded cycle that is not taken; only the first one is written down. -/
def discard (cycle : Cycle) (ticket : CycleTicket) (outcome : CycleOutcome) (reason : StaleReason) :
    Coordinator F :=
  if cycle.refused.discards = 1 then
    (c.put cycle.refused).log "stale_result_discarded" (some cycle.refused)
      (discardFields ticket outcome reason)
  else c.put cycle.refused

/-- The result becomes the current advisory of its trace. -/
def accept (cycle : Cycle) (outcome : CycleOutcome) : Coordinator F :=
  ({ c.put (cycle.settledBy outcome) with
      current := setKey cycle.ticket.traceId outcome c.current }.log
    "result_accepted" (some (cycle.settledBy outcome))
    [(pyStr "outcome_state", .str outcome.state), (pyStr "advisory_id", .str outcome.advisoryId)]).prune

/-- `complete`; `none` is a ticket that is not `_well_typed`. -/
def complete (ticket : Option CycleTicket) (outcome : CycleOutcome) :
    Coordinator F × CompletionResult :=
  match ticket with
  | none =>
    (c.count .ticketMismatch,
      { accepted := false, cycleStatus := pyStr "unknown", reason := word StaleReason.ticketMismatch })
  | some ticket =>
    let cycle := getKey ticket.cycleId c.cycles
    match c.staleReason ticket cycle with
    | .ok cycle =>
      (c.accept cycle outcome,
        { accepted := true, cycleStatus := word CycleStatus.accepted, reason := pyStr "current"
          outcome := some outcome })
    | .error (reason, status) =>
      ((match cycle.filter fun cycle => SameCycle ticket cycle.ticket with
        | some cycle => c.discard cycle ticket outcome reason
        | none => c.count reason),
        { accepted := false, cycleStatus := status, reason := word reason })

/-! ### Reading, and the brokers -/

/-- `_status` of a well-typed ticket. -/
def statusOf (ticket : CycleTicket) : Option CycleStatus :=
  (getKey ticket.cycleId c.cycles).bind fun cycle =>
    if ticket.epoch = c.epoch ∧ SameCycle ticket cycle.ticket then some cycle.status else none

/-- `is_current`. -/
def isCurrent (ticket : CycleTicket) : Bool := c.statusOf ticket = some .inFlight

/-- What `cancel_check` gives a loop to call. -/
def cancelCheck (ticket : CycleTicket) : Bool := c.statusOf ticket = some .cancelled

/-- What `stale_check` gives a loop to call. -/
def staleCheck (ticket : CycleTicket) : Bool :=
  c.statusOf ticket ≠ some .inFlight ∧ c.statusOf ticket ≠ some .cancelled

/-- `_attach_broker`. -/
def attachBroker (ticket : CycleTicket) (broker : ℕ) : Coordinator F :=
  let c' := { c with brokers := setKey ticket.cycleId broker c.brokers }
  if (getKey ticket.cycleId c.cycles).any (·.status = .inFlight) then c'
  else c'.closeBroker ticket.cycleId

/-- `_detach_broker`. -/
def detachBroker (ticket : CycleTicket) : Coordinator F := c.closeBroker ticket.cycleId

end Coordinator

end AzazelEdge.Mio
