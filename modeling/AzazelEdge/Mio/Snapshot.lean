/-
# The coordinator across a restart

`snapshot`, `_validate_snapshot` and `restore` of `ReasoningCoordinator`.
-/
import AzazelEdge.Mio.Coordinator

namespace AzazelEdge.Mio

open AzazelEdge.Lib AzazelEdge.Lib.Py
open AzazelEdge.Audit (Row)

/-! ## 1. The image -/

/-- What `restore` raises: the `ValueError`s of `_validate_snapshot`, and the `KeyError` of an audit
row that has its number behind the members that are kept. -/
inductive SnapshotError where
  | malformed | unsupported | cycleEpoch | duplicateCycle | inconsistentLatest | missingSeq
  deriving DecidableEq

instance : Vocabulary SnapshotError where
  all := [.malformed, .unsupported, .cycleEpoch, .duplicateCycle, .inconsistentLatest, .missingSeq]
  text
    | .malformed => "malformed_coordinator_snapshot"
    | .unsupported => "unsupported_coordinator_snapshot"
    | .cycleEpoch => "invalid_cycle_epoch_in_snapshot"
    | .duplicateCycle => "duplicate_cycle_in_snapshot"
    | .inconsistentLatest => "inconsistent_latest_in_snapshot"
    | .missingSeq => "seq"
  complete a := by cases a <;> decide
  injective a b := by cases a <;> cases b <;> decide

/-- `COORDINATOR_SNAPSHOT_SCHEMA`. -/
def coordinatorSnapshotSchema : PyStr := pyStr "mio.reasoning_coordinator.v1"

/-- `_SNAPSHOT_KEYS`. -/
def snapshotKeys : List PyStr :=
  [pyStr "schema", pyStr "epoch", pyStr "next_cycle", pyStr "latest", pyStr "cycles",
    pyStr "audit", pyStr "audit_dropped"]

/-- `_CYCLE_KEYS_LEGACY`. -/
def cycleKeysLegacy : List PyStr :=
  [pyStr "cycle_id", pyStr "trace_id", pyStr "epoch", pyStr "frame_id", pyStr "material_digest",
    pyStr "status", pyStr "outcome_state", pyStr "advisory_id"]

/-- `_CYCLE_KEYS`. -/
def cycleKeys : List PyStr := cycleKeysLegacy ++ [pyStr "discards"]

/-- A cycle after the restart. -/
def Cycle.closed (cycle : Cycle) : Cycle :=
  match cycle.status with
  | .inFlight => { cycle with status := .abandonedOnRestart }
  | .accepted => { cycle with status := .restoredStale }
  | _ => cycle

/-- What a snapshot says, once it is found valid. -/
structure Snapshot (F : Type) where
  epoch : ℕ
  nextCycle : ℕ
  latest : List (PyStr × PyStr)
  cycles : List Cycle
  audit : List (Row F)
  auditDropped : ℕ

section Image

variable {F : Type}

/-- A cycle in the image. -/
def Cycle.toDict (cycle : Cycle) : Row F :=
  [(pyStr "cycle_id", .str cycle.ticket.cycleId), (pyStr "trace_id", .str cycle.ticket.traceId),
    (pyStr "epoch", .int cycle.ticket.epoch), (pyStr "frame_id", .str cycle.ticket.frameId),
    (pyStr "material_digest", .str cycle.ticket.materialDigest),
    (pyStr "status", .str (word cycle.status)), (pyStr "outcome_state", .str cycle.outcomeState),
    (pyStr "advisory_id", .str cycle.advisoryId), (pyStr "discards", .int cycle.discards)]

/-- The payload of an image.  `json.dumps` puts the members of every dict in order, so also those of
`latest`. -/
def Snapshot.payload (s : Snapshot F) : Row F :=
  [(pyStr "schema", .str coordinatorSnapshotSchema), (pyStr "epoch", .int s.epoch),
    (pyStr "next_cycle", .int s.nextCycle),
    (pyStr "latest", .obj (s.latest.map fun item => (item.1, .str item.2))),
    (pyStr "cycles", .arr (s.cycles.map fun cycle => .obj cycle.toDict)),
    (pyStr "audit", .arr (s.audit.map .obj)), (pyStr "audit_dropped", .int s.auditDropped)]

/-- What a coordinator saves. -/
def Coordinator.saved (c : Coordinator F) : Snapshot F :=
  { epoch := c.epoch, nextCycle := c.nextCycle, latest := c.latest
    cycles := c.cycles.map Prod.snd, audit := c.trail.rows, auditDropped := c.trail.dropped }

/-! ## 2. Validation -/

/-- The keys of a dict, as a set. -/
def HasKeys (keys : List PyStr) (row : Row F) : Prop :=
  (∀ item ∈ row, item.1 ∈ keys) ∧ ∀ key ∈ keys, (getKey key row).isSome

instance (keys : List PyStr) (row : Row F) : Decidable (HasKeys keys row) :=
  inferInstanceAs (Decidable (_ ∧ _))

/-- An `int` of at least `least`. -/
def readNat (least : ℕ) : Option (PyJson F) → Except SnapshotError ℕ
  | some (.int n) => if (least : ℤ) ≤ n then .ok n.toNat else .error .malformed
  | _ => .error .malformed

/-- A text of at most `_ID_LIMIT` characters. -/
def readId (key : PyStr) (row : Row F) : Except SnapshotError PyStr :=
  match getKey key row with
  | some (.str s) => if s.length ≤ 192 then .ok s else .error .malformed
  | _ => .error .malformed

/-- The epoch of a cycle, which is not behind that of its snapshot. -/
def readEpoch (epoch : ℕ) : Option (PyJson F) → Except SnapshotError ℤ
  | some (.int n) => if 0 ≤ n ∧ n ≤ epoch then .ok n else .error .cycleEpoch
  | _ => .error .cycleEpoch

/-- The loop over the cycles, at one of them. -/
def readCycle (epoch : ℕ) (row : Row F) : Except SnapshotError Cycle :=
  if ¬ (HasKeys cycleKeys row ∨ HasKeys cycleKeysLegacy row) then .error .malformed
  else do
    let discards ← readNat 0 (some ((getKey (pyStr "discards") row).getD (.int 0)))
    let cycleId ← readId (pyStr "cycle_id") row
    let traceId ← readId (pyStr "trace_id") row
    let frameId ← readId (pyStr "frame_id") row
    let materialDigest ← readId (pyStr "material_digest") row
    let statusText ← readId (pyStr "status") row
    let outcomeState ← readId (pyStr "outcome_state") row
    let advisoryId ← readId (pyStr "advisory_id") row
    let cycleEpoch ← readEpoch epoch (getKey (pyStr "epoch") row)
    match readWord (some (.str statusText : PyJson F)) with
    | none => .error .malformed
    | some status =>
      .ok { ticket := { traceId, cycleId, epoch := cycleEpoch, frameId, materialDigest }
            status, outcomeState, advisoryId, discards }

/-- The loop over the cycles; `seen` are those before. -/
def readCycles (epoch : ℕ) : List Cycle → List (PyJson F) → Except SnapshotError (List Cycle)
  | seen, [] => .ok seen
  | seen, .obj row :: rows => do
    let cycle ← readCycle epoch row
    if cycle.ticket.cycleId ∈ seen.map (·.ticket.cycleId) then .error .duplicateCycle
    else readCycles epoch (seen ++ [cycle]) rows
  | _, _ :: _ => .error .malformed

/-- The loop over the latest cycles. -/
def readLatest (cycles : List Cycle) : Row F → Except SnapshotError (List (PyStr × PyStr))
  | [] => .ok []
  | (traceId, .str cycleId) :: rest =>
    if cycles.any fun cycle => cycle.ticket.cycleId = cycleId ∧ cycle.ticket.traceId = traceId then
      (readLatest cycles rest).map ((traceId, cycleId) :: ·)
    else .error .inconsistentLatest
  | _ :: _ => .error .inconsistentLatest

/-- The payload has the schema of a coordinator. -/
def ofSchema (payload : Row F) : Bool :=
  match getKey (pyStr "schema") payload with
  | some (.str s) => s = coordinatorSnapshotSchema
  | _ => false

/-- The loop over the audit. -/
def readAudit : List (PyJson F) → Except SnapshotError (List (Row F))
  | [] => .ok []
  | .obj row :: rows =>
    if (seqOf row).isSome ∧ hasEvent row then (readAudit rows).map (row :: ·)
    else .error .malformed
  | _ :: _ => .error .malformed

/-- `_validate_snapshot` behind the schema and the keys. -/
def readPayload (payload : Row F) : Except SnapshotError (Snapshot F) := do
  let epoch ← readNat 0 (getKey (pyStr "epoch") payload)
  let nextCycle ← readNat 1 (getKey (pyStr "next_cycle") payload)
  let auditDropped ← readNat 0 (getKey (pyStr "audit_dropped") payload)
  match getKey (pyStr "cycles") payload, getKey (pyStr "latest") payload,
      getKey (pyStr "audit") payload with
  | some (.arr cycleRows), some (.obj latestItems), some (.arr auditRows) => do
    let cycles ← readCycles epoch [] cycleRows
    let latest ← readLatest cycles latestItems
    let audit ← readAudit auditRows
    .ok { epoch, nextCycle, latest, cycles, audit, auditDropped }
  | _, _, _ => .error .malformed

variable [PyFloat F]

/-- The bytes of an image. -/
def Snapshot.bytes (s : Snapshot F) : Text := text (sortKeys (.obj s.payload))

/-- `snapshot`. -/
def Coordinator.snapshot (c : Coordinator F) : Text := c.saved.bytes

/-- `_validate_snapshot`. -/
def validateSnapshot (bytes : Text) : Except SnapshotError (Snapshot F) :=
  match if bytes.all (· < 128) then (loads bytes : Option (PyJson F)) else none with
  | none => .error .malformed
  | some (.obj payload) =>
    if ofSchema payload then
      if HasKeys snapshotKeys payload then readPayload payload else .error .malformed
    else .error .unsupported
  | some _ => .error .unsupported

/-! ## 3. Restoring -/

variable [PyRepr F]

/-- The cycle of a row of the snapshot is recorded, and is over. -/
def Coordinator.readmit (c : Coordinator F) (cycle : Cycle) : Coordinator F :=
  match cycle.status with
  | .inFlight => (c.put cycle.closed).log "cycle_abandoned_on_restart" (some cycle.closed) []
  | .accepted =>
    (c.put cycle.closed).log "advisory_restored_as_stale" (some cycle.closed)
      [(pyStr "advisory_id", .str cycle.advisoryId)]
  | _ => c.put cycle

/-- The coordinator before the cycles are recorded; nothing when a row has lost its number. -/
def Snapshot.opened (s : Snapshot F) (limits : Limits) : Option (Coordinator F) :=
  let rows := (s.audit.map boundRow).drop (s.audit.length - limits.maxAudit)
  (rows.mapM seqOf).map fun seqs =>
    { limits, epoch := s.epoch + 1, nextCycle := s.nextCycle, latest := s.latest
      trail := { rows, seq := seqs.max?.getD 0, dropped := s.auditDropped } }

/-- What `restore` makes of a valid snapshot. -/
def Snapshot.rebuilt (s : Snapshot F) (limits : Limits) : Option (Coordinator F) :=
  (s.opened limits).map fun c => (s.cycles.foldl Coordinator.readmit c).prune

/-- `restore`. -/
def Coordinator.restore (bytes : Text) (limits : Limits) : Except SnapshotError (Coordinator F) :=
  match validateSnapshot (F := F) bytes with
  | .error error => .error error
  | .ok s =>
    match s.rebuilt limits with
    | some c => .ok c
    | none => .error .missingSeq

end Image

end AzazelEdge.Mio
