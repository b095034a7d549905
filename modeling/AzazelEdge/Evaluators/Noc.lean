/-
# The NOC evaluator

`NocEvaluator` (`evaluators/noc.py`): availability, path health and device health from the evidence
events, and the path health that a SoT diff takes down.  These are what the arbiter reads labels of.
What the evaluator makes of the events besides (clients, capacity, services, scopes and the summary)
is a parameter (`Rest`).

A score begins at 100 and events take from it; a call that raises is none.
-/
import AzazelEdge.Arbiter.Action

namespace AzazelEdge.Evaluators

open AzazelEdge.Lib AzazelEdge.Lib.Py AzazelEdge.Audit AzazelEdge.Arbiter

variable {F : Type} [PyFloat F] [PyRepr F] [PyConvert F]

/-! ## 1. Events and dimensions -/

/-- `_to_payloads`: the dicts whose `attrs` is a dict. -/
def toPayloads (events : List (PyJson F)) : List (Row F) :=
  events.filterMap fun event =>
    match event with
    | .obj members =>
      match getKey (pyStr "attrs") members with
      | some (.obj _) => some members
      | _ => none
    | _ => none

/-- `str(payload.get(key) or '')`. -/
def strField (key : String) (payload : Row F) : PyStr := strOr (getKey (pyStr key) payload)

/-- `by_kind.get(kind, [])`. -/
def ofKind (kind : String) (payloads : List (Row F)) : List (Row F) :=
  payloads.filter fun payload => strField "kind" payload = pyStr kind

def attrs (payload : Row F) : Row F := asDict (getKey (pyStr "attrs") payload)

/-- `attrs.get(key)`. -/
def attr (key : String) (payload : Row F) : Option (PyJson F) :=
  getKey (pyStr key) (attrs payload)

/-- `str(attrs.get(key) or '')`. -/
def attrStr (key : String) (payload : Row F) : PyStr := strOr (attr key payload)

/-- `a or b` as a text. -/
def orText (a b : Option (PyJson F)) : PyStr :=
  match a, b with
  | some a, b => if truthy a then strOf a else (b.map strOf).getD (pyStr "None")
  | none, b => (b.map strOf).getD (pyStr "None")

/-- `_bucket`. -/
def bucket (score : ℤ) : PyStr :=
  if 90 ≤ score then pyStr "good"
  else if 70 ≤ score then pyStr "degraded"
  else if 40 ≤ score then pyStr "poor"
  else pyStr "critical"

/-- A dimension of the evaluation. -/
structure Dimension where
  score : ℤ
  label : PyStr
  reasons : List PyStr
  evidenceIds : List PyStr

/-- `_make_dimension`. -/
def makeDimension (score : ℤ) (reasons evidenceIds : List PyStr) : Dimension :=
  ⟨max 0 (min 100 score), bucket score, reasons, sortedUnique evidenceIds⟩

/-- The dict that a dimension is. -/
def Dimension.value (d : Dimension) : PyJson F :=
  .obj [(pyStr "score", .int d.score), (pyStr "label", .str d.label),
    (pyStr "reasons", .arr (d.reasons.map .str)),
    (pyStr "evidence_ids", .arr (d.evidenceIds.map .str))]

/-- A score with its reasons and its evidence while events are taken in. -/
structure Tally where
  score : ℤ
  reasons : List PyStr
  evidenceIds : List PyStr

def Tally.start : Tally := ⟨100, [], []⟩

/-- An event is evidence. -/
def Tally.cite (t : Tally) (payload : Row F) : Tally :=
  { t with evidenceIds := t.evidenceIds ++ [strField "event_id" payload] }

/-- A penalty, for this reason. -/
def Tally.deduct (t : Tally) (penalty : ℤ) (reason : PyStr) : Tally :=
  { t with score := t.score - penalty, reasons := t.reasons ++ [reason] }

def Tally.dimension (t : Tally) : Dimension := makeDimension t.score t.reasons t.evidenceIds

/-! ## 2. Configuration -/

structure AvailabilityConfig where
  icmpUnreachablePenalty : ℤ := 60
  serviceOffPenalty : ℤ := 15
  collectorFailurePenalty : ℤ := 10

structure PathConfig where
  probeFailedPenalty : ℤ := 40
  ifaceDegradedPenalty : ℤ := 25
  collectorFailurePenalty : ℤ := 10

structure DeviceConfig where
  cpuHotThreshold : ℤ := 90
  cpuElevatedThreshold : ℤ := 75
  cpuHotPenalty : ℤ := 25
  cpuElevatedPenalty : ℤ := 10
  memPressureThreshold : ℤ := 90
  memElevatedThreshold : ℤ := 75
  memPressurePenalty : ℤ := 30
  memElevatedPenalty : ℤ := 15
  tempHotThreshold : ℤ := 80
  tempElevatedThreshold : ℤ := 65
  tempHotPenalty : ℤ := 25
  tempElevatedPenalty : ℤ := 10
  collectorFailurePenalty : ℤ := 10

/-- The three sections of `DEFAULT_CONFIG`, as `_merge_config` may have changed them. -/
structure NocConfig where
  availability : AvailabilityConfig := {}
  pathHealth : PathConfig := {}
  deviceHealth : DeviceConfig := {}

/-! ## 3. The dimensions -/

/-- An ICMP probe that did not reach its target. -/
def icmpEvent (penalty : ℤ) (reason : String) (t : Tally) (event : Row F) : Tally :=
  if isTruthy (attr "reachable" event) then t.cite event
  else (t.cite event).deduct penalty (pyStr reason)

/-- The failure of one of these collectors. -/
def collectorEvent (collectors : List String) (penalty : ℤ) (t : Tally) (event : Row F) : Tally :=
  let collector := attrStr "collector" event
  if collector ∈ collectors.map pyStr then
    (t.cite event).deduct penalty (pyStr "collector_failure:" ++ collector)
  else t

/-- A service's state. -/
def serviceEvent (cfg : AvailabilityConfig) (t : Tally) (event : Row F) : Tally :=
  let name := orText (attr "target" event) (getKey (pyStr "subject") event)
  let t := t.cite event
  if PyConvert.upper F (attrStr "state" event) ≠ pyStr "ON" then
    t.deduct cfg.serviceOffPenalty (pyStr "service_off:" ++ name)
  else if PyConvert.lower F (attrStr "substate" event) ∉
      ["running", "listening", "unknown"].map pyStr then
    t.deduct 5 (pyStr "service_degraded:" ++ name)
  else if PyConvert.lower F (attrStr "result" event) ∉ ["success", "unknown"].map pyStr then
    t.deduct 5 (pyStr "service_result:" ++ name)
  else t

/-- `_evaluate_availability`. -/
def evaluateAvailability (cfg : AvailabilityConfig) (payloads : List (Row F)) : Dimension :=
  let t := (ofKind "icmp_probe" payloads).foldl
    (icmpEvent cfg.icmpUnreachablePenalty "icmp_unreachable") .start
  let t := (ofKind "service_health" payloads).foldl (serviceEvent cfg) t
  let t := (ofKind "collector_failure" payloads).foldl
    (collectorEvent ["icmp", "service_health"] cfg.collectorFailurePenalty) t
  t.dimension

/-- One path probe. -/
def pathProbeEvent (t : Tally) (event : Row F) : Tally :=
  let scope := attrStr "scope" event
  if isTruthy (attr "reachable" event) then t.cite event
  else (t.cite event).deduct (if scope = pyStr "external" then 20 else 10)
    (pyStr "path_probe_failed:" ++ if scope = [] then pyStr "unknown" else scope)

/-- The interfaces of the path probes, each with whether all its probes got through. -/
def interfaceHealth (probes : List (Row F)) : List (PyStr × Bool) :=
  let named := probes.filter fun event => attrStr "interface" event ≠ []
  (named.map (attrStr "interface")).dedup.map fun iface =>
    (iface, (named.filter fun event => attrStr "interface" event = iface).all fun event =>
      isTruthy (attr "reachable" event))

/-- Both truth values occur. -/
def diverges (values : List Bool) : Bool := values.contains true && values.contains false

/-- Path probes that do not agree. -/
def probeDivergence (probes : List (Row F)) (t : Tally) : Tally :=
  let t := if diverges (probes.map fun event => isTruthy (attr "reachable" event)) then
      t.deduct 15 (pyStr "path_target_divergence")
    else t
  if diverges ((interfaceHealth probes).map Prod.snd) then t.deduct 10 (pyStr "uplink_divergence")
  else t

/-- An interface's counters; it raises when `carrier` is no integer. -/
def ifaceEvent (cfg : PathConfig) (t : Tally) (event : Row F) : Option Tally := do
  let oper := PyConvert.lower F (attrStr "operstate" event)
  let carrier ← intOr0 (attr "carrier" event)
  return if oper ≠ pyStr "up" ∨ carrier ≠ 1 then
      (t.cite event).deduct cfg.ifaceDegradedPenalty (pyStr "iface_degraded:" ++
        orText (attr "interface" event) (getKey (pyStr "subject") event))
    else t.cite event

def flowEvent (t : Tally) (event : Row F) : Tally :=
  if PyConvert.lower F (attrStr "flow_state" event) ∈ ["failed", "reset", "timeout"].map pyStr then
    (t.cite event).deduct 10 (pyStr "flow_path_instability")
  else t.cite event

/-- `_evaluate_path_health`. -/
def evaluatePathHealth (cfg : PathConfig) (payloads : List (Row F)) : Option Dimension := do
  let t := (ofKind "icmp_probe" payloads).foldl
    (icmpEvent cfg.probeFailedPenalty "path_probe_failed") .start
  let probes := ofKind "path_probe" payloads
  let t := probeDivergence probes (probes.foldl pathProbeEvent t)
  let t ← (ofKind "iface_stats" payloads).foldlM (ifaceEvent cfg) t
  let t := (ofKind "flow_summary" payloads).foldl flowEvent t
  let t := (ofKind "collector_failure" payloads).foldl
    (collectorEvent ["icmp", "iface_stats", "path_probes"] cfg.collectorFailurePenalty) t
  return t.dimension

/-- `value >= threshold` of a float. -/
def reaches (value : F) (threshold : ℤ) : Bool := !PyFloat.lt (.inr value) (.inl threshold)

/-- Two thresholds, each with its penalty and reason. -/
def graded (hot elevated : Bool) (hotPenalty elevatedPenalty : ℤ)
    (hotReason elevatedReason : String) (t : Tally) : Tally :=
  if hot then t.deduct hotPenalty (pyStr hotReason)
  else if elevated then t.deduct elevatedPenalty (pyStr elevatedReason)
  else t

/-- A reading of the device; it raises on values that are no numbers, and where `memory` has no
`get`. -/
def deviceEvent (cfg : DeviceConfig) (t : Tally) (event : Row F) : Option Tally := do
  let cpu ← floatOr0 (attr "cpu_percent" event)
  let memory ← (orEmpty (attr "memory" event)).toOption
  let mem ← intOr0 (getKey (pyStr "percent") memory)
  let temp ← floatOr0 (attr "temperature_c" event)
  let t := graded (reaches cpu cfg.cpuHotThreshold) (reaches cpu cfg.cpuElevatedThreshold)
    cfg.cpuHotPenalty cfg.cpuElevatedPenalty "cpu_hot" "cpu_elevated" (t.cite event)
  let t := graded (decide (cfg.memPressureThreshold ≤ mem)) (decide (cfg.memElevatedThreshold ≤ mem))
    cfg.memPressurePenalty cfg.memElevatedPenalty "memory_pressure" "memory_elevated" t
  return graded (reaches temp cfg.tempHotThreshold) (reaches temp cfg.tempElevatedThreshold)
    cfg.tempHotPenalty cfg.tempElevatedPenalty "device_hot" "temperature_elevated" t

/-- `_evaluate_device_health`. -/
def evaluateDeviceHealth (cfg : DeviceConfig) (payloads : List (Row F)) : Option Dimension := do
  let t ← (ofKind "cpu_mem_temp" payloads).foldlM (deviceEvent cfg) Tally.start
  let t := (ofKind "collector_failure" payloads).foldl
    (collectorEvent ["cpu_mem_temp"] cfg.collectorFailurePenalty) t
  return t.dimension

/-! ## 4. The SoT diff -/

/-- What a `for` runs over; it raises on a value that is no list, string or dict. -/
def iterate : PyJson F → Option (List (PyJson F))
  | .arr items => some items
  | .str s => some (s.map fun c => .str [c])
  | .obj members => some (members.map fun member => .str member.1)
  | _ => none

/-- `[str(x) for x in values if str(x)]`. -/
def texts (values : List (PyJson F)) : List PyStr := (values.map strOf).filter fun s => s ≠ []

/-- A finding of the diff takes from the score, not below zero. -/
def diffFinding (sotDiff : Row F) (key : String) (penalty : ℤ) (reason : String) (t : Tally) : Tally :=
  if isTruthy (getKey (pyStr key) sotDiff) then
    { t with score := max 0 (t.score - penalty), reasons := t.reasons ++ [pyStr reason] }
  else t

/-- `sot_diff.get('evidence_ids', [])`, run over. -/
def diffEvidence (sotDiff : Row F) : Option (List (PyJson F)) :=
  match getKey (pyStr "evidence_ids") sotDiff with
  | some ids => iterate ids
  | none => some []

/-- `_apply_sot_diff_to_path_health`. -/
def applySotDiffToPathHealth (path : Dimension) (sotDiff : Row F) : Option Dimension :=
  let t : Tally := ⟨path.score, path.reasons, path.evidenceIds⟩
  let t := diffFinding sotDiff "path_deviations" 20 "path_deviation_detected" t
  let t := diffFinding sotDiff "unauthorized_services" 10 "unauthorized_services_present" t
  (diffEvidence sotDiff).map fun ids =>
    { score := t.score
      label := bucket t.score
      reasons := t.reasons
      evidenceIds := sortedUnique ((t.evidenceIds.filter fun s => s ≠ []) ++ texts ids) }

/-- The path health when there may be a SoT diff. -/
def withSotDiff (path : Dimension) (sotDiff : Option (PyJson F)) : Option Dimension :=
  match sotDiff with
  | none => some path
  | some (.obj []) => some path
  | some (.obj members) => applySotDiffToPathHealth path members
  | some value => if truthy value then none else some path

/-! ## 5. The evaluation -/

/-- What else the evaluator makes of the events. -/
structure Rest (F : Type) where
  clientHealth : PyJson F
  capacityHealth : PyJson F
  clientInventoryHealth : PyJson F
  serviceHealth : PyJson F
  resolutionHealth : PyJson F
  configDriftHealth : PyJson F
  affectedScope : PyJson F
  incidentSummary : PyJson F
  summary : PyJson F
  config : PyJson F

/-- `evaluate`, where the rest of it does not raise. -/
def evaluate (cfg : NocConfig) (events : List (PyJson F)) (sotDiff : Option (PyJson F))
    (rest : Rest F) : Option (Row F) := do
  let payloads := toPayloads events
  let availability := evaluateAvailability cfg.availability payloads
  let path ← evaluatePathHealth cfg.pathHealth payloads
  let device ← evaluateDeviceHealth cfg.deviceHealth payloads
  let path ← withSotDiff path sotDiff
  let ids := (payloads.map (strField "event_id")).filter fun s => s ≠ []
  return [(pyStr "availability", availability.value), (pyStr "path_health", path.value),
    (pyStr "device_health", device.value), (pyStr "client_health", rest.clientHealth),
    (pyStr "capacity_health", rest.capacityHealth),
    (pyStr "client_inventory_health", rest.clientInventoryHealth),
    (pyStr "service_health", rest.serviceHealth),
    (pyStr "resolution_health", rest.resolutionHealth),
    (pyStr "config_drift_health", rest.configDriftHealth),
    (pyStr "affected_scope", rest.affectedScope), (pyStr "incident_summary", rest.incidentSummary),
    (pyStr "summary", rest.summary), (pyStr "evidence_ids", .arr ((sortedUnique ids).map .str))]

/-- `evaluation.get(key, {})` for each of these keys, and the evidence ids. -/
def handoff (source : String) (keys : List String) (evaluation : Row F) : Row F :=
  [(pyStr "source", .str (pyStr source))] ++
    (keys.map fun key => (pyStr key, (getKey (pyStr key) evaluation).getD (.obj []))) ++
    [(pyStr "evidence_ids", (getKey (pyStr "evidence_ids") evaluation).getD (.arr []))]

/-- `NocEvaluator.to_arbiter_input`. -/
def nocArbiterInput (config : PyJson F) (evaluation : Row F) : PyJson F :=
  .obj ((pyStr "config", config) :: handoff "noc_evaluator"
    ["summary", "availability", "path_health", "device_health", "client_health", "capacity_health",
      "client_inventory_health", "service_health", "resolution_health", "config_drift_health",
      "affected_scope", "incident_summary"] evaluation)

/-- `SocEvaluator.to_arbiter_input`. -/
def socArbiterInput (evaluation : Row F) : PyJson F :=
  .obj (handoff "soc_evaluator"
    ["summary", "suspicion", "confidence", "technique_likelihood", "blast_radius",
      "entity_risk_state", "incident_campaign_state", "security_visibility_state",
      "suppression_exception_state", "asset_target_criticality", "exposure_change_state",
      "confidence_provenance", "behavior_sequence_state", "triage_priority_state"] evaluation)

end AzazelEdge.Evaluators
