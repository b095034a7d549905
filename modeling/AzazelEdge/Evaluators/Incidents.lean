/-
# The incidents of the SOC evaluator

`_evaluate_incident_campaign_state` (`evaluators/soc.py`): an alert that is more than background
opens an incident or refreshes it; what no alert of a call refreshes cools, and closes; the flows
that support it are counted; and of more than `max_incidents` those that rank highest stay.

`evaluate` is what `SocEvaluator.evaluate` does up to there, with the suppression of alerts.  What
it makes of the events besides leaves the store as it is.  A call that raises is none.
-/
import AzazelEdge.EvidencePlane.Subject
import AzazelEdge.Evidence.Spool

namespace AzazelEdge.Evaluators.Soc

open AzazelEdge.Lib AzazelEdge.Lib.Py AzazelEdge.Audit AzazelEdge.Arbiter AzazelEdge.EvidencePlane

/-! ## 1. Payloads -/

variable {F : Type} [PyFloat F] [PyRepr F] [PyConvert F]

/-- `allowed_sources`. -/
def allowedSources : List String :=
  ["suricata_eve", "flow_min", "syslog_min", "captive_portal", "web_api", "runbook", "audit",
    "config_drift", "noc_inventory", "snmp_poller"]

/-- `_to_payloads`: the dicts of a known source. -/
def toPayloads (events : List (PyJson F)) : List (Row F) :=
  events.filterMap fun event =>
    match event with
    | .obj payload =>
      if strField "source" payload ∈ allowedSources.map pyStr then some payload else none
    | _ => none

/-- The payloads of a source. -/
def ofSource (source : String) (payloads : List (Row F)) : List (Row F) :=
  payloads.filter fun payload => strField "source" payload = pyStr source

/-- What is asked of `datetime`. -/
class PyDatetime (T : Type) where
  /-- `datetime.fromisoformat(s)`; none when it raises. -/
  fromIsoformat : PyStr → Option T
  isoformat : T → PyStr

variable {T : Type} [PyDatetime T]

/-- A trailing `Z` as an offset. -/
def zuluOffset (text : PyStr) : PyStr :=
  if text.getLast? = some 90 then text.dropLast ++ pyStr "+00:00" else text

/-- `_parse_ts`. -/
def parseTs (value : Option (PyJson F)) : Option T :=
  let text := Decision.strip (strOr value)
  if text = [] then none else PyDatetime.fromIsoformat (zuluOffset text)

/-- `int(attrs.get('risk_score') or payload.get('severity') or 0)`. -/
def riskOf (payload : Row F) : Option ℤ :=
  intOr0 (pyOr (attr "risk_score" payload) (getKey (pyStr "severity") payload))

/-! ## 2. Suppression -/

/-- `suppression_policy`. -/
structure SuppressionPolicy (T : Type) where
  srcIps : List PyStr
  dstIps : List PyStr
  sid : List ℤ
  attackTypes : List PyStr
  categories : List PyStr
  expectedScanners : List PyStr
  labSegments : List PyStr
  /-- `_in_maintenance_window` for its windows; none when it raises. -/
  inMaintenanceWindow : T → Option Bool

/-- A payload is suppressed; `clock` is the time of one that has none. -/
def suppressed (policy : SuppressionPolicy T) (clock : T) (payload : Row F) : Option Bool := do
  let (src, dst) := socEndpoints payload
  let attackType := PyConvert.lower F (attrStr "attack_type" payload)
  let category := PyConvert.lower F (attrStr "category" payload)
  let sid ← intOr0 (attr "sid" payload)
  let risk ← riskOf payload
  let segment := strOr (pyOr (pyOr (attr "segment" payload) (attr "dst_segment" payload))
    (attr "src_segment" payload))
  let ts := (parseTs (getKey (pyStr "ts") payload)).getD clock
  let maintenance ← if isTruthy (attr "maintenance_window" payload) then some true
    else policy.inMaintenanceWindow ts
  let matched := src ≠ [] ∧ src ∈ policy.srcIps ∨ dst ≠ [] ∧ dst ∈ policy.dstIps ∨
    sid ≠ 0 ∧ sid ∈ policy.sid ∨ attackType ≠ [] ∧ attackType ∈ policy.attackTypes ∨
    category ≠ [] ∧ category ∈ policy.categories ∨ src ≠ [] ∧ src ∈ policy.expectedScanners ∨
    segment ≠ [] ∧ segment ∈ policy.labSegments ∨ isTruthy (attr "lab_traffic" payload) = true ∨
    maintenance = true
  -- a risk of 90 is an exception to every suppression
  return decide (matched ∧ risk < 90)

/-- The payloads that `_evaluate_suppression_exception_state` leaves. -/
def actionable (policy : SuppressionPolicy T) (clock : ℕ → T) (payloads : List (Row F)) :
    Option (List (Row F)) := do
  let judged ← payloads.zipIdx.mapM fun (payload, i) =>
    (suppressed policy (clock i) payload).map fun gone => (payload, gone)
  return (judged.filter fun item => !item.2).map Prod.fst

/-! ## 3. Alerts and flows -/

/-- `DECEPTION_SIDS`. -/
def deceptionSids : List ℤ :=
  [9901101, 9901102, 9901103, 9901201, 9901202, 9901203, 9901211, 9901221, 9901222, 9901231,
    9901232, 9901241, 9901261, 9901251]

/-- `_BENIGN_CATEGORIES`. -/
def benignCategories : List String :=
  ["not-suspicious", "unknown", "misc-activity", "protocol-command-decode", "tcp-connection",
    "policy-violation", "bad-unknown", ""]

/-- `_INCIDENT_RISK_FLOOR`. -/
def incidentRiskFloor : ℤ := 40

/-- What an incident takes of an alert. -/
structure Hit where
  incidentId : PyStr
  src : PyStr
  dst : PyStr
  port : ℤ
  attackType : PyStr
  risk : ℤ
  eventId : PyStr
  /-- `ts.isoformat()`. -/
  ts : PyStr

/-- `s.encode('utf-8')`, which raises on a surrogate. -/
def encodeUtf8 (s : PyStr) : Option Text :=
  if s.any fun c => 0xD800 ≤ c.val ∧ c.val ≤ 0xDFFF then none
  else some (s.flatMap fun c => Evidence.utf8Char c.val)

section Digits

variable [PyDigits]

/-- A payload as an alert, unless it is background. -/
def readHit (sha : Text → PyStr) (now : T) (payload : Row F) : Option (Option Hit) := do
  let (src, dst) := socEndpoints payload
  let port ← socPort payload
  let risk ← riskOf payload
  let ts : T := (parseTs (getKey (pyStr "ts") payload)).getD now
  let category := PyConvert.lower F (Decision.strip (attrStr "category" payload))
  -- one that is no number raised in the suppression already
  let sid := (intOr0 (attr "sid" payload)).getD 0
  if risk < incidentRiskFloor ∧ sid ∉ deceptionSids ∧ category ∈ benignCategories.map pyStr then
    return none
  let print ← fingerprint payload
  let encoded ← encodeUtf8 print
  return some
    { incidentId := pyStr "inc-" ++ (sha encoded).take 12
      src := src
      dst := dst
      port := port
      attackType := attackType payload
      risk := risk
      eventId := strField "event_id" payload
      ts := PyDatetime.isoformat ts }

/-- The alerts among the payloads. -/
def readHits (sha : Text → PyStr) (now : T) (payloads : List (Row F)) : Option (List Hit) :=
  (payloads.mapM (readHit sha now)).map List.reduceOption

end Digits

/-- What an incident takes of a flow. -/
structure Flow where
  src : PyStr
  dst : PyStr
  eventId : PyStr

def readFlow (payload : Row F) : Flow :=
  ⟨attrStr "src_ip" payload, attrStr "dst_ip" payload, strField "event_id" payload⟩

/-! ## 4. Incidents -/

inductive Status where
  | active
  | cooling
  | closed
deriving DecidableEq

/-- The status after that many calls without an alert. -/
def Status.ofRounds (inactive : ℕ) : Status :=
  if 3 ≤ inactive then .closed else if 1 ≤ inactive then .cooling else .active

/-- The first part of the key incidents are ranked by. -/
def Status.rank : Status → ℕ
  | .active => 2
  | .cooling => 1
  | .closed => 0

/-- A row of `_incident_store`. -/
structure Incident where
  incidentId : PyStr
  src : PyStr
  dst : PyStr
  port : ℤ
  attackType : PyStr
  firstSeen : PyStr
  lastSeen : PyStr
  eventCount : ℕ
  maxScore : ℤ
  evidenceIds : List PyStr
  supportingFlowCount : ℕ
  implicatedEntities : List PyStr
  inactiveRounds : ℕ
  recurrenceCount : ℕ
  status : Status

/-- The rows, in the order in which they were opened. -/
abbrev Store := List Incident

def Store.ids (store : Store) : List PyStr := store.map (·.incidentId)

/-- `if text and text not in texts: texts.append(text)`. -/
def addText (texts : List PyStr) (text : PyStr) : List PyStr :=
  if text = [] ∨ text ∈ texts then texts else texts ++ [text]

/-- `entity_refs`. -/
def Hit.entityRefs (hit : Hit) : List PyStr :=
  [hit.src, hit.dst,
    if hit.dst ≠ [] ∧ hit.port ≠ 0 then hit.dst ++ colon :: ofText (intText hit.port) else []]

/-- The row that `setdefault` is called with. -/
def Incident.new (hit : Hit) : Incident :=
  { incidentId := hit.incidentId
    src := hit.src
    dst := hit.dst
    port := hit.port
    attackType := hit.attackType
    firstSeen := hit.ts
    lastSeen := hit.ts
    eventCount := 0
    maxScore := 0
    evidenceIds := []
    supportingFlowCount := 0
    implicatedEntities := []
    inactiveRounds := 0
    recurrenceCount := 0
    status := .active }

/-- What an alert does to its row. -/
def Incident.take (row : Incident) (hit : Hit) : Incident :=
  { row with
    recurrenceCount :=
      if 0 < row.inactiveRounds then row.recurrenceCount + 1 else row.recurrenceCount
    inactiveRounds := 0
    status := .active
    lastSeen := hit.ts
    eventCount := row.eventCount + 1
    maxScore := max row.maxScore hit.risk
    evidenceIds := addText row.evidenceIds hit.eventId
    implicatedEntities := hit.entityRefs.foldl
      (fun texts entity => addText texts (Decision.strip entity)) row.implicatedEntities }

/-- An alert opens its row, or refreshes it. -/
def touch (store : Store) (hit : Hit) : Store :=
  if hit.incidentId ∈ store.ids then
    store.map fun row => if row.incidentId = hit.incidentId then row.take hit else row
  else store ++ [(Incident.new hit).take hit]

/-- What a call without an alert does to a row. -/
def Incident.age (row : Incident) : Incident :=
  { row with
    inactiveRounds := row.inactiveRounds + 1
    status := .ofRounds (row.inactiveRounds + 1) }

def age (touched : List PyStr) (store : Store) : Store :=
  store.map fun row => if row.incidentId ∈ touched then row else row.age

/-- A flow between the two hosts of a row supports it. -/
def Incident.support (row : Incident) (flow : Flow) : Incident :=
  if flow.src ≠ [] ∧ flow.dst ≠ [] ∧ flow.src = row.src ∧ flow.dst = row.dst then
    { row with
      supportingFlowCount := row.supportingFlowCount + 1
      evidenceIds := addText row.evidenceIds flow.eventId }
  else row

def support (flows : List Flow) (store : Store) : Store :=
  flows.foldl (fun store flow => store.map (·.support flow)) store

/-! ## 5. Ranks -/

/-- The key of `a` is at least that of `b`. -/
def Incident.outranks (a b : Incident) : Bool :=
  if a.status.rank ≠ b.status.rank then b.status.rank < a.status.rank
  else if a.maxScore ≠ b.maxScore then b.maxScore < a.maxScore
  else if a.eventCount ≠ b.eventCount then b.eventCount < a.eventCount
  else keyLe b.lastSeen a.lastSeen

/-- `ranked`: a reversed sort leaves equals in their order. -/
def ranked (store : Store) : Store :=
  store.insertionSort fun a b => a.outranks b = true

/-- The incidents that stay, as the result shows them. -/
def kept (limit : ℕ) (store : Store) : Store := (ranked store).take limit

def evict (limit : ℕ) (store : Store) : Store :=
  if limit < (ranked store).length then
    store.filter fun row => row.incidentId ∈ (kept limit store).ids
  else store

/-! ## 6. The result -/

/-- `max_incidents` and `max_entity_evidence_ids`. -/
structure Limits where
  maxIncidents : ℕ
  maxEntityEvidenceIds : ℕ
  eight_le : 8 ≤ maxIncidents
  four_le : 4 ≤ maxEntityEvidenceIds

/-- The limits that `__init__` makes of its arguments. -/
def Limits.ofArgs (maxIncidents maxEntityEvidenceIds : ℤ) : Limits where
  maxIncidents := (max 8 maxIncidents).toNat
  maxEntityEvidenceIds := (max 4 maxEntityEvidenceIds).toNat
  eight_le := by omega
  four_le := by omega

/-- `_bucket`. -/
def bucket (score : ℤ) : PyStr :=
  if 80 ≤ score then pyStr "critical"
  else if 60 ≤ score then pyStr "high"
  else if 40 ≤ score then pyStr "medium"
  else pyStr "low"

/-- A row of `top_incidents`. -/
structure TopIncident where
  incidentId : PyStr
  src : PyStr
  dst : PyStr
  port : ℤ
  attackType : PyStr
  firstSeen : PyStr
  lastSeen : PyStr
  eventCount : ℕ
  supportingFlowCount : ℕ
  status : Status
  inactiveRounds : ℕ
  recurrenceCount : ℕ
  score : ℤ
  label : PyStr
  confidence : ℤ
  implicatedEntities : List PyStr
  evidenceIds : List PyStr

def Incident.top (limits : Limits) (row : Incident) : TopIncident :=
  { incidentId := row.incidentId
    src := row.src
    dst := row.dst
    port := row.port
    attackType := row.attackType
    firstSeen := row.firstSeen
    lastSeen := row.lastSeen
    eventCount := row.eventCount
    supportingFlowCount := row.supportingFlowCount
    status := row.status
    inactiveRounds := row.inactiveRounds
    recurrenceCount := row.recurrenceCount
    score := row.maxScore
    label := bucket row.maxScore
    confidence := min 100 (row.maxScore + min 20 (row.eventCount * 4))
    implicatedEntities := row.implicatedEntities.take 8
    evidenceIds := row.evidenceIds.take limits.maxEntityEvidenceIds }

/-- `incident_campaign_state`. -/
structure CampaignState where
  status : PyStr
  incidentCount : ℕ
  activeCount : ℕ
  coolingCount : ℕ
  closedCount : ℕ
  maxIncidents : ℕ
  topIncidents : List TopIncident
  evidenceIds : List PyStr
  reasons : List PyStr

/-- The rows with a status. -/
def count (status : Status) (store : Store) : ℕ := store.countP fun row => row.status = status

/-- The result: the counts are of `pool`, the store before the eviction. -/
def campaignState (limits : Limits) (pool : Store) : CampaignState :=
  let active := count .active pool
  let cooling := count .cooling pool
  let closed := count .closed pool
  let stay := kept limits.maxIncidents pool
  { status :=
      if 0 < active then pyStr "active"
      else if 0 < cooling then pyStr "cooling"
      else if 0 < closed then pyStr "closed"
      else pyStr "none"
    incidentCount := (evict limits.maxIncidents pool).length
    activeCount := active
    coolingCount := cooling
    closedCount := closed
    maxIncidents := limits.maxIncidents
    topIncidents := (stay.map (·.top limits)).take limits.maxIncidents
    evidenceIds := sortedUnique ((stay.flatMap (·.evidenceIds)).filter fun text => text ≠ [])
    reasons := [
      if active ≠ 0 then pyStr "incident_clustered"
      else if cooling ≠ 0 then pyStr "incident_cooling"
      else if closed ≠ 0 then pyStr "incident_closed"
      else pyStr "no_soc_events"] }

/-! ## 7. A call -/

section Call

variable [PyDigits]

/-- A call of `evaluate`: the events, the clock when it stands in for the time of an alert that the
suppression looks at, and `now_ts`. -/
structure Call (F T : Type) where
  events : List (PyJson F)
  clock : ℕ → T
  now : T

/-- What an evaluator is made with. -/
structure SocConfig (T : Type) where
  sha : Text → PyStr
  limits : Limits
  policy : SuppressionPolicy T

/-- The store before an eviction and after it, and the result. -/
structure Evaluated where
  pool : Store
  store : Store
  result : CampaignState

/-- The alerts of a call that an incident takes. -/
def hitsOf (config : SocConfig T) (call : Call F T) : Option (List Hit) := do
  let soc ← actionable config.policy call.clock (ofSource "suricata_eve" (toPayloads call.events))
  readHits config.sha call.now soc

/-- The flows of a call. -/
def flowsOf (call : Call F T) : List Flow :=
  (ofSource "flow_min" (toPayloads call.events)).map readFlow

/-- `_evaluate_incident_campaign_state`. -/
def evaluateIncidentCampaignState (limits : Limits) (hits : List Hit) (flows : List Flow)
    (store : Store) : Evaluated :=
  let pool := support flows (age (hits.map (·.incidentId)) (hits.foldl touch store))
  { pool := pool
    store := evict limits.maxIncidents pool
    result := campaignState limits pool }

/-- A call, up to the state of the incidents. -/
def evaluate (config : SocConfig T) (store : Store) (call : Call F T) : Option Evaluated :=
  (hitsOf config call).map fun hits =>
    evaluateIncidentCampaignState config.limits hits (flowsOf call) store

end Call

end AzazelEdge.Evaluators.Soc
