/-
# Evidence events

`EvidenceEvent` (`evidence_plane/schema.py`) and the two adapters whose events have a subject of the
form `src->dst:port/proto`: `adapt_suricata_record` and `adapt_flow_record`.  An event's id is a
digest of what it says (`sha`), and an event without a time takes the present one (`now`).  An adapter
that raises is none.
-/
import AzazelEdge.Arbiter.Action

namespace AzazelEdge.EvidencePlane

open AzazelEdge.Lib AzazelEdge.Lib.Py AzazelEdge.Audit AzazelEdge.Arbiter

variable {F : Type} [PyFloat F] [PyRepr F] [PyConvert F] [PyArith F]

/-! ## 1. Events -/

/-- `EvidenceEvent`. -/
structure EvidenceEvent (F : Type) where
  eventId : PyStr
  ts : PyStr
  source : PyStr
  kind : PyStr
  subject : PyStr
  severity : ℤ
  confidence : F
  attrs : Row F
  status : PyStr
  evidenceRefs : List PyStr

/-- `make_event_id`. -/
def makeEventId (sha : Text → PyStr) (ts source kind subject : PyStr) (attrs : Row F) : PyStr :=
  pyStr "sha256:" ++ sha (text (sortKeys (.obj
    [(pyStr "ts", .str ts), (pyStr "source", .str source), (pyStr "kind", .str kind),
      (pyStr "subject", .str subject), (pyStr "attrs", .obj attrs)])))

/-- What `EvidenceEvent.build` is called with. -/
structure EventArgs (F : Type) where
  ts : PyStr
  source : PyStr
  kind : PyStr
  subject : PyStr
  severity : ℤ
  confidence : F
  attrs : Row F
  status : PyStr := []
  evidenceRefs : List PyStr := []

/-- `EvidenceEvent.build`. -/
def EvidenceEvent.build (sha : Text → PyStr) (now : PyStr) (args : EventArgs F) :
    EvidenceEvent F :=
  let ts := if args.ts = [] then now else args.ts
  { eventId := makeEventId sha ts args.source args.kind args.subject args.attrs
    ts := ts
    source := args.source
    kind := args.kind
    subject := args.subject
    severity := max 0 (min args.severity 100)
    confidence := maxFloat (lit "0.0") (minFloat args.confidence (lit "1.0"))
    attrs := args.attrs
    status := args.status
    evidenceRefs := args.evidenceRefs }

/-- `EvidenceEvent.to_dict`. -/
def EvidenceEvent.toDict (event : EvidenceEvent F) : Row F :=
  [(pyStr "event_id", .str event.eventId), (pyStr "ts", .str event.ts),
    (pyStr "source", .str event.source), (pyStr "kind", .str event.kind),
    (pyStr "subject", .str event.subject), (pyStr "severity", .int event.severity),
    (pyStr "confidence", .float (PyArith.round4 event.confidence)),
    (pyStr "attrs", .obj event.attrs)] ++
  (if event.status = [] then [] else [(pyStr "status", .str event.status)]) ++
  (if event.evidenceRefs = [] then []
    else [(pyStr "evidence_refs", .arr (event.evidenceRefs.map .str))])

/-! ## 2. The adapters -/

/-- The subject of an event about a flow. -/
def flowSubject (srcIp dstIp : PyStr) (port : ℤ) (proto : PyStr) : PyStr :=
  srcIp ++ pyStr "->" ++ dstIp ++ pyStr ":" ++ ofText (intText port) ++ pyStr "/" ++ proto

/-- `str(row.get(key) or '-')`. -/
def textOrDash (key : String) (row : Row F) : PyStr :=
  strOrDefault (pyStr "-") (getKey (pyStr key) row)

section Adapt

variable (sha : Text → PyStr) (now : PyStr)

/-- `adapt_suricata_record`. -/
def adaptSuricataRecord (record : Row F) : Option (EvidenceEvent F) := do
  let normalized := asDict (getKey (pyStr "normalized") record)
  let defense := asDict (getKey (pyStr "defense") record)
  let get := fun key : String => getKey (pyStr key) normalized
  let sourceTs := strOr (get "ts")
  let srcIp := textOrDash "src_ip" normalized
  let dstIp := textOrDash "dst_ip" normalized
  let proto := textOrDash "protocol" normalized
  let targetPort ← intOr0 (get "target_port")
  let subject := flowSubject srcIp dstIp targetPort proto
  let sid ← intOr0 (get "sid")
  let suricataSeverity ← intOr0 (get "severity")
  let riskScore ← intOr0 (get "risk_score")
  let confidenceRaw ← intOr0 (get "confidence")
  let ingestEpoch ← floatOr0 (get "ingest_epoch")
  let attrs : Row F :=
    [(pyStr "sid", .int sid),
      (pyStr "attack_type", .str (strOr (get "attack_type"))),
      (pyStr "suricata_severity", .int suricataSeverity),
      (pyStr "category", .str (strOr (get "category"))),
      (pyStr "event_type", .str (strOr (get "event_type"))),
      (pyStr "action", .str (strOr (get "action"))),
      (pyStr "protocol", .str proto),
      (pyStr "target_port", .int targetPort),
      (pyStr "risk_score", .int riskScore),
      (pyStr "confidence_raw", .int confidenceRaw),
      (pyStr "ingest_epoch", .float ingestEpoch),
      (pyStr "defense", .obj defense),
      (pyStr "pipeline", .str (strOr (getKey (pyStr "pipeline") record)))]
  let confidence ← floatOr0 (get "confidence")
  return .build sha now
    { ts := sourceTs
      source := pyStr "suricata_eve"
      kind := strOrDefault (pyStr "alert") (get "event_type")
      subject := subject
      severity := riskScore
      confidence := minFloat (lit "1.0")
        (maxFloat (lit "0.0") (PyArith.div confidence (lit "100.0")))
      attrs := attrs
      status := pyStr "alert"
      evidenceRefs := if sid = 0 then [] else [pyStr "suricata_sid:" ++ ofText (intText sid)] }

/-- How far a flow is from a normal one. -/
def anomalyScore (flowState : PyStr) (bytesToserver bytesToclient pktsToserver pktsToclient : ℤ) :
    ℤ :=
  let score := 0
  let score := if PyConvert.lower F flowState ∈ ["failed", "reset", "timeout"].map pyStr then
    max score 45 else score
  let score := if 0 < bytesToserver ∧ bytesToclient = 0 then max score 20 else score
  if 20 ≤ pktsToserver ∧ pktsToclient = 0 then max score 35 else score

/-- `adapt_flow_record`. -/
def adaptFlowRecord (record : Row F) : Option (EvidenceEvent F) := do
  let get := fun key : String => getKey (pyStr key) record
  let ts := strOr (get "ts")
  let srcIp := textOrDash "src_ip" record
  let dstIp := textOrDash "dst_ip" record
  let proto := strOrDefault (pyStr "-") (pyOr (get "proto") (get "protocol"))
  let dstPort ← intOr0 (pyOr (get "dst_port") (get "target_port"))
  let subject := flowSubject srcIp dstIp dstPort proto
  let flowState := strOrDefault (pyStr "observed") (pyOr (get "flow_state") (get "state"))
  let bytesToserver ← intOr0 (get "bytes_toserver")
  let bytesToclient ← intOr0 (get "bytes_toclient")
  let pktsToserver ← intOr0 (get "pkts_toserver")
  let pktsToclient ← intOr0 (get "pkts_toclient")
  let durationSec ← floatOr0 (get "duration_sec")
  let score := anomalyScore (F := F) flowState bytesToserver bytesToclient pktsToserver pktsToclient
  let flowId := strOr (get "flow_id")
  let attrs : Row F :=
    [(pyStr "src_ip", .str srcIp),
      (pyStr "dst_ip", .str dstIp),
      (pyStr "dst_port", .int dstPort),
      (pyStr "proto", .str proto),
      (pyStr "app_proto", .str (strOr (get "app_proto"))),
      (pyStr "flow_state", .str flowState),
      (pyStr "duration_sec", .float durationSec),
      (pyStr "bytes_toserver", .int bytesToserver),
      (pyStr "bytes_toclient", .int bytesToclient),
      (pyStr "pkts_toserver", .int pktsToserver),
      (pyStr "pkts_toclient", .int pktsToclient),
      (pyStr "community_id", .str (strOr (get "community_id"))),
      (pyStr "flow_id", .str flowId)]
  return .build sha now
    { ts := ts
      source := pyStr "flow_min"
      kind := pyStr "flow_summary"
      subject := subject
      severity := score
      confidence := lit "0.7"
      attrs := attrs
      status := if 0 < score then pyStr "warn" else pyStr "info"
      evidenceRefs := if flowId = [] then [] else [pyStr "flow:" ++ flowId] }

end Adapt

end AzazelEdge.EvidencePlane
