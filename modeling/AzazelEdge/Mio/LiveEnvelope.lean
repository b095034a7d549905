/-
# The envelope of the live advisory

`mio_live_auxiliary.py`: what is projected of a decision event, the envelope that a job is answered
with, and the check that its handoff binding names the event it belongs to.

An envelope is a dict of fixed keys, most of them always there: the fields here, where an `Option` is a
key that may be missing, or `None`.  Only the advisory is a dict from outside.
-/
import AzazelEdge.Audit.Record
import AzazelEdge.Decision.Payload
import AzazelEdge.Lib.PyNumber
import AzazelEdge.Lib.Sha256
import Mathlib.Algebra.Group.Int.Defs

namespace AzazelEdge.Mio.Live

open AzazelEdge.Lib AzazelEdge.Lib.Py AzazelEdge.Audit AzazelEdge.Decision

/-! ## 1. `_safe_edge_event` -/

/-- `_EDGE_ACTIONS`. -/
def edgeActions : List PyStr := ["observe", "notify", "throttle", "redirect", "isolate"].map pyStr

/-- `_EDGE_MODES`. -/
def edgeModes : List PyStr :=
  ["disabled", "dry_run", "policy_gated", "release_guard_failed", "enforced"].map pyStr

/-- `_EDGE_RESULTS`. -/
def edgeResults : List PyStr :=
  ["no_disruptive_action", "planned_not_applied", "extended", "already_held", "applied", "failed",
    "uncertain"].map pyStr

def kMode : PyStr := pyStr "mode"
def kResult : PyStr := pyStr "result"
def kTraceId : PyStr := pyStr "trace_id"
def kFrameId : PyStr := pyStr "frame_id"
def kSelectedAction : PyStr := pyStr "selected_action"

/-- `[A-Za-z0-9._:-]{1,96}`. -/
def safeTrace (s : PyStr) : Bool :=
  decide (s ≠ []) && decide (s.length ≤ 96) &&
    s.all fun c => isAsciiAlnum c.val || [46, 95, 58, 45].contains c.val

/-- What `_safe_edge_event` returns. -/
structure EdgeEvent where
  action : Option PyStr
  mode : Option PyStr
  result : Option PyStr
  traceId : Option PyStr
  unknownFields : Bool
deriving DecidableEq

/-- `{}`. -/
def EdgeEvent.empty : EdgeEvent := ⟨none, none, none, none, false⟩

section Project

variable {F : Type}

/-- A string that the check lets pass, and whether there is another value than `None`. -/
def project (check : PyStr → Option PyStr) : Option (PyJson F) → Option PyStr × Bool
  | some (.str s) => (check s, (check s).isNone)
  | some .null | none => (none, false)
  | some _ => (none, true)

/-- A word of the vocabulary. -/
def inVocabulary (allowed : List PyStr) (s : PyStr) : Option PyStr :=
  if s ∈ allowed then some s else none

variable [PyConvert F]

/-- `_safe_edge_event`. -/
def safeEdgeEvent (event : Row F) : EdgeEvent :=
  let defense := mapping kDefense event
  let enforcement := mapping kEnforcement event
  let unknown :=
    enforcement.any (fun item => item.1 ∉ [kMode, kResult, kTraceId, kSelectedAction]) ||
      defense.any (fun item => item.1 ≠ kAction)
  let selected :=
    (getKey kSelectedAction enforcement).any fun value =>
      (project (inVocabulary edgeActions) (some value)).1.isNone
  let action := project (fun s => inVocabulary edgeActions (PyConvert.lower F s)) (getKey kAction defense)
  let mode := project (inVocabulary edgeModes) (getKey kMode enforcement)
  let result := project (inVocabulary edgeResults) (getKey kResult enforcement)
  let trace := project (fun s => if safeTrace s then some s else none) (getKey kTraceId enforcement)
  ⟨action.1, mode.1, result.1, trace.1,
    unknown || selected || action.2 || mode.2 || result.2 || trace.2⟩

end Project

/-! ## 2. `_source_context` -/

/-- `_SAFE_LABEL`. -/
def safeLabel : PyStr → Bool
  | [] => false
  | c :: cs =>
    isAsciiAlnum c.val && decide (cs.length ≤ 95) &&
      cs.all fun c => isAsciiAlnum c.val ||
        [32, 46, 95, 58, 47, 43, 40, 41, 91, 93, 45].contains c.val

/-- So many digits. -/
def allDigits (n : ℕ) (t : Text) : Bool := decide (t.length = n) && t.all isDigit

/-- `_SAFE_TECHNIQUE`. -/
def safeTechnique (s : PyStr) : Bool :=
  match s.map Fin.val with
  | 84 :: t =>
    allDigits 4 (t.take 4) &&
      match t.drop 4 with
      | [] => true
      | 46 :: rest => allDigits 3 rest
      | _ => false
  | _ => false

/-- `_SAFE_TIMESTAMP`. -/
def safeTimestamp (s : PyStr) : Bool :=
  decide (s ≠ []) && decide (s.length ≤ 32) &&
    s.all fun c => isDigit c.val || [84, 116, 90, 122, 58, 43, 46, 45].contains c.val

/-- `_OBSERVED_OUTCOMES`. -/
def observedOutcomes : List PyStr := ["allowed", "blocked", "drop", "rejected"].map pyStr

def kEventType : PyStr := pyStr "event_type"
def kSid : PyStr := pyStr "sid"
def kTs : PyStr := pyStr "ts"

/-- What `_source_context` returns: a field is missing, or it has a value that was observed. -/
structure SourceContext (F : Type) where
  eventKey : PyStr
  fields : List (PyStr × Option (PyJson F))

section Context

variable {F : Type} [PyFloat F] [PyConvert F]

/-- A field of small text. -/
def labelField (limit : ℕ) : Option (PyJson F) → Option (PyJson F)
  | some (.str raw) =>
    if PyConvert.lower F (strip raw) ≠ pyStr "unknown" ∧ safeLabel (raw.take 96) = true ∧
        raw.length ≤ limit then some (.str raw) else none
  | _ => none

/-- A field with a number in its range. -/
def intField (low high : ℤ) : Option (PyJson F) → Option (PyJson F)
  | some (.int n) => if low ≤ n ∧ n ≤ high then some (.int n) else none
  | _ => none

def timestampField : Option (PyJson F) → Option (PyJson F)
  | some (.str raw) => if safeTimestamp raw then some (.str raw) else none
  | _ => none

def techniqueField : Option (PyJson F) → Option (PyJson F)
  | some (.arr items) => some (.arr ((items.take 16).filter fun item => match item with
    | .str s => safeTechnique s
    | _ => false))
  | _ => none

def outcomeField : Option (PyJson F) → Option (PyJson F)
  | some (.str raw) =>
    let outcome := PyConvert.lower F (strip raw)
    if outcome ∈ observedOutcomes then some (.str outcome) else none
  | _ => none

/-- The fields of `_source_context`. -/
def contextFields (normalized : Row F) : List (PyStr × Option (PyJson F)) :=
  let read := fun key => getKey (pyStr key) normalized
  [(kEventType, labelField 32 (read "event_type")),
    (pyStr "attack_type", labelField 96 (read "attack_type")),
    (pyStr "category", labelField 64 (read "category")),
    (pyStr "protocol", labelField 16 (read "protocol")),
    (kTs, timestampField (read "ts")),
    (kSid, intField 1 (2 ^ 31 - 1) (read "sid")),
    (pyStr "severity", intField 0 10 (read "severity")),
    (pyStr "target_port", intField 1 65535 (read "target_port")),
    (pyStr "technique_ids", techniqueField (read "technique_ids")),
    (pyStr "normalized_outcome", outcomeField (read "action"))]

/-- The value of a field. -/
def field (key : PyStr) (fields : List (PyStr × Option (PyJson F))) : Option (PyJson F) :=
  (getKey key fields).join

/-- `_source_context`. -/
def sourceContext (event : Row F) : SourceContext F :=
  let fields := contextFields (mapping kNormalized event)
  let identity : Row F := [kEventType, kSid, kTs].filterMap fun key =>
    (field key fields).map fun value => (key, value)
  let digest := (Sha256.hexdigest (text (sortKeys (.obj identity)))).take 24
  ⟨if (field kEventType fields).isSome && (field kSid fields).isSome then digest else [], fields⟩

end Context

/-! ## 3. Envelopes -/

/-- `handoff_binding`. -/
structure Binding where
  status : PyStr
  generation : PyStr
  eventKey : PyStr
  edgeTraceId : PyStr
  edgeAction : Option PyStr
  edgeMode : Option PyStr
  edgeResult : Option PyStr
  mioTraceId : PyStr
  frameId : PyStr
  valid : Option Bool

structure Envelope (F : Type) where
  status : PyStr
  reason : PyStr
  generation : PyStr
  traceId : PyStr
  observations : List PyStr
  derivedSignals : List PyStr
  knowledgeStatus : PyStr
  advisory : Option (Row F)
  edgeEvent : EdgeEvent
  sourceContext : Option (SourceContext F)
  handoffBinding : Option Binding
  knowledgeAdvisory : Option (Row F)

def sComplete : PyStr := pyStr "complete"
def sMatched : PyStr := pyStr "matched"

section Envelope

variable {F : Type}

/-- `_unavailable`. -/
def unavailable (reason : PyStr) : Envelope F where
  status := if reason = pyStr "package_unavailable" then pyStr "unavailable" else pyStr "degraded"
  reason := reason
  generation := []
  traceId := []
  observations := []
  derivedSignals := []
  knowledgeStatus := pyStr "not_provided"
  advisory := none
  edgeEvent := .empty
  sourceContext := none
  handoffBinding := none
  knowledgeAdvisory := none

/-- `binding_matches_same_envelope`. -/
def bindingMatches (payload : Envelope F) : Bool :=
  match payload.handoffBinding, payload.sourceContext with
  | some binding, some context =>
    let edge := payload.edgeEvent
    decide (context.eventKey ≠ []) &&
    (edge.traceId.any safeTrace && edge.action.any (· ∈ edgeActions) &&
      edge.mode.any (· ∈ edgeModes) && edge.result.any (· ∈ edgeResults)) &&
    (decide (binding.generation = payload.generation) &&
      decide (binding.eventKey = context.eventKey) &&
      decide (some binding.edgeTraceId = edge.traceId) && decide (binding.edgeAction = edge.action) &&
      decide (binding.edgeMode = edge.mode) && decide (binding.edgeResult = edge.result)) &&
    decide (binding.edgeTraceId = payload.traceId) &&
    (if payload.status = sComplete then
      match payload.advisory with
      | some advisory =>
        isStr binding.mioTraceId (getKey kTraceId advisory) &&
          isStr binding.frameId (getKey kFrameId advisory)
      | none => false
    else true) &&
    decide (binding.status = sMatched)
  | _, _ => false

/-! ## 4. The size of an envelope -/

def optStr (key : String) : Option PyStr → Row F
  | some s => [(pyStr key, .str s)]
  | none => []

/-- The dict of an edge event. -/
def EdgeEvent.row (e : EdgeEvent) : Row F :=
  optStr "action" e.action ++ optStr "mode" e.mode ++ optStr "result" e.result ++
    optStr "trace_id" e.traceId ++
    if e.unknownFields then [(pyStr "unknown_fields", .bool true)] else []

def orNone : Option PyStr → PyJson F
  | some s => .str s
  | none => .null

def Binding.row (b : Binding) : Row F :=
  [(pyStr "status", .str b.status), (pyStr "generation", .str b.generation),
    (pyStr "event_key", .str b.eventKey), (pyStr "edge_trace_id", .str b.edgeTraceId),
    (pyStr "edge_action", orNone b.edgeAction), (pyStr "edge_mode", orNone b.edgeMode),
    (pyStr "edge_result", orNone b.edgeResult), (pyStr "mio_trace_id", .str b.mioTraceId),
    (pyStr "frame_id", .str b.frameId)] ++
    b.valid.toList.map fun valid => (pyStr "valid", .bool valid)

def SourceContext.row (c : SourceContext F) : Row F :=
  [(pyStr "event_key", .str c.eventKey),
    (pyStr "fields", .obj (c.fields.map fun (key, value) =>
      (key, .obj [(pyStr "value", value.getD .null),
        (pyStr "status", .str (pyStr (if value.isSome then "observed" else "unavailable"))),
        (pyStr "provenance", .str (pyStr "rust_core_normalized_event"))])))]

/-- The dict of an envelope of an instance with this `max_age_seconds`. -/
def Envelope.row (maxAge : F) (e : Envelope F) : Row F :=
  [(pyStr "schema_version", .str (pyStr "azazel.mio_auxiliary.v1")), (pyStr "status", .str e.status),
    (pyStr "reason", .str e.reason), (pyStr "authority", .str (pyStr "read_only_advisory")),
    (pyStr "source", .str (pyStr "mio_shared_core")), (pyStr "generation", .str e.generation),
    (pyStr "max_age_seconds", .float maxAge), (pyStr "trace_id", .str e.traceId),
    (pyStr "provenance", .obj [(pyStr "observations", .arr (e.observations.map .str)),
      (pyStr "derived_signals", .arr (e.derivedSignals.map .str))]),
    (pyStr "knowledge", .obj [(pyStr "status", .str e.knowledgeStatus), (pyStr "refs", .arr [])]),
    (pyStr "advisory", (e.advisory.map .obj).getD .null), (pyStr "edge_event", .obj e.edgeEvent.row)] ++
    (e.sourceContext.toList.map fun c => (pyStr "source_context", .obj c.row)) ++
    (e.handoffBinding.toList.map fun b => (pyStr "handoff_binding", .obj b.row)) ++
    e.knowledgeAdvisory.toList.map fun a => (pyStr "edge_knowledge_advisory", .obj a)

/-- `len(json.dumps(result, sort_keys=True, ...))`. -/
def Envelope.size [PyFloat F] (maxAge : F) (e : Envelope F) : ℕ :=
  (text (sortKeys (.obj (e.row maxAge)))).length

end Envelope

/-! ## 5. `_project_knowledge_advisory` -/

/-- `[a-z][a-z0-9_-]{0,31}`. -/
def safeGroup : PyStr → Bool
  | [] => false
  | c :: cs =>
    decide (97 ≤ c.val ∧ c.val ≤ 122) && decide (cs.length ≤ 31) &&
      cs.all fun c => decide (97 ≤ c.val ∧ c.val ≤ 122) || isDigit c.val || [95, 45].contains c.val

/-- `[0-9]{1,3}(?:\.[0-9]{1,3}){0,2}`. -/
def safeVersion (s : PyStr) : Bool :=
  let parts := (s.map Fin.val).splitOn 46
  decide (parts.length ≤ 3) &&
    parts.all fun part => decide (part ≠ []) && decide (part.length ≤ 3) && part.all isDigit

section Knowledge

variable {F : Type} [PyFloat F] [PyArith F]

/-- A list of at most `cap` strings of the pattern. -/
def safeList (cap : ℕ) (pattern : PyStr → Bool) : Option (PyJson F) → Option (List (PyJson F))
  | some (.arr items) =>
    if items.length ≤ cap ∧ items.all (fun item => match item with
      | .str s => pattern s
      | _ => false) = true then some items else none
  | _ => none

/-- `days` is missing, or a number from 0 to 36500. -/
def safeDays : Option (PyJson F) → Bool
  | none | some .null => true
  | some (.int n) => decide (0 ≤ n ∧ n ≤ 36500)
  | some (.float x) =>
    !PyArith.isNan x && !PyFloat.lt (.inr x) (.inl 0 : ℤ ⊕ F) && !PyFloat.lt (.inl 36500 : ℤ ⊕ F) (.inr x)
  | _ => false

/-- `attack_version` is missing, or a version. -/
def safeAttackVersion : Option (PyJson F) → Bool
  | none | some .null => true
  | some (.str s) => safeVersion s
  | _ => false

/-- `source_freshness`. -/
def safeFreshness : Option (PyJson F) → Option (Row F)
  | some (.obj freshness) =>
    if freshness.all (fun item => item.1 ∈ ["oldest_feed_days", "attack_version"].map pyStr) = true ∧
        safeDays (getKey (pyStr "oldest_feed_days") freshness) = true ∧
        safeAttackVersion (getKey (pyStr "attack_version") freshness) = true then
      some freshness
    else none
  | _ => none

/-- `_project_knowledge_advisory`. -/
def projectKnowledgeAdvisory (generation traceId : PyStr) (value : Option (PyJson F)) :
    Option (Row F) := do
  let some (.obj value) := value | none
  guard (isStr (pyStr "knowledge_context_response_advisory") (getKey (pyStr "kind") value) = true)
  guard (isStr (pyStr "knowledge_context_response") (getKey (pyStr "source_kind") value) = true)
  guard (isStr (pyStr "reported_unverified") (getKey (pyStr "claim_status") value) = true)
  guard (isStr (pyStr "unverified_advisory_only") (getKey (pyStr "trust") value) = true)
  let groups ← safeList 16 safeGroup (getKey (pyStr "source_groups") value)
  let techniques ← safeList 32 safeTechnique (getKey (pyStr "attack_techniques") value)
  let freshness ← safeFreshness (getKey (pyStr "source_freshness") value)
  return [(pyStr "schema_version", .str (pyStr "azazel.edge_knowledge_advisory.v1")),
    (pyStr "status", .str sComplete), (pyStr "authority", .str (pyStr "read_only_advisory")),
    (pyStr "generation", .str generation), (pyStr "trace_id", .str traceId),
    (pyStr "claim_status", .str (pyStr "reported_unverified")),
    (pyStr "source_groups", .arr groups), (pyStr "attack_techniques", .arr techniques),
    (pyStr "source_freshness", .obj freshness)]

end Knowledge

end AzazelEdge.Mio.Live
