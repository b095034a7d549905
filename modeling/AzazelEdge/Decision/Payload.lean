/-
# The record of a core decision

What `core_decisions.py` makes of an event of the core: the event's key, the payload of its
`action_decision` record, whether it is P0, and whether it is a past decision.

Times are floats, and the clock's text forms are `strptime`'s: both are parameters (`PyTime`).
-/
import AzazelEdge.Audit.Verified
import Mathlib.Data.List.DropRight

namespace AzazelEdge.Decision

open AzazelEdge.Lib AzazelEdge.Lib.Py AzazelEdge.Audit

/-! ## 1. Times -/

/-- What is asked of floats as times, and of `datetime`. -/
class PyTime (F : Type) where
  /-- `float(n)`; none on an `OverflowError`. -/
  ofInt : ℤ → Option F
  isFinite : F → Bool
  sub : F → F → F
  /-- `round(x, 3)`. -/
  round3 : F → F
  /-- `datetime.strptime(text, fmt).timestamp()`; none when it raises. -/
  timestamp : PyStr → PyStr → Option F

variable {F : Type} [PyFloat F] [PyTime F]

/-- A number as a float, when it is a finite one. -/
def finite (x : F) : Option F := if PyTime.isFinite x then some x else none

/-- `finite_epoch`. -/
def finiteEpoch : Option (PyJson F) → Option F
  | some (.int n) => (PyTime.ofInt n).bind finite
  | some (.float x) => finite x
  | _ => none

/-- `str.isspace` of a character. -/
def isSpace (c : CodePoint) : Bool :=
  let n := c.val
  decide (9 ≤ n ∧ n ≤ 13 ∨ 28 ≤ n ∧ n ≤ 32 ∨ n = 0x85 ∨ n = 0xA0 ∨ n = 0x1680 ∨
    0x2000 ≤ n ∧ n ≤ 0x200A ∨ n = 0x2028 ∨ n = 0x2029 ∨ n = 0x202F ∨ n = 0x205F ∨ n = 0x3000)

/-- `s.strip()`. -/
def strip (s : PyStr) : PyStr := ((s.dropWhile isSpace).reverse.dropWhile isSpace).reverse

/-- A text without blanks is not stripped. -/
theorem strip_solid {s : PyStr} (h : ∀ c ∈ s, isSpace c = false) : strip s = s := by
  have hdrop : ∀ s : PyStr, (∀ c ∈ s, isSpace c = false) → s.dropWhile isSpace = s := by
    intro s h
    cases s with
    | nil => rfl
    | cons c s => rw [List.dropWhile_cons_of_neg (by simp [h c List.mem_cons_self])]
  rw [strip, hdrop s h, hdrop s.reverse (by simpa using h), List.reverse_reverse]

/-- A string stripped twice is stripped. -/
theorem strip_strip (s : PyStr) : strip (strip s) = strip s := by
  have hstrip : ∀ s, strip s = (s.dropWhile isSpace).rdropWhile isSpace := fun _ => rfl
  have hfront : (strip s).dropWhile isSpace = strip s := by
    rw [List.dropWhile_eq_self_iff]
    intro hpos
    have hstart : strip s <+: s.dropWhile isSpace := List.rdropWhile_prefix _ _
    have hself := List.dropWhile_eq_self_iff.mp
      (List.dropWhile_idempotent (p := isSpace) s)
    have hsame := hstart.getElem hpos
    rw [hsame]
    exact hself (hpos.trans_le hstart.length_le)
  rw [hstrip (strip s), hfront, hstrip, List.rdropWhile_idempotent]

theorem mem_of_mem_strip {s : PyStr} {c : CodePoint} (h : c ∈ strip s) : c ∈ s := by
  have hback := List.mem_reverse.mp ((List.dropWhile_suffix _).subset (List.mem_reverse.mp h))
  exact (List.dropWhile_suffix _).subset hback

/-- The formats of a Suricata timestamp. -/
def tsFormats : List PyStr := [pyStr "%Y-%m-%dT%H:%M:%S.%f%z", pyStr "%Y-%m-%dT%H:%M:%S%z"]

/-- `event_ts_epoch` of a string. -/
def eventTsEpoch (ts : PyStr) : Option F :=
  if ts = [] then none
  else
    let text := strip ts
    let text := if text.getLast? = some (Fin.ofNat 0x110000 90) then text.dropLast ++ pyStr "+0000"
      else text
    (tsFormats.findSome? fun fmt => PyTime.timestamp (F := F) text fmt).bind finite

/-! ## 2. The event -/

abbrev kNormalized : PyStr := pyStr "normalized"
abbrev kDefense : PyStr := pyStr "defense"
abbrev kEnforcement : PyStr := pyStr "enforcement"
abbrev kAction : PyStr := pyStr "action"
abbrev kEventKey : PyStr := pyStr "core_event_key"
abbrev kIngestEpoch : PyStr := pyStr "core_ingest_epoch"

/-- A member when it is a mapping, else `{}`. -/
def mapping (key : PyStr) (row : Row F) : Row F :=
  match getKey key row with
  | some (.obj members) => members
  | _ => []

/-- A string with something in it. -/
def nonempty? : Option (PyJson F) → Option PyStr
  | some (.str (c :: cs)) => some (c :: cs)
  | _ => none

/-- `_int`. -/
def int? : Option (PyJson F) → Option ℤ
  | some (.int n) => some n
  | _ => none

/-- `value is True`. -/
def isTrue : Option (PyJson F) → Bool
  | some (.bool b) => b
  | _ => false

/-- `json.dumps` of a member that may be missing. -/
def orNull (value : Option (PyJson F)) : PyJson F := value.getD .null

/-- `core_event_key`. -/
def coreEventKey (sha : Text → PyStr) (event : Row F) : PyStr :=
  let normalized := mapping kNormalized event
  let defense := mapping kDefense event
  sha (text (.arr
    [orNull (getKey (pyStr "ts") normalized), orNull (getKey (pyStr "sid") normalized),
      orNull (getKey (pyStr "src_ip") normalized), orNull (getKey (pyStr "dst_ip") normalized),
      orNull (getKey (pyStr "target_port") normalized), orNull (getKey (pyStr "protocol") normalized),
      orNull (getKey kAction defense)]))

/-- The payload of a core decision. -/
structure Payload (F : Type) where
  action : PyStr
  decidedAction : PyStr
  reason : PyStr
  policyReason : PyStr
  target : PyStr
  mode : PyStr
  result : PyStr
  executed : Option ℤ
  failed : Option ℤ
  enforceEnabled : Bool
  dryRun : Bool
  level : PyStr
  key : PyStr
  traceId : PyStr
  ingestEpoch : Option F
  sid : Option ℤ
  severity : Option ℤ
  targetPort : Option ℤ
  eventTs : PyStr

def coreEventSource : PyStr := pyStr "suricata_eve"
def coreEventPipeline : PyStr := pyStr "rust_event_engine_v1"
def coreDecisionSource : PyStr := pyStr "azazel-edge-core"

section Build

variable [PyRepr F] (sha : Text → PyStr)

/-- `str(a or b or '')`. -/
def strOr2 (a b : Option (PyJson F)) : PyStr :=
  match a with
  | some value => if truthy value then strOf value else strOr b
  | none => strOr b

/-- `value == text`. -/
def isStr (s : PyStr) : Option (PyJson F) → Bool
  | some (.str s') => s' = s
  | _ => false

/-- `core_decision_payload` of an event. -/
def coreDecisionPayload (event : Row F) : Option (Payload F) :=
  if !isStr coreEventSource (getKey kSource event) ||
      !isStr coreEventPipeline (getKey (pyStr "pipeline") event) then none
  else
    match getKey kDefense event, getKey kEnforcement event with
    | some (.obj defense), some (.obj enforcement) =>
      match nonempty? (getKey kAction defense),
        nonempty? (getKey (pyStr "selected_action") enforcement) with
      | some decided, some effective =>
        let normalized := mapping kNormalized event
        let status := mapping (pyStr "enforcement_status") event
        some
          { action := effective
            decidedAction := decided
            reason := strOr (getKey (pyStr "reason") defense)
            policyReason := strOr2 (getKey (pyStr "policy_reason") enforcement)
              (getKey (pyStr "policy_reason") defense)
            target := strOr2 (getKey (pyStr "target") enforcement) (getKey (pyStr "target") defense)
            mode := strOr (getKey (pyStr "mode") enforcement)
            result := strOr (getKey (pyStr "result") enforcement)
            executed := int? (getKey (pyStr "executed_count") enforcement)
            failed := int? (getKey (pyStr "failed_count") enforcement)
            enforceEnabled := isTrue (getKey (pyStr "enforce_enabled") status)
            dryRun := isTrue (getKey (pyStr "dry_run") status)
            level := strOr (getKey (pyStr "enforce_level") status)
            key := coreEventKey sha event
            traceId := strOr (getKey kTraceId enforcement)
            ingestEpoch := finiteEpoch (getKey (pyStr "ingest_epoch") normalized)
            sid := int? (getKey (pyStr "sid") normalized)
            severity := int? (getKey (pyStr "severity") normalized)
            targetPort := int? (getKey (pyStr "target_port") normalized)
            eventTs := strOr (getKey (pyStr "ts") normalized) }
      | _, _ => none
    | _, _ => none

end Build

/-! ## 3. The record -/

/-- Where a record comes from: the live path, or a pass over the core's log, which says whether the
decision is past and how old. -/
inductive RecordedBy (F : Type) where
  | live (monotonicNs : ℤ) (epoch : F)
  | startupReconcile (stale : Option (Option F))
  | lossReconcile (stale : Option (Option F))

/-- A decision handed to `_record`. -/
structure Entry (F : Type) where
  payload : Payload F
  recordedBy : RecordedBy F

def Entry.key (e : Entry F) : PyStr := e.payload.key

/-- The trace id of the record. -/
def Entry.traceId (e : Entry F) : PyStr := pyStr "core-" ++ e.key.take 32

def optInt : Option ℤ → PyValue F
  | some n => .int n
  | none => .none

def optFloat : Option F → PyValue F
  | some x => .float x
  | none => .none

/-- The payload as a dict. -/
def Payload.items (p : Payload F) : Record F :=
  [(kAction, .str p.action), (pyStr "decided_action", .str p.decidedAction),
    (pyStr "effective_action", .str p.action), (pyStr "reason", .str p.reason),
    (pyStr "policy_reason", .str p.policyReason), (pyStr "target", .str p.target),
    (pyStr "enforcement_mode", .str p.mode), (pyStr "enforcement_result", .str p.result),
    (pyStr "enforcement_executed_count", optInt p.executed),
    (pyStr "enforcement_failed_count", optInt p.failed),
    (pyStr "enforce_enabled", .bool p.enforceEnabled), (pyStr "enforce_dry_run", .bool p.dryRun),
    (pyStr "enforce_level", .str p.level), (pyStr "core_pipeline", .str coreEventPipeline),
    (kEventKey, .str p.key), (pyStr "core_trace_id", .str p.traceId),
    (kIngestEpoch, optFloat p.ingestEpoch), (pyStr "sid", optInt p.sid),
    (pyStr "severity", optInt p.severity), (pyStr "target_port", optInt p.targetPort),
    (pyStr "event_ts", .str p.eventTs)]

def staleItems : Option (Option F) → Record F
  | some age => [(pyStr "reconcile_stale", .bool true), (pyStr "reconcile_event_age_s", optFloat age)]
  | none => []

def RecordedBy.items : RecordedBy F → Record F
  | .live monotonicNs epoch =>
    [(pyStr "agent_received_monotonic_ns", .int monotonicNs),
      (pyStr "agent_received_epoch", .float epoch), (pyStr "recorded_by", .str (pyStr "live"))]
  | .startupReconcile stale =>
    (pyStr "recorded_by", .str (pyStr "startup_reconcile")) :: staleItems stale
  | .lossReconcile stale => (pyStr "recorded_by", .str (pyStr "loss_reconcile")) :: staleItems stale

def Entry.items (e : Entry F) : Record F := e.payload.items ++ e.recordedBy.items

/-! ## 4. P0 -/

/-- `ENFORCEMENT_ACTIONS`. -/
def enforcementActions : List PyStr := [pyStr "throttle", pyStr "redirect", pyStr "isolate"]

/-- The label that a trace has. -/
def suspicionLabel (trace : List (PyKey F × PyValue F)) : Option PyStr :=
  trace.findSome? fun item =>
    match item with
    | (.str key, .str label) => if key = pyStr "suspicion_label" then some label else none
    | _ => none

/-- `classify_p0` of a record. -/
def classifyP0 (record : Record F) : PyStr :=
  match getKey kKind record with
  | some (.str kind) =>
    if kind ≠ pyStr "action_decision" then []
    else
      match getKey kAction record, getKey (pyStr "redirect") record,
        getKey (pyStr "decision_trace") record with
      | some (.str action), _, trace =>
        if action ∈ enforcementActions then pyStr "enforcement:" ++ action else socCritical trace
      | some _, _, trace => socCritical trace
      | none, some (.bool true), _ => pyStr "enforcement:redirect"
      | none, _, trace => socCritical trace
  | _ => []
where
  /-- `soc_critical`, when the trace says so. -/
  socCritical : Option (PyValue F) → PyStr
    | some (.dict trace) =>
      if suspicionLabel trace = some (pyStr "critical") then pyStr "soc_critical" else []
    | _ => []

/-- `is_p0`. -/
def isP0 (p : Payload F) : Bool :=
  !(classifyP0 (setKey kKind (.str (pyStr "action_decision")) p.items)).isEmpty

/-! ## 5. Past decisions -/

/-- `_event_epoch`. -/
def eventEpoch (p : Payload F) : Option F :=
  match eventTsEpoch p.eventTs with
  | some epoch => some epoch
  | none => p.ingestEpoch.bind finite

/-- `a < b`. -/
def less (a b : ℤ ⊕ F) : Bool := PyFloat.lt a b

/-- `CLOCK_SKEW_TOLERANCE_S`. -/
def clockSkewTolerance : ℤ := 60

/-- `_mark_stale`: nothing, or that it is past and how old. -/
def markStale (maxAge : F) (p : Payload F) (now : F) : Option (Option F) :=
  match eventEpoch p with
  | none => some none
  | some happened =>
    if less (.inl clockSkewTolerance) (.inr (PyTime.sub happened now)) ||
        less (.inr maxAge) (.inr (PyTime.sub now happened)) then
      some (some (PyTime.round3 (PyTime.sub now happened)))
    else none

end AzazelEdge.Decision
