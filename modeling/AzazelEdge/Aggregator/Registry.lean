/-
# The registry of the aggregator

`AggregatorRegistry`: the nodes, the last summary of each, and the replay cache.  A summary is
checked first without the lock (`checkSummary`), and what comes of the checks is then decided and
stored under it (`storeSummary`).

Floats are abstract (`PyFloat`, `PyClock`), and so is `datetime.fromisoformat`; the signature is the
HMAC of the source.  An exception is the text it carries.
-/
import AzazelEdge.Lib.Hmac
import AzazelEdge.Lib.PyNumber
import AzazelEdge.Decision.Payload

namespace AzazelEdge.Aggregator

open AzazelEdge.Lib AzazelEdge.Lib.Py AzazelEdge.Audit

/-! ## 1. Times -/

/-- What is asked of floats as times, and of `datetime`. -/
class PyClock (F : Type) [PyFloat F] where
  isNan : F → Bool
  /-- `x + n`. -/
  add : F → ℤ → F
  /-- `float(datetime.fromisoformat(s).timestamp())`; none when it raises. -/
  ofIso : PyStr → Option F
  /-- Between numbers, `<` is the order of a line. -/
  not_lt_trans : ∀ a b c : F, isNan b = false → PyFloat.lt (.inr b) (.inr a) = false →
    PyFloat.lt (.inr c) (.inr b) = false → PyFloat.lt (.inr c) (.inr a) = false

variable {F : Type} [PyFloat F] [PyRepr F] [PyConvert F] [PyClock F]

/-- `a < b` of two floats. -/
def fltLt (a b : F) : Bool := PyFloat.lt (.inr a) (.inr b)

/-- `a <= b` of two floats. -/
def fltLe (a b : F) : Bool := !PyClock.isNan a && !PyClock.isNan b && !fltLt b a

/-- A trailing `Z` as an offset. -/
def zoned (s : PyStr) : PyStr :=
  if s.getLast? = some (Fin.ofNat 0x110000 90) then s.dropLast ++ pyStr "+00:00" else s

/-- `_coerce_epoch`; none when `float` overflows. -/
def coerceEpoch (value : Option (PyJson F)) (default : F) : Option F :=
  match value with
  | none | some .null | some (.str []) => some default
  | some (.bool b) => PyConvert.floatOfInt (if b then 1 else 0)
  | some (.int n) => PyConvert.floatOfInt n
  | some (.float x) => some x
  | some value =>
    let s := Decision.strip (strOf value)
    if s = [] then some default else some ((PyClock.ofIso (zoned s)).getD default)

/-! ## 2. State -/

abbrev kTraceId : PyStr := pyStr "trace_id"
abbrev kNode : PyStr := pyStr "node"
abbrev kNodeId : PyStr := pyStr "node_id"
abbrev kSiteId : PyStr := pyStr "site_id"
abbrev kNodeLabel : PyStr := pyStr "node_label"
abbrev kTimestamps : PyStr := pyStr "timestamps"
abbrev kGeneratedAt : PyStr := pyStr "generated_at"
abbrev kSig : PyStr := pyStr "sig"
abbrev kDigest : PyStr := pyStr "digest"

inductive NodeStatus where
  | active
  | quarantined
deriving DecidableEq

/-- A row of `_nodes`.  A node seen only through ingest has no `poll_url`. -/
structure NodeRecord (F : Type) where
  nodeId : PyStr
  siteId : PyStr
  nodeLabel : PyStr
  trustFingerprint : PyStr
  pollUrl : Option PyStr
  role : Option PyStr
  status : NodeStatus
  createdAt : F
  updatedAt : F

/-- The arguments of `AggregatorRegistry`. -/
structure Config where
  hmacSecret : Option Text
  sigRequired : Bool
  replayWindowSec : ℤ
  window_pos : 1 ≤ replayWindowSec

/-- `AggregatorRegistry`. -/
structure Registry (F : Type) where
  nodes : List (PyStr × NodeRecord F)
  summaries : List (PyStr × Row F)
  seen : List (PyStr × F)

def Registry.empty : Registry F := ⟨[], [], []⟩

/-! ## 3. Registration -/

/-- `NODE_ROLES`. -/
def nodeRoles : List PyStr := []

/-- `normalize_node_role`. -/
def normalizeNodeRole : Option (PyJson F) → Except String (Option PyStr)
  | none | some .null => .ok none
  | some (.str s) =>
    let s := Decision.strip s
    if s = [] then .ok none
    else if s ∈ nodeRoles then .ok (some s)
    else .error "role_unknown"
  | _ => .error "role_must_be_string"

/-- `register_node`. -/
def registerNode (reg : Registry F) (now : F) (nodeId siteId nodeLabel trustFingerprint pollUrl : PyStr)
    (role : Option (PyJson F)) : Except String (Registry F × NodeRecord F) := do
  let nid := Decision.strip nodeId
  let sid := Decision.strip siteId
  if nid = [] then throw "node_id_required"
  if sid = [] then throw "site_id_required"
  let nodeRole ← normalizeNodeRole role
  let createdAt := match getKey nid reg.nodes with
    | some row => if PyFloat.truthy row.createdAt then row.createdAt else now
    | none => now
  -- Always active again, which clears a quarantine.
  let updated : NodeRecord F :=
    { nodeId := nid
      siteId := sid
      nodeLabel := Decision.strip nodeLabel
      trustFingerprint := Decision.strip trustFingerprint
      pollUrl := some (Decision.strip pollUrl)
      role := nodeRole
      status := .active
      createdAt
      updatedAt := now }
  pure ({ reg with nodes := setKey nid updated reg.nodes }, updated)

/-! ## 4. Signatures -/

/-- `_stable_json`. -/
def stableJson (value : PyJson F) : Text := text (sortKeys value)

/-- `compute_ingest_sig`. -/
def computeIngestSig (summaryWithoutSig : Row F) (nodeId : PyStr) (generatedAt : F) (secret : Text) :
    PyStr :=
  let digest := Sha256.hexdigest (stableJson (.obj summaryWithoutSig))
  let claims : Row F :=
    [(kDigest, .str digest), (kGeneratedAt, .float generatedAt), (kNodeId, .str nodeId)]
  Sha256.hmacHex secret (stableJson (.obj claims))

/-- `verify_ingest_sig`; none when `compare_digest` raises, which it does unless its texts are
ASCII. -/
def verifyIngestSig (summaryWithoutSig : Row F) (nodeId : PyStr) (generatedAt : F) (sigHex : PyStr)
    (secret : Text) : Option Bool :=
  let expected := computeIngestSig summaryWithoutSig nodeId generatedAt secret
  let given := PyConvert.lower F sigHex
  if given.all fun c => c.val < 128 then some (expected = given) else none

/-! ## 5. Ingest -/

/-- The members of a mapping, else none of them. -/
def membersOf : Option (PyJson F) → Row F
  | some (.obj members) => members
  | _ => []

/-- `{k: v for k, v in summary.items() if k != "sig"}`. -/
def withoutSig (summary : Row F) : Row F := summary.filter fun item => item.1 ≠ kSig

/-- `summary["timestamps"]["generated_at"]`, where there is one. -/
def generatedAtOf (summary : Row F) : Option (PyJson F) :=
  getKey kGeneratedAt (membersOf (getKey kTimestamps summary))

/-- What the checks without the lock made of a summary. -/
structure Checked (F : Type) where
  traceId : PyStr
  nodeId : PyStr
  siteId : PyStr
  nodeLabel : PyStr
  generatedAt : F
  payload : Row F
  replayKey : PyStr
  sigFail : Bool

/-- `f"{node_id}\x00{generated_at}\x00{digest}"`. -/
def replayKey (nodeId : PyStr) (generatedAt : F) (payload : Row F) : PyStr :=
  nodeId ++ 0 :: (PyFloat.str generatedAt ++ 0 :: Sha256.hexdigest (stableJson (.obj payload)))

/-- The signature check of `ingest_summary`: whether it failed, unless it raised. -/
def checkSig (cfg : Config) (payload : Row F) (nodeId : PyStr) (generatedAt : F) (sig : PyStr) :
    Except String Bool := do
  if cfg.hmacSecret.isNone ∧ cfg.sigRequired = false then return false
  if sig = [] then throw "sig_missing"
  match cfg.hmacSecret with
  | none => return false
  | some secret =>
    match verifyIngestSig payload nodeId generatedAt sig secret with
    | none => throw "comparing strings with non-ASCII characters is not supported"
    | some verified => return !verified

/-- `ingest_summary` as far as it needs no lock. -/
def checkSummary (cfg : Config) (now : F) (summary : Row F) : Except String (Checked F) := do
  let traceId := Decision.strip (strOr (getKey kTraceId summary))
  if traceId = [] then throw "trace_id_required"
  let some (.obj node) := getKey kNode summary | throw "node_object_required"
  let nodeId := Decision.strip (strOr (getKey kNodeId node))
  let siteId := Decision.strip (strOr (getKey kSiteId node))
  if nodeId = [] then throw "node.node_id_required"
  if siteId = [] then throw "node.site_id_required"
  let some generatedAt := coerceEpoch (generatedAtOf summary) now
    | throw "int too large to convert to float"
  if fltLt (PyClock.add now 300) generatedAt then throw "generated_at_in_future"
  let payload := withoutSig summary
  let sigFail ← checkSig cfg payload nodeId generatedAt
    (Decision.strip (strOr (getKey kSig summary)))
  return { traceId, nodeId, siteId
           nodeLabel := Decision.strip (strOr (getKey kNodeLabel node))
           generatedAt, payload
           replayKey := replayKey nodeId generatedAt payload
           sigFail }

/-- `_prune_seen`. -/
def pruneSeen (now : F) (seen : List (PyStr × F)) : List (PyStr × F) :=
  seen.filter fun entry => !fltLe entry.2 now

/-- `prev_generated_at`. -/
def storedEpoch (summary : Row F) (zero : F) : Option F := coerceEpoch (generatedAtOf summary) zero

/-- `0.0`. -/
def zeroEpoch : F := lit "0.0"

/-- The refusals under the lock, of a summary whose signature did not fail. -/
def refusal (cfg : Config) (reg : Registry F) (now : F) (c : Checked F) : Option String :=
  let record := getKey c.nodeId reg.nodes
  if (cfg.hmacSecret.isSome || cfg.sigRequired) && record.isNone then some "node_not_registered"
  else if record.any fun record => record.status = .quarantined then some "node_quarantined"
  else if (getKey c.replayKey (pruneSeen now reg.seen)).isSome then some "replay_detected"
  else match getKey c.nodeId reg.summaries with
    | none => none
    | some existing =>
      match storedEpoch existing zeroEpoch with
      | none => some "int too large to convert to float"
      | some prev => if fltLt c.generatedAt prev then some "older_summary_rejected" else none

/-- What `ingest_summary` returns. -/
structure Receipt (F : Type) where
  traceId : PyStr
  nodeId : PyStr
  generatedAt : F
  receivedAt : F

/-- `ingest_summary` under the lock. -/
def storeSummary (cfg : Config) (reg : Registry F) (now : F) (c : Checked F) :
    Registry F × Except String (Receipt F) :=
  let record := getKey c.nodeId reg.nodes
  if c.sigFail then
    -- The node stays registered but can no longer ingest.
    match record with
    | some record =>
      ({ reg with
          nodes := setKey c.nodeId { record with status := .quarantined, updatedAt := now } reg.nodes },
        .error "sig_invalid")
    | none => (reg, .error "sig_invalid")
  else match refusal cfg reg now c with
    | some e =>
      -- The two refusals that come before the replay cache leave it unpruned.
      (if e = "node_not_registered" ∨ e = "node_quarantined" then reg
        else { reg with seen := pruneSeen now reg.seen }, .error e)
    | none =>
      let updated : NodeRecord F := match record with
        | some record => { record with updatedAt := now }
        | none =>
          { nodeId := c.nodeId, siteId := c.siteId, nodeLabel := c.nodeLabel
            trustFingerprint := [], pollUrl := none, role := none
            status := .active, createdAt := now, updatedAt := now }
      (⟨setKey c.nodeId updated reg.nodes, setKey c.nodeId c.payload reg.summaries,
          setKey c.replayKey (PyClock.add now cfg.replayWindowSec) (pruneSeen now reg.seen)⟩,
        .ok ⟨c.traceId, c.nodeId, c.generatedAt, now⟩)

/-- `ingest_summary`. -/
def ingestSummary (cfg : Config) (reg : Registry F) (now : F) (summary : PyJson F) :
    Registry F × Except String (Receipt F) :=
  match summary with
  | .obj summary =>
    match checkSummary cfg now summary with
    | .error e => (reg, .error e)
    | .ok c => storeSummary cfg reg now c
  | _ => (reg, .error "summary_must_be_object")

/-- Times in whole seconds, and no dates. -/
instance : PyClock Whole where
  isNan _ := false
  add x n := ⟨(x.n + n).toNat⟩
  ofIso _ := none
  not_lt_trans a b c _ hba hcb := by
    have hlt : ∀ x y : Whole, PyFloat.lt (.inr x) (.inr y) = decide ((x.n : ℤ) < y.n) :=
      fun _ _ => rfl
    rw [hlt, decide_eq_false_iff_not] at hba hcb ⊢
    omega

/-! ## 6. What a checked summary says -/

/-- What the checks without the lock establish. -/
structure Passed (cfg : Config) (now : F) (summary : Row F) (c : Checked F) : Prop where
  node : ∃ node, getKey kNode summary = some (.obj node) ∧
    c.nodeId = Decision.strip (strOr (getKey kNodeId node))
  generatedAt : coerceEpoch (generatedAtOf summary) now = some c.generatedAt
  payload : c.payload = withoutSig summary
  replayKey : c.replayKey = Aggregator.replayKey c.nodeId c.generatedAt c.payload
  sig : checkSig cfg c.payload c.nodeId c.generatedAt
    (Decision.strip (strOr (getKey kSig summary))) = .ok c.sigFail

theorem checkSummary_ok {cfg : Config} {now : F} {summary : Row F} {c : Checked F}
    (h : checkSummary cfg now summary = .ok c) : Passed cfg now summary c := by
  unfold checkSummary at h
  dsimp only at h
  rw [guard_eq_ok] at h
  obtain ⟨-, h⟩ := h
  split at h
  · rename_i node hnode
    rw [guard_eq_ok] at h
    obtain ⟨-, h⟩ := h
    rw [guard_eq_ok] at h
    obtain ⟨-, h⟩ := h
    split at h
    · rename_i generatedAt hgenerated
      rw [guard_eq_ok] at h
      obtain ⟨-, h⟩ := h
      obtain ⟨sigFail, hsig, h⟩ := bind_eq_ok h
      obtain rfl := Except.ok.inj h
      exact ⟨⟨node, hnode, rfl⟩, hgenerated, rfl, rfl, hsig⟩
    · cases h
  · cases h

end AzazelEdge.Aggregator
