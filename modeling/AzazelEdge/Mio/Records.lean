/-
# The records in a situation frame

An actor, an action and the deception context of `contracts.py`: how each is coerced from what a
caller supplies, and the dict it is written as.  A coerced record is normal, and a normal record
is coerced from its own dict (`coerce_toDict`).

A record that a caller supplies as an object is taken as its `to_dict()`.
-/
import AzazelEdge.Decision.Payload
import AzazelEdge.Arbiter.Action
import AzazelEdge.Lib.Distinct
import AzazelEdge.Mio.OpaqueId

namespace AzazelEdge.Mio

open AzazelEdge.Lib AzazelEdge.Lib.Py
open AzazelEdge.Audit (Row)
open AzazelEdge.Arbiter (asList)

/-! ## 1. Vocabularies -/

/-- A closed vocabulary, in the source's order. -/
class Vocabulary (α : Type) [DecidableEq α] where
  all : List α
  text : α → String
  complete : ∀ a, a ∈ all
  injective : ∀ a b, text a = text b → a = b

section Vocabulary

variable {F α : Type} [DecidableEq α] [Vocabulary α]

/-- A word as it is written. -/
def word (a : α) : PyStr := pyStr (Vocabulary.text a)

/-- The word that a value is; none when it is no string or not in the vocabulary. -/
def readWord : Option (PyJson F) → Option α
  | some (.str s) => Vocabulary.all.find? fun a => decide (word a = s)
  | _ => none

theorem word_inj {a b : α} (h : word a = word b) : a = b :=
  Vocabulary.injective a b (pyStr_inj h)

/-- **A word is read as itself.** -/
@[simp] theorem readWord_word (a : α) : readWord (some (.str (word a) : PyJson F)) = some a := by
  rw [readWord, List.find?_eq_some_iff_append]
  obtain ⟨before, after, hsplit, hbefore⟩ := List.eq_append_cons_of_mem (Vocabulary.complete a)
  refine ⟨by simp, before, after, hsplit, fun b hb => ?_⟩
  have hne : word b ≠ word a := fun h => hbefore (word_inj h ▸ hb)
  simp [hne]

end Vocabulary

/-- `DEFENSIVE_STATES`. -/
inductive DefensiveState where
  | observe | notify | throttle | redirect | isolate
  deriving DecidableEq

instance : Vocabulary DefensiveState where
  all := [.observe, .notify, .throttle, .redirect, .isolate]
  text
    | .observe => "OBSERVE"
    | .notify => "NOTIFY"
    | .throttle => "THROTTLE"
    | .redirect => "REDIRECT"
    | .isolate => "ISOLATE"
  complete a := by cases a <;> decide
  injective a b := by cases a <;> cases b <;> decide

/-- `ACTION_ROLES`. -/
inductive ActionRole where
  | current | previous
  deriving DecidableEq

instance : Vocabulary ActionRole where
  all := [.current, .previous]
  text
    | .current => "current"
    | .previous => "previous"
  complete a := by cases a <;> decide
  injective a b := by cases a <;> cases b <;> decide

/-- `ACTION_APPLIED_STATES`. -/
inductive AppliedState where
  | applied | notApplied | applyFailed | none
  deriving DecidableEq

instance : Vocabulary AppliedState where
  all := [.applied, .notApplied, .applyFailed, .none]
  text
    | .applied => "applied"
    | .notApplied => "not_applied"
    | .applyFailed => "apply_failed"
    | .none => "none"
  complete a := by cases a <;> decide
  injective a b := by cases a <;> cases b <;> decide

/-- `ACTION_MODES`. -/
inductive ActionMode where
  | disabled | dryRun | policyGated | releaseGuardFailed | enforced | none
  deriving DecidableEq

instance : Vocabulary ActionMode where
  all := [.disabled, .dryRun, .policyGated, .releaseGuardFailed, .enforced, .none]
  text
    | .disabled => "disabled"
    | .dryRun => "dry_run"
    | .policyGated => "policy_gated"
    | .releaseGuardFailed => "release_guard_failed"
    | .enforced => "enforced"
    | .none => "none"
  complete a := by cases a <;> decide
  injective a b := by cases a <;> cases b <;> decide

/-- `ACTION_RELEASE_CONDITIONS`. -/
inductive ReleaseCondition where
  | leaseExpiry | none
  deriving DecidableEq

instance : Vocabulary ReleaseCondition where
  all := [.leaseExpiry, .none]
  text
    | .leaseExpiry => "lease_expiry"
    | .none => "none"
  complete a := by cases a <;> decide
  injective a b := by cases a <;> cases b <;> decide

/-- `DECEPTION_LIFECYCLE_STATES`. -/
inductive LifecycleState where
  | inactive | provisioning | active | terminating | terminated | unknown
  deriving DecidableEq

instance : Vocabulary LifecycleState where
  all := [.inactive, .provisioning, .active, .terminating, .terminated, .unknown]
  text
    | .inactive => "inactive"
    | .provisioning => "provisioning"
    | .active => "active"
    | .terminating => "terminating"
    | .terminated => "terminated"
    | .unknown => "unknown"
  complete a := by cases a <;> decide
  injective a b := by cases a <;> cases b <;> decide

def actorProtocols : List PyStr :=
  ["tcp", "udp", "icmp", "icmpv6", "sctp", "gre", "esp", "ah", "igmp", "other"].map pyStr

def actorEventKinds : List PyStr :=
  ["alert", "anomaly", "drop", "flow", "flow_summary", "netflow", "dns", "http", "tls", "ssh",
    "smtp", "ftp", "smb", "dhcp", "fileinfo", "other"].map pyStr

/-! ## 2. Fields -/

section Fields

variable {F : Type}

/-- The text has this shape, in which `d` is `\d`. -/
def isShaped [PyDigits] : List Char → PyStr → Bool
  | [], [] => true
  | 'd' :: shape, c :: s => (PyDigits.decimal c).isSome && isShaped shape s
  | ch :: shape, c :: s => decide (c.val = ch.toNat) && isShaped shape s
  | _, _ => false

/-- `_TS_RE`. -/
def isTs [PyDigits] (s : PyStr) : Bool := isShaped "dddd-dd-ddTdd:dd:ddZ".toList s

/-- `_ACTOR_KEY_RE`. -/
def isActorKey [PyDigits] (s : PyStr) : Bool := isShaped "actor:dddd".toList s

/-- `_canonical_ts`. -/
def canonicalTs [PyDigits] : Option (PyJson F) → PyStr
  | some (.str s) => if isTs s then s else []
  | _ => []

/-- `_count`. -/
def count (upper : ℤ) : Option (PyJson F) → ℤ
  | some (.int n) => max 0 (min n upper)
  | _ => 0

/-- An item that `_vocab_list` takes. -/
def pickWord (vocabulary : List PyStr) : PyJson F → Option PyStr
  | .str s => if s ∈ vocabulary then some s else none
  | _ => none

/-- `_vocab_list`. -/
def vocabList (vocabulary : List PyStr) (limit : ℕ) (values : Option (PyJson F)) : List PyStr :=
  collect limit (pickWord vocabulary) (asList values)

/-- An item that `_id_list` takes. -/
def pickId (value : PyJson F) : Option PyStr :=
  if opaqueId (some value) = [] then none else some (opaqueId (some value))

/-- `_id_list`. -/
def idList (limit : ℕ) (values : Option (PyJson F)) : List PyStr :=
  collect limit pickId (asList values)

/-- A port that an actor's ports take. -/
def pickPort : PyJson F → Option ℤ
  | .int n => if 0 < n ∧ n ≤ 65535 then some n else none
  | _ => none

/-- `actor_key_at`. -/
def actorKeyAt (position : ℕ) : PyStr :=
  let digits := natText (position + 1)
  pyStr "actor:" ++ ofText (List.replicate (4 - digits.length) chZero ++ digits)

end Fields

/-! ## 3. The records -/

/-- `MioActorSummary`. -/
structure ActorSummary where
  actorKey : PyStr
  firstSeen : PyStr
  lastSeen : PyStr
  eventCount : ℤ
  maxSeverity : ℤ
  protocols : List PyStr
  targetPorts : List ℤ
  distinctTargetPorts : ℤ
  eventKinds : List PyStr
  evidenceRefs : List PyStr
  deriving DecidableEq

/-- `MioActionRecord`. -/
structure ActionRecord where
  role : ActionRole
  action : DefensiveState
  decisionRef : PyStr
  appliedState : AppliedState
  mode : ActionMode
  releaseCondition : ReleaseCondition
  decidedAt : PyStr
  expiresAt : PyStr
  evidenceRefs : List PyStr
  deriving DecidableEq

/-- `MioDeceptionContext`. -/
structure DeceptionContext where
  environmentId : PyStr
  packageId : PyStr
  nodeId : PyStr
  lifecycleState : LifecycleState
  observationRefs : List PyStr
  deriving DecidableEq

section Coerce

variable {F : Type}

/-- `MioActorSummary.coerce`. -/
def ActorSummary.coerce [PyDigits] : PyJson F → Option ActorSummary
  | .obj value =>
    match getKey (pyStr "actor_key") value with
    | some (.str key) =>
      let first := canonicalTs (getKey (pyStr "first_seen") value)
      let last := canonicalTs (getKey (pyStr "last_seen") value)
      if isActorKey key = false then none
      else if first ≠ [] ∧ last ≠ [] ∧ keyLe first last = false then none
      else
        let ports := collect 8 pickPort (asList (getKey (pyStr "target_ports") value))
        some
          { actorKey := key
            firstSeen := first
            lastSeen := last
            eventCount := count 1000000 (getKey (pyStr "event_count") value)
            maxSeverity := count 100 (getKey (pyStr "max_severity") value)
            protocols := vocabList actorProtocols 4 (getKey (pyStr "protocols") value)
            targetPorts := ports
            distinctTargetPorts :=
              max ports.length (count 65535 (getKey (pyStr "distinct_target_ports") value))
            eventKinds := vocabList actorEventKinds 4 (getKey (pyStr "event_kinds") value)
            evidenceRefs := idList 4 (getKey (pyStr "evidence_refs") value) }
    | _ => none
  | _ => none

/-- `list(texts)` of texts. -/
def textList (texts : List PyStr) : PyJson F := .arr (texts.map .str)

/-- `MioActorSummary.to_dict`. -/
def ActorSummary.toDict (a : ActorSummary) : Row F :=
  [(pyStr "actor_key", .str a.actorKey), (pyStr "first_seen", .str a.firstSeen),
    (pyStr "last_seen", .str a.lastSeen), (pyStr "event_count", .int a.eventCount),
    (pyStr "max_severity", .int a.maxSeverity), (pyStr "protocols", textList a.protocols),
    (pyStr "target_ports", .arr (a.targetPorts.map .int)),
    (pyStr "distinct_target_ports", .int a.distinctTargetPorts),
    (pyStr "event_kinds", textList a.eventKinds), (pyStr "evidence_refs", textList a.evidenceRefs)]

variable [PyFloat F]

/-- `MioActionRecord.coerce`. -/
def ActionRecord.coerce [PyDigits] : PyJson F → Option ActionRecord
  | .obj value => do
    let role : ActionRole ← readWord (getKey (pyStr "role") value)
    let action : DefensiveState ← readWord (getKey (pyStr "action") value)
    let ref := opaqueId (getKey (pyStr "decision_ref") value)
    guard (ref ≠ [])
    let state : AppliedState ← readWord (getKey (pyStr "applied_state") value)
    let mode : ActionMode ← readWord (getKey (pyStr "mode") value)
    let release : ReleaseCondition ←
      readWord (some ((getKey (pyStr "release_condition") value).getD (.str (word ReleaseCondition.none))))
    let expires := canonicalTs (getKey (pyStr "expires_at") value)
    let decided := canonicalTs (getKey (pyStr "decided_at") value)
    guard ¬(isTruthy (getKey (pyStr "expires_at") value) = true ∧ expires = [])
    guard ¬(isTruthy (getKey (pyStr "decided_at") value) = true ∧ decided = [])
    guard ¬(release = .leaseExpiry ∧ state ≠ .applied)
    guard ¬(expires ≠ [] ∧ release ≠ .leaseExpiry)
    return {
      role := role
      action := action
      decisionRef := ref
      appliedState := state
      mode := mode
      releaseCondition := release
      decidedAt := decided
      expiresAt := expires
      evidenceRefs := idList 4 (getKey (pyStr "evidence_refs") value) }
  | _ => none

omit [PyFloat F] in
/-- `MioActionRecord.to_dict`. -/
def ActionRecord.toDict (r : ActionRecord) : Row F :=
  [(pyStr "role", .str (word r.role)), (pyStr "action", .str (word r.action)),
    (pyStr "decision_ref", .str r.decisionRef),
    (pyStr "applied_state", .str (word r.appliedState)), (pyStr "mode", .str (word r.mode)),
    (pyStr "release_condition", .str (word r.releaseCondition)),
    (pyStr "decided_at", .str r.decidedAt), (pyStr "expires_at", .str r.expiresAt),
    (pyStr "evidence_refs", textList r.evidenceRefs)]

omit [PyFloat F] in
/-- `MioDeceptionContext.coerce`. -/
def DeceptionContext.coerce : PyJson F → Option DeceptionContext
  | .obj value =>
    let environment := opaqueId (getKey (pyStr "environment_id") value)
    if environment = [] then none
    else some
      { environmentId := environment
        packageId := opaqueId (getKey (pyStr "package_id") value)
        nodeId := opaqueId (getKey (pyStr "node_id") value)
        lifecycleState := (readWord (getKey (pyStr "lifecycle_state") value)).getD .unknown
        observationRefs := idList 8 (getKey (pyStr "observation_refs") value) }
  | _ => none

/-- `MioDeceptionContext.to_dict`. -/
def DeceptionContext.toDict (c : DeceptionContext) : Row F :=
  [(pyStr "environment_id", .str c.environmentId), (pyStr "package_id", .str c.packageId),
    (pyStr "node_id", .str c.nodeId), (pyStr "lifecycle_state", .str (word c.lifecycleState)),
    (pyStr "observation_refs", textList c.observationRefs)]

end Coerce

end AzazelEdge.Mio
