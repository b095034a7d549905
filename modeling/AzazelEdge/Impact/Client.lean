/-
# The client impact

`ClientImpactScorer.score` (`impact/client.py`): the clients and the services that events tell of, the
devices of the SoT among the clients, and what a control action would come to for them.

Once one client is a device of the SoT, only such clients count; before, every private address does.
A Python set is a `Finset`; whether an address is private is a parameter; a call that raises is none.
-/
import AzazelEdge.EvidencePlane.Subject
import Mathlib.Algebra.BigOperators.Group.Finset.Basic
import Mathlib.Data.Finset.Image

namespace AzazelEdge.Impact

open AzazelEdge.Lib AzazelEdge.Lib.Py AzazelEdge.Audit AzazelEdge.Arbiter AzazelEdge.Evaluators
  AzazelEdge.EvidencePlane

variable {F : Type} [PyFloat F] [PyRepr F] [PyConvert F]

/-! ## 1. What events tell -/

/-- The clients and the services that are affected. -/
structure Affected where
  ips : Finset PyStr
  services : Finset PyStr

def Affected.union (a b : Affected) : Affected := ⟨a.ips ∪ b.ips, a.services ∪ b.services⟩

/-- `if ip and _is_private_ip(ip): affected_ips.add(ip)`. -/
def clientAt (isPrivate : PyStr → Bool) (ip : PyStr) : Finset PyStr :=
  if ip ≠ [] ∧ isPrivate ip = true then {ip} else ∅

/-- `port:` and a port that is not zero. -/
def portService (port : ℤ) : Finset PyStr :=
  if port ≠ 0 then {pyStr "port:" ++ ofText (intText port)} else ∅

/-- What one payload tells. -/
def readPayload (isPrivate : PyStr → Bool) (payload : Row F) : Option Affected :=
  if strField "source" payload ∈ [pyStr "suricata_eve", pyStr "flow_min"] then do
    let (src, dst) := Client.parseSubject (subjectOf payload)
    let target ← intOr0 (attr "target_port" payload)
    let dport ← intOr0 (attr "dst_port" payload)
    let service ← intOr0 (attr "service_port" payload)
    let proto := PyConvert.lower F (Decision.strip (attrStr "app_proto" payload))
    return ⟨clientAt isPrivate src ∪ clientAt isPrivate dst,
      portService target ∪ portService dport ∪ portService service ∪
        if proto ≠ [] then {proto} else ∅⟩
  else if strField "kind" payload ∈ [pyStr "dhcp_lease", pyStr "arp_entry"] then
    some ⟨clientAt isPrivate (Decision.strip (attrStr "ip" payload)), ∅⟩
  else some ⟨∅, ∅⟩

/-- What the payloads tell together. -/
def readPayloads (isPrivate : PyStr → Bool) : List (Row F) → Option Affected
  | [] => some ⟨∅, ∅⟩
  | payload :: rest => do
    let first ← readPayload isPrivate payload
    let others ← readPayloads isPrivate rest
    return first.union others

/-! ## 2. Devices of the SoT -/

/-- `_criticality_weight`. -/
def criticalityWeight (value : PyStr) : ℕ :=
  if PyConvert.lower F (Decision.strip value) ∈
    ["critical", "high", "core", "mission"].map pyStr then 1 else 0

/-- The weight of a device. -/
def weightOf (device : Row F) : ℕ := criticalityWeight (F := F) (strField "criticality" device)

/-- A device of this address. -/
def deviceAt (ip : PyStr) : PyJson F → Option (Row F)
  | .obj item => if strField "ip" item = ip then some item else none
  | _ => none

/-- The first device of the list with this address. -/
def matchDevice (devices : List (PyJson F)) (ip : PyStr) : Option (Row F) :=
  devices.findSome? (deviceAt ip)

/-- The devices that are asked for: none without a SoT that has a list of them. -/
def devicesOf (sot : Row F) : List (PyJson F) := asList (getKey (pyStr "devices") sot)

/-- The clients that are devices. -/
def matched (devices : List (PyJson F)) (ips : Finset PyStr) : Finset PyStr :=
  ips.filter fun ip => (matchDevice devices ip).isSome

/-- `critical_clients`. -/
def criticalClients (devices : List (PyJson F)) (ips : Finset PyStr) : ℕ :=
  ∑ ip ∈ ips, ((matchDevice devices ip).map weightOf).getD 0

/-- `affected_client_count`: of the addresses of the matched devices, if there are any. -/
def affectedClientCount (devices : List (PyJson F)) (ips : Finset PyStr) : ℕ :=
  if (matched devices ips).Nonempty then
    (((matched devices ips).image fun ip =>
      ((matchDevice devices ip).map (strField "ip")).getD []).filter (· ≠ [])).card
  else ips.card

/-! ## 3. The score -/

inductive Scope where
  | minimal
  | singleClient
  | multiClient
  | segment
  | broad
deriving DecidableEq

def Scope.name : Scope → PyStr
  | .minimal => pyStr "minimal"
  | .singleClient => pyStr "single_client"
  | .multiClient => pyStr "multi_client"
  | .segment => pyStr "segment"
  | .broad => pyStr "broad"

/-- `_scope_for`. -/
def scopeFor (affectedClients serviceCount : ℕ) : Scope :=
  if 5 ≤ affectedClients ∨ 4 ≤ serviceCount then .broad
  else if 3 ≤ affectedClients ∨ 2 ≤ serviceCount then .segment
  else if 2 ≤ affectedClients then .multiClient
  else if affectedClients = 1 then .singleClient
  else .minimal

/-- `_scope_penalty`. -/
def scopePenalty : Scope → ℕ
  | .minimal => 0
  | .singleClient => 10
  | .multiClient => 20
  | .segment => 30
  | .broad => 40

/-- `_bucket`. -/
def bucket (score : ℕ) : PyStr :=
  if 80 ≤ score then pyStr "high" else if 40 ≤ score then pyStr "medium" else pyStr "low"

/-- `impact_score`. -/
def impactScore (action : PyStr) (affected critical services : ℕ) : ℕ :=
  if action = pyStr "observe" then 0
  else if action = pyStr "notify" then min 100 (5 + affected * 3 + critical * 10)
  else min 100 (20 + affected * 10 + critical * 25 + scopePenalty (scopeFor affected services))

/-- The result. -/
structure ClientImpact where
  action : PyStr
  score : ℕ
  label : PyStr
  affectedClientCount : ℕ
  criticalClientCount : ℕ
  communicationScope : Scope
  reasons : List PyStr
  evidenceIds : List PyStr

/-- A reason with a count in it. -/
def counted (reason : String) (n : ℕ) : PyStr := pyStr reason ++ ofText (natText n)

/-- `normalized_action`. -/
def normalizedAction (F : Type) [PyConvert F] (action : PyStr) : PyStr :=
  PyConvert.lower F (Decision.strip (if action = [] then pyStr "observe" else action))

/-- `ClientImpactScorer.score`. -/
def score (isPrivate : PyStr → Bool) (action : PyStr) (events : List (PyJson F)) (sot : Row F) :
    Option ClientImpact := do
  let action := normalizedAction F action
  let payloads := toPayloads events
  let told ← readPayloads isPrivate payloads
  let devices := devicesOf sot
  let critical := criticalClients devices told.ips
  let affected := affectedClientCount devices told.ips
  let scope := scopeFor affected told.services.card
  let impact := impactScore action affected critical told.services.card
  return {
    action := action
    score := impact
    label := bucket impact
    affectedClientCount := affected
    criticalClientCount := critical
    communicationScope := scope
    reasons := [counted "affected_clients:" affected, counted "critical_clients:" critical,
        pyStr "communication_scope:" ++ scope.name] ++
      if action = pyStr "throttle" ∧ critical ≠ 0 then [pyStr "critical_client_control_risk"]
      else []
    evidenceIds := sortedUnique ((payloads.map (strField "event_id")).filter (· ≠ [])) }

end AzazelEdge.Impact
