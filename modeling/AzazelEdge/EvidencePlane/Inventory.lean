/-
# The client inventory

`build_client_inventory` (`evidence_plane/noc_inventory.py`): leases, ARP entries and flows of the
managed networks are gathered into sessions, in their order, and the sessions are classified by the
devices of the SoT.

An event goes to the first session that has its MAC or its address; a lease, or an ARP entry on an
interface of the clients, opens one if there is none.  What the events are taken for is kept beside
the sessions (`Sighted`).  `ipaddress` and `datetime` are parameters; a call that raises is none.
-/
import AzazelEdge.EvidencePlane.Subject
import AzazelEdge.Notify.Delivery

namespace AzazelEdge.EvidencePlane.Inventory

open AzazelEdge.Lib AzazelEdge.Lib.Py AzazelEdge.Audit AzazelEdge.Arbiter AzazelEdge.Evaluators

/-! ## 1. Addresses and times -/

/-- What is asked of `ipaddress`. -/
class PyIpaddress where
  /-- `ip_address(s)` does not raise. -/
  isAddress : PyStr → Bool
  /-- `ip_network(s, strict=False)` does not raise. -/
  isNetwork : PyStr → Bool
  /-- `ip_address(s) in ip_network(network, strict=False)`. -/
  inNetwork : (network s : PyStr) → Bool

/-- What is asked of `datetime` and of its timestamps. -/
class PyEpoch (E : Type) where
  /-- `datetime.fromisoformat(s).timestamp()`; none when `fromisoformat` raises. -/
  ofIso : PyStr → Option E
  lt : E → E → Bool
  isZero : E → Bool
  /-- `now - past > seconds`. -/
  older : (now past : E) → (seconds : ℤ) → Bool

variable {F : Type} [PyFloat F] [PyRepr F] [PyConvert F] {E : Type} [PyEpoch E] [PyIpaddress]

/-- `raw.replace('Z', '+00:00')`. -/
def zuluReplaced (raw : PyStr) : PyStr :=
  raw.flatMap fun c => if c = 90 then pyStr "+00:00" else [c]

/-- `_epoch`. -/
def epoch (value : PyStr) : Option E :=
  let raw := Decision.strip value
  if raw = [] then none else PyEpoch.ofIso (zuluReplaced raw)

/-- `_epoch(value) or default`. -/
def epochOr (value : PyStr) (default : E) : E :=
  match epoch value with
  | some t => if PyEpoch.isZero t then default else t
  | none => default

/-- The arguments of `build_client_inventory`, and the clock when they have no time. -/
structure Settings (E : Type) where
  /-- `managed_client_cidrs`, or what the environment has. -/
  cidrs : List PyStr
  /-- `managed_client_interfaces`, or what the environment has. -/
  interfaces : List PyStr
  staleAfterSec : ℤ := 900
  newAfterSec : ℤ := 300
  nowTs : PyStr
  clock : E

/-- `_managed_client_cidrs`. -/
def managedClientCidrs (settings : Settings E) : List PyStr :=
  settings.cidrs.filter fun item => PyIpaddress.isNetwork item

/-- `s.strip().lower()`. -/
def folded (F : Type) [PyConvert F] (s : PyStr) : PyStr := PyConvert.lower F (Decision.strip s)

/-- `_managed_client_interfaces`. -/
def managedClientInterfaces (F : Type) [PyConvert F] (settings : Settings E) : List PyStr :=
  (settings.interfaces.filter fun item => Decision.strip item ≠ []).map (folded F)

/-- `_ip_in_managed_scope`. -/
def ipInManagedScope (settings : Settings E) (ip : PyStr) : Bool :=
  let text := Decision.strip ip
  text ≠ [] && PyIpaddress.isAddress text &&
    (managedClientCidrs settings).any fun network => PyIpaddress.inNetwork network text

/-- `_network_id`. -/
def networkId (networks : List (Row F)) (ip : PyStr) : PyStr :=
  if PyIpaddress.isAddress ip then
    match networks.find? fun item => PyIpaddress.isNetwork (strField "cidr" item) &&
        PyIpaddress.inNetwork (strField "cidr" item) ip with
    | some item => strField "id" item
    | none => []
  else []

/-! ## 2. The SoT -/

/-- The dicts of a list of the SoT. -/
def dictsOf (key : String) (sot : Row F) : List (Row F) :=
  (asList (getKey (pyStr key) sot)).filterMap fun item =>
    match item with
    | .obj members => some members
    | _ => none

/-- The MAC of a device. -/
def deviceMac (device : Row F) : PyStr := PyConvert.lower F (strField "mac" device)

/-- `by_mac.get(mac)`: the last device of this MAC. -/
def byMac (sot : Row F) (mac : PyStr) : Option (Row F) :=
  if mac = [] then none
  else ((dictsOf "devices" sot).filter fun device => deviceMac device = mac).getLast?

/-- `by_ip.get(ip)`: the last device of this address. -/
def byIp (sot : Row F) (ip : PyStr) : Option (Row F) :=
  if ip = [] then none
  else ((dictsOf "devices" sot).filter fun device => strField "ip" device = ip).getLast?

/-- `_device_monitoring_scope`. -/
def deviceMonitoringScope (device : Row F) : PyStr :=
  let scope := folded F (strOrDefault (pyStr "managed")
    (pyOr (getKey (pyStr "monitoring_scope") device) (getKey (pyStr "managed_scope") device)))
  if scope = [] then pyStr "managed" else scope

/-- `_device_ignored`. -/
def deviceIgnored (device : Row F) : Bool := deviceMonitoringScope device = pyStr "ignore"

/-- `bool(device.get('authorized', True))`. -/
def deviceAuthorized (device : Row F) : Bool :=
  match getKey (pyStr "authorized") device with
  | some value => truthy value
  | none => true

/-- `str(device.get('id') or device.get('ip') or device.get('mac') or '')`. -/
def deviceKey (device : Row F) : PyStr :=
  strOr (pyOr (pyOr (getKey (pyStr "id") device) (getKey (pyStr "ip") device))
    (getKey (pyStr "mac") device))

/-! ## 3. Sessions -/

/-- `_SessionRecord`; the sets are lists without repetitions. -/
structure Session where
  key : PyStr
  mac : PyStr
  ip : PyStr
  hostname : PyStr
  interfaceOrSegment : PyStr
  firstSeen : PyStr
  lastSeen : PyStr
  sourcesPresent : List PyStr
  serviceHints : List PyStr
  evidenceIds : List PyStr
  sourceStates : List (PyStr × PyStr)
  arpState : PyStr

def Session.new (key : PyStr) : Session :=
  ⟨key, [], [], [], [], [], [], [], [], [], [], []⟩

/-- `set.add`. -/
def addTo (texts : List PyStr) (text : PyStr) : List PyStr :=
  if text ∈ texts then texts else texts ++ [text]

/-- `if evidence_id: session.evidence_ids.add(evidence_id)`. -/
def addEvidence (texts : List PyStr) (text : PyStr) : List PyStr :=
  if text = [] then texts else addTo texts text

/-- `candidate` replaces `current`, which it is before, or which has no time. -/
def replaces (E : Type) [PyEpoch E] (before : E → E → Bool) (current candidate : PyStr) : Bool :=
  match (epoch current : Option E), (epoch candidate : Option E) with
  | none, _ => true
  | some _, none => false
  | some t, some t' => before t' t

/-- `merge_ts`. -/
def Session.mergeTs (E : Type) [PyEpoch E] (s : Session) (ts : PyStr) : Session :=
  if ts = [] then s
  else
    { s with
      firstSeen :=
        if s.firstSeen = [] ∨ replaces E PyEpoch.lt s.firstSeen ts = true then ts
        else s.firstSeen
      lastSeen :=
        if s.lastSeen = [] ∨ replaces E (fun t t' => PyEpoch.lt t' t) s.lastSeen ts = true then ts
        else s.lastSeen }

/-- A session that `find_session` returns. -/
def Session.found (s : Session) (ip mac : PyStr) : Bool :=
  mac ≠ [] ∧ s.mac ≠ [] ∧ s.mac = mac ∨ ip ≠ [] ∧ s.ip ≠ [] ∧ s.ip = ip

/-- `find_session`: the first one. -/
def findSession (sessions : List Session) (ip mac : PyStr) : Option Session :=
  sessions.find? fun s => s.found ip mac

/-- `ensure_session`. -/
def ensureSession (sessions : List Session) (key : PyStr) : List Session :=
  if key ∈ sessions.map (·.key) then sessions else sessions ++ [Session.new key]

/-- What is done to the session of this key. -/
def modifySession (key : PyStr) (f : Session → Session) (sessions : List Session) : List Session :=
  sessions.map fun s => if s.key = key then f s else s

/-! ## 4. Sightings -/

/-- A lease or an ARP entry. -/
structure Sighting where
  source : PyStr
  ip : PyStr
  mac : PyStr
  iface : PyStr
  hostname : PyStr
  state : PyStr
  ts : PyStr
  evidenceId : PyStr

def dhcp : PyStr := pyStr "dhcp"
def arp : PyStr := pyStr "arp"

/-- `mac or f'{ip}|{iface or "unknown"}'`. -/
def Sighting.sessionKey (g : Sighting) : PyStr :=
  orElse g.mac (g.ip ++ bar :: orElse g.iface (pyStr "unknown"))

/-- A `dhcp_lease`. -/
def leaseOf (payload : Row F) : Sighting :=
  { source := dhcp
    ip := attrStr "ip" payload
    mac := PyConvert.lower F (attrStr "mac" payload)
    iface := attrStr "interface" payload
    hostname := attrStr "hostname" payload
    state := attrStr "state" payload
    ts := strField "ts" payload
    evidenceId := strField "event_id" payload }

/-- An `arp_entry`. -/
def arpOf (payload : Row F) : Sighting :=
  { source := arp
    ip := attrStr "ip" payload
    mac := PyConvert.lower F (attrStr "mac" payload)
    iface := strOr (pyOr (pyOr (attr "bridge_port" payload) (attr "dev" payload))
      (attr "interface" payload))
    hostname := []
    state := attrStr "state" payload
    ts := strField "ts" payload
    evidenceId := strField "event_id" payload }

/-- What a lease or an ARP entry leaves in its session. -/
def Session.record (F E : Type) [PyConvert F] [PyEpoch E] (network : PyStr) (g : Sighting)
    (s : Session) : Session :=
  { s with
    ip := orElse s.ip g.ip
    mac := orElse s.mac g.mac
    hostname := orElse s.hostname g.hostname
    interfaceOrSegment :=
      if g.iface ≠ [] ∧ folded F s.interfaceOrSegment ∈ [[], pyStr "unknown"] then g.iface
      else orElse (orElse (orElse s.interfaceOrSegment g.iface) network) (pyStr "unknown")
    arpState := if g.source = arp then g.state else s.arpState
    sourcesPresent := addTo s.sourcesPresent g.source
    sourceStates := setKey g.source g.state s.sourceStates
    evidenceIds := addEvidence s.evidenceIds g.evidenceId }.mergeTs E g.ts

/-- What a flow leaves in its session. -/
def Session.recordFlow (E : Type) [PyEpoch E] (network ip hint ts evidenceId : PyStr)
    (s : Session) : Session :=
  { s with
    ip := orElse s.ip ip
    serviceHints := addTo s.serviceHints hint
    interfaceOrSegment := orElse (orElse s.interfaceOrSegment network) (pyStr "unknown")
    sourcesPresent := addTo s.sourcesPresent (pyStr "flow")
    evidenceIds := addEvidence s.evidenceIds evidenceId }.mergeTs E ts

/-- `service_hint`; none when the port raises. -/
def serviceHint (payload : Row F) : Option PyStr :=
  (intOr0 (attr "dst_port" payload)).map fun port =>
    strOrDefault (pyStr "unknown") (pyOr (attr "app_proto" payload) (attr "proto" payload)) ++
      colon :: ofText (intText port)

/-- The sessions after a lease, and the one it went to. -/
def takeLease (E : Type) [PyEpoch E] (networks : List (Row F)) (sessions : List Session)
    (g : Sighting) : List Session × PyStr :=
  let network := networkId networks g.ip
  match findSession sessions g.ip g.mac with
  | some s => (modifySession s.key (.record F E network g) sessions, s.key)
  | none => (modifySession g.sessionKey (.record F E network g)
      (ensureSession sessions g.sessionKey), g.sessionKey)

/-- What a session that an ARP entry opened is set to. -/
def Session.opened (g : Sighting) (s : Session) : Session :=
  { s with ip := g.ip, mac := g.mac, interfaceOrSegment := orElse g.iface s.interfaceOrSegment }

/-- The sessions in which an ARP entry looks for its own: it opens one on a client's interface. -/
def openForArp (F : Type) [PyConvert F] (settings : Settings E) (sessions : List Session)
    (g : Sighting) : Option (List Session) :=
  match findSession sessions g.ip g.mac with
  | some _ => some sessions
  | none =>
    if folded F g.iface ∉ managedClientInterfaces F settings then none
    else some (modifySession g.sessionKey (.opened g) (ensureSession sessions g.sessionKey))

/-- The sessions after an ARP entry, and the one it went to. -/
def takeArp (settings : Settings E) (networks : List (Row F)) (sessions : List Session)
    (g : Sighting) : List Session × Option PyStr :=
  match openForArp F settings sessions g with
  | none => (sessions, none)
  | some sessions =>
    match findSession sessions g.ip g.mac with
    | some s => (modifySession s.key (.record F E (networkId networks g.ip) g) sessions, some s.key)
    | none => (sessions, none)

/-- The sessions after a flow, and the one it went to. -/
def takeFlow (settings : Settings E) (networks : List (Row F)) (sessions : List Session)
    (payload : Row F) : Option (List Session × Option PyStr) :=
  let ip := attrStr "src_ip" payload
  if ip = [] ∨ ipInManagedScope settings ip = false then some (sessions, none)
  else do
    let hint ← serviceHint payload
    match findSession sessions ip [] with
    | none => return (sessions, none)
    | some s => return (modifySession s.key (.recordFlow E (networkId networks ip) ip hint
        (strField "ts" payload) (strField "event_id" payload)) sessions, some s.key)

/-- One turn of the loop: the sessions, and the key of the one that the event went to. -/
def observe (settings : Settings E) (networks : List (Row F)) (sessions : List Session)
    (payload : Row F) : Option (List Session × Option PyStr) :=
  let kind := strField "kind" payload
  if kind = pyStr "dhcp_lease" then
    let g := leaseOf payload
    if ipInManagedScope settings g.ip = false then some (sessions, none)
    else
      let (sessions, key) := takeLease E networks sessions g
      some (sessions, some key)
  else if kind = pyStr "arp_entry" then
    let g := arpOf payload
    if ipInManagedScope settings g.ip = false then some (sessions, none)
    else some (takeArp settings networks sessions g)
  else if kind = pyStr "flow_summary" then takeFlow settings networks sessions payload
  else some (sessions, none)

/-- An event, the sessions it found, and the one it went to. -/
structure Sighted (F : Type) where
  before : List Session
  payload : Row F
  key : Option PyStr

/-- The loop: the sessions, and what it did with each event. -/
def buildSessions (settings : Settings E) (networks : List (Row F)) (sessions : List Session) :
    List (Row F) → Option (List Session × List (Sighted F))
  | [] => some (sessions, [])
  | payload :: rest => do
    let (next, key) ← observe settings networks sessions payload
    let (last, sighted) ← buildSessions settings networks next rest
    return (last, ⟨sessions, payload, key⟩ :: sighted)

/-! ## 5. Classification -/

inductive SessionState where
  | unknownPresent
  | authorizedPresent
  | unauthorizedPresent
  | inventoryMismatch
  | staleSession
  | authorizedMissing
deriving DecidableEq

def SessionState.name : SessionState → PyStr
  | .unknownPresent => pyStr "unknown_present"
  | .authorizedPresent => pyStr "authorized_present"
  | .unauthorizedPresent => pyStr "unauthorized_present"
  | .inventoryMismatch => pyStr "inventory_mismatch"
  | .staleSession => pyStr "stale_session"
  | .authorizedMissing => pyStr "authorized_missing"

/-- `device`: that of the MAC, or else that of the address. -/
def sessionDevice (sot : Row F) (s : Session) : Option (Row F) :=
  (byMac sot s.mac).or (byIp sot s.ip)

/-- `expected_interface_or_segment`. -/
def expectedInterface (device : Row F) : PyStr :=
  Decision.strip (strField "expected_interface_or_segment" device)

/-- `expected_link_mismatch`. -/
def expectedLinkMismatch (device : Row F) (s : Session) : Bool :=
  expectedInterface device ≠ [] ∧ Decision.strip s.interfaceOrSegment ≠ [] ∧
    PyConvert.lower F (expectedInterface device) ≠ folded F s.interfaceOrSegment

/-- `now_epoch`. -/
def nowEpoch (settings : Settings E) : E := epochOr settings.nowTs settings.clock

/-- `session_state`. -/
def sessionState (settings : Settings E) (device : Option (Row F)) (s : Session) : SessionState :=
  let known := match device with
    | some device =>
      if deviceAuthorized device then SessionState.authorizedPresent else .unauthorizedPresent
    | none => .unknownPresent
  let state :=
    if dhcp ∈ s.sourcesPresent ∧ arp ∉ s.sourcesPresent then .inventoryMismatch
    else if device.any (expectedLinkMismatch · s) = true ∧ known = .authorizedPresent then
      .inventoryMismatch
    else known
  let now := nowEpoch settings
  if PyEpoch.older now (epochOr s.lastSeen now) (max 60 settings.staleAfterSec) then .staleSession
  else state

/-- `_interface_family`. -/
def interfaceFamily (F : Type) [PyConvert F] (name : PyStr) : PyStr :=
  let text := folded F name
  if text = [] then pyStr "unknown"
  else if pyStr "wl" <+: text then pyStr "wlan"
  else if pyStr "eth" <+: text then pyStr "eth"
  else pyStr "other"

/-- `session_origin`. -/
def sessionOrigin (sources : List PyStr) : PyStr :=
  if dhcp ∈ sources then if arp ∈ sources then pyStr "dhcp_arp" else dhcp
  else if arp ∈ sources then pyStr "arp_only"
  else pyStr "unknown"

/-- The row of a session. -/
structure SessionRow where
  sessionKey : PyStr
  mac : PyStr
  ip : PyStr
  hostname : PyStr
  interfaceOrSegment : PyStr
  interfaceFamily : PyStr
  firstSeen : PyStr
  lastSeen : PyStr
  sourcesPresent : List PyStr
  sessionOrigin : PyStr
  serviceHints : List PyStr
  sotStatus : PyStr
  sessionState : SessionState
  arpState : PyStr
  evidenceIds : List PyStr
  monitoringScope : PyStr
  notes : PyStr
  allowedNetworks : List PyStr
  expectedInterfaceOrSegment : PyStr
  expectedLinkMismatch : Bool

/-- `[str(item) for item in (value or []) if str(item)]`; none when it raises. -/
def textsOf (value : Option (PyJson F)) : Option (List PyStr) :=
  (if isTruthy value then Notify.iterated value else some []).map (·.filter (· ≠ []))

/-- A session that is not ignored, and whether it is new. -/
structure Classified where
  deviceKey : PyStr
  isNew : Bool
  row : SessionRow

/-- What comes of a session: nothing when its device is ignored. -/
def classify (settings : Settings E) (sot : Row F) (s : Session) : Option (Option Classified) :=
  let device := sessionDevice sot s
  if device.any deviceIgnored then some none
  else do
    let allowed ← textsOf (device.bind (getKey (pyStr "allowed_networks")))
    let now := nowEpoch settings
    return some {
      deviceKey := (device.map Inventory.deviceKey).getD []
      isNew := !PyEpoch.older now (epochOr s.firstSeen now) (max 60 settings.newAfterSec)
      row :=
        { sessionKey := s.key
          mac := s.mac
          ip := s.ip
          hostname := s.hostname
          interfaceOrSegment := orElse s.interfaceOrSegment (pyStr "unknown")
          interfaceFamily := Inventory.interfaceFamily F s.interfaceOrSegment
          firstSeen := orElse s.firstSeen settings.nowTs
          lastSeen := orElse s.lastSeen settings.nowTs
          sourcesPresent := sortedUnique s.sourcesPresent
          sessionOrigin := Inventory.sessionOrigin s.sourcesPresent
          serviceHints := sortedUnique s.serviceHints
          sotStatus := if device.isSome then pyStr "known" else pyStr "unknown"
          sessionState := Inventory.sessionState settings device s
          arpState := s.arpState
          evidenceIds := sortedUnique s.evidenceIds
          monitoringScope := (device.map deviceMonitoringScope).getD (pyStr "managed")
          notes := (device.map (strField "notes")).getD []
          allowedNetworks := allowed
          expectedInterfaceOrSegment := (device.map expectedInterface).getD []
          expectedLinkMismatch := device.any (Inventory.expectedLinkMismatch · s) } }

/-- The row of a device that no session is of. -/
structure MissingRow where
  sessionKey : PyStr
  mac : PyStr
  ip : PyStr
  hostname : PyStr
  interfaceOrSegment : PyStr

def missingRow (networks : List (Row F)) (device : Row F) : MissingRow :=
  { sessionKey := pyStr "sot:" ++ deviceKey device
    mac := deviceMac device
    ip := strField "ip" device
    hostname := strField "hostname" device
    interfaceOrSegment := orElse (networkId networks (strField "ip" device)) (pyStr "expected") }

/-- The rows of the devices that are missing. -/
def missingRows (sot : Row F) (seen : List PyStr) : List MissingRow :=
  ((dictsOf "devices" sot).filter fun device => deviceIgnored device = false ∧
    deviceKey device ≠ [] ∧ deviceKey device ∉ seen).map (missingRow (dictsOf "networks" sot))

/-! ## 6. The inventory -/

inductive InventoryRow where
  | session (row : SessionRow)
  | missing (row : MissingRow)

/-- What rows are sorted by. -/
def InventoryRow.sortKey : InventoryRow → PyStr × PyStr × PyStr
  | .session row => (row.sessionState.name, row.ip, row.mac)
  | .missing row => (SessionState.authorizedMissing.name, row.ip, row.mac)

def InventoryRow.evidenceIds : InventoryRow → List PyStr
  | .session row => row.evidenceIds
  | .missing _ => []

/-- `<=` of two keys. -/
def tupleLe (a b : PyStr × PyStr × PyStr) : Bool :=
  if a.1 ≠ b.1 then keyLe a.1 b.1
  else if a.2.1 ≠ b.2.1 then keyLe a.2.1 b.2.1
  else keyLe a.2.2 b.2.2

/-- `summary`. -/
structure Counts where
  currentClientCount : ℕ
  newClientCount : ℕ
  unknownClientCount : ℕ
  unauthorizedClientCount : ℕ
  inventoryMismatchCount : ℕ
  expectedLinkMismatchCount : ℕ
  staleSessionCount : ℕ
  authorizedMissingCount : ℕ
  ignoredClientCount : ℕ

/-- The sessions that are not ignored. -/
def present (results : List (Option Classified)) : List Classified := results.reduceOption

/-- The counts of the sessions and of the missing devices. -/
def countAll (results : List (Option Classified)) (missing : ℕ) : Counts :=
  let rows := (present results).map (·.row)
  let inState (state : SessionState) := rows.countP fun row => row.sessionState = state
  { currentClientCount := inState .authorizedPresent + inState .unknownPresent +
      inState .unauthorizedPresent + inState .inventoryMismatch
    newClientCount := (present results).countP (·.isNew)
    unknownClientCount := inState .unknownPresent
    unauthorizedClientCount := inState .unauthorizedPresent
    inventoryMismatchCount := inState .inventoryMismatch
    expectedLinkMismatchCount := rows.countP fun row =>
      row.sessionState = .inventoryMismatch ∧ row.expectedLinkMismatch = true
    staleSessionCount := inState .staleSession
    authorizedMissingCount := missing
    ignoredClientCount := results.countP (·.isNone) }

structure ClientInventory where
  summary : Counts
  sessions : List InventoryRow
  evidenceIds : List PyStr

/-- `build_client_inventory`. -/
def buildClientInventory (settings : Settings E) (events : List (PyJson F)) (sot : Row F) :
    Option ClientInventory := do
  let (sessions, _) ← buildSessions settings (dictsOf "networks" sot) [] (toPayloads events)
  let results ← sessions.mapM (classify settings sot)
  let missing := missingRows sot ((present results).map (·.deviceKey))
  let rows := (present results).map (fun found => InventoryRow.session found.row) ++
    missing.map .missing
  let rows := rows.insertionSort fun a b => tupleLe a.sortKey b.sortKey = true
  return {
    summary := countAll results missing.length
    sessions := rows
    evidenceIds := sortedUnique (rows.flatMap (·.evidenceIds)) }

end AzazelEdge.EvidencePlane.Inventory
