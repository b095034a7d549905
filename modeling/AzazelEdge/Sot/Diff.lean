/-
# The SoT and its diff

`SoTConfig` (`sot/loader.py`): the devices, networks, services and expected paths that are declared.
`SoTDiffInspector.inspect` (`sot/diff.py`): what the evidence shows that is not declared.

A flow is matched with a declared service in two ways: by its protocol and port, through a dict in
which the last declaration of the two wins, and, when that gives none with an id, by its port alone.
What `ipaddress` decides is a parameter; a call that raises is none.
-/
import AzazelEdge.EvidencePlane.Inventory
import AzazelEdge.Lib.Dict

namespace AzazelEdge.Sot

open AzazelEdge.Lib AzazelEdge.Lib.Py AzazelEdge.Audit AzazelEdge.Arbiter AzazelEdge.Evaluators
  AzazelEdge.EvidencePlane AzazelEdge.EvidencePlane.Inventory

variable {F : Type} [PyFloat F] [PyRepr F] [PyConvert F]

/-! ## 1. The SoT -/

/-- `SoTConfig`. -/
structure SoTConfig (F : Type) where
  devices : List (Row F)
  networks : List (Row F)
  services : List (Row F)
  expectedPaths : List (Row F)

def requiredTopLevel : List String := ["devices", "networks", "services", "expected_paths"]

def requiredDevice : List String :=
  ["id", "hostname", "ip", "mac", "criticality", "allowed_networks"]

def requiredNetwork : List String := ["id", "cidr", "zone", "gateway"]

def requiredService : List String := ["id", "proto", "port", "owner", "exposure"]

def requiredPath : List String := ["src", "dst", "service_id", "via", "policy"]

/-- `_ensure_list`: the dicts of a list. -/
def ensureList (payload : Row F) (key : String) : Except String (List (Row F)) :=
  match getKey (pyStr key) payload with
  | some (.arr items) => .ok (items.filterMap fun | .obj item => some item | _ => none)
  | _ => .error (key ++ "_must_be_list")

/-- `_ensure_required`. -/
def ensureRequired (item : Row F) (required : List String) (start : String) :
    Except String Unit :=
  let missing := required.filter fun field => (getKey (pyStr field) item).isNone
  if missing = [] then .ok () else .error (start ++ "_missing:" ++ ",".intercalate missing)

/-- A device has what it has to, and a list of its networks. -/
def ensureDevice (item : Row F) : Except String Unit := do
  ensureRequired item requiredDevice "device"
  match getKey (pyStr "allowed_networks") item with
  | some (.arr _) => return ()
  | _ => throw "device_allowed_networks_must_be_list"

/-- `SoTConfig.from_dict`. -/
def SoTConfig.fromDict (payload : PyJson F) : Except String (SoTConfig F) :=
  match payload with
  | .obj payload => do
    for key in requiredTopLevel do
      if (getKey (pyStr key) payload).isNone then throw ("missing_top_level:" ++ key)
    let devices ← ensureList payload "devices"
    let networks ← ensureList payload "networks"
    let services ← ensureList payload "services"
    let expectedPaths ← ensureList payload "expected_paths"
    for item in devices do ensureDevice item
    for item in networks do ensureRequired item requiredNetwork "network"
    for item in services do ensureRequired item requiredService "service"
    for item in expectedPaths do ensureRequired item requiredPath "expected_path"
    return { devices, networks, services, expectedPaths }
  | _ => .error "sot_root_must_be_dict"

/-- `str(item.get(key))`. -/
def itemText (key : String) (item : Row F) : PyStr := strOf ((getKey (pyStr key) item).getD .null)

/-- `device_by_ip`. -/
def SoTConfig.deviceByIp (sot : SoTConfig F) (ip : PyStr) : Option (Row F) :=
  sot.devices.find? fun item => itemText "ip" item = ip

/-- `expected_path`. -/
def SoTConfig.expectedPath (sot : SoTConfig F) (src dst serviceId : PyStr) : Option (Row F) :=
  sot.expectedPaths.find? fun item =>
    itemText "src" item = src ∧ itemText "dst" item = dst ∧ itemText "service_id" item = serviceId

/-! ## 2. The diff -/

/-- What else is asked of `ipaddress`. -/
class PyGlobal extends PyIpaddress where
  /-- `ip_address(s).is_global`. -/
  isGlobal : PyStr → Bool

/-- The id and the protocol of a declared service. -/
def serviceId (service : Row F) : PyStr := strField "id" service

def serviceProto (service : Row F) : PyStr := PyConvert.lower F (strField "proto" service)

/-- `int(item.get('port') or 0)`. -/
def servicePort (service : Row F) : Option ℤ := intOr0 (getKey (pyStr "port") service)

/-- The item that a service gives the dict. -/
def portItem (service : Row F) : Option ((PyStr × ℤ) × PyStr) :=
  (servicePort service).map fun port => ((serviceProto service, port), serviceId service)

/-- `known_ports`. -/
def knownPorts (sot : SoTConfig F) : Option (List ((PyStr × ℤ) × PyStr)) :=
  (sot.services.mapM portItem).map dictOf

/-- `service_id`, empty when there is none. -/
def serviceIdFor (known : List ((PyStr × ℤ) × PyStr)) (proto : PyStr) (port : ℤ) : PyStr :=
  let declared := (getItem (proto, port) known).getD []
  if declared = [] ∧ port ≠ 0 then
    ((known.find? fun item => decide (item.1.2 = port)).map Prod.snd).getD []
  else declared

/-- `str(attrs.get('app_proto') or attrs.get('proto') or '').lower()`. -/
def flowProto (payload : Row F) : PyStr :=
  PyConvert.lower F (strOr (pyOr (attr "app_proto" payload) (attr "proto" payload)))

/-- `int(attrs.get('dst_port') or attrs.get('target_port') or 0)`. -/
def flowPort (payload : Row F) : Option ℤ :=
  intOr0 (pyOr (attr "dst_port" payload) (attr "target_port" payload))

/-- The protocol and the port, as the report writes them. -/
def serviceLabel (proto : PyStr) (port : ℤ) : PyStr :=
  orElse proto (pyStr "unknown") ++ colon :: ofText (intText port)

structure PathDeviation where
  src : PyStr
  dst : PyStr
  serviceId : PyStr
  deriving DecidableEq

/-- The report of `inspect`. -/
structure SotDiff where
  unauthorizedDevices : List PyStr
  unauthorizedServices : List PyStr
  pathDeviations : List PathDeviation
  evidenceIds : List PyStr

section Diff

variable [PyGlobal]

/-- `_network_id_for_ip`. -/
def networkIdForIp (sot : SoTConfig F) (ip : PyStr) : Option PyStr :=
  if PyIpaddress.isAddress ip then
    match sot.networks.find? fun net => PyIpaddress.isNetwork (strField "cidr" net) &&
        PyIpaddress.inNetwork (strField "cidr" net) ip with
    | some net => some (strField "id" net)
    | none => if PyGlobal.isGlobal ip then some (pyStr "wan") else none
  else none

/-- The networks that a flow is between, empty when there is none. -/
def endpointNets (sot : SoTConfig F) (payload : Row F) : PyStr × PyStr :=
  let (src, dst) := SotDiff.parseSubject (subjectOf payload)
  ((networkIdForIp sot src).getD [], (networkIdForIp sot dst).getD [])

/-- A flow's unauthorized service, and its path deviation. -/
def inspectFlow (sot : SoTConfig F) (known : List ((PyStr × ℤ) × PyStr)) (payload : Row F) :
    Option (Option PyStr × Option PathDeviation) := do
  let proto := flowProto payload
  let port ← flowPort payload
  let id := serviceIdFor known proto port
  let (src, dst) := endpointNets sot payload
  return (if port ≠ 0 ∧ id = [] then some (serviceLabel proto port) else none,
    if src ≠ [] ∧ dst ≠ [] ∧ (id = [] ∨ (sot.expectedPath src dst id).getD [] = []) then
      some ⟨src, dst, orElse id (pyStr "unknown:" ++ serviceLabel proto port)⟩
    else none)

/-- A flow: evidence of the sources that have them. -/
def isFlow (payload : Row F) : Prop :=
  strField "source" payload ∈ [pyStr "suricata_eve", pyStr "flow_min"]

instance (payload : Row F) : Decidable (isFlow payload) := inferInstanceAs (Decidable (_ ∈ _))

/-- One round of the loop of `inspect`. -/
def inspectPayload (sot : SoTConfig F) (known : List ((PyStr × ℤ) × PyStr)) (found : SotDiff)
    (payload : Row F) : Option SotDiff := do
  let eventId := strField "event_id" payload
  let ip := attrStr "ip" payload
  let found := { found with
    evidenceIds := found.evidenceIds ++ if eventId = [] then [] else [eventId]
    unauthorizedDevices := found.unauthorizedDevices ++
      if strField "kind" payload ∈ [pyStr "dhcp_lease", pyStr "arp_entry"] ∧ ip ≠ [] ∧
        (sot.deviceByIp ip).getD [] = [] then [ip] else [] }
  if isFlow payload then
    let (service, deviation) ← inspectFlow sot known payload
    return { found with
      unauthorizedServices := found.unauthorizedServices ++ service.toList
      pathDeviations := found.pathDeviations ++ deviation.toList }
  else return found

/-- `inspect`. -/
def inspect (events : List (PyJson F)) (sot : SoTConfig F) : Option SotDiff := do
  let known ← knownPorts sot
  let found ← (toPayloads events).foldlM (inspectPayload sot known) ⟨[], [], [], []⟩
  return {
    unauthorizedDevices := sortedUnique found.unauthorizedDevices
    unauthorizedServices := sortedUnique found.unauthorizedServices
    pathDeviations := found.pathDeviations
    evidenceIds := sortedUnique found.evidenceIds }

end Diff

end AzazelEdge.Sot
