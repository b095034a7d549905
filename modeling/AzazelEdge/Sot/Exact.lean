/-
# When the diff is exact

A flow with a transport protocol and a port should be unauthorized when no service is declared with
the two, and deviate when it is between two known networks and no such service has the path.  The
diff decides both by one declaration (`Taken`), which may be one of the port with another protocol.
-/
import AzazelEdge.Sot.Diff

namespace AzazelEdge.Sot

open AzazelEdge.Lib AzazelEdge.Lib.Py AzazelEdge.Audit AzazelEdge.Arbiter AzazelEdge.Evaluators
  AzazelEdge.EvidencePlane AzazelEdge.EvidencePlane.Inventory

section Exact

variable {F : Type} [PyFloat F] [PyRepr F] [PyConvert F]

/-! ## 1. The declaration that decides -/

/-- The services that are declared with a protocol and a port, in their order. -/
def declaredWith (sot : SoTConfig F) (proto : PyStr) (port : ℤ) : List (Row F) :=
  sot.services.filter fun service => serviceProto service = proto ∧ servicePort service = some port

/-- The last service that is declared with a protocol and a port, if it has an id. -/
def NamedLast (sot : SoTConfig F) (proto : PyStr) (port : ℤ) (service : Row F) : Prop :=
  (declaredWith sot proto port).getLast? = some service ∧ serviceId service ≠ []

/-- The first service that is declared with a port. -/
def firstAt (sot : SoTConfig F) (port : ℤ) : Option (Row F) :=
  sot.services.find? fun service => servicePort service = some port

/-- The service that a flow of this protocol and port is taken for: the last declaration of the two,
and when that has no id, or there is none, the last declaration of the port with the protocol that
the port was first declared with. -/
inductive Taken (sot : SoTConfig F) (proto : PyStr) (port : ℤ) : Row F → Prop
  | exact {service : Row F} : NamedLast sot proto port service → Taken sot proto port service
  | byPort {first service : Row F} : (∀ other, ¬ NamedLast sot proto port other) →
      firstAt sot port = some first → NamedLast sot (serviceProto first) port service →
        Taken sot proto port service

variable {sot : SoTConfig F} {services : List (Row F)} {pairs known : List ((PyStr × ℤ) × PyStr)}
  {proto : PyStr} {port : ℤ} {service : Row F} {payload : Row F}

theorem mapM_portItem_cons : (service :: services).mapM portItem = some pairs ↔
    ∃ n rest, servicePort service = some n ∧ services.mapM portItem = some rest ∧
      pairs = ((serviceProto service, n), serviceId service) :: rest := by
  simp only [List.mapM_cons, portItem]
  cases servicePort service <;> cases services.mapM portItem <;> simp [eq_comm]

theorem isSome_mapM_portItem :
    (services.mapM portItem).isSome = true ↔ ∀ s ∈ services, (servicePort s).isSome = true := by
  induction services with
  | nil => simp
  | cons service services ih =>
    rw [List.forall_mem_cons, ← ih, Option.isSome_iff_exists]
    simp only [mapM_portItem_cons]
    constructor
    · rintro ⟨pairs, n, rest, hport, hrest, -⟩
      simp [hport, hrest]
    · rintro ⟨hport, hrest⟩
      obtain ⟨n, hn⟩ := Option.isSome_iff_exists.mp hport
      obtain ⟨rest, hrest⟩ := Option.isSome_iff_exists.mp hrest
      exact ⟨_, n, rest, hn, hrest, rfl⟩

/-- The items with a key are of the services with it. -/
theorem filter_portItems (h : services.mapM portItem = some pairs) :
    (pairs.filter fun item => item.1 = (proto, port)) =
      (services.filter fun s => serviceProto s = proto ∧ servicePort s = some port).map fun s =>
        ((proto, port), serviceId s) := by
  induction services generalizing pairs with
  | nil =>
    obtain rfl : pairs = [] := by simpa using h.symm
    rfl
  | cons service services ih =>
    obtain ⟨n, rest, hport, hrest, rfl⟩ := mapM_portItem_cons.mp h
    rw [List.filter_cons, List.filter_cons, ih hrest]
    by_cases hkey : serviceProto service = proto ∧ n = port
    · obtain ⟨rfl, rfl⟩ := hkey
      simp [hport]
    · have hitem : ¬ (serviceProto service = proto ∧ servicePort service = some port) := by
        rw [hport, Option.some_inj]
        exact hkey
      simp [hkey, hitem]

/-- The first key of a port is of the first service with it. -/
theorem find_portItems (h : services.mapM portItem = some pairs) :
    (pairs.map Prod.fst).find? (fun key => decide (key.2 = port)) =
      (services.find? fun s => servicePort s = some port).map fun s => (serviceProto s, port) := by
  induction services generalizing pairs with
  | nil =>
    obtain rfl : pairs = [] := by simpa using h.symm
    rfl
  | cons service services ih =>
    obtain ⟨n, rest, hport, hrest, rfl⟩ := mapM_portItem_cons.mp h
    by_cases hn : n = port
    · simp [hn, hport]
    · simp [hn, hport, ih hrest]

/-- The id of the last service that is declared with a protocol and a port. -/
def lastId (sot : SoTConfig F) (proto : PyStr) (port : ℤ) : PyStr :=
  ((declaredWith sot proto port).getLast?.map serviceId).getD []

theorem namedLast_iff {id : PyStr} (hid : id ≠ []) :
    lastId sot proto port = id ↔ ∃ s, NamedLast sot proto port s ∧ serviceId s = id := by
  unfold lastId NamedLast
  cases (declaredWith sot proto port).getLast? with
  | none => simp [Ne.symm hid]
  | some s =>
    constructor
    · rintro rfl
      exact ⟨s, ⟨rfl, hid⟩, rfl⟩
    · rintro ⟨_, ⟨hs, -⟩, rfl⟩
      rw [Option.some_inj.mp hs]
      rfl

theorem serviceIdFor_eq (hknown : knownPorts sot = some known) (hport : port ≠ 0) :
    serviceIdFor known proto port =
      if lastId sot proto port = [] then
        ((firstAt sot port).map fun first => lastId sot (serviceProto first) port).getD []
      else lastId sot proto port := by
  obtain ⟨pairs, hpairs, rfl⟩ := Option.map_eq_some_iff.mp hknown
  have hlookup : ∀ q, (getItem (q, port) (dictOf pairs)).getD [] = lastId sot q port := fun q => by
    rw [getItem_dictOf, filter_portItems hpairs, List.getLast?_map, Option.map_map]
    rfl
  have hfind : (((dictOf pairs).find? fun item => decide (item.1.2 = port)).map Prod.snd).getD [] =
      ((firstAt sot port).map fun first => lastId sot (serviceProto first) port).getD [] := by
    rw [find_dictOf (P := fun key : PyStr × ℤ => decide (key.2 = port)), find_portItems hpairs,
      firstAt]
    cases sot.services.find? fun s => servicePort s = some port with
    | none => rfl
    | some first =>
      simp only [Option.map_some, Option.bind_some, Option.getD_some]
      rw [← hlookup, getItem_dictOf]
  simp only [serviceIdFor, hlookup, hfind, hport, and_true, ne_eq, not_false_eq_true]

theorem Taken.named (h : Taken sot proto port service) : serviceId service ≠ [] := by
  cases h with
  | exact h => exact h.2
  | byPort _ _ h => exact h.2

/-- The id that a flow gets is that of the service that it is taken for. -/
theorem serviceIdFor_iff (hknown : knownPorts sot = some known) (hport : port ≠ 0) {id : PyStr}
    (hid : id ≠ []) : serviceIdFor known proto port = id ↔
      ∃ s, Taken sot proto port s ∧ serviceId s = id := by
  rw [serviceIdFor_eq hknown hport]
  by_cases hlast : lastId sot proto port = []
  · have hnone : ∀ other, ¬ NamedLast sot proto port other := fun other h =>
      h.2 ((namedLast_iff h.2).mpr ⟨other, h, rfl⟩ ▸ hlast)
    rw [if_pos hlast]
    constructor
    · intro h
      cases hfirst : firstAt sot port with
      | none =>
        rw [hfirst] at h
        exact absurd h.symm hid
      | some first =>
        rw [hfirst] at h
        obtain ⟨s, hnamed, hs⟩ := (namedLast_iff hid).mp h
        exact ⟨s, .byPort hnone hfirst hnamed, hs⟩
    · rintro ⟨s, htaken, rfl⟩
      cases htaken with
      | exact h => exact absurd h (hnone s)
      | byPort _ hfirst hnamed =>
        rw [hfirst]
        exact (namedLast_iff hid).mpr ⟨s, hnamed, rfl⟩
  · rw [if_neg hlast]
    obtain ⟨last, hlastNamed, -⟩ := (namedLast_iff hlast).mp rfl
    rw [namedLast_iff hid]
    constructor
    · rintro ⟨s, hnamed, hs⟩
      exact ⟨s, .exact hnamed, hs⟩
    · rintro ⟨s, htaken, hs⟩
      cases htaken with
      | exact h => exact ⟨s, h, hs⟩
      | byPort hnone _ _ => exact absurd hlastNamed (hnone last)

/-- A flow gets no id when it is taken for no service. -/
theorem serviceIdFor_eq_nil_iff (hknown : knownPorts sot = some known) (hport : port ≠ 0) :
    serviceIdFor known proto port = [] ↔ ¬ ∃ s, Taken sot proto port s := by
  constructor
  · rintro hnil ⟨s, htaken⟩
    have hid := (serviceIdFor_iff hknown hport htaken.named).mpr ⟨s, htaken, rfl⟩
    exact htaken.named (hid.symm.trans hnil)
  · intro hnone
    by_contra hid
    obtain ⟨s, htaken, -⟩ := (serviceIdFor_iff hknown hport hid).mp rfl
    exact hnone ⟨s, htaken⟩

/-! ## 2. The flows of a report -/

variable [PyGlobal] {flows : List (Row F)} {found report : SotDiff}

/-- `str(attrs.get('proto') or '').lower()`. -/
def transportProto (payload : Row F) : PyStr := PyConvert.lower F (attrStr "proto" payload)

/-- A flow event that carries a transport protocol and a port. -/
structure CarriesService (payload : Row F) : Prop where
  attrs : ∃ members, getKey (pyStr "attrs") payload = some (.obj members)
  flow : isFlow payload
  proto : attrStr "proto" payload ≠ []
  port : ∃ n ≠ 0, flowPort payload = some n

/-- A service is declared with the flow's protocol and port. -/
def Matches (sot : SoTConfig F) (payload service : Row F) : Prop :=
  service ∈ sot.services ∧ serviceProto service = transportProto payload ∧
    servicePort service = flowPort payload

/-- The path between the networks of the flow is expected for a service. -/
def HasPath (sot : SoTConfig F) (payload service : Row F) : Prop :=
  (sot.expectedPath (endpointNets sot payload).1 (endpointNets sot payload).2
    (serviceId service)).getD [] ≠ []

/-- The flow is between two known networks. -/
def BetweenKnown (sot : SoTConfig F) (payload : Row F) : Prop :=
  (endpointNets sot payload).1 ≠ [] ∧ (endpointNets sot payload).2 ≠ []

/-- What a report has to say of a flow: `own` is the report of this flow alone. -/
structure FlowExact (sot : SoTConfig F) (payload : Row F) (own : SotDiff) : Prop where
  service : own.unauthorizedServices ≠ [] ↔ ¬ ∃ s, Matches sot payload s
  path : own.pathDeviations ≠ [] ↔
    BetweenKnown sot payload ∧ ¬ ∃ s, Matches sot payload s ∧ HasPath sot payload s

/-- A report of flows is exact: of each of them alone, and together it is what they are alone. -/
structure ReportExact (sot : SoTConfig F) (flows : List (Row F)) (report : SotDiff) : Prop where
  each : ∀ payload ∈ flows, ∃ own, inspect [.obj payload] sot = some own ∧
    FlowExact sot payload own
  services : ∀ label, label ∈ report.unauthorizedServices ↔
    ∃ payload ∈ flows, ∃ own, inspect [.obj payload] sot = some own ∧
      label ∈ own.unauthorizedServices
  paths : report.pathDeviations =
    flows.flatMap fun payload => ((inspect [.obj payload] sot).map (·.pathDeviations)).getD []

/-- What `inspectFlow` tells of a flow. -/
def flowService (sot : SoTConfig F) (known : List ((PyStr × ℤ) × PyStr)) (payload : Row F) :
    List PyStr :=
  ((inspectFlow sot known payload).map fun told => told.1.toList).getD []

def flowDeviation (sot : SoTConfig F) (known : List ((PyStr × ℤ) × PyStr)) (payload : Row F) :
    List PathDeviation :=
  ((inspectFlow sot known payload).map fun told => told.2.toList).getD []

theorem inspectFlow_isSome (sot : SoTConfig F) (known : List ((PyStr × ℤ) × PyStr))
    (h : CarriesService payload) : ∃ told, inspectFlow sot known payload = some told := by
  obtain ⟨n, -, hport⟩ := h.port
  simp [inspectFlow, hport]

/-- The rounds of the loop over flows. -/
theorem foldlM_flows (sot : SoTConfig F) (known : List ((PyStr × ℤ) × PyStr)) (found : SotDiff)
    (hflows : ∀ payload ∈ flows, CarriesService payload) :
    ∃ r, flows.foldlM (inspectPayload sot known) found = some r ∧
      r.unauthorizedServices =
        found.unauthorizedServices ++ flows.flatMap (flowService sot known) ∧
      r.pathDeviations = found.pathDeviations ++ flows.flatMap (flowDeviation sot known) := by
  induction flows generalizing found with
  | nil => exact ⟨found, by simp⟩
  | cons payload flows ih =>
    obtain ⟨hpayload, hflows⟩ := List.forall_mem_cons.mp hflows
    obtain ⟨told, htold⟩ := inspectFlow_isSome sot known hpayload
    obtain ⟨next, hnext, hservices, hpaths⟩ : ∃ next, inspectPayload sot known found payload =
        some next ∧
        next.unauthorizedServices = found.unauthorizedServices ++ flowService sot known payload ∧
        next.pathDeviations = found.pathDeviations ++ flowDeviation sot known payload := by
      simp [inspectPayload, hpayload.flow, htold, flowService, flowDeviation]
    obtain ⟨r, hr, hrservices, hrpaths⟩ := ih next hflows
    refine ⟨r, ?_, ?_, ?_⟩
    · rw [List.foldlM_cons, hnext]
      exact hr
    · rw [hrservices, hservices, List.flatMap_cons, List.append_assoc]
    · rw [hrpaths, hpaths, List.flatMap_cons, List.append_assoc]

omit [PyGlobal] in
theorem toPayloads_flows (hflows : ∀ payload ∈ flows, CarriesService payload) :
    toPayloads (flows.map PyJson.obj) = flows := by
  induction flows with
  | nil => rfl
  | cons payload flows ih =>
    obtain ⟨hpayload, hflows⟩ := List.forall_mem_cons.mp hflows
    obtain ⟨members, hattrs⟩ := hpayload.attrs
    have hrest := ih hflows
    unfold toPayloads at hrest ⊢
    rw [List.map_cons, List.filterMap_cons]
    simp only [hattrs, hrest]

/-- The report of flows. -/
theorem inspect_flows (hknown : knownPorts sot = some known)
    (hflows : ∀ payload ∈ flows, CarriesService payload) :
    ∃ r, inspect (flows.map PyJson.obj) sot = some r ∧
      r.unauthorizedServices = sortedUnique (flows.flatMap (flowService sot known)) ∧
      r.pathDeviations = flows.flatMap (flowDeviation sot known) := by
  obtain ⟨r, hr, hservices, hpaths⟩ :=
    foldlM_flows sot known ⟨[], [], [], []⟩ hflows
  rw [← toPayloads_flows hflows] at hr
  simp only [inspect, hknown, hr, Option.bind_eq_bind, Option.bind_some]
  exact ⟨_, rfl, congrArg sortedUnique hservices, hpaths⟩

/-- A flow is taken for a service. -/
def TakenFor (sot : SoTConfig F) (payload service : Row F) : Prop :=
  ∃ n, flowPort payload = some n ∧ Taken sot (flowProto payload) n service

theorem flowService_iff (hknown : knownPorts sot = some known) (h : CarriesService payload) :
    flowService sot known payload ≠ [] ↔ ¬ ∃ s, TakenFor sot payload s := by
  obtain ⟨n, hn, hport⟩ := h.port
  have htaken : (∃ s, TakenFor sot payload s) ↔ ∃ s, Taken sot (flowProto payload) n s := by
    simp [TakenFor, hport]
  rw [htaken, ← serviceIdFor_eq_nil_iff hknown hn]
  by_cases hid : serviceIdFor known (flowProto payload) n = [] <;>
    simp [flowService, inspectFlow, hport, hn, hid]

theorem flowDeviation_iff (hknown : knownPorts sot = some known) (h : CarriesService payload) :
    flowDeviation sot known payload ≠ [] ↔ BetweenKnown sot payload ∧
      ¬ ∃ s, TakenFor sot payload s ∧ HasPath sot payload s := by
  obtain ⟨n, hn, hport⟩ := h.port
  have hdeviation : flowDeviation sot known payload ≠ [] ↔ BetweenKnown sot payload ∧
      (serviceIdFor known (flowProto payload) n = [] ∨
        (sot.expectedPath (endpointNets sot payload).1 (endpointNets sot payload).2
          (serviceIdFor known (flowProto payload) n)).getD [] = []) := by
    rw [BetweenKnown, and_assoc]
    simp only [flowDeviation, inspectFlow, hport, Option.bind_eq_bind, Option.bind_some]
    split <;> simp_all
  have htaken : ∀ {s}, TakenFor sot payload s →
      serviceIdFor known (flowProto payload) n = serviceId s := by
    rintro s ⟨m, hm, htaken⟩
    obtain rfl := Option.some_inj.mp (hport.symm.trans hm)
    exact (serviceIdFor_iff hknown hn htaken.named).mpr ⟨s, htaken, rfl⟩
  rw [hdeviation]
  refine and_congr_right fun _ => ⟨?_, ?_⟩
  · rintro hnone ⟨s, hs, hpath⟩
    rw [htaken hs] at hnone
    obtain ⟨_, -, hnamed⟩ := hs
    exact hnone.elim hnamed.named hpath
  · intro hnone
    by_contra hid
    obtain ⟨hid, hpath⟩ := not_or.mp hid
    obtain ⟨s, hs, heq⟩ := (serviceIdFor_iff hknown hn hid).mp rfl
    refine hnone ⟨s, ⟨n, hport, hs⟩, ?_⟩
    rw [HasPath, heq]
    exact hpath

/-- The report of one flow. -/
theorem inspect_flow (hknown : knownPorts sot = some known) (h : CarriesService payload) :
    ∃ own, inspect [.obj payload] sot = some own ∧
      own.unauthorizedServices = sortedUnique (flowService sot known payload) ∧
      own.pathDeviations = flowDeviation sot known payload := by
  have hone : ∀ p ∈ [payload], CarriesService p := fun p hp => List.mem_singleton.mp hp ▸ h
  simpa using inspect_flows hknown hone

/-! ## 3. Exactly when -/

/-- The declaration that decides is one that the flow matches, as far as that matters: there is the
one when there is the other, and between known networks the one's path is there when the other's
is. -/
structure Decisive (sot : SoTConfig F) (payload : Row F) : Prop where
  service : (∃ s, TakenFor sot payload s) ↔ ∃ s, Matches sot payload s
  path : BetweenKnown sot payload →
    ((∃ s, TakenFor sot payload s ∧ HasPath sot payload s) ↔
      ∃ s, Matches sot payload s ∧ HasPath sot payload s)

omit [PyGlobal] in
theorem knownPorts_isSome : (knownPorts sot).isSome = true ↔
    ∀ s ∈ sot.services, (servicePort s).isSome = true := by
  rw [knownPorts, Option.isSome_map, isSome_mapM_portItem]

/-- What is said of a flow is exact when the flow is taken for a service that it matches. -/
theorem flowExact_iff (hknown : knownPorts sot = some known) (h : CarriesService payload)
    {own : SotDiff}
    (hservices : own.unauthorizedServices = sortedUnique (flowService sot known payload))
    (hpaths : own.pathDeviations = flowDeviation sot known payload) :
    FlowExact sot payload own ↔ Decisive sot payload := by
  have hservice : own.unauthorizedServices ≠ [] ↔ ¬ ∃ s, TakenFor sot payload s := by
    rw [hservices, ne_eq, sortedUnique_eq_nil]
    exact flowService_iff hknown h
  have hpath : own.pathDeviations ≠ [] ↔ BetweenKnown sot payload ∧
      ¬ ∃ s, TakenFor sot payload s ∧ HasPath sot payload s := by
    rw [hpaths]
    exact flowDeviation_iff hknown h
  constructor
  · intro hexact
    refine ⟨not_iff_not.mp (hservice.symm.trans hexact.service), fun hbetween => ?_⟩
    have hiff := hpath.symm.trans hexact.path
    simp only [hbetween, true_and] at hiff
    exact not_iff_not.mp hiff
  · intro hdecisive
    refine ⟨hservice.trans (not_congr hdecisive.service), hpath.trans ?_⟩
    exact and_congr_right fun hbetween => not_congr (hdecisive.path hbetween)

/-- **The report of flows is exact exactly when the ports of the SoT can be read and each flow is
taken for a service that it matches.** -/
theorem diff_exact_iff (hflows : ∀ payload ∈ flows, CarriesService payload) :
    (∃ report, inspect (flows.map PyJson.obj) sot = some report ∧ ReportExact sot flows report) ↔
      (∀ s ∈ sot.services, (servicePort s).isSome = true) ∧
        ∀ payload ∈ flows, Decisive sot payload := by
  constructor
  · rintro ⟨report, hreport, hexact⟩
    obtain ⟨known, hknown⟩ : ∃ known, knownPorts sot = some known := by
      cases hknown : knownPorts sot with
      | none => simp [inspect, hknown] at hreport
      | some known => exact ⟨known, rfl⟩
    refine ⟨knownPorts_isSome.mp (Option.isSome_iff_exists.mpr ⟨known, hknown⟩), ?_⟩
    intro payload hpayload
    have hcarries := hflows payload hpayload
    obtain ⟨own, hown, hflow⟩ := hexact.each payload hpayload
    obtain ⟨own', hown', hservices, hpaths⟩ := inspect_flow hknown hcarries
    obtain rfl := Option.some_inj.mp (hown.symm.trans hown')
    exact (flowExact_iff hknown hcarries hservices hpaths).mp hflow
  · rintro ⟨hports, hdecisive⟩
    obtain ⟨known, hknown⟩ := Option.isSome_iff_exists.mp (knownPorts_isSome.mpr hports)
    obtain ⟨report, hreport, hservices, hpaths⟩ := inspect_flows hknown hflows
    refine ⟨report, hreport, ?_, ?_, ?_⟩
    · intro payload hpayload
      obtain ⟨own, hown, hown'⟩ := inspect_flow hknown (hflows payload hpayload)
      exact ⟨own, hown, (flowExact_iff hknown (hflows payload hpayload) hown'.1 hown'.2).mpr
        (hdecisive payload hpayload)⟩
    · intro label
      rw [hservices, mem_sortedUnique, List.mem_flatMap]
      refine exists_congr fun payload => and_congr_right fun hpayload => ?_
      obtain ⟨own, hown, hown', -⟩ := inspect_flow hknown (hflows payload hpayload)
      rw [← mem_sortedUnique, ← hown']
      constructor
      · exact fun hlabel => ⟨own, hown, hlabel⟩
      · rintro ⟨other, hother, hlabel⟩
        rwa [Option.some_inj.mp (hown.symm.trans hother)]
    · rw [hpaths]
      refine List.flatMap_congr fun payload hpayload => ?_
      obtain ⟨own, hown, -, hown'⟩ := inspect_flow hknown (hflows payload hpayload)
      rw [hown, ← hown']
      rfl

end Exact

/-! ## 4. A service of another protocol -/

/-- One local network, and one address of the outside. -/
instance : PyGlobal where
  isAddress s := s ∈ [pyStr "192.168.40.10", pyStr "8.8.8.8"]
  isNetwork s := s = pyStr "192.168.40.0/24"
  inNetwork network s := network = pyStr "192.168.40.0/24" ∧ s = pyStr "192.168.40.10"
  isGlobal s := s = pyStr "8.8.8.8"

/-- A record of texts. -/
def textRow (items : List (String × String)) : Row Whole :=
  items.map fun item => (pyStr item.1, .str (pyStr item.2))

/-- One network, and DNS over UDP from it to the outside. -/
def dnsSot : SoTConfig Whole where
  devices := []
  networks := [textRow [("id", "lan-main"), ("cidr", "192.168.40.0/24"), ("zone", "lan"),
    ("gateway", "192.168.40.1")]]
  services := [textRow [("id", "svc-dns"), ("proto", "udp"), ("owner", "netops"),
    ("exposure", "internal")] ++ [(pyStr "port", .int 53)]]
  expectedPaths := [textRow [("src", "lan-main"), ("dst", "wan"), ("service_id", "svc-dns"),
    ("via", "192.168.40.1"), ("policy", "allow")]]

def dnsDeclared : PyJson Whole :=
  .obj [(pyStr "devices", .arr []), (pyStr "networks", .arr (dnsSot.networks.map .obj)),
    (pyStr "services", .arr (dnsSot.services.map .obj)),
    (pyStr "expected_paths", .arr (dnsSot.expectedPaths.map .obj))]

/-- A flow over TCP to the port of DNS. -/
def tcpFlow : Row Whole :=
  textRow [("event_id", "ev-1"), ("source", "flow_min"), ("kind", "flow_summary"),
      ("subject", "192.168.40.10->8.8.8.8:53/TCP")] ++
    [(pyStr "attrs", .obj (textRow [("proto", "TCP")] ++ [(pyStr "dst_port", .int 53)]))]

theorem tcpFlow_carries : CarriesService tcpFlow :=
  ⟨⟨_, by rfl⟩, by decide +kernel, by decide +kernel, 53, by decide, by decide +kernel⟩

theorem diff_exact_iff_tcpFlow :
    (∃ report, inspect ([tcpFlow].map PyJson.obj) dnsSot = some report ∧
      ReportExact dnsSot [tcpFlow] report) ↔
      (∀ s ∈ dnsSot.services, (servicePort s).isSome = true) ∧
        ∀ payload ∈ [tcpFlow], Decisive dnsSot payload :=
  diff_exact_iff (by simpa using tcpFlow_carries)

/-- **A flow over TCP is taken for the service that is declared for UDP.** -/
theorem tcp_taken_for_udp : SoTConfig.fromDict dnsDeclared = .ok dnsSot ∧ CarriesService tcpFlow ∧
    ¬ ∃ report, inspect ([tcpFlow].map PyJson.obj) dnsSot = some report ∧
      ReportExact dnsSot [tcpFlow] report := by
  refine ⟨by rfl, tcpFlow_carries, ?_⟩
  rintro ⟨report, -, hexact⟩
  obtain ⟨own, hown, hflow⟩ := hexact.each tcpFlow (List.mem_singleton_self _)
  have hquiet : (inspect [.obj tcpFlow] dnsSot).map (·.unauthorizedServices) = some [] := by
    decide +kernel
  have hunmatched : ¬ ∃ s, Matches dnsSot tcpFlow s := by
    rintro ⟨s, hs, hproto, -⟩
    have hother : ∀ s ∈ dnsSot.services, serviceProto s ≠ transportProto tcpFlow := by
      decide +kernel
    exact hother s hs hproto
  rw [hown] at hquiet
  exact hflow.service.mpr hunmatched (Option.some_inj.mp hquiet)

end AzazelEdge.Sot
