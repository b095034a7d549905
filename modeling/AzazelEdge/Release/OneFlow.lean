/-
# One flow, one lease

The core names a flow by the texts of its addresses: the key, the resource, the family and the
cooldown all compare texts.  An address is what the text parses to, and an IPv6 address has many
texts.

* `key_inj`: the key determines the texts;
* `one_flow_iff`: alerts of one flow are treated as one in a run exactly when its alerts write each
  flow in one way.
-/
import AzazelEdge.Release.Bounds
import AzazelEdge.Release.Flow
import AzazelEdge.Release.Plan

namespace AzazelEdge.Release

open AzazelEdge.Lib

/-! ## 1. Flows of addresses -/

/-- A flow by its parsed addresses. -/
structure AddressFlow where
  source : IpAddr
  destination : IpAddr
  protocol : String
  destinationPort : ℕ
deriving DecidableEq, Repr

/-- The flow that these texts, protocol and port stand for. -/
def addressFlowOf (source destination protocol : String) (port : ℕ) : Option AddressFlow :=
  match IpAddr.parse source, IpAddr.parse destination with
  | some source, some destination => some ⟨source, destination, protocol, port⟩
  | _, _ => none

def FlowScope.addresses (flow : FlowScope) : Option AddressFlow :=
  addressFlowOf flow.sourceIp flow.destinationIp flow.protocol flow.destinationPort

def ReleaseTask.addressFlow (task : ReleaseTask) : Option AddressFlow :=
  addressFlowOf task.sourceIp task.destinationIp task.protocol task.destinationPort

/-- The flow an alert names, as far as `flow_scope_checked` lets it. -/
def addressScope (ev : NormalizedEvent) : Except String (Option AddressFlow) :=
  (flowScopeChecked ev).map FlowScope.addresses

variable {ev ev' : NormalizedEvent} {flow flow' : FlowScope}

/-- What `flow_scope_checked` found. -/
structure Scoped (ev : NormalizedEvent) (flow : FlowScope) : Prop where
  source : flow.sourceIp = ev.srcIp
  destination : flow.destinationIp = ev.dstIp
  parsed : ∃ source, IpAddr.parse ev.srcIp = some source
  parsed' : ∃ destination, IpAddr.parse ev.dstIp = some destination
  /-- One family. -/
  family : nftFamily ev.dstIp = nftFamily ev.srcIp
  protocol : flow.protocol ∈ flowProtocols

theorem flowProtocol_mem {protocol family found : String}
    (h : flowProtocol protocol family = some found) : found ∈ flowProtocols := by
  unfold flowProtocol at h
  split at h <;> first
    | (obtain rfl := Option.some.inj h; decide)
    | cases h

theorem parse_of_nftFamily {text family : String} (h : nftFamily text = some family) :
    ∃ address, IpAddr.parse text = some address := by
  obtain ⟨address, haddress, -⟩ := Option.map_eq_some_iff.mp h
  exact ⟨address, haddress⟩

theorem flowScopeChecked_ok (h : flowScopeChecked ev = .ok flow) : Scoped ev flow := by
  unfold flowScopeChecked at h
  split at h
  · cases h
  rename_i family hfamily
  split at h
  · cases h
  rename_i hdestination
  split at h
  · cases h
  rename_i protocol hprotocol
  split at h
  · cases h
  obtain rfl := Except.ok.inj h
  exact ⟨rfl, rfl, parse_of_nftFamily hfamily, parse_of_nftFamily (not_not.mp hdestination),
    (not_not.mp hdestination).trans hfamily.symm, flowProtocol_mem hprotocol⟩

/-- **`flow_scope_checked` judges the addresses and not their texts.** -/
theorem addressScope_congr (hsource : IpAddr.parse ev.srcIp = IpAddr.parse ev'.srcIp)
    (hdestination : IpAddr.parse ev.dstIp = IpAddr.parse ev'.dstIp)
    (hprotocol : ev.protocol = ev'.protocol) (hport : ev.targetPort = ev'.targetPort) :
    addressScope ev = addressScope ev' := by
  have hfamily : nftFamily ev.srcIp = nftFamily ev'.srcIp := by rw [nftFamily, nftFamily, hsource]
  have hfamily' : nftFamily ev.dstIp = nftFamily ev'.dstIp := by
    rw [nftFamily, nftFamily, hdestination]
  unfold addressScope flowScopeChecked
  rw [hfamily, hfamily', hprotocol, hport]
  split
  · rfl
  split
  · rfl
  split
  · rfl
  split
  · rfl
  · simp [Except.map, FlowScope.addresses, addressFlowOf, hsource, hdestination]

theorem Scoped.addresses (h : Scoped ev flow) : ∃ source destination,
    IpAddr.parse flow.sourceIp = some source ∧ IpAddr.parse flow.destinationIp = some destination ∧
      flow.addresses = some ⟨source, destination, flow.protocol, flow.destinationPort⟩ := by
  obtain ⟨source, hsource⟩ := h.parsed
  obtain ⟨destination, hdestination⟩ := h.parsed'
  rw [← h.source] at hsource
  rw [← h.destination] at hdestination
  exact ⟨source, destination, hsource, hdestination, by
    simp [FlowScope.addresses, addressFlowOf, hsource, hdestination]⟩

/-- One flow in one way of writing is one scope. -/
theorem Scoped.eq_of_texts (h : Scoped ev flow) (h' : Scoped ev' flow')
    (haddresses : flow.addresses = flow'.addresses) (hsource : ev.srcIp = ev'.srcIp)
    (hdestination : ev.dstIp = ev'.dstIp) : flow = flow' := by
  obtain ⟨_, _, -, -, hflow⟩ := h.addresses
  obtain ⟨_, _, -, -, hflow'⟩ := h'.addresses
  rw [hflow, hflow'] at haddresses
  obtain ⟨-, -, hprotocol, hport⟩ := AddressFlow.mk.inj (Option.some.inj haddresses)
  have hs : flow.sourceIp = flow'.sourceIp := by rw [h.source, h'.source, hsource]
  have hd : flow.destinationIp = flow'.destinationIp := by
    rw [h.destination, h'.destination, hdestination]
  cases flow
  cases flow'
  simp_all

/-! ## 2. What a key determines -/

theorem not_mem_of_address {text : String} {address : IpAddr} (h : IpAddr.parse text = some address) :
    '>' ∉ text.toList := by
  intro hmem
  exact absurd (IpAddr.addressChar_of_parse h _ hmem) (by decide)

theorem colon_not_mem_toString (n : ℕ) : ':' ∉ (toString n).toList := by
  intro hmem
  rw [Nat.toString_eq_repr, Nat.toList_repr] at hmem
  have hdigit : Char.isDigit ':' = true :=
    Nat.isDigit_of_mem_toDigits (b := 10) (by decide) (by decide) hmem
  exact absurd hdigit (by decide)

theorem toString_inj {m n : ℕ} (h : (toString m).toList = (toString n).toList) : m = n := by
  rw [Nat.toString_eq_repr, Nat.toString_eq_repr, Nat.toList_repr, Nat.toList_repr] at h
  rw [← Nat.ofDigitChars_ten_toDigits (n := m), h, Nat.ofDigitChars_ten_toDigits]

theorem flowProtocols_text : ∀ protocol ∈ flowProtocols, protocol ≠ "" ∧ ':' ∉ protocol.toList := by
  decide

/-- The parts of a key. -/
theorem Scoped.key_toList (h : Scoped ev flow) : flow.key.toList =
    flow.sourceIp.toList ++ '>' :: ((flow.destinationIp.toList ++ ':' :: flow.protocol.toList) ++
      ':' :: (toString flow.destinationPort).toList) := by
  simp only [FlowScope.key, if_neg (flowProtocols_text _ h.protocol).1, String.toList_append,
    List.append_assoc, List.cons_append]
  rfl

/-- **The key of a flow determines the texts of its addresses**, its protocol and its port. -/
theorem key_inj (h : Scoped ev flow) (h' : Scoped ev' flow') (hkey : flow.key = flow'.key) :
    flow = flow' := by
  obtain ⟨source, destination, hsource, hdestination, -⟩ := h.addresses
  obtain ⟨source', destination', hsource', hdestination', -⟩ := h'.addresses
  have hlist := congrArg String.toList hkey
  rw [h.key_toList, h'.key_toList] at hlist
  -- Cut at the `>` after the source, then at the last two colons.
  obtain ⟨hs, hrest⟩ := append_cons_inj (not_mem_of_address hsource) (not_mem_of_address hsource')
    hlist
  obtain ⟨hfront, hport⟩ := append_cons_inj_last (colon_not_mem_toString _)
    (colon_not_mem_toString _) hrest
  obtain ⟨hd, hprotocol⟩ := append_cons_inj_last (flowProtocols_text _ h.protocol).2
    (flowProtocols_text _ h'.protocol).2 hfront
  have hports : flow.destinationPort = flow'.destinationPort := toString_inj hport
  cases flow
  cases flow'
  simp_all [String.toList_inj]

/-- Under one way of writing the keys compare the flows. -/
theorem Scoped.key_iff (h : Scoped ev flow) (h' : Scoped ev' flow')
    (htexts : flow.addresses = flow'.addresses → ev.srcIp = ev'.srcIp ∧ ev.dstIp = ev'.dstIp) :
    flow.key = flow'.key ↔ flow.addresses = flow'.addresses := by
  constructor
  · intro hkey
    rw [key_inj h h' hkey]
  · intro haddresses
    obtain ⟨hsource, hdestination⟩ := htexts haddresses
    rw [h.eq_of_texts h' haddresses hsource hdestination]

/-! ## 3. Tasks of alerts -/

/-- What `maybe_enforce_with` may ask for on account of an alert: a restriction of the flow the
alert names, or its redirection on the defended interface. -/
structure Restricts (iface : String) (ev : NormalizedEvent) (alert : Alert) : Prop where
  flow : flowScopeChecked ev = .ok alert.flow
  restriction : alert.restriction = .throttle (strengthFor ev).1 (strengthFor ev).2 ∨
    ∃ decoyPort, alert.restriction = .redirect iface decoyPort

/-- An operation of a run over these alerts: what it admits is asked for by one of them. -/
def Handles (iface : String) (events : List NormalizedEvent) : Op → Prop
  | .admitTask task _ ttlSec now _ =>
    minLeaseTtlSec ≤ ttlSec ∧ ttlSec ≤ maxLeaseTtlSec ∧ ∃ ev ∈ events, ∃ alert,
      Restricts iface ev alert ∧ alert.task ttlSec now = some task
  | _ => True

/-- The resource that a flow's lease of this mechanism claims. -/
def resourceOf (iface : String) (flow : FlowScope) : Mechanism → String
  | .legacy => ""
  | .nftFlowLimit => "nft:inet:azazel_edge:throttle:" ++ flow.key
  | .nftFlowRedirect => "nft:inet:azazel_edge:prerouting:" ++ iface ++ ":" ++ flow.key

/-- A task that acts on this flow. -/
structure ActsOn (iface : String) (flow : FlowScope) (t : ReleaseTask) : Prop where
  key : t.flowKey = flow.key
  addresses : t.addressFlow = flow.addresses
  resource : t.resourceKey = resourceOf iface flow t.mechanism

/-- A task that acts on a flow of one of the alerts. -/
def ActsFor (iface : String) (events : List NormalizedEvent) (t : ReleaseTask) : Prop :=
  ∃ ev ∈ events, ∃ flow, flowScopeChecked ev = .ok flow ∧ ActsOn iface flow t

variable {iface : String} {events : List NormalizedEvent} {alert : Alert} {ttlSec : ℕ}
  {now : LeaseNow} {task t t' : ReleaseTask} {op : Op}

theorem buildFlowThrottleTask_flow {traceId : String} {flow : FlowScope} {rate burst : ℕ}
    (h : buildFlowThrottleTask traceId flow rate burst ttlSec now = some task) :
    task.mechanism = .nftFlowLimit ∧ task.addressFlow = flow.addresses := by
  unfold buildFlowThrottleTask at h
  split at h
  · cases h
  split at h
  · cases h
  obtain ⟨base, hbase, rfl⟩ := Option.map_eq_some_iff.mp h
  unfold buildReleaseTask at hbase
  split at hbase
  · cases hbase
  obtain ⟨_, -, rfl⟩ := Option.map_eq_some_iff.mp hbase
  exact ⟨rfl, rfl⟩

theorem buildFlowRedirectTask_flow {traceId iface : String} {flow : FlowScope} {decoyPort : ℕ}
    (h : buildFlowRedirectTask traceId flow iface decoyPort ttlSec now = some task) :
    task.mechanism = .nftFlowRedirect ∧ task.addressFlow = flow.addresses := by
  unfold buildFlowRedirectTask at h
  split at h
  · cases h
  rename_i hrefused
  have hprotocol : flow.protocol = "tcp" := not_not.mp fun hne => hrefused (Or.inl hne)
  obtain ⟨base, hbase, rfl⟩ := Option.map_eq_some_iff.mp h
  unfold buildReleaseTask at hbase
  split at hbase
  · cases hbase
  obtain ⟨_, -, rfl⟩ := Option.map_eq_some_iff.mp hbase
  exact ⟨rfl, by simp only [ReleaseTask.addressFlow, FlowScope.addresses, hprotocol]⟩

/-- The task built for an alert acts on the alert's flow. -/
theorem Restricts.actsOn (h : Restricts iface ev alert) (htask : alert.task ttlSec now = some task) :
    ActsOn iface alert.flow task := by
  obtain ⟨hkey, hresource⟩ : task.flowKey = alert.flow.key ∧ task.resourceKey = alert.resourceKey :=
    ⟨(alert.task_built htask).flow, (alert.task_built htask).resource⟩
  rcases h.restriction with hthrottle | ⟨decoyPort, hredirect⟩
  · simp only [Alert.task, hthrottle] at htask
    obtain ⟨built, hmade, hbuilt⟩ := Option.map_eq_some_iff.mp htask
    obtain ⟨hmechanism, haddresses⟩ := buildFlowThrottleTask_flow hmade
    have hsame : task.mechanism = built.mechanism ∧ task.addressFlow = built.addressFlow := by
      rw [← hbuilt]
      exact ⟨rfl, rfl⟩
    refine ⟨hkey, hsame.2.trans haddresses, ?_⟩
    rw [hresource, hsame.1, hmechanism]
    unfold Alert.resourceKey
    rw [hthrottle]
    rfl
  · simp only [Alert.task, hredirect] at htask
    obtain ⟨built, hmade, hbuilt⟩ := Option.map_eq_some_iff.mp htask
    obtain ⟨hmechanism, haddresses⟩ := buildFlowRedirectTask_flow hmade
    have hsame : task.mechanism = built.mechanism ∧ task.addressFlow = built.addressFlow := by
      rw [← hbuilt]
      exact ⟨rfl, rfl⟩
    refine ⟨hkey, hsame.2.trans haddresses, ?_⟩
    rw [hresource, hsame.1, hmechanism]
    unfold Alert.resourceKey
    rw [hredirect]
    rfl

/-- What a task acts on is fixed when it enters the ledger. -/
theorem ActsOn.of_origin {flow : FlowScope} (h : ActsOn iface flow t) (horigin : t'.origin = t.origin) :
    ActsOn iface flow t' where
  key := (origin_fixed (g := (·.flowKey)) (fun _ => rfl) horigin).trans h.key
  addresses := (origin_fixed (g := (·.addressFlow)) (fun _ => rfl) horigin).trans h.addresses
  resource := by
    rw [origin_fixed (g := (·.resourceKey)) (fun _ => rfl) horigin,
      origin_fixed (g := (·.mechanism)) (fun _ => rfl) horigin]
    exact h.resource

theorem ActsFor.of_origin (h : ActsFor iface events t) (horigin : t'.origin = t.origin) :
    ActsFor iface events t' := by
  obtain ⟨ev, hev, flow, hflow, hacts⟩ := h
  exact ⟨ev, hev, flow, hflow, hacts.of_origin horigin⟩

theorem Handles.actsFor (h : Handles iface events op) (htask : op.admits = some task) :
    ActsFor iface events task := by
  cases op with
  | admitTask task' traces ttlSec now io =>
    obtain rfl := Option.some.inj htask
    obtain ⟨-, -, ev, hev, alert, hrestricts, halert⟩ := h
    exact ⟨ev, hev, alert.flow, hrestricts.flow, hrestricts.actsOn halert⟩
  | _ => cases htask

theorem Handles.built (h : Handles iface events op) : BuiltOp op := by
  cases op with
  | admitTask task traces ttlSec now io =>
    obtain ⟨hmin, hmax, -, -, alert, -, halert⟩ := h
    exact ⟨hmin, hmax, alert, halert⟩
  | _ => trivial

/-! ## 4. Ledgers of alerts -/

section

variable {encodedLen : ReleaseLedger → ℕ} {L L' : ReleaseLedger} {answer : Answer}
  {ls : List (Op × Answer)} {s₀ s s' : Store}

/-- Every task of the ledger acts on a flow of one of the alerts. -/
def AllActFor (iface : String) (events : List NormalizedEvent) (ledger : ReleaseLedger) : Prop :=
  ∀ t ∈ ledger.tasks, ActsFor iface events t

theorem AllActFor.wrote (h : AllActFor iface events L) (hhandles : Handles iface events op)
    (hw : Wrote encodedLen op answer L L') : AllActFor iface events L' := by
  refine hw.invariant ?_ ?_ ?_ h
  · intro L tasks' hL hf t' ht'
    obtain ⟨t, ht, hmove⟩ := exists_of_forall₂_right hf ht'
    exact (hL t ht).of_origin (hmove.fixed fun _ => rfl)
  · intro L now _ hL t ht
    exact hL t ((compactLedger_sublist L now).subset ht)
  · rintro L new hL ⟨task, now, htask, -, -, horigin, -, -⟩ t ht
    rcases List.mem_append.mp ht with ht | ht
    · exact hL t ht
    · obtain rfl := List.mem_singleton.mp ht
      exact (hhandles.actsFor htask).of_origin horigin

theorem allActFor_run (hinit : s₀.Fresh) (hrun : Run (Store.Step encodedLen) s₀ ls s)
    (hhandles : ∀ l ∈ ls, Handles iface events l.1) :
    s.Current ∧ AllActFor iface events s.ledger := by
  refine hrun.history (P := fun ls s => (∀ l ∈ ls, Handles iface events l.1) →
    s.Current ∧ AllActFor iface events s.ledger) ?_ ?_ hhandles
  · rintro ls s ⟨op, answer⟩ t ih hstep hhandles
    obtain ⟨hcurrent, hall⟩ := ih fun l hl => hhandles l (List.mem_append_left _ hl)
    obtain ⟨hcurrent', ⟨hsame, -⟩ | hwrote⟩ := Store.step_ledger hstep hcurrent
    · exact ⟨hcurrent', hsame ▸ hall⟩
    · exact ⟨hcurrent', hall.wrote (hhandles (op, answer) (by simp)) hwrote⟩
  · intro _
    refine ⟨hinit.1, fun t ht => ?_⟩
    rw [hinit.2] at ht
    cases ht

/-! ## 5. One flow -/

/-- The alerts write each flow in one way. -/
def OneSpelling (events : List NormalizedEvent) : Prop :=
  ∀ ev ∈ events, ∀ ev' ∈ events, ∀ flow flow', flowScopeChecked ev = .ok flow →
    flowScopeChecked ev' = .ok flow' → flow.addresses = flow'.addresses →
      ev.srcIp = ev'.srcIp ∧ ev.dstIp = ev'.dstIp

/-- **IPv4 alerts write each flow in one way**: only an IPv6 address has many texts. -/
theorem oneSpelling_of_v4 (h : ∀ ev ∈ events, nftFamily ev.srcIp = some "ip") :
    OneSpelling events := by
  have hv4 : ∀ {text : String}, nftFamily text = some "ip" → ∃ octets,
      IpAddr.parse text = some (.v4 octets) := by
    intro text hfamily
    obtain ⟨address, haddress, hkind⟩ := Option.map_eq_some_iff.mp hfamily
    cases address with
    | v4 octets => exact ⟨octets, haddress⟩
    | v6 groups => simp at hkind
  intro ev hev ev' hev' flow flow' hflow hflow' haddresses
  have hscoped := flowScopeChecked_ok hflow
  have hscoped' := flowScopeChecked_ok hflow'
  obtain ⟨source, destination, hsource, hdestination, hflow₁⟩ := hscoped.addresses
  obtain ⟨source', destination', hsource', hdestination', hflow₁'⟩ := hscoped'.addresses
  rw [hflow₁, hflow₁'] at haddresses
  obtain ⟨rfl, rfl, -, -⟩ := AddressFlow.mk.inj (Option.some.inj haddresses)
  rw [hscoped.source] at hsource
  rw [hscoped'.source] at hsource'
  rw [hscoped.destination] at hdestination
  rw [hscoped'.destination] at hdestination'
  obtain ⟨octets, hoctets⟩ := hv4 (h ev hev)
  obtain rfl := Option.some.inj (hoctets.symm.trans hsource)
  obtain ⟨octets', hoctets'⟩ := hv4 (hscoped.family.trans (h ev hev))
  obtain rfl := Option.some.inj (hoctets'.symm.trans hdestination)
  exact ⟨IpAddr.v4_text_unique hsource hsource', IpAddr.v4_text_unique hdestination hdestination'⟩

/-- Two tasks of alerts that write each flow in one way have one key exactly when they act on one
flow. -/
theorem OneSpelling.key_iff (h : OneSpelling events) (ht : ActsFor iface events t)
    (ht' : ActsFor iface events t') : t.flowKey = t'.flowKey ↔ t.addressFlow = t'.addressFlow := by
  obtain ⟨ev, hev, flow, hflow, hacts⟩ := ht
  obtain ⟨ev', hev', flow', hflow', hacts'⟩ := ht'
  rw [hacts.key, hacts'.key, hacts.addresses, hacts'.addresses]
  exact (flowScopeChecked_ok hflow).key_iff (flowScopeChecked_ok hflow')
    (h ev hev ev' hev' flow flow' hflow hflow')

theorem ActsFor.flowKey_ne (h : ActsFor iface events t) : t.flowKey ≠ "" := by
  obtain ⟨ev, -, flow, -, hacts⟩ := h
  rw [hacts.key]
  exact key_ne_empty flow

theorem OneSpelling.sameFlow_iff (h : OneSpelling events) (ht : ActsFor iface events t)
    (ht' : ActsFor iface events t') : sameFlow t t' = true ↔ t.addressFlow = t'.addressFlow := by
  rw [← h.key_iff ht ht']
  simp [sameFlow, ht.flowKey_ne, ht'.flowKey_ne]

/-- Of one mechanism and one flow, they claim one resource. -/
theorem OneSpelling.resource_eq (h : OneSpelling events) (ht : ActsFor iface events t)
    (ht' : ActsFor iface events t') (hmechanism : t.mechanism = t'.mechanism)
    (haddresses : t.addressFlow = t'.addressFlow) : t.resourceKey = t'.resourceKey := by
  have hkey := (h.key_iff ht ht').mpr haddresses
  obtain ⟨ev, -, flow, -, hacts⟩ := ht
  obtain ⟨ev', -, flow', -, hacts'⟩ := ht'
  rw [hacts.key, hacts'.key] at hkey
  rw [hacts.resource, hacts'.resource, hmechanism]
  unfold resourceOf
  rw [hkey]

/-- The ledger an admission at this time reads. -/
def readBy (encodedLen : ReleaseLedger → ℕ) (s : Store) (now : LeaseNow) : List ReleaseTask :=
  (compactAtMarks encodedLen s.ledger now).tasks

/-- One flow, one lease: what is promised of the alerts `events` and of a store they lead to. -/
structure OneFlow (encodedLen : ReleaseLedger → ℕ) (iface : String) (events : List NormalizedEvent)
    (s : Store) : Prop where
  /-- Alerts of equal addresses, protocol and port name one flow or none. -/
  scope : ∀ ev ∈ events, ∀ ev' ∈ events, IpAddr.parse ev.srcIp = IpAddr.parse ev'.srcIp →
    IpAddr.parse ev.dstIp = IpAddr.parse ev'.dstIp → ev.protocol = ev'.protocol →
      ev.targetPort = ev'.targetPort →
        (flowScopeChecked ev).map FlowScope.addresses = (flowScopeChecked ev').map FlowScope.addresses
  /-- Alerts of one flow give it one key. -/
  key : ∀ ev ∈ events, ∀ ev' ∈ events, ∀ flow flow', flowScopeChecked ev = .ok flow →
    flowScopeChecked ev' = .ok flow' → flow.addresses = flow'.addresses → flow.key = flow'.key
  /-- A mechanism holds at most one lease of a flow. -/
  leases : ((s.ledger.tasks.filter (·.status.eligible)).map
    fun t => (t.mechanism, t.addressFlow)).Nodup
  /-- `same_flow` compares the flows of an alert's task and of a task in the ledger. -/
  same : ∀ task, ActsFor iface events task → ∀ t ∈ s.ledger.tasks,
    (sameFlow t task = true ↔ t.addressFlow = task.addressFlow)
  /-- A lease in force ends within its family. -/
  bounded : ∀ t ∈ s.ledger.tasks, t.status = .prepared ∨ t.status = .active →
    t.dueEpoch ≤ familyCap t.familyStart
  /-- While a cooldown of a flow runs, no alert of the flow is granted anything. -/
  cooldown : ∀ task traces ttlSec now io answer s',
    Handles iface events (.admitTask task traces ttlSec now io) →
      Store.Step encodedLen s (.admitTask task traces ttlSec now io, answer) s' →
        ∀ t ∈ readBy encodedLen s now, t.addressFlow = task.addressFlow →
          (cooldownRunning t now).running.isSome = true → answer.grants = false
  /-- A new lease of a flow joins every family of the flow that is not yet over. -/
  family : ∀ task traces ttlSec now io lease s',
    Handles iface events (.admitTask task traces ttlSec now io) →
      Store.Step encodedLen s (.admitTask task traces ttlSec now io, .admitted (.ok (.prepared lease))) s' →
        ∀ t ∈ readBy encodedLen s now, t.addressFlow = task.addressFlow → t.status ≠ .merged →
          now.wallEpoch - t.familyStart < maxCumulativeLeaseSec →
            lease.familyStart ≤ t.familyStart ∧ lease.dueEpoch ≤ familyCap t.familyStart

/-- The family a new lease joins began no later than any that is not yet over. -/
theorem familyStartFor_le {tasks : List ReleaseTask} (ht : t ∈ tasks)
    (hfamily : inFamilyOf task t = true)
    (hrecent : now.wallEpoch - t.familyStart < maxCumulativeLeaseSec) :
    familyStartFor tasks task now ≤ t.familyStart := by
  have hfold : ∀ (starts : List Epoch) (acc : Option Epoch),
      ∀ start, (start ∈ starts ∨ acc = some start) → ∃ least ≤ start,
        starts.foldl (fun acc start => some (acc.elim start fun a => min a start)) acc =
          some least := by
    intro starts
    induction starts with
    | nil => exact fun acc start h => ⟨start, le_refl _, by simpa using h⟩
    | cons x xs ih =>
      intro acc start h
      rcases h with h | rfl
      · rcases List.mem_cons.mp h with rfl | h
        · cases acc with
          | none => exact ih _ _ (Or.inr rfl)
          | some a =>
            obtain ⟨least, hle, hleast⟩ := ih (some (min a start)) _ (Or.inr rfl)
            exact ⟨least, hle.trans (min_le_right _ _), hleast⟩
        · exact ih _ _ (Or.inl h)
      · obtain ⟨least, hle, hleast⟩ := ih (some (min start x)) _ (Or.inr rfl)
        exact ⟨least, hle.trans (min_le_left _ _), hleast⟩
  obtain ⟨least, hle, hleast⟩ := hfold
    (((tasks.filter (inFamilyOf task)).map (·.familyStart)).filter fun start =>
      now.wallEpoch - start < maxCumulativeLeaseSec) none t.familyStart (Or.inl (by
        simp only [List.mem_filter, List.mem_map, decide_eq_true_eq]
        exact ⟨⟨t, ⟨ht, hfamily⟩, rfl⟩, hrecent⟩))
  have hcurrent : currentFamily tasks task now = some least := hleast
  rw [familyStartFor, hcurrent]
  exact hle

theorem Granted.ends {lease : ReleaseTask} (h : Granted L task now lease) :
    lease.familyStart = familyStartFor L.tasks task now ∧
      lease.dueEpoch ≤ familyCap (familyStartFor L.tasks task now) := by
  rcases h.shape with ⟨hshort, rfl⟩ | ⟨-, -, rfl⟩
  · exact ⟨rfl, hshort.le⟩
  · exact ⟨rfl, le_refl _⟩

/-- What a granting admission wrote over: a ledger with no cooldown of its flow. -/
theorem Wrote.calm {traces : List String} {io : LedgerIo}
    (hw : Wrote encodedLen (.admitTask task traces ttlSec now io) answer L L')
    (hgrants : answer.grants = true) :
    cooldownEnd task now (compactAtMarks encodedLen L now).tasks = none ∧
      ∀ lease, answer = .admitted (.ok (.prepared lease)) →
        Granted (compactAtMarks encodedLen L now) task now lease := by
  cases hw with
  | evolved hno _ =>
    rw [hno] at hgrants
    cases hgrants
  | admitted hvalid hguard _ hcase =>
    obtain ⟨-, -, -, rfl, -⟩ := admitNewTask_ok hguard
    cases hcase with
    | cooling => cases hgrants
    | usedUp => cases hgrants
    | alreadyHeld held hheld => exact ⟨hheld.calm, fun lease h => by cases h⟩
    | extended held item b hheld => exact ⟨hheld.calm, fun lease h => by cases h⟩
    | granted lease hgranted =>
      refine ⟨hgranted.calm, fun lease' h => ?_⟩
      obtain rfl : lease = lease' := by
        injection h with h
        injection h with h
        injection h
      exact hgranted

theorem Store.step_calm {traces : List String} {io : LedgerIo} (hcurrent : s.Current)
    (hstep : Store.Step encodedLen s (.admitTask task traces ttlSec now io, answer) s')
    (hgrants : answer.grants = true) :
    cooldownEnd task now (readBy encodedLen s now) = none ∧
      ∀ lease, answer = .admitted (.ok (.prepared lease)) →
        Granted (compactAtMarks encodedLen s.ledger now) task now lease := by
  obtain ⟨-, ⟨-, hno⟩ | hwrote⟩ := Store.step_ledger hstep hcurrent
  · rw [hno] at hgrants
    cases hgrants
  · exact hwrote.calm hgrants

theorem mem_of_readBy (ht : t ∈ readBy encodedLen s now) : t ∈ s.ledger.tasks :=
  (compactAtMarks_sublist encodedLen s.ledger now).subset ht

/-- **One flow, one lease.**  In a run of alerts from an empty ledger, alerts of one flow are
treated as one exactly when the alerts write each flow in one way. -/
theorem one_flow_iff (encodedLen : ReleaseLedger → ℕ) (iface : String) (events : List NormalizedEvent)
    {s₀ s : Store} {ls : List (Op × Answer)} (hinit : s₀.Fresh)
    (hrun : Run (Store.Step encodedLen) s₀ ls s) (hhandles : ∀ l ∈ ls, Handles iface events l.1) :
    OneFlow encodedLen iface events s ↔ OneSpelling events := by
  obtain ⟨hcurrent, hall⟩ := allActFor_run hinit hrun hhandles
  obtain ⟨-, hbounds, -⟩ := ledgerBounds_run hinit hrun fun l hl => (hhandles l hl).built
  constructor
  · intro hone ev hev ev' hev' flow flow' hflow hflow' haddresses
    have hkey := hone.key ev hev ev' hev' flow flow' hflow hflow' haddresses
    have hscoped := flowScopeChecked_ok hflow
    have hscoped' := flowScopeChecked_ok hflow'
    obtain rfl := key_inj hscoped hscoped' hkey
    exact ⟨hscoped.source.symm.trans hscoped'.source,
      hscoped.destination.symm.trans hscoped'.destination⟩
  · intro hspelling
    have hcompare : ∀ task, ActsFor iface events task → ∀ t ∈ s.ledger.tasks,
        (sameFlow t task = true ↔ t.addressFlow = task.addressFlow) :=
      fun task htask t ht => hspelling.sameFlow_iff (hall t ht) htask
    refine ⟨?_, ?_, ?_, hcompare, ?_, ?_, ?_⟩
    · exact fun ev _ ev' _ => addressScope_congr
    · intro ev hev ev' hev' flow flow' hflow hflow' haddresses
      obtain ⟨hsource, hdestination⟩ :=
        hspelling ev hev ev' hev' flow flow' hflow hflow' haddresses
      rw [(flowScopeChecked_ok hflow).eq_of_texts (flowScopeChecked_ok hflow') haddresses hsource
        hdestination]
    · have hresources := hbounds.resources
      refine (List.Nodup.of_map _ hresources).map_on fun t ht t' ht' hsame => ?_
      obtain ⟨hmechanism, haddresses⟩ := Prod.mk.inj hsame
      exact List.inj_on_of_nodup_map hresources ht ht'
        (hspelling.resource_eq (hall t (List.mem_filter.mp ht).1) (hall t' (List.mem_filter.mp ht').1)
          hmechanism haddresses)
    · intro t ht hlive
      obtain ⟨start, hstart, hdue⟩ := (hbounds.leases t ht hlive).family
      rw [ReleaseTask.familyStart, hstart]
      exact hdue
    · intro task traces ttlSec now io answer s' hop hstep t ht haddresses hrunning
      by_contra hgrants
      obtain ⟨hcalm, -⟩ := Store.step_calm hcurrent hstep (by simpa using hgrants)
      have hsame := (hcompare task (hop.actsFor rfl) t (mem_of_readBy ht)).mpr haddresses
      rw [running_of_calm hcalm ht hsame] at hrunning
      cases hrunning
    · intro task traces ttlSec now io lease s' hop hstep t ht haddresses hmerged hrecent
      obtain ⟨-, hgranted⟩ := Store.step_calm hcurrent hstep rfl
      obtain ⟨hstart, hdue⟩ := (hgranted lease rfl).ends
      have hsame := (hcompare task (hop.actsFor rfl) t (mem_of_readBy ht)).mpr haddresses
      have hfamily : inFamilyOf task t = true := by
        simp [inFamilyOf, hsame, hmerged]
      have hle := familyStartFor_le ht hfamily hrecent
      refine ⟨hstart ▸ hle, hdue.trans ?_⟩
      exact add_le_add_left hle _

end

/-! ## 6. Two ways of writing -/

def spelledEvent (source destination : String) : NormalizedEvent where
  ts := "2023-11-14T22:13:10Z"
  srcIp := source
  dstIp := destination
  severity := 1
  targetPort := 443
  protocol := "tcp"
  sid := 2000001

/-- The n-th alert of a run, on account of this event. -/
def spelledAlert (ev : NormalizedEvent) (n : ℕ) : Option Alert :=
  (flowScope ev).map fun flow =>
    { traceId := "trace-" ++ toString n
      flow
      restriction := .throttle (strengthFor ev).1 (strengthFor ev).2
      eventKey := "event-" ++ toString n
      eventEpoch := 1699999990 + n }

def spelledTask (ev : NormalizedEvent) (n : ℕ) : Option ReleaseTask :=
  (spelledAlert ev n).bind fun alert => alert.task 300 (sampleNow n)

theorem spelledTask_handles {iface : String} {events : List NormalizedEvent} {ev : NormalizedEvent}
    {n : ℕ} {task : ReleaseTask} (hev : ev ∈ events) (h : spelledTask ev n = some task) :
    Handles iface events (.admitTask task [] 300 (sampleNow n) .fine) := by
  obtain ⟨alert, halert, htask⟩ := Option.bind_eq_some_iff.mp h
  obtain ⟨flow, hflow, rfl⟩ := Option.map_eq_some_iff.mp halert
  have hchecked : flowScopeChecked ev = .ok flow := by
    unfold flowScope at hflow
    split at hflow
    · rename_i hok
      rw [hok, Option.some.inj hflow]
    · cases hflow
  exact ⟨by decide, by decide, ev, hev, _, ⟨hchecked, Or.inl rfl⟩, htask⟩

/-- One IPv6 flow, written in two ways. -/
def spelledEvents : List NormalizedEvent :=
  [spelledEvent "2001:db8::7" "2001:db8::9", spelledEvent "2001:DB8:0:0:0:0:0:7" "2001:db8::9"]

/-- The alerts' tasks are admitted one after the other. -/
def spelledOps (events : List NormalizedEvent) : List Op :=
  (events.zipIdx.filterMap fun (ev, n) => (spelledTask ev n).map fun task =>
    .admitTask task [] 300 (sampleNow n) .fine)

theorem spelledOps_handles (iface : String) (events : List NormalizedEvent) :
    ∀ op ∈ spelledOps events, Handles iface events op := by
  intro op hop
  obtain ⟨⟨ev, n⟩, hmem, hop⟩ := List.mem_filterMap.mp hop
  obtain ⟨task, htask, rfl⟩ := Option.map_eq_some_iff.mp hop
  exact spelledTask_handles (List.fst_mem_of_mem_zipIdx hmem) htask

def spelledRun : Store × List (Op × Answer) :=
  (Store.execAll (fun _ => 1000) ⟨none, []⟩ (spelledOps spelledEvents)).get (by decide +kernel)

theorem spelledRun_run :
    Run (Store.Step fun _ => 1000) ⟨none, []⟩ spelledRun.2 spelledRun.1 ∧
      spelledRun.2.map Prod.fst = spelledOps spelledEvents :=
  Store.execAll_get _ _ _ _

theorem spelledRun_handles : ∀ l ∈ spelledRun.2, Handles "br0" spelledEvents l.1 := by
  intro l hl
  refine spelledOps_handles "br0" spelledEvents l.1 ?_
  rw [← spelledRun_run.2]
  exact List.mem_map_of_mem hl

/-- In the run of the two writings. -/
theorem one_flow_iff_sample :
    OneFlow (fun _ => 1000) "br0" spelledEvents spelledRun.1 ↔ OneSpelling spelledEvents :=
  one_flow_iff (fun _ => 1000) "br0" spelledEvents ⟨fun file h => (by cases h), rfl⟩
    spelledRun_run.1 spelledRun_handles

/-- **A second writing gets a second lease.** -/
theorem two_leases_of_one_flow :
    Run (Store.Step fun _ => 1000) ⟨none, []⟩ spelledRun.2 spelledRun.1 ∧
      (∀ l ∈ spelledRun.2, Handles "br0" spelledEvents l.1) ∧
      (spelledRun.1.ledger.tasks.filter (·.status.eligible)).length = 2 ∧
      ¬ OneFlow (fun _ => 1000) "br0" spelledEvents spelledRun.1 := by
  refine ⟨spelledRun_run.1, spelledRun_handles, by decide +kernel, fun hone => ?_⟩
  have htwice : ¬ ((spelledRun.1.ledger.tasks.filter (·.status.eligible)).map
      fun t => (t.mechanism, t.addressFlow)).Nodup := by
    decide +kernel
  exact htwice hone.leases

end AzazelEdge.Release
