/-
# A network of which nothing was seen

The arbiter takes an unknown health for a fragile one, and no control action for a fragile network.
The NOC evaluator never says unknown: each dimension begins at 100 and is good until an event takes
from it, so a batch without any event it scores is handed on as a good network
(`unseen_labels`), and a SoT diff takes it to degraded at most.

What the arbiter then does is decided by the SOC evaluation and the client impact alone
(`no_control_iff`).
-/
import AzazelEdge.Audit.RustChain
import AzazelEdge.Evaluators.Noc

namespace AzazelEdge.Evaluators

open AzazelEdge.Lib AzazelEdge.Lib.Py AzazelEdge.Audit AzazelEdge.Arbiter

variable {F : Type} [PyFloat F] [PyRepr F] [PyConvert F]

/-! ## 1. Nothing is scored -/

/-- The kinds that availability, path health and device health are scored from. -/
def scoredKinds : List String :=
  ["icmp_probe", "service_health", "path_probe", "iface_stats", "flow_summary", "cpu_mem_temp",
    "collector_failure"]

/-- The batch has no event of these kinds. -/
def Unseen (events : List (PyJson F)) : Prop :=
  ∀ payload ∈ toPayloads events, strField "kind" payload ∉ scoredKinds.map pyStr

section Unseen

variable {events : List (PyJson F)}

omit [PyConvert F] in
theorem ofKind_unseen (h : Unseen events) {kind : String} (hkind : kind ∈ scoredKinds) :
    ofKind kind (toPayloads events) = [] :=
  List.filter_eq_nil_iff.mpr fun payload hpayload heq =>
    h payload hpayload (decide_eq_true_eq.mp heq ▸ List.mem_map_of_mem hkind)

/-- A dimension from which nothing was taken. -/
def unseenDimension : Dimension := ⟨100, pyStr "good", [], []⟩

theorem availability_unseen (h : Unseen events) (cfg : AvailabilityConfig) :
    evaluateAvailability cfg (toPayloads events) = unseenDimension := by
  rw [evaluateAvailability, ofKind_unseen h (by decide), ofKind_unseen h (by decide),
    ofKind_unseen h (by decide)]
  rfl

theorem pathHealth_unseen (h : Unseen events) (cfg : PathConfig) :
    evaluatePathHealth cfg (toPayloads events) = some unseenDimension := by
  rw [evaluatePathHealth, ofKind_unseen h (by decide), ofKind_unseen h (by decide),
    ofKind_unseen h (by decide), ofKind_unseen h (by decide), ofKind_unseen h (by decide)]
  rfl

theorem deviceHealth_unseen (h : Unseen events) (cfg : DeviceConfig) :
    evaluateDeviceHealth cfg (toPayloads events) = some unseenDimension := by
  rw [evaluateDeviceHealth, ofKind_unseen h (by decide), ofKind_unseen h (by decide)]
  rfl

end Unseen

/-- A score of 70 or more is not fragile. -/
theorem bucket_not_fragile {score : ℤ} (h : 70 ≤ score) : bucket score ∉ fragileLabels := by
  unfold bucket
  by_cases h90 : 90 ≤ score
  · rw [if_pos h90]
    simp [fragileLabels]
  · rw [if_neg h90, if_pos h]
    simp [fragileLabels]

omit [PyRepr F] [PyConvert F] in
/-- A finding takes no more than its penalty. -/
theorem diffFinding_score (sotDiff : Row F) (key : String) {penalty : ℤ} (hpenalty : 0 ≤ penalty)
    (reason : String) (t : Tally) :
    t.score - penalty ≤ (diffFinding sotDiff key penalty reason t).score := by
  unfold diffFinding
  split
  · exact le_max_right _ _
  · omega

omit [PyConvert F] in
/-- **A SoT diff takes a good path to degraded at most.** -/
theorem withSotDiff_unseen {sotDiff : Option (PyJson F)} {d : Dimension}
    (h : withSotDiff unseenDimension sotDiff = some d) :
    ∃ score, 70 ≤ score ∧ d.label = bucket score := by
  have hgood : ∃ score, 70 ≤ score ∧ unseenDimension.label = bucket score := ⟨100, by decide, rfl⟩
  unfold withSotDiff at h
  split at h
  · cases h
    exact hgood
  · cases h
    exact hgood
  · rename_i members _
    obtain ⟨ids, -, rfl⟩ := Option.map_eq_some_iff.mp h
    have hpath := diffFinding_score members "path_deviations" (by decide : (0 : ℤ) ≤ 20)
      "path_deviation_detected" ⟨100, [], []⟩
    have hservice := diffFinding_score members "unauthorized_services" (by decide : (0 : ℤ) ≤ 10)
      "unauthorized_services_present"
      (diffFinding members "path_deviations" 20 "path_deviation_detected" ⟨100, [], []⟩)
    refine ⟨_, ?_, rfl⟩
    simp only [unseenDimension] at hpath hservice ⊢
    omega
  · split at h
    · cases h
    · cases h
      exact hgood

/-! ## 2. What the arbiter is handed -/

omit [PyFloat F] [PyRepr F] [PyConvert F] in
/-- A key that is handed on. -/
theorem getKey_handoff {source key : String} {keys : List String} {evaluation : Row F}
    (hkey : key ∈ keys) (hsource : key ≠ "source") :
    getKey (pyStr key) (handoff source keys evaluation) =
      some ((getKey (pyStr key) evaluation).getD (.obj [])) := by
  have hkeys : ∀ keys : List String, key ∈ keys →
      getKey (pyStr key) (keys.map fun k => (pyStr k, (getKey (pyStr k) evaluation).getD (.obj []))) =
        some ((getKey (pyStr key) evaluation).getD (.obj [])) := by
    intro keys hkey
    induction keys with
    | nil => cases hkey
    | cons k keys ih =>
      rw [List.map_cons, getKey]
      by_cases hk : k = key
      · rw [if_pos (congrArg pyStr hk), hk]
      · rw [if_neg fun heq => hk (pyStr_inj heq)]
        exact ih ((List.mem_cons.mp hkey).resolve_left fun heq => hk heq.symm)
  rw [handoff, List.append_assoc, List.singleton_append, getKey,
    if_neg fun heq => hsource (pyStr_inj heq).symm, getKey_append, hkeys keys hkey, Option.some_or]

omit [PyFloat F] [PyRepr F] [PyConvert F] in
theorem dictSection_handoff {key : String} {keys : List String} {source : String} {extra : Row F}
    {evaluation : Row F} (hkey : key ∈ keys) (hsource : key ≠ "source")
    (hextra : getKey (pyStr key) extra = none) :
    dictSection (extra ++ handoff source keys evaluation) (pyStr key) =
      dictSection evaluation (pyStr key) := by
  rw [dictSection, dictSection, getKey_append, hextra, Option.none_or, getKey_handoff hkey hsource]
  cases getKey (pyStr key) evaluation <;> rfl

section Handed

variable {cfg : NocConfig} {events : List (PyJson F)} {sotDiff : Option (PyJson F)} {rest : Rest F}
  {noc soc : Row F} {policy : Policy} {clientImpact : Option (PyJson F)}

/-- The members of the arbiter's NOC input. -/
def nocMembers (config : PyJson F) (evaluation : Row F) : Row F :=
  asDict (some (nocArbiterInput config evaluation))

def socMembers (evaluation : Row F) : Row F := asDict (some (socArbiterInput evaluation))

omit [PyFloat F] [PyRepr F] [PyConvert F] in
theorem healthLabel_nocMembers [PyFloat F] [PyRepr F] {config : PyJson F} {evaluation : Row F}
    {key : String} (hkey : key ∈ ["availability", "path_health", "device_health"]) :
    healthLabel (nocMembers config evaluation) (pyStr key) = healthLabel evaluation (pyStr key) := by
  have hmem : key ∈ ["summary", "availability", "path_health", "device_health", "client_health",
      "capacity_health", "client_inventory_health", "service_health", "resolution_health",
      "config_drift_health", "affected_scope", "incident_summary"] := by
    revert hkey
    simp only [List.mem_cons, List.not_mem_nil, or_false]
    tauto
  have hne : key ≠ "source" ∧ pyStr "config" ≠ pyStr key := by
    simp only [List.mem_cons, List.not_mem_nil, or_false] at hkey
    rcases hkey with rfl | rfl | rfl <;> simp
  have hsection := (@dictSection_handoff _ _ _ "noc_evaluator" [(pyStr "config", config)] evaluation)
    hmem hne.1 (by rw [getKey, if_neg hne.2, getKey])
  rw [healthLabel, healthLabel, ← hsection]
  rfl

omit [PyConvert F] in
/-- The label that is read of a dimension. -/
theorem label_value {d : Dimension} (h : d.label ≠ []) :
    strOrDefault (pyStr "unknown") (getKey (pyStr "label") (asDict (some (d.value (F := F))))) =
      d.label := by
  have hget : getKey (pyStr "label") (asDict (some (d.value (F := F)))) = some (.str d.label) := by
    rw [Dimension.value, asDict, getKey, if_neg (by simp), getKey, if_pos rfl]
  rw [hget, strOrDefault, strOf, if_pos (by simpa [truthy] using h)]

theorem bucket_ne_nil (score : ℤ) : bucket score ≠ [] := by
  unfold bucket
  split_ifs <;> simp [pyStr]

/-- The labels of an evaluation. -/
theorem evaluate_labels (heval : evaluate cfg events sotDiff rest = some noc) :
    ∃ path device path', evaluatePathHealth cfg.pathHealth (toPayloads events) = some path ∧
      evaluateDeviceHealth cfg.deviceHealth (toPayloads events) = some device ∧
      withSotDiff path sotDiff = some path' ∧
      dictSection noc (pyStr "availability") =
        asDict (some (evaluateAvailability cfg.availability (toPayloads events)).value) ∧
      dictSection noc (pyStr "path_health") = asDict (some path'.value) ∧
      dictSection noc (pyStr "device_health") = asDict (some device.value) := by
  obtain ⟨path, hpath, h₁⟩ := Option.bind_eq_some_iff.mp heval
  obtain ⟨device, hdevice, h₂⟩ := Option.bind_eq_some_iff.mp h₁
  obtain ⟨path', hpath', h₃⟩ := Option.bind_eq_some_iff.mp h₂
  cases h₃
  refine ⟨path, device, path', hpath, hdevice, hpath', ?_, ?_, ?_⟩
  · rw [dictSection, getKey, if_pos rfl]
  · rw [dictSection, getKey, if_neg (by simp), getKey, if_pos rfl]
  · rw [dictSection, getKey, if_neg (by simp), getKey, if_neg (by simp), getKey,
      if_pos rfl]

/-- **The labels of a network of which nothing was seen are good, or degraded.** -/
theorem unseen_labels (h : Unseen events) (heval : evaluate cfg events sotDiff rest = some noc) :
    (readSignals (nocMembers rest.config noc) soc).nocFragile = false := by
  obtain ⟨path, device, path', hpath, hdevice, hpath', havailability, hpathSection, hdeviceSection⟩ :=
    evaluate_labels heval
  rw [pathHealth_unseen h] at hpath
  rw [deviceHealth_unseen h] at hdevice
  rw [availability_unseen h] at havailability
  cases hpath
  cases hdevice
  obtain ⟨score, hscore, hlabel⟩ := withSotDiff_unseen hpath'
  have hgood : pyStr "good" ∉ fragileLabels := by simp [fragileLabels]
  have hunseen : (unseenDimension).label ≠ [] := by simp [unseenDimension, pyStr]
  have hread : ∀ key, key ∈ ["availability", "path_health", "device_health"] →
      healthLabel (nocMembers rest.config noc) (pyStr key) ∉ fragileLabels := by
    intro key hkey
    rw [healthLabel_nocMembers hkey, healthLabel]
    simp only [List.mem_cons, List.not_mem_nil, or_false] at hkey
    rcases hkey with rfl | rfl | rfl
    · rw [havailability, label_value hunseen]
      exact hgood
    · rw [hpathSection, label_value (by rw [hlabel]; exact bucket_ne_nil score), hlabel]
      exact bucket_not_fragile hscore
    · rw [hdeviceSection, label_value hunseen]
      exact hgood
  simp only [Signals.nocFragile, readSignals, hread "availability" (by decide),
    hread "path_health" (by decide), hread "device_health" (by decide), decide_false, Bool.or_self]

/-! ## 3. What the arbiter does -/

/-- The client impact is read without an exception, and leaves a control action alone. -/
def ImpactSpares : Option (PyJson F) → Prop
  | none => True
  | some (.obj impact) => ∃ score critical, intOr0 (getKey (pyStr "score") impact) = some score ∧
      intOr0 (getKey (pyStr "critical_client_count") impact) = some critical ∧
      score < 70 ∧ critical ≤ 0
  | some value => truthy value = false

/-- The SOC evaluation meets a gate of the policy, and the client impact spares the action. -/
def ControlDue (policy : Policy) (soc : Row F) (clientImpact : Option (PyJson F)) : Prop :=
  let s := readSignals [] soc
  s.strongSoc policy = true ∧
    (policy.isolate.met s = true ∨ policy.redirect.met s = true ∨ policy.throttle.met s = true) ∧
    ImpactSpares clientImpact

omit [PyFloat F] [PyRepr F] [PyConvert F] in
theorem choose_control (p : Policy) (s : Signals) :
    (choose p s).action.isControl = true ↔ s.strongSoc p = true ∧ s.nocFragile = false ∧
      (p.isolate.met s = true ∨ p.redirect.met s = true ∨ p.throttle.met s = true) := by
  unfold choose
  cases s.strongSoc p <;> cases s.nocFragile <;> cases p.isolate.met s <;>
    cases p.redirect.met s <;> cases p.throttle.met s <;> decide

omit [PyRepr F] in
/-- A choice that is no control action stays. -/
theorem weighImpact_other {choice : Choice} (h : choice.action.isControl = false) :
    weighImpact choice clientImpact = .ok choice := by
  unfold weighImpact
  rw [h, if_neg (by decide)]

omit [PyRepr F] in
/-- A control action stays where the client impact spares it. -/
theorem weighImpact_spares {choice : Choice} (hspares : ImpactSpares clientImpact) :
    weighImpact choice clientImpact = .ok choice := by
  unfold weighImpact
  split
  · unfold ImpactSpares at hspares
    split
    · obtain ⟨score, critical, hscore, hcritical, hlow, hnone⟩ := hspares
      rw [readImpact, hscore, hcritical]
      show Except.ok (if 70 ≤ score ∨ 0 < critical then _ else choice) = _
      rw [if_neg (by omega)]
    · rfl
  · rfl

theorem decisionTrace_spares {choice : Choice} {s : Signals} (hspares : ImpactSpares clientImpact) :
    ∃ trace, decisionTrace noc soc choice policy s clientImpact = .ok trace := by
  have hdict : ∃ impact, orEmpty clientImpact = .ok impact := by
    unfold orEmpty
    split
    · exact ⟨_, rfl⟩
    · exact ⟨_, rfl⟩
    · rename_i value hnot
      have hfalsy : truthy value = false := by
        unfold ImpactSpares at hspares
        split at hspares
        · rename_i heq
          cases heq
        · rename_i heq
          cases heq
          exact absurd rfl (hnot _)
        · rename_i heq
          cases heq
          exact hspares
      exact ⟨[], by rw [hfalsy]; rfl⟩
  obtain ⟨impact, himpact⟩ := hdict
  exact ⟨_, by rw [decisionTrace, himpact]; rfl⟩

/-- A control action that came through was spared. -/
theorem spares_of_decided {choice choice' : Choice} {s : Signals} {trace : DecisionTrace}
    (hweigh : weighImpact choice clientImpact = .ok choice')
    (htrace : decisionTrace noc soc choice' policy s clientImpact = .ok trace)
    (hcontrol : choice'.action.isControl = true) :
    choice' = choice ∧ ImpactSpares clientImpact := by
  obtain ⟨impact, himpact, -⟩ := bind_eq_ok htrace
  cases hchoice : choice.action.isControl with
  | false =>
    rw [weighImpact_other hchoice] at hweigh
    cases hweigh
    rw [hchoice] at hcontrol
    cases hcontrol
  | true =>
    unfold weighImpact at hweigh
    rw [if_pos hchoice] at hweigh
    match clientImpact with
    | none =>
      cases hweigh
      exact ⟨rfl, trivial⟩
    | some (.obj members) =>
      obtain ⟨⟨score, critical⟩, hread, hif⟩ := bind_eq_ok hweigh
      unfold readImpact at hread
      split at hread
      · rename_i hscore hcritical
        cases hread
        injection hif with hif
        split at hif
        · subst hif
          cases hcontrol
        · exact ⟨hif.symm, score, critical, hscore, hcritical, by omega, by omega⟩
      · cases hread
    | some .null | some (.bool _) | some (.int _) | some (.float _) | some (.str _)
    | some (.arr _) =>
      cases hweigh
      refine ⟨rfl, ?_⟩
      unfold orEmpty at himpact
      simp only at himpact
      split at himpact
      · cases himpact
      · rename_i hfalsy
        exact eq_false_of_ne_true hfalsy

omit [PyFloat F] [PyRepr F] [PyConvert F] in
/-- A dict that has every key is accepted. -/
theorem validateSchema_ok {members : Row F} {required : List PyStr} {name : PyStr}
    (h : ∀ key ∈ required, key ∈ members.map Prod.fst) :
    validateSchema (.obj members) required name = .ok members := by
  have hmissing : (required.filter fun key => (getKey key members).isNone) = [] := by
    refine List.filter_eq_nil_iff.mpr fun key hkey hnone => ?_
    exact getKey_eq_none.mp (Option.isNone_iff_eq_none.mp hnone) (h key hkey)
  simp only [validateSchema, hmissing, if_true]

omit [PyFloat F] [PyRepr F] [PyConvert F] in
/-- The inputs that the evaluators hand on have every key. -/
theorem validate_noc (config : PyJson F) (noc : Row F) :
    validateSchema (nocArbiterInput config noc) requiredNocKeys (pyStr "noc") =
      .ok (nocMembers config noc) := by
  have hkeys : (nocMembers config noc).map Prod.fst = ["config", "source", "summary",
      "availability", "path_health", "device_health", "client_health", "capacity_health",
      "client_inventory_health", "service_health", "resolution_health", "config_drift_health",
      "affected_scope", "incident_summary", "evidence_ids"].map pyStr := rfl
  refine (@validateSchema_ok _ (nocMembers config noc)) fun key hkey => ?_
  rw [hkeys]
  revert key
  decide +kernel

omit [PyFloat F] [PyRepr F] [PyConvert F] in
theorem validate_soc (soc : Row F) :
    validateSchema (socArbiterInput soc) requiredSocKeys (pyStr "soc") = .ok (socMembers soc) := by
  have hkeys : (socMembers soc).map Prod.fst = ["source", "summary", "suspicion", "confidence",
      "technique_likelihood", "blast_radius", "entity_risk_state", "incident_campaign_state",
      "security_visibility_state", "suppression_exception_state", "asset_target_criticality",
      "exposure_change_state", "confidence_provenance", "behavior_sequence_state",
      "triage_priority_state", "evidence_ids"].map pyStr := rfl
  refine (@validateSchema_ok _ (socMembers soc)) fun key hkey => ?_
  rw [hkeys]
  revert key
  decide +kernel

/-- The SOC signals are those of the evaluation. -/
theorem readSignals_handoff {noc' : Row F} :
    (readSignals noc' (socMembers soc)).strongSoc policy = (readSignals [] soc).strongSoc policy ∧
      policy.isolate.met (readSignals noc' (socMembers soc)) =
        policy.isolate.met (readSignals [] soc) ∧
      policy.redirect.met (readSignals noc' (socMembers soc)) =
        policy.redirect.met (readSignals [] soc) ∧
      policy.throttle.met (readSignals noc' (socMembers soc)) =
        policy.throttle.met (readSignals [] soc) := by
  have hread : ∀ key, key ∈ ["suspicion", "confidence", "blast_radius"] →
      dictSection (socMembers soc) (pyStr key) = dictSection soc (pyStr key) := by
    intro key hkey
    refine (@dictSection_handoff _ _ _ "soc_evaluator" []) ?_ ?_ rfl
    · revert hkey
      simp only [List.mem_cons, List.not_mem_nil, or_false]
      tauto
    · simp only [List.mem_cons, List.not_mem_nil, or_false] at hkey
      rcases hkey with rfl | rfl | rfl <;> decide
  simp only [Signals.strongSoc, Gate.met, ThrottleGate.met, readSignals, hread "suspicion" (by decide),
    hread "confidence" (by decide), hread "blast_radius" (by decide)]
  exact ⟨rfl, rfl, rfl, rfl⟩

/-- **Where nothing was seen of the network, the arbiter never chooses a control action just when
the SOC evaluation meets no gate, or the client impact is too high.** -/
theorem no_control_iff (h : Unseen events) (heval : evaluate cfg events sotDiff rest = some noc) :
    (∀ d, decideAction policy (nocArbiterInput rest.config noc) (socArbiterInput soc) clientImpact =
        .ok d → d.action.isControl = false) ↔ ¬ ControlDue policy soc clientImpact := by
  have hfragile := (@unseen_labels _ _ _ _ _ _ _ _ _ (socMembers soc)) h heval
  obtain ⟨hstrong, hisolate, hredirect, hthrottle⟩ :=
    (@readSignals_handoff _ _ _ _ soc policy (nocMembers rest.config noc))
  have hchoose := choose_control policy (readSignals (nocMembers rest.config noc) (socMembers soc))
  rw [hstrong, hisolate, hredirect, hthrottle, hfragile] at hchoose
  constructor
  · rintro hnever ⟨hsoc, hgates, hspares⟩
    have hcontrol := hchoose.mpr ⟨hsoc, rfl, hgates⟩
    obtain ⟨trace, htrace⟩ := decisionTrace_spares
      (s := readSignals (nocMembers rest.config noc) (socMembers soc)) hspares
    have hno := hnever _ (by
      rw [decideAction, validate_noc, validate_soc]
      show (weighImpact _ clientImpact >>= _) = _
      rw [weighImpact_spares hspares]
      show (decisionTrace _ _ _ _ _ clientImpact >>= _) = _
      rw [htrace]
      rfl)
    exact absurd (hcontrol.symm.trans hno) (by decide)
  · intro hnot d hd
    refine eq_false_of_ne_true fun hcontrol => hnot ?_
    obtain ⟨noc', hnoc, h₁⟩ := bind_eq_ok hd
    obtain ⟨soc', hsoc', h₂⟩ := bind_eq_ok h₁
    obtain ⟨choice, hweigh, h₃⟩ := bind_eq_ok h₂
    obtain ⟨trace, htrace, h₄⟩ := bind_eq_ok h₃
    rw [validate_noc] at hnoc
    rw [validate_soc] at hsoc'
    cases hnoc
    cases hsoc'
    cases h₄
    obtain ⟨rfl, hspares⟩ := spares_of_decided hweigh htrace hcontrol
    obtain ⟨hsoc, -, hgates⟩ := hchoose.mp hcontrol
    exact ⟨hsoc, hgates, hspares⟩

end Handed

section Sample

/-- A SOC evaluation at these scores. -/
def sampleSoc (suspicion confidence blast : ℤ) : Row Whole :=
  [(pyStr "suspicion", .obj [(pyStr "score", .int suspicion), (pyStr "label", .str (pyStr "critical"))]),
    (pyStr "confidence", .obj [(pyStr "score", .int confidence)]),
    (pyStr "blast_radius", .obj [(pyStr "score", .int blast)])]

def sampleRest : Rest Whole :=
  ⟨.null, .null, .null, .null, .null, .null, .null, .null, .null, .null⟩

/-- The policy of an arbiter that is given none. -/
def defaultPolicy : Policy :=
  ⟨pyStr "soc-policy-v1", [], ⟨95, 90, 80⟩, ⟨90, 80, 70⟩, ⟨60, 40⟩, 60, []⟩

theorem unseen_nil : Unseen ([] : List (PyJson Whole)) := fun _ h => by cases h

/-- The evaluation of no events. -/
def sampleNoc : Row Whole := (evaluate {} [] none sampleRest).getD []

theorem evaluate_sampleNoc : evaluate {} [] none sampleRest = some sampleNoc := rfl

theorem no_control_iff_sample :
    (∀ d, decideAction defaultPolicy (nocArbiterInput .null sampleNoc)
        (socArbiterInput (sampleSoc 50 50 50)) none = .ok d → d.action.isControl = false) ↔
      ¬ ControlDue defaultPolicy (sampleSoc 50 50 50) none :=
  no_control_iff unseen_nil evaluate_sampleNoc

/-- **A network of which nothing was seen is isolated.**  Without a single event, a SOC evaluation at
96, 92 and 85 is answered with the strongest action. -/
theorem unseen_network_isolated : ¬ ∀ (policy : Policy) (cfg : NocConfig)
    (events : List (PyJson Whole)) (sotDiff : Option (PyJson Whole)) (rest : Rest Whole)
    (noc soc : Row Whole) (clientImpact : Option (PyJson Whole)), Unseen events →
    evaluate cfg events sotDiff rest = some noc →
    ∀ d, decideAction policy (nocArbiterInput rest.config noc) (socArbiterInput soc) clientImpact =
      .ok d → d.action.isControl = false := by
  intro h
  have hnever := h defaultPolicy {} [] none sampleRest sampleNoc (sampleSoc 96 92 85) none unseen_nil
    evaluate_sampleNoc
  have hdecided : ((decideAction defaultPolicy (nocArbiterInput sampleRest.config sampleNoc)
      (socArbiterInput (sampleSoc 96 92 85)) none).toOption.map Decision.action) = some .isolate := by
    decide +kernel
  cases hd : decideAction defaultPolicy (nocArbiterInput sampleRest.config sampleNoc)
      (socArbiterInput (sampleSoc 96 92 85)) none with
  | error e =>
    rw [hd] at hdecided
    cases hdecided
  | ok d =>
    rw [hd] at hdecided
    have haction : d.action = .isolate := Option.some.inj hdecided
    have hno := hnever d hd
    rw [haction] at hno
    cases hno

end Sample

end AzazelEdge.Evaluators
