/-
# What a decision comes to

`decideAction` taken apart.  A call that returns has read two dicts with every required key and a
client impact that is a dict or falsy; its choice is the one the signals make, or it gave way to the
client impact (`decideAction_eq_ok`).

What the signals choose is said once, by the condition under which each action is reached
(`choose_eq`): the claims about the arbiter are read off it.
-/
import AzazelEdge.Arbiter.Action
import AzazelEdge.Lib.PyWhole

namespace AzazelEdge.Arbiter

open AzazelEdge.Lib AzazelEdge.Lib.Py AzazelEdge.Audit

variable {F : Type}

/-! ## 1. The schema -/

/-- Every required key is there. -/
def HasKeys (members : Row F) (required : List PyStr) : Prop :=
  ∀ key ∈ required, (getKey key members).isSome = true

instance (members : Row F) (required : List PyStr) : Decidable (HasKeys members required) :=
  inferInstanceAs (Decidable (∀ key ∈ required, (getKey key members).isSome = true))

theorem missing_eq_nil {members : Row F} {required : List PyStr} :
    (required.filter fun key => (getKey key members).isNone) = [] ↔ HasKeys members required := by
  rw [List.filter_eq_nil_iff]
  refine forall₂_congr fun key _ => ?_
  cases getKey key members <;> simp

/-- **A dict is accepted just when it has every required key.** -/
theorem validateSchema_eq_ok {payload : PyJson F} {required : List PyStr} {name : PyStr}
    {members : Row F} :
    validateSchema payload required name = .ok members ↔
      payload = .obj members ∧ HasKeys members required := by
  unfold validateSchema
  split
  · rename_i members'
    by_cases hkeys : HasKeys members' required
    · simp only [missing_eq_nil.mpr hkeys, if_true, Except.ok.injEq, PyJson.obj.injEq]
      exact ⟨fun h => ⟨h, h ▸ hkeys⟩, fun h => h.1⟩
    · simp only [missing_eq_nil.not.mpr hkeys, if_false, reduceCtorEq, PyJson.obj.injEq, false_iff]
      rintro ⟨rfl, h⟩
      exact hkeys h
  · rename_i hnot
    simp only [reduceCtorEq, false_iff]
    rintro ⟨rfl, -⟩
    exact hnot members rfl

theorem validateSchema_error {payload : PyJson F} {required : List PyStr} {name : PyStr} {e : Error}
    (h : validateSchema payload required name = .error e) :
    (∃ message, e = .schema message) ∧
      ∀ members, ¬ (payload = .obj members ∧ HasKeys members required) := by
  refine ⟨?_, fun members hmembers => ?_⟩
  · unfold validateSchema at h
    split at h
    · simp only at h
      split at h
      · cases h
      · exact ⟨_, (Except.error.inj h).symm⟩
    · exact ⟨_, (Except.error.inj h).symm⟩
  · rw [validateSchema_eq_ok.mpr hmembers] at h
    cases h

/-! ## 2. What the signals choose -/

section Choose

variable (p : Policy) (s : Signals)

/-- A control action may be taken at all. -/
def Signals.Controllable : Prop := s.strongSoc p = true ∧ s.nocFragile = false

/-- Some gate of the policy is met. -/
def Policy.GateMet : Prop :=
  p.isolate.met s = true ∨ p.redirect.met s = true ∨ p.throttle.met s = true

/-- The ways through the cascade. -/
inductive Chosen : Choice → Prop
  | isolate (hcontrol : s.Controllable p) (hisolate : p.isolate.met s = true) : Chosen
      ⟨.isolate, pyStr "soc_extreme_and_target_is_narrow_enough", pyStr "segment_isolation"⟩
  | redirect (hcontrol : s.Controllable p) (hisolate : p.isolate.met s = false)
      (hredirect : p.redirect.met s = true) : Chosen
      ⟨.redirect, pyStr "soc_high_confidence_redirect_is_preferred", pyStr "opencanary_redirect"⟩
  | throttle (hcontrol : s.Controllable p) (hisolate : p.isolate.met s = false)
      (hredirect : p.redirect.met s = false) (hthrottle : p.throttle.met s = true) : Chosen
      ⟨.throttle, pyStr "soc_high_and_reversible_control_is_safe", pyStr "route_preference"⟩
  | noGate (hcontrol : s.Controllable p) (hgates : ¬ p.GateMet s) : Chosen
      ⟨.notify, pyStr "soc_high_but_noc_fragile", pyStr "none"⟩
  | fragile (hstrong : s.strongSoc p = true) (hfragile : s.nocFragile = true) : Chosen
      ⟨.notify, pyStr "soc_high_but_noc_fragile", pyStr "none"⟩
  | degraded (hstrong : s.strongSoc p = false) (hfragile : s.nocFragile = true) : Chosen
      ⟨.notify, pyStr "noc_degraded_requires_operator_attention", pyStr "none"⟩
  | baseline (hstrong : s.strongSoc p = false) (hfragile : s.nocFragile = false) : Chosen
      ⟨.observe, pyStr "baseline", pyStr "none"⟩

/-- **The cascade goes one of these ways.** -/
theorem choose_chosen : Chosen p s (choose p s) := by
  unfold choose
  cases hstrong : s.strongSoc p with
  | false =>
    cases hfragile : s.nocFragile with
    | false => exact .baseline hstrong hfragile
    | true => exact .degraded hstrong hfragile
  | true =>
    cases hfragile : s.nocFragile with
    | true => exact .fragile hstrong hfragile
    | false =>
      cases hisolate : p.isolate.met s with
      | true => exact .isolate ⟨hstrong, hfragile⟩ hisolate
      | false =>
        cases hredirect : p.redirect.met s with
        | true => exact .redirect ⟨hstrong, hfragile⟩ hisolate hredirect
        | false =>
          cases hthrottle : p.throttle.met s with
          | true => exact .throttle ⟨hstrong, hfragile⟩ hisolate hredirect hthrottle
          | false =>
            refine .noGate ⟨hstrong, hfragile⟩ fun hgates => ?_
            rw [Policy.GateMet, hisolate, hredirect, hthrottle] at hgates
            simp at hgates

/-- A control action is chosen just when one may be taken and a gate is met. -/
theorem choose_control : (choose p s).action.isControl = true ↔ s.Controllable p ∧ p.GateMet s := by
  have hchosen := choose_chosen p s
  generalize choose p s = choice at hchosen
  cases hchosen with
  | isolate hcontrol hisolate => exact iff_of_true rfl ⟨hcontrol, .inl hisolate⟩
  | redirect hcontrol _ hredirect => exact iff_of_true rfl ⟨hcontrol, .inr (.inl hredirect)⟩
  | throttle hcontrol _ _ hthrottle => exact iff_of_true rfl ⟨hcontrol, .inr (.inr hthrottle)⟩
  | noGate _ hgates => exact iff_of_false (by decide) fun h => hgates h.2
  | fragile _ hfragile => exact iff_of_false (by decide) fun h => by simp [h.1.2] at hfragile
  | degraded hstrong _ => exact iff_of_false (by decide) fun h => by simp [h.1.1] at hstrong
  | baseline hstrong _ => exact iff_of_false (by decide) fun h => by simp [h.1.1] at hstrong

end Choose

/-! ## 3. The client impact -/

section Impact

variable [PyFloat F] [PyConvert F] {choice choice' : Choice} {clientImpact : Option (PyJson F)}

/-- A client impact of which `decide` reads two integers. -/
def Readable (clientImpact : Option (PyJson F)) : Prop :=
  ∀ impact, clientImpact = some (.obj impact) → ∃ read, readImpact impact = .ok read

/-- The client impact speaks against any control action. -/
def TooHigh (clientImpact : Option (PyJson F)) : Prop :=
  ∃ impact score critical, clientImpact = some (.obj impact) ∧
    readImpact impact = .ok (score, critical) ∧ (70 ≤ score ∨ 0 < critical)

/-- What is done instead of a control action. -/
def heldBack : Choice := ⟨.notify, pyStr "client_impact_too_high_for_control", pyStr "none"⟩

/-- What the client impact leaves of a choice. -/
inductive Weighed (choice : Choice) (clientImpact : Option (PyJson F)) : Choice → Prop
  | other (hcontrol : choice.action.isControl = false) : Weighed choice clientImpact choice
  | spared (hcontrol : choice.action.isControl = true) (hlow : ¬ TooHigh clientImpact) :
      Weighed choice clientImpact choice
  | held (hcontrol : choice.action.isControl = true) (hhigh : TooHigh clientImpact) :
      Weighed choice clientImpact heldBack

/-- A choice that is no control action stays. -/
theorem weighImpact_other (h : choice.action.isControl = false) :
    weighImpact choice clientImpact = .ok choice := by
  unfold weighImpact
  rw [h, if_neg (by decide)]

/-- **A client impact holds a control action back, or leaves it.** -/
theorem weighImpact_weighed (h : weighImpact choice clientImpact = .ok choice') :
    Weighed choice clientImpact choice' := by
  cases hcontrol : choice.action.isControl with
  | false =>
    rw [weighImpact_other hcontrol] at h
    cases h
    exact .other hcontrol
  | true =>
    unfold weighImpact at h
    rw [if_pos hcontrol] at h
    split at h
    · rename_i impact
      obtain ⟨⟨score, critical⟩, hread, hif⟩ := bind_eq_ok h
      injection hif with hif
      split at hif
      · rename_i hhigh
        cases hif
        exact .held hcontrol ⟨impact, score, critical, rfl, hread, hhigh⟩
      · rename_i hlow
        cases hif
        refine .spared hcontrol ?_
        rintro ⟨impact', score', critical', himpact, hread', hhigh⟩
        cases himpact
        rw [hread] at hread'
        cases hread'
        exact hlow hhigh
    · rename_i hnot
      cases h
      exact .spared hcontrol fun ⟨impact, _, _, himpact, _⟩ => hnot impact himpact

/-- Weighing raises only on a control action and an impact that is not readable. -/
theorem weighImpact_returns :
    (∃ choice', weighImpact choice clientImpact = .ok choice') ↔
      (choice.action.isControl = true → Readable clientImpact) := by
  constructor
  · rintro ⟨choice', h⟩ hcontrol impact rfl
    unfold weighImpact at h
    rw [if_pos hcontrol] at h
    obtain ⟨read, hread, -⟩ := bind_eq_ok h
    exact ⟨read, hread⟩
  · intro h
    unfold weighImpact
    split
    · rename_i hcontrol
      split
      · rename_i impact
        obtain ⟨⟨score, critical⟩, hread⟩ := h hcontrol impact rfl
        exact ⟨_, ok_of_bind hread rfl⟩
      · exact ⟨choice, rfl⟩
    · exact ⟨choice, rfl⟩

end Impact

/-! ## 4. The decision -/

section Decision

variable [PyFloat F] [PyRepr F] [PyConvert F] {p : Policy} {noc soc : Row F}
  {clientImpact : Option (PyJson F)} {d : Decision F}

/-- `client_impact or {}` is a dict. -/
def IsDictOrFalsy (clientImpact : Option (PyJson F)) : Prop :=
  ∃ impact, orEmpty clientImpact = .ok impact

/-- A decision of these inputs: the choice that was left and the members of the client impact. -/
structure Decided (p : Policy) (noc soc : Row F) (clientImpact : Option (PyJson F)) (d : Decision F)
    (choice : Choice) (impact : Row F) : Prop where
  weighed : Weighed (choose p (readSignals noc soc)) clientImpact choice
  members : orEmpty clientImpact = .ok impact
  action : d.action = choice.action
  reason : d.reason = choice.reason
  rejected : d.rejectedAlternatives = rejectedAlternatives choice.action
    (readSignals noc soc).nocFragile ((readSignals noc soc).strongSoc p) (readSignals noc soc).blastScore
  traceAction : d.decisionTrace.selectedAction = choice.action
  traceFragile : d.decisionTrace.nocFragile = (readSignals noc soc).nocFragile
  traceStrong : d.decisionTrace.strongSoc = (readSignals noc soc).strongSoc p
  traceSuspicion : d.decisionTrace.suspicionScore = (readSignals noc soc).suspicionScore
  traceConfidence : d.decisionTrace.confidenceScore = (readSignals noc soc).confidenceScore
  traceBlast : d.decisionTrace.blastScore = (readSignals noc soc).blastScore
  traceImpact : d.decisionTrace.clientImpactScore = toIntOr 0 (getKey (pyStr "score") impact)
  traceCritical : d.decisionTrace.criticalClientCount =
    toIntOr 0 (getKey (pyStr "critical_client_count") impact)

/-- The dicts that a call which returned was given. -/
theorem accepted_of_decided {noc soc : PyJson F} (h : decideAction p noc soc clientImpact = .ok d) :
    ∃ nocMembers socMembers, noc = .obj nocMembers ∧ HasKeys nocMembers requiredNocKeys ∧
      soc = .obj socMembers ∧ HasKeys socMembers requiredSocKeys := by
  obtain ⟨nocMembers, hnoc, h⟩ := bind_eq_ok h
  obtain ⟨socMembers, hsoc, -⟩ := bind_eq_ok h
  obtain ⟨hnocDict, hnocKeys⟩ := validateSchema_eq_ok.mp hnoc
  obtain ⟨hsocDict, hsocKeys⟩ := validateSchema_eq_ok.mp hsoc
  exact ⟨nocMembers, socMembers, hnocDict, hnocKeys, hsocDict, hsocKeys⟩

/-- **What a decision comes to.** -/
theorem decided_of_ok (h : decideAction p (.obj noc) (.obj soc) clientImpact = .ok d) :
    ∃ choice impact, Decided p noc soc clientImpact d choice impact := by
  obtain ⟨nocMembers, hnoc, h⟩ := bind_eq_ok h
  obtain ⟨socMembers, hsoc, h⟩ := bind_eq_ok h
  obtain ⟨choice, hweigh, h⟩ := bind_eq_ok h
  obtain ⟨trace, htrace, hd⟩ := bind_eq_ok h
  obtain ⟨impact, himpact, ht⟩ := bind_eq_ok htrace
  cases (validateSchema_eq_ok.mp hnoc).1
  cases (validateSchema_eq_ok.mp hsoc).1
  cases ht
  cases hd
  exact ⟨choice, impact, weighImpact_weighed hweigh, himpact, rfl, rfl, rfl, rfl, rfl, rfl, rfl, rfl,
    rfl, rfl, rfl⟩

/-- **When `decide` returns.**  Beyond the schema it asks that the client impact is a dict or falsy,
and that it is readable where a control action is chosen. -/
theorem decide_returns (hnoc : HasKeys noc requiredNocKeys) (hsoc : HasKeys soc requiredSocKeys) :
    (∃ d, decideAction p (.obj noc) (.obj soc) clientImpact = .ok d) ↔
      IsDictOrFalsy clientImpact ∧
        ((choose p (readSignals noc soc)).action.isControl = true → Readable clientImpact) := by
  have hnocOk : validateSchema (.obj noc) requiredNocKeys (pyStr "noc") = .ok noc :=
    validateSchema_eq_ok.mpr ⟨rfl, hnoc⟩
  have hsocOk : validateSchema (.obj soc) requiredSocKeys (pyStr "soc") = .ok soc :=
    validateSchema_eq_ok.mpr ⟨rfl, hsoc⟩
  rw [← weighImpact_returns]
  constructor
  · rintro ⟨d, h⟩
    obtain ⟨nocMembers, hnoc', h⟩ := bind_eq_ok h
    obtain ⟨socMembers, hsoc', h⟩ := bind_eq_ok h
    cases hnocOk.symm.trans hnoc'
    cases hsocOk.symm.trans hsoc'
    obtain ⟨choice, hweigh, h⟩ := bind_eq_ok h
    obtain ⟨trace, htrace, -⟩ := bind_eq_ok h
    obtain ⟨impact, himpact, -⟩ := bind_eq_ok htrace
    exact ⟨⟨impact, himpact⟩, choice, hweigh⟩
  · rintro ⟨⟨impact, himpact⟩, choice, hweigh⟩
    exact ⟨_, ok_of_bind hnocOk (ok_of_bind hsocOk (ok_of_bind hweigh
      (ok_of_bind (ok_of_bind himpact rfl) rfl)))⟩

end Decision

/-! ## 5. Sample inputs -/

/-- A network whose three labels are this value. -/
def labelledNoc (label : PyJson Whole) : Row Whole :=
  [(pyStr "availability", .obj [(pyStr "label", label)]),
    (pyStr "path_health", .obj [(pyStr "label", label)]),
    (pyStr "device_health", .obj [(pyStr "label", label)]),
    (pyStr "client_health", .obj []), (pyStr "summary", .null), (pyStr "evidence_ids", .arr [])]

/-- A critical SOC evaluation at these scores. -/
def criticalSoc (suspicion confidence blast : ℤ) : Row Whole :=
  [(pyStr "suspicion", .obj [(pyStr "score", .int suspicion), (pyStr "label", .str (pyStr "critical"))]),
    (pyStr "confidence", .obj [(pyStr "score", .int confidence)]),
    (pyStr "technique_likelihood", .obj []),
    (pyStr "blast_radius", .obj [(pyStr "score", .int blast)]), (pyStr "summary", .null),
    (pyStr "evidence_ids", .arr [])]

/-- The policy of an arbiter that is given none, without its hash. -/
def plainPolicy : Policy :=
  ⟨pyStr "soc-policy-v1", [], ⟨95, 90, 80⟩, ⟨90, 80, 70⟩, ⟨60, 40⟩, 60, []⟩

end AzazelEdge.Arbiter
