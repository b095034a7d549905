/-
# The gate before a control action, and its monotonicity

A control action needs a strong SOC evaluation, three NOC labels that are there and not fragile, and
a client impact below the bound.  Beyond the gate, raising a score never weakens the action, and a
network or a client impact that gets worse never turns another action into a control action
(`gate_and_monotone`).

The thresholds of the policy are arbitrary: nothing orders them between the levels.  That the
cascade is monotone all the same is because each level, with all above it, is reached by a
condition that only grows with the scores (`choose_raised`).
-/
import AzazelEdge.Arbiter.Decided

namespace AzazelEdge.Arbiter

open AzazelEdge.Lib AzazelEdge.Lib.Py AzazelEdge.Audit

/-! ## 1. The order of the actions -/

/-- observe < notify < throttle < redirect < isolate. -/
def Action.rank : Action → ℕ
  | .observe => 0
  | .notify => 1
  | .throttle => 2
  | .redirect => 3
  | .isolate => 4

theorem Action.isControl_iff {a : Action} : a.isControl = true ↔ 2 ≤ a.rank := by
  cases a <;> decide

/-! ## 2. Signals that are raised -/

/-- The labels stay, no score falls. -/
structure Signals.Raised (s s' : Signals) : Prop where
  fragile : s'.nocFragile = s.nocFragile
  label : s'.suspicionLabel = s.suspicionLabel
  suspicion : s.suspicionScore ≤ s'.suspicionScore
  confidence : s.confidenceScore ≤ s'.confidenceScore
  blast : s.blastScore ≤ s'.blastScore

section Raised

variable {p : Policy} {s s' : Signals}

theorem Signals.Raised.strongSoc (h : s.Raised s') (hstrong : s.strongSoc p = true) :
    s'.strongSoc p = true := by
  simp only [Signals.strongSoc, Bool.and_eq_true, decide_eq_true_eq, h.label] at hstrong ⊢
  exact ⟨hstrong.1, hstrong.2.trans h.confidence⟩

theorem Signals.Raised.controllable (h : s.Raised s') (hcontrol : s.Controllable p) :
    s'.Controllable p :=
  ⟨h.strongSoc hcontrol.1, h.fragile.trans hcontrol.2⟩

theorem Signals.Raised.gate {g : Gate} (h : s.Raised s') (hmet : g.met s = true) :
    g.met s' = true := by
  simp only [Gate.met, Bool.and_eq_true, decide_eq_true_eq] at hmet ⊢
  exact ⟨⟨hmet.1.1.trans h.suspicion, hmet.1.2.trans h.confidence⟩, hmet.2.trans h.blast⟩

theorem Signals.Raised.throttle {g : ThrottleGate} (h : s.Raised s') (hmet : g.met s = true) :
    g.met s' = true := by
  simp only [ThrottleGate.met, Bool.and_eq_true, decide_eq_true_eq] at hmet ⊢
  exact ⟨hmet.1.trans h.confidence, hmet.2.trans h.blast⟩

/-- A gate that is met leads to its action or a stronger one. -/
theorem rank_of_gate (hcontrol : s.Controllable p) :
    (p.isolate.met s = true → 4 ≤ (choose p s).action.rank) ∧
    (p.redirect.met s = true → 3 ≤ (choose p s).action.rank) ∧
    (p.throttle.met s = true → 2 ≤ (choose p s).action.rank) := by
  have hchosen := choose_chosen p s
  generalize choose p s = choice at hchosen
  cases hchosen with
  | isolate => exact ⟨fun _ => by decide, fun _ => by decide, fun _ => by decide⟩
  | redirect _ hisolate =>
    exact ⟨fun h => by simp [h] at hisolate, fun _ => by decide, fun _ => by decide⟩
  | throttle _ hisolate hredirect =>
    exact ⟨fun h => by simp [h] at hisolate, fun h => by simp [h] at hredirect, fun _ => by decide⟩
  | noGate _ hgates =>
    exact ⟨fun h => absurd (.inl h) hgates, fun h => absurd (.inr (.inl h)) hgates,
      fun h => absurd (.inr (.inr h)) hgates⟩
  | fragile _ hfragile => simp [hcontrol.2] at hfragile
  | degraded hstrong _ => simp [hcontrol.1] at hstrong
  | baseline hstrong _ => simp [hcontrol.1] at hstrong

/-- A strong SOC or a fragile NOC is notified of at least. -/
theorem one_le_rank (h : s.strongSoc p = true ∨ s.nocFragile = true) :
    1 ≤ (choose p s).action.rank := by
  have hchosen := choose_chosen p s
  generalize choose p s = choice at hchosen
  cases hchosen with
  | baseline hstrong hfragile => simp [hstrong, hfragile] at h
  | _ => decide

/-- **Raised signals never choose a weaker action.** -/
theorem choose_raised (h : s.Raised s') :
    (choose p s).action.rank ≤ (choose p s').action.rank := by
  have hchosen := choose_chosen p s
  generalize choose p s = choice at hchosen
  cases hchosen with
  | isolate hcontrol hisolate => exact (rank_of_gate (h.controllable hcontrol)).1 (h.gate hisolate)
  | redirect hcontrol _ hredirect =>
    exact (rank_of_gate (h.controllable hcontrol)).2.1 (h.gate hredirect)
  | throttle hcontrol _ _ hthrottle =>
    exact (rank_of_gate (h.controllable hcontrol)).2.2 (h.throttle hthrottle)
  | noGate hcontrol _ => exact one_le_rank (.inl (h.strongSoc hcontrol.1))
  | fragile hstrong _ => exact one_le_rank (.inl (h.strongSoc hstrong))
  | degraded _ hfragile => exact one_le_rank (.inr (h.fragile.trans hfragile))
  | baseline => exact Nat.zero_le _

end Raised

/-! ## 3. Well-formed inputs -/

/-- The score of a section is this integer. -/
def HasScore {F : Type} (source : Row F) (key : String) (n : ℤ) : Prop :=
  getKey (pyStr "score") (dictSection source (pyStr key)) = some (.int n)

/-- The NOC sections whose labels `decide` looks at. -/
def nocSections : List String := ["availability", "path_health", "device_health"]

/-- Inputs of `decide`: every required key, integer scores, and a client impact of integers. -/
structure Input (F : Type) where
  noc : Row F
  soc : Row F
  impact : Row F
  suspicion : ℤ
  confidence : ℤ
  blast : ℤ
  impactScore : ℤ
  criticalClients : ℤ
  noc_keys : HasKeys noc requiredNocKeys
  soc_keys : HasKeys soc requiredSocKeys
  suspicion_score : HasScore soc "suspicion" suspicion
  confidence_score : HasScore soc "confidence" confidence
  blast_score : HasScore soc "blast_radius" blast
  impact_score : getKey (pyStr "score") impact = some (.int impactScore)
  critical_count : getKey (pyStr "critical_client_count") impact = some (.int criticalClients)

variable {F : Type} [PyFloat F] [PyRepr F] [PyConvert F] {p : Policy} {i j : Input F}

namespace Input

def decide (i : Input F) (p : Policy) : Except Error (Decision F) :=
  decideAction p (.obj i.noc) (.obj i.soc) (some (.obj i.impact))

def signals (i : Input F) : Signals := readSignals i.noc i.soc

/-- What the gate asks for. -/
structure Gate (i : Input F) (p : Policy) : Prop where
  suspicion : ∃ label, getKey (pyStr "label") (dictSection i.soc (pyStr "suspicion")) = some label ∧
    strOf label ∈ [pyStr "high", pyStr "critical"]
  confidence : p.strongSocConfidenceMin ≤ i.confidence
  noc : ∀ key ∈ nocSections, ∃ label,
    getKey (pyStr "label") (dictSection i.noc (pyStr key)) = some label ∧ truthy label = true ∧
      strOf label ∉ fragileLabels
  impact : i.impactScore < 70 ∧ i.criticalClients ≤ 0

/-- A score is raised, or several are; the labels and the client impact stay. -/
structure Raised (i j : Input F) : Prop where
  noc : ∀ key ∈ nocSections, healthLabel j.noc (pyStr key) = healthLabel i.noc (pyStr key)
  label : getKey (pyStr "label") (dictSection j.soc (pyStr "suspicion")) =
    getKey (pyStr "label") (dictSection i.soc (pyStr "suspicion"))
  suspicion : i.suspicion ≤ j.suspicion
  confidence : i.confidence ≤ j.confidence
  blast : i.blast ≤ j.blast
  impact : j.impact = i.impact

/-- NOC labels are made fragile, or the client impact is raised; the SOC evaluation stays. -/
structure Worsened (i j : Input F) : Prop where
  noc : ∀ key ∈ nocSections, healthLabel j.noc (pyStr key) = healthLabel i.noc (pyStr key) ∨
    healthLabel j.noc (pyStr key) ∈ fragileLabels
  soc : j.soc = i.soc
  impactScore : i.impactScore ≤ j.impactScore
  criticalClients : i.criticalClients ≤ j.criticalClients

end Input

omit [PyFloat F] [PyRepr F] in
theorem toIntOr_score {source : Row F} {key : String} {n : ℤ} (h : HasScore source key n) :
    toIntOr 0 (getKey (pyStr "score") (dictSection source (pyStr key))) = n := by
  rw [h]
  rfl

theorem Input.signals_scores (i : Input F) : i.signals.suspicionScore = i.suspicion ∧
    i.signals.confidenceScore = i.confidence ∧ i.signals.blastScore = i.blast :=
  ⟨toIntOr_score i.suspicion_score, toIntOr_score i.confidence_score, toIntOr_score i.blast_score⟩

omit [PyRepr F] in
theorem Input.readImpact_eq (i : Input F) :
    readImpact i.impact = .ok (i.impactScore, i.criticalClients) := by
  rw [readImpact, i.impact_score, i.critical_count]
  simp only [intOr0_int]

omit [PyRepr F] in
theorem Input.tooHigh_iff (i : Input F) :
    TooHigh (some (.obj i.impact)) ↔ 70 ≤ i.impactScore ∨ 0 < i.criticalClients := by
  constructor
  · rintro ⟨impact, score, critical, himpact, hread, hhigh⟩
    cases himpact
    rw [i.readImpact_eq] at hread
    cases hread
    exact hhigh
  · intro hhigh
    exact ⟨_, _, _, rfl, i.readImpact_eq, hhigh⟩

theorem Input.decide_some (i : Input F) : ∃ d, i.decide p = .ok d := by
  refine (decide_returns i.noc_keys i.soc_keys).mpr ⟨⟨i.impact, rfl⟩, fun _ impact himpact => ?_⟩
  cases himpact
  exact ⟨_, i.readImpact_eq⟩

omit [PyConvert F] in
/-- A label that is not fragile is there. -/
theorem label_of_sound {source : Row F} {key : PyStr} (h : healthLabel source key ∉ fragileLabels) :
    ∃ label, getKey (pyStr "label") (dictSection source key) = some label ∧ truthy label = true ∧
      strOf label ∉ fragileLabels := by
  have hunknown : pyStr "unknown" ∈ fragileLabels := by decide +kernel
  unfold healthLabel strOrDefault at h
  split at h
  · rename_i label hlabel
    split at h
    · rename_i htruthy
      exact ⟨label, hlabel, htruthy, h⟩
    · exact absurd hunknown h
  · exact absurd hunknown h

theorem nocFragile_eq_false {noc soc : Row F} :
    (readSignals noc soc).nocFragile = false ↔
      ∀ key ∈ nocSections, healthLabel noc (pyStr key) ∉ fragileLabels := by
  simp only [Signals.nocFragile, Bool.or_eq_false_iff, decide_eq_false_iff_not, nocSections,
    List.forall_mem_cons, List.not_mem_nil, false_implies, implies_true, and_true, and_assoc]
  exact Iff.rfl

/-- Signals with the same three labels are fragile together. -/
theorem nocFragile_congr {noc soc noc' soc' : Row F}
    (h : ∀ key ∈ nocSections, healthLabel noc' (pyStr key) = healthLabel noc (pyStr key)) :
    (readSignals noc' soc').nocFragile = (readSignals noc soc).nocFragile := by
  rw [Bool.eq_iff_iff, ← not_iff_not, Bool.not_eq_true, Bool.not_eq_true, nocFragile_eq_false,
    nocFragile_eq_false]
  exact forall₂_congr fun key hkey => by rw [h key hkey]

omit [PyConvert F] in
/-- A suspicion label that is high or critical is there. -/
theorem label_of_suspicion {section' : Row F}
    (h : strOrDefault (pyStr "low") (getKey (pyStr "label") section') ∈
      [pyStr "high", pyStr "critical"]) :
    ∃ label, getKey (pyStr "label") section' = some label ∧
      strOf label ∈ [pyStr "high", pyStr "critical"] := by
  have hlow : pyStr "low" ∉ [pyStr "high", pyStr "critical"] := by simp
  unfold strOrDefault at h
  split at h
  · rename_i label hlabel
    split at h
    · exact ⟨label, hlabel, h⟩
    · exact absurd h hlow
  · exact absurd h hlow

/-! ## 4. The gate and the two monotonicities -/

/-- A control action has passed the gate. -/
theorem Input.gate_of_control {d : Decision F} (hd : i.decide p = .ok d)
    (hcontrol : d.action.isControl = true) : i.Gate p := by
  obtain ⟨choice, impact, h⟩ := decided_of_ok hd
  rw [h.action] at hcontrol
  have hweighed := h.weighed
  obtain ⟨hchoice, hlow⟩ : (choose p i.signals).action.isControl = true ∧
      ¬ TooHigh (some (.obj i.impact)) := by
    cases hweighed with
    | other hno => simp [hno] at hcontrol
    | spared hyes hlow => exact ⟨hyes, hlow⟩
    | held => cases hcontrol
  obtain ⟨⟨hstrong, hsound⟩, -⟩ := (choose_control p i.signals).mp hchoice
  simp only [Signals.strongSoc, Bool.and_eq_true, decide_eq_true_eq] at hstrong
  rw [i.tooHigh_iff] at hlow
  exact {
    suspicion := label_of_suspicion hstrong.1
    confidence := i.signals_scores.2.1 ▸ hstrong.2
    noc := fun key hkey => label_of_sound (nocFragile_eq_false.mp hsound key hkey)
    impact := by omega }

theorem Input.Raised.signals (h : i.Raised j) : i.signals.Raised j.signals := by
  obtain ⟨hi₁, hi₂, hi₃⟩ := i.signals_scores
  obtain ⟨hj₁, hj₂, hj₃⟩ := j.signals_scores
  refine ⟨nocFragile_congr h.noc, congrArg (strOrDefault (pyStr "low")) h.label, ?_, ?_, ?_⟩
  · rw [hi₁, hj₁]
    exact h.suspicion
  · rw [hi₂, hj₂]
    exact h.confidence
  · rw [hi₃, hj₃]
    exact h.blast

/-- **Raised scores never weaken the action.** -/
theorem Input.Raised.rank (h : i.Raised j) {d e : Decision F} (hd : i.decide p = .ok d)
    (he : j.decide p = .ok e) : d.action.rank ≤ e.action.rank := by
  obtain ⟨_, _, hi⟩ := decided_of_ok hd
  obtain ⟨_, _, hj⟩ := decided_of_ok he
  have hrank : (choose p i.signals).action.rank ≤ (choose p j.signals).action.rank :=
    choose_raised h.signals
  rw [hi.action, hj.action]
  have hwi := hi.weighed
  have hwj := hj.weighed
  rw [h.impact] at hwj
  cases hwi with
  | other hno =>
    cases hwj with
    | other => exact hrank
    | spared => exact hrank
    | held =>
      -- What was no control action is not above notify.
      have hlow := Action.isControl_iff.not.mp (Bool.eq_false_iff.mp hno)
      exact Nat.lt_succ_iff.mp (Nat.not_le.mp hlow)
  | spared _ hlow =>
    cases hwj with
    | other => exact hrank
    | spared => exact hrank
    | held _ hhigh => exact absurd hhigh hlow
  | held hyes hhigh =>
    have htwo := Action.isControl_iff.mp hyes
    cases hwj with
    | other => exact le_trans (by decide) (htwo.trans hrank)
    | spared _ hlow => exact absurd hhigh hlow
    | held => exact le_refl _

/-- **A network or an impact that gets worse brings about no control action.** -/
theorem Input.Worsened.noControl (h : i.Worsened j) {d e : Decision F} (hd : i.decide p = .ok d)
    (he : j.decide p = .ok e) (hno : d.action.isControl = false) : e.action.isControl = false := by
  obtain ⟨_, _, hi⟩ := decided_of_ok hd
  obtain ⟨_, _, hj⟩ := decided_of_ok he
  rw [hi.action] at hno
  rw [hj.action]
  have hhigher : TooHigh (some (.obj i.impact)) → TooHigh (some (.obj j.impact)) := by
    rw [i.tooHigh_iff, j.tooHigh_iff]
    rintro (hscore | hcritical)
    · exact .inl (hscore.trans h.impactScore)
    · exact .inr (hcritical.trans_le h.criticalClients)
  have hchoice : (choose p j.signals).action.isControl = true →
      (choose p i.signals).action.isControl = true := by
    rw [choose_control, choose_control]
    rintro ⟨⟨hstrong, hsound⟩, hgates⟩
    rw [Input.signals, h.soc] at hstrong hgates
    have hsound' : i.signals.nocFragile = false := nocFragile_eq_false.mpr fun key hkey => by
      have hj := nocFragile_eq_false.mp hsound key hkey
      exact (h.noc key hkey).resolve_right hj ▸ hj
    exact ⟨⟨hstrong, hsound'⟩, hgates⟩
  have hwi := hi.weighed
  have hwj := hj.weighed
  cases hwj with
  | other hno' => exact hno'
  | held => rfl
  | spared hyes hlow =>
    cases hwi with
    | other hno' => exact absurd ((hchoice hyes).symm.trans hno') (by decide)
    | spared hyes' _ => exact absurd (hyes'.symm.trans hno) (by decide)
    | held _ hhigh => exact absurd (hhigher hhigh) hlow

/-- **The gate and its monotonicity.**  Under every policy a decision is made; a control action has
passed the gate; raising scores never weakens the action; and making a NOC label fragile or raising
the client impact never turns another action into a control action. -/
theorem gate_and_monotone (p : Policy) :
    (∀ i : Input F, ∃ d, i.decide p = .ok d ∧ (d.action.isControl = true → i.Gate p)) ∧
    (∀ i j : Input F, i.Raised j → ∀ d e, i.decide p = .ok d → j.decide p = .ok e →
      d.action.rank ≤ e.action.rank) ∧
    (∀ i j : Input F, i.Worsened j → ∀ d e, i.decide p = .ok d → j.decide p = .ok e →
      d.action.isControl = false → e.action.isControl = false) := by
  refine ⟨fun i => ?_, fun i j h d e hd he => h.rank hd he, fun i j h d e hd he => h.noControl hd he⟩
  obtain ⟨d, hd⟩ := i.decide_some
  exact ⟨d, hd, Input.gate_of_control hd⟩

/-- A good network, a critical SOC evaluation and a low client impact. -/
def sampleInput (confidence : ℤ) : Input Whole where
  noc := labelledNoc (.str (pyStr "good"))
  soc := criticalSoc 85 confidence 70
  impact := [(pyStr "score", .int 25), (pyStr "critical_client_count", .int 0)]
  suspicion := 85
  confidence := confidence
  blast := 70
  impactScore := 25
  criticalClients := 0
  noc_keys := by decide +kernel
  soc_keys := by
    intro key hkey
    simp only [requiredSocKeys, List.map_cons, List.map_nil, List.mem_cons, List.not_mem_nil,
      or_false] at hkey
    rcases hkey with rfl | rfl | rfl | rfl | rfl | rfl <;> rfl
  suspicion_score := rfl
  confidence_score := rfl
  blast_score := rfl
  impact_score := rfl
  critical_count := rfl

theorem sampleInput_raised : (sampleInput 10).Raised (sampleInput 85) :=
  ⟨fun _ _ => rfl, rfl, le_refl _, by decide, le_refl _, rfl⟩

/-- At a confidence of 85 this input is throttled, and at 10 only observed. -/
theorem gate_and_monotone_sample :
    (∃ d, (sampleInput 85).decide plainPolicy = .ok d ∧ d.action = .throttle ∧
      (sampleInput 85).Gate plainPolicy) ∧
    ∃ d e, (sampleInput 10).decide plainPolicy = .ok d ∧
      (sampleInput 85).decide plainPolicy = .ok e ∧ d.action.rank ≤ e.action.rank := by
  obtain ⟨hgate, hraised, -⟩ := gate_and_monotone (F := Whole) plainPolicy
  obtain ⟨d, hd, -⟩ := hgate (sampleInput 10)
  obtain ⟨e, he, hpassed⟩ := hgate (sampleInput 85)
  have haction : (((sampleInput 85).decide plainPolicy).toOption.map Decision.action) =
      some .throttle := by
    decide +kernel
  rw [he] at haction
  have hthrottle : e.action = .throttle := Option.some.inj haction
  exact ⟨⟨e, he, hthrottle, hpassed (by rw [hthrottle]; rfl)⟩,
    d, e, hd, he, hraised _ _ sampleInput_raised d e hd he⟩

end AzazelEdge.Arbiter
