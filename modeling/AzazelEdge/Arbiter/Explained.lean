/-
# What the arbiter says of its decision

A decision comes with the reason of its action and with the alternatives it did not take.  Each text
says something of the decision's trace under the policy: `reasonClaims` and `rejectedClaims` spell
that out.  A decision is explained when what it says is so and every other action is named once.

It is not always.  A strong SOC evaluation that meets no gate is answered with "noc fragile" on a
network that is not; `throttle` drops out of the alternatives from a blast score of 40 on, whatever
the policy's own minimum; and a gate that was met is called not satisfied when a stronger action, or
the client impact, went before it.  `explained_iff` says of which inputs the explanation is true
and complete.
-/
import AzazelEdge.Arbiter.Decided

namespace AzazelEdge.Arbiter

open AzazelEdge.Lib AzazelEdge.Lib.Py AzazelEdge.Audit

/-! ## 1. What a text claims -/

/-- The text is in the table, and what the table says of it is so. -/
def Claimed (table : List (String × Prop)) (text : PyStr) : Prop :=
  ∃ claim ∈ table, pyStr claim.1 = text ∧ claim.2

/-- A text of the table claims what the table says. -/
theorem claimed_at {table : List (String × Prop)} {name : String} {claim : Prop}
    (hnodup : (table.map Prod.fst).Nodup) (i : ℕ) (hi : table[i]? = some (name, claim)) :
    Claimed table (pyStr name) ↔ claim := by
  have hmem := List.mem_of_getElem? hi
  constructor
  · rintro ⟨other, hother, htext, hclaim⟩
    have hname : other.1 = name := pyStr_inj htext
    have heq : other = (name, claim) := List.inj_on_of_nodup_map hnodup hother hmem hname
    rw [heq] at hclaim
    exact hclaim
  · intro hclaim
    exact ⟨_, hmem, rfl, hclaim⟩

section Claims

variable (p : Policy) (t : DecisionTrace)

/-- The trace asks for a control action: a strong SOC evaluation, and no fragile NOC. -/
def DecisionTrace.Controllable : Prop := t.strongSoc = true ∧ t.nocFragile = false

def DecisionTrace.Meets (g : Gate) : Prop :=
  g.suspicionMin ≤ t.suspicionScore ∧ g.confidenceMin ≤ t.confidenceScore ∧
    g.blastMin ≤ t.blastScore

def DecisionTrace.MeetsThrottle (g : ThrottleGate) : Prop :=
  g.confidenceMin ≤ t.confidenceScore ∧ g.blastMin ≤ t.blastScore

/-- A control action would have been chosen but for the client impact. -/
def DecisionTrace.ControlOtherwise : Prop :=
  t.Controllable ∧ (t.Meets p.isolate ∨ t.Meets p.redirect ∨ t.MeetsThrottle p.throttle)

/-- What the reason of the chosen action says of the trace. -/
def reasonClaims : List (String × Prop) :=
  [("soc_extreme_and_target_is_narrow_enough", t.Controllable ∧ t.Meets p.isolate),
    ("soc_high_confidence_redirect_is_preferred", t.Controllable ∧ t.Meets p.redirect),
    ("soc_high_and_reversible_control_is_safe", t.Controllable ∧ t.MeetsThrottle p.throttle),
    ("soc_high_but_noc_fragile", t.strongSoc = true ∧ t.nocFragile = true),
    ("noc_degraded_requires_operator_attention", t.strongSoc = false ∧ t.nocFragile = true),
    ("baseline", t.strongSoc = false ∧ t.nocFragile = false),
    ("client_impact_too_high_for_control",
      t.ControlOtherwise p ∧ (70 ≤ t.clientImpactScore ∨ 0 < t.criticalClientCount))]

/-- What the reason of a rejected alternative says of the trace. -/
def rejectedClaims : List (String × Prop) :=
  [("insufficient_response_for_detected_threat", t.strongSoc = true),
    ("deferred_to_higher_visibility_action", t.selectedAction ≠ .observe),
    ("control_path_was_not_safe_due_to_availability_risk", t.nocFragile = true),
    ("operator_notification_not_primary_choice", t.selectedAction ≠ .notify),
    ("threat_signal_not_strong_enough", t.strongSoc = false),
    ("availability_risk_too_high", t.nocFragile = true),
    ("blast_radius_too_small_for_control", t.blastScore < p.throttle.blastMin),
    ("redirect_gate_not_satisfied", ¬ t.Meets p.redirect),
    ("isolate_gate_not_satisfied", ¬ t.Meets p.isolate)]

theorem reasonClaims_nodup : ((reasonClaims p t).map Prod.fst).Nodup := by
  simp only [reasonClaims, List.map_cons, List.map_nil]
  decide

theorem rejectedClaims_nodup : ((rejectedClaims p t).map Prod.fst).Nodup := by
  simp only [rejectedClaims, List.map_cons, List.map_nil]
  decide

/-- The actions but this one. -/
def otherActions (action : Action) : List Action :=
  [Action.observe, .notify, .throttle, .redirect, .isolate].filter fun other => other ≠ action

end Claims

/-- **The explanation of a decision is true and complete**: its reason and the reasons of its
alternatives hold of its trace, and the alternatives are the other four actions, once each. -/
structure Explained {F : Type} (p : Policy) (d : Decision F) : Prop where
  reason : Claimed (reasonClaims p d.decisionTrace) d.reason
  complete : (d.rejectedAlternatives.map Rejected.action).Perm (otherActions d.action)
  rejected : ∀ r ∈ d.rejectedAlternatives, Claimed (rejectedClaims p d.decisionTrace) r.reason

/-! ## 2. The alternatives -/

section Alternatives

variable {p : Policy} {t : DecisionTrace} {action : Action}

/-- The alternatives part of an explanation. -/
def AlternativesHold (p : Policy) (t : DecisionTrace) (action : Action) (rejected : List Rejected) :
    Prop :=
  (rejected.map Rejected.action).Perm (otherActions action) ∧
    ∀ r ∈ rejected, Claimed (rejectedClaims p t) r.reason

/-- On a network that may be controlled, an alternative is missing just when `throttle` was passed
over with a blast score of 40 or more. -/
theorem alternatives_complete (hne : action ≠ .observe) (blastScore : ℤ) :
    ((rejectedAlternatives action false true blastScore).map Rejected.action).Perm
        (otherActions action) ↔ action = .throttle ∨ blastScore < 40 := by
  unfold rejectedAlternatives
  by_cases hsmall : blastScore < 40
  · refine iff_of_true ?_ (.inr hsmall)
    rw [if_pos hsmall]
    cases action with
    | observe => exact absurd rfl hne
    | notify | throttle | redirect | isolate => decide
  · rw [if_neg hsmall]
    cases action with
    | observe => exact absurd rfl hne
    | throttle => exact iff_of_true (by decide) (.inl rfl)
    | notify | redirect | isolate =>
      refine iff_of_false (by decide) ?_
      rintro (h | h)
      · exact absurd h (by decide)
      · exact hsmall h

/-- **The alternatives of a network that may be controlled.**  Beside the chosen action, `throttle`
needs a small blast score by the code's bound and by the policy's, and the stronger gates must not
be met. -/
theorem alternatives_controllable (haction : t.selectedAction = action) (hne : action ≠ .observe)
    (hstrong : t.strongSoc = true) :
    AlternativesHold p t action (rejectedAlternatives action false true t.blastScore) ↔
      (action = .throttle ∨ (t.blastScore < 40 ∧ t.blastScore < p.throttle.blastMin)) ∧
        (action = .redirect ∨ ¬ t.Meets p.redirect) ∧ (action = .isolate ∨ ¬ t.Meets p.isolate) := by
  have hnodup := rejectedClaims_nodup p t
  have hobserve := claimed_at hnodup 0 rfl
  have hnotify := claimed_at hnodup 3 rfl
  have hthrottle := claimed_at hnodup 6 rfl
  have hredirect := claimed_at hnodup 7 rfl
  have hisolate := claimed_at hnodup 8 rfl
  rw [AlternativesHold, alternatives_complete hne, rejectedAlternatives]
  by_cases hsmall : t.blastScore < 40
  all_goals
    cases action with
    | observe => exact absurd rfl hne
    | notify | throttle | redirect | isolate =>
      simp [hsmall, hobserve, hnotify, hthrottle, hredirect, hisolate, hstrong, haction]

/-- **Where no control action may be taken, the alternatives hold.**  The chosen action is `notify`
for a strong SOC or a fragile NOC, `observe` without either. -/
theorem alternatives_uncontrollable (haction : t.selectedAction = action)
    (hchosen : action = if t.strongSoc || t.nocFragile then .notify else .observe)
    (hcontrol : ¬ t.Controllable) :
    AlternativesHold p t action
      (rejectedAlternatives action t.nocFragile t.strongSoc t.blastScore) := by
  have hnodup := rejectedClaims_nodup p t
  have hinsufficient := claimed_at hnodup 0 rfl
  have hdeferred := claimed_at hnodup 1 rfl
  have hnotify := claimed_at hnodup 3 rfl
  have hweak := claimed_at hnodup 4 rfl
  have hrisk := claimed_at hnodup 5 rfl
  unfold AlternativesHold rejectedAlternatives
  cases hstrong : t.strongSoc with
  | true =>
    have hfragile : t.nocFragile = true := by
      by_contra h
      exact hcontrol ⟨hstrong, by simpa using h⟩
    rw [hstrong, Bool.true_or, if_pos rfl] at hchosen
    subst hchosen
    rw [hfragile]
    refine ⟨List.Perm.refl _, ?_⟩
    simp [hinsufficient, hrisk, hstrong, hfragile]
  | false =>
    cases hfragile : t.nocFragile with
    | true =>
      rw [hfragile, Bool.or_true, if_pos rfl] at hchosen
      subst hchosen
      refine ⟨List.Perm.refl _, ?_⟩
      simp [hdeferred, hweak, hstrong, haction]
    | false =>
      rw [hstrong, hfragile, Bool.or_self, if_neg (by decide)] at hchosen
      subst hchosen
      refine ⟨List.Perm.refl _, ?_⟩
      simp [hnotify, hweak, hstrong, haction]

end Alternatives

/-! ## 3. The trace says what the signals said -/

section Trace

variable {F : Type} [PyFloat F] [PyRepr F] [PyConvert F] {p : Policy} {noc soc : Row F}
  {clientImpact : Option (PyJson F)} {d : Decision F} {choice : Choice} {impact : Row F}

theorem Decided.controllable (h : Decided p noc soc clientImpact d choice impact) :
    d.decisionTrace.Controllable ↔ (readSignals noc soc).Controllable p := by
  rw [DecisionTrace.Controllable, Signals.Controllable, h.traceStrong, h.traceFragile]

theorem Decided.meets (h : Decided p noc soc clientImpact d choice impact) (g : Gate) :
    d.decisionTrace.Meets g ↔ g.met (readSignals noc soc) = true := by
  rw [DecisionTrace.Meets, Gate.met, h.traceSuspicion, h.traceConfidence, h.traceBlast]
  simp only [Bool.and_eq_true, decide_eq_true_eq, and_assoc]

theorem Decided.meetsThrottle (h : Decided p noc soc clientImpact d choice impact)
    (g : ThrottleGate) :
    d.decisionTrace.MeetsThrottle g ↔ g.met (readSignals noc soc) = true := by
  rw [DecisionTrace.MeetsThrottle, ThrottleGate.met, h.traceConfidence, h.traceBlast]
  simp only [Bool.and_eq_true, decide_eq_true_eq]

theorem Decided.controlOtherwise (h : Decided p noc soc clientImpact d choice impact) :
    d.decisionTrace.ControlOtherwise p ↔
      (readSignals noc soc).Controllable p ∧ p.GateMet (readSignals noc soc) := by
  rw [DecisionTrace.ControlOtherwise, h.controllable, h.meets, h.meets, h.meetsThrottle]
  rfl

omit [PyRepr F] in
/-- An integer that is not zero is read alike by `int(value or 0)` and by `_to_int`. -/
theorem toIntOr_of_intOr0 {value : Option (PyJson F)} {n : ℤ} (h : intOr0 value = some n)
    (hn : n ≠ 0) : toIntOr 0 value = n := by
  cases value with
  | none => exact absurd (Option.some.inj h).symm hn
  | some value =>
    unfold intOr0 at h
    simp only at h
    split at h
    · rw [toIntOr, Option.bind_some, h]
      rfl
    · exact absurd (Option.some.inj h).symm hn

/-- A client impact that is too high is so in the trace as well. -/
theorem Decided.tooHigh (h : Decided p noc soc clientImpact d choice impact)
    (hhigh : TooHigh clientImpact) :
    70 ≤ d.decisionTrace.clientImpactScore ∨ 0 < d.decisionTrace.criticalClientCount := by
  obtain ⟨impact', score, critical, rfl, hread, hhigh⟩ := hhigh
  have hmembers : impact' = impact := Except.ok.inj h.members
  rw [hmembers] at hread
  rw [h.traceImpact, h.traceCritical]
  unfold readImpact at hread
  split at hread
  · rename_i score' critical' hscore hcritical
    cases hread
    rcases hhigh with hhigh | hhigh
    · rw [toIntOr_of_intOr0 hscore (by omega)]
      exact .inl hhigh
    · rw [toIntOr_of_intOr0 hcritical (by omega)]
      exact .inr hhigh
  · cases hread

end Trace

/-! ## 4. When it is explained -/

/-- The inputs whose decision is explained: no control action is at issue; or only the throttle gate
is met, and the impact is low; or just one of the two stronger gates is met, the impact is low, and
the blast score is below the throttle gate's minimum as well as below 40. -/
def WellExplained {F : Type} [PyFloat F] [PyConvert F] (p : Policy) (s : Signals)
    (clientImpact : Option (PyJson F)) : Prop :=
  ¬ s.Controllable p ∨
    (¬ TooHigh clientImpact ∧
      ((p.isolate.met s = false ∧ p.redirect.met s = false ∧ p.throttle.met s = true) ∨
        (p.isolate.met s ≠ p.redirect.met s ∧ s.blastScore < 40 ∧
          s.blastScore < p.throttle.blastMin)))

section Explained

variable {F : Type} [PyFloat F] [PyRepr F] [PyConvert F] {p : Policy} {noc soc : Row F}
  {clientImpact : Option (PyJson F)} {d : Decision F} {choice : Choice} {impact : Row F}

/-- An explanation is a reason and alternatives that hold. -/
theorem Decided.explained_exactly (h : Decided p noc soc clientImpact d choice impact) :
    Explained p d ↔ Claimed (reasonClaims p d.decisionTrace) choice.reason ∧
      AlternativesHold p d.decisionTrace choice.action
        (rejectedAlternatives choice.action d.decisionTrace.nocFragile d.decisionTrace.strongSoc
          d.decisionTrace.blastScore) := by
  rw [AlternativesHold, h.traceFragile, h.traceStrong, h.traceBlast, ← h.rejected, ← h.action,
    ← h.reason]
  exact ⟨fun h => ⟨h.reason, h.complete, h.rejected⟩, fun h => ⟨h.1, h.2.1, h.2.2⟩⟩

/-- The same under a strong SOC and no fragile NOC. -/
theorem Decided.explained_controllable (h : Decided p noc soc clientImpact d choice impact)
    (hcontrol : (readSignals noc soc).Controllable p) (hne : choice.action ≠ .observe) :
    Explained p d ↔ Claimed (reasonClaims p d.decisionTrace) choice.reason ∧
      (choice.action = .throttle ∨ ((readSignals noc soc).blastScore < 40 ∧
        (readSignals noc soc).blastScore < p.throttle.blastMin)) ∧
      (choice.action = .redirect ∨ ¬ p.redirect.met (readSignals noc soc) = true) ∧
      (choice.action = .isolate ∨ ¬ p.isolate.met (readSignals noc soc) = true) := by
  rw [h.explained_exactly, h.controllable.mpr hcontrol |>.1, h.controllable.mpr hcontrol |>.2,
    alternatives_controllable h.traceAction hne (h.controllable.mpr hcontrol).1, h.meets, h.meets,
    h.traceBlast]

/-- Without one, every reason but that of a baseline or a fragile NOC is out of reach. -/
theorem Decided.explained_uncontrollable (h : Decided p noc soc clientImpact d choice impact)
    (hreason : Claimed (reasonClaims p d.decisionTrace) choice.reason)
    (hchosen : choice.action = if (readSignals noc soc).strongSoc p || (readSignals noc soc).nocFragile
      then .notify else .observe)
    (hcontrol : ¬ (readSignals noc soc).Controllable p) : Explained p d := by
  rw [h.explained_exactly]
  refine ⟨hreason, alternatives_uncontrollable h.traceAction ?_ (h.controllable.not.mpr hcontrol)⟩
  rw [h.traceStrong, h.traceFragile]
  exact hchosen

/-- A control action that gave way to the client impact is never explained: the gate that was met is
called not satisfied. -/
theorem Decided.not_explained_of_held (h : Decided p noc soc clientImpact d heldBack impact)
    (hcontrol : (readSignals noc soc).Controllable p) (hgates : p.GateMet (readSignals noc soc)) :
    ¬ Explained p d := by
  rw [h.explained_controllable hcontrol (by decide)]
  rintro ⟨-, hthrottle, hredirect, hisolate⟩
  have hsmall := (hthrottle.resolve_left (by decide)).2
  rcases hgates with hmet | hmet | hmet
  · exact (hisolate.resolve_left (by decide)) hmet
  · exact (hredirect.resolve_left (by decide)) hmet
  · simp only [ThrottleGate.met, Bool.and_eq_true, decide_eq_true_eq] at hmet
    omega

end Explained

/-- **Which decisions are explained.** -/
theorem explained_iff {F : Type} [PyFloat F] [PyRepr F] [PyConvert F] (p : Policy) (noc soc : Row F)
    (clientImpact : Option (PyJson F)) (d : Decision F)
    (h : decideAction p (.obj noc) (.obj soc) clientImpact = .ok d) :
    Explained p d ↔ WellExplained p (readSignals noc soc) clientImpact := by
  obtain ⟨choice, impact, hd⟩ := decided_of_ok h
  have hnodup := reasonClaims_nodup p d.decisionTrace
  have hweighed := hd.weighed
  have hchosen := choose_chosen p (readSignals noc soc)
  generalize choose p (readSignals noc soc) = chosen at hchosen hweighed
  cases hchosen with
  | isolate hcontrol hisolate =>
    cases hweighed with
    | other hother => cases hother
    | spared _ hlow =>
      have hreason := claimed_at hnodup 0 rfl
      rw [hd.controllable, hd.meets] at hreason
      rw [hd.explained_controllable hcontrol (by decide), hreason]
      simp [WellExplained, hcontrol, hlow, hisolate, and_comm]
    | held _ hhigh =>
      exact iff_of_false (hd.not_explained_of_held hcontrol (.inl hisolate))
        (by simp [WellExplained, hcontrol, hhigh])
  | redirect hcontrol hisolate hredirect =>
    cases hweighed with
    | other hother => cases hother
    | spared _ hlow =>
      have hreason := claimed_at hnodup 1 rfl
      rw [hd.controllable, hd.meets] at hreason
      rw [hd.explained_controllable hcontrol (by decide), hreason]
      simp [WellExplained, hcontrol, hlow, hisolate, hredirect]
    | held _ hhigh =>
      exact iff_of_false (hd.not_explained_of_held hcontrol (.inr (.inl hredirect)))
        (by simp [WellExplained, hcontrol, hhigh])
  | throttle hcontrol hisolate hredirect hthrottle =>
    cases hweighed with
    | other hother => cases hother
    | spared _ hlow =>
      have hreason := claimed_at hnodup 2 rfl
      rw [hd.controllable, hd.meetsThrottle] at hreason
      rw [hd.explained_controllable hcontrol (by decide), hreason]
      simp [WellExplained, hcontrol, hlow, hisolate, hredirect, hthrottle]
    | held _ hhigh =>
      exact iff_of_false (hd.not_explained_of_held hcontrol (.inr (.inr hthrottle)))
        (by simp [WellExplained, hcontrol, hhigh])
  | noGate hcontrol hgates =>
    cases hweighed with
    | spared hother => cases hother
    | held hother => cases hother
    | other =>
      have hreason := claimed_at hnodup 3 rfl
      rw [hd.traceFragile, hcontrol.2] at hreason
      rw [hd.explained_controllable hcontrol (by decide), hreason]
      simp only [Policy.GateMet, not_or, Bool.not_eq_true] at hgates
      simp [WellExplained, hcontrol, hgates]
  | fragile hstrong hfragile =>
    have hnot : ¬ (readSignals noc soc).Controllable p := fun h => by simp [h.2] at hfragile
    cases hweighed with
    | spared hother => cases hother
    | held hother => cases hother
    | other =>
      have hreason := (claimed_at hnodup 3 rfl).mpr
        ⟨hd.traceStrong.trans hstrong, hd.traceFragile.trans hfragile⟩
      exact iff_of_true (hd.explained_uncontrollable hreason (by simp [hstrong]) hnot) (.inl hnot)
  | degraded hstrong hfragile =>
    have hnot : ¬ (readSignals noc soc).Controllable p := fun h => by simp [h.2] at hfragile
    cases hweighed with
    | spared hother => cases hother
    | held hother => cases hother
    | other =>
      have hreason := (claimed_at hnodup 4 rfl).mpr
        ⟨hd.traceStrong.trans hstrong, hd.traceFragile.trans hfragile⟩
      exact iff_of_true (hd.explained_uncontrollable hreason (by simp [hfragile]) hnot) (.inl hnot)
  | baseline hstrong hfragile =>
    have hnot : ¬ (readSignals noc soc).Controllable p := fun h => by simp [h.1] at hstrong
    cases hweighed with
    | spared hother => cases hother
    | held hother => cases hother
    | other =>
      have hreason := (claimed_at hnodup 5 rfl).mpr
        ⟨hd.traceStrong.trans hstrong, hd.traceFragile.trans hfragile⟩
      exact iff_of_true
        (hd.explained_uncontrollable hreason (by simp [hstrong, hfragile]) hnot) (.inl hnot)

/-- A decision of the throttle gate alone is explained. -/
theorem explained_iff_sample : ∃ d : Decision Whole,
    decideAction plainPolicy (.obj (labelledNoc (.str (pyStr "good"))))
      (.obj (criticalSoc 85 85 50)) none = .ok d ∧ Explained plainPolicy d := by
  obtain ⟨d, hd⟩ : ∃ d : Decision Whole,
      decideAction plainPolicy (.obj (labelledNoc (.str (pyStr "good"))))
        (.obj (criticalSoc 85 85 50)) none = .ok d := ⟨_, rfl⟩
  refine ⟨d, hd, (explained_iff _ _ _ _ _ hd).mpr (.inr ⟨?_, .inl ⟨rfl, rfl, rfl⟩⟩)⟩
  rintro ⟨_, _, _, h, -⟩
  cases h

/-- On a good network, a critical SOC evaluation that meets no gate is answered with the reason that
the network is fragile. -/
theorem good_network_called_fragile : ∃ d : Decision Whole,
    decideAction plainPolicy (.obj (labelledNoc (.str (pyStr "good"))))
      (.obj (criticalSoc 85 85 10)) none = .ok d ∧
    d.reason = pyStr "soc_high_but_noc_fragile" ∧ d.decisionTrace.nocFragile = false ∧
    ¬ Explained plainPolicy d := by
  refine ⟨_, rfl, rfl, rfl, fun h => ?_⟩
  have hreason := (claimed_at (reasonClaims_nodup _ _) 3 rfl).mp h.reason
  exact absurd hreason.2 (by decide)

end AzazelEdge.Arbiter
