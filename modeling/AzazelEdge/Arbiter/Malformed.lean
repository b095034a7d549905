/-
# Malformed evidence

Most of what `decide` reads goes through `_to_int` or `_section`, where a value of another type
counts as none.  Two readings do not.  The client impact is converted with a bare `int`, and its
`get` is called on whatever it is: both raise.  And a NOC label is taken as its `str`, so a label
that is no string is a label all the same, and none of the fragile ones.

`Degrades` says what a malformed input should come to: no exception but the schema's, and no control
action without well-formed parts that justify it.  `degrades_iff` says of which inputs it holds.
-/
import AzazelEdge.Arbiter.Gate

namespace AzazelEdge.Arbiter

open AzazelEdge.Lib AzazelEdge.Lib.Py AzazelEdge.Audit

section Malformed

variable {F : Type} [PyFloat F] [PyRepr F] [PyConvert F]

/-! ## 1. What a malformed input should come to -/

section Spec

variable (p : Policy)

/-- **The well-formed parts justify a control action.**  A score that is no integer counts as 0, and
a NOC label has to be a string. -/
structure Justified (noc soc : Row F) (clientImpact : Option (PyJson F)) : Prop where
  gate : p.GateMet (readSignals noc soc)
  strong : (readSignals noc soc).strongSoc p = true
  labels : ∀ key ∈ nocSections, ∃ label,
    getKey (pyStr "label") (dictSection noc (pyStr key)) = some (.str label) ∧ label ≠ [] ∧
      label ∉ fragileLabels
  impactScore : (intOr0 (getKey (pyStr "score") (asDict clientImpact))).getD 0 < 70
  criticalClients :
    (intOr0 (getKey (pyStr "critical_client_count") (asDict clientImpact))).getD 0 ≤ 0

omit [PyFloat F] [PyRepr F] [PyConvert F] in
/-- The schema takes the two inputs. -/
def Accepted (noc soc : PyJson F) : Prop :=
  ∃ nocMembers socMembers, noc = .obj nocMembers ∧ HasKeys nocMembers requiredNocKeys ∧
    soc = .obj socMembers ∧ HasKeys socMembers requiredSocKeys

/-- **Malformed inputs degrade.**  A control action is justified, and what is raised is the schema's
error on an input the schema refuses. -/
def Degrades (noc soc : PyJson F) (clientImpact : Option (PyJson F)) : Prop :=
  match decideAction p noc soc clientImpact with
  | .ok d => d.action.isControl = true →
      ∀ nocMembers socMembers, noc = .obj nocMembers → soc = .obj socMembers →
        Justified p nocMembers socMembers clientImpact
  | .error (.schema _) => ¬ Accepted noc soc
  | .error _ => False

/-- The signals ask for a control action. -/
def ControlAsked (noc soc : Row F) : Prop :=
  (readSignals noc soc).Controllable p ∧ p.GateMet (readSignals noc soc)

omit [PyFloat F] [PyRepr F] [PyConvert F] in
/-- The three labels that `decide` looks at are strings. -/
def Labelled (noc : Row F) : Prop :=
  ∀ key ∈ nocSections, ∃ label,
    getKey (pyStr "label") (dictSection noc (pyStr key)) = some (.str label)

/-- The client impact is a dict or falsy.  Where the signals ask for a control action, it reads as
integers, and it holds the action back or the labels are strings. -/
def WellFormedWhereRead (noc soc : Row F) (clientImpact : Option (PyJson F)) : Prop :=
  IsDictOrFalsy clientImpact ∧ (ControlAsked p noc soc →
    Readable clientImpact ∧ (TooHigh clientImpact ∨ Labelled noc))

end Spec

/-! ## 2. The schema -/

variable {p : Policy} {noc soc : Row F} {clientImpact : Option (PyJson F)} {d : Decision F}

/-- What is raised on inputs the schema refuses is its error. -/
theorem schema_of_refused {noc soc : PyJson F} (h : ¬ Accepted noc soc) :
    ∃ message, decideAction p noc soc clientImpact = .error (.schema message) := by
  unfold decideAction
  cases hnoc : validateSchema noc requiredNocKeys (pyStr "noc") with
  | error e =>
    obtain ⟨⟨message, rfl⟩, -⟩ := validateSchema_error hnoc
    exact ⟨message, rfl⟩
  | ok nocMembers =>
    cases hsoc : validateSchema soc requiredSocKeys (pyStr "soc") with
    | error e =>
      obtain ⟨⟨message, rfl⟩, -⟩ := validateSchema_error hsoc
      exact ⟨message, rfl⟩
    | ok socMembers =>
      obtain ⟨hnocDict, hnocKeys⟩ := validateSchema_eq_ok.mp hnoc
      obtain ⟨hsocDict, hsocKeys⟩ := validateSchema_eq_ok.mp hsoc
      exact absurd ⟨_, _, hnocDict, hnocKeys, hsocDict, hsocKeys⟩ h

theorem degrades_of_refused {noc soc : PyJson F} (h : ¬ Accepted noc soc) :
    Degrades p noc soc clientImpact := by
  obtain ⟨message, hraised⟩ : ∃ message,
      decideAction p noc soc clientImpact = .error (.schema message) := schema_of_refused h
  unfold Degrades
  rw [hraised]
  exact h

/-- Accepted inputs have to be decided, and a control action on them justified. -/
theorem degrades_of_accepted (hnoc : HasKeys noc requiredNocKeys)
    (hsoc : HasKeys soc requiredSocKeys) :
    Degrades p (.obj noc) (.obj soc) clientImpact ↔
      ∃ d, decideAction p (.obj noc) (.obj soc) clientImpact = .ok d ∧
        (d.action.isControl = true → Justified p noc soc clientImpact) := by
  have haccepted : Accepted (.obj noc) (.obj soc) := ⟨_, _, rfl, hnoc, rfl, hsoc⟩
  unfold Degrades
  cases decideAction p (.obj noc) (.obj soc) clientImpact with
  | ok d =>
    constructor
    · intro h
      exact ⟨d, rfl, fun hcontrol => h hcontrol noc soc rfl rfl⟩
    · rintro ⟨d', hd, h⟩ hcontrol nocMembers socMembers hnoc' hsoc'
      cases hd
      cases hnoc'
      cases hsoc'
      exact h hcontrol
  | error e =>
    refine iff_of_false ?_ (by rintro ⟨d, hd, -⟩; cases hd)
    cases e with
    | schema message => exact fun h => h haccepted
    | _ => exact id

/-! ## 3. The well-formed parts -/

omit [PyConvert F] in
/-- A string that is a sound label is not empty, and not fragile. -/
theorem label_of_string {source : Row F} {key label : PyStr}
    (hlabel : getKey (pyStr "label") (dictSection source key) = some (.str label))
    (h : healthLabel source key ∉ fragileLabels) : label ≠ [] ∧ label ∉ fragileLabels := by
  obtain ⟨label', hlabel', htruthy, hsound⟩ := label_of_sound h
  rw [hlabel] at hlabel'
  cases hlabel'
  refine ⟨?_, hsound⟩
  rintro rfl
  cases htruthy

omit [PyRepr F] in
/-- A client impact that reads as integers and is not too high is low. -/
theorem low_of_readable (hreadable : Readable clientImpact) (hlow : ¬ TooHigh clientImpact) :
    (intOr0 (getKey (pyStr "score") (asDict clientImpact))).getD 0 < 70 ∧
      (intOr0 (getKey (pyStr "critical_client_count") (asDict clientImpact))).getD 0 ≤ 0 := by
  unfold asDict
  split
  · rename_i impact
    obtain ⟨⟨score, critical⟩, hread⟩ := hreadable impact rfl
    have hbounds : ¬ (70 ≤ score ∨ 0 < critical) := fun hhigh =>
      hlow ⟨impact, score, critical, rfl, hread, hhigh⟩
    unfold readImpact at hread
    split at hread
    · rename_i hscore hcritical
      cases hread
      rw [hscore, hcritical, Option.getD_some, Option.getD_some]
      omega
    · cases hread
  · exact ⟨(by decide : (0 : ℤ) < 70), le_refl (0 : ℤ)⟩

/-- **Signals that ask for a control action, string labels and a low impact justify it.** -/
theorem justified_of_wellFormed (hasked : ControlAsked p noc soc) (hlabels : Labelled noc)
    (hreadable : Readable clientImpact) (hlow : ¬ TooHigh clientImpact) :
    Justified p noc soc clientImpact where
  gate := hasked.2
  strong := hasked.1.1
  labels key hkey := by
    obtain ⟨label, hlabel⟩ := hlabels key hkey
    have hsound := nocFragile_eq_false.mp hasked.1.2 key hkey
    exact ⟨label, hlabel, label_of_string hlabel hsound⟩
  impactScore := (low_of_readable hreadable hlow).1
  criticalClients := (low_of_readable hreadable hlow).2

/-! ## 4. When malformed inputs degrade -/

/-- A decision is a control action just when the signals ask for one and the impact is not too
high. -/
theorem control_iff (h : decideAction p (.obj noc) (.obj soc) clientImpact = .ok d) :
    d.action.isControl = true ↔ ControlAsked p noc soc ∧ ¬ TooHigh clientImpact := by
  obtain ⟨choice, impact, hd⟩ := decided_of_ok h
  rw [hd.action, ControlAsked, ← choose_control]
  have hweighed := hd.weighed
  generalize choose p (readSignals noc soc) = chosen at hweighed
  cases hweighed with
  | other hother => simp [hother]
  | spared hcontrol hlow => simp [hcontrol, hlow]
  | held hcontrol hhigh => exact iff_of_false (by decide) fun h => h.2 hhigh

theorem degrades_iff_wellFormed (hnoc : HasKeys noc requiredNocKeys)
    (hsoc : HasKeys soc requiredSocKeys) :
    Degrades p (.obj noc) (.obj soc) clientImpact ↔ WellFormedWhereRead p noc soc clientImpact := by
  have hreturns : (∃ d, decideAction p (.obj noc) (.obj soc) clientImpact = .ok d) ↔ _ :=
    decide_returns hnoc hsoc
  rw [choose_control] at hreturns
  rw [degrades_of_accepted hnoc hsoc]
  constructor
  · rintro ⟨d, hd, hjustified⟩
    obtain ⟨hdict, hreadable⟩ := hreturns.mp ⟨d, hd⟩
    refine ⟨hdict, fun hasked => ⟨hreadable hasked, ?_⟩⟩
    by_cases hhigh : TooHigh clientImpact
    · exact .inl hhigh
    · refine .inr fun key hkey => ?_
      obtain ⟨label, hlabel, -⟩ :=
        (hjustified ((control_iff hd).mpr ⟨hasked, hhigh⟩)).labels key hkey
      exact ⟨label, hlabel⟩
  · rintro ⟨hdict, hwellFormed⟩
    obtain ⟨d, hd⟩ := hreturns.mpr ⟨hdict, fun hasked => (hwellFormed hasked).1⟩
    refine ⟨d, hd, fun hcontrol => ?_⟩
    obtain ⟨hasked, hlow⟩ := (control_iff hd).mp hcontrol
    obtain ⟨hreadable, hlabels⟩ := hwellFormed hasked
    exact justified_of_wellFormed hasked (hlabels.resolve_left hlow) hreadable hlow

/-- **Which inputs degrade.** -/
theorem degrades_iff (p : Policy) (noc soc : PyJson F) (clientImpact : Option (PyJson F)) :
    Degrades p noc soc clientImpact ↔
      ∀ nocMembers socMembers, noc = .obj nocMembers → HasKeys nocMembers requiredNocKeys →
        soc = .obj socMembers → HasKeys socMembers requiredSocKeys →
          WellFormedWhereRead p nocMembers socMembers clientImpact := by
  by_cases haccepted : Accepted noc soc
  · obtain ⟨nocMembers, socMembers, rfl, hnoc, rfl, hsoc⟩ := haccepted
    rw [degrades_iff_wellFormed hnoc hsoc]
    constructor
    · rintro h nocMembers' socMembers' hnoc' - hsoc' -
      cases hnoc'
      cases hsoc'
      exact h
    · intro h
      exact h nocMembers socMembers rfl hnoc rfl hsoc
  · refine iff_of_true (degrades_of_refused haccepted) ?_
    intro nocMembers socMembers hnocDict hnoc hsocDict hsoc
    exact absurd ⟨nocMembers, socMembers, hnocDict, hnoc, hsocDict, hsoc⟩ haccepted

end Malformed

/-- A client impact whose score is a word raises, and so do labels that are no strings clear the
way. -/
theorem malformed_impact_and_labels :
    ¬ Degrades plainPolicy (.obj (labelledNoc (.str (pyStr "good")))) (.obj (criticalSoc 96 91 85))
      (some (.obj [(pyStr "score", .str (pyStr "high"))])) ∧
    ¬ Degrades plainPolicy (.obj (labelledNoc (.int 7))) (.obj (criticalSoc 96 91 85)) none := by
  constructor
  · intro h
    exact h
  · intro h
    have hjustified := h rfl _ _ rfl rfl
    obtain ⟨label, hlabel, -⟩ := hjustified.labels "availability" (by decide)
    cases hlabel

end AzazelEdge.Arbiter
