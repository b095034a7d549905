/-
# The life of a hypothesis within a reasoning cycle

`lifecycle.py`: what a model's revision of the hypotheses may do (`apply_hypothesis_update`), and
what is written down of it.  An accepted revision is the proposed list with the omitted hypotheses
behind it (`apply_accepted`); a rejected one changes nothing.  From this, over every sequence of
revisions, a hypothesis is neither dropped nor revived nor changed off the record
(`hypotheses_on_record`).
-/
import AzazelEdge.Lib.Run
import AzazelEdge.Mio.Hypothesis

namespace AzazelEdge.Mio

open AzazelEdge.Lib AzazelEdge.Lib.Py
open AzazelEdge.Outcome (distinct)

/-! ## 1. Statuses -/

/-- `TERMINAL_HYPOTHESIS_STATUSES`. -/
def terminalHypothesisStatuses : List HypothesisStatus := [.falsified, .superseded]

/-- `ENTRY_HYPOTHESIS_STATUSES`. -/
def entryHypothesisStatuses : List HypothesisStatus := [.proposed, .active]

/-- `_FROM_ACTIVE`. -/
def fromActive : List HypothesisStatus :=
  [.active, .strengthened, .weakened, .falsified, .unresolved, .superseded]

/-- `ALLOWED_HYPOTHESIS_TRANSITIONS`. -/
def allowedHypothesisTransitions : HypothesisStatus → List HypothesisStatus
  | .proposed => fromActive ++ [.proposed]
  | .active | .strengthened | .weakened | .unresolved => fromActive
  | .falsified => [.falsified]
  | .superseded => [.superseded]

/-! ## 2. The audit -/

/-- `HypothesisAuditEntry`. -/
structure HypothesisAuditEntry where
  hypothesisId : PyStr
  fromStatus : PyStr
  toStatus : PyStr
  reason : PyStr
  evidenceRefs : List PyStr := []
  falsificationConditions : List PyStr := []
  statement : PyStr := []
  deriving DecidableEq

/-- `_entry`. -/
def entry (h : MioHypothesis) (fromStatus reason : PyStr) : HypothesisAuditEntry :=
  { hypothesisId := h.hypothesisId, fromStatus, toStatus := word h.status, reason,
    evidenceRefs := distinct h.evidenceRefs,
    falsificationConditions := h.falsificationConditions, statement := h.statement }

/-- `record_initial`. -/
def recordInitial (hypotheses : List MioHypothesis) : List HypothesisAuditEntry :=
  hypotheses.map fun h => entry h [] (pyStr "proposed_by_model")

/-- `validate_initial_hypotheses`. -/
def validateInitialHypotheses (hypotheses : List MioHypothesis) : List PyStr :=
  (hypotheses.filter (·.status ∉ entryHypothesisStatuses)).map fun h =>
    pyStr "initial_hypothesis_must_start_proposed:" ++ h.hypothesisId ++ pyStr ":" ++ word h.status

/-! ## 3. A revision -/

variable (allowedRefs : Option (List PyStr)) (previous proposed : List MioHypothesis)

/-- A reference that may be cited; without a list any may. -/
def Citable (ref : PyStr) : Prop := ∀ refs, allowedRefs = some refs → ref ∈ refs

instance (ref : PyStr) : Decidable (Citable allowedRefs ref) :=
  match allowedRefs with
  | none => isTrue fun _ hnone => nomatch hnone
  | some refs => decidable_of_iff (ref ∈ refs)
      ⟨fun hmem _ hsome => Option.some.inj hsome ▸ hmem, fun hall => hall refs rfl⟩

/-- The errors of the references that may not be cited. -/
def outsideContext (h : MioHypothesis) (refs : List PyStr) : List PyStr :=
  (refs.filter fun ref => ¬ Citable allowedRefs ref).map fun ref =>
    pyStr "lifecycle_ref_outside_context:" ++ h.hypothesisId ++ pyStr ":" ++ ref

/-- `_evidence_errors`. -/
def evidenceErrors (h : MioHypothesis) : List PyStr :=
  match h.status with
  | .strengthened =>
    flag (h.supportingEvidenceRefs = [])
        (pyStr "strengthened_without_supporting_evidence:" ++ h.hypothesisId) ++
      outsideContext allowedRefs h h.supportingEvidenceRefs
  | .weakened =>
    flag (h.contradictingEvidenceRefs = [] ∧ h.missingEvidence = [])
        (pyStr "weakened_without_refuting_evidence_or_gap:" ++ h.hypothesisId) ++
      outsideContext allowedRefs h h.contradictingEvidenceRefs
  | .falsified => outsideContext allowedRefs h h.contradictingEvidenceRefs
  | _ => []

/-- What one proposed hypothesis adds to the errors, the audit and the new list. -/
structure Revision where
  errors : List PyStr := []
  audit : List HypothesisAuditEntry := []
  out : List MioHypothesis := []

/-- `prior.get(hypothesis_id)`; of two hypotheses of one id the later one. -/
def prior (id : PyStr) : Option MioHypothesis :=
  previous.reverse.find? (·.hypothesisId = id)

/-- A revision of a hypothesis that is not over. -/
def reviseOpen (before h : MioHypothesis) : Revision :=
  { errors := evidenceErrors allowedRefs h ++
      flag (h.status = .falsified ∧ h.falsificationConditions = [] ∧
          before.falsificationConditions = [])
        (pyStr "falsified_without_falsification_condition:" ++ h.hypothesisId) ++
      flag (h.status = .falsified ∧ h.contradictingEvidenceRefs = [])
        (pyStr "falsified_without_contradicting_evidence:" ++ h.hypothesisId)
    audit :=
      if h.status ≠ before.status then [entry h (word before.status) (pyStr "revised_by_evidence")]
      else if h ≠ before then [entry h (word before.status) (pyStr "content_revised")]
      else []
    out := [h] }

/-- The loop over the proposed hypotheses, at one of them. -/
def revise (h : MioHypothesis) : Revision :=
  match prior previous h.hypothesisId with
  | none =>
    { errors := flag (h.status ∉ entryHypothesisStatuses)
        (pyStr "new_hypothesis_must_start_proposed:" ++ h.hypothesisId ++ pyStr ":" ++ word h.status)
      audit := [entry h [] (pyStr "proposed_in_update")]
      out := [h] }
  | some before =>
    if h.status ∉ allowedHypothesisTransitions before.status then
      { errors := [pyStr "invalid_hypothesis_transition:" ++ h.hypothesisId ++ pyStr ":" ++
          word before.status ++ pyStr "->" ++ word h.status] }
    else if before.status ∈ terminalHypothesisStatuses then
      { errors := flag (h ≠ before) (pyStr "terminal_hypothesis_modified:" ++ h.hypothesisId ++
          pyStr ":" ++ word before.status)
        out := [before] }
    else reviseOpen allowedRefs before h

/-- The entry of a hypothesis that the revision leaves out. -/
def carriedEntry (before : MioHypothesis) : HypothesisAuditEntry :=
  { hypothesisId := before.hypothesisId, fromStatus := word before.status
    toStatus := word before.status, reason := pyStr "carried_forward_omitted_by_update"
    falsificationConditions := before.falsificationConditions, statement := before.statement }

/-- The hypotheses that the revision leaves out. -/
def omitted : List MioHypothesis := previous.filter (·.hypothesisId ∉ ids proposed)

/-- `LifecycleResult`. -/
structure LifecycleResult where
  ok : Bool
  hypotheses : List MioHypothesis
  audit : List HypothesisAuditEntry
  errors : List PyStr

/-- `apply_hypothesis_update`. -/
def applyHypothesisUpdate : LifecycleResult :=
  let revisions := proposed.map (revise allowedRefs previous)
  let errors := revisions.flatMap (·.errors)
  if errors ≠ [] then { ok := false, hypotheses := previous, audit := [], errors }
  else
    { ok := true, hypotheses := revisions.flatMap (·.out) ++ omitted previous proposed
      audit := revisions.flatMap (·.audit) ++ (omitted previous proposed).map carriedEntry
      errors := [] }

/-! ## 4. What a revision without errors is -/

variable {allowedRefs previous proposed} {h before : MioHypothesis} {e : HypothesisAuditEntry}

theorem prior_eq_some {id : PyStr} (hprior : prior previous id = some before) :
    before ∈ previous ∧ before.hypothesisId = id := by
  constructor
  · simpa using List.mem_of_find?_eq_some hprior
  · simpa using List.find?_some hprior

theorem prior_eq_none {id : PyStr} : prior previous id = none ↔ id ∉ ids previous := by
  simp [prior, ids]

/-- Two hypotheses of one id are the same, where ids come once. -/
theorem eq_of_id (hnodup : (ids previous).Nodup) (hh : h ∈ previous) (hbefore : before ∈ previous)
    (hid : h.hypothesisId = before.hypothesisId) : h = before :=
  List.inj_on_of_nodup_map hnodup hh hbefore hid

theorem prior_of_mem (hnodup : (ids previous).Nodup) (hh : h ∈ previous) :
    prior previous h.hypothesisId = some h := by
  cases hprior : prior previous h.hypothesisId with
  | none => exact absurd (List.mem_map_of_mem hh) (prior_eq_none.mp hprior)
  | some before =>
    obtain ⟨hbefore, hid⟩ := prior_eq_some hprior
    rw [eq_of_id hnodup hh hbefore hid.symm]

/-- What is written of a proposed hypothesis has its id and its status. -/
theorem audit_revise (he : e ∈ (revise allowedRefs previous h).audit) :
    e.hypothesisId = h.hypothesisId ∧ e.toStatus = word h.status := by
  unfold revise at he
  split at he
  · rw [List.mem_singleton.mp he]
    simp [entry]
  · split at he
    · simp at he
    · split at he
      · simp at he
      · unfold reviseOpen at he
        split_ifs at he
        · rw [List.mem_singleton.mp he]
          simp [entry]
        · rw [List.mem_singleton.mp he]
          simp [entry]
        · simp at he

/-- **The four ways through the loop, three of them without an error.** -/
theorem revise_ok (hok : (revise allowedRefs previous h).errors = []) :
    (prior previous h.hypothesisId = none ∧ h.status ∈ entryHypothesisStatuses ∧
      revise allowedRefs previous h =
        { audit := [entry h [] (pyStr "proposed_in_update")], out := [h] }) ∨
    (h.status ∈ terminalHypothesisStatuses ∧ prior previous h.hypothesisId = some h ∧
      revise allowedRefs previous h = { out := [h] }) ∨
    ∃ before, prior previous h.hypothesisId = some before ∧
      before.status ∉ terminalHypothesisStatuses ∧
      h.status ∈ allowedHypothesisTransitions before.status ∧
      (reviseOpen allowedRefs before h).errors = [] ∧
      revise allowedRefs previous h = reviseOpen allowedRefs before h := by
  cases hprior : prior previous h.hypothesisId with
  | none =>
    refine Or.inl ⟨rfl, ?_⟩
    simp only [revise, hprior, flag_eq_nil, not_not] at hok
    simp [revise, hprior, hok, flag]
  | some before =>
    refine Or.inr ?_
    simp only [revise, hprior] at hok
    split_ifs at hok with hallowed hover
    · refine Or.inl ?_
      rw [flag_eq_nil, not_not] at hok
      subst hok
      exact ⟨hover, rfl, by simp [revise, hprior, flag, hover, hallowed]⟩
    · exact Or.inr ⟨before, rfl, hover, hallowed, hok,
        by simp [revise, hprior, hover, hallowed]⟩

theorem out_revise (hok : (revise allowedRefs previous h).errors = []) :
    (revise allowedRefs previous h).out = [h] := by
  rcases revise_ok hok with ⟨-, -, heq⟩ | ⟨-, -, heq⟩ | ⟨before, -, -, -, -, heq⟩
  all_goals rw [heq]
  rfl

/-- Only a hypothesis that was there as it is goes unwritten. -/
theorem prior_of_unwritten (hok : (revise allowedRefs previous h).errors = [])
    (hnone : (revise allowedRefs previous h).audit = []) :
    prior previous h.hypothesisId = some h := by
  rcases revise_ok hok with ⟨-, -, heq⟩ | ⟨-, hprior, -⟩ | ⟨before, hprior, -, -, -, heq⟩
  · simp [heq] at hnone
  · exact hprior
  · rw [heq] at hnone
    unfold reviseOpen at hnone
    split_ifs at hnone with hstatus hsame
    rw [hprior, not_not.mp hsame]

/-- A hypothesis is falsified on evidence that may be cited, under a condition. -/
structure Falsifies (allowedRefs : Option (List PyStr)) (before h : MioHypothesis) : Prop where
  contradicted : h.contradictingEvidenceRefs ≠ []
  citable : ∀ ref ∈ h.contradictingEvidenceRefs, Citable allowedRefs ref
  condition : h.falsificationConditions ≠ [] ∨ before.falsificationConditions ≠ []

theorem falsifies_of_open (hfalse : h.status = .falsified)
    (hok : (reviseOpen allowedRefs before h).errors = []) : Falsifies allowedRefs before h := by
  simp only [reviseOpen, evidenceErrors, hfalse, List.append_eq_nil_iff, flag_eq_nil,
    outsideContext, List.map_eq_nil_iff, List.filter_eq_nil_iff, true_and, not_and_or,
    decide_eq_true_eq, not_not] at hok
  obtain ⟨⟨hcitable, hcondition⟩, hcontradicted⟩ := hok
  exact ⟨hcontradicted, hcitable, hcondition⟩

/-- **An accepted update is the proposed list with the omitted hypotheses behind it.** -/
theorem apply_accepted (hok : (applyHypothesisUpdate allowedRefs previous proposed).ok = true) :
    (∀ p ∈ proposed, (revise allowedRefs previous p).errors = []) ∧
      applyHypothesisUpdate allowedRefs previous proposed =
        { ok := true, hypotheses := proposed ++ omitted previous proposed
          audit := proposed.flatMap (fun p => (revise allowedRefs previous p).audit) ++
            (omitted previous proposed).map carriedEntry
          errors := [] } := by
  have herrors : (proposed.map (revise allowedRefs previous)).flatMap (·.errors) = [] := by
    by_contra hne
    simp [applyHypothesisUpdate, hne] at hok
  have hall : ∀ p ∈ proposed, (revise allowedRefs previous p).errors = [] := by
    simpa [List.flatMap_eq_nil_iff] using herrors
  refine ⟨hall, ?_⟩
  have hout : (proposed.map (revise allowedRefs previous)).flatMap (·.out) = proposed := by
    rw [List.flatMap_map, List.flatMap_congr fun p hp => out_revise (hall p hp)]
    simp
  simp [applyHypothesisUpdate, herrors, hout, List.flatMap_map]

/-- **A rejected update changes nothing, and nothing is written of it.** -/
theorem apply_rejected (hok : (applyHypothesisUpdate allowedRefs previous proposed).ok = false) :
    (applyHypothesisUpdate allowedRefs previous proposed).hypotheses = previous ∧
      (applyHypothesisUpdate allowedRefs previous proposed).audit = [] := by
  by_cases hnil : (proposed.map (revise allowedRefs previous)).flatMap (·.errors) = []
  · simp [applyHypothesisUpdate, hnil] at hok
  · simp [applyHypothesisUpdate, hnil]

/-! ## 5. Reading the audit back -/

/-- The status that the audit leaves a hypothesis in. -/
def replay (audit : List HypothesisAuditEntry) (id : PyStr) : Option PyStr :=
  ((audit.filter (·.hypothesisId = id)).getLast?).map (·.toStatus)

variable {audit more : List HypothesisAuditEntry} {id status : PyStr}

theorem replay_append :
    replay (audit ++ more) id = (replay more id).or (replay audit id) := by
  unfold replay
  rw [List.filter_append, List.getLast?_append]
  cases (more.filter (·.hypothesisId = id)).getLast? <;> simp

theorem replay_eq_none (h : ∀ e ∈ audit, e.hypothesisId ≠ id) : replay audit id = none := by
  have hnil : audit.filter (·.hypothesisId = id) = [] := by simpa using h
  simp [replay, hnil]

theorem replay_eq_some (hsome : ∃ e ∈ audit, e.hypothesisId = id)
    (hall : ∀ e ∈ audit, e.hypothesisId = id → e.toStatus = status) :
    replay audit id = some status := by
  obtain ⟨e, he, hid⟩ := hsome
  unfold replay
  cases hlast : (audit.filter (·.hypothesisId = id)).getLast? with
  | none =>
    have hmem : e ∈ audit.filter (·.hypothesisId = id) := by simp [he, hid]
    rw [List.getLast?_eq_none_iff.mp hlast] at hmem
    simp at hmem
  | some last =>
    have hmem := List.mem_of_getLast? hlast
    simp only [List.mem_filter, decide_eq_true_eq] at hmem
    simp [hall last hmem.1 hmem.2]

/-! ## 6. Revision after revision -/

/-- Proposed hypotheses of different ids, and the references they may cite. -/
structure Update where
  proposed : List MioHypothesis
  allowedRefs : Option (List PyStr) := none
  nodup : (ids proposed).Nodup

/-- The hypotheses of a cycle, and the audit of them. -/
structure Course where
  hypotheses : List MioHypothesis
  audit : List HypothesisAuditEntry

/-- A cycle's first hypotheses. -/
def Course.start (initial : List MioHypothesis) : Course := ⟨initial, recordInitial initial⟩

/-- The result of an update on the hypotheses as they are. -/
def Course.result (c : Course) (u : Update) : LifecycleResult :=
  applyHypothesisUpdate u.allowedRefs c.hypotheses u.proposed

/-- An update. -/
def Course.update (c : Course) (u : Update) : Course :=
  ⟨(c.result u).hypotheses, c.audit ++ (c.result u).audit⟩

/-- One update as a step. -/
def Updates (c : Course) (u : Update) (c' : Course) : Prop := c' = c.update u

/-- First hypotheses that have passed the checks. -/
structure Validated (initial : List MioHypothesis) : Prop where
  nodup : (ids initial).Nodup
  entering : ∀ h ∈ initial, h.status ∈ entryHypothesisStatuses

/-- The two checks that the loop makes are enough. -/
theorem validated_of_checks {refs : List PyStr} {initial : List MioHypothesis}
    (hgrounded : validateHypotheses refs initial = [])
    (hinitial : validateInitialHypotheses initial = []) : Validated initial := by
  constructor
  · exact (validateHypotheses_eq_nil.mp hgrounded).2.2.1
  · simpa [validateInitialHypotheses] using hinitial

/-- What holds after every update: ids come once, and the audit says how each hypothesis stands. -/
structure OnRecord (c : Course) : Prop where
  nodup : (ids c.hypotheses).Nodup
  replayed : ∀ h ∈ c.hypotheses, replay c.audit h.hypothesisId = some (word h.status)
  unknown : ∀ id, id ∉ ids c.hypotheses → replay c.audit id = none

/-- What no number of updates takes away. -/
structure Keeps (c c' : Course) : Prop where
  present : ∀ id ∈ ids c.hypotheses, id ∈ ids c'.hypotheses
  settled : ∀ h ∈ c.hypotheses, h.status ∈ terminalHypothesisStatuses → h ∈ c'.hypotheses

/-- What one update may do. -/
structure Lawful (c : Course) (u : Update) : Prop where
  rejected : (c.result u).ok = false →
    (c.result u).hypotheses = c.hypotheses ∧ (c.result u).audit = []
  entering : ∀ h ∈ (c.result u).hypotheses, h.hypothesisId ∉ ids c.hypotheses →
    h.status ∈ entryHypothesisStatuses
  falsified : ∀ before ∈ c.hypotheses, ∀ h ∈ (c.result u).hypotheses,
    h.hypothesisId = before.hypothesisId → before.status ≠ .falsified → h.status = .falsified →
    Falsifies u.allowedRefs before h

variable {c c' : Course} {u : Update} {initial : List MioHypothesis} {updates later : List Update}

theorem start_onRecord (hinit : Validated initial) : OnRecord (Course.start initial) := by
  refine ⟨hinit.nodup, fun h hh => ?_, fun id hid => replay_eq_none ?_⟩
  · refine replay_eq_some ⟨entry h [] (pyStr "proposed_by_model"), ?_, rfl⟩ ?_
    · exact List.mem_map_of_mem hh
    · intro e he heq
      obtain ⟨h', hh', rfl⟩ := List.mem_map.mp he
      rw [eq_of_id hinit.nodup hh hh' heq.symm]
      rfl
  · intro e he heq
    obtain ⟨h, hh, rfl⟩ := List.mem_map.mp he
    exact hid (heq ▸ List.mem_map_of_mem hh)

/-- The hypotheses after an accepted update come from it or are as they were. -/
theorem mem_accepted (hok : (c.result u).ok = true) {h : MioHypothesis} :
    h ∈ (c.result u).hypotheses ↔
      h ∈ u.proposed ∨ (h ∈ c.hypotheses ∧ h.hypothesisId ∉ ids u.proposed) := by
  rw [Course.result, (apply_accepted hok).2]
  simp [omitted]

theorem keeps_update (hc : OnRecord c) (u : Update) : Keeps c (c.update u) := by
  cases hok : (c.result u).ok with
  | false =>
    have hsame : (c.update u).hypotheses = c.hypotheses := (apply_rejected hok).1
    constructor
    · intro id hid
      rw [hsame]
      exact hid
    · intro h hh _
      rw [hsame]
      exact hh
  | true =>
    constructor
    · intro id hid
      obtain ⟨h, hh, rfl⟩ := List.mem_map.mp hid
      by_cases hprop : h.hypothesisId ∈ ids u.proposed
      · obtain ⟨p, hp, hpid⟩ := List.mem_map.mp hprop
        exact List.mem_map.mpr ⟨p, (mem_accepted hok).mpr (Or.inl hp), hpid⟩
      · exact List.mem_map_of_mem ((mem_accepted hok).mpr (Or.inr ⟨hh, hprop⟩))
    · intro h hh hover
      by_cases hprop : h.hypothesisId ∈ ids u.proposed
      · obtain ⟨p, hp, hpid⟩ := List.mem_map.mp hprop
        have hprior := prior_of_mem hc.nodup hh
        rw [← hpid] at hprior
        refine (mem_accepted hok).mpr (Or.inl ?_)
        rcases revise_ok ((apply_accepted hok).1 p hp) with
          ⟨hnone, -, -⟩ | ⟨-, hsame, -⟩ | ⟨before, hbefore, hopen, -, -, -⟩
        · simp [hprior] at hnone
        · rw [hprior] at hsame
          exact Option.some.inj hsame ▸ hp
        · rw [hprior] at hbefore
          exact absurd (Option.some.inj hbefore ▸ hover) hopen
      · exact (mem_accepted hok).mpr (Or.inr ⟨hh, hprop⟩)

theorem nodup_update (hc : OnRecord c) (u : Update) : (ids (c.update u).hypotheses).Nodup := by
  cases hok : (c.result u).ok with
  | false =>
    have hsame : (c.update u).hypotheses = c.hypotheses := (apply_rejected hok).1
    exact hsame ▸ hc.nodup
  | true =>
    have heq : (c.update u).hypotheses = u.proposed ++ omitted c.hypotheses u.proposed := by
      rw [Course.update, Course.result, (apply_accepted hok).2]
    rw [heq, ids, List.map_append]
    refine List.nodup_append.mpr ⟨u.nodup, ?_, ?_⟩
    · exact hc.nodup.sublist (List.filter_sublist.map _)
    · rintro a ha b hb rfl
      obtain ⟨h, hh, rfl⟩ := List.mem_map.mp hb
      simp only [omitted, List.mem_filter, decide_eq_true_eq] at hh
      exact hh.2 ha

/-- What is written of an accepted update is the status of the hypothesis it is written of. -/
theorem audit_accepted (hok : (c.result u).ok = true) {e : HypothesisAuditEntry}
    (he : e ∈ (c.result u).audit) :
    ∃ h ∈ (c.result u).hypotheses, h.hypothesisId = e.hypothesisId ∧ e.toStatus = word h.status := by
  have haudit := he
  rw [Course.result, (apply_accepted hok).2] at haudit
  rcases List.mem_append.mp haudit with hmem | hmem
  · obtain ⟨p, hp, hep⟩ := List.mem_flatMap.mp hmem
    obtain ⟨hid, hstatus⟩ := audit_revise hep
    exact ⟨p, (mem_accepted hok).mpr (Or.inl hp), hid.symm, hstatus⟩
  · obtain ⟨h, hh, rfl⟩ := List.mem_map.mp hmem
    simp only [omitted, List.mem_filter, decide_eq_true_eq] at hh
    exact ⟨h, (mem_accepted hok).mpr (Or.inr hh), rfl, rfl⟩

/-- A hypothesis of which an accepted update writes nothing is as it was. -/
theorem unwritten_accepted (hok : (c.result u).ok = true) {h : MioHypothesis}
    (hh : h ∈ (c.result u).hypotheses)
    (hnone : ∀ e ∈ (c.result u).audit, e.hypothesisId ≠ h.hypothesisId) : h ∈ c.hypotheses := by
  rcases (mem_accepted hok).mp hh with hp | ⟨hold, -⟩
  · have hwritten : (revise u.allowedRefs c.hypotheses h).audit = [] := by
      refine List.eq_nil_iff_forall_not_mem.mpr fun e he => ?_
      refine hnone e ?_ (audit_revise he).1
      rw [Course.result, (apply_accepted hok).2]
      exact List.mem_append_left _ (List.mem_flatMap.mpr ⟨h, hp, he⟩)
    exact (prior_eq_some (prior_of_unwritten ((apply_accepted hok).1 h hp) hwritten)).1
  · exact hold

theorem onRecord_update (hc : OnRecord c) (u : Update) : OnRecord (c.update u) := by
  have hnodup := nodup_update hc u
  refine ⟨hnodup, ?_, ?_⟩
  all_goals cases hok : (c.result u).ok
  · intro h hh
    obtain ⟨hsame, hnone⟩ := apply_rejected hok
    have hh' : h ∈ c.hypotheses := hsame ▸ hh
    simpa [Course.update, Course.result, hnone] using hc.replayed h hh'
  · intro h hh
    rw [Course.update, replay_append]
    by_cases hwritten : ∃ e ∈ (c.result u).audit, e.hypothesisId = h.hypothesisId
    · have hlast : replay (c.result u).audit h.hypothesisId = some (word h.status) := by
        refine replay_eq_some hwritten fun e he hid => ?_
        obtain ⟨h', hh', hid', hstatus⟩ := audit_accepted hok he
        rw [hstatus, eq_of_id hnodup hh' hh (hid'.trans hid)]
      rw [hlast, Option.some_or]
    · rw [replay_eq_none (by simpa using hwritten), Option.none_or]
      exact hc.replayed h (unwritten_accepted hok hh (by simpa using hwritten))
  · intro id hid
    obtain ⟨hsame, hnone⟩ := apply_rejected hok
    have hid' : id ∉ ids c.hypotheses := by
      intro hmem
      refine hid ?_
      rw [← hsame] at hmem
      exact hmem
    simpa [Course.update, Course.result, hnone] using hc.unknown id hid'
  · intro id hid
    rw [Course.update, replay_append, replay_eq_none, Option.none_or]
    · exact hc.unknown id fun hmem => hid ((keeps_update hc u).present id hmem)
    · intro e he heq
      obtain ⟨h, hh, hid', -⟩ := audit_accepted hok he
      exact hid (heq ▸ hid' ▸ List.mem_map_of_mem hh)

theorem lawful_update (hc : OnRecord c) (u : Update) : Lawful c u := by
  refine ⟨apply_rejected, ?_, ?_⟩
  · intro h hh hnew
    cases hok : (c.result u).ok with
    | false => exact absurd (List.mem_map_of_mem ((apply_rejected hok).1 ▸ hh)) hnew
    | true =>
      rcases (mem_accepted hok).mp hh with hp | ⟨hold, -⟩
      · rcases revise_ok ((apply_accepted hok).1 h hp) with
          ⟨-, hentry, -⟩ | ⟨-, hprior, -⟩ | ⟨before, hprior, -, -, -, -⟩
        · exact hentry
        · exact absurd (List.mem_map_of_mem (prior_eq_some hprior).1) hnew
        · obtain ⟨hbefore, hid⟩ := prior_eq_some hprior
          exact absurd (hid ▸ List.mem_map_of_mem hbefore) hnew
      · exact absurd (List.mem_map_of_mem hold) hnew
  · intro before hbefore h hh hid hopen hfalse
    have hprior := prior_of_mem hc.nodup hbefore
    have hstays : h ∉ c.hypotheses := by
      intro hold
      exact hopen (eq_of_id hc.nodup hold hbefore hid ▸ hfalse)
    cases hok : (c.result u).ok with
    | false => exact absurd ((apply_rejected hok).1 ▸ hh) hstays
    | true =>
      rcases (mem_accepted hok).mp hh with hp | ⟨hold, -⟩
      · rw [← hid] at hprior
        rcases revise_ok ((apply_accepted hok).1 h hp) with
          ⟨hnone, -, -⟩ | ⟨-, hsame, -⟩ | ⟨before', hprior', -, -, hopen', -⟩
        · simp [hprior] at hnone
        · exact absurd (prior_eq_some hsame).1 hstays
        · rw [hprior] at hprior'
          exact falsifies_of_open hfalse (Option.some.inj hprior' ▸ hopen')
      · exact absurd hold hstays

/-- After every number of updates the audit agrees with the hypotheses. -/
theorem onRecord_run (h : Run Updates c updates c') (hc : OnRecord c) : OnRecord c' := by
  refine h.invariant ?_ hc
  rintro s u t hs rfl
  exact onRecord_update hs u

theorem keeps_run (h : Run Updates c updates c') (hc : OnRecord c) : Keeps c c' := by
  refine h.relates (I := OnRecord) ?_ ?_ ?_ ?_ hc
  · rintro s u t hs rfl
    exact onRecord_update hs u
  · exact fun s => ⟨fun _ hid => hid, fun _ hh _ => hh⟩
  · exact fun s t u hst htu => ⟨fun id hid => htu.present id (hst.present id hid),
      fun h hh hover => htu.settled h (hst.settled h hh hover) hover⟩
  · rintro s u t hs rfl
    exact keeps_update hs u

/-- **Hypotheses are never revived, dropped or changed off the record**: not by the updates so far,
not by any that come later, and not by the next one. -/
theorem hypotheses_on_record (hinit : Validated initial)
    (hrun : Run Updates (Course.start initial) updates c) :
    OnRecord c ∧ (∀ later c', Run Updates c later c' → Keeps c c') ∧ ∀ u, Lawful c u := by
  have hc := onRecord_run hrun (start_onRecord hinit)
  exact ⟨hc, fun later c' hlater => keeps_run hlater hc, fun u => lawful_update hc u⟩

/-- A hypothesis that an update falsifies, on a reference of the context. -/
def beaconHypothesis : MioHypothesis :=
  { hypothesisId := pyStr "h1", statement := pyStr "a beacon"
    falsificationConditions := [pyStr "no periodic flow"] }

/-- The update. -/
def beaconUpdate : Update where
  proposed := [{ beaconHypothesis with
    status := .falsified, contradictingEvidenceRefs := [pyStr "ev:flow:1"] }]
  allowedRefs := some [pyStr "ev:flow:1"]
  nodup := by simp [ids]

theorem hypotheses_on_record_beacon :
    OnRecord ((Course.start [beaconHypothesis]).update beaconUpdate) ∧
      (∀ later c', Run Updates ((Course.start [beaconHypothesis]).update beaconUpdate) later c' →
        Keeps ((Course.start [beaconHypothesis]).update beaconUpdate) c') ∧
      ∀ u, Lawful ((Course.start [beaconHypothesis]).update beaconUpdate) u :=
  hypotheses_on_record 
    ⟨by simp [ids], by simp [beaconHypothesis, entryHypothesisStatuses]⟩ (Run.single rfl)

end AzazelEdge.Mio
