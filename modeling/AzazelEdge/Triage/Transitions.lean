/-
# The declared transitions

An answer and the key that it names are normalized by two functions, `normalizeAnswer` and
`normalizeTransitionKey`.  An answer is kept (`Kept`) when it moves the session to a state of the
flow, the same one in the audit and in the session, and to the declared target if it is a declared
key; `Follows` is what that takes.

For a session at a step both are the same (`answer_kept_iff`).
-/
import AzazelEdge.Lib.Edit
import AzazelEdge.Triage.Engine

namespace AzazelEdge.Triage

open AzazelEdge.Lib AzazelEdge.Lib.Py

section Transitions

variable {F : Type} [PyFloat F] [PyConvert F] [YamlRepr F]

/-! ## 1. Flows that are accepted -/

/-- An id as it is read: not empty, and without spaces around it. -/
def ReadId (id : PyStr) : Prop := id ≠ [] ∧ Decision.strip id = id

/-- What an accepted flow has. -/
structure ValidFlow (flow : TriageFlow F) : Prop where
  nodup : flow.stepIds.Nodup
  entry : flow.entryState ∈ flow.stepIds
  targets : ∀ step ∈ flow.steps, ∀ target ∈ step.targets, flow.HasTarget target
  stepIds : ∀ id ∈ flow.stepIds, ReadId id
  diagnosticIds : ∀ id ∈ flow.diagnosticIds, ReadId id

variable {flow : TriageFlow F} {step : TriageStep F} {payload : Yaml F}

theorem ensure_eq_ok {condition : Prop} [Decidable condition] {code : String} {ids : List PyStr}
    {u : Unit} : ensure condition code ids = .ok u ↔ condition := by
  unfold ensure
  split <;> simp_all

theorem orRaise_eq_ok {α : Type} {value : Option α} {a : α} :
    orRaise value = .ok a ↔ value = some a := by
  cases value <;> simp [orRaise]

theorem forM_eq_ok {α : Type} {items : List α} {f : α → Except TriageError Unit} {u : Unit} :
    items.forM f = .ok u ↔ ∀ item ∈ items, f item = .ok () := by
  induction items with
  | nil => simp [pure, Except.pure]
  | cons item items ih =>
    have hcons : (item :: items).forM f = f item >>= fun _ => items.forM f := rfl
    rw [hcons, List.forall_mem_cons, ← ih]
    constructor
    · intro h
      obtain ⟨_, hitem, hrest⟩ := bind_eq_ok h
      exact ⟨hitem, hrest⟩
    · rintro ⟨hitem, hrest⟩
      exact ok_of_bind hitem hrest

omit [PyConvert F] in
theorem readId_textAt {key default : String} {entries : List (Yaml F × Yaml F)}
    (h : textAt key default entries ≠ []) : ReadId (textAt key default entries) :=
  ⟨h, Decision.strip_strip _⟩

/-- A step has an id, and the transitions that are declared. -/
theorem fromDict_step {entries : List (Yaml F × Yaml F)}
    (h : TriageStep.fromDict (.map entries) = .ok step) :
    ReadId step.stepId ∧ ∃ declared, declaredKeys entries = some declared ∧
      step.transitionMap = dictOf (transitionItems declared) := by
  unfold TriageStep.fromDict at h
  obtain ⟨_, hentries, h⟩ := bind_eq_ok h
  obtain rfl := Except.ok.inj hentries
  obtain ⟨_, hid, h⟩ := bind_eq_ok h
  obtain ⟨_, -, h⟩ := bind_eq_ok h
  obtain ⟨_, -, h⟩ := bind_eq_ok h
  dsimp only at h
  split at h
  · cases h
  · obtain ⟨_, -, h⟩ := bind_eq_ok h
    obtain ⟨_, -, h⟩ := bind_eq_ok h
    obtain ⟨_, -, h⟩ := bind_eq_ok h
    obtain ⟨declared, hdeclared, h⟩ := bind_eq_ok h
    obtain ⟨_, -, h⟩ := bind_eq_ok h
    obtain ⟨_, -, h⟩ := bind_eq_ok h
    obtain rfl := Except.ok.inj h
    exact ⟨readId_textAt (ensure_eq_ok.mp hid), declared, orRaise_eq_ok.mp hdeclared, rfl⟩

omit [PyFloat F] [PyConvert F] [YamlRepr F] in
theorem fromDict_map {α : Type} {entries : Yaml F}
    {f : List (Yaml F × Yaml F) → Except TriageError α} {a : α}
    (h : asMapping entries >>= f = .ok a) : ∃ items, entries = .map items ∧ f items = .ok a := by
  obtain ⟨items, hitems, h⟩ := bind_eq_ok h
  cases entries with
  | map items' => exact ⟨items', rfl, Except.ok.inj hitems ▸ h⟩
  | _ => cases hitems

omit [PyConvert F] in
theorem fromDict_diagnostic {diagnostic : DiagnosticState}
    (h : DiagnosticState.fromDict payload = .ok diagnostic) : ReadId diagnostic.stateId := by
  obtain ⟨entries, -, h⟩ := fromDict_map h
  obtain ⟨_, hid, h⟩ := bind_eq_ok h
  dsimp only at h
  split at h
  · cases h
  · obtain rfl := Except.ok.inj h
    exact readId_textAt (ensure_eq_ok.mp hid)

theorem mapM_cons_eq_ok {α β : Type} {f : α → Except TriageError β} {item : α} {items : List α}
    {results : List β} (h : (item :: items).mapM f = .ok results) :
    ∃ result rest, f item = .ok result ∧ items.mapM f = .ok rest ∧ results = result :: rest := by
  rw [List.mapM_cons] at h
  obtain ⟨result, hresult, h⟩ := bind_eq_ok h
  obtain ⟨rest, hrest, h⟩ := bind_eq_ok h
  exact ⟨result, rest, hresult, hrest, (Except.ok.inj h).symm⟩

theorem mem_of_mapM {α β : Type} {f : α → Except TriageError β} {items : List α}
    {results : List β} {result : β} (h : items.mapM f = .ok results) (hresult : result ∈ results) :
    ∃ item ∈ items, f item = .ok result := by
  induction items generalizing results with
  | nil =>
    obtain rfl := Except.ok.inj h
    cases hresult
  | cons item items ih =>
    obtain ⟨first, rest, hfirst, hrest, rfl⟩ := mapM_cons_eq_ok h
    rcases List.mem_cons.mp hresult with rfl | hresult
    · exact ⟨item, List.mem_cons_self, hfirst⟩
    · obtain ⟨other, hother, hread⟩ := ih hrest hresult
      exact ⟨other, List.mem_cons_of_mem _ hother, hread⟩

theorem mapM_of_mem {α β : Type} {f : α → Except TriageError β} {items : List α}
    {results : List β} {item : α} {result : β} (h : items.mapM f = .ok results)
    (hitem : item ∈ items) (hresult : f item = .ok result) : result ∈ results := by
  induction items generalizing results with
  | nil => cases hitem
  | cons other items ih =>
    obtain ⟨first, rest, hfirst, hrest, rfl⟩ := mapM_cons_eq_ok h
    rcases List.mem_cons.mp hitem with rfl | hitem
    · rw [Except.ok.inj (hresult.symm.trans hfirst)]
      exact List.mem_cons_self
    · exact List.mem_cons_of_mem _ (ih hrest hitem)

/-- The steps that a flow's payload has, and what they are read as. -/
structure HasStep (payload : Yaml F) (entries : List (Yaml F × Yaml F)) (step : TriageStep F) :
    Prop where
  listed : ∃ members items, payload = .map members ∧ Yaml.listAt "steps" members = some items ∧
    .map entries ∈ items
  read : TriageStep.fromDict (.map entries) = .ok step

theorem fromDict_flow (h : TriageFlow.fromDict payload = .ok flow) :
    (∀ id ∈ flow.stepIds, ReadId id) ∧ (∀ id ∈ flow.diagnosticIds, ReadId id) ∧
      ∀ step, step ∈ flow.steps ↔ ∃ entries, HasStep payload entries step := by
  obtain ⟨members, hpayload, hflow⟩ := fromDict_map h
  subst hpayload
  obtain ⟨_, -, hflow⟩ := bind_eq_ok hflow
  obtain ⟨_, -, hflow⟩ := bind_eq_ok hflow
  obtain ⟨_, -, hflow⟩ := bind_eq_ok hflow
  obtain ⟨_, -, hflow⟩ := bind_eq_ok hflow
  obtain ⟨_, -, hflow⟩ := bind_eq_ok hflow
  obtain ⟨_, -, hflow⟩ := bind_eq_ok hflow
  obtain ⟨_, -, hflow⟩ := bind_eq_ok hflow
  obtain ⟨items, hitems, hflow⟩ := bind_eq_ok hflow
  obtain ⟨steps, hsteps, hflow⟩ := bind_eq_ok hflow
  obtain ⟨_, -, hflow⟩ := bind_eq_ok hflow
  obtain ⟨_, -, hflow⟩ := bind_eq_ok hflow
  obtain ⟨diagnostics, hdiagnostics, hflow⟩ := bind_eq_ok hflow
  obtain rfl := Except.ok.inj hflow
  refine ⟨fun id hid => ?_, fun id hid => ?_, ?_⟩
  · obtain ⟨step, hstep, rfl⟩ := List.mem_map.mp hid
    obtain ⟨item, -, hread⟩ := mem_of_mapM hsteps hstep
    obtain ⟨entries, rfl, -⟩ := fromDict_map hread
    exact (fromDict_step hread).1
  · obtain ⟨diagnostic, hdiagnostic, rfl⟩ := List.mem_map.mp hid
    obtain ⟨item, -, hread⟩ := mem_of_mapM hdiagnostics hdiagnostic
    exact fromDict_diagnostic hread
  · intro step
    constructor
    · intro hstep
      obtain ⟨item, hitem, hread⟩ := mem_of_mapM hsteps hstep
      obtain ⟨entries, rfl, -⟩ := fromDict_map hread
      refine ⟨entries, ⟨members, items, rfl, ?_, hitem⟩, hread⟩
      exact orRaise_eq_ok.mp hitems
    · rintro ⟨entries, ⟨members', items', heq, hlist, hmem⟩, hread⟩
      obtain rfl := Yaml.map.inj heq
      rw [hlist] at hitems
      obtain rfl : items' = items := Except.ok.inj hitems
      exact mapM_of_mem hsteps hmem hread

/-- What a flow file gives `from_dict`. -/
def flowPayload (env : TriageEnv F) (flowId : PyStr) : Option (Yaml F) :=
  (env.files flowId).map fun payload => if payload.truthy then payload else .map []

variable {env : TriageEnv F} {flowId : PyStr}

theorem loadFlow_valid (h : loadFlow env flowId = .ok flow) : ValidFlow flow ∧
    ∃ payload, flowPayload env flowId = some payload ∧ TriageFlow.fromDict payload = .ok flow := by
  unfold loadFlow at h
  split at h
  · cases h
  · rename_i payload hfile
    obtain ⟨read, hread, h⟩ := bind_eq_ok h
    obtain ⟨_, hnodup, h⟩ := bind_eq_ok h
    obtain ⟨_, hentry, h⟩ := bind_eq_ok h
    obtain ⟨_, htargets, h⟩ := bind_eq_ok h
    obtain rfl := Except.ok.inj h
    obtain ⟨hsteps, hdiagnostics, -⟩ := fromDict_flow hread
    refine ⟨⟨ensure_eq_ok.mp hnodup, ensure_eq_ok.mp hentry, ?_, hsteps, hdiagnostics⟩,
      _, ?_, hread⟩
    · intro step hstep target htarget
      exact ensure_eq_ok.mp (forM_eq_ok.mp (forM_eq_ok.mp htargets step hstep) target htarget)
    · rw [flowPayload, hfile]
      rfl

omit [PyFloat F] [PyConvert F] [YamlRepr F] in
theorem findStep_of_mem (h : ValidFlow flow) (hstep : step ∈ flow.steps) :
    findStep flow step.stepId = .ok step := by
  rw [findStep, find?_key h.nodup hstep]

omit [PyFloat F] [PyConvert F] [YamlRepr F] in
theorem findStep_of_id (h : ValidFlow flow) {stepId : PyStr} (hid : stepId ∈ flow.stepIds) :
    ∃ step ∈ flow.steps, step.stepId = stepId ∧ findStep flow stepId = .ok step := by
  obtain ⟨step, hstep, rfl⟩ := List.mem_map.mp hid
  exact ⟨step, hstep, rfl, findStep_of_mem h hstep⟩

omit [PyFloat F] [PyConvert F] [YamlRepr F] in
theorem findDiagnostic_eq_none_iff {stateId : PyStr} :
    findDiagnostic flow stateId = none ↔ stateId ∉ flow.diagnosticIds := by
  simp [findDiagnostic, TriageFlow.diagnosticIds, List.find?_eq_none]

omit [PyFloat F] [PyConvert F] [YamlRepr F] in
theorem findDiagnostic_eq_some {stateId : PyStr} {diagnostic : DiagnosticState}
    (h : findDiagnostic flow stateId = some diagnostic) :
    diagnostic.stateId = stateId ∧ stateId ∈ flow.diagnosticIds := by
  have hid : diagnostic.stateId = stateId := by simpa using List.find?_some h
  exact ⟨hid, hid ▸ List.mem_map_of_mem (List.mem_of_find?_eq_some h)⟩

/-! ## 2. Sessions in the store -/

/-- The session is at a step of the flow. -/
structure AtStep (flow : TriageFlow F) (s : TriageSession F) : Prop where
  status : s.status = .active
  current : s.currentState ∈ flow.stepIds
  diagnostic : s.diagnosticState = []

/-- The session is at a diagnostic state of the flow. -/
structure AtDiagnostic (flow : TriageFlow F) (s : TriageSession F) : Prop where
  status : s.status = .diagnosticReady
  current : s.currentState = []
  diagnostic : s.diagnosticState ∈ flow.diagnosticIds

/-- A session that the store has, as it is read: of this id, one that can be written, and at a step
or a diagnostic state of the flow that its intent loads. -/
structure Placed (env : TriageEnv F) (w : TriageWorld F) (id : PyStr) (s : TriageSession F)
    (flow : TriageFlow F) : Prop where
  readId : ReadId id
  sessionId : s.sessionId = id
  get : w.get id = .ok (some s)
  storable : s.Storable
  loads : loadFlow env s.selectedIntent = .ok flow
  stands : AtStep flow s ∨ AtDiagnostic flow s

/-- The session moved to a target. -/
def MovedTo (flow : TriageFlow F) (s : TriageSession F) (target : PyStr) : Prop :=
  if target ∈ flow.diagnosticIds then AtDiagnostic flow s ∧ s.diagnosticState = target
  else AtStep flow s ∧ s.currentState = target

/-- The target of an answered step. -/
def AuditRecord.target? : AuditRecord → Option PyStr
  | .stepAnswered _ _ _ _ _ target => some target
  | _ => none

/-- An answer names a declared key: up to the spaces around, it is the key, and of a single choice
also a value. -/
def Names (step : TriageStep F) (key : Yaml F) (answer : PyStr) : Prop :=
  Decision.strip answer = Decision.strip key.text ∧
    (step.answerType = .singleChoice →
      ∃ choice ∈ step.choices, choiceValue choice = Decision.strip answer)

/-- An answer is kept: no step is missing, the session moves to the target that the audit has, and
to the declared one, by the transition map, if the answer names a key. -/
structure Kept (env : TriageEnv F) (w : TriageWorld F) (id : PyStr) (flow : TriageFlow F)
    (step : TriageStep F) (declared : List (Yaml F × Yaml F)) (ans : PyStr) : Prop where
  found : ∀ stepId, (answer env w id ans).2 ≠ .error (stepNotFound flow stepId)
  moved : ∃ s target, (answer env w id ans).1.get id = .ok (some s) ∧ MovedTo flow s target ∧
    ((answer env w id ans).1.audit.drop w.audit.length).filterMap AuditRecord.target? = [target]
  declared : ∀ item ∈ declared, Names step item.1 ans →
    getItem (normalizeAnswer step ans) step.transitionMap = some item.2.text ∧
      ∃ s, (answer env w id ans).1.get id = .ok (some s) ∧ MovedTo flow s item.2.text

/-- The declared target of a normalized answer: that of the last key that has a target and is
normalized to it. -/
def declaredTarget (declared : List (Yaml F × Yaml F)) (normalized : PyStr) : Option PyStr :=
  ((declared.filter fun item =>
    Decision.strip item.2.text ≠ [] ∧ normalizeTransitionKey item.1 = normalized).getLast?).map
      fun item => item.2.text

/-- What it takes for an answer to be kept. -/
structure Follows (env : TriageEnv F) (s : TriageSession F) (flow : TriageFlow F)
    (step : TriageStep F) (declared : List (Yaml F × Yaml F)) (ans : PyStr) : Prop where
  intent : s.selectedIntent ≠ []
  answer : Encodable (normalizeAnswer step ans)
  target : Encodable (targetFor step (normalizeAnswer step ans))
  runbooks : targetFor step (normalizeAnswer step ans) ∈ flow.diagnosticIds → ∃ runbooks,
    env.select (targetFor step (normalizeAnswer step ans)) s.audience s.lang = .ok runbooks ∧
      ∀ runbook ∈ runbooks, Encodable runbook
  keys : ∀ item ∈ declared, Names step item.1 ans →
    declaredTarget declared (normalizeAnswer step ans) = some item.2.text

variable {w : TriageWorld F} {id ans : PyStr} {s : TriageSession F}
  {declared : List (Yaml F × Yaml F)}

/-! ## 3. What is written is read -/

/-- A session that reads as itself. -/
structure Tidy (s : TriageSession F) : Prop where
  sessionId : ReadId s.sessionId
  audience : s.audience ≠ []
  lang : s.lang ≠ []
  intent : Decision.strip s.selectedIntent = s.selectedIntent
  current : Decision.strip s.currentState = s.currentState
  diagnostic : Decision.strip s.diagnosticState = s.diagnosticState
  reason : Decision.strip s.handoffReason = s.handoffReason

theorem orDefault_ne_nil {value default : PyStr} (h : default ≠ []) :
    orDefault value default ≠ [] := by
  unfold orDefault
  split
  · exact h
  · assumption

omit [PyFloat F] [PyConvert F] [YamlRepr F] in
theorem reload_eq (h : Tidy s) : s.reload = .ok s := by
  have hid : ensure (Decision.strip s.sessionId ≠ []) "triage_session_id_required" [] = .ok () :=
    ensure_eq_ok.mpr (by rw [h.sessionId.2]; exact h.sessionId.1)
  unfold TriageSession.reload
  refine ok_of_bind hid (congrArg Except.ok ?_)
  rw [h.sessionId.2, h.intent, h.current, h.diagnostic, h.reason, orDefault, if_neg h.audience,
    orDefault, if_neg h.lang]

omit [PyFloat F] [PyConvert F] [YamlRepr F] in
/-- What is read is tidy. -/
theorem tidy_of_reload {stored : TriageSession F} (h : stored.reload = .ok s) : Tidy s := by
  unfold TriageSession.reload at h
  obtain ⟨_, hid, h⟩ := bind_eq_ok h
  obtain rfl := Except.ok.inj h
  exact ⟨⟨ensure_eq_ok.mp hid, Decision.strip_strip _⟩, orDefault_ne_nil (by decide),
    orDefault_ne_nil (by decide), Decision.strip_strip _, Decision.strip_strip _,
    Decision.strip_strip _, Decision.strip_strip _⟩

omit [PyFloat F] [PyConvert F] [YamlRepr F] in
theorem tidy_of_get (h : w.get id = .ok (some s)) : Tidy s := by
  unfold TriageWorld.get at h
  split at h
  · cases h
  · cases h
  · rename_i stored _
    cases hread : stored.reload with
    | error error =>
      rw [hread] at h
      cases h
    | ok read =>
      rw [hread] at h
      obtain rfl := Option.some_inj.mp (Except.ok.inj h)
      exact tidy_of_reload hread

/-- The file of a session after it was saved. -/
def savedFile (s : TriageSession F) : Option (TriageSession F) :=
  if s.Storable then some s else none

/-- A call that ends by saving a session: what the files and the audit are then. -/
structure Ends (w : TriageWorld F) (flow : TriageFlow F) (s : TriageSession F)
    (outcome : TriageWorld F × Except TriageError (TriageProgress F)) : Prop where
  store : outcome.1.store = setItem s.sessionId (savedFile s) w.store
  audit : ∃ records, outcome.1.audit = w.audit ++ records ∧
    records.filterMap AuditRecord.target? = []
  found : ∀ stepId, outcome.2 ≠ .error (stepNotFound flow stepId)

omit [PyFloat F] [PyConvert F] [YamlRepr F] in
theorem saveThen_ends {record : AuditRecord} {progress : TriageProgress F}
    (hrecord : record.target? = none) (hsession : progress.session = s) :
    Ends w flow s (saveThen w record progress) := by
  subst hsession
  unfold saveThen TriageWorld.save
  by_cases hs : progress.session.Storable
  · rw [if_pos hs]
    exact ⟨by simp [TriageWorld.log, savedFile, hs], ⟨[record], rfl, by simp [hrecord]⟩,
      fun _ h => by cases h⟩
  · rw [if_neg hs]
    exact ⟨by simp [savedFile, hs], ⟨[], by simp, rfl⟩, fun _ h => by simp [stepNotFound] at h⟩

omit [PyFloat F] [PyConvert F] [YamlRepr F] in
/-- What is logged before is not of another step. -/
theorem Ends.log {record : AuditRecord} (hrecord : record.target? = none)
    {outcome : TriageWorld F × Except TriageError (TriageProgress F)}
    (h : Ends (w.log record) flow s outcome) : Ends w flow s outcome := by
  obtain ⟨records, haudit, hnone⟩ := h.audit
  refine ⟨h.store, ⟨record :: records, ?_, ?_⟩, h.found⟩
  · rw [haudit, TriageWorld.log, List.append_assoc]
    rfl
  · rw [List.filterMap_cons, hrecord]
    exact hnone

/-- A session that is handed to a step. -/
def atNext (s : TriageSession F) (target : PyStr) : TriageSession F :=
  { s with currentState := target }

/-- A session that is diagnosed. -/
def atDiagnosis (s : TriageSession F) (target : PyStr) (runbooks : List PyStr) :
    TriageSession F :=
  { s with
    currentState := [], diagnosticState := target, status := .diagnosticReady
    proposedRunbooks := runbooks
    handoffReason := if target = pyStr "user_cannot_answer" then pyStr "insufficient_user_input"
      else s.handoffReason }

variable {target : PyStr} {runbooks : List PyStr}

omit [PyFloat F] [PyConvert F] [YamlRepr F] in
theorem advance_step (w : TriageWorld F) (env : TriageEnv F) (s : TriageSession F)
    (stepId : PyStr) (hflow : ValidFlow flow) (htarget : flow.HasTarget target)
    (hstep : target ∉ flow.diagnosticIds) :
    Ends w flow (atNext s target) (advance env w flow stepId s target) := by
  obtain ⟨next, -, rfl, hfind⟩ := findStep_of_id hflow (htarget.resolve_right hstep)
  rw [advance, findDiagnostic_eq_none_iff.mpr hstep, hfind]
  dsimp only [proceed]
  exact saveThen_ends rfl rfl

omit [PyFloat F] [PyConvert F] [YamlRepr F] in
theorem advance_diagnosis (w : TriageWorld F) (stepId : PyStr)
    (hdiagnostic : target ∈ flow.diagnosticIds)
    (hselect : env.select target s.audience s.lang = .ok runbooks) :
    Ends w flow (atDiagnosis s target runbooks) (advance env w flow stepId s target) := by
  cases hfind : findDiagnostic flow target with
  | none => exact absurd hdiagnostic (findDiagnostic_eq_none_iff.mp hfind)
  | some diagnostic =>
    obtain ⟨rfl, -⟩ := findDiagnostic_eq_some hfind
    rw [advance, hfind]
    simp only [diagnose, hselect, propose, atDiagnosis]
    split
    · refine Ends.log ?_ (Ends.log ?_ (Ends.log ?_ (saveThen_ends ?_ ?_))) <;> rfl
    · refine Ends.log ?_ (Ends.log ?_ (saveThen_ends ?_ ?_)) <;> rfl

omit [PyFloat F] [PyConvert F] [YamlRepr F] in
/-- Where no runbooks are selected, the files stay as they are. -/
theorem advance_refused (w : TriageWorld F) (stepId : PyStr) {error : TriageError}
    (hdiagnostic : target ∈ flow.diagnosticIds)
    (hselect : env.select target s.audience s.lang = .error error) :
    (advance env w flow stepId s target).1.store = w.store ∧
      ∃ records, (advance env w flow stepId s target).1.audit = w.audit ++ records ∧
        records.filterMap AuditRecord.target? = [] := by
  cases hfind : findDiagnostic flow target with
  | none => exact absurd hdiagnostic (findDiagnostic_eq_none_iff.mp hfind)
  | some diagnostic =>
    obtain ⟨rfl, -⟩ := findDiagnostic_eq_some hfind
    rw [advance, hfind]
    simp only [diagnose, hselect, TriageWorld.log]
    exact ⟨trivial, _, rfl, rfl⟩

/-! ## 4. The session after an answer -/

/-- The answer is put down in the session. -/
def putAnswer (s : TriageSession F) (stepId normalized : PyStr) : TriageSession F :=
  { s with answers := setItem stepId normalized s.answers }

variable {stepId n : PyStr}

omit [PyFloat F] [PyConvert F] [YamlRepr F] in
theorem storable_iff : s.Storable ↔
    (∀ text ∈ [s.sessionId, s.audience, s.lang, s.selectedIntent], Encodable text) ∧
      Encodable s.currentState ∧ Encodable s.diagnosticState ∧ Encodable s.handoffReason ∧
      (∀ text ∈ s.proposedRunbooks, Encodable text) ∧
      (∀ item ∈ s.answers, Encodable item.1 ∧ Encodable item.2) ∧
      ∀ item ∈ s.intentCandidates, Encodable item.intentId ∧ item.label.storable = true := by
  simp only [TriageSession.Storable, TriageSession.texts, List.forall_mem_append,
    List.forall_mem_cons, List.forall_mem_map, forall_and]
  tauto

omit [PyFloat F] [PyConvert F] [YamlRepr F] in
theorem encodable_putAnswer (h : s.Storable) (hid : Encodable stepId) :
    (∀ item ∈ (putAnswer s stepId n).answers, Encodable item.1 ∧ Encodable item.2) ↔
      Encodable n := by
  obtain ⟨-, -, -, -, -, hanswers, -⟩ := storable_iff.mp h
  refine (forall_setItem hanswers).trans ?_
  simp [hid]

omit [PyFloat F] [PyConvert F] [YamlRepr F] in
theorem storable_atNext (h : s.Storable) (hid : Encodable stepId) :
    (atNext (putAnswer s stepId n) target).Storable ↔ Encodable n ∧ Encodable target := by
  have hanswers := encodable_putAnswer (n := n) h hid
  obtain ⟨htexts, -, hdiagnostic, hreason, hrunbooks, -, hitems⟩ := storable_iff.mp h
  rw [storable_iff]
  constructor
  · rintro ⟨-, htarget, -, -, -, hall, -⟩
    exact ⟨hanswers.mp hall, htarget⟩
  · rintro ⟨hn, htarget⟩
    exact ⟨htexts, htarget, hdiagnostic, hreason, hrunbooks, hanswers.mpr hn, hitems⟩

omit [PyFloat F] [PyConvert F] [YamlRepr F] in
theorem storable_atDiagnosis (h : s.Storable) (hid : Encodable stepId) :
    (atDiagnosis (putAnswer s stepId n) target runbooks).Storable ↔
      Encodable n ∧ Encodable target ∧ ∀ runbook ∈ runbooks, Encodable runbook := by
  have hanswers := encodable_putAnswer (n := n) h hid
  obtain ⟨htexts, -, -, hreason, -, -, hitems⟩ := storable_iff.mp h
  have hreason' : Encodable (atDiagnosis (putAnswer s stepId n) target runbooks).handoffReason := by
    unfold atDiagnosis
    split
    · exact (by decide : Encodable (pyStr "insufficient_user_input"))
    · exact hreason
  have hnil : Encodable [] := by decide
  rw [storable_iff]
  constructor
  · rintro ⟨-, -, htarget, -, hrunbooks, hall, -⟩
    exact ⟨hanswers.mp hall, htarget, hrunbooks⟩
  · rintro ⟨hn, htarget, hrunbooks⟩
    exact ⟨htexts, hnil, htarget, hreason', hrunbooks, hanswers.mpr hn, hitems⟩

omit [PyFloat F] [PyConvert F] [YamlRepr F] in
theorem tidy_atNext (h : Tidy s) (htarget : ReadId target) :
    Tidy (atNext (putAnswer s stepId n) target) :=
  ⟨h.sessionId, h.audience, h.lang, h.intent, htarget.2, h.diagnostic, h.reason⟩

omit [PyFloat F] [PyConvert F] [YamlRepr F] in
theorem tidy_atDiagnosis (h : Tidy s) (htarget : ReadId target) :
    Tidy (atDiagnosis (putAnswer s stepId n) target runbooks) := by
  refine ⟨h.sessionId, h.audience, h.lang, h.intent, by rfl, htarget.2, ?_⟩
  have hreason : Decision.strip (pyStr "insufficient_user_input") =
      pyStr "insufficient_user_input" := by decide
  unfold atDiagnosis
  split
  · exact hreason
  · exact h.reason

omit [PyFloat F] [PyConvert F] [YamlRepr F] in
/-- A file that was saved, read. -/
theorem get_of_ends {outcome : TriageWorld F × Except TriageError (TriageProgress F)}
    (h : Ends w flow s outcome) (htidy : Tidy s) :
    outcome.1.get s.sessionId = if s.Storable then .ok (some s) else .error .jsonDecodeError := by
  rw [TriageWorld.get, h.store, getItem_setItem, if_pos rfl, savedFile]
  by_cases hs : s.Storable
  · rw [if_pos hs, if_pos hs]
    exact congrArg (Except.map some) (reload_eq htidy)
  · rw [if_neg hs, if_neg hs]

/-! ## 5. An answer is kept -/

/-- The record of an answered step. -/
def answeredRecord (s : TriageSession F) (step : TriageStep F) (n target : PyStr) : AuditRecord :=
  .stepAnswered s.sessionId s.selectedIntent step.stepId n step.stepId target

/-- The answer of an active session at a step. -/
theorem answer_eq (ans : PyStr) (h : Placed env w id s flow) (hat : AtStep flow s)
    (hstep : step ∈ flow.steps) (hcurrent : s.currentState = step.stepId) (hintent : s.selectedIntent ≠ []) :
    answer env w id ans =
      advance env (w.log (answeredRecord s step (normalizeAnswer step ans)
        (targetFor step (normalizeAnswer step ans)))) flow step.stepId
        (putAnswer s step.stepId (normalizeAnswer step ans))
        (targetFor step (normalizeAnswer step ans)) := by
  have hfind := findStep_of_mem (loadFlow_valid h.loads).1 hstep
  rw [answer, h.get]
  simp only [hat.status, not_true_eq_false, if_false, hintent, h.loads, hcurrent, hfind, ne_eq]
  rfl

theorem answer_blank (ans : PyStr) (h : Placed env w id s flow) (hat : AtStep flow s)
    (hintent : s.selectedIntent = []) : (answer env w id ans).1 = w := by
  rw [answer, h.get]
  simp [hat.status, hintent]

omit [PyFloat F] [PyConvert F] [YamlRepr F] in
theorem answered_target {outcome : TriageWorld F} {records : List AuditRecord}
    (haudit : outcome.audit = (w.log (answeredRecord s step n target)).audit ++ records)
    (hnone : records.filterMap AuditRecord.target? = []) :
    (outcome.audit.drop w.audit.length).filterMap AuditRecord.target? = [target] := by
  rw [haudit, TriageWorld.log, List.append_assoc, List.drop_left, List.filterMap_append, hnone]
  rfl

omit [PyFloat F] [PyConvert F] [YamlRepr F] in
theorem mem_of_getItem {key value : PyStr} {d : List (PyStr × PyStr)}
    (h : getItem key d = some value) : value ∈ d.map Prod.snd := by
  induction d with
  | nil => cases h
  | cons item rest ih =>
    obtain ⟨k, v⟩ := item
    rw [getItem] at h
    split at h
    · obtain rfl := Option.some_inj.mp h
      exact List.mem_cons_self
    · exact List.mem_cons_of_mem _ (ih h)

omit [PyFloat F] [PyConvert F] [YamlRepr F] in
theorem hasTarget_targetFor (hflow : ValidFlow flow) (hstep : step ∈ flow.steps) :
    flow.HasTarget (targetFor step n) := by
  refine hflow.targets step hstep _ ?_
  unfold targetFor TriageStep.targets
  cases hget : getItem n step.transitionMap with
  | none => simp
  | some target => exact List.mem_append_left _ (mem_of_getItem hget)

theorem getItem_transitionItems :
    getItem n (dictOf (transitionItems declared)) = declaredTarget declared n := by
  have hfilter : (declared.filter fun item => decide (Decision.strip item.2.text ≠ [])).filter
      (fun item => decide (normalizeTransitionKey item.1 = n)) =
      declared.filter fun item =>
        decide (Decision.strip item.2.text ≠ [] ∧ normalizeTransitionKey item.1 = n) := by
    rw [List.filter_filter]
    refine List.filter_congr fun item _ => ?_
    rw [Bool.decide_and, Bool.and_comm]
  rw [getItem_dictOf, transitionItems, List.filter_map, List.getLast?_map, Option.map_map,
    declaredTarget, ← hfilter]
  rfl

/-- The declared keys that an answer names have the target that it is normalized to. -/
def KeysFound (step : TriageStep F) (declared : List (Yaml F × Yaml F)) (ans n : PyStr) : Prop :=
  ∀ item ∈ declared, Names step item.1 ans → declaredTarget declared n = some item.2.text

/-- An answer that ends by saving a session at the target is kept when the session can be written
and the declared keys are found. -/
theorem kept_iff_storable {s' : TriageSession F}
    (hends : Ends (w.log (answeredRecord s step n target)) flow s' (answer env w id ans))
    (hid : s'.sessionId = id) (htidy : Tidy s') (hmoved : MovedTo flow s' target)
    (hn : normalizeAnswer step ans = n) (htarget : targetFor step n = target)
    (hmap : step.transitionMap = dictOf (transitionItems declared)) :
    Kept env w id flow step declared ans ↔ s'.Storable ∧ KeysFound step declared ans n := by
  have hfile := get_of_ends hends htidy
  rw [hid] at hfile
  have hfound : getItem n step.transitionMap = declaredTarget declared n := by
    rw [hmap, getItem_transitionItems]
  constructor
  · intro hkept
    refine ⟨?_, fun item hitem hnames => ?_⟩
    · obtain ⟨read, _, hget, -, -⟩ := hkept.moved
      by_contra hs
      rw [if_neg hs, hget] at hfile
      cases hfile
    · rw [← hfound, ← hn]
      exact (hkept.declared item hitem hnames).1
  · rintro ⟨hstorable, hkeys⟩
    rw [if_pos hstorable] at hfile
    obtain ⟨records, haudit, hnone⟩ := hends.audit
    refine ⟨hends.found, ⟨s', target, hfile, hmoved, answered_target haudit hnone⟩, ?_⟩
    intro item hitem hnames
    have hhit := hfound.trans (hkeys item hitem hnames)
    have htext : target = item.2.text := by
      rw [← htarget, targetFor, hhit]
      rfl
    rw [hn]
    exact ⟨hhit, s', hfile, htext ▸ hmoved⟩

/-- What the session needs to be written at a target. -/
def Writable (env : TriageEnv F) (s : TriageSession F) (flow : TriageFlow F) (n target : PyStr) :
    Prop :=
  Encodable n ∧ Encodable target ∧ (target ∈ flow.diagnosticIds → ∃ runbooks,
    env.select target s.audience s.lang = .ok runbooks ∧ ∀ runbook ∈ runbooks, Encodable runbook)

/-- Where an answer leads: the session is saved at the target, or no runbooks are selected and the
files stay as they are. -/
inductive Lands (env : TriageEnv F) (w : TriageWorld F) (flow : TriageFlow F) (s : TriageSession F)
    (step : TriageStep F) (n target : PyStr)
    (outcome : TriageWorld F × Except TriageError (TriageProgress F)) : Prop
  | saved {s' : TriageSession F} : Ends (w.log (answeredRecord s step n target)) flow s' outcome →
      s'.sessionId = s.sessionId → s'.selectedIntent = s.selectedIntent → Tidy s' →
      MovedTo flow s' target → (s'.Storable ↔ Writable env s flow n target) →
      Lands env w flow s step n target outcome
  | refused {error : TriageError} {records : List AuditRecord} : target ∈ flow.diagnosticIds →
      env.select target s.audience s.lang = .error error → outcome.1.store = w.store →
      outcome.1.audit = (w.log (answeredRecord s step n target)).audit ++ records →
      records.filterMap AuditRecord.target? = [] → Lands env w flow s step n target outcome

theorem answer_lands (ans : PyStr) (h : Placed env w id s flow) (hat : AtStep flow s)
    (hstep : step ∈ flow.steps) (hcurrent : s.currentState = step.stepId) (hintent : s.selectedIntent ≠ [])
    (hn : normalizeAnswer step ans = n) (ht : targetFor step n = target) :
    Lands env w flow s step n target (answer env w id ans) := by
  have hflow := (loadFlow_valid h.loads).1
  have htidy := tidy_of_get h.get
  have heq := answer_eq ans h hat hstep hcurrent hintent
  have hstepId : Encodable step.stepId := hcurrent ▸ (storable_iff.mp h.storable).2.1
  have htarget := hasTarget_targetFor (n := normalizeAnswer step ans) hflow hstep
  rw [hn, ht] at heq htarget
  have hread : ReadId target := htarget.elim (hflow.stepIds target) (hflow.diagnosticIds target)
  rw [heq]
  by_cases hdiagnostic : target ∈ flow.diagnosticIds
  · cases hselect : env.select target s.audience s.lang with
    | error error =>
      obtain ⟨hstore, records, haudit, hnone⟩ := advance_refused (s := putAnswer s step.stepId n)
        (w.log (answeredRecord s step n target)) step.stepId hdiagnostic hselect
      exact .refused hdiagnostic hselect hstore haudit hnone
    | ok runbooks =>
      refine .saved (advance_diagnosis _ _ hdiagnostic hselect) rfl rfl
        (tidy_atDiagnosis htidy hread) ?_ ?_
      · rw [MovedTo, if_pos hdiagnostic]
        exact ⟨⟨rfl, rfl, hdiagnostic⟩, rfl⟩
      · rw [storable_atDiagnosis h.storable hstepId, Writable]
        simp [hdiagnostic, hselect]
  · refine .saved (advance_step _ _ _ _ hflow htarget hdiagnostic) rfl rfl
      (tidy_atNext htidy hread) ?_ ?_
    · rw [MovedTo, if_neg hdiagnostic]
      exact ⟨⟨hat.status, htarget.resolve_right hdiagnostic, hat.diagnostic⟩, rfl⟩
    · rw [storable_atNext h.storable hstepId, Writable]
      simp [hdiagnostic]

/-- Where no runbooks are selected, the audit has a target that the session does not move to. -/
theorem not_kept_of_refused {records : List AuditRecord} (h : Placed env w id s flow)
    (hat : AtStep flow s) (hdiagnostic : target ∈ flow.diagnosticIds)
    (hstore : (answer env w id ans).1.store = w.store)
    (haudit : (answer env w id ans).1.audit =
      (w.log (answeredRecord s step n target)).audit ++ records)
    (hnone : records.filterMap AuditRecord.target? = []) :
    ¬ Kept env w id flow step declared ans := by
  intro hkept
  obtain ⟨read, target', hget, hmoved, htargets⟩ := hkept.moved
  rw [answered_target haudit hnone] at htargets
  obtain rfl : target = target' := (List.cons.inj htargets).1
  have hsame : (answer env w id ans).1.get id = w.get id := by
    unfold TriageWorld.get
    rw [hstore]
  rw [hsame, h.get] at hget
  obtain rfl := Option.some_inj.mp (Except.ok.inj hget)
  rw [MovedTo, if_pos hdiagnostic] at hmoved
  have hstatus := hmoved.1.status
  rw [hat.status] at hstatus
  cases hstatus

theorem follows_iff (hintent : s.selectedIntent ≠ []) (hn : normalizeAnswer step ans = n)
    (htarget : targetFor step n = target) : Follows env s flow step declared ans ↔
      Writable env s flow n target ∧ KeysFound step declared ans n := by
  subst hn htarget
  constructor
  · exact fun h => ⟨⟨h.answer, h.target, h.runbooks⟩, h.keys⟩
  · exact fun ⟨⟨hanswer, htarget, hrunbooks⟩, hkeys⟩ =>
      ⟨hintent, hanswer, htarget, hrunbooks, hkeys⟩

/-- **An answer at a step is kept exactly when it follows.** -/
theorem answer_kept_iff (h : Placed env w id s flow) (hat : AtStep flow s)
    (hstep : step ∈ flow.steps) (hcurrent : s.currentState = step.stepId)
    (hmap : step.transitionMap = dictOf (transitionItems declared)) :
    Kept env w id flow step declared ans ↔ Follows env s flow step declared ans := by
  by_cases hintent : s.selectedIntent = []
  · have hworld := answer_blank ans h hat hintent
    refine iff_of_false (fun hkept => ?_) fun hfollows => hfollows.intent hintent
    obtain ⟨_, _, -, -, haudit⟩ := hkept.moved
    rw [hworld, List.drop_length] at haudit
    cases haudit
  obtain ⟨n, hn⟩ : ∃ n, normalizeAnswer step ans = n := ⟨_, rfl⟩
  obtain ⟨target, ht⟩ : ∃ target, targetFor step n = target := ⟨_, rfl⟩
  rw [follows_iff hintent hn ht]
  cases answer_lands ans h hat hstep hcurrent hintent hn ht with
  | saved hends hsessionId _ htidy hmoved hstorable =>
    rw [kept_iff_storable hends (hsessionId.trans h.sessionId) htidy hmoved hn ht hmap, hstorable]
  | refused hdiagnostic hselect hstore haudit hnone =>
    refine iff_of_false (not_kept_of_refused h hat hdiagnostic hstore haudit hnone) ?_
    rintro ⟨⟨-, -, hrunbooks⟩, -⟩
    obtain ⟨runbooks, hok, -⟩ := hrunbooks hdiagnostic
    rw [hselect] at hok
    cases hok

end Transitions

end AzazelEdge.Triage
