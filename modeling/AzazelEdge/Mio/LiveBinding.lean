/-
# The binding of a live advisory

Which complete results satisfy `binding_matches_same_envelope`, for the events that the core emits.
The words of an enforcement record are those of `maybe_enforce_with` of `main.rs`; `_EDGE_RESULTS` has
all of them but one, `partial_failure`, so that the projection drops it and the binding of its job is a
mismatch.  Everything else that is published holds in every run of sane events.
-/
import AzazelEdge.Audit.Verified
import AzazelEdge.Mio.LatestOnly
import AzazelEdge.Release.Engine
import AzazelEdge.Release.Plan

namespace AzazelEdge.Mio.Live

open AzazelEdge.Lib AzazelEdge.Lib.Py AzazelEdge.Audit AzazelEdge.Decision

/-! ## 1. The words of the core -/

/-- `decide_defense`. -/
def decideDefense (ev : Release.NormalizedEvent) : Release.DefensiveDecision :=
  if ev.severity ≤ 1 then
    { action := "throttle"
      reason := s!"critical severity sid={ev.sid}"
      policyReason := "severity_critical_strict_flow_restriction"
      delayMs := 0
      target := ev.srcIp }
  else if ev.severity ≤ 2 then
    { action := "redirect"
      reason := s!"high severity sid={ev.sid}"
      policyReason := "severity_high_redirect_to_decoy"
      delayMs := 800
      target := s!"{ev.srcIp}:{ev.targetPort}" }
  else if ev.severity = 3 then
    { action := "throttle"
      reason := s!"elevated severity sid={ev.sid}"
      policyReason := "severity_elevated_throttle_reversible"
      delayMs := 1000
      target := ev.srcIp }
  else if ev.severity = 4 then
    { action := "notify"
      reason := s!"moderate severity sid={ev.sid}"
      policyReason := "severity_moderate_operator_notification"
      delayMs := 0
      target := ev.srcIp }
  else
    { action := "observe"
      reason := "normal baseline telemetry"
      policyReason := "baseline_observe_only"
      delayMs := 0
      target := ev.srcIp }

/-- What `maybe_enforce_with` asks, and what it is answered. -/
structure Attempt where
  /-- The commands of the plan, and whether each would succeed. -/
  commands : List Bool
  /-- `defense_dry_run`. -/
  dryRun : Bool
  /-- `should_execute_action`. -/
  allowed : Bool
  /-- `execution_safety_refusal` refuses nothing. -/
  safe : Bool
  /-- The plan has a release task. -/
  owned : Bool
  /-- `admit_release_task`. -/
  admission : Except String Release.Admission
  readback : Except String Bool

/-- The commands up to the first that fails: how many were executed, and whether one failed. -/
def applyAll : List Bool → ℕ × Bool
  | [] => (0, false)
  | false :: _ => (0, true)
  | true :: rest => ((applyAll rest).1 + 1, (applyAll rest).2)

/-- The owned state reads back as planned. -/
def Attempt.confirmed (a : Attempt) : Bool :=
  !(applyAll a.commands).2 && decide (0 < (applyAll a.commands).1) && Release.readbackConfirms a.readback

/-- The result of an apply. -/
def Attempt.applied (a : Attempt) : String :=
  if a.confirmed then "applied"
  else if 0 < (applyAll a.commands).1 then "partial_failure"
  else "failed"

/-- The mode and the result of `maybe_enforce_with`. -/
def maybeEnforceWith (a : Attempt) : String × String :=
  if a.commands = [] then ("disabled", "no_disruptive_action")
  else if a.dryRun || !a.allowed then
    (if a.dryRun then "dry_run" else "policy_gated", "planned_not_applied")
  else if a.safe = false then ("policy_gated", "planned_not_applied")
  else if a.owned = false then ("release_guard_failed", "planned_not_applied")
  else match a.admission with
    | .ok (.extended ..) => ("enforced", "extended")
    | .ok (.cooldown _) => ("policy_gated", "planned_not_applied")
    | .ok (.alreadyHeld ..) => ("enforced", "already_held")
    | .error _ => ("release_guard_failed", "planned_not_applied")
    | .ok (.prepared _) => ("enforced", a.applied)

theorem decideDefense_action (ev : Release.NormalizedEvent) :
    (decideDefense ev).action ∈ ["observe", "notify", "throttle", "redirect", "isolate"] := by
  unfold decideDefense
  split_ifs <;> simp

theorem maybeEnforceWith_mode (a : Attempt) : (maybeEnforceWith a).1 ∈
    ["disabled", "dry_run", "policy_gated", "release_guard_failed", "enforced"] := by
  unfold maybeEnforceWith
  split_ifs
  · simp
  · simp
  · simp
  · simp
  · simp
  · split <;> simp

theorem maybeEnforceWith_result (a : Attempt) : (maybeEnforceWith a).2 = "partial_failure" ∨
    (maybeEnforceWith a).2 ∈ ["no_disruptive_action", "planned_not_applied", "extended",
      "already_held", "applied", "failed", "uncertain"] := by
  unfold maybeEnforceWith
  split_ifs
  · simp
  · simp
  · simp
  · simp
  · simp
  · split
    · simp
    · simp
    · simp
    · simp
    · unfold Attempt.applied
      split_ifs <;> simp

theorem partialFailure_unknown : pyStr "partial_failure" ∉ edgeResults := by decide

/-- **The vocabulary misses one word of the core.** -/
theorem result_known_iff (a : Attempt) :
    pyStr (maybeEnforceWith a).2 ∈ edgeResults ↔ (maybeEnforceWith a).2 ≠ "partial_failure" := by
  constructor
  · rintro hmem heq
    rw [heq] at hmem
    exact partialFailure_unknown hmem
  · exact fun hne => List.mem_map_of_mem ((maybeEnforceWith_result a).resolve_left hne)

/-! ## 2. Events of the core -/

section Core

variable {F : Type} [PyFloat F] [PyRepr F] [PyConvert F]

/-- An event that the core emits for an alert, with a safe event type, sid and trace id. -/
structure FromCore (ev : Release.NormalizedEvent) (attempt : Attempt) (event : Row F) : Prop where
  action : getKey kAction (mapping kDefense event) = some (.str (pyStr (decideDefense ev).action))
  mode : getKey kMode (mapping kEnforcement event) = some (.str (pyStr (maybeEnforceWith attempt).1))
  result : getKey kResult (mapping kEnforcement event) =
    some (.str (pyStr (maybeEnforceWith attempt).2))
  trace : ∃ t, getKey kTraceId (mapping kEnforcement event) = some (.str t) ∧ safeTrace t = true
  named : (field kEventType (contextFields (mapping kNormalized event))).isSome = true ∧
    (field kSid (contextFields (mapping kNormalized event))).isSome = true

/-- A job whose event has what the check of the binding asks of it, but for its result. -/
structure Job.Bindable (job : Job F) : Prop where
  eventKey : job.sourceContext.eventKey ≠ []
  action : job.edgeEvent.action.any (· ∈ edgeActions) = true
  mode : job.edgeEvent.mode.any (· ∈ edgeModes) = true
  trace : job.edgeEvent.traceId = some (job.sourceTraceId.take 96)
  safe : safeTrace (job.sourceTraceId.take 96) = true

omit [PyFloat F] [PyRepr F] [PyConvert F] in
theorem project_inVocabulary {allowed : List PyStr} {s : PyStr} {value : Option (PyJson F)}
    (hvalue : value = some (.str s)) :
    (project (inVocabulary allowed) value).1 = if s ∈ allowed then some s else none := by
  rw [hvalue]
  rfl

omit [PyFloat F] [PyRepr F] in
theorem lower_action [PyCase F] {action : String}
    (h : action ∈ ["observe", "notify", "throttle", "redirect", "isolate"]) :
    PyConvert.lower F (pyStr action) = pyStr action := by
  simp only [List.mem_cons, List.not_mem_nil, or_false] at h
  rcases h with rfl | rfl | rfl | rfl | rfl <;> exact lower_small (by decide)

omit [PyRepr F] in
theorem eventKey_ne_nil {event : Row F}
    (hnamed : (field kEventType (contextFields (mapping kNormalized event))).isSome = true ∧
      (field kSid (contextFields (mapping kNormalized event))).isSome = true) :
    (sourceContext event).eventKey ≠ [] := by
  unfold sourceContext
  dsimp only
  rw [if_pos (by rw [hnamed.1, hnamed.2]; rfl)]
  intro hnil
  rcases List.take_eq_nil_iff.mp hnil with h | h
  · cases h
  · exact (hexDigest_hexdigest _).1 h

/-- The job of an event of the core. -/
theorem bindable_jobOf [PyCase F] {ev : Release.NormalizedEvent} {attempt : Attempt} {event : Row F}
    (h : FromCore ev attempt event) (generation : ℕ) : (jobOf event generation).Bindable := by
  obtain ⟨t, htrace, hsafe⟩ := h.trace
  have hlength : t.length ≤ 96 := by
    simp only [safeTrace, Bool.and_eq_true, decide_eq_true_eq] at hsafe
    exact hsafe.1.2
  have hsource : (jobOf event generation).sourceTraceId = t := by
    rw [jobOf, htrace, strOr_str, List.take_of_length_le hlength]
  have htake : (jobOf event generation).sourceTraceId.take 96 = t := by
    rw [hsource, List.take_of_length_le hlength]
  refine ⟨eventKey_ne_nil h.named, ?_, ?_, ?_, htake ▸ hsafe⟩
  · have hmem : pyStr (decideDefense ev).action ∈ edgeActions :=
      List.mem_map_of_mem (decideDefense_action ev)
    have haction : (safeEdgeEvent event).action = some (pyStr (decideDefense ev).action) := by
      simp only [safeEdgeEvent, h.action, project, inVocabulary]
      rw [lower_action (decideDefense_action ev), if_pos hmem]
    rw [jobOf, haction]
    exact decide_eq_true hmem
  · have hmem : pyStr (maybeEnforceWith attempt).1 ∈ edgeModes :=
      List.mem_map_of_mem (maybeEnforceWith_mode attempt)
    have hmode : (safeEdgeEvent event).mode = some (pyStr (maybeEnforceWith attempt).1) :=
      (project_inVocabulary h.mode).trans (if_pos hmem)
    rw [jobOf, hmode]
    exact decide_eq_true hmem
  · rw [htake]
    simp only [jobOf, safeEdgeEvent, htrace, project]
    exact if_pos hsafe

/-- The result of the core's event is projected unless it is the word that is missing. -/
theorem result_jobOf {ev : Release.NormalizedEvent} {attempt : Attempt} {event : Row F}
    (h : FromCore ev attempt event) (generation : ℕ) :
    (jobOf event generation).edgeEvent.result.any (· ∈ edgeResults) = true ↔
      (maybeEnforceWith attempt).2 ≠ "partial_failure" := by
  have hresult : (jobOf event generation).edgeEvent.result =
      if pyStr (maybeEnforceWith attempt).2 ∈ edgeResults then some (pyStr (maybeEnforceWith attempt).2)
      else none := project_inVocabulary h.result
  rw [hresult, ← result_known_iff]
  split_ifs with hmem
  · exact iff_of_true (decide_eq_true hmem) hmem
  · exact iff_of_false Bool.false_ne_true hmem

end Core

/-! ## 3. Complete results -/

section Complete

variable {F : Type}

/-- An envelope that is not complete and says nothing of an event. -/
structure Envelope.Bare (e : Envelope F) : Prop where
  status : e.status ≠ sComplete
  edgeEvent : e.edgeEvent = .empty
  context : e.sourceContext = none
  binding : e.handoffBinding = none

theorem unavailable_status (reason : PyStr) : (unavailable reason : Envelope F).status ≠ sComplete := by
  unfold unavailable
  dsimp only
  split_ifs <;> decide

theorem bare_unavailable (reason : PyStr) : (unavailable reason : Envelope F).Bare :=
  ⟨unavailable_status reason, rfl, rfl, rfl⟩

/-- `valid` does not matter. -/
theorem bindingMatches_valid {e : Envelope F} {b : Binding} (hb : e.handoffBinding = some b)
    (valid : Option Bool) :
    bindingMatches { e with handoffBinding := some { b with valid := valid } } = bindingMatches e := by
  unfold bindingMatches
  rw [hb]
  dsimp only
  cases e.sourceContext <;> rfl

theorem bindingMatches_mismatch (e : Envelope F) (b : Binding) (valid : Option Bool) :
    bindingMatches { e with
      handoffBinding := some { b with status := pyStr "mismatch", valid := valid } } = false := by
  have hne : decide (pyStr "mismatch" = sMatched) = false := by decide
  unfold bindingMatches
  cases e.sourceContext with
  | none => rfl
  | some context =>
    dsimp only
    rw [hne, Bool.and_false]

/-- The knowledge advisory does not matter. -/
theorem bindingMatches_knowledge (e : Envelope F) (advisory : Option (Row F)) :
    bindingMatches { e with knowledgeAdvisory := advisory } = bindingMatches e := by
  unfold bindingMatches
  rfl

/-- **The mark of a result says whether its binding matches.** -/
theorem bindingMatches_withValid (e : Envelope F) : bindingMatches (withValid e) = bindingMatches e := by
  unfold withValid
  cases hb : e.handoffBinding with
  | none =>
    unfold bindingMatches
    rw [hb]
    rfl
  | some b =>
    rw [Option.map_some]
    split_ifs with hmatches
    · rw [bindingMatches_valid hb]
    · rw [bindingMatches_mismatch, Bool.eq_false_iff.mpr hmatches]

variable [PyFloat F] [PyRepr F]

/-- The ids of an advisory are strings. -/
def StringIds (advisory : Row F) : Prop :=
  (∃ s, getKey kTraceId advisory = some (.str s)) ∧ ∃ s, getKey kFrameId advisory = some (.str s)

theorem isStr_strOr (value : Option (PyJson F)) :
    isStr (strOr value) value = true ↔ ∃ s, value = some (.str s) := by
  constructor
  · rintro h
    match value with
    | some (.str s) => exact ⟨s, rfl⟩
    | none | some .null | some (.bool _) | some (.int _) | some (.float _) | some (.arr _)
    | some (.obj _) => cases h
  · rintro ⟨s, rfl⟩
    rw [strOr_str]
    exact decide_eq_true rfl

omit [PyFloat F] [PyRepr F] in
theorem getKey_trace_popKey (advisory : Row F) :
    getKey kTraceId (popKey kReceipt advisory) = getKey kTraceId advisory := by
  have hne : kReceipt ≠ kTraceId := by decide
  rw [getKey_popKey, if_neg hne]

omit [PyFloat F] [PyRepr F] in
theorem getKey_frame_popKey (advisory : Row F) :
    getKey kFrameId (popKey kReceipt advisory) = getKey kFrameId advisory := by
  have hne : kReceipt ≠ kFrameId := by decide
  rw [getKey_popKey, if_neg hne]

omit [PyFloat F] [PyRepr F] in
theorem stringIds_popKey (advisory : Row F) : StringIds (popKey kReceipt advisory) ↔ StringIds advisory := by
  rw [StringIds, getKey_trace_popKey, getKey_frame_popKey, StringIds]

/-- **When the binding of a complete result matches.** -/
theorem bindingMatches_completeResult {job : Job F} (h : job.Bindable) (assistance : Row F)
    (knowledge : PyStr) : bindingMatches (completeResult job assistance knowledge) = true ↔
      job.edgeEvent.result.any (· ∈ edgeResults) = true ∧ StringIds assistance := by
  have hids : isStr (strOr (getKey kTraceId assistance)) (getKey kTraceId assistance) &&
      isStr (strOr (getKey kFrameId assistance)) (getKey kFrameId assistance) ↔ StringIds assistance := by
    rw [Bool.and_eq_true, isStr_strOr, isStr_strOr, StringIds]
  rw [← hids]
  simp [bindingMatches, completeResult, h.eventKey, h.action, h.mode, h.trace, h.safe]

variable [PyConvert F] [PyArith F]

omit [PyRepr F] [PyConvert F] in
theorem withKnowledge_status (job : Job F) (e : Envelope F) :
    (withKnowledge job e).status = e.status := by
  unfold withKnowledge
  split <;> rfl

variable {cfg : Config F} {events : List (Event F)} {job : Job F}

omit [PyRepr F] [PyConvert F] in
theorem finishJob_complete {e : Envelope F} (h : (finishJob cfg job e).status = sComplete) :
    e.status = sComplete ∧ finishJob cfg job e = withValid (withBinding job (withKnowledge job e)) := by
  unfold finishJob at h ⊢
  dsimp only at h ⊢
  split_ifs at h ⊢ with hsize
  · exact absurd h (@unavailable_status F (pyStr "result_too_large"))
  · exact ⟨(withKnowledge_status job e).symm.trans h, rfl⟩

omit [PyConvert F] [PyArith F] in
theorem assisted_cases (cfg : Config F) (job : Job F) (a : Assistance F) :
    (assisted cfg job a).Bare ∨ ∃ assistance knowledge, a.value = .obj assistance ∧
      assisted cfg job a = completeResult job assistance knowledge := by
  unfold assisted
  by_cases hsize : maxResultBytes < (text (sortKeys a.value)).length
  · rw [if_pos hsize]
    exact .inl (bare_unavailable _)
  · rw [if_neg hsize]
    cases a.value with
    | obj assistance =>
      dsimp only
      by_cases hnamed : a.named = false
      · rw [if_pos hnamed]
        exact .inl (bare_unavailable _)
      · rw [if_neg hnamed]
        cases knowledgeStatus cfg assistance with
        | none =>
          exact .inl ⟨@unavailable_status F (pyStr "invalid_knowledge_status"), rfl, rfl, rfl⟩
        | some knowledge => exact .inr ⟨assistance, knowledge, rfl, rfl⟩
    | _ => exact .inl (bare_unavailable _)

omit [PyConvert F] in
/-- A complete result loses the knowledge advisory of the package. -/
theorem bound_completeResult (job : Job F) (assistance : Row F) (knowledge : PyStr) : ∃ advisory,
    withBinding job (withKnowledge job (completeResult job assistance knowledge)) =
      { completeResult job (popKey kReceipt assistance) knowledge with
        knowledgeAdvisory := advisory } := by
  refine ⟨(projectKnowledgeAdvisory (genText job.generation) (job.sourceTraceId.take 96)
    (getKey kReceipt assistance)).or none, ?_⟩
  simp only [completeResult, getKey_trace_popKey, getKey_frame_popKey]
  rfl

omit [PyConvert F] [PyArith F] in
/-- A result is bare, or it is complete and made of an answer of the package. -/
theorem OwnResult.bare_or_complete {e : Envelope F} (h : OwnResult cfg events job e) :
    e.Bare ∨ ∃ a assistance knowledge, .explain false (.returned a) ∈ events ∧
      a.value = .obj assistance ∧ e = completeResult job assistance knowledge := by
  induction h with
  | noPackage => exact .inl (bare_unavailable _)
  | stale => exact .inl (bare_unavailable _)
  | failure name => exact .inl (bare_unavailable _)
  | assisted a ha =>
    obtain hbare | ⟨assistance, knowledge, hvalue, heq⟩ := assisted_cases cfg job a
    · exact .inl hbare
    · exact .inr ⟨a, assistance, knowledge, ha, hvalue, heq⟩

omit [PyConvert F] in
/-- **The binding of a complete result that is published**, in terms of the projected event and of
what the package returned. -/
theorem produced_complete (hbindable : job.Bindable) {result : Envelope F}
    (h : Produced cfg events job result) (hcomplete : result.status = sComplete) :
    ∃ a assistance, .explain false (.returned a) ∈ events ∧ a.value = .obj assistance ∧
      (bindingMatches result = true ↔
        job.edgeEvent.result.any (· ∈ edgeResults) = true ∧ StringIds assistance) := by
  obtain ⟨e, hown, hresult⟩ := h
  rw [hresult] at hcomplete
  obtain ⟨he, hfinish⟩ := finishJob_complete hcomplete
  obtain ⟨a, assistance, knowledge, ha, hvalue, hassisted⟩ :=
    hown.bare_or_complete.resolve_left fun hbare => hbare.status he
  obtain ⟨advisory, hbound⟩ := bound_completeResult job assistance knowledge
  refine ⟨a, assistance, ha, hvalue, ?_⟩
  rw [hresult, hfinish, bindingMatches_withValid, hassisted, hbound, bindingMatches_knowledge,
    bindingMatches_completeResult hbindable, stringIds_popKey]

end Complete

/-! ## 4. Whose result it is -/

section Belongs

variable {F : Type} [PyFloat F] [PyRepr F] [PyConvert F] [PyArith F]

/-- What an envelope says of an event, it says of the job's. -/
structure Own (job : Job F) (e : Envelope F) : Prop where
  edgeEvent : e.edgeEvent = job.edgeEvent ∨ e.edgeEvent = .empty
  context : ∀ c, e.sourceContext = some c → c = job.sourceContext
  binding : ∀ b, e.handoffBinding = some b →
    b.generation = genText job.generation ∧ b.eventKey = job.sourceContext.eventKey

/-- An envelope belongs to a job. -/
structure OfJob (job : Job F) (e : Envelope F) : Prop extends Own job e where
  generation : e.generation = genText job.generation
  traceId : e.traceId = job.sourceTraceId.take 96

variable {cfg : Config F} {events : List (Event F)} {job : Job F} {e : Envelope F}

omit [PyFloat F] [PyRepr F] [PyConvert F] [PyArith F] in
theorem Envelope.Bare.own (h : e.Bare) (job : Job F) : Own job e := by
  refine ⟨.inr h.edgeEvent, fun c hc => ?_, fun b hb => ?_⟩
  · cases h.context.symm.trans hc
  · cases h.binding.symm.trans hb

omit [PyConvert F] [PyArith F] in
theorem own_completeResult (job : Job F) (assistance : Row F) (knowledge : PyStr) :
    Own job (completeResult job assistance knowledge) := by
  refine ⟨.inl rfl, fun c hc => ?_, fun b hb => ?_⟩
  · exact (Option.some.inj hc).symm
  · rw [← Option.some.inj hb]
    exact ⟨rfl, rfl⟩

omit [PyRepr F] [PyConvert F] in
theorem Own.withKnowledge (h : Own job e) : Own job (withKnowledge job e) := by
  unfold Live.withKnowledge
  split
  · exact h
  · exact ⟨h.edgeEvent, h.context, h.binding⟩

omit [PyFloat F] [PyRepr F] [PyConvert F] [PyArith F] in
theorem Own.withBinding (h : Own job e) : OfJob job (withBinding job e) where
  edgeEvent := h.edgeEvent
  context := by
    intro c hc
    rcases Option.or_eq_some_iff.mp hc with hc | ⟨-, hc⟩
    · exact h.context c hc
    · exact (Option.some.inj hc).symm
  binding := by
    intro b hb
    rcases Option.or_eq_some_iff.mp hb with hb | ⟨-, hb⟩
    · exact h.binding b hb
    · rw [← Option.some.inj hb]
      exact ⟨rfl, rfl⟩
  generation := rfl
  traceId := rfl

omit [PyFloat F] [PyRepr F] [PyConvert F] [PyArith F] in
theorem OfJob.withValid (h : OfJob job e) : OfJob job (withValid e) where
  edgeEvent := h.edgeEvent
  context := h.context
  binding := by
    intro b hb
    obtain ⟨b', hb', rfl⟩ := Option.map_eq_some_iff.mp hb
    split_ifs <;> exact h.binding b' hb'
  generation := h.generation
  traceId := h.traceId

omit [PyRepr F] [PyConvert F] in
theorem ofJob_finishJob (cfg : Config F) (h : Own job e) : OfJob job (finishJob cfg job e) := by
  unfold finishJob
  dsimp only
  split_ifs
  · exact ⟨⟨.inl rfl, (fun c hc => nomatch hc), fun b hb => nomatch hb⟩, rfl, rfl⟩
  · exact h.withKnowledge.withBinding.withValid

omit [PyConvert F] in
/-- **What the worker makes of a job belongs to it.** -/
theorem ofJob_produced (h : Produced cfg events job e) : OfJob job e := by
  obtain ⟨e', hown, heq⟩ := h
  rw [heq]
  refine ofJob_finishJob cfg ?_
  obtain hbare | ⟨a, assistance, knowledge, -, -, hcomplete⟩ := hown.bare_or_complete
  · exact hbare.own job
  · rw [hcomplete]
    exact own_completeResult job assistance knowledge

omit [PyFloat F] [PyRepr F] [PyConvert F] [PyArith F] in
theorem queuedResult_status (job : Job F) : (queuedResult job).status ≠ sComplete := by
  change pyStr "queued" ≠ sComplete
  decide

omit [PyArith F] in
theorem ofJob_queuedResult (h : latest events = some job) : OfJob job (queuedResult job) := by
  obtain ⟨event, -, rfl⟩ := Option.map_eq_some_iff.mp h
  refine ⟨⟨.inl rfl, fun c hc => (Option.some.inj hc).symm, fun b hb => nomatch hb⟩, rfl, ?_⟩
  simp only [queuedResult, jobOf, List.take_take, Nat.min_self]

omit [PyFloat F] [PyRepr F] [PyConvert F] [PyArith F] in
theorem OfJob.snapshot {s : State F} (h : OfJob job s.result) (late : Bool) :
    OfJob job (snapshot s late).1 := by
  unfold Live.snapshot
  dsimp only
  split_ifs
  · exact h
  · exact ⟨⟨h.edgeEvent, h.context, h.binding⟩, h.generation, h.traceId⟩

end Belongs

/-! ## 5. Runs -/

section Runs

variable {F : Type} [PyFloat F] [PyRepr F] [PyConvert F] [PyArith F] [PyCase F] {cfg : Config F}
variable {s : State F} {events : List (Event F)}

/-- **The live advisory is latest-only and bound to its decision** in every run in which the package
does not exit and returns no `None` in time.  What readers see belongs to the last submission, and so
does the frame; an older job publishes nothing; a submission is lost only to a later one; the worker
lives.  A complete result satisfies the check of its binding exactly when the core's result is not
`partial_failure` and the ids that the package returned are strings. -/
theorem live_result_latest (h : Run (Step cfg) (newState F) events s) (hsane : ∀ e ∈ events, e.Sane) :
    (∀ job, s.lock = none → latest events = some job → job.generation = s.generation ∧
      s.resultGeneration = s.generation ∧ ∀ late, OfJob job (snapshot s late).1) ∧
    (∀ generation frame, frameSnapshotOf s generation = some frame →
      generation = genText s.generation ∧ FrameOf events s.generation frame) ∧
    (∀ job e s', s.worker.job = some job → job.generation ≠ s.generation → Step cfg s e s' →
      (e = .publish ∨ ∃ generation answer, e = .publishFrame generation answer) →
      s'.result = s.result ∧ s'.frameSnapshot = s.frameSnapshot) ∧
    (∀ job, s.lock = none → s.queue = none → s.worker.job = none → latest events = some job →
      Produced cfg events job s.result) ∧
    (∀ answer, .queued answer ∈ events → ∃ job, answer = receipt job true) ∧
    s.worker ≠ .dead ∧
    ∀ event ev attempt, (submissions events).getLast? = some event → FromCore ev attempt event →
      s.lock = none → s.result.status = sComplete →
      ∃ a assistance, .explain false (.returned a) ∈ events ∧ a.value = .obj assistance ∧
        (bindingMatches s.result = true ↔
          (maybeEnforceWith attempt).2 ≠ "partial_failure" ∧ StringIds assistance) := by
  have hthreads := threads_run h hsane
  have hown : ∀ job, s.lock = none → latest events = some job → OfJob job s.result := by
    intro job hlock hlatest
    obtain ⟨-, ⟨hqueued, -⟩ | hproduced⟩ := hthreads.published hlock job hlatest
    · rw [hqueued]
      exact ofJob_queuedResult hlatest
    · exact ofJob_produced hproduced
  refine ⟨fun job hlock hlatest => ?_, fun generation frame hframe => ?_, ?_, ?_,
    receipts_run h hsane, hthreads.alive, ?_⟩
  · exact ⟨hthreads.old_or_latest hlatest, (hthreads.published hlock job hlatest).1,
      (hown job hlock hlatest).snapshot⟩
  · unfold frameSnapshotOf at hframe
    split_ifs at hframe with hgeneration
    exact ⟨not_not.mp hgeneration, frame_run h hframe⟩
  · exact fun job e s' => older_publishes_nothing
  · intro job hlock hqueue hworker hlatest
    obtain ⟨-, ⟨-, hplace⟩ | hproduced⟩ := hthreads.published hlock job hlatest
    · rw [hqueue, hworker] at hplace
      simp at hplace
    · exact hproduced
  · intro event ev attempt hevent hcore hlock hcomplete
    have hlatest : latest events = some (jobOf event (submissions events).length) := by
      rw [latest, hevent, Option.map_some]
    obtain ⟨-, ⟨hqueued, -⟩ | hproduced⟩ := hthreads.published hlock _ hlatest
    · rw [hqueued] at hcomplete
      exact absurd hcomplete (queuedResult_status _)
    · rw [← result_jobOf hcore (submissions events).length]
      exact produced_complete (bindable_jobOf hcore _) hproduced hcomplete

end Runs

/-! ## 6. Samples -/

section Samples

variable {F : Type} [PyFloat F] [PyRepr F] [PyConvert F] [PyArith F]

/-- One submission, up to the reasoning. -/
def oneJob (event : Row F) : List (Event F) :=
  [.start (.returned ()), .begin event none, .put, .queued (receipt (jobOf event 1) true), .take,
    .frame false (.returned ()), .publishFrame 1 (.returned .null)]

/-- The worker reasons about the first job. -/
def reasoningState (event : Row F) : State F :=
  { newState F with
    generation := 1
    unfinished := 1
    result := queuedResult (jobOf event 1)
    resultGeneration := 1
    frameSnapshot := some .null
    core := true
    worker := .reasoning (jobOf event 1) }

theorem oneJob_run (cfg : Config F) (event : Row F) :
    Run (Step cfg) (newState F) (oneJob event) (reasoningState event) :=
  .head (.start _ _ rfl) (.head (.begin _ event none rfl) (.head (.put _ (jobOf event 1) rfl)
    (.head (.queued _ (jobOf event 1) true rfl) (.head (.take _ (jobOf event 1) rfl rfl)
      (.head (.frame _ (jobOf event 1) false _ rfl)
        (.single (.publishFrame _ (jobOf event 1) _ rfl rfl)))))))

/-- The first job is done and its result published. -/
def publishedState (cfg : Config F) (event : Row F) (result : Envelope F) : State F :=
  ((reasoningState event).finishing cfg (jobOf event 1) result).publishing (jobOf event 1)
    (finishJob cfg (jobOf event 1) result)

theorem publishedState_step (cfg : Config F) (event : Row F) (result : Envelope F) :
    Step cfg ((reasoningState event).finishing cfg (jobOf event 1) result) .publish
      (publishedState cfg event result) :=
  .publish _ (jobOf event 1) (finishJob cfg (jobOf event 1) result) rfl rfl

theorem oneJob_published (cfg : Config F) (event assistance : Row F) :
    Run (Step cfg) (newState F)
      (oneJob event ++ [.explain false (.returned ⟨.obj assistance, true⟩), .publish])
      (publishedState cfg event (assisted cfg (jobOf event 1) ⟨.obj assistance, true⟩)) := by
  have hexplain : Step cfg (reasoningState event) (.explain false (.returned ⟨.obj assistance, true⟩))
      ((reasoningState event).explaining cfg (jobOf event 1) false
        (.returned ⟨.obj assistance, true⟩)) :=
    .explain (reasoningState event) (jobOf event 1) false (.returned ⟨.obj assistance, true⟩) rfl
  have hstate : (reasoningState event).explaining cfg (jobOf event 1) false
      (.returned ⟨.obj assistance, true⟩) = (reasoningState event).finishing cfg (jobOf event 1)
        (assisted cfg (jobOf event 1) ⟨.obj assistance, true⟩) := by
    rw [State.explaining]
    rfl
  rw [hstate] at hexplain
  exact (oneJob_run cfg event).append
    (.head hexplain (.single (publishedState_step cfg event _)))

theorem publishedState_result (cfg : Config F) (event : Row F) (result : Envelope F) :
    (publishedState cfg event result).lock = none ∧
      (publishedState cfg event result).result = finishJob cfg (jobOf event 1) result := by
  rw [publishedState, publishing_latest (by exact Nat.one_ne_zero) (by rfl)]
  refine ⟨rfl, ?_⟩
  dsimp only

theorem oneJob_dies (cfg : Config F) (event : Row F) :
    Run (Step cfg) (newState F) (oneJob event ++ [.explain false (.returned ⟨.null, true⟩)])
      (reasoningState event).dying :=
  (oneJob_run cfg event).append (.single (.explain _ (jobOf event 1) false _ rfl))

end Samples

/-- An event of the core whose rule was inserted, and reads back like this. -/
def sampleEvent (readback : Bool) : Row Whole :=
  [(kNormalized, .obj [(kEventType, .str (pyStr "alert")), (kSid, .int 1)]),
    (kDefense, .obj [(kAction, .str (pyStr "throttle"))]),
    (kEnforcement, .obj [(kMode, .str (pyStr "enforced")),
      (kResult, .str (pyStr (if readback then "applied" else "partial_failure"))),
      (kTraceId, .str (pyStr "trace-0x1"))])]

def sampleAlert : Release.NormalizedEvent :=
  ⟨"2026-01-01T00:00:00Z", "10.0.0.5", "10.0.0.9", 1, 80, "tcp", 1⟩

def sampleAttempt (readback : Bool) : Attempt :=
  ⟨[true], false, true, true, true, .ok (.prepared Release.sampleTask), .ok readback⟩

def sampleConfig : Config Whole := ⟨⟨3⟩, [pyStr "not_attempted"]⟩

/-- What the package returns. -/
def sampleAdvisory : Row Whole :=
  [(kTraceId, .str (pyStr "trace-0x1")), (kFrameId, .str (pyStr "frame-1")),
    (pyStr "dependency_outcome", .obj [(pyStr "knowledge", .str (pyStr "not_attempted"))])]

theorem sample_fromCore (readback : Bool) :
    FromCore sampleAlert (sampleAttempt readback) (sampleEvent readback) := by
  refine ⟨rfl, rfl, ?_, ⟨_, rfl, by decide⟩, ?_⟩
  · cases readback <;> rfl
  · cases readback <;> decide +kernel

/-- The result that is published for the sample. -/
def sampleResult (readback : Bool) : Envelope Whole :=
  assisted sampleConfig (jobOf (sampleEvent readback) 1) ⟨.obj sampleAdvisory, true⟩

def sampleState (readback : Bool) : State Whole :=
  publishedState sampleConfig (sampleEvent readback) (sampleResult readback)

/-- The events of the sample. -/
def sampleEvents (readback : Bool) : List (Event Whole) :=
  oneJob (sampleEvent readback) ++
    [.explain false (.returned ⟨.obj sampleAdvisory, true⟩), .publish]

theorem sample_run (readback : Bool) :
    Run (Step sampleConfig) (newState Whole) (sampleEvents readback) (sampleState readback) :=
  oneJob_published _ _ _

theorem sample_sane (readback : Bool) : ∀ e ∈ sampleEvents readback, e.Sane := by
  simp [sampleEvents, oneJob, Event.Sane]

theorem sample_submission (readback : Bool) :
    (submissions (sampleEvents readback)).getLast? = some (sampleEvent readback) := rfl

theorem sample_complete (readback : Bool) :
    (finishJob sampleConfig (jobOf (sampleEvent readback) 1) (sampleResult readback)).status =
      sComplete := by
  cases readback <;> decide +kernel

theorem sample_result (readback : Bool) : (sampleState readback).lock = none ∧
    (sampleState readback).result.status = sComplete := by
  obtain ⟨hlock, hresult⟩ :=
    publishedState_result sampleConfig (sampleEvent readback) (sampleResult readback)
  refine ⟨hlock, ?_⟩
  rw [sampleState, hresult]
  exact sample_complete readback

/-- The binding of a rule that reads back as planned. -/
theorem live_result_latest_sample : bindingMatches (sampleState true).result = true := by
  obtain ⟨-, -, -, -, -, -, hbinding⟩ := live_result_latest (sample_run true) (sample_sane true)
  obtain ⟨a, assistance, hanswer, hvalue, hiff⟩ := hbinding _ sampleAlert (sampleAttempt true)
    (sample_submission true) (sample_fromCore true) (sample_result true).1 (sample_result true).2
  have ha : a = ⟨.obj sampleAdvisory, true⟩ := by
    simpa [sampleEvents, oneJob] using hanswer
  rw [ha] at hvalue
  cases hvalue
  exact hiff.mpr ⟨by decide, ⟨_, rfl⟩, _, rfl⟩

/-- **The binding is a mismatch** where a rule that was inserted does not read back as planned, though
the job is complete; and a `None` of the package that is not late ends the worker. -/
theorem partial_failure_mismatch :
    (¬ ∀ events s event ev attempt, Run (Step sampleConfig) (newState Whole) events s →
      (∀ e ∈ events, e.Sane) → (submissions events).getLast? = some event →
      FromCore ev attempt event → s.lock = none → s.result.status = sComplete →
      bindingMatches s.result = true) ∧
    ¬ ∀ events s, Run (Step sampleConfig) (newState Whole) events s → s.worker ≠ .dead := by
  refine ⟨fun h => ?_, fun h => h _ _ (oneJob_dies sampleConfig (sampleEvent true)) rfl⟩
  have hmatches := h _ _ _ sampleAlert (sampleAttempt false) (sample_run false) (sample_sane false)
    (sample_submission false) (sample_fromCore false) (sample_result false).1 (sample_result false).2
  have hproduced : Produced sampleConfig (sampleEvents false)
      (jobOf (sampleEvent false) 1) (sampleState false).result :=
    ⟨sampleResult false, .assisted ⟨.obj sampleAdvisory, true⟩ (by simp [sampleEvents]),
      (publishedState_result sampleConfig _ (sampleResult false)).2⟩
  obtain ⟨_, _, _, _, hiff⟩ := produced_complete (bindable_jobOf (sample_fromCore false) 1) hproduced
    (sample_result false).2
  exact (result_jobOf (sample_fromCore false) 1).mp (hiff.mp hmatches).1 (by decide)

end AzazelEdge.Mio.Live
