/-
# Latest only

What is published belongs to the last submission, in every run of the threads: to its queued result as
long as the job is in the queue or with the worker, and then to what the worker made of it.  The worker
is alive as long as the package does not exit and does not return `None` in time (`Event.Sane`).
-/
import AzazelEdge.Mio.LiveAuxiliary

namespace AzazelEdge.Mio.Live

open AzazelEdge.Lib AzazelEdge.Lib.Py AzazelEdge.Audit AzazelEdge.Decision

variable {F : Type} [PyFloat F] [PyRepr F] [PyConvert F] [PyArith F]

/-! ## 1. Histories -/

/-- The events that were submitted. -/
def submissions (events : List (Event F)) : List (Row F) :=
  events.filterMap fun e => match e with
    | .begin event _ => some event
    | _ => none

/-- The job of the last submission. -/
def latest (events : List (Event F)) : Option (Job F) :=
  (submissions events).getLast?.map fun event => jobOf event (submissions events).length

/-- The package does not exit, and what it returns in time is not `None`. -/
def Event.Sane : Event F → Prop
  | .start .exits | .frame _ .exits | .publishFrame _ .exits | .explain _ .exits => False
  | .explain late (.returned a) => late = true ∨ a.value ≠ .null
  | _ => True

/-- What a job of its own can result in, with what the package returned in time. -/
inductive OwnResult (cfg : Config F) (events : List (Event F)) (job : Job F) : Envelope F → Prop
  | noPackage : OwnResult cfg events job (unavailable (pyStr "package_unavailable"))
  | stale : OwnResult cfg events job (unavailable (pyStr "stale_job"))
  | failure (name : PyStr) : OwnResult cfg events job (failed name)
  | assisted (a : Assistance F) : .explain false (.returned a) ∈ events →
      OwnResult cfg events job (assisted cfg job a)

/-- The worker publishes this for the job. -/
def Produced (cfg : Config F) (events : List (Event F)) (job : Job F) (result : Envelope F) : Prop :=
  ∃ e, OwnResult cfg events job e ∧ result = finishJob cfg job e

/-- The job that the worker has. -/
def Worker.job : Worker F → Option (Job F)
  | .took job | .framed job | .reasoning job | .done job _ => some job
  | .starting | .idle | .dead => none

/-- The job of the caller that holds the lock. -/
def Submitting.job : Submitting F → Job F
  | .put job | .takeBack job | .putAgain job | .publish job _ => job

variable {cfg : Config F} {s s' : State F} {e : Event F} {events events' : List (Event F)} {job : Job F}

omit [PyFloat F] [PyRepr F] [PyConvert F] [PyArith F] in
theorem mem_concat (events : List (Event F)) (e : Event F) : e ∈ events ++ [e] :=
  List.mem_append_right _ (List.mem_singleton_self e)

omit [PyRepr F] [PyConvert F] [PyArith F] [PyFloat F] in
theorem submissions_concat (events : List (Event F)) (e : Event F) :
    submissions (events ++ [e]) = submissions events ++ match e with
      | .begin event _ => [event]
      | _ => [] := by
  rw [submissions, List.filterMap_append]
  cases e <;> rfl

omit [PyArith F] in
theorem latest_generation (h : latest events = some job) :
    job.generation = (submissions events).length := by
  obtain ⟨event, -, rfl⟩ := Option.map_eq_some_iff.mp h
  rfl

omit [PyConvert F] [PyArith F] in
theorem OwnResult.mono {result : Envelope F} (h : OwnResult cfg events job result)
    (hsub : events ⊆ events') : OwnResult cfg events' job result := by
  induction h with
  | noPackage => exact .noPackage
  | stale => exact .stale
  | failure name => exact .failure name
  | assisted a ha => exact .assisted a (hsub ha)

omit [PyConvert F] in
theorem Produced.mono {result : Envelope F} (h : Produced cfg events job result)
    (hsub : events ⊆ events') : Produced cfg events' job result := by
  obtain ⟨e, hown, heq⟩ := h
  exact ⟨e, hown.mono hsub, heq⟩

/-! ## 2. The invariant -/

/-- What holds of the threads at any time. -/
structure Threads (cfg : Config F) (events : List (Event F)) (s : State F) : Prop where
  count : s.generation = (submissions events).length
  caller : ∀ sub, s.lock = some sub → latest events = some sub.job
  again : ∀ j, s.lock = some (.putAgain j) → s.queue = none
  accepted : ∀ j a, s.lock = some (.publish j a) →
    a = true ∧ (s.queue = some j ∨ s.worker.job = some j)
  queued : ∀ j, s.queue = some j → latest events = some j ∨ j.generation < s.generation
  worked : ∀ j, s.worker.job = some j → latest events = some j ∨ j.generation < s.generation
  produced : ∀ j r, s.worker = .done j r → Produced cfg events j r
  unfinished : s.unfinished = s.queue.toList.length + s.worker.job.toList.length
  alive : s.worker ≠ .dead
  published : s.lock = none → ∀ j, latest events = some j → s.resultGeneration = s.generation ∧
    ((s.result = queuedResult j ∧ (s.queue = some j ∨ s.worker.job = some j)) ∨
      Produced cfg events j s.result)

theorem Threads.old_or_latest (h : Threads cfg events s) (hlatest : latest events = some job) :
    job.generation = s.generation := (latest_generation hlatest).trans h.count.symm

/-- Only the submissions matter, and the answers that there were. -/
theorem Threads.congr (h : Threads cfg events s) (hsub : events ⊆ events')
    (hsame : submissions events' = submissions events) : Threads cfg events' s := by
  have hlatest : latest events' = latest events := by rw [latest, hsame, latest]
  refine ⟨?_, ?_, h.again, h.accepted, ?_, ?_, fun j r hr => (h.produced j r hr).mono hsub,
    h.unfinished, h.alive, ?_⟩
  · rw [hsame]
    exact h.count
  · rw [hlatest]
    exact h.caller
  · rw [hlatest]
    exact h.queued
  · rw [hlatest]
    exact h.worked
  · rw [hlatest]
    rintro hlock j hj
    obtain ⟨hgeneration, hqueued | hproduced⟩ := h.published hlock j hj
    · exact ⟨hgeneration, .inl hqueued⟩
    · exact ⟨hgeneration, .inr (hproduced.mono hsub)⟩

/-! ## 3. The caller -/

theorem threads_begin (h : Threads cfg events s) (event : Row F) (knowledge : Option (Row F)) :
    Threads cfg (events ++ [.begin event knowledge]) (s.beginning event knowledge) := by
  have hsub : submissions (events ++ [.begin event knowledge]) = submissions events ++ [event] :=
    submissions_concat _ _
  have hcount : s.generation + 1 = (submissions (events ++ [.begin event knowledge])).length := by
    rw [hsub, List.length_append, h.count, List.length_singleton]
  have hlatest : latest (events ++ [.begin event knowledge]) =
      some (jobOf event (s.generation + 1)) := by
    rw [latest, ← hcount, hsub, List.getLast?_append]
    rfl
  have hold : ∀ j : Job F, latest events = some j ∨ j.generation < s.generation →
      j.generation < s.generation + 1 := by
    rintro j (hj | hj)
    · rw [h.old_or_latest hj]
      exact Nat.lt_succ_self _
    · exact Nat.lt_succ_of_lt hj
  refine ⟨hcount, ?_, ?_, ?_, fun j hj => .inr (hold j (h.queued j hj)),
    fun j hj => .inr (hold j (h.worked j hj)),
    fun j r hr => (h.produced j r hr).mono (List.subset_append_left _ _), h.unfinished, h.alive, ?_⟩
  · rintro sub hsub
    cases hsub
    exact hlatest
  · rintro j hj
    cases hj
  · rintro j a hj
    cases hj
  · rintro hlock
    cases hlock

omit [PyFloat F] [PyRepr F] [PyConvert F] [PyArith F] in
theorem putting_empty (hqueue : s.queue = none) (job : Job F) (full : Submitting F) :
    s.putting job full =
      { s with queue := some job, unfinished := s.unfinished + 1, lock := some (.publish job true) } := by
  rw [State.putting, hqueue]

omit [PyFloat F] [PyRepr F] [PyConvert F] [PyArith F] in
theorem putting_full {old : Job F} (hqueue : s.queue = some old) (job : Job F) (full : Submitting F) :
    s.putting job full = { s with lock := some full } := by
  rw [State.putting, hqueue]

/-- The caller has its job queued. -/
theorem threads_putEmpty (h : Threads cfg events s) (hjob : latest events = some job)
    (hqueue : s.queue = none) (full : Submitting F) : Threads cfg events (s.putting job full) := by
  have hcount := h.unfinished
  rw [hqueue, Option.toList_none, List.length_nil] at hcount
  rw [putting_empty hqueue]
  refine ⟨h.count, ?_, nofun, ?_, ?_, h.worked, h.produced, ?_, h.alive, nofun⟩
  · rintro sub ⟨⟩
    exact hjob
  · rintro j a ⟨⟩
    exact ⟨rfl, .inl rfl⟩
  · rintro j ⟨⟩
    exact .inl hjob
  · simp only [Option.toList_some, List.length_singleton]
    omega

/-- The caller goes on with the lock. -/
theorem Threads.holding (h : Threads cfg events s) {sub : Submitting F}
    (hjob : latest events = some sub.job) (hagain : ∀ j, sub = .putAgain j → s.queue = none)
    (hpublish : ∀ j a, sub ≠ .publish j a) : Threads cfg events { s with lock := some sub } where
  count := h.count
  caller := by
    rintro sub ⟨⟩
    exact hjob
  again := by
    rintro j ⟨⟩
    exact hagain j rfl
  accepted := by
    rintro j a ⟨⟩
    exact absurd rfl (hpublish j a)
  queued := h.queued
  worked := h.worked
  produced := h.produced
  unfinished := h.unfinished
  alive := h.alive
  published := nofun

theorem threads_put (h : Threads cfg events s) (hlock : s.lock = some (.put job)) :
    Threads cfg events (s.putting job (.takeBack job)) := by
  have hjob := h.caller _ hlock
  cases hqueue : s.queue with
  | none => exact threads_putEmpty h hjob hqueue _
  | some old =>
    rw [putting_full hqueue]
    exact h.holding hjob nofun nofun

theorem threads_putAgain (h : Threads cfg events s) (hlock : s.lock = some (.putAgain job)) :
    Threads cfg events (s.putting job (.publish job false)) :=
  threads_putEmpty h (h.caller _ hlock) (h.again job hlock) _

theorem threads_takeBack (h : Threads cfg events s) (hlock : s.lock = some (.takeBack job)) :
    Threads cfg events (s.takingBack job) := by
  have hjob := h.caller _ hlock
  cases hqueue : s.queue with
  | none =>
    have heq : s.takingBack job = { s with lock := some (.putAgain job) } := by
      rw [State.takingBack, hqueue]
    rw [heq]
    exact h.holding hjob (fun _ _ => hqueue) nofun
  | some old =>
    have hcount := h.unfinished
    rw [hqueue, Option.toList_some, List.length_singleton] at hcount
    have heq : s.takingBack job =
        { s with queue := none, unfinished := s.unfinished - 1, lock := some (.putAgain job) } := by
      rw [State.takingBack, hqueue]
      exact if_neg (by omega)
    rw [heq]
    refine ⟨h.count, ?_, fun _ _ => rfl, nofun, nofun, h.worked, h.produced, ?_, h.alive, nofun⟩
    · rintro sub ⟨⟩
      exact hjob
    · simp only [Option.toList_none, List.length_nil]
      omega

/-- **A submission ends with its queued result**, and its job is in the queue or with the worker. -/
theorem threads_queued (h : Threads cfg events s) {accepted : Bool}
    (hlock : s.lock = some (.publish job accepted)) :
    Threads cfg events (s.queueing job accepted) := by
  have hjob := h.caller _ hlock
  obtain ⟨rfl, hplace⟩ := h.accepted job accepted hlock
  refine ⟨h.count, ?_, ?_, ?_, h.queued, h.worked, h.produced, h.unfinished, h.alive, ?_⟩
  · rintro sub hsub
    cases hsub
  · rintro j hj
    cases hj
  · rintro j a hj
    cases hj
  · rintro - j hj
    cases hjob.symm.trans hj
    exact ⟨h.old_or_latest hjob, .inl ⟨rfl, hplace⟩⟩

/-! ## 4. The worker -/

/-- The worker goes on with its job, or has none before and after. -/
theorem Threads.moved (h : Threads cfg events s) {w : Worker F} (hjob : w.job = s.worker.job)
    (hdead : w ≠ .dead) (hdone : ∀ j r, w = .done j r → Produced cfg events j r)
    (frame : Option (PyJson F)) (core : Bool) (carried : Option (Envelope F)) :
    Threads cfg events
      { s with worker := w, frameSnapshot := frame, core := core, carried := carried } where
  count := h.count
  caller := h.caller
  again := h.again
  accepted := fun j a ha => hjob ▸ h.accepted j a ha
  queued := h.queued
  worked := fun j hj => h.worked j (hjob ▸ hj)
  produced := hdone
  unfinished := by
    dsimp only
    rw [hjob]
    exact h.unfinished
  alive := hdead
  published := fun hlock j hj => by
    dsimp only
    rw [hjob]
    exact h.published hlock j hj

theorem threads_start (h : Threads cfg events s) (hworker : s.worker = .starting) (core : Bool) :
    Threads cfg events { s with worker := .idle, core := core } := by
  have hjob : (Worker.idle : Worker F).job = s.worker.job := by rw [hworker]; rfl
  exact h.moved hjob (by rintro ⟨⟩) (by rintro j r ⟨⟩) s.frameSnapshot core s.carried

theorem threads_take (h : Threads cfg events s) (hworker : s.worker = .idle)
    (hqueue : s.queue = some job) :
    Threads cfg events { s with queue := none, worker := .took job } := by
  have hnone : s.worker.job = none := by rw [hworker]; rfl
  have hplace : ∀ j, s.queue = some j ∨ s.worker.job = some j →
      (none : Option (Job F)) = some j ∨ (Worker.took job).job = some j := by
    rintro j (hj | hj)
    · exact .inr (hqueue.symm.trans hj)
    · rw [hnone] at hj
      cases hj
  refine ⟨h.count, h.caller, fun _ _ => rfl, ?_, by rintro j ⟨⟩, ?_, by rintro j r ⟨⟩, ?_,
    by rintro ⟨⟩, ?_⟩
  · rintro j a ha
    obtain ⟨haccepted, hj⟩ := h.accepted j a ha
    exact ⟨haccepted, hplace j hj⟩
  · rintro j ⟨⟩
    exact h.queued job hqueue
  · have := h.unfinished
    rw [hqueue, hnone] at this
    exact this
  · rintro hlock j hj
    obtain ⟨hgeneration, ⟨hresult, hj⟩ | hproduced⟩ := h.published hlock j hj
    · exact ⟨hgeneration, .inl ⟨hresult, hplace j hj⟩⟩
    · exact ⟨hgeneration, .inr hproduced⟩

/-- The result of the worker's job is there. -/
theorem threads_finishing (h : Threads cfg events s) (hworker : s.worker.job = some job)
    {result : Envelope F} (hown : OwnResult cfg events job result) :
    Threads cfg events (s.finishing cfg job result) := by
  have hjob : (Worker.done job (finishJob cfg job result)).job = s.worker.job := hworker.symm
  refine h.moved hjob (by rintro ⟨⟩) ?_ s.frameSnapshot s.core _
  rintro j r heq
  obtain ⟨rfl, rfl⟩ := Worker.done.inj heq
  exact ⟨result, hown, rfl⟩

theorem threads_frame (h : Threads cfg events s) (hworker : s.worker = .took job) {late : Bool}
    {answer : Answer Unit} (hsane : Event.Sane (F := F) (.frame late answer)) :
    Threads cfg events (s.framing cfg job late answer) := by
  have hjob : s.worker.job = some job := by rw [hworker]; rfl
  unfold State.framing
  split_ifs
  · exact threads_finishing h hjob .noPackage
  · exact threads_finishing h hjob .stale
  · cases answer with
    | returned =>
      have hsame : (Worker.framed job).job = s.worker.job := hjob.symm
      exact h.moved hsame (by rintro ⟨⟩) (by rintro j r ⟨⟩) s.frameSnapshot s.core s.carried
    | raised name => exact threads_finishing h hjob (.failure name)
    | exits => exact hsane.elim

theorem threads_publishFrame (h : Threads cfg events s) (hworker : s.worker = .framed job)
    {answer : Answer (PyJson F)}
    (hsane : Event.Sane (F := F) (.publishFrame job.generation answer)) :
    Threads cfg events (s.publishingFrame cfg job answer) := by
  have hjob : s.worker.job = some job := by rw [hworker]; rfl
  have hsame : (Worker.reasoning job).job = s.worker.job := hjob.symm
  have hmoved : ∀ frame, Threads cfg events
      { s with worker := .reasoning job, frameSnapshot := frame } := fun frame =>
    h.moved hsame (by rintro ⟨⟩) (by rintro j r ⟨⟩) frame s.core s.carried
  unfold State.publishingFrame
  split_ifs
  · cases answer with
    | returned frame => exact hmoved (some frame)
    | raised name => exact threads_finishing h hjob (.failure name)
    | exits => exact hsane.elim
  · exact hmoved s.frameSnapshot

theorem threads_explain (h : Threads cfg events s) (hworker : s.worker = .reasoning job) {late : Bool}
    {answer : Answer (Assistance F)} (hsane : Event.Sane (.explain late answer))
    (hmem : .explain late answer ∈ events) :
    Threads cfg events (s.explaining cfg job late answer) := by
  have hjob : s.worker.job = some job := by rw [hworker]; rfl
  unfold State.explaining
  cases answer with
  | exits => cases hsane
  | raised name => exact threads_finishing h hjob (.failure name)
  | returned a =>
    cases late with
    | true => exact threads_finishing h hjob .stale
    | false =>
      have hvalue : a.value ≠ .null := hsane.resolve_left nofun
      have hresult : explained cfg job false (.returned a) = .result (assisted cfg job a) := by
        rw [explained]
        split
        · contradiction
        · split
          · exact absurd ‹_› hvalue
          · rfl
      rw [hresult]
      exact threads_finishing h hjob (.assisted a hmem)

omit [PyFloat F] [PyRepr F] [PyConvert F] [PyArith F] in
theorem publishing_latest (hunfinished : s.unfinished ≠ 0) (hlatest : job.generation = s.generation)
    (result : Envelope F) : s.publishing job result =
      { s with
        result := result
        resultGeneration := job.generation
        completed := decide (result.status = sComplete)
        unfinished := s.unfinished - 1
        worker := .idle } := by
  rw [State.publishing, if_pos hlatest]
  exact if_neg hunfinished

omit [PyFloat F] [PyRepr F] [PyConvert F] [PyArith F] in
theorem publishing_old (hunfinished : s.unfinished ≠ 0) (hold : job.generation ≠ s.generation)
    (result : Envelope F) : s.publishing job result =
      { s with unfinished := s.unfinished - 1, worker := .idle } := by
  rw [State.publishing, if_neg hold]
  exact if_neg hunfinished

/-- **The result of the last job is published**, and that of an older one is not. -/
theorem threads_publish (h : Threads cfg events s) {result : Envelope F}
    (hworker : s.worker = .done job result) (hlock : s.lock = none) :
    Threads cfg events (s.publishing job result) := by
  have hjob : s.worker.job = some job := by rw [hworker]; rfl
  have hcount := h.unfinished
  rw [hjob, Option.toList_some, List.length_singleton] at hcount
  have hleft : s.unfinished - 1 = s.queue.toList.length + (Worker.idle : Worker F).job.toList.length := by
    rw [hcount]
    rfl
  by_cases hgeneration : job.generation = s.generation
  · have hlatest : latest events = some job :=
      (h.worked job hjob).resolve_right (by omega)
    rw [publishing_latest (by omega) hgeneration]
    refine ⟨h.count, h.caller, h.again, fun j a ha => ?_, h.queued, by rintro j ⟨⟩, by rintro j r ⟨⟩,
      hleft, by rintro ⟨⟩, ?_⟩
    · cases hlock.symm.trans ha
    · rintro - j hj
      cases hlatest.symm.trans hj
      exact ⟨hgeneration, .inr (h.produced job result hworker)⟩
  · rw [publishing_old (by omega) hgeneration]
    refine ⟨h.count, h.caller, h.again, fun j a ha => ?_, h.queued, by rintro j ⟨⟩, by rintro j r ⟨⟩,
      hleft, by rintro ⟨⟩, ?_⟩
    · cases hlock.symm.trans ha
    · rintro - j hj
      obtain ⟨hresult, ⟨hqueued, hplace⟩ | hproduced⟩ := h.published hlock j hj
      · refine ⟨hresult, .inl ⟨hqueued, .inl (hplace.resolve_right fun hsame => ?_)⟩⟩
        cases hjob.symm.trans hsame
        exact hgeneration (h.old_or_latest hj)
      · exact ⟨hresult, .inr hproduced⟩

/-! ## 5. Runs -/

/-- An event that is no submission. -/
def Event.isBegin : Event F → Bool
  | .begin _ _ => true
  | _ => false

omit [PyRepr F] [PyConvert F] [PyArith F] [PyFloat F] in
theorem submissions_concat_of_not_begin (h : e.isBegin = false) (events : List (Event F)) :
    submissions (events ++ [e]) = submissions events := by
  rw [submissions_concat]
  cases e with
  | begin => cases h
  | _ => exact List.append_nil _

theorem threads_step (h : Threads cfg events s) (hstep : Step cfg s e s') (hsane : e.Sane) :
    Threads cfg (events ++ [e]) s' := by
  have hlater : e.isBegin = false → Threads cfg (events ++ [e]) s := fun hbegin =>
    h.congr (List.subset_append_left _ _) (submissions_concat_of_not_begin hbegin events)
  cases hstep with
  | start answer hworker =>
    cases answer with
    | returned => exact threads_start (hlater rfl) hworker true
    | raised name => exact threads_start (hlater rfl) hworker s.core
    | exits => exact hsane.elim
  | begin event knowledge hlock => exact threads_begin h event knowledge
  | put job hlock => exact threads_put (hlater rfl) hlock
  | takeBack job hlock => exact threads_takeBack (hlater rfl) hlock
  | putAgain job hlock => exact threads_putAgain (hlater rfl) hlock
  | queued job accepted hlock => exact threads_queued (hlater rfl) hlock
  | take job hworker hqueue => exact threads_take (hlater rfl) hworker hqueue
  | frame job late answer hworker => exact threads_frame (hlater rfl) hworker hsane
  | publishFrame job answer hworker hlock => exact threads_publishFrame (hlater rfl) hworker hsane
  | explain job late answer hworker =>
    exact threads_explain (hlater rfl) hworker hsane (mem_concat events _)
  | publish job result hworker hlock => exact threads_publish (hlater rfl) hworker hlock

theorem threads_newState (cfg : Config F) : Threads cfg [] (newState F) where
  count := rfl
  caller := by rintro sub ⟨⟩
  again := by rintro j ⟨⟩
  accepted := by rintro j a ⟨⟩
  queued := by rintro j ⟨⟩
  worked := by rintro j ⟨⟩
  produced := by rintro j r ⟨⟩
  unfinished := rfl
  alive := by rintro ⟨⟩
  published := by rintro - j ⟨⟩

/-- **The run lemma**: the invariant holds in every state that a run of sane events reaches. -/
theorem threads_run (h : Run (Step cfg) (newState F) events s) (hsane : ∀ e ∈ events, e.Sane) :
    Threads cfg events s := by
  refine h.history (P := fun events s => (∀ e ∈ events, e.Sane) → Threads cfg events s) ?_
    (fun _ => threads_newState cfg) hsane
  rintro past s e s' ih hstep hpast
  exact threads_step (ih fun e he => hpast e (List.mem_append_left _ he)) hstep
    (hpast e (mem_concat past e))

/-- No submission finds the queue full twice. -/
theorem receipts_run (h : Run (Step cfg) (newState F) events s) (hsane : ∀ e ∈ events, e.Sane) :
    ∀ answer, .queued answer ∈ events → ∃ job, answer = receipt job true := by
  refine (h.history (P := fun events s => (∀ e ∈ events, e.Sane) → Threads cfg events s ∧
    ∀ answer, .queued answer ∈ events → ∃ job, answer = receipt job true) ?_
    (fun _ => ⟨threads_newState cfg, by rintro answer ⟨⟩⟩) hsane).2
  rintro past s e s' ih hstep hpast
  obtain ⟨hthreads, hold⟩ := ih fun e he => hpast e (List.mem_append_left _ he)
  refine ⟨threads_step hthreads hstep
    (hpast e (mem_concat past e)), ?_⟩
  rintro answer hanswer
  rcases List.mem_append.mp hanswer with hanswer | hanswer
  · exact hold answer hanswer
  · cases List.mem_singleton.mp hanswer
    cases hstep with
    | queued job accepted hlock =>
      obtain ⟨rfl, -⟩ := hthreads.accepted job accepted hlock
      exact ⟨job, rfl⟩

/-! ## 6. Frames -/

/-- The frame of this generation was published, and nothing was submitted since. -/
def FrameOf (events : List (Event F)) (generation : ℕ) (frame : PyJson F) : Prop :=
  ∃ past later, events = past ++ .publishFrame generation (.returned frame) :: later ∧
    submissions later = []

/-- What a step does to the frame. -/
theorem frame_step (hstep : Step cfg s e s') :
    (s'.frameSnapshot = s.frameSnapshot ∧ s'.generation = s.generation ∧ e.isBegin = false) ∨
      s'.frameSnapshot = none ∨
      ∃ frame, e = .publishFrame s.generation (.returned frame) ∧ s'.frameSnapshot = some frame ∧
        s'.generation = s.generation := by
  cases hstep with
  | start answer hworker => cases answer <;> exact .inl ⟨rfl, rfl, rfl⟩
  | begin event knowledge hlock => exact .inr (.inl rfl)
  | put job hlock =>
    refine .inl ?_
    unfold State.putting
    cases s.queue <;> exact ⟨rfl, rfl, rfl⟩
  | takeBack job hlock =>
    refine .inl ?_
    unfold State.takingBack
    split
    · exact ⟨rfl, rfl, rfl⟩
    · split_ifs <;> exact ⟨rfl, rfl, rfl⟩
  | putAgain job hlock =>
    refine .inl ?_
    unfold State.putting
    cases s.queue <;> exact ⟨rfl, rfl, rfl⟩
  | queued job accepted hlock => exact .inl ⟨rfl, rfl, rfl⟩
  | take job hworker hqueue => exact .inl ⟨rfl, rfl, rfl⟩
  | frame job late answer hworker =>
    refine .inl ?_
    unfold State.framing
    split_ifs
    · exact ⟨rfl, rfl, rfl⟩
    · exact ⟨rfl, rfl, rfl⟩
    · cases answer <;> exact ⟨rfl, rfl, rfl⟩
  | publishFrame job answer hworker hlock =>
    unfold State.publishingFrame
    split_ifs with hgeneration
    · cases answer with
      | returned frame => exact .inr (.inr ⟨frame, by rw [hgeneration], rfl, rfl⟩)
      | raised name => exact .inl ⟨rfl, rfl, rfl⟩
      | exits => exact .inl ⟨rfl, rfl, rfl⟩
    · exact .inl ⟨rfl, rfl, rfl⟩
  | explain job late answer hworker =>
    refine .inl ?_
    unfold State.explaining
    split
    · exact ⟨rfl, rfl, rfl⟩
    · split <;> exact ⟨rfl, rfl, rfl⟩
    · exact ⟨rfl, rfl, rfl⟩
  | publish job result hworker hlock =>
    refine .inl ?_
    unfold State.publishing
    by_cases hgeneration : job.generation = s.generation
    · rw [if_pos hgeneration]
      dsimp only
      split_ifs <;> exact ⟨rfl, rfl, rfl⟩
    · rw [if_neg hgeneration]
      dsimp only
      split_ifs <;> exact ⟨rfl, rfl, rfl⟩

/-- **The frame belongs to the last submission**, in every run. -/
theorem frame_run (h : Run (Step cfg) (newState F) events s) {frame : PyJson F}
    (hframe : s.frameSnapshot = some frame) : FrameOf events s.generation frame := by
  refine h.history
    (P := fun events s => ∀ frame, s.frameSnapshot = some frame → FrameOf events s.generation frame)
    ?_ (by rintro frame ⟨⟩) frame hframe
  rintro past s e s' ih hstep frame hframe
  rcases frame_step hstep with ⟨hsame, hgeneration, hbegin⟩ | hnone | ⟨_, rfl, hnew, hgeneration⟩
  · obtain ⟨before, later, rfl, hlater⟩ := ih frame (hsame ▸ hframe)
    refine ⟨before, later ++ [e], ?_, ?_⟩
    · rw [hgeneration, List.append_assoc, List.cons_append]
    · rw [submissions_concat_of_not_begin hbegin, hlater]
  · cases hnone.symm.trans hframe
  · cases hnew.symm.trans hframe
    exact ⟨past, [], by rw [hgeneration], rfl⟩

/-! ## 7. Older jobs -/

/-- **A job that is not the latest publishes nothing**, in whatever state. -/
theorem older_publishes_nothing (hjob : s.worker.job = some job)
    (hold : job.generation ≠ s.generation) (hstep : Step cfg s e s')
    (hpublish : e = .publish ∨ ∃ generation answer, e = .publishFrame generation answer) :
    s'.result = s.result ∧ s'.frameSnapshot = s.frameSnapshot := by
  rcases hpublish with rfl | ⟨generation, answer, rfl⟩
  · cases hstep with
    | publish job' result hworker hlock =>
      rw [hworker] at hjob
      cases hjob
      unfold State.publishing
      rw [if_neg hold]
      dsimp only
      split_ifs <;> exact ⟨rfl, rfl⟩
  · cases hstep with
    | publishFrame job' answer hworker hlock =>
      rw [hworker] at hjob
      cases hjob
      unfold State.publishingFrame
      rw [if_neg hold]
      exact ⟨rfl, rfl⟩

end AzazelEdge.Mio.Live
