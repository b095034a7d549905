/-
# The retry of a release

A release attempt that did not end released is retried after a backoff, on whichever clock says so
first.  Between the two attempts nothing touches the retry time but another attempt
(`RetryAt.step`), so at its monotonic time the sweep takes the lease up, if it still reads as
expired (`retry_after_backoff`).  It need not: a lease expired by a wall clock stepped forward is
not expired any more when the wall clock is stepped back (`retry_held_back`).
-/
import AzazelEdge.Release.Steps

namespace AzazelEdge.Release

open AzazelEdge.Lib

variable {encodedLen : ReleaseLedger → ℕ} {L L₁ L₂ L' : ReleaseLedger} {now : LeaseNow}
  {t t' : ReleaseTask} {op : Op} {answer : Answer} {os os₁ os₂ : List ReleaseOutcome}

/-! ## 1. What a sweep's loop does to each task -/

/-- The task has an outcome. -/
def Reported (os : List ReleaseOutcome) (t : ReleaseTask) : Prop :=
  ∃ o ∈ os, o.releaseTaskId = t.taskId

/-- The monotonic retry time of a task that is still held after an attempt at `now`. -/
def Rescheduled (now : LeaseNow) (t : ReleaseTask) : Prop :=
  t.status.eligible = true →
    t.nextAttemptBoottimeNs = (retryBoottime t now).map Prod.fst ∧
      t.nextAttemptBootId = ((retryBoottime t now).map Prod.snd).getD ""

theorem rescheduled_scheduleRetry (t : ReleaseTask) (now : LeaseNow) :
    Rescheduled now (scheduleRetry t now) := fun _ => ⟨rfl, rfl⟩

theorem rescheduled_afterAttempt (now : LeaseNow) (result : Except String ReleaseOutcome)
    (t : ReleaseTask) : Rescheduled now (afterAttempt now result t) := by
  cases result with
  | error e => exact rescheduled_scheduleRetry _ now
  | ok outcome =>
    by_cases h : outcome.status = .released
    · intro heligible
      simp [afterAttempt, h, markReleased, Status.eligible] at heligible
    · simp only [afterAttempt, if_neg h]
      exact rescheduled_scheduleRetry _ now

/-- What turns of the loop made of the ledger, given their outcomes: no task comes or goes, one
without an outcome is left alone, one with an outcome is rescheduled or not held any more. -/
structure Swept (now : LeaseNow) (L L' : ReleaseLedger) (os : List ReleaseOutcome) : Prop where
  ids : L'.tasks.map (·.taskId) = L.tasks.map (·.taskId)
  kept : ∀ t ∈ L.tasks, ¬ Reported os t → t ∈ L'.tasks
  taken : UniqueIds L → ∀ t ∈ L'.tasks, Reported os t → Rescheduled now t

theorem Swept.refl (now : LeaseNow) (L : ReleaseLedger) : Swept now L L [] :=
  ⟨rfl, fun _ ht _ => ht, fun _ t _ h => by obtain ⟨o, ho, -⟩ := h; cases ho⟩

/-- An unreported task of the result was there before, unchanged. -/
theorem Swept.mem_of_not_reported (h : Swept now L L' os) (hids : UniqueIds L) (ht : t ∈ L'.tasks)
    (hno : ¬ Reported os t) : t ∈ L.tasks := by
  have hmem : t.taskId ∈ L.tasks.map (·.taskId) := by
    rw [← h.ids]
    exact List.mem_map_of_mem ht
  obtain ⟨x, hx, hid⟩ := List.mem_map.mp hmem
  have hx' : x ∈ L'.tasks := h.kept x hx fun ⟨o, ho, hoid⟩ => hno ⟨o, ho, hoid.trans hid⟩
  have hids' : (L'.tasks.map (·.taskId)).Nodup := by
    rw [h.ids]
    exact hids
  rwa [eq_of_key hids' ht hx' hid.symm]

theorem Swept.uniqueIds (h : Swept now L L' os) (hids : UniqueIds L) : UniqueIds L' := by
  unfold UniqueIds
  rw [h.ids]
  exact hids

theorem Swept.trans (h₁ : Swept now L L₁ os₁) (h₂ : Swept now L₁ L₂ os₂) :
    Swept now L L₂ (os₁ ++ os₂) where
  ids := h₂.ids.trans h₁.ids
  kept := by
    intro t ht hno
    refine h₂.kept t (h₁.kept t ht fun ⟨o, ho, hid⟩ => hno ?_) fun ⟨o, ho, hid⟩ => hno ?_
    · exact ⟨o, List.mem_append_left _ ho, hid⟩
    · exact ⟨o, List.mem_append_right _ ho, hid⟩
  taken := by
    intro hids t ht hrep
    by_cases h : Reported os₂ t
    · exact h₂.taken (h₁.uniqueIds hids) t ht h
    · have ht₁ := h₂.mem_of_not_reported (h₁.uniqueIds hids) ht h
      refine h₁.taken hids t ht₁ ?_
      obtain ⟨o, ho, hid⟩ := hrep
      rcases List.mem_append.mp ho with ho | ho
      · exact ⟨o, ho, hid⟩
      · exact absurd ⟨o, ho, hid⟩ h

/-- A turn that edits the task it reports. -/
theorem swept_editTask {current : ReleaseTask} {f : ReleaseTask → ReleaseTask} {o : ReleaseOutcome}
    (hfind : L.tasks.find? (fun item => item.taskId = current.taskId) = some current)
    (hid : ∀ x, (f x).taskId = x.taskId) (ho : o.releaseTaskId = current.taskId)
    (hf : Rescheduled now (f current)) : Swept now L (editTask L current.taskId f) [o] where
  ids := map_editFirst _ hid _
  kept := by
    intro t ht hno
    refine mem_editFirst_of_not ht ?_
    simpa using fun h => hno ⟨o, by simp, ho.trans h.symm⟩
  taken := by
    intro hids t ht ⟨o', ho', hid'⟩
    obtain rfl := List.mem_singleton.mp ho'
    have hmem : f current ∈ (editTask L current.taskId f).tasks := mem_editFirst_of_find hfind
    have hids' : ((editTask L current.taskId f).tasks.map (·.taskId)).Nodup := by
      have : (editTask L current.taskId f).tasks.map (·.taskId) = L.tasks.map (·.taskId) :=
        map_editFirst _ hid _
      rw [this]
      exact hids
    rwa [eq_of_key hids' ht hmem (by rw [hid, ← hid', ho])]

/-! Every outcome of an attempt names its task. -/

/-- The outcome, when there is one, names the task. -/
def Names (task : ReleaseTask) : Except String ReleaseOutcome → Prop
  | .ok o => o.releaseTaskId = task.taskId
  | .error _ => True

theorem names_releaseOwnedState (task : ReleaseTask) (nowEpoch : Epoch) :
    Prog.Ensures (Names task) (releaseOwnedState task nowEpoch) := by
  refine (attempted_releaseOwnedState task nowEpoch).mono fun result hresult => ?_
  cases hresult with
  | error => exact True.intro
  | outcome => rfl

theorem outcomeOf_taskId {task : ReleaseTask} {nowEpoch : Epoch}
    {result : Except String ReleaseOutcome} (h : Names task result) :
    (outcomeOf task nowEpoch result).releaseTaskId = task.taskId := by
  cases result with
  | error e => rfl
  | ok o => exact h

/-! Each turn, then the loop. -/

/-- One turn of the loop: what it made of the ledger, and that it reports its candidate, when that
is still held, and nothing else. -/
theorem swept_sweepOne (now : LeaseNow) (audit : StartAudit) (L : ReleaseLedger)
    (candidate : String × ExpiryClock) :
    Prog.Ensures (fun result => Swept now L result.1 result.2 ∧
      (∀ o ∈ result.2, o.releaseTaskId = candidate.1) ∧
      (UniqueIds L → ∀ t ∈ L.tasks, t.taskId = candidate.1 → t.status.eligible = true →
        Reported result.2 t)) (sweepOne now audit L candidate) := by
  unfold sweepOne
  split
  · rename_i hfind
    refine ⟨Swept.refl now L, nofun, fun _ t ht hid _ => ?_⟩
    exact absurd hid (by simpa using List.find?_eq_none.mp hfind t ht)
  · rename_i current hfind
    have hid : current.taskId = candidate.1 := by simpa using List.find?_some hfind
    have hunique : UniqueIds L → ∀ t ∈ L.tasks, t.taskId = candidate.1 → t = current :=
      fun hids t ht htid => eq_of_key hids ht (List.mem_of_find?_eq_some hfind) (htid.trans hid.symm)
    rw [← hid] at hfind hunique ⊢
    split
    · have hreport : ∀ o : ReleaseOutcome, o.releaseTaskId = current.taskId →
          (∀ o' ∈ [o], o'.releaseTaskId = current.taskId) ∧ (UniqueIds L → ∀ t ∈ L.tasks,
            t.taskId = current.taskId → t.status.eligible = true → Reported [o] t) :=
        fun o ho => ⟨by simpa using ho, fun _ t _ htid _ => ⟨o, by simp, ho.trans htid.symm⟩⟩
      unfold attemptRelease
      split
      · rename_i f outcome hyield
        obtain ⟨-, hout, hf⟩ := yieldToNewer_cases hyield
        refine ⟨swept_editTask hfind ?_ hout ?_, hreport _ hout⟩
        · rcases hf with ⟨newer, rfl⟩ | ⟨newer, rfl⟩ <;> exact fun _ => rfl
        · rcases hf with ⟨newer, rfl⟩ | ⟨newer, rfl⟩
          · intro heligible; cases heligible
          · exact rescheduled_scheduleRetry _ now
      · refine (names_releaseOwnedState current now.wallEpoch).map fun result hresult => ?_
        have hout : (outcomeOf current now.wallEpoch result).releaseTaskId = current.taskId :=
          outcomeOf_taskId hresult
        exact ⟨swept_editTask hfind
          (fun x => afterAttempt_leaves (fun _ _ _ _ _ _ _ _ _ => rfl) now result x) hout
          (rescheduled_afterAttempt now result current), hreport _ hout⟩
    · rename_i hended
      refine ⟨Swept.refl now L, nofun, fun hids t ht htid heligible => ?_⟩
      exact absurd (hunique hids t ht htid ▸ heligible) hended

/-- The whole loop: it reports every candidate that is held, and nothing else. -/
theorem swept_sweepLoop (now : LeaseNow) (audit : StartAudit) :
    ∀ (due : List (String × ExpiryClock)) (L : ReleaseLedger),
      Prog.Ensures (fun result => Swept now L result.1 result.2 ∧
        (∀ o ∈ result.2, ∃ candidate ∈ due, candidate.1 = o.releaseTaskId) ∧
        (UniqueIds L → ∀ t ∈ L.tasks, t.status.eligible = true →
          (∃ candidate ∈ due, candidate.1 = t.taskId) → Reported result.2 t))
        (sweepLoop now audit due L)
  | [], L => ⟨Swept.refl now L, nofun, fun _ t _ _ ⟨_, hc, _⟩ => by cases hc⟩
  | candidate :: rest, L => by
    refine (swept_sweepOne now audit L candidate).bind fun (L₁, os₁) ⟨hturn, honly, hreport⟩ => ?_
    refine (swept_sweepLoop now audit rest L₁).map fun (L₂, os₂) ⟨hlater, honlys, hreports⟩ => ?_
    refine ⟨hturn.trans hlater, fun o ho => ?_, fun hids t ht heligible ⟨c, hc, hid⟩ => ?_⟩
    · rcases List.mem_append.mp ho with ho | ho
      · exact ⟨candidate, List.mem_cons_self, (honly o ho).symm⟩
      · obtain ⟨c, hc, hid⟩ := honlys o ho
        exact ⟨c, List.mem_cons_of_mem _ hc, hid⟩
    by_cases hrep : Reported os₁ t
    · obtain ⟨o, ho, hoid⟩ := hrep
      exact ⟨o, List.mem_append_left _ ho, hoid⟩
    · -- The turn left the task alone, so it is the candidate of a later one.
      have hc : c ∈ rest := by
        rcases List.mem_cons.mp hc with rfl | hc
        · exact absurd (hreport hids t ht hid.symm heligible) hrep
        · exact hc
      obtain ⟨o, ho, hoid⟩ := hreports (hturn.uniqueIds hids) t (hturn.kept t ht hrep) heligible
        ⟨c, hc, hid⟩
      exact ⟨o, List.mem_append_right _ ho, hoid⟩

/-! ## 2. A sweep on the store -/

/-- The outcomes of the attempts a sweep makes, whether or not its save succeeds. -/
def Store.sweepOutcomes (s : Store) (now : LeaseNow) (audit : StartAudit) (replies : List Reply)
    (io : LedgerIo) : List ReleaseOutcome :=
  match s.sweepStart now io with
  | .nothing _ => []
  | .run ledger due => (((sweepLoop now audit due ledger).run replies).map Prod.snd).getD []

variable {s s' : Store} {audit : StartAudit} {replies : List Reply} {io : LedgerIo}

/-- **What a sweep wrote**: nothing, or what is left of its loop's ledger after the save. -/
theorem Store.sweep_swept
    (hstep : Store.Step encodedLen s (.sweep now audit replies io, answer) s') :
    s'.inFlight = s.inFlight ∧
      ((s'.disk = s.disk ∧ ∀ os, answer = .swept (.ok os) → os = []) ∨
        ∃ L L' os file, loadLedger s.disk = .ok L ∧ answer = .swept (.ok os) ∧
          (∀ o ∈ os, o.releaseTaskId ∉ s.inFlight) ∧ Swept now L L' os ∧
          s'.disk = some file ∧ file.schema = .v2 ∧
          List.Sublist file.ledger.tasks L'.tasks) := by
  obtain ⟨⟨t, result⟩, hsweep, hend⟩ := Option.map_eq_some_iff.mp hstep
  obtain ⟨rfl, rfl⟩ := Prod.mk.inj hend
  unfold Store.sweep at hsweep
  split at hsweep
  · rename_i result hstart
    split at hsweep
    · obtain ⟨rfl, rfl⟩ := Prod.mk.inj (Option.some.inj hsweep)
      refine ⟨rfl, Or.inl ⟨rfl, fun os hos => ?_⟩⟩
      have hresult : result = .ok os := Answer.swept.inj hos
      subst hresult
      unfold Store.sweepStart at hstart
      split at hstart
      · cases hstart
      · cases hstart
      · split at hstart
        · cases hstart; rfl
        · split at hstart
          · cases hstart
          · split at hstart
            · cases hstart; rfl
            · cases hstart
    · cases hsweep
  · rename_i L due hstart
    obtain ⟨⟨L', os⟩, hrun, hend⟩ := Option.map_eq_some_iff.mp hsweep
    obtain ⟨hload, hdue, -⟩ := Store.sweepStart_run hstart
    obtain ⟨hswept, honly, -⟩ := (swept_sweepLoop now audit due L).run hrun
    have hfree : ∀ o ∈ os, o.releaseTaskId ∉ s.inFlight := by
      intro o ho
      obtain ⟨c, hc, hid⟩ := honly o ho
      rw [hdue] at hc
      obtain ⟨x, -, hx⟩ := List.mem_filterMap.mp hc
      obtain ⟨hxid, -, hxfree⟩ := candidate?_some hx
      rwa [← hid, hxid]
    unfold Store.sweepEnd at hend
    split at hend
    · rename_i file hsave
      obtain ⟨rfl, rfl⟩ := Prod.mk.inj hend
      refine ⟨rfl, Or.inr ⟨L, L', os, file, hload, rfl, hfree, hswept, rfl, ?_⟩⟩
      obtain ⟨hfile | hfile, hv⟩ := sweepSave_ok hsave
      · exact ⟨hv, hfile ▸ List.Sublist.refl _⟩
      · exact ⟨hv, hfile ▸ compactLedger_sublist L' now⟩
    · obtain ⟨rfl, rfl⟩ := Prod.mk.inj hend
      exact ⟨rfl, Or.inl ⟨rfl, fun os hos => by cases Answer.swept.inj hos⟩⟩

/-- **A sweep that opened the ledger attempts exactly its candidates.** -/
theorem Store.sweep_reports (hids : UniqueIds L) (hwall : validateNow now.wallEpoch = .ok ())
    (hopen : openLedger io s.disk = .ok L)
    (hstep : Store.Step encodedLen s (.sweep now audit replies io, answer) s') (ht : t ∈ L.tasks) :
    Reported (s.sweepOutcomes now audit replies io) t ↔
      (candidate? s.inFlight now t).isSome = true := by
  have hlock : io.lock = .ok () := by
    unfold openLedger at hopen
    split at hopen
    · cases hopen
    · assumption
  have hdisk : s.disk ≠ none := by
    intro hnone
    have := openLedger_ok hopen
    rw [hnone] at this
    rw [← Except.ok.inj this] at ht
    cases ht
  have hmem : ∀ {c}, candidate? s.inFlight now t = some c →
      c ∈ candidates s.inFlight now L.tasks ∧ c.1 = t.taskId ∧ t.status.eligible = true := by
    intro c hc
    obtain ⟨hid, heligible, -⟩ := candidate?_some hc
    exact ⟨List.mem_filterMap.mpr ⟨t, ht, hc⟩, hid, heligible⟩
  unfold Store.sweepOutcomes
  cases hstart : s.sweepStart now io with
  | nothing result =>
    have hnil : candidates s.inFlight now L.tasks = [] := by
      unfold Store.sweepStart at hstart
      rw [hwall, hlock] at hstart
      simp only [hdisk, if_false, hopen] at hstart
      split at hstart
      · assumption
      · cases hstart
    constructor
    · rintro ⟨o, ho, -⟩
      cases ho
    · intro hc
      obtain ⟨c, hc⟩ := Option.isSome_iff_exists.mp hc
      have := (hmem hc).1
      rw [hnil] at this
      cases this
  | run ledger due =>
    obtain ⟨hload, hdue, -⟩ := Store.sweepStart_run hstart
    obtain rfl : L = ledger := by
      have := openLedger_ok hopen
      rw [hload] at this
      exact (Except.ok.inj this).symm
    subst hdue
    -- The step ran the loop on exactly these answers.
    obtain ⟨⟨t', result⟩, hsweep, -⟩ := Option.map_eq_some_iff.mp hstep
    unfold Store.sweep at hsweep
    rw [hstart] at hsweep
    obtain ⟨⟨L', os⟩, hrun, -⟩ := Option.map_eq_some_iff.mp hsweep
    obtain ⟨-, honly, hreports⟩ := (swept_sweepLoop now audit _ L).run hrun
    simp only [hrun, Option.map_some, Option.getD_some]
    constructor
    · rintro ⟨o, ho, hid⟩
      obtain ⟨c, hc, hcid⟩ := honly o ho
      obtain ⟨x, hx, hxc⟩ := List.mem_filterMap.mp hc
      have hxid := (candidate?_some hxc).1
      rw [eq_of_key hids ht hx (hid.symm.trans (hcid.symm.trans hxid)), hxc]
      rfl
    · intro hc
      obtain ⟨c, hc⟩ := Option.isSome_iff_exists.mp hc
      obtain ⟨hcmem, hcid, heligible⟩ := hmem hc
      exact hreports hids t ht heligible ⟨c, hcmem, hcid⟩

/-! ## 3. What stays between two attempts -/

/-- Outside a sweep no move touches the monotonic retry time. -/
theorem TaskMove.retry (h : TaskMove op t t') (hop : op.isSweep = false) :
    t'.nextAttemptBoottimeNs = t.nextAttemptBoottimeNs ∧
      t'.nextAttemptBootId = t.nextAttemptBootId := by
  cases h with
  | same => exact ⟨rfl, rfl⟩
  | usedUp => exact ⟨rfl, rfl⟩
  | reread now =>
    rcases cooldownRunning_task t now with h | ⟨_, h⟩ <;> rw [h] <;> exact ⟨rfl, rfl⟩
  | extended => unfold Release.extended; split <;> exact ⟨rfl, rfl⟩
  | uncertain => exact ⟨rfl, rfl⟩
  | activated => exact ⟨rfl, rfl⟩
  | superseded => exact ⟨rfl, rfl⟩
  | attempted _ _ _ hsweep => rw [hop] at hsweep; cases hsweep
  | deferred _ _ _ hsweep => rw [hop] at hsweep; cases hsweep

theorem mem_setInFlight {set : List String} {taskId id : String} {on : Bool}
    (h : id ∈ setInFlight set taskId on) : id ∈ set ∨ (on = true ∧ id = taskId) := by
  unfold setInFlight at h
  rcases List.mem_append.mp h with h | h
  · exact Or.inl (List.mem_filter.mp h).1
  · split at h
    · exact Or.inr ⟨‹_›, by simpa using h⟩
    · cases h

theorem Store.endApply_inFlight {nowEpoch : Epoch} {id taskId : String}
    {update : ReleaseLedger → Except String ReleaseLedger}
    (h : taskId ∈ (s.endApply encodedLen id nowEpoch io update).1.inFlight) :
    taskId ∈ s.inFlight := by
  have hremoved : taskId ∈ setInFlight s.inFlight id false → taskId ∈ s.inFlight := by
    intro h
    rcases mem_setInFlight h with h | ⟨h, -⟩
    · exact h
    · cases h
  unfold Store.endApply at h
  split at h
  · exact h
  · exact h
  · dsimp only at h
    split at h
    · exact hremoved h
    · split at h <;> exact hremoved h

theorem Store.admit_inFlight {task : ReleaseTask} {traces : List String} {ttlSec : ℕ}
    {taskId : String} (h : taskId ∈ (s.admitTask encodedLen task traces ttlSec now io).1.inFlight) :
    taskId ∈ s.inFlight ∨ ∃ now' lease,
      grantOf (.admitTask task traces ttlSec now io,
        .admitted (s.admitTask encodedLen task traces ttlSec now io).2) = some (now', lease) ∧
      lease.taskId = taskId := by
  unfold Store.admitTask at h ⊢
  split at h
  · exact Or.inl h
  · exact Or.inl h
  · split at h
    · exact Or.inl h
    · rename_i L hopen
      dsimp only at h
      rcases hcommit : commit encodedLen io s.disk
        (admitReleaseTask encodedLen L task traces ttlSec now).save
        (admitReleaseTask encodedLen L task traces ttlSec now).answer with ⟨disk, answer⟩
      rw [hcommit] at h
      split at h
      · rename_i lease hplan
        rcases mem_setInFlight h with h | ⟨hok, rfl⟩
        · exact Or.inl h
        · right
          have hanswer : answer = .ok (.prepared lease) := by
            rcases commit_cases hcommit with ⟨-, ⟨-, rfl⟩ | ⟨detail, rfl⟩⟩ | ⟨_, _, -, -, -, -, rfl⟩
            · exact hplan
            · cases hok
            · exact hplan
          have hid : lease.taskId = task.taskId := by
            rcases admitReleaseTask_cases encodedLen L task traces ttlSec now with
              ⟨e, hrefused, -⟩ | ⟨L₁, -, -, hcase⟩
            · rw [hrefused] at hplan; cases hplan
            · generalize admitReleaseTask encodedLen L task traces ttlSec now = plan at hcase hplan
              cases hcase with
              | granted lease' hgranted =>
                obtain rfl : lease' = lease := by simpa using hplan
                exact origin_fixed (fun _ => rfl) hgranted.origin
              | _ => cases hplan
          refine ⟨now, lease, ?_, hid⟩
          simp only [hcommit, hanswer]
          rfl
      · exact Or.inl h

/-- What the registry gains is the lease an admission granted. -/
theorem Store.step_inFlight {taskId : String} (hstep : Store.Step encodedLen s (op, answer) s')
    (h : taskId ∈ s'.inFlight) :
    taskId ∈ s.inFlight ∨
      ∃ now lease, grantOf (op, answer) = some (now, lease) ∧ lease.taskId = taskId := by
  cases op with
  | admitTask task traces ttlSec now io =>
    obtain ⟨rfl, rfl⟩ := Prod.mk.inj (Option.some.inj hstep)
    exact Store.admit_inFlight h
  | activate id nowEpoch io =>
    obtain ⟨rfl, rfl⟩ := Prod.mk.inj (Option.some.inj hstep)
    exact Or.inl (Store.endApply_inFlight h)
  | abandon id reason now io =>
    obtain ⟨rfl, rfl⟩ := Prod.mk.inj (Option.some.inj hstep)
    exact Or.inl (Store.endApply_inFlight h)
  | recover now io =>
    obtain ⟨rfl, rfl⟩ := Prod.mk.inj (Option.some.inj hstep)
    replace h : taskId ∈ (s.recover encodedLen now io).1.inFlight := h
    rw [Store.recover, Store.rewrite_inFlight] at h
    exact Or.inl h
  | sweep now audit replies io => exact Or.inl ((Store.sweep_swept hstep).1 ▸ h)
  | compact now io =>
    obtain ⟨rfl, rfl⟩ := Prod.mk.inj (Option.some.inj hstep)
    replace h : taskId ∈ (s.compact encodedLen now io).1.inFlight := h
    rw [Store.compact, Store.rewrite_inFlight] at h
    exact Or.inl h
  | stop =>
    obtain ⟨rfl, rfl⟩ := Prod.mk.inj (Option.some.inj hstep)
    cases h

/-- The lease is not being applied, and while it is held its retry is scheduled for `at'` on this
boot's `CLOCK_BOOTTIME`. -/
structure RetryAt (taskId boot : String) (at' : ℕ) (s : Store) : Prop where
  current : s.Current
  ids : UniqueIds s.ledger
  free : taskId ∉ s.inFlight
  retry : ∀ t ∈ s.ledger.tasks, t.taskId = taskId → t.status.eligible = true →
    t.nextAttemptBoottimeNs = some at' ∧ t.nextAttemptBootId = boot

theorem Store.ledger_of_disk {file : LedgerFile} (h : s.disk = some file) :
    s.ledger = file.ledger := by
  simp [Store.ledger, h]

/-- **Only another attempt moves the retry.** -/
theorem RetryAt.step {taskId boot : String} {at' : ℕ} (h : RetryAt taskId boot at' s)
    (hstep : Store.Step encodedLen s (op, answer) s')
    (hno : ∀ os, answer = .swept (.ok os) → ∀ o ∈ os, o.releaseTaskId ≠ taskId)
    (hgrant : ∀ now lease, grantOf (op, answer) = some (now, lease) → lease.taskId ≠ taskId) :
    RetryAt taskId boot at' s' := by
  obtain ⟨hcurrent, hwrote⟩ := Store.step_ledger hstep h.current
  have hids : UniqueIds s'.ledger := by
    rcases hwrote with ⟨hsame, -⟩ | hw
    · exact hsame ▸ h.ids
    · exact h.ids.wrote hw
  have hfree : taskId ∉ s'.inFlight := by
    intro hmem
    rcases Store.step_inFlight hstep hmem with hmem | ⟨now, lease, hlease, hid⟩
    · exact h.free hmem
    · exact hgrant now lease hlease hid
  refine ⟨hcurrent, hids, hfree, ?_⟩
  by_cases hsweep : op.isSweep = true
  · cases op with
    | sweep now audit replies io =>
      obtain ⟨-, ⟨hdisk, -⟩ | ⟨L, L', os, file, hload, rfl, -, hswept, hdisk, -, hsub⟩⟩ :=
        Store.sweep_swept hstep
      · have hsame : s'.ledger = s.ledger := by unfold Store.ledger; rw [hdisk]
        exact hsame ▸ h.retry
      · obtain rfl := h.current.load hload
        rw [Store.ledger_of_disk hdisk]
        intro t ht hid
        refine h.retry t (hswept.mem_of_not_reported h.ids (hsub.subset ht) ?_) hid
        rintro ⟨o, ho, hoid⟩
        exact hno os rfl o ho (hoid.trans hid)
    | _ => cases hsweep
  · rcases hwrote with ⟨hsame, -⟩ | hw
    · exact hsame ▸ h.retry
    · refine hw.invariant (I := fun L => ∀ t ∈ L.tasks, t.taskId = taskId →
        t.status.eligible = true → t.nextAttemptBoottimeNs = some at' ∧
          t.nextAttemptBootId = boot) ?_ ?_ ?_ h.retry
      · intro L tasks' hL hf t' ht' hid heligible
        obtain ⟨t, ht, hmove⟩ := exists_of_forall₂_right hf ht'
        obtain ⟨hat, hboot⟩ := hmove.retry (Bool.eq_false_of_not_eq_true hsweep)
        rw [hat, hboot]
        exact hL t ht (hmove.taskId ▸ hid) (hmove.eligible heligible)
      · intro L now _ hL t ht
        exact hL t ((compactLedger_sublist L now).subset ht)
      · rintro L new hL ⟨task, now, htask, hnow, -, -, -, hnew⟩ t ht hid heligible
        rcases List.mem_append.mp ht with ht | ht
        · exact hL t ht hid heligible
        · obtain rfl := List.mem_singleton.mp ht
          rcases hnew with hmerged | ⟨hanswer, -⟩
          · rw [hmerged] at heligible; cases heligible
          · exact absurd hid (hgrant now _ (grantOf_prepared hnow hanswer ⟨task, htask⟩))

/-- An attempt that leaves the lease held schedules its retry. -/
theorem retryAt_of_attempt {boot : String} {b : ℕ} (hids : OnDisk UniqueIds s)
    (hstep : Store.Step encodedLen s (.sweep now audit replies io, .swept (.ok os)) s')
    (hreported : Reported os t) (ht : t ∈ s'.ledger.tasks) (heligible : t.status.eligible = true)
    (hmono : t.dueBoottimeNs ≠ none) (hb : now.boottimeNs = some b) (hid : now.bootId = some boot)
    (hboot : validBootId boot = true)
    (hmax : b + retryDelaySeconds t.attempts * nsPerSec ≤ i64Max) :
    RetryAt t.taskId boot (b + retryDelaySeconds t.attempts * nsPerSec) s' := by
  obtain ⟨hflight, ⟨-, hnil⟩ | ⟨L, L', os', file, hload, hos, hfree, hswept, hdisk, hv, hsub⟩⟩ :=
    Store.sweep_swept hstep
  · obtain ⟨o, ho, -⟩ := hreported
    rw [hnil os rfl] at ho
    cases ho
  · obtain rfl : os = os' := by simpa using hos
    have hids' : UniqueIds file.ledger :=
      (hswept.uniqueIds (hids L hload)).sublist (hsub.map _)
    have hledger := Store.ledger_of_disk hdisk
    rw [hledger] at ht
    refine ⟨fun file' hfile' => ?_, hledger ▸ hids', ?_, ?_⟩
    · rw [hdisk] at hfile'
      obtain rfl := Option.some.inj hfile'
      exact hv
    · obtain ⟨o, ho, hoid⟩ := hreported
      rw [hflight, ← hoid]
      exact hfree o ho
    · intro x hx hxid _
      rw [hledger] at hx
      obtain rfl := eq_of_key hids' hx ht hxid
      obtain ⟨dueNs, hdueNs⟩ := Option.ne_none_iff_exists'.mp hmono
      have hretry : retryBoottime x now = some (b + retryDelaySeconds x.attempts * nsPerSec, boot) := by
        simp [retryBoottime, hdueNs, hb, hid, hboot, hmax]
      obtain ⟨hat, hbootId⟩ := hswept.taken (hids L hload) x (hsub.subset hx) hreported heligible
      rw [hat, hbootId, hretry]
      exact ⟨rfl, rfl⟩

/-- **The retry of a release.**  An attempt at boot time `b` left the lease held after `attempts`
of them, and until a later sweep of the same boot nothing attempted it and its id was not granted
anew.  At `b` and the backoff the sweep attempts the lease again exactly when it still reads as
expired. -/
theorem retry_after_backoff (encodedLen : ReleaseLedger → ℕ) {s₀ s₁ s₂ s₃ s₄ : Store}
    {ls₀ ls : List (Op × Answer)} {now now' : LeaseNow} {audit audit' : StartAudit}
    {replies replies' : List Reply} {io io' : LedgerIo} {os : List ReleaseOutcome}
    {answer : Answer} {L : ReleaseLedger} {t t' : ReleaseTask} {boot : String} {b b' : ℕ}
    (hinit : OnDisk UniqueIds s₀) (hrun₀ : Run (Store.Step encodedLen) s₀ ls₀ s₁)
    (hattempt : Store.Step encodedLen s₁ (.sweep now audit replies io, .swept (.ok os)) s₂)
    (hreported : Reported os t) (ht : t ∈ s₂.ledger.tasks) (hheld : t.status.eligible = true)
    (hmono : t.dueBoottimeNs ≠ none) (hb : now.boottimeNs = some b) (hid : now.bootId = some boot)
    (hboot : validBootId boot = true) (hrun : Run (Store.Step encodedLen) s₂ ls s₃)
    (hnone : ∀ l ∈ ls, ∀ os, l.2 = .swept (.ok os) → ¬ Reported os t)
    (hgrant : ∀ l ∈ ls, ∀ now lease, grantOf l = some (now, lease) → lease.taskId ≠ t.taskId)
    (hretry : Store.Step encodedLen s₃ (.sweep now' audit' replies' io', answer) s₄)
    (hwall : validateNow now'.wallEpoch = .ok ()) (hopen : openLedger io' s₃.disk = .ok L)
    (ht' : t' ∈ L.tasks) (hsame : t'.taskId = t.taskId) (hheld' : t'.status.eligible = true)
    (hb' : now'.boottimeNs = some b') (hid' : now'.bootId = some boot) (hmax : b' ≤ i64Max)
    (hbackoff : b + min (2 ^ min t.attempts 8) 300 * nsPerSec ≤ b') :
    Reported (s₃.sweepOutcomes now' audit' replies' io') t' ↔ (leaseExpiry t' now').isSome = true := by
  have hids₁ : OnDisk UniqueIds s₁ :=
    hrun₀.invariant (fun s l t hs hstep => Store.step_onDisk hstep (fun _ _ h hw => h.wrote hw) hs)
      hinit
  have hat₂ : RetryAt t.taskId boot (b + retryDelaySeconds t.attempts * nsPerSec) s₂ :=
    retryAt_of_attempt hids₁ hattempt hreported ht hheld hmono hb hid hboot
      (le_trans hbackoff hmax)
  have hat₃ : RetryAt t.taskId boot (b + retryDelaySeconds t.attempts * nsPerSec) s₃ := by
    refine hrun.history (P := fun ls s => (∀ l ∈ ls, ∀ os, l.2 = .swept (.ok os) →
      ¬ Reported os t) → (∀ l ∈ ls, ∀ now lease, grantOf l = some (now, lease) →
      lease.taskId ≠ t.taskId) → RetryAt t.taskId boot _ s) ?_ (fun _ _ => hat₂) hnone hgrant
    rintro ls s ⟨op, answer⟩ s' ih hstep hnone hgrant
    refine (ih (fun l hl => hnone l (List.mem_append_left _ hl))
      (fun l hl => hgrant l (List.mem_append_left _ hl))).step hstep ?_
      (hgrant (op, answer) (by simp))
    intro os hos o ho hoid
    exact hnone (op, answer) (by simp) os hos ⟨o, ho, hoid⟩
  obtain rfl := hat₃.current.load (openLedger_ok hopen)
  rw [Store.sweep_reports hat₃.ids hwall hopen hretry ht']
  obtain ⟨hat, -⟩ := hat₃.retry t' ht' hsame hheld'
  have hdue : ∀ clock, attemptDue t' now' clock = true := by
    intro clock
    unfold attemptDue
    rw [retryDueOnBoottime_of_scheduled hat hid' hb' hbackoff]
    simp
  unfold candidate?
  rw [if_pos ⟨hheld', hsame ▸ hat₃.free⟩]
  cases leaseExpiry t' now' with
  | none => simp
  | some clock => simp [hdue clock]

/-! ## 4. A lease that is expired only for a while -/

theorem Store.step_sweep {result : Except String (List ReleaseOutcome)}
    (h : s.sweep encodedLen now audit replies io = some (s', result)) :
    Store.Step encodedLen s (.sweep now audit replies io, .swept result) s' := by
  change (s.sweep encodedLen now audit replies io).map (Prod.map id Answer.swept) = _
  rw [h]
  rfl

/-- The sample lease in force. -/
def sampleActive : Store × List (Op × Answer) :=
  (Store.execAll (fun _ => 1000) ⟨none, []⟩ [.admitTask sampleTask [] 300 (sampleNow 0) .fine,
    .activate sampleTask.taskId 1700000001 .fine]).get (by decide +kernel)

/-- 100 seconds into the boot, with the wall clock stepped 1000 seconds forward. -/
def sampleJump : LeaseNow := ⟨1700001100, some ((50 + 100) * nsPerSec), some "0a1b2c"⟩

/-- The attempt on it then; its command times out. -/
def sampleAttempt : Store × Except String (List ReleaseOutcome) :=
  (sampleActive.1.sweep (fun _ => 1000) sampleJump (fun _ => .ok ()) [.error "nft timed out"]
    .fine).get (by decide +kernel)

/-- The task it left behind. -/
def samplePending : ReleaseTask := (sampleAttempt.1.ledger.tasks.head?).get (by decide +kernel)

theorem samplePending_facts :
    sampleAttempt.2.toOption.map (·.map (·.releaseTaskId)) = some [samplePending.taskId] ∧
      samplePending.status = .active ∧ samplePending.attempts = 1 ∧
      samplePending.dueBoottimeNs = some (350 * nsPerSec) ∧
      openLedger .fine sampleAttempt.1.disk = .ok sampleAttempt.1.ledger ∧
      candidates sampleAttempt.1.inFlight (sampleNow 110) sampleAttempt.1.ledger.tasks = [] := by
  decide +kernel

/-- The attempt as a step of the store, with its outcomes. -/
theorem sampleAttempt_step : ∃ os, Reported os samplePending ∧
    Store.Step (fun _ => 1000) sampleActive.1
      (.sweep sampleJump (fun _ => .ok ()) [.error "nft timed out"] .fine, .swept (.ok os))
      sampleAttempt.1 := by
  have hsweep : sampleActive.1.sweep (fun _ => 1000) sampleJump (fun _ => .ok ())
      [.error "nft timed out"] .fine = some (sampleAttempt.1, sampleAttempt.2) :=
    (Option.some_get _).symm
  have hids := samplePending_facts.1
  cases hresult : sampleAttempt.2 with
  | error e => rw [hresult] at hids; cases hids
  | ok os =>
    rw [hresult] at hids hsweep
    have hids : os.map (·.releaseTaskId) = [samplePending.taskId] := Option.some.inj hids
    have hmem : samplePending.taskId ∈ os.map (·.releaseTaskId) := by
      rw [hids]
      exact List.mem_singleton_self _
    obtain ⟨o, ho, hid⟩ := List.mem_map.mp hmem
    exact ⟨os, ⟨o, ho, hid⟩, Store.step_sweep hsweep⟩

theorem samplePending_mem : samplePending ∈ sampleAttempt.1.ledger.tasks :=
  List.mem_of_head? (Option.some_get _).symm

/-- The retry once the lease has expired for good. -/
def sampleRetry : Store × Except String (List ReleaseOutcome) :=
  (sampleAttempt.1.sweep (fun _ => 1000) (sampleNow 400) (fun _ => .ok ()) [.error "nft timed out"]
    .fine).get (by decide +kernel)

theorem retry_after_backoff_sample :
    Reported (sampleAttempt.1.sweepOutcomes (sampleNow 400) (fun _ => .ok ())
      [.error "nft timed out"] .fine) samplePending := by
  obtain ⟨os, hreported, hstep⟩ := sampleAttempt_step
  obtain ⟨-, hactive, hattempts, hdue, hopen, -⟩ := samplePending_facts
  have hinit : OnDisk UniqueIds ⟨none, []⟩ := by
    intro L hL
    rw [← Except.ok.inj hL]
    exact List.nodup_nil
  have hsweep : sampleAttempt.1.sweep (fun _ => 1000) (sampleNow 400) (fun _ => .ok ())
      [.error "nft timed out"] .fine = some (sampleRetry.1, sampleRetry.2) :=
    (Option.some_get _).symm
  have hrun : Run (Store.Step fun _ => 1000) ⟨none, []⟩ sampleActive.2 sampleActive.1 :=
    (Store.execAll_get _ _ _ _).1
  exact (retry_after_backoff (fun _ => 1000) hinit hrun hstep hreported
    samplePending_mem (by rw [hactive]; rfl) (by rw [hdue]; exact nofun) rfl rfl
    (by decide +kernel) (Run.refl _) (fun l hl => by cases hl) (fun l hl => by cases hl)
    (Store.step_sweep hsweep)
    (by decide +kernel) hopen samplePending_mem rfl (by rw [hactive]; rfl) rfl rfl (by decide)
    (by rw [hattempts]; decide)).mpr (by decide +kernel)

/-- **The retry can be held back by the wall clock.**  10 seconds after the attempt, the wall clock
back in step, the lease reads as not expired and the sweep passes it over. -/
theorem retry_held_back :
    ∃ os, Reported os samplePending ∧
      Store.Step (fun _ => 1000) sampleActive.1
        (.sweep sampleJump (fun _ => .ok ()) [.error "nft timed out"] .fine, .swept (.ok os))
        sampleAttempt.1 ∧
      samplePending ∈ sampleAttempt.1.ledger.tasks ∧ samplePending.status.eligible = true ∧
      samplePending.dueBoottimeNs ≠ none ∧ sampleJump.bootId = (sampleNow 110).bootId ∧
      (50 + 100) * nsPerSec + min (2 ^ min samplePending.attempts 8) 300 * nsPerSec ≤
        (50 + 110) * nsPerSec ∧
      Store.Step (fun _ => 1000) sampleAttempt.1
        (.sweep (sampleNow 110) (fun _ => .ok ()) [] .fine, .swept (.ok [])) sampleAttempt.1 ∧
      ¬ Reported (sampleAttempt.1.sweepOutcomes (sampleNow 110) (fun _ => .ok ()) [] .fine)
        samplePending := by
  obtain ⟨os, hreported, hstep⟩ := sampleAttempt_step
  obtain ⟨-, hactive, hattempts, hdue, hopen, hnone⟩ := samplePending_facts
  have hstart : sampleAttempt.1.sweepStart (sampleNow 110) .fine = .nothing (.ok []) := by
    have hwall : validateNow (sampleNow 110).wallEpoch = .ok () := by decide +kernel
    have hdisk : sampleAttempt.1.disk ≠ none := by decide +kernel
    unfold Store.sweepStart
    rw [hwall]
    simp only [LedgerIo.fine] at hopen ⊢
    rw [if_neg hdisk, hopen]
    dsimp only
    rw [hnone]
  refine ⟨os, hreported, hstep, samplePending_mem, by rw [hactive]; rfl, by rw [hdue]; exact nofun,
    rfl, by rw [hattempts]; decide, ?_, ?_⟩
  · refine Store.step_sweep ?_
    unfold Store.sweep
    rw [hstart]
    rfl
  · unfold Store.sweepOutcomes
    rw [hstart]
    rintro ⟨o, ho, -⟩
    cases ho

end AzazelEdge.Release
