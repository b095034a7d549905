/-
# What an edit can do to the ledger

Every property of the ledger below is an invariant, and no proof of one should unfold an
operation.  So this module says once what the operations do to a ledger they loaded.

* `TaskMove`: what can happen to ONE task, with the guard of each move.
* `LedgerMove`: an edit moves each task or leaves it, or a compaction removes some; neither adds
  a task.  Every operation but an admission is a sequence of these (`evolves_…`).
-/
import Mathlib.Logic.Relation
import AzazelEdge.Release.Store

namespace AzazelEdge.Release

open AzazelEdge.Lib

/-! ## 1. Moves of one task -/

/-- The part of a task that is fixed when it enters the ledger: the task with every field that
can change later set to a constant. -/
def ReleaseTask.identity (task : ReleaseTask) : ReleaseTask :=
  { task with
    dueEpoch := 0
    nextAttemptEpoch := 0
    updatedEpoch := 0
    status := .prepared
    attempts := 0
    lastError := ""
    dueBoottimeNs := none
    nextAttemptBoottimeNs := none
    nextAttemptBootId := ""
    extensions := 0
    cooldownUntilEpoch := none
    cooldownUntilBoottimeNs := none
    cooldownBootId := ""
    cooldownRecordedEpoch := none
    ruleRemovedEpoch := none }

/-- Whether an operation is a sweep. -/
def Op.isSweep : Op → Bool
  | .sweep .. => true
  | _ => false

/-- The clocks an operation reads; an activation reads the wall clock only. -/
def Op.clock : Op → Option LeaseNow
  | .admitTask _ _ _ now _ => some now
  | .abandon _ _ now _ => some now
  | .recover now _ => some now
  | .sweep now _ _ _ => some now
  | .compact now _ => some now
  | .activate .. => none
  | .stop => none

/-- The wall clock an operation reads. -/
def Op.wallEpoch : Op → Option Epoch
  | .activate _ nowEpoch _ => some nowEpoch
  | op => op.clock.map (·.wallEpoch)

theorem wallEpoch_of_clock {op : Op} {now : LeaseNow} (h : op.clock = some now) :
    op.wallEpoch = some now.wallEpoch := by
  cases op with
  | activate => cases h
  | _ => simp [Op.wallEpoch, h]

/-- The task an operation asks admission for. -/
def Op.admits : Op → Option ReleaseTask
  | .admitTask task _ _ _ _ => some task
  | _ => none

/-- The lease an operation activates. -/
def Op.activates : Op → Option String
  | .activate taskId _ _ => some taskId
  | _ => none

/-- What one edit of an operation does to a task. -/
inductive TaskMove (op : Op) : ReleaseTask → ReleaseTask → Prop
  | same (t) : TaskMove op t t
  | usedUp (t) (now : LeaseNow) (hnow : op.clock = some now)
      (hcalm : (cooldownRunning t now).running = none) :
      TaskMove op t (recordCooldown t (familyCap t.familyStart + flowCooldownSec) now)
  | reread (t) (now : LeaseNow) (hnow : op.clock = some now) :
      TaskMove op t (cooldownRunning t now).task
  | extended (t) (newDue : Epoch) (dueBoottimeNs : Option ℕ) (now : LeaseNow)
      (hnow : op.clock = some now) (hactive : t.status = .active)
      (hrule : t.ruleRemovedEpoch = none) (hextensions : t.extensions < maxLeaseExtensions)
      (hdue : t.dueEpoch + 1 < newDue) (hcap : newDue ≤ familyCap t.familyStart)
      (hboot : extendedBoottime t newDue now = .ok dueBoottimeNs) (task : ReleaseTask)
      (htask : op.admits = some task) (hvalid : validateTask task = .ok ())
      (hresource : t.resourceKey = task.resourceKey)
      (hcalm : sameFlow t task = true → (cooldownRunning t now).running = none) :
      TaskMove op t (extended t newDue dueBoottimeNs now)
  | uncertain (t) (now : LeaseNow) (error : String) (hnow : op.clock = some now)
      (hprepared : t.status = .prepared) : TaskMove op t (markUncertain now error t)
  | activated (t) (nowEpoch : Epoch) (hactivate : op.activates = some t.taskId)
      (hprepared : t.status = .prepared) (hwall : op.wallEpoch = some nowEpoch) :
      TaskMove op t { t with status := .active, updatedEpoch := nowEpoch, lastError := "" }
  | superseded (t) (nowEpoch : Epoch) (error : String) (hlegacy : isLegacyTcThrottle t = true)
      (heligible : t.status.eligible = true) (hwall : op.wallEpoch = some nowEpoch) :
      TaskMove op t
        { t with status := .superseded, updatedEpoch := nowEpoch, lastError := error }
  | attempted (t) (now : LeaseNow) (result : Except String ReleaseOutcome)
      (hnow : op.clock = some now) (hsweep : op.isSweep = true)
      (heligible : t.status.eligible = true) : TaskMove op t (afterAttempt now result t)
  | deferred (t) (newer : ReleaseTask) (now : LeaseNow) (hnow : op.clock = some now)
      (hsweep : op.isSweep = true) (heligible : t.status.eligible = true) :
      TaskMove op t (deferredTo newer now t)

variable {op : Op} {t t' : ReleaseTask}

/-- Reading a cooldown leaves the task, or re-anchors its cooldown. -/
theorem cooldownRunning_task (t : ReleaseTask) (now : LeaseNow) :
    (cooldownRunning t now).task = t ∨
      ∃ untilWall, (cooldownRunning t now).task = recordCooldown t untilWall now := by
  unfold cooldownRunning
  split
  · exact Or.inl rfl
  · split
    · exact Or.inl rfl
    · exact Or.inl rfl
    · dsimp only
      split
      · exact Or.inl rfl
      · dsimp only
        split
        · exact Or.inr ⟨_, rfl⟩
        · exact Or.inl rfl

@[simp] theorem scheduleRetry_status (task : ReleaseTask) (now : LeaseNow) :
    (scheduleRetry task now).status = task.status := rfl

@[simp] theorem scheduleRetry_identity (task : ReleaseTask) (now : LeaseNow) :
    (scheduleRetry task now).identity = task.identity := rfl

@[simp] theorem recordCooldown_status (task : ReleaseTask) (untilWall : Epoch) (now : LeaseNow) :
    (recordCooldown task untilWall now).status = task.status := rfl

@[simp] theorem recordCooldown_identity (task : ReleaseTask) (untilWall : Epoch)
    (now : LeaseNow) : (recordCooldown task untilWall now).identity = task.identity := rfl

@[simp] theorem extended_status (held : ReleaseTask) (newDue : Epoch) (b : Option ℕ)
    (now : LeaseNow) : (extended held newDue b now).status = held.status := by
  unfold extended; split <;> rfl

@[simp] theorem extended_identity (held : ReleaseTask) (newDue : Epoch) (b : Option ℕ)
    (now : LeaseNow) : (extended held newDue b now).identity = held.identity := by
  unfold extended; split <;> rfl

@[simp] theorem extended_dueEpoch (held : ReleaseTask) (newDue : Epoch) (b : Option ℕ)
    (now : LeaseNow) : (extended held newDue b now).dueEpoch = newDue := by
  unfold extended; split <;> rfl

@[simp] theorem extended_dueBoottimeNs (held : ReleaseTask) (newDue : Epoch) (b : Option ℕ)
    (now : LeaseNow) : (extended held newDue b now).dueBoottimeNs = b := by
  unfold extended; split <;> rfl

@[simp] theorem extended_extensions (held : ReleaseTask) (newDue : Epoch) (b : Option ℕ)
    (now : LeaseNow) : (extended held newDue b now).extensions = held.extensions + 1 := by
  unfold extended; split <;> rfl

/-- An attempt ends with the task released, or leaves its status. -/
theorem afterAttempt_status (now : LeaseNow) (result : Except String ReleaseOutcome)
    (t : ReleaseTask) :
    (afterAttempt now result t).status = t.status ∨
      ((afterAttempt now result t).status = .released ∧
        ∃ outcome, result = .ok outcome ∧ outcome.status = .released) := by
  cases result with
  | error e => exact Or.inl rfl
  | ok outcome =>
    by_cases h : outcome.status = .released
    · exact Or.inr ⟨by simp [afterAttempt, h, markReleased], outcome, rfl, h⟩
    · exact Or.inl (by simp [afterAttempt, h, markPending])

/-- What an attempt leaves alone: everything but the status, the error, the retry and the record of
the rule's removal. -/
theorem afterAttempt_leaves {β : Type} {g : ReleaseTask → β}
    (hg : ∀ (x : ReleaseTask) status attempts updatedEpoch lastError nextAttemptEpoch
      nextAttemptBoottimeNs nextAttemptBootId ruleRemovedEpoch,
      g { x with
        status, attempts, updatedEpoch, lastError, nextAttemptEpoch, nextAttemptBoottimeNs,
        nextAttemptBootId, ruleRemovedEpoch } = g x)
    (now : LeaseNow) (result : Except String ReleaseOutcome) (t : ReleaseTask) :
    g (afterAttempt now result t) = g t := by
  cases result with
  | error e => exact hg t _ _ _ _ _ _ _ _
  | ok outcome =>
    by_cases h : outcome.status = .released
    · simp only [afterAttempt, if_pos h]
      exact hg t _ _ _ _ _ _ _ _
    · simp only [afterAttempt, if_neg h]
      exact hg t _ _ _ _ _ _ _ _

/-- An attempt leaves the deadlines of the lease. -/
theorem afterAttempt_deadlines (now : LeaseNow) (result : Except String ReleaseOutcome)
    (t : ReleaseTask) :
    (afterAttempt now result t).dueEpoch = t.dueEpoch ∧
      (afterAttempt now result t).dueBoottimeNs = t.dueBoottimeNs ∧
      (afterAttempt now result t).extensions = t.extensions :=
  ⟨afterAttempt_leaves (fun _ _ _ _ _ _ _ _ _ => rfl) now result t,
    afterAttempt_leaves (fun _ _ _ _ _ _ _ _ _ => rfl) now result t,
    afterAttempt_leaves (fun _ _ _ _ _ _ _ _ _ => rfl) now result t⟩

@[simp] theorem afterAttempt_identity (now : LeaseNow) (result : Except String ReleaseOutcome)
    (t : ReleaseTask) : (afterAttempt now result t).identity = t.identity :=
  afterAttempt_leaves (fun _ _ _ _ _ _ _ _ _ => rfl) now result t

/-- **No move changes what is fixed.** -/
theorem TaskMove.identity (h : TaskMove op t t') : t'.identity = t.identity := by
  cases h with
  | same => rfl
  | usedUp => rfl
  | reread now => rcases cooldownRunning_task t now with h | ⟨_, h⟩ <;> rw [h]; rfl
  | extended => exact extended_identity ..
  | uncertain => rfl
  | activated => rfl
  | superseded => rfl
  | attempted => exact afterAttempt_identity ..
  | deferred => rfl

/-- A function of the fixed part is unchanged. -/
theorem TaskMove.fixed {β : Type} {g : ReleaseTask → β} (hg : ∀ x, g x.identity = g x)
    (h : TaskMove op t t') : g t' = g t := by
  rw [← hg t', h.identity, hg]

theorem TaskMove.taskId (h : TaskMove op t t') : t'.taskId = t.taskId :=
  h.fixed fun _ => rfl

theorem TaskMove.ownerToken (h : TaskMove op t t') : t'.ownerToken = t.ownerToken :=
  h.fixed fun _ => rfl

theorem TaskMove.eventKey (h : TaskMove op t t') : t'.eventKey = t.eventKey :=
  h.fixed fun _ => rfl

theorem TaskMove.eventEpoch (h : TaskMove op t t') : t'.eventEpoch = t.eventEpoch :=
  h.fixed fun _ => rfl

theorem TaskMove.resourceKey (h : TaskMove op t t') : t'.resourceKey = t.resourceKey :=
  h.fixed fun _ => rfl

theorem TaskMove.createdEpoch (h : TaskMove op t t') : t'.createdEpoch = t.createdEpoch :=
  h.fixed fun _ => rfl

theorem TaskMove.familyStart (h : TaskMove op t t') : t'.familyStart = t.familyStart :=
  h.fixed (g := ReleaseTask.familyStart) fun _ => rfl

/-- **A terminal task is terminal for good**: its status never changes. -/
theorem TaskMove.terminal (h : TaskMove op t t') (ht : t.status.eligible = false) :
    t'.status = t.status := by
  cases h with
  | same => rfl
  | usedUp => rfl
  | reread now => rcases cooldownRunning_task t now with h | ⟨_, h⟩ <;> rw [h]; rfl
  | extended _ _ _ _ hactive => rw [hactive] at ht; cases ht
  | uncertain _ _ _ hprepared => rw [hprepared] at ht; cases ht
  | activated _ _ hprepared => rw [hprepared] at ht; cases ht
  | superseded _ _ _ heligible => rw [heligible] at ht; cases ht
  | attempted _ _ _ _ heligible => rw [heligible] at ht; cases ht
  | deferred _ _ _ _ heligible => rw [heligible] at ht; cases ht

/-- No move makes a terminal task eligible. -/
theorem TaskMove.eligible (h : TaskMove op t t') (ht : t'.status.eligible = true) :
    t.status.eligible = true := by
  by_contra hne
  rw [h.terminal (Bool.eq_false_of_not_eq_true hne)] at ht
  exact hne ht

/-- A move leaves the deadlines of a lease, extends them, or gives the lease up as uncertain. -/
theorem TaskMove.deadlines (h : TaskMove op t t') :
    (t'.dueEpoch = t.dueEpoch ∧ t'.dueBoottimeNs = t.dueBoottimeNs ∧ t'.extensions = t.extensions) ∨
      t'.status = .uncertain ∨
      ∃ newDue b now, t.extensions < maxLeaseExtensions ∧ t.dueEpoch + 1 < newDue ∧
        newDue ≤ familyCap t.familyStart ∧ extendedBoottime t newDue now = .ok b ∧
        t' = Release.extended t newDue b now := by
  cases h with
  | same => exact Or.inl ⟨rfl, rfl, rfl⟩
  | usedUp => exact Or.inl ⟨rfl, rfl, rfl⟩
  | reread now =>
    rcases cooldownRunning_task t now with h | ⟨_, h⟩ <;> rw [h] <;> exact Or.inl ⟨rfl, rfl, rfl⟩
  | extended newDue b now _ _ _ hextensions hdue hcap hboot _ _ _ _ _ =>
    exact Or.inr (Or.inr ⟨newDue, b, now, hextensions, hdue, hcap, hboot, rfl⟩)
  | uncertain => exact Or.inr (Or.inl rfl)
  | activated => exact Or.inl ⟨rfl, rfl, rfl⟩
  | superseded => exact Or.inl ⟨rfl, rfl, rfl⟩
  | attempted => exact Or.inl (afterAttempt_deadlines ..)
  | deferred => exact Or.inl ⟨rfl, rfl, rfl⟩

/-- A task that is being applied or in force after a move was so before it. -/
theorem TaskMove.live (h : TaskMove op t t') (ht : t'.status = .prepared ∨ t'.status = .active) :
    t.status = .prepared ∨ t.status = .active := by
  cases h with
  | same => exact ht
  | usedUp => exact ht
  | reread now => rcases cooldownRunning_task t now with h | ⟨_, h⟩ <;> rw [h] at ht <;> exact ht
  | extended _ _ _ _ hactive => exact Or.inr hactive
  | uncertain => rcases ht with h | h <;> cases h
  | activated _ _ hprepared => exact Or.inl hprepared
  | superseded => rcases ht with h | h <;> cases h
  | attempted now result =>
    rcases afterAttempt_status now result t with h | ⟨h, -⟩
    · rwa [h] at ht
    · rw [h] at ht; rcases ht with h | h <;> cases h
  | deferred => exact ht

/-- Outside a sweep a task leaves the eligible statuses only as a superseded legacy throttle. -/
theorem TaskMove.stays (h : TaskMove op t t') (hop : op.isSweep = false)
    (ht : t.status.eligible = true) :
    t'.status.eligible = true ∨ isLegacyTcThrottle t = true := by
  cases h with
  | same => exact Or.inl ht
  | usedUp => exact Or.inl ht
  | reread now =>
    rcases cooldownRunning_task t now with h | ⟨_, h⟩ <;> rw [h] <;> exact Or.inl ht
  | extended => exact Or.inl (by rw [extended_status]; exact ht)
  | uncertain => exact Or.inl rfl
  | activated => exact Or.inl rfl
  | superseded _ _ hlegacy => exact Or.inr hlegacy
  | attempted _ _ _ hsweep => rw [hop] at hsweep; cases hsweep
  | deferred _ _ _ hsweep => rw [hop] at hsweep; cases hsweep

/-! ## 2. Moves of the ledger -/

/-- One edit of the ledger, or one compaction. -/
inductive LedgerMove (op : Op) : ReleaseLedger → ReleaseLedger → Prop
  | edit {tasks tasks' : List ReleaseTask} {checkpoint : LedgerCheckpoint}
      (h : List.Forall₂ (TaskMove op) tasks tasks') :
      LedgerMove op ⟨tasks, checkpoint⟩ ⟨tasks', checkpoint⟩
  | compact (ledger : ReleaseLedger) (now : LeaseNow) (hnow : op.clock = some now) :
      LedgerMove op ledger (compactLedger ledger now).1

/-- A sequence of edits and compactions. -/
abbrev Evolves (op : Op) : ReleaseLedger → ReleaseLedger → Prop :=
  Relation.ReflTransGen (LedgerMove op)

variable {L L' : ReleaseLedger}

theorem Evolves.edit {tasks' : List ReleaseTask} (h : List.Forall₂ (TaskMove op) L.tasks tasks') :
    Evolves op L { L with tasks := tasks' } :=
  Relation.ReflTransGen.single (LedgerMove.edit h)

theorem Evolves.compact (L : ReleaseLedger) {now : LeaseNow} (hnow : op.clock = some now) :
    Evolves op L (compactLedger L now).1 :=
  Relation.ReflTransGen.single (LedgerMove.compact L now hnow)

/-- **The rule for evolutions**: what an edit and a compaction preserve, an evolution preserves. -/
theorem Evolves.invariant {I : ReleaseLedger → Prop}
    (hedit : ∀ L tasks', I L → List.Forall₂ (TaskMove op) L.tasks tasks' →
      I { L with tasks := tasks' })
    (hcompact : ∀ L now, op.clock = some now → I L → I (compactLedger L now).1)
    (h : Evolves op L L') (hL : I L) : I L' := by
  induction h with
  | refl => exact hL
  | tail _ hmove ih =>
    cases hmove with
    | edit hf => exact hedit _ _ ih hf
    | compact _ now hnow => exact hcompact _ _ hnow ih

/-- What compaction keeps is what its retention test keeps, whether or not it removed any. -/
theorem compactLedger_tasks (ledger : ReleaseLedger) (now : LeaseNow) :
    (compactLedger ledger now).1.tasks =
      ledger.tasks.filter fun task => !compactable now task := by
  unfold compactLedger
  by_cases hgone : ledger.tasks.filter (compactable now) = []
  · have hall : ∀ x ∈ ledger.tasks, (!compactable now x) = true := by
      intro x hx
      simpa using List.filter_eq_nil_iff.mp hgone x hx
    simp only [hgone, if_true]
    exact (List.filter_eq_self.mpr hall).symm
  · simp only [hgone, if_false]

theorem mem_compactLedger {ledger : ReleaseLedger} {now : LeaseNow} {task : ReleaseTask} :
    task ∈ (compactLedger ledger now).1.tasks ↔
      task ∈ ledger.tasks ∧ compactable now task = false := by
  rw [compactLedger_tasks, List.mem_filter]
  simp

theorem compactLedger_sublist (ledger : ReleaseLedger) (now : LeaseNow) :
    List.Sublist (compactLedger ledger now).1.tasks ledger.tasks := by
  rw [compactLedger_tasks]
  exact List.filter_sublist

theorem compactAtMarks_sublist (encodedLen : ReleaseLedger → ℕ) (L : ReleaseLedger)
    (now : LeaseNow) : List.Sublist (compactAtMarks encodedLen L now).tasks L.tasks := by
  unfold compactAtMarks
  split
  · exact compactLedger_sublist L now
  · exact List.Sublist.refl _

/-- Compaction never removes a lease that may hold a rule. -/
theorem compactable_eligible {now : LeaseNow} {task : ReleaseTask}
    (h : task.status.eligible = true) : compactable now task = false := by
  simp [compactable, Status.terminal, h]

theorem evolves_compactAtMarks (encodedLen : ReleaseLedger → ℕ) (L : ReleaseLedger)
    {now : LeaseNow} (hnow : op.clock = some now) :
    Evolves op L (compactAtMarks encodedLen L now) := by
  unfold compactAtMarks
  split
  · exact Evolves.compact L hnow
  · exact Relation.ReflTransGen.refl

/-! ## 3. Every update but an admission is an evolution -/

theorem evolves_activate {taskId : String} {nowEpoch : Epoch}
    (hactivate : op.activates = some taskId) (hwall : op.wallEpoch = some nowEpoch)
    (h : activateReleaseTask L taskId nowEpoch = .ok L') : Evolves op L L' := by
  unfold activateReleaseTask at h
  split at h
  · cases h
  · rename_i snapshot hfind
    split at h
    · cases h
    · rename_i hprepared
      obtain rfl := Except.ok.inj h
      have hsup : List.Forall₂ (TaskMove op) L.tasks
          (L.tasks.map (supersede snapshot nowEpoch)) := by
        refine forall₂_map (fun x => ?_) _
        unfold supersede
        split
        · rename_i hx
          exact TaskMove.superseded x _ _ hx.2.2.1 hx.2.2.2.2 hwall
        · exact TaskMove.same x
      refine (Evolves.edit hsup).trans (Evolves.edit (L := ⟨_, L.checkpoint⟩) ?_)
      refine forall₂_editFirst TaskMove.same fun x hx => ?_
      -- The found task is the snapshot, which the superseding pass leaves alone.
      have hxid : x.taskId = taskId := by simpa using List.find?_some hx
      refine TaskMove.activated x nowEpoch (hxid ▸ hactivate) ?_ hwall
      obtain ⟨y, hy, rfl⟩ := List.mem_map.mp (List.mem_of_find?_eq_some hx)
      rw [List.find?_map, Option.map_eq_some_iff] at hx
      obtain ⟨z, hz, hzy⟩ := hx
      have hid : ∀ w, (supersede snapshot nowEpoch w).taskId = w.taskId := by
        intro w; unfold supersede; split <;> rfl
      have hsame : ((fun item : ReleaseTask => decide (item.taskId = taskId)) ∘
          supersede snapshot nowEpoch) = fun item => decide (item.taskId = taskId) := by
        funext w; simp [hid]
      rw [hsame, hfind] at hz
      obtain rfl := Option.some.inj hz
      rw [← hzy]
      have hself : supersede snapshot nowEpoch snapshot = snapshot := by
        simp [supersede]
      rw [hself]
      exact not_not.mp hprepared

theorem evolves_abandon {taskId reason : String} {now : LeaseNow} (hnow : op.clock = some now)
    (h : abandonReleaseTask L taskId reason now = .ok L') : Evolves op L L' := by
  unfold abandonReleaseTask at h
  split at h
  · cases h
  · rename_i task hfind
    split at h
    · cases h
    · rename_i hprepared
      obtain rfl := Except.ok.inj h
      refine Evolves.edit (forall₂_editFirst TaskMove.same fun x hx => ?_)
      rw [hfind] at hx
      obtain rfl := Option.some.inj hx
      exact TaskMove.uncertain _ _ _ hnow (not_not.mp hprepared)

theorem evolves_recover (L : ReleaseLedger) {now : LeaseNow} (hnow : op.clock = some now) :
    Evolves op L (recoverUnconfirmed L now).1 := by
  refine Evolves.edit (forall₂_map (fun x => ?_) _)
  split
  · rename_i hx
    exact TaskMove.uncertain x _ _ hnow hx
  · exact TaskMove.same x

theorem editTask_moves {current : ReleaseTask} {f : ReleaseTask → ReleaseTask}
    (hfind : L.tasks.find? (fun item => item.taskId = current.taskId) = some current)
    (hf : TaskMove op current (f current)) :
    Evolves op L (editTask L current.taskId f) := by
  refine Evolves.edit (forall₂_editFirst TaskMove.same fun x hx => ?_)
  rw [hfind] at hx
  obtain rfl := Option.some.inj hx
  exact hf

/-- A legacy throttle that yields is superseded or put off, and its outcome names it. -/
theorem yieldToNewer_cases {tasks : List ReleaseTask} {current : ReleaseTask} {now : LeaseNow}
    {f : ReleaseTask → ReleaseTask} {outcome : ReleaseOutcome}
    (h : yieldToNewer tasks current now = some (f, outcome)) :
    isLegacyTcThrottle current = true ∧ outcome.releaseTaskId = current.taskId ∧
      ((∃ newer, f = supersededBy newer now) ∨ ∃ newer, f = deferredTo newer now) := by
  unfold yieldToNewer at h
  split at h
  · cases h
  · rename_i hlegacy
    refine ⟨by simpa using hlegacy, ?_⟩
    split at h
    · cases h
    · split at h
      · obtain ⟨rfl, rfl⟩ := Prod.mk.inj (Option.some.inj h)
        exact ⟨rfl, Or.inl ⟨_, rfl⟩⟩
      · split at h
        · obtain ⟨rfl, rfl⟩ := Prod.mk.inj (Option.some.inj h)
          exact ⟨rfl, Or.inr ⟨_, rfl⟩⟩
        · cases h

/-- One turn of a sweep's loop is an evolution, whatever its commands answer. -/
theorem evolves_sweepOne {now : LeaseNow} (hnow : op.clock = some now) (hsweep : op.isSweep = true)
    (audit : StartAudit) (L : ReleaseLedger) (candidate : String × ExpiryClock) :
    Prog.Ensures (fun result => Evolves op L result.1) (sweepOne now audit L candidate) := by
  unfold sweepOne
  split
  · exact Relation.ReflTransGen.refl
  · rename_i current hfind
    have hid : current.taskId = candidate.1 := by simpa using List.find?_some hfind
    rw [← hid] at hfind
    split
    · rename_i heligible
      unfold attemptRelease
      split
      · rename_i f outcome hyield
        obtain ⟨hlegacy, -, ⟨newer, rfl⟩ | ⟨newer, rfl⟩⟩ := yieldToNewer_cases hyield
        · exact editTask_moves hfind (TaskMove.superseded current _ _ hlegacy heligible
            (wallEpoch_of_clock hnow))
        · exact editTask_moves hfind (TaskMove.deferred current newer now hnow hsweep heligible)
      · refine Prog.Ensures.map (Prog.Ensures.of_forall (Q := fun _ => True) (fun _ => trivial) _)
          fun result _ => ?_
        exact editTask_moves hfind (TaskMove.attempted current now result hnow hsweep heligible)
    · exact Relation.ReflTransGen.refl

/-- So is the whole loop. -/
theorem evolves_sweepLoop {now : LeaseNow} (hnow : op.clock = some now)
    (hsweep : op.isSweep = true) (audit : StartAudit) :
    ∀ (due : List (String × ExpiryClock)) (L : ReleaseLedger),
      Prog.Ensures (fun result => Evolves op L result.1) (sweepLoop now audit due L)
  | [], L => Relation.ReflTransGen.refl
  | candidate :: rest, L => by
    refine (evolves_sweepOne hnow hsweep audit L candidate).bind fun turn hturn => ?_
    refine (evolves_sweepLoop hnow hsweep audit rest turn.1).map fun later hlater => ?_
    exact hturn.trans hlater

/-- A save writes the ledger it was given, as v2. -/
theorem saveLedger_ok {encodedLen : ReleaseLedger → ℕ} {io : SaveIo} {file : LedgerFile}
    (h : saveLedger encodedLen io L = .ok file) : file.ledger = L ∧ file.schema = .v2 := by
  unfold saveLedger at h
  split at h
  · cases h
  · split at h
    · cases h
    · obtain rfl := Except.ok.inj h
      exact ⟨rfl, rfl⟩

/-- What a sweep's save writes is the loop's ledger, compacted or not. -/
theorem sweepSave_ok {encodedLen : ReleaseLedger → ℕ} {io retryIo : SaveIo} {now : LeaseNow}
    {file : LedgerFile} (h : sweepSave encodedLen io retryIo L now = .ok file) :
    (file.ledger = L ∨ file.ledger = (compactLedger L now).1) ∧ file.schema = .v2 := by
  unfold sweepSave at h
  split at h
  · rename_i file' hfirst
    obtain rfl := Except.ok.inj h
    obtain ⟨hL, hv⟩ := saveLedger_ok hfirst
    exact ⟨Or.inl hL, hv⟩
  · split at h
    · cases h
    · obtain ⟨hL, hv⟩ := saveLedger_ok h
      exact ⟨Or.inr hL, hv⟩

theorem evolves_sweepSave {encodedLen : ReleaseLedger → ℕ} {io retryIo : SaveIo} {now : LeaseNow}
    {file : LedgerFile} (hnow : op.clock = some now)
    (h : sweepSave encodedLen io retryIo L now = .ok file) :
    Evolves op L file.ledger ∧ file.schema = .v2 := by
  obtain ⟨hL | hL, hv⟩ := sweepSave_ok h
  · exact ⟨hL ▸ Relation.ReflTransGen.refl, hv⟩
  · exact ⟨hL ▸ Evolves.compact L hnow, hv⟩

end AzazelEdge.Release
