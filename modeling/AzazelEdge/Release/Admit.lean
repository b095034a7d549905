/-
# How an admission ends

`admit_release_task` has seven ends once the replay guards let it pass (`AdmitCase`).  Six leave
the tasks where they are and edit at most some; the three that grant append the alert's own task,
as a lease or as a tombstone (`AdmitCase.wrote`).
-/
import AzazelEdge.Release.Moves

namespace AzazelEdge.Release

open AzazelEdge.Lib

/-! ## 1. The ends -/

/-- A lease granted on a free resource: what held when it was, and what it is. -/
structure Granted (ledger : ReleaseLedger) (task : ReleaseTask) (now : LeaseNow)
    (lease : ReleaseTask) : Prop where
  calm : cooldownEnd task now ledger.tasks = none
  free : ∀ x ∈ ledger.tasks, holdsResource task x = false
  room : ledger.tasks.countP (·.status.eligible) < maxActiveLeases
  /-- Shorter than the family's bound, or cut at it with the cooldown recorded. -/
  shape :
    let start := familyStartFor ledger.tasks task now
    let lease' := { task with familyStartedEpoch := some start }
    (task.dueEpoch < familyCap start ∧ lease = { lease' with status := .prepared }) ∨
    (familyCap start ≤ task.dueEpoch ∧ (minLeaseTtlSec : ℚ) ≤ familyCap start - now.wallEpoch ∧
      lease = { cutAt lease' (familyCap start) now with status := .prepared })

/-- The lease `held` stands in the way of a new one and may be extended. -/
structure Holding (ledger : ReleaseLedger) (task : ReleaseTask) (now : LeaseNow)
    (held : ReleaseTask) : Prop where
  calm : cooldownEnd task now ledger.tasks = none
  found : ledger.tasks.find? (holdsResource task) = some held
  active : held.status = .active
  rule : held.ruleRemovedEpoch = none

/-- The end an alert asks of the lease that holds its resource. -/
def requestedDue (held : ReleaseTask) (ttlSec : ℕ) (now : LeaseNow) : Epoch :=
  min (now.wallEpoch + clampTtl ttlSec) (familyCap held.familyStart)

/-- The seven ways an admission ends on the ledger the replay guards passed on. -/
inductive AdmitCase (ledger : ReleaseLedger) (task : ReleaseTask) (ttlSec : ℕ) (now : LeaseNow) :
    AdmitPlan → Prop
  | refused (e : String) (he : e ≠ limitReached) : AdmitCase ledger task ttlSec now (.refuse e)
  | cooling (untilEpoch : Epoch) (save : Option ReleaseLedger)
      (hend : cooldownEnd task now ledger.tasks = some untilEpoch)
      (hsave : save = if cooldownAnchored task now ledger.tasks then
        some { ledger with tasks := cooldownPass task now ledger.tasks } else none) :
      AdmitCase ledger task ttlSec now ⟨save, .ok (.cooldown untilEpoch)⟩
  /-- The held lease is as long as its family allows: refused, and nothing is written. -/
  | heldFull (held : ReleaseTask) (hheld : Holding ledger task now held)
      (hdue : requestedDue held ttlSec now ≤ held.dueEpoch + 1)
      (hfull : familyCap held.familyStart ≤ held.dueEpoch + 1) :
      AdmitCase ledger task ttlSec now (.refuse limitReached)
  /-- The family is used up: refused, and the cooldown is recorded on its latest lease. -/
  | usedUp (k : ℕ) (last : ReleaseTask) (hlast : ledger.tasks[k]? = some last)
      (hcalm : cooldownEnd task now ledger.tasks = none)
      (hfree : ledger.tasks.find? (holdsResource task) = none)
      (hfamily : inFamilyOf task last = true)
      (hstart : last.familyStart = familyStartFor ledger.tasks task now)
      (hcap : familyCap last.familyStart ≤ task.dueEpoch)
      (hshort : familyCap last.familyStart - now.wallEpoch < minLeaseTtlSec) :
      AdmitCase ledger task ttlSec now
        { save := some
            { ledger with
              tasks := ledger.tasks.modify k fun item =>
                recordCooldown item (familyCap last.familyStart + flowCooldownSec) now }
          answer := .error limitReached }
  | alreadyHeld (held : ReleaseTask) (hheld : Holding ledger task now held)
      (hdue : requestedDue held ttlSec now ≤ held.dueEpoch + 1)
      (hfull : held.dueEpoch + 1 < familyCap held.familyStart) :
      AdmitCase ledger task ttlSec now
        { save := some { ledger with tasks := ledger.tasks ++ [tombstoneOf task held now] }
          answer := .ok (.alreadyHeld held.taskId held.dueEpoch held) }
  | extended (held item : ReleaseTask) (dueBoottimeNs : Option ℕ)
      (hheld : Holding ledger task now held)
      (hdue : held.dueEpoch + 1 < requestedDue held ttlSec now)
      (hextensions : held.extensions < maxLeaseExtensions)
      (hboot : extendedBoottime held (requestedDue held ttlSec now) now = .ok dueBoottimeNs)
      (hitem : item = Release.extended held (requestedDue held ttlSec now) dueBoottimeNs now) :
      AdmitCase ledger task ttlSec now
        { save := some
            { ledger with
              tasks := editFirst (holdsResource task) (fun _ => item) ledger.tasks ++
                [tombstoneOf task held now] }
          answer := .ok (.extended item.taskId (requestedDue held ttlSec now) item.extensions
            item) }
  | granted (lease : ReleaseTask) (hgranted : Granted ledger task now lease) :
      AdmitCase ledger task ttlSec now
        { save := some { ledger with tasks := ledger.tasks ++ [lease] }
          answer := .ok (.prepared lease) }

variable {ledger : ReleaseLedger} {task held : ReleaseTask} {ttlSec : ℕ} {now : LeaseNow}

theorem admitHeld_cases (hcalm : cooldownEnd task now ledger.tasks = none)
    (hfound : ledger.tasks.find? (holdsResource task) = some held) :
    AdmitCase ledger task ttlSec now (admitHeld ledger task held ttlSec now) := by
  unfold admitHeld
  split
  · exact AdmitCase.refused _ (by decide)
  · rename_i hrule
    split
    · exact AdmitCase.refused _ (by cases held.status <;> decide)
    · rename_i hactive
      have hheld : Holding ledger task now held :=
        ⟨hcalm, hfound, not_not.mp hactive, by simpa using hrule⟩
      change AdmitCase ledger task ttlSec now (if requestedDue held ttlSec now ≤ _ then _ else _)
      split
      · rename_i hdue
        split
        · rename_i hfull
          exact AdmitCase.heldFull held hheld hdue hfull
        · rename_i hfull
          exact AdmitCase.alreadyHeld held hheld hdue (not_le.mp hfull)
      · rename_i hdue
        split
        · exact AdmitCase.refused _ (by decide)
        · rename_i hextensions
          split
          · rename_i e hboot
            refine AdmitCase.refused _ ?_
            unfold extendedBoottime at hboot
            split at hboot
            · cases hboot
            · split at hboot
              · cases hboot
              · rw [← Except.error.inj hboot]; decide
          · rename_i b hboot
            exact AdmitCase.extended held _ b hheld (not_le.mp hdue) (not_le.mp hextensions) hboot rfl

/-- The family's start is one of its tasks', unless it starts now. -/
theorem currentFamily_mem {tasks : List ReleaseTask} {start : Epoch}
    (h : currentFamily tasks task now = some start) :
    ∃ item ∈ tasks, inFamilyOf task item = true ∧ item.familyStart = start ∧
      now.wallEpoch - start < maxCumulativeLeaseSec := by
  have hfold : ∀ (starts : List Epoch) (acc : Option Epoch),
      starts.foldl (fun acc start => some (acc.elim start fun a => min a start)) acc = some start →
        acc = some start ∨ start ∈ starts := by
    intro starts
    induction starts with
    | nil => intro acc hacc; exact Or.inl hacc
    | cons x xs ih =>
      intro acc hacc
      rcases ih _ hacc with h' | h'
      · cases acc with
        | none => exact Or.inr (by simp at h'; simp [h'])
        | some a =>
          rcases min_choice a x with hm | hm
          · exact Or.inl (by simpa [hm] using h')
          · exact Or.inr (by simp [hm] at h'; simp [h'])
      · exact Or.inr (List.mem_cons_of_mem _ h')
  rcases hfold _ none h with h' | h'
  · cases h'
  · simp only [List.mem_filter, List.mem_map, decide_eq_true_eq] at h'
    obtain ⟨⟨item, ⟨hmem, hfam⟩, rfl⟩, hrecent⟩ := h'
    exact ⟨item, hmem, hfam, rfl, hrecent⟩

/-- A family this close to its end has a lease, which `latestOfFamily` finds. -/
theorem latestOfFamily_isSome {tasks : List ReleaseTask}
    (hclose : familyCap (familyStartFor tasks task now) - now.wallEpoch < minLeaseTtlSec) :
    ∃ k, latestOfFamily tasks task (familyStartFor tasks task now) = some k := by
  cases hcur : currentFamily tasks task now with
  | none =>
    exfalso
    have hstart : familyStartFor tasks task now = now.wallEpoch := by
      simp [familyStartFor, hcur]
    rw [hstart] at hclose
    simp [familyCap, maxCumulativeLeaseSec, minLeaseTtlSec] at hclose
    norm_num at hclose
  | some start =>
    obtain ⟨item, hmem, hfam, hst, -⟩ := currentFamily_mem hcur
    have hstart : familyStartFor tasks task now = start := by
      simp [familyStartFor, hcur]
    rw [hstart]
    exact lastMax_isSome hmem (by simp [hfam, hst])

theorem admitFresh_cases (hcalm : cooldownEnd task now ledger.tasks = none)
    (hfree : ledger.tasks.find? (holdsResource task) = none) :
    AdmitCase ledger task ttlSec now (admitFresh ledger task now) := by
  have hfree' : ∀ x ∈ ledger.tasks, holdsResource task x = false := by
    intro x hx
    simpa using List.find?_eq_none.mp hfree x hx
  unfold admitFresh
  split
  · exact AdmitCase.refused _ (by decide)
  · rename_i hroom
    have hroom := not_le.mp hroom
    dsimp only
    split
    · rename_i hshort
      exact AdmitCase.granted _ ⟨hcalm, hfree', hroom, Or.inl ⟨hshort, rfl⟩⟩
    · rename_i hlong
      split
      · rename_i hclose
        split
        · rename_i k hk
          obtain ⟨last, hlast, hp⟩ := lastMax_spec hk
          have hp' : inFamilyOf task last = true ∧
              last.familyStart = familyStartFor ledger.tasks task now := by
            simpa using hp
          rw [← hp'.2] at hlong hclose ⊢
          exact AdmitCase.usedUp k last hlast hcalm hfree hp'.1 hp'.2 (not_lt.mp hlong) hclose
        · rename_i hnone
          obtain ⟨k, hk⟩ := latestOfFamily_isSome hclose
          rw [hk] at hnone
          cases hnone
      · rename_i hfar
        exact AdmitCase.granted _
          ⟨hcalm, hfree', hroom, Or.inr ⟨not_lt.mp hlong, not_lt.mp hfar, rfl⟩⟩

theorem admitGuarded_cases (ledger : ReleaseLedger) (task : ReleaseTask) (ttlSec : ℕ)
    (now : LeaseNow) :
    AdmitCase ledger task ttlSec now (admitGuarded ledger task ttlSec now) := by
  unfold admitGuarded
  dsimp only
  split
  · rename_i untilEpoch hend
    exact AdmitCase.cooling untilEpoch _ hend rfl
  · rename_i hcalm
    split
    · rename_i held hfound
      exact admitHeld_cases hcalm hfound
    · rename_i hfree
      exact admitFresh_cases hcalm hfree

/-- An admission that writes nothing grants nothing. -/
theorem AdmitCase.grants_of_save_none {plan : AdmitPlan}
    (h : AdmitCase ledger task ttlSec now plan) (hsave : plan.save = none) :
    (Answer.admitted plan.answer).grants = false := by
  cases h with
  | refused => rfl
  | cooling => rfl
  | heldFull => rfl
  | usedUp => cases hsave
  | alreadyHeld => cases hsave
  | extended => cases hsave
  | granted => cases hsave

/-! ## 2. The cooldown it looked for -/

theorem latestEnd_eq_none {ends : List Epoch} {acc : Option Epoch}
    (h : ends.foldl (fun acc untilEpoch => some (acc.elim untilEpoch fun c => max c untilEpoch)) acc =
      none) : acc = none ∧ ends = [] := by
  induction ends generalizing acc with
  | nil => exact ⟨h, rfl⟩
  | cons x xs ih => exact absurd (ih h).1 (by simp)

/-- **Under a calm flow no task of it has a running cooldown.** -/
theorem running_of_calm {tasks : List ReleaseTask} {item : ReleaseTask}
    (hcalm : cooldownEnd task now tasks = none) (hitem : item ∈ tasks)
    (hflow : sameFlow item task = true) : (cooldownRunning item now).running = none := by
  obtain ⟨-, hends⟩ := latestEnd_eq_none hcalm
  exact List.filterMap_eq_nil_iff.mp hends item (List.mem_filter.mpr ⟨hitem, hflow⟩)

/-! ## 3. What it wrote -/

/-- The part of an admitted task that comes from the alert: its identity without the family,
which admission decides. -/
def ReleaseTask.origin (task : ReleaseTask) : ReleaseTask :=
  { task.identity with familyStartedEpoch := none }

theorem origin_fixed {β : Type} {g : ReleaseTask → β} (hg : ∀ x, g x.origin = g x)
    {x y : ReleaseTask} (h : x.origin = y.origin) : g x = g y := by
  rw [← hg x, h, hg]

theorem Granted.origin {lease : ReleaseTask} (h : Granted ledger task now lease) :
    lease.origin = task.origin := by
  rcases h.shape with ⟨-, rfl⟩ | ⟨-, -, rfl⟩ <;> rfl

theorem Granted.status {lease : ReleaseTask} (h : Granted ledger task now lease) :
    lease.status = .prepared := by
  rcases h.shape with ⟨-, rfl⟩ | ⟨-, -, rfl⟩ <;> rfl

/-- **What an admission wrote**: the tasks, edited; and under a granting answer the alert's own
task after them, as a lease or as a tombstone. -/
theorem AdmitCase.wrote {L' : ReleaseLedger} {answer : Except String Admission}
    (h : AdmitCase ledger task ttlSec now ⟨some L', answer⟩) (hvalid : validateTask task = .ok ())
    (op : Op) (hnow : op.clock = some now) (htask : op.admits = some task) :
    ∃ tasks', List.Forall₂ (TaskMove op) ledger.tasks tasks' ∧
      (((Answer.admitted answer).grants = false ∧ L' = { ledger with tasks := tasks' }) ∨
        ∃ new : ReleaseTask, new.origin = task.origin ∧
          ((∃ held, new = tombstoneOf task held now) ∨ answer = .ok (.prepared new) ∧
            tasks' = ledger.tasks ∧ Granted ledger task now new) ∧
          L' = { ledger with tasks := tasks' ++ [new] }) := by
  have hsame : List.Forall₂ (TaskMove op) ledger.tasks ledger.tasks :=
    List.forall₂_same.mpr fun x _ => TaskMove.same x
  cases h with
  | cooling untilEpoch _ hend hsave =>
    split at hsave
    · rw [Option.some.inj hsave]
      refine ⟨_, forall₂_map (fun x => ?_) _, Or.inl ⟨rfl, rfl⟩⟩
      split
      · exact TaskMove.reread x now hnow
      · exact TaskMove.same x
    · cases hsave
  | usedUp k last hlast hcalm hfree hfamily hstart hcap hshort =>
    refine ⟨_, forall₂_modify TaskMove.same fun x hx => ?_, Or.inl ⟨rfl, rfl⟩⟩
    rw [hlast] at hx
    obtain rfl := Option.some.inj hx
    have hflow : sameFlow last task = true := by
      unfold inFamilyOf at hfamily
      exact (Bool.and_eq_true_iff.mp hfamily).1
    exact TaskMove.usedUp _ now hnow
      (running_of_calm hcalm (List.mem_of_getElem? hlast) hflow)
  | alreadyHeld held hheld hdue hfull =>
    exact ⟨_, hsame, Or.inr ⟨tombstoneOf task held now, rfl, Or.inl ⟨held, rfl⟩, rfl⟩⟩
  | extended held item b hheld hdue hextensions hboot hitem =>
    refine ⟨_, forall₂_editFirst TaskMove.same fun x hx => ?_,
      Or.inr ⟨tombstoneOf task held now, rfl, Or.inl ⟨held, rfl⟩, rfl⟩⟩
    rw [hheld.found] at hx
    obtain rfl := Option.some.inj hx
    rw [hitem]
    have hresource : held.resourceKey = task.resourceKey := by
      have hholds := List.find?_some hheld.found
      simp only [holdsResource, Bool.and_eq_true, decide_eq_true_eq] at hholds
      exact hholds.1
    exact TaskMove.extended _ _ b now hnow hheld.active hheld.rule hextensions hdue
      (min_le_right _ _) hboot task htask hvalid hresource
      fun hflow => running_of_calm hheld.calm (List.mem_of_find?_eq_some hheld.found) hflow
  | granted lease hgranted =>
    exact ⟨_, hsame, Or.inr ⟨lease, hgranted.origin, Or.inr ⟨rfl, rfl, hgranted⟩, rfl⟩⟩

end AzazelEdge.Release
