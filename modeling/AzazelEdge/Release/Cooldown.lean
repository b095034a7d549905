/-
# The cooldown after a used-up lease family

A flow whose family reached the cumulative bound is left alone for `flowCooldownSec`.  Three
branches of admission record that cooldown, each on a task of the flow, and it runs on
`CLOCK_BOOTTIME` from the reading it was recorded at.  So in one boot:

* a lease that ends at its family's bound carries the cooldown (`Cooled`, over whole runs);
* a task that carries one is neither re-recorded nor compacted before its end (`Cooling`);
* and while one is found, admission grants nothing.

The wall clock has no part in it: a wall clock that falls behind `CLOCK_BOOTTIME` sees the
cooldown end early (`cooldown_ends_on_boottime`).
-/
import AzazelEdge.Release.Bounds
import AzazelEdge.Release.Flow

namespace AzazelEdge.Release

open AzazelEdge.Lib

/-! ## 1. One boot -/

/-- The clock readings of the operations, in order. -/
def readings (ls : List (Op × Answer)) : List LeaseNow := ls.filterMap (·.1.clock)

/-- Readings of one boot: its id and `CLOCK_BOOTTIME` are readable, and the latter never falls. -/
structure OneBoot (boot : String) (rs : List LeaseNow) : Prop where
  valid : validBootId boot = true
  readable : ∀ r ∈ rs, r.bootId = some boot ∧ ∃ b, r.boottimeNs = some b
  forward : rs.Pairwise fun r r' =>
    ∀ b b', r.boottimeNs = some b → r'.boottimeNs = some b' → b ≤ b'

variable {encodedLen : ReleaseLedger → ℕ} {boot : String} {rs : List LeaseNow}
  {ls : List (Op × Answer)} {op : Op} {answer : Answer} {t t' task : ReleaseTask}
  {now r : LeaseNow} {b e : ℕ} {L L' : ReleaseLedger} {ttlSec : ℕ}

theorem OneBoot.left {rs' : List LeaseNow} (h : OneBoot boot (rs ++ rs')) : OneBoot boot rs :=
  ⟨h.valid, fun r hr => h.readable r (List.mem_append_left _ hr),
    (List.pairwise_append.mp h.forward).1⟩

/-- The cooldown of `t` recorded at the reading `r`, `until` being its end on the wall clock. -/
def RecordedAt (boot : String) (r : LeaseNow) (untilWall : Epoch) (t : ReleaseTask) : Prop :=
  t.cooldownUntilEpoch = some untilWall ∧ t.cooldownRecordedEpoch = some r.wallEpoch ∧
    t.cooldownBootId = boot ∧ ∃ b, r.boottimeNs = some b ∧
      t.cooldownUntilBoottimeNs = some (addSeconds b (max (untilWall - r.wallEpoch) 0))

/-- A cooldown recorded in the boot is recorded on both clocks. -/
theorem recordCooldown_recordedAt (hvalid : validBootId boot = true) (hid : now.bootId = some boot)
    (hb : now.boottimeNs = some b) (t : ReleaseTask) (untilWall : Epoch) :
    RecordedAt boot now untilWall (recordCooldown t untilWall now) := by
  have hanchor : cooldownAnchor (max (untilWall - now.wallEpoch) 0) now =
      some (addSeconds b (max (untilWall - now.wallEpoch) 0), boot) := by
    simp [cooldownAnchor, hb, hid, hvalid, addSeconds]
  refine ⟨rfl, rfl, ?_, b, hb, ?_⟩
  · simp [recordCooldown, hanchor]
  · simp [recordCooldown, hanchor]

/-- A cooldown with a monotonic end in this boot. -/
def HasCooldown (boot : String) (e : ℕ) (t : ReleaseTask) : Prop :=
  t.cooldownUntilEpoch.isSome = true ∧ t.cooldownUntilBoottimeNs = some e ∧
    t.cooldownBootId = boot

theorem RecordedAt.hasCooldown {untilWall : Epoch} (h : RecordedAt boot r untilWall t) :
    ∃ b, r.boottimeNs = some b ∧
      HasCooldown boot (addSeconds b (max (untilWall - r.wallEpoch) 0)) t := by
  obtain ⟨huntil, -, hboot, b, hb, hend⟩ := h
  exact ⟨b, hb, by rw [huntil]; rfl, hend, hboot⟩

/-- **In its own boot a cooldown is running exactly before its monotonic end**, and reading it
leaves the task. -/
theorem HasCooldown.running (h : HasCooldown boot e t) (hid : now.bootId = some boot)
    (hb : now.boottimeNs = some b) :
    (cooldownRunning t now).task = t ∧
      ((cooldownRunning t now).running.isSome = true ↔ b < e) := by
  obtain ⟨huntil, hend, hboot⟩ := h
  obtain ⟨untilWall, huntil⟩ := Option.isSome_iff_exists.mp huntil
  have hremaining : cooldownBootRemaining t now = some (e - b) := by
    simp [cooldownBootRemaining, hend, hb, hid, hboot]
  unfold cooldownRunning
  rw [huntil, hremaining]
  by_cases hlt : b < e
  · obtain ⟨n, hn⟩ : ∃ n, e - b = n + 1 := ⟨e - b - 1, by omega⟩
    rw [hn]
    exact ⟨rfl, by simpa using hlt⟩
  · rw [Nat.sub_eq_zero_of_le (not_lt.mp hlt)]
    exact ⟨rfl, by simpa using hlt⟩

/-- A task whose cooldown runs is not compacted. -/
theorem HasCooldown.kept (h : HasCooldown boot e t) (hid : now.bootId = some boot)
    (hb : now.boottimeNs = some b) (hlt : b < e) : compactable now t = false := by
  obtain ⟨huntil, hend, hboot⟩ := h
  obtain ⟨untilWall, huntil⟩ := Option.isSome_iff_exists.mp huntil
  have hmay : cooldownMayBeRunning t now = true := by
    unfold cooldownMayBeRunning
    rw [huntil]
    dsimp only
    split
    · rfl
    · simp [hend, hb, hid, hboot, hlt]
  simp [compactable, hmay]

/-! ## 2. Where a task comes from -/

/-- The task entered the ledger as a valid task built for an alert. -/
def Provenance (t : ReleaseTask) : Prop :=
  ∃ (alert : Alert) (ttlSec : ℕ) (now : LeaseNow) (task : ReleaseTask),
    alert.Built ttlSec now task ∧ validateTask task = .ok () ∧ t.origin = task.origin

theorem Provenance.flowKey_ne (h : Provenance t) : t.flowKey ≠ "" := by
  obtain ⟨alert, ttlSec, now, task, hbuilt, -, horigin⟩ := h
  have hkey : t.flowKey = task.flowKey := origin_fixed (fun _ => rfl) horigin
  rw [hkey, hbuilt.flow]
  exact key_ne_empty alert.flow

theorem Provenance.move (h : Provenance t) (hmove : TaskMove op t t') : Provenance t' := by
  obtain ⟨alert, ttlSec, now, task, hbuilt, hvalid, horigin⟩ := h
  refine ⟨alert, ttlSec, now, task, hbuilt, hvalid, ?_⟩
  rw [← horigin]
  exact hmove.fixed fun _ => rfl

/-- Of tasks with a provenance, the same flow is the same flow key. -/
theorem sameFlow_iff (h : Provenance t) (h' : Provenance t') :
    sameFlow t t' = true ↔ t.flowKey = t'.flowKey := by
  simp [sameFlow, h.flowKey_ne, h'.flowKey_ne]

/-- The same resource is the same flow. -/
theorem Provenance.sameFlow_of_resource (h : Provenance t) (h' : Provenance t')
    (hresource : t.resourceKey = t'.resourceKey) : sameFlow t t' = true := by
  rw [sameFlow_iff h h']
  obtain ⟨alert, ttlSec, now, task, hbuilt, hvalid, horigin⟩ := h
  obtain ⟨alert', ttlSec', now', task', hbuilt', hvalid', horigin'⟩ := h'
  have hkey : t.flowKey = task.flowKey := origin_fixed (fun _ => rfl) horigin
  have hkey' : t'.flowKey = task'.flowKey := origin_fixed (fun _ => rfl) horigin'
  have hres : t.resourceKey = task.resourceKey := origin_fixed (fun _ => rfl) horigin
  have hres' : t'.resourceKey = task'.resourceKey := origin_fixed (fun _ => rfl) horigin'
  rw [hkey, hkey']
  exact flowKey_of_resourceKey hbuilt hbuilt' hvalid hvalid' (hres ▸ hres' ▸ hresource)

theorem BuiltOp.provenance (hbuilt : BuiltOp op) (htask : op.admits = some task)
    (hnow : op.clock = some now) (hvalid : validateTask task = .ok ()) : Provenance task := by
  obtain ⟨ttlSec, alert, halert, -⟩ := BuiltOp.alert hbuilt htask hnow
  exact ⟨alert, ttlSec, now, task, halert, hvalid, rfl⟩

/-! ## 3. A lease at its family's bound carries the cooldown -/

/-- The cooldown of the task's family, recorded at one of the readings. -/
def FamilyCooled (boot : String) (rs : List LeaseNow) (t : ReleaseTask) : Prop :=
  ∃ r ∈ rs, RecordedAt boot r (familyCap t.familyStart + flowCooldownSec) t

/-- A task after operations with these readings: it has a provenance, and while it is being
applied or in force at its family's bound its cooldown is recorded. -/
structure Cooled (boot : String) (rs : List LeaseNow) (t : ReleaseTask) : Prop where
  provenance : Provenance t
  cooled : t.status = .prepared ∨ t.status = .active → familyCap t.familyStart ≤ t.dueEpoch →
    FamilyCooled boot rs t

theorem FamilyCooled.mono {rs' : List LeaseNow} (h : FamilyCooled boot rs t) :
    FamilyCooled boot (rs ++ rs') t := by
  obtain ⟨r, hr, hrec⟩ := h
  exact ⟨r, List.mem_append_left _ hr, hrec⟩

theorem Cooled.mono {rs' : List LeaseNow} (h : Cooled boot rs t) : Cooled boot (rs ++ rs') t :=
  ⟨h.provenance, fun hlive hcap => (h.cooled hlive hcap).mono⟩

/-- A move keeps it: the only edits of a recorded cooldown record it anew. -/
theorem Cooled.move (h : Cooled boot rs t) (hboot : OneBoot boot rs)
    (hnow : ∀ now, op.clock = some now → now ∈ rs) (hmove : TaskMove op t t') :
    Cooled boot rs t' := by
  refine ⟨h.provenance.move hmove, ?_⟩
  have hrecord : ∀ (x : ReleaseTask) (now : LeaseNow), op.clock = some now →
      FamilyCooled boot rs
        (recordCooldown x (familyCap x.familyStart + flowCooldownSec) now) := by
    intro x now hclock
    obtain ⟨hid, b, hb⟩ := hboot.readable now (hnow now hclock)
    exact ⟨now, hnow now hclock, recordCooldown_recordedAt hboot.valid hid hb x _⟩
  cases hmove with
  | same => exact h.cooled
  | usedUp now hclock _ =>
    intro _ _
    exact hrecord t now hclock
  | reread now hclock =>
    intro hlive hcap
    rcases cooldownRunning_task t now with heq | ⟨untilWall, heq⟩
    · rw [heq] at hlive hcap ⊢
      exact h.cooled hlive hcap
    · rw [heq] at hlive hcap
      obtain ⟨r, hr, hrec⟩ := h.cooled hlive hcap
      obtain ⟨hid, b, hb⟩ := hboot.readable now (hnow now hclock)
      obtain ⟨b', -, hhas⟩ := hrec.hasCooldown
      rw [(hhas.running hid hb).1]
      exact ⟨r, hr, hrec⟩
  | extended newDue dueNs now hclock hactive _ _ hdue hcap' _ _ _ _ _ _ =>
    intro _ hcap
    have hstart : (extended t newDue dueNs now).familyStart = t.familyStart := by
      unfold Release.extended; split <;> rfl
    rw [hstart, extended_dueEpoch] at hcap
    have heq : Release.extended t newDue dueNs now =
        recordCooldown (extendTo newDue dueNs now t)
          (familyCap t.familyStart + flowCooldownSec) now := by
      simp [Release.extended, hcap]
    rw [heq]
    exact hrecord (extendTo newDue dueNs now t) now hclock
  | uncertain => intro hlive; rcases hlive with h | h <;> cases h
  | activated _ _ hprepared => exact fun _ hcap => h.cooled (Or.inl hprepared) hcap
  | superseded => intro hlive; rcases hlive with h | h <;> cases h
  | attempted now result hclock hsweep heligible =>
    intro hlive hcap
    have hlive' := (TaskMove.attempted t now result hclock hsweep heligible).live hlive
    have hfields : FamilyCooled boot rs (afterAttempt now result t) = FamilyCooled boot rs t :=
      afterAttempt_leaves (fun _ _ _ _ _ _ _ _ _ => rfl) now result t
    rw [hfields]
    refine h.cooled hlive' ?_
    rwa [(afterAttempt_deadlines now result t).1, (TaskMove.attempted t now result hclock hsweep
      heligible).familyStart] at hcap
  | deferred _ now _ _ _ => exact fun hlive hcap => h.cooled hlive hcap

/-- A granted lease that ends at its family's bound was cut there, with the cooldown recorded. -/
theorem Granted.cooled {lease : ReleaseTask} (h : Granted L task now lease)
    (hprovenance : Provenance task) (hboot : OneBoot boot rs) (hnow : now ∈ rs) :
    Cooled boot rs lease := by
  refine ⟨?_, fun _ hcap => ?_⟩
  · obtain ⟨alert, ttlSec, at', task', hbuilt, hvalid, horigin⟩ := hprovenance
    exact ⟨alert, ttlSec, at', task', hbuilt, hvalid, h.origin.trans horigin⟩
  · rcases h.shape with ⟨hshort, rfl⟩ | ⟨-, -, rfl⟩
    · exact absurd hcap (not_le.mpr hshort)
    · obtain ⟨hid, b, hb⟩ := hboot.readable now hnow
      exact ⟨now, hnow, recordCooldown_recordedAt hboot.valid hid hb { task with
        familyStartedEpoch := some (familyStartFor L.tasks task now) } _⟩

/-- Every task of the ledger is `Cooled`. -/
def AllCooled (boot : String) (rs : List LeaseNow) (ledger : ReleaseLedger) : Prop :=
  ∀ t ∈ ledger.tasks, Cooled boot rs t

theorem AllCooled.wrote (h : AllCooled boot rs L) (hboot : OneBoot boot rs)
    (hnow : ∀ now, op.clock = some now → now ∈ rs) (hbuilt : BuiltOp op)
    (hw : Wrote encodedLen op answer L L') : AllCooled boot rs L' := by
  refine hw.invariant ?_ ?_ ?_ h
  · intro L tasks' hL hf t' ht'
    obtain ⟨t, ht, hmove⟩ := exists_of_forall₂_right hf ht'
    exact (hL t ht).move hboot hnow hmove
  · intro L now _ hL t ht
    exact hL t ((compactLedger_sublist L now).subset ht)
  · rintro L new hL ⟨task, now, htask, hclock, hvalid, horigin, -, hnew⟩ t ht
    rcases List.mem_append.mp ht with ht | ht
    · exact hL t ht
    · obtain rfl := List.mem_singleton.mp ht
      have hprovenance : Provenance task := BuiltOp.provenance hbuilt htask hclock hvalid
      rcases hnew with hmerged | ⟨-, hgranted⟩
      · obtain ⟨alert, ttlSec, at', task', hbuilt', hvalid', horigin'⟩ := hprovenance
        refine ⟨⟨alert, ttlSec, at', task', hbuilt', hvalid', horigin.trans horigin'⟩, ?_⟩
        intro hlive
        rw [hmerged] at hlive
        rcases hlive with h | h <;> cases h
      · exact hgranted.cooled hprovenance hboot (hnow now hclock)

/-- **Over a run of one boot from an empty ledger, every task is `Cooled`.** -/
theorem allCooled_run {s₀ s : Store} (hinit : s₀.Fresh)
    (hrun : Run (Store.Step encodedLen) s₀ ls s) (hbuilt : ∀ l ∈ ls, BuiltOp l.1)
    (hboot : OneBoot boot (readings ls)) :
    s.Current ∧ AllCooled boot (readings ls) s.ledger := by
  refine hrun.history (P := fun ls s => (∀ l ∈ ls, BuiltOp l.1) → OneBoot boot (readings ls) →
    s.Current ∧ AllCooled boot (readings ls) s.ledger) ?_ ?_ hbuilt hboot
  · rintro ls s ⟨op, answer⟩ t ih hstep hbuilt hboot
    have hsplit : readings (ls ++ [(op, answer)]) = readings ls ++ op.clock.toList := by
      simp only [readings, List.filterMap_append, List.filterMap_cons, List.filterMap_nil]
      cases op.clock <;> rfl
    rw [hsplit] at hboot ⊢
    obtain ⟨hcurrent, hcooled⟩ :=
      ih (fun l' hl' => hbuilt l' (List.mem_append_left _ hl')) hboot.left
    have hcooled : AllCooled boot (readings ls ++ op.clock.toList) s.ledger :=
      fun t ht => (hcooled t ht).mono
    obtain ⟨hcurrent', ⟨hsame, -⟩ | hwrote⟩ := Store.step_ledger hstep hcurrent
    · exact ⟨hcurrent', hsame ▸ hcooled⟩
    · refine ⟨hcurrent', hcooled.wrote hboot ?_ (hbuilt (op, answer) (by simp)) hwrote⟩
      intro now hnow
      simp [hnow]
  · intro _ _
    exact ⟨hinit.1, fun t ht => by rw [hinit.2] at ht; cases ht⟩

/-! ## 4. A running cooldown stays -/

/-- A task of the flow carries a cooldown with this monotonic end. -/
def Cooling (boot flowKey : String) (e : ℕ) (ledger : ReleaseLedger) : Prop :=
  ∃ t ∈ ledger.tasks, t.flowKey = flowKey ∧ Provenance t ∧ HasCooldown boot e t

/-- No move touches a running cooldown: what records one needs a calm flow. -/
theorem HasCooldown.move (h : HasCooldown boot e t) (hprovenance : Provenance t)
    (hmove : TaskMove op t t') (hbuilt : BuiltOp op)
    (hnow : ∀ now, op.clock = some now → now.bootId = some boot ∧
      ∃ b, now.boottimeNs = some b ∧ b < e) : HasCooldown boot e t' := by
  have hruns : ∀ now, op.clock = some now → (cooldownRunning t now).task = t ∧
      (cooldownRunning t now).running.isSome = true := by
    intro now hclock
    obtain ⟨hid, b, hb, hlt⟩ := hnow now hclock
    obtain ⟨htask, hrunning⟩ := h.running hid hb
    exact ⟨htask, hrunning.mpr hlt⟩
  cases hmove with
  | same => exact h
  | usedUp now hclock hcalm =>
    have := (hruns now hclock).2
    rw [hcalm] at this
    cases this
  | reread now hclock => rwa [(hruns now hclock).1]
  | extended _ _ now hclock _ _ _ _ _ _ task htask hvalid hresource hcalm =>
    have hflow : sameFlow t task = true :=
      hprovenance.sameFlow_of_resource (BuiltOp.provenance hbuilt htask hclock hvalid) hresource
    have := (hruns now hclock).2
    rw [hcalm hflow] at this
    cases this
  | uncertain => exact h
  | activated => exact h
  | superseded => exact h
  | attempted now result =>
    have hfields : HasCooldown boot e (afterAttempt now result t) = HasCooldown boot e t :=
      afterAttempt_leaves (fun _ _ _ _ _ _ _ _ _ => rfl) now result t
    rwa [hfields]
  | deferred => exact h

theorem Cooling.compact {flowKey : String} (h : Cooling boot flowKey e L)
    (hid : now.bootId = some boot) (hb : now.boottimeNs = some b) (hlt : b < e) :
    Cooling boot flowKey e (compactLedger L now).1 := by
  obtain ⟨t, ht, hflow, hprovenance, hcooldown⟩ := h
  exact ⟨t, mem_compactLedger.mpr ⟨ht, hcooldown.kept hid hb hlt⟩, hflow, hprovenance, hcooldown⟩

/-- **Before its end a cooldown stays in the ledger.** -/
theorem Cooling.wrote {flowKey : String} (h : Cooling boot flowKey e L) (hbuilt : BuiltOp op)
    (hnow : ∀ now, op.clock = some now → now.bootId = some boot ∧
      ∃ b, now.boottimeNs = some b ∧ b < e)
    (hw : Wrote encodedLen op answer L L') : Cooling boot flowKey e L' := by
  refine hw.invariant ?_ ?_ ?_ h
  · rintro L tasks' ⟨t, ht, hflow, hprovenance, hcooldown⟩ hf
    obtain ⟨t', ht', hmove⟩ := exists_of_forall₂_left hf ht
    have hflow' : t'.flowKey = t.flowKey := hmove.fixed (g := ReleaseTask.flowKey) fun _ => rfl
    exact ⟨t', ht', hflow'.trans hflow, hprovenance.move hmove,
      hcooldown.move hprovenance hmove hbuilt hnow⟩
  · intro L now hclock hL
    obtain ⟨hid, b, hb, hlt⟩ := hnow now hclock
    exact hL.compact hid hb hlt
  · rintro L new ⟨t, ht, hrest⟩ -
    exact ⟨t, List.mem_append_left _ ht, hrest⟩

/-- A running cooldown of the flow is found. -/
theorem Cooling.found {flowKey : String} (h : Cooling boot flowKey e L)
    (htask : Provenance task) (hflow : task.flowKey = flowKey) (hid : now.bootId = some boot)
    (hb : now.boottimeNs = some b) (hlt : b < e) : cooldownEnd task now L.tasks ≠ none := by
  obtain ⟨t, ht, htflow, hprovenance, hcooldown⟩ := h
  intro hcalm
  have hsame : sameFlow t task = true :=
    (sameFlow_iff hprovenance htask).mpr (htflow.trans hflow.symm)
  have := (hcooldown.running hid hb).2.mpr hlt
  rw [running_of_calm hcalm ht hsame] at this
  cases this

/-- While it is found, an admission of the flow grants nothing. -/
theorem Cooling.grants_false {flowKey : String} {traces : List String} {io : LedgerIo}
    (h : Cooling boot flowKey e L) (hbuilt : BuiltOp (.admitTask task traces ttlSec now io))
    (hflow : task.flowKey = flowKey) (hid : now.bootId = some boot)
    (hb : now.boottimeNs = some b) (hlt : b < e)
    (hw : Wrote encodedLen (.admitTask task traces ttlSec now io) answer L L') :
    answer.grants = false := by
  cases hw with
  | evolved hanswer _ => exact hanswer
  | admitted hvalid hguard _ hcase =>
    obtain ⟨-, -, -, rfl, -⟩ := admitNewTask_ok hguard
    have hcooling : Cooling boot flowKey e (compactAtMarks encodedLen L now) := by
      unfold compactAtMarks
      split
      · exact h.compact hid hb hlt
      · exact h
    have hfound := hcooling.found (BuiltOp.provenance hbuilt rfl rfl hvalid) hflow hid hb hlt
    cases hcase with
    | cooling => rfl
    | usedUp => rfl
    | alreadyHeld held hheld => exact absurd hheld.calm hfound
    | extended held item b hheld => exact absurd hheld.calm hfound
    | granted lease hgranted => exact absurd hgranted.calm hfound

/-! ## 5. The refusal at the bound

No other error of an admission has its text. -/

theorem ledgerError_ne (detail : String) : ledgerError detail ≠ limitReached := by
  intro h
  have hhead := congrArg (fun text => text.toList.head?) h
  simp [ledgerError, limitReached] at hhead

theorem validateTask_ne {e : String} (h : validateTask task = .error e) : e ≠ limitReached := by
  unfold validateTask at h
  iterate 5
    split at h
    · rw [← Except.error.inj h]; decide
  split at h
  · rename_i e' hmechanism
    obtain rfl := Except.error.inj h
    unfold validateMechanism at hmechanism
    split at hmechanism <;> (repeat' split at hmechanism) <;> cases hmechanism <;> decide
  · split at h
    · rw [← Except.error.inj h]; decide
    · cases h

theorem validateNow_ne {e : String} {value : Epoch} (h : validateNow value = .error e) :
    e ≠ limitReached := by
  unfold validateNow at h
  split at h
  · cases h
  · rw [← Except.error.inj h]; decide

theorem validateTasks_ne {e : String} {tasks : List ReleaseTask} (h : validateTasks tasks = .error e) :
    e ≠ limitReached := by
  induction tasks with
  | nil => cases h
  | cons x xs ih =>
    rw [validateTasks] at h
    split at h
    · exact ih h
    · rename_i e' he'
      obtain rfl := Except.error.inj h
      exact validateTask_ne he'

theorem loadLedger_ne {e : String} {disk : Option LedgerFile} (h : loadLedger disk = .error e) :
    e ≠ limitReached := by
  have hcheck : ∀ {L : ReleaseLedger}, checkLoaded L = .error e → e ≠ limitReached := by
    intro L h
    unfold checkLoaded at h
    split at h
    · rw [← Except.error.inj h]; decide
    · split at h
      · rw [← Except.error.inj h]; decide
      · split at h
        · cases h
        · rename_i e' he'
          obtain rfl := Except.error.inj h
          exact validateTasks_ne he'
  cases disk with
  | none => cases h
  | some file =>
    simp only [loadLedger] at h
    split at h
    · rw [← Except.error.inj h]; decide
    · split at h
      · exact hcheck h
      · exact hcheck h
      · rw [← Except.error.inj h]; decide

theorem openLedger_ne {e : String} {io : LedgerIo} {disk : Option LedgerFile}
    (h : openLedger io disk = .error e) : e ≠ limitReached := by
  unfold openLedger at h
  split at h
  · rw [← Except.error.inj h]; exact ledgerError_ne _
  · split at h
    · rw [← Except.error.inj h]; exact ledgerError_ne _
    · exact loadLedger_ne h

theorem saveLedger_ne {e : String} {io : SaveIo} (h : saveLedger encodedLen io L = .error e) :
    e ≠ limitReached := by
  unfold saveLedger at h
  split at h
  · rw [← Except.error.inj h]; decide
  · split at h
    · rw [← Except.error.inj h]; exact ledgerError_ne _
    · cases h

/-- The refusal of a committed plan is the plan's own, and what it wanted saved is saved. -/
theorem commit_limitReached {α : Type} {io : LedgerIo} {disk : Option LedgerFile}
    {save : Option ReleaseLedger} {given : Except String α}
    (h : (commit encodedLen io disk save given).2 = .error limitReached) :
    given = .error limitReached ∧ ∀ L', save = some L' →
      ∃ file, (commit encodedLen io disk save given).1 = some file ∧ file.ledger = L' := by
  unfold commit at h ⊢
  cases save with
  | none => exact ⟨h, fun L' hL' => by cases hL'⟩
  | some L =>
    dsimp only at h ⊢
    split at h
    · rename_i e hsave
      exact absurd (Except.error.inj h) (saveLedger_ne hsave)
    · rename_i file hsave
      refine ⟨h, fun L' hL' => ⟨file, rfl, ?_⟩⟩
      obtain rfl := Option.some.inj hL'
      exact (saveLedger_ok hsave).1

/-- **What led to the refusal**: a held lease as long as its family allows, with nothing written;
or a used-up family, with the cooldown written to its latest lease. -/
theorem Store.limitReached_cases {s s' : Store} {traces : List String} {io : LedgerIo}
    (hcurrent : s.Current)
    (hstep : Store.Step encodedLen s
      (.admitTask task traces ttlSec now io, .admitted (.error limitReached)) s') :
    ∃ L₁, L₁ = compactAtMarks encodedLen s.ledger now ∧ validateTask task = .ok () ∧
      ((s'.ledger = s.ledger ∧ ∃ held, Holding L₁ task now held ∧
          familyCap held.familyStart ≤ held.dueEpoch + 1) ∨
        ∃ last ∈ L₁.tasks, cooldownEnd task now L₁.tasks = none ∧
          L₁.tasks.find? (holdsResource task) = none ∧ inFamilyOf task last = true ∧
          last.familyStart = familyStartFor L₁.tasks task now ∧
          recordCooldown last (familyCap last.familyStart + flowCooldownSec) now ∈
            s'.ledger.tasks) := by
  obtain ⟨rfl, hanswer⟩ := Prod.mk.inj (Option.some.inj hstep)
  replace hanswer : (s.admitTask encodedLen task traces ttlSec now io).2 = .error limitReached :=
    Answer.admitted.inj hanswer
  revert hanswer
  change _ → ∃ L₁, _ ∧ _ ∧ (((s.admitTask encodedLen task traces ttlSec now io).1.ledger = _ ∧ _) ∨
    ∃ last ∈ _, _ ∧ _ ∧ _ ∧ _ ∧ _ ∈ (s.admitTask encodedLen task traces ttlSec now io).1.ledger.tasks)
  unfold Store.admitTask
  split
  · rename_i e hvalid
    intro hanswer
    exact absurd (Except.error.inj hanswer) (validateTask_ne hvalid)
  · rename_i e _ hnow
    intro hanswer
    exact absurd (Except.error.inj hanswer) (validateNow_ne hnow)
  · rename_i hvalid _
    split
    · rename_i e hopen
      intro hanswer
      exact absurd (Except.error.inj hanswer) (openLedger_ne hopen)
    · rename_i L hopen
      obtain rfl := hcurrent.load (openLedger_ok hopen)
      dsimp only
      intro hanswer
      rcases admitReleaseTask_cases encodedLen s.ledger task traces ttlSec now with
        ⟨e, hplan, hne⟩ | ⟨L₁, hguard, -, hcase⟩
      · rw [hplan] at hanswer
        exact absurd (Except.error.inj hanswer) hne
      · obtain ⟨-, -, -, hL₁, -⟩ := admitNewTask_ok hguard
        refine ⟨L₁, hL₁, hvalid, ?_⟩
        obtain ⟨hgiven, hsaved⟩ := commit_limitReached hanswer
        generalize admitReleaseTask encodedLen s.ledger task traces ttlSec now = plan at *
        cases hcase with
        | refused e hne => exact absurd (Except.error.inj hgiven) hne
        | heldFull held hheld hdue hfull => exact Or.inl ⟨rfl, held, hheld, hfull⟩
        | usedUp k last hlast hcalm hfree hfamily hstart hcap hshort =>
          obtain ⟨file, hfile, hledger⟩ := hsaved _ rfl
          refine Or.inr ⟨last, List.mem_of_getElem? hlast, hcalm, hfree, hfamily, hstart, ?_⟩
          simp only [Store.ledger, hfile, Option.map_some, Option.getD_some, hledger]
          exact mem_modify_of_getElem? hlast
        | cooling => cases hgiven
        | alreadyHeld => cases hgiven
        | extended => cases hgiven
        | granted => cases hgiven

/-! ## 6. Over any run -/

/-- The start of the family an admission refused at its bound: of the lease that holds the
resource, else of the flow's current one. -/
def refusedFamily (ledger : ReleaseLedger) (task : ReleaseTask) (now : LeaseNow) : Epoch :=
  match ledger.tasks.find? (holdsResource task) with
  | some held => held.familyStart
  | none => familyStartFor ledger.tasks task now

/-- A held lease that ends within the last second before its family's bound, but before it. -/
def AlmostFull (held : ReleaseTask) : Prop :=
  held.dueEpoch < familyCap held.familyStart ∧ familyCap held.familyStart ≤ held.dueEpoch + 1

/-- **The refusal at the bound leaves the cooldown in the ledger**, unless it was over a lease
that is almost full: recorded at the refusal itself, or earlier, when it is over already. -/
theorem cooling_of_limitReached {s s' : Store} {traces : List String} {io : LedgerIo}
    (hcurrent : s.Current) (hcooled : AllCooled boot rs s.ledger)
    (hstep : Store.Step encodedLen s
      (.admitTask task traces ttlSec now io, .admitted (.error limitReached)) s')
    (hbuilt : BuiltOp (.admitTask task traces ttlSec now io)) (hboot : OneBoot boot (rs ++ [now]))
    (hfull : ∀ held, (compactAtMarks encodedLen s.ledger now).tasks.find? (holdsResource task) =
      some held → ¬ AlmostFull held) :
    ∃ item ∈ s'.ledger.tasks, item.flowKey = task.flowKey ∧ Provenance item ∧
      item.familyStart = refusedFamily (compactAtMarks encodedLen s.ledger now) task now ∧
      ∃ r ∈ rs ++ [now], RecordedAt boot r (familyCap item.familyStart + flowCooldownSec) item := by
  obtain ⟨L₁, rfl, hvalid, hcases⟩ := Store.limitReached_cases hcurrent hstep
  have hsub := (compactAtMarks_sublist encodedLen s.ledger now).subset
  have htask : Provenance task := BuiltOp.provenance hbuilt rfl rfl hvalid
  rcases hcases with ⟨hsame, held, hheld, hcap⟩ | ⟨last, hlast, -, hfree, hfamily, hstart, hsaved⟩
  · have hmem := List.mem_of_find?_eq_some hheld.found
    have hcool := hcooled held (hsub hmem)
    have hresource : held.resourceKey = task.resourceKey := by
      have hholds := List.find?_some hheld.found
      simp only [holdsResource, Bool.and_eq_true, decide_eq_true_eq] at hholds
      exact hholds.1
    have hflow := (sameFlow_iff hcool.provenance htask).mp
      (hcool.provenance.sameFlow_of_resource htask hresource)
    have hdue : familyCap held.familyStart ≤ held.dueEpoch :=
      not_lt.mp fun hlt => hfull held hheld.found ⟨hlt, hcap⟩
    obtain ⟨r, hr, hrec⟩ := hcool.cooled (Or.inr hheld.active) hdue
    refine ⟨held, hsame ▸ hsub hmem, hflow, hcool.provenance, ?_, r,
      List.mem_append_left _ hr, hrec⟩
    rw [refusedFamily, hheld.found]
  · have hcool := hcooled last (hsub hlast)
    have hflow : last.flowKey = task.flowKey := by
      unfold inFamilyOf at hfamily
      exact (sameFlow_iff hcool.provenance htask).mp (Bool.and_eq_true_iff.mp hfamily).1
    obtain ⟨hid, b, hb⟩ := hboot.readable now (by simp)
    refine ⟨_, hsaved, hflow, hcool.provenance, ?_, now, by simp,
      recordCooldown_recordedAt hboot.valid hid hb last _⟩
    rw [refusedFamily, hfree]
    exact hstart

/-- While `CLOCK_BOOTTIME` gains nothing on the wall clock, a monotonic end is not reached before
the wall-clock end it was recorded for, up to a nanosecond. -/
theorem lt_addSeconds_of_inStep {b b' : ℕ} {w w' untilWall : Epoch} (hmax : b' < i64Max)
    (hstep : (b' : ℚ) - b ≤ (w' - w) * nsPerSec) (hwall : (w' - untilWall) * nsPerSec ≤ -1) :
    b' < addSeconds b (max (untilWall - w) 0) := by
  have hd : 0 ≤ max (untilWall - w) 0 := le_max_right _ _
  have hle : (untilWall - w) * nsPerSec ≤ max (untilWall - w) 0 * nsPerSec :=
    mul_le_mul_of_nonneg_right (le_max_left _ _) (Nat.cast_nonneg _)
  by_contra hge
  have hge := not_lt.mp hge
  rcases (addSeconds_bounds b hd).2 with hclip | hlow
  · omega
  · have hge' : (addSeconds b (max (untilWall - w) 0) : ℚ) ≤ b' := by exact_mod_cast hge
    linarith

/-- A running cooldown survives every run of readings before its end. -/
theorem cooling_run {s s' : Store} {flowKey : String} (hcurrent : s.Current)
    (h : Cooling boot flowKey e s.ledger) (hrun : Run (Store.Step encodedLen) s ls s')
    (hbuilt : ∀ l ∈ ls, BuiltOp l.1)
    (hnow : ∀ l ∈ ls, ∀ now, l.1.clock = some now → now.bootId = some boot ∧
      ∃ b, now.boottimeNs = some b ∧ b < e) :
    s'.Current ∧ Cooling boot flowKey e s'.ledger := by
  refine hrun.history (P := fun ls s => (∀ l ∈ ls, BuiltOp l.1) → (∀ l ∈ ls, ∀ now,
    l.1.clock = some now → now.bootId = some boot ∧ ∃ b, now.boottimeNs = some b ∧ b < e) →
    s.Current ∧ Cooling boot flowKey e s.ledger) ?_ (fun _ _ => ⟨hcurrent, h⟩) hbuilt hnow
  rintro ls s ⟨op, answer⟩ t ih hstep hbuilt hnow
  obtain ⟨hcurrent, hcooling⟩ := ih (fun l hl => hbuilt l (List.mem_append_left _ hl))
    (fun l hl => hnow l (List.mem_append_left _ hl))
  obtain ⟨hcurrent', ⟨hsame, -⟩ | hwrote⟩ := Store.step_ledger hstep hcurrent
  · exact ⟨hcurrent', hsame ▸ hcooling⟩
  · exact ⟨hcurrent', hcooling.wrote (hbuilt (op, answer) (by simp))
      (hnow (op, answer) (by simp)) hwrote⟩

/-- **The cooldown after the cumulative bound.**  In one boot, from an empty ledger: once an
admission was refused at the bound of a family (not over a lease that is almost full), a task of
its flow carries that family's cooldown, recorded on both clocks at a reading of the run, and
until `CLOCK_BOOTTIME` passes the recorded end every later admission of the flow grants nothing.
While the clocks are in step that is the family's end and `flowCooldownSec` on the wall clock. -/
theorem cooldown_after_limit (encodedLen : ReleaseLedger → ℕ) {s₀ s₁ s₂ s₃ s₄ : Store}
    {ls₁ ls₂ : List (Op × Answer)} {limit later : Op × Answer} {task task' : ReleaseTask}
    {traces traces' : List String} {ttlSec ttlSec' : ℕ} {now now' : LeaseNow} {io io' : LedgerIo}
    {answer : Answer} {boot : String}
    (hlimit : limit = (.admitTask task traces ttlSec now io, .admitted (.error limitReached)))
    (hlater : later = (.admitTask task' traces' ttlSec' now' io', answer))
    (hinit : s₀.Fresh) (hrun₁ : Run (Store.Step encodedLen) s₀ ls₁ s₁)
    (hstep : Store.Step encodedLen s₁ limit s₂) (hrun₂ : Run (Store.Step encodedLen) s₂ ls₂ s₃)
    (hstep' : Store.Step encodedLen s₃ later s₄)
    (hbuilt : ∀ l ∈ ls₁ ++ limit :: (ls₂ ++ [later]), BuiltOp l.1)
    (hboot : OneBoot boot (readings (ls₁ ++ limit :: (ls₂ ++ [later]))))
    (hflow : task'.flowKey = task.flowKey)
    (hfull : ∀ held, (compactAtMarks encodedLen s₁.ledger now).tasks.find? (holdsResource task) =
      some held → ¬ AlmostFull held) :
    ∃ item ∈ s₂.ledger.tasks, item.flowKey = task.flowKey ∧
      item.familyStart = refusedFamily (compactAtMarks encodedLen s₁.ledger now) task now ∧
      ∃ r ∈ readings (ls₁ ++ [limit]), ∃ b, r.boottimeNs = some b ∧
        item.cooldownRecordedEpoch = some r.wallEpoch ∧
        item.cooldownUntilEpoch =
          some (item.familyStart + maxCumulativeLeaseSec + flowCooldownSec) ∧
        ∀ b', now'.boottimeNs = some b' →
          (b' < addSeconds b
              (max (item.familyStart + maxCumulativeLeaseSec + flowCooldownSec - r.wallEpoch) 0) →
            answer.grants = false) ∧
          (b' < i64Max → (b' : ℚ) - b ≤ (now'.wallEpoch - r.wallEpoch) * nsPerSec →
            (now'.wallEpoch - (item.familyStart + maxCumulativeLeaseSec + flowCooldownSec)) *
              nsPerSec ≤ -1 → answer.grants = false) := by
  subst hlimit hlater
  have hreadings : readings (ls₁ ++ (.admitTask task traces ttlSec now io,
      .admitted (.error limitReached)) :: (ls₂ ++ [(.admitTask task' traces' ttlSec' now' io', answer)]))
      = (readings ls₁ ++ [now]) ++ (readings ls₂ ++ [now']) := by
    simp [readings, Op.clock]
  rw [hreadings] at hboot
  have hbuilt₁ : ∀ l ∈ ls₁, BuiltOp l.1 := fun l hl => hbuilt l (by simp [hl])
  have hbuilt₂ : ∀ l ∈ ls₂, BuiltOp l.1 := fun l hl => hbuilt l (by simp [hl])
  have hbuiltLimit : BuiltOp (.admitTask task traces ttlSec now io) :=
    hbuilt (.admitTask task traces ttlSec now io, .admitted (.error limitReached)) (by simp)
  have hbuilt' : BuiltOp (.admitTask task' traces' ttlSec' now' io') :=
    hbuilt (.admitTask task' traces' ttlSec' now' io', answer) (by simp)
  obtain ⟨hcurrent₁, hcooled⟩ := allCooled_run hinit hrun₁ hbuilt₁ hboot.left.left
  obtain ⟨hcurrent₂, -⟩ := Store.step_ledger hstep hcurrent₁
  obtain ⟨item, hitem, hitemFlow, hprovenance, hstart, r, hr, hrec⟩ :=
    cooling_of_limitReached hcurrent₁ hcooled hstep hbuiltLimit hboot.left hfull
  obtain ⟨b, hb, hcooldown⟩ := hrec.hasCooldown
  have hr' : r ∈ readings (ls₁ ++ [(.admitTask task traces ttlSec now io,
      .admitted (.error limitReached))]) := by
    simpa [readings, Op.clock] using hr
  refine ⟨item, hitem, hitemFlow, hstart, r, hr', b, hb, hrec.2.1, hrec.1, fun b' hb' => ?_⟩
  suffices hbefore : b' < addSeconds b
      (max (item.familyStart + maxCumulativeLeaseSec + flowCooldownSec - r.wallEpoch) 0) →
      answer.grants = false from
    ⟨hbefore, fun hmax hinStep hwall => hbefore (lt_addSeconds_of_inStep hmax hinStep hwall)⟩
  intro hlt
  -- Every reading after the refusal is before the end, since the last one is.
  obtain ⟨-, hforward, -⟩ := List.pairwise_append.mp hboot.forward
  obtain ⟨-, -, hforward⟩ := List.pairwise_append.mp hforward
  have hnow₂ : ∀ l ∈ ls₂, ∀ at', l.1.clock = some at' → at'.bootId = some boot ∧
      ∃ b₂, at'.boottimeNs = some b₂ ∧ b₂ < addSeconds b
        (max (item.familyStart + maxCumulativeLeaseSec + flowCooldownSec - r.wallEpoch) 0) := by
    intro l hl at' hclock
    have hmem : at' ∈ readings ls₂ := List.mem_filterMap.mpr ⟨l, hl, hclock⟩
    obtain ⟨hid, b₂, hb₂⟩ := hboot.readable at' (by simp [hmem])
    exact ⟨hid, b₂, hb₂, lt_of_le_of_lt (hforward at' hmem now' (by simp) b₂ b' hb₂ hb') hlt⟩
  obtain ⟨hcurrent₃, hcooling⟩ := cooling_run hcurrent₂
    ⟨item, hitem, hitemFlow, hprovenance, hcooldown⟩ hrun₂ hbuilt₂ hnow₂
  obtain ⟨hid', -⟩ := hboot.readable now' (by simp)
  obtain ⟨-, ⟨-, hno⟩ | hwrote⟩ := Store.step_ledger hstep' hcurrent₃
  · exact hno
  · exact hcooling.grants_false hbuilt' hflow hid' hb' hlt hwrote

/-! ## 7. Two sample runs

In both a first lease of the flow is abandoned and released within the first 20 seconds. -/

/-- The listing of a chain without rules. -/
def sampleAbsent : Reply := .ok ⟨0, .ok (.obj [("nftables", .arr [])]), ""⟩

/-- The n-th alert of the sample's flow. -/
def sampleAlertNo (n : ℕ) : Alert :=
  { sampleAlert with
    traceId := "trace-" ++ toString n
    eventKey := "event-" ++ toString n
    eventEpoch := 1699999990 + n }

/-- What it asks for, as long as a lease may be. -/
def sampleLease (n : ℕ) (now : LeaseNow) : Option ReleaseTask :=
  (sampleAlertNo n).task maxLeaseTtlSec now

/-- A clock reading this many milliseconds into the sample's boot, with `CLOCK_BOOTTIME` ahead of
the wall clock by `ahead` more. -/
def sampleAt (ms ahead : ℕ) : LeaseNow :=
  ⟨1700000000 + ms / 1000, some ((50000 + ms + ahead) * 1000000), some "0a1b2c"⟩

theorem sampleAt_oneBoot (times : List (ℕ × ℕ))
    (h : times.Pairwise fun x y => x.1 + x.2 ≤ y.1 + y.2) :
    OneBoot "0a1b2c" (times.map fun x => sampleAt x.1 x.2) := by
  refine ⟨by decide +kernel, ?_, List.pairwise_map.mpr (h.imp ?_)⟩
  · intro r hr
    obtain ⟨x, -, rfl⟩ := List.mem_map.mp hr
    exact ⟨rfl, _, rfl⟩
  · intro x y hxy b b' hb hb'
    obtain rfl := Option.some.inj hb
    obtain rfl := Option.some.inj hb'
    exact Nat.mul_le_mul_right _ (by omega)

theorem sampleAt_wall (times : List (ℕ × ℕ)) (h : times.Pairwise fun x y => x.1 ≤ y.1) :
    (times.map fun x => sampleAt x.1 x.2).Pairwise fun r r' => r.wallEpoch ≤ r'.wallEpoch := by
  refine List.pairwise_map.mpr (h.imp fun {x y} hxy => ?_)
  have hcast : (x.1 : ℚ) ≤ y.1 := by exact_mod_cast hxy
  simp only [sampleAt]
  linarith

def sampleFirst : ReleaseTask := (sampleLease 1 (sampleAt 0 0)).get (by decide +kernel)

def sampleReleased : List Op :=
  [.admitTask sampleFirst [] 900 (sampleAt 0 0) .fine,
    .abandon sampleFirst.taskId "apply failed" (sampleAt 10000 0) .fine,
    .sweep (sampleAt 20000 0) (fun _ => .ok ()) [sampleAbsent] .fine]

theorem Store.step_admit (s : Store) (task : ReleaseTask) (traces : List String) (ttlSec : ℕ)
    (now : LeaseNow) (io : LedgerIo) {result : Except String Admission}
    (h : (s.admitTask encodedLen task traces ttlSec now io).2 = result) :
    Store.Step encodedLen s (.admitTask task traces ttlSec now io, .admitted result)
      (s.admitTask encodedLen task traces ttlSec now io).1 := by
  subst h
  rfl

theorem readings_eq (ls : List (Op × Answer)) :
    readings ls = (ls.map Prod.fst).filterMap Op.clock := by
  rw [readings, List.filterMap_map]
  rfl

theorem built_of_ops {ops : List Op} (hops : ls.map Prod.fst = ops) (h : ∀ op ∈ ops, BuiltOp op) :
    ∀ l ∈ ls, BuiltOp l.1 :=
  fun l hl => h l.1 (hops ▸ List.mem_map_of_mem hl)

theorem sampleLease_flow {m n : ℕ} {now now' : LeaseNow} {task task' : ReleaseTask}
    (h : sampleLease m now = some task) (h' : sampleLease n now' = some task') :
    task.flowKey = task'.flowKey := by
  have hbuilt := ((sampleAlertNo m).task_built h).flow
  have hbuilt' := ((sampleAlertNo n).task_built h').flow
  rw [hbuilt, hbuilt']
  rfl

theorem sampleLease_built {n : ℕ} {now : LeaseNow} {task : ReleaseTask} {io : LedgerIo}
    (h : sampleLease n now = some task) : BuiltOp (.admitTask task [] 900 now io) :=
  ⟨by decide, by decide, sampleAlertNo n, h⟩

/-- A refusal at the bound of a family, in one boot with clocks that never
fall, and a later admission of the flow that grants before the family's cooldown is over on the
wall clock. -/
structure GrantedEarly (s₁ s₂ s₃ s₄ : Store) (ls₁ ls₂ : List (Op × Answer))
    (limit later : Op × Answer) (task task' : ReleaseTask) (now now' : LeaseNow)
    (answer : Answer) : Prop where
  first : Run (Store.Step fun _ => 1000) ⟨none, []⟩ ls₁ s₁
  refused : limit = (.admitTask task [] 900 now .fine, .admitted (.error limitReached))
  refusal : Store.Step (fun _ => 1000) s₁ limit s₂
  between : Run (Store.Step fun _ => 1000) s₂ ls₂ s₃
  granted : later = (.admitTask task' [] 900 now' .fine, answer)
  grant : Store.Step (fun _ => 1000) s₃ later s₄
  built : ∀ l ∈ ls₁ ++ limit :: (ls₂ ++ [later]), BuiltOp l.1
  boot : OneBoot "0a1b2c" (readings (ls₁ ++ limit :: (ls₂ ++ [later])))
  wall : (readings (ls₁ ++ limit :: (ls₂ ++ [later]))).Pairwise fun r r' =>
    r.wallEpoch ≤ r'.wallEpoch
  flow : task'.flowKey = task.flowKey
  early : now'.wallEpoch <
    refusedFamily s₁.ledger task now + maxCumulativeLeaseSec + flowCooldownSec
  grants : answer.grants = true

def sampleReleasedRun : Store × List (Op × Answer) :=
  (Store.execAll (fun _ => 1000) ⟨none, []⟩ sampleReleased).get (by decide +kernel)

theorem sampleReleasedRun_run :
    Run (Store.Step fun _ => 1000) ⟨none, []⟩ sampleReleasedRun.2 sampleReleasedRun.1 ∧
      sampleReleasedRun.2.map Prod.fst = sampleReleased :=
  Store.execAll_get _ _ _ _

/-- The second alert comes 20 seconds before the family's bound; the third when `CLOCK_BOOTTIME`,
1000 seconds ahead since the wall clock was stepped back, is past the cooldown's end. -/
def sampleSecond : ReleaseTask := (sampleLease 2 (sampleAt 3580000 0)).get (by decide +kernel)

def sampleThird : ReleaseTask := (sampleLease 3 (sampleAt 3600000 1000000)).get (by decide +kernel)

def sampleRefused : Store × Except String Admission :=
  sampleReleasedRun.1.admitTask (fun _ => 1000) sampleSecond [] 900 (sampleAt 3580000 0) .fine

def sampleRegranted : Store × Except String Admission :=
  sampleRefused.1.admitTask (fun _ => 1000) sampleThird [] 900 (sampleAt 3600000 1000000) .fine

theorem sampleRefused_facts :
    sampleRefused.2 = .error limitReached ∧
      refusedFamily sampleReleasedRun.1.ledger sampleSecond (sampleAt 3580000 0) = 1700000000 ∧
      sampleReleasedRun.1.ledger.tasks.find? (holdsResource sampleSecond) = none ∧
      compactAtMarks (fun _ => 1000) sampleReleasedRun.1.ledger (sampleAt 3580000 0) =
        sampleReleasedRun.1.ledger ∧
      (Answer.admitted sampleRegranted.2).grants = true := by
  decide +kernel

/-- With the clocks in step, an alert 20 seconds later finds the cooldown. -/
def sampleFourth : ReleaseTask := (sampleLease 4 (sampleAt 3600000 0)).get (by decide +kernel)

def sampleCooling : Store × Except String Admission :=
  sampleRefused.1.admitTask (fun _ => 1000) sampleFourth [] 900 (sampleAt 3600000 0) .fine

theorem cooldown_after_limit_sample : (Answer.admitted sampleCooling.2).grants = false := by
  obtain ⟨-, hfamily, hfree, hsame, -⟩ := sampleRefused_facts
  have hflow : sampleFourth.flowKey = sampleSecond.flowKey :=
    sampleLease_flow (Option.some_get _).symm (Option.some_get _).symm
  have hops : ∀ limit later : Op × Answer,
      (sampleReleasedRun.2 ++ limit :: ([] ++ [later])).map Prod.fst =
        sampleReleased ++ limit.1 :: [later.1] := by
    intro limit later
    simp only [List.map_append, List.map_cons, List.map_nil, sampleReleasedRun_run.2]
    rfl
  obtain ⟨item, -, -, hstart, r, hr, b, hb, -, -, hlater⟩ :=
    cooldown_after_limit (fun _ => 1000) rfl rfl
      (show Store.Fresh ⟨none, []⟩ from ⟨fun file h => (by cases h), rfl⟩) sampleReleasedRun_run.1
      (Store.step_admit sampleReleasedRun.1 sampleSecond [] 900 (sampleAt 3580000 0) .fine
        sampleRefused_facts.1)
      (Run.refl _)
      (Store.step_admit sampleRefused.1 sampleFourth [] 900 (sampleAt 3600000 0) .fine rfl)
      (built_of_ops (hops _ _) (by
        simp only [sampleReleased, List.cons_append, List.nil_append, List.forall_mem_cons]
        exact ⟨sampleLease_built (Option.some_get _).symm, trivial, trivial,
          sampleLease_built (Option.some_get _).symm, sampleLease_built (Option.some_get _).symm,
          fun _ h => by cases h⟩))
      (by
        rw [readings_eq, hops]
        exact sampleAt_oneBoot [(0, 0), (10000, 0), (20000, 0), (3580000, 0), (3600000, 0)]
          (by decide))
      hflow
      (fun held hheld => absurd hheld (by
        rw [hsame, hfree]
        exact nofun))
  have hreading : r = sampleAt 0 0 ∨ r = sampleAt 10000 0 ∨ r = sampleAt 20000 0 ∨
      r = sampleAt 3580000 0 := by
    rw [readings_eq, List.map_append, sampleReleasedRun_run.2] at hr
    simpa [sampleReleased, Op.clock] using hr
  -- Whichever of the readings it was recorded at, the end is 4500 seconds into the family.
  refine (hlater ((50000 + 3600000) * 1000000) rfl).1 ?_
  rw [hstart, hsame, hfamily]
  rcases hreading with rfl | rfl | rfl | rfl <;> obtain rfl := Option.some.inj hb <;> decide +kernel

/-- **On the wall clock the cooldown can end early.** -/
theorem cooldown_ends_on_boottime :
    GrantedEarly sampleReleasedRun.1 sampleRefused.1 sampleRefused.1 sampleRegranted.1
      sampleReleasedRun.2 []
      (.admitTask sampleSecond [] 900 (sampleAt 3580000 0) .fine, .admitted (.error limitReached))
      (.admitTask sampleThird [] 900 (sampleAt 3600000 1000000) .fine, .admitted sampleRegranted.2)
      sampleSecond sampleThird (sampleAt 3580000 0) (sampleAt 3600000 1000000)
      (.admitted sampleRegranted.2) where
  first := sampleReleasedRun_run.1
  refused := rfl
  refusal := Store.step_admit _ _ _ _ _ _ sampleRefused_facts.1
  between := Run.refl _
  granted := rfl
  grant := Store.step_admit _ _ _ _ _ _ rfl
  built := by
    refine built_of_ops (by rw [List.map_append, sampleReleasedRun_run.2]) ?_
    simp only [sampleReleased, List.nil_append, List.map_cons, List.map_nil, List.cons_append,
      List.forall_mem_cons]
    exact ⟨sampleLease_built (Option.some_get _).symm, trivial, trivial,
      sampleLease_built (Option.some_get _).symm, sampleLease_built (Option.some_get _).symm,
      fun _ h => by cases h⟩
  boot := by
    rw [readings_eq, List.map_append, sampleReleasedRun_run.2]
    exact sampleAt_oneBoot [(0, 0), (10000, 0), (20000, 0), (3580000, 0), (3600000, 1000000)]
      (by decide)
  wall := by
    rw [readings_eq, List.map_append, sampleReleasedRun_run.2]
    exact sampleAt_wall [(0, 0), (10000, 0), (20000, 0), (3580000, 0), (3600000, 1000000)]
      (by decide)
  flow := sampleLease_flow (Option.some_get _).symm (Option.some_get _).symm
  early := by
    rw [sampleRefused_facts.2.1]
    norm_num [sampleAt, maxCumulativeLeaseSec, flowCooldownSec]
  grants := sampleRefused_facts.2.2.2.2

/-- In the other run a second lease ends half a second before the family's bound; the refusal over
it records nothing, and once it is released the flow is restricted anew. -/
def sampleAlmost : ReleaseTask := (sampleLease 2 (sampleAt 2699500 0)).get (by decide +kernel)

def sampleAfter : ReleaseTask := (sampleLease 3 (sampleAt 2800000 0)).get (by decide +kernel)

def sampleAnew : ReleaseTask := (sampleLease 4 (sampleAt 3600000 0)).get (by decide +kernel)

def sampleHeld : List Op :=
  sampleReleased ++ [.admitTask sampleAlmost [] 900 (sampleAt 2699500 0) .fine,
    .activate sampleAlmost.taskId 1700002700 .fine]

def sampleHeldRun : Store × List (Op × Answer) :=
  (Store.execAll (fun _ => 1000) ⟨none, []⟩ sampleHeld).get (by decide +kernel)

def sampleFull : Store × Except String Admission :=
  sampleHeldRun.1.admitTask (fun _ => 1000) sampleAfter [] 900 (sampleAt 2800000 0) .fine

def sampleSwept : List Op := [.sweep (sampleAt 3600000 0) (fun _ => .ok ()) [sampleAbsent] .fine]

def sampleSweptRun : Store × List (Op × Answer) :=
  (Store.execAll (fun _ => 1000) sampleFull.1 sampleSwept).get (by decide +kernel)

def sampleRestarted : Store × Except String Admission :=
  sampleSweptRun.1.admitTask (fun _ => 1000) sampleAnew [] 900 (sampleAt 3600000 0) .fine

theorem sampleFull_facts :
    sampleFull.2 = .error limitReached ∧
      refusedFamily sampleHeldRun.1.ledger sampleAfter (sampleAt 2800000 0) = 1700000000 ∧
      (Answer.admitted sampleRestarted.2).grants = true := by
  decide +kernel

/-- **A lease that is almost full records no cooldown.** -/
theorem cooldown_missed_almost_full :
    GrantedEarly sampleHeldRun.1 sampleFull.1 sampleSweptRun.1 sampleRestarted.1
      sampleHeldRun.2 sampleSweptRun.2
      (.admitTask sampleAfter [] 900 (sampleAt 2800000 0) .fine, .admitted (.error limitReached))
      (.admitTask sampleAnew [] 900 (sampleAt 3600000 0) .fine, .admitted sampleRestarted.2)
      sampleAfter sampleAnew (sampleAt 2800000 0) (sampleAt 3600000 0)
      (.admitted sampleRestarted.2) := by
  obtain ⟨hrun₁, hops₁⟩ : Run (Store.Step fun _ => 1000) ⟨none, []⟩ sampleHeldRun.2 sampleHeldRun.1 ∧
      sampleHeldRun.2.map Prod.fst = sampleHeld :=
    Store.execAll_get _ _ _ _
  obtain ⟨hrun₂, hops₂⟩ : Run (Store.Step fun _ => 1000) sampleFull.1 sampleSweptRun.2
      sampleSweptRun.1 ∧ sampleSweptRun.2.map Prod.fst = sampleSwept :=
    Store.execAll_get _ _ _ _
  have hops : ∀ limit later : Op × Answer,
      (sampleHeldRun.2 ++ limit :: (sampleSweptRun.2 ++ [later])).map Prod.fst =
        sampleHeld ++ limit.1 :: (sampleSwept ++ [later.1]) := by
    intro limit later
    simp only [List.map_append, List.map_cons, List.map_nil, hops₁, hops₂]
  refine ⟨hrun₁, rfl, Store.step_admit _ _ _ _ _ _ sampleFull_facts.1, hrun₂, rfl,
    Store.step_admit _ _ _ _ _ _ rfl, ?_, ?_, ?_,
    sampleLease_flow (Option.some_get _).symm (Option.some_get _).symm, ?_, sampleFull_facts.2.2⟩
  · refine built_of_ops (hops _ _) ?_
    simp only [sampleHeld, sampleReleased, sampleSwept, List.nil_append, List.cons_append,
      List.forall_mem_cons]
    exact ⟨sampleLease_built (Option.some_get _).symm, trivial, trivial,
      sampleLease_built (Option.some_get _).symm, trivial,
      sampleLease_built (Option.some_get _).symm, trivial,
      sampleLease_built (Option.some_get _).symm, fun _ h => by cases h⟩
  · rw [readings_eq, hops]
    exact sampleAt_oneBoot [(0, 0), (10000, 0), (20000, 0), (2699500, 0), (2800000, 0),
      (3600000, 0), (3600000, 0)] (by decide)
  · rw [readings_eq, hops]
    exact sampleAt_wall [(0, 0), (10000, 0), (20000, 0), (2699500, 0), (2800000, 0),
      (3600000, 0), (3600000, 0)] (by decide)
  · rw [sampleFull_facts.2.1]
    norm_num [sampleAt, maxCumulativeLeaseSec, flowCooldownSec]

end AzazelEdge.Release
