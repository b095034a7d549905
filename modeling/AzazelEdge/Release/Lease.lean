/-
# When a lease expires and when its release is retried

`release.rs`: `lease_expiry`, `schedule_retry`, `retry_due_on_boottime`, `make_due_now`.  A lease
expires at whichever of its two deadlines passes first, and a monotonic deadline that cannot be
checked counts as passed.  A retry is due when either clock says so.
-/
import AzazelEdge.Release.Task

namespace AzazelEdge.Release

/-! ## 1. Expiry -/

/-- Which deadline expired a lease. -/
inductive ExpiryClock where
  | wall | monotonic | bootChanged | bootUnknown | bootInvalid | legacy
deriving DecidableEq, Repr

/-- `ExpiryClock::as_str`. -/
def ExpiryClock.asStr : ExpiryClock → String
  | .wall => "wall"
  | .monotonic => "monotonic"
  | .bootChanged => "boot_changed"
  | .bootUnknown => "boot_unknown"
  | .bootInvalid => "boot_invalid"
  | .legacy => "legacy"

/-- Both deadlines are readable in this boot: which one fired, if any did. -/
def expiryInBoot (task : ReleaseTask) (due boottime : ℕ) (wallEpoch : Epoch) :
    Option ExpiryClock :=
  let monotonicOvershoot : ℤ := (boottime : ℤ) - due
  match decide (task.dueEpoch ≤ wallEpoch), decide (0 ≤ monotonicOvershoot) with
  | false, false => none
  | true, false => some .wall
  | false, true => some .monotonic
  | true, true =>
    let wallOvershoot : ℤ := ⌊(wallEpoch - task.dueEpoch) * nsPerSec⌋
    if monotonicOvershoot + wallAttributionToleranceNs < wallOvershoot then some .wall
    else some .monotonic

/-- `lease_expiry`: whether the lease has expired at `now`, and on which clock. -/
def leaseExpiry (task : ReleaseTask) (now : LeaseNow) : Option ExpiryClock :=
  match task.dueBoottimeNs with
  | none => if task.dueEpoch ≤ now.wallEpoch then some .legacy else none
  | some due =>
    if i64Max < due ∨ (task.dueBootId ≠ "" ∧ validBootId task.dueBootId = false) then
      some .bootInvalid
    else match now.bootId, now.boottimeNs with
      | some bootId, some boottime =>
        if task.dueBootId = "" then some .bootUnknown
        else if task.dueBootId ≠ bootId then some .bootChanged
        else expiryInBoot task due boottime now.wallEpoch
      | _, _ => some .bootUnknown

/-- Within one boot a lease has expired exactly when one of its deadlines has passed. -/
theorem expiryInBoot_isSome {task : ReleaseTask} {due boottime : ℕ} {wallEpoch : Epoch} :
    (expiryInBoot task due boottime wallEpoch).isSome ↔
      task.dueEpoch ≤ wallEpoch ∨ due ≤ boottime := by
  have hmono : decide (0 ≤ (boottime : ℤ) - due) = decide (due ≤ boottime) := by
    rw [decide_eq_decide]; omega
  unfold expiryInBoot
  simp only [hmono]
  by_cases hw : task.dueEpoch ≤ wallEpoch <;> by_cases hm : due ≤ boottime
  · simp only [hw, hm, decide_true, true_or, iff_true]
    split <;> rfl
  · simp [hw, hm]
  · simp [hw, hm]
  · simp [hw, hm]

/-! ## 2. Retries -/

/-- `retry_delay_seconds`: the backoff after this many attempts. -/
def retryDelaySeconds (attempts : ℕ) : ℕ := min (2 ^ min attempts 8) 300

theorem retryDelaySeconds_le (attempts : ℕ) : retryDelaySeconds attempts ≤ 300 := min_le_right _ _

/-- The monotonic retry time of `schedule_retry`, with the boot it belongs to. -/
def retryBoottime (task : ReleaseTask) (now : LeaseNow) : Option (ℕ × String) :=
  match task.dueBoottimeNs, now.boottimeNs, now.bootId with
  | some _, some boottime, some bootId =>
    let at' := boottime + retryDelaySeconds task.attempts * nsPerSec
    if validBootId bootId ∧ at' ≤ i64Max then some (at', bootId) else none
  | _, _, _ => none

/-- `schedule_retry`: the next retry, on the wall clock and, for a lease with a monotonic
deadline, on `CLOCK_BOOTTIME`. -/
def scheduleRetry (task : ReleaseTask) (now : LeaseNow) : ReleaseTask :=
  { task with
    nextAttemptEpoch := now.wallEpoch + retryDelaySeconds task.attempts
    nextAttemptBoottimeNs := (retryBoottime task now).map Prod.fst
    nextAttemptBootId := ((retryBoottime task now).map Prod.snd).getD "" }

/-- `retry_due_on_boottime`. -/
def retryDueOnBoottime (task : ReleaseTask) (now : LeaseNow) : Bool :=
  match task.nextAttemptBoottimeNs, now.bootId, now.boottimeNs with
  | some at', some bootId, some boottime =>
    if task.nextAttemptBootId ≠ bootId then true else decide (at' ≤ boottime)
  | _, _, _ => false

/-- **A scheduled retry is due in its own boot once its backoff has passed**, whatever the wall
clock reads. -/
theorem retryDueOnBoottime_of_scheduled {task : ReleaseTask} {now : LeaseNow} {at' boottime : ℕ}
    {bootId : String} (hat : task.nextAttemptBoottimeNs = some at')
    (hid : now.bootId = some bootId) (hb : now.boottimeNs = some boottime) (hle : at' ≤ boottime) :
    retryDueOnBoottime task now = true := by
  unfold retryDueOnBoottime
  rw [hat, hid, hb]
  by_cases h : task.nextAttemptBootId = bootId <;> simp [h, hle]

/-! ## 3. Immediate release -/

/-- `make_due_now`: both deadlines of an unconfirmed lease move to now.  In another boot, or
with an unreadable clock, the monotonic one already counts as passed. -/
def makeDueNow (task : ReleaseTask) (now : LeaseNow) : ReleaseTask :=
  let dueAt := max now.wallEpoch task.createdEpoch
  { task with
    dueEpoch := dueAt
    nextAttemptEpoch := dueAt
    updatedEpoch := now.wallEpoch
    dueBoottimeNs :=
      match task.dueBoottimeNs, now.boottimeNs, now.bootId with
      | some due, some boottime, some bootId =>
        if bootId = task.dueBootId then some boottime else some due
      | due, _, _ => due }

end AzazelEdge.Release
