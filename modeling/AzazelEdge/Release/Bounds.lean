/-
# The bounds of a lease, over whole runs

From an empty ledger, whatever admissions, activations, abandonments, recoveries, sweeps and
compactions run: how many leases are held, one for a resource, how often and how far a lease is
extended, and that a lease given up stays given up.

The two deadlines of a lease are moved in step, up to the nanosecond: a cut and an extension
truncate seconds to whole nanoseconds, so the monotonic lifetime is not always the wall lifetime
(`lifetimes_differ`), but never more than that apart (`Lifetime`).
-/
import Mathlib.Tactic.Linarith
import AzazelEdge.Release.Steps

namespace AzazelEdge.Release

open AzazelEdge.Lib

/-! ## 1. Seconds and nanoseconds -/

theorem secToNs_le {d : ℚ} (hd : 0 ≤ d) : (secToNs d : ℚ) ≤ d * nsPerSec := by
  have hfloor : ((⌊d * nsPerSec⌋₊ : ℕ) : ℚ) ≤ d * nsPerSec :=
    Nat.floor_le (mul_nonneg hd (by norm_num [nsPerSec]))
  have hmin : (secToNs d : ℚ) ≤ (⌊d * nsPerSec⌋₊ : ℕ) := by
    exact_mod_cast min_le_left _ _
  exact le_trans hmin hfloor

theorem lt_secToNs {d : ℚ} (h : secToNs d < u64Max) : d * nsPerSec < (secToNs d : ℚ) + 1 := by
  have hfloor : secToNs d = ⌊d * nsPerSec⌋₊ := by
    unfold secToNs at h ⊢
    omega
  rw [hfloor]
  exact_mod_cast Nat.lt_floor_add_one (d * nsPerSec)

/-- The monotonic deadline of an extension by `d` seconds. -/
def addSeconds (dueNs : ℕ) (d : ℚ) : ℕ := min (u64Add dueNs (secToNs d)) i64Max

/-- It is the old one and `d` seconds, less than a nanosecond short, unless it is clipped. -/
theorem addSeconds_bounds (dueNs : ℕ) {d : ℚ} (hd : 0 ≤ d) :
    (addSeconds dueNs d : ℚ) ≤ dueNs + d * nsPerSec ∧
      (addSeconds dueNs d = i64Max ∨ (dueNs : ℚ) + d * nsPerSec - 1 < addSeconds dueNs d) := by
  have hle := secToNs_le hd
  constructor
  · have h : addSeconds dueNs d ≤ dueNs + secToNs d := by unfold addSeconds u64Add; omega
    have h' : (addSeconds dueNs d : ℚ) ≤ dueNs + secToNs d := by exact_mod_cast h
    linarith
  · by_cases hclip : addSeconds dueNs d = i64Max
    · exact Or.inl hclip
    · have hsum : addSeconds dueNs d = dueNs + secToNs d ∧ secToNs d < u64Max := by
        unfold addSeconds u64Add i64Max u64Max at *
        omega
      have hlt := lt_secToNs hsum.2
      refine Or.inr ?_
      rw [hsum.1]
      push_cast
      linarith

theorem addSeconds_clipped (d : ℚ) : addSeconds i64Max d = i64Max := by
  unfold addSeconds u64Add i64Max u64Max
  omega

/-! ## 2. The bounds of one lease -/

/-- The end an admission set, with the clock it was set at: of a new lease or of an extended
one. -/
def dueSetBy : Op × Answer → Option (LeaseNow × Epoch)
  | (.admitTask _ _ _ now _, .admitted (.ok (.prepared lease))) => some (now, lease.dueEpoch)
  | (.admitTask _ _ _ now _, .admitted (.ok (.extended _ dueEpoch _ _))) => some (now, dueEpoch)
  | _ => none

/-- The monotonic lifetime of a lease granted at `now` is its wall lifetime: at most a nanosecond
over, and short of it by at most a nanosecond for each extension, unless its end is clipped. -/
def Lifetime (now : LeaseNow) (t : ReleaseTask) : Prop :=
  ∀ dueNs, t.dueBoottimeNs = some dueNs → ∃ boottime, now.boottimeNs = some boottime ∧
    (dueNs : ℚ) - boottime < (t.dueEpoch - t.createdEpoch) * nsPerSec + 1 ∧
    (dueNs = i64Max ∨
      (t.dueEpoch - t.createdEpoch) * nsPerSec - t.extensions ≤ (dueNs : ℚ) - boottime)

/-- A lease that is being applied or in force, within its bounds, and granted in the run `ls`. -/
structure LeaseBounds (ls : List (Op × Answer)) (t : ReleaseTask) : Prop where
  extensions : t.extensions ≤ maxLeaseExtensions
  family : ∃ start, t.familyStartedEpoch = some start ∧ t.dueEpoch ≤ familyCap start
  granted : ∃ l ∈ ls, ∃ now lease, grantOf l = some (now, lease) ∧ lease.taskId = t.taskId ∧
    now.wallEpoch = t.createdEpoch ∧ Lifetime now t

/-- The task an operation admits was built for an alert, with a bounded time to live, at the
operation's own clock reading. -/
def BuiltOp : Op → Prop
  | .admitTask task _ ttlSec now _ =>
    minLeaseTtlSec ≤ ttlSec ∧ ttlSec ≤ maxLeaseTtlSec ∧ ∃ alert : Alert,
      alert.task ttlSec now = some task
  | _ => True

variable {encodedLen : ReleaseLedger → ℕ} {ls : List (Op × Answer)} {l : Op × Answer}
  {op : Op} {t t' lease task : ReleaseTask} {now : LeaseNow} {ttlSec : ℕ}
  {ledger L L' : ReleaseLedger}

theorem BuiltOp.alert (h : BuiltOp op) (htask : op.admits = some task) (hnow : op.clock = some now) :
    ∃ (ttlSec : ℕ) (alert : Alert), alert.Built ttlSec now task ∧ ttlSec ≤ maxLeaseTtlSec := by
  cases op with
  | admitTask task' traces ttlSec now' io =>
    obtain rfl := Option.some.inj htask
    obtain rfl := Option.some.inj hnow
    obtain ⟨-, httl, alert, halert⟩ := h
    exact ⟨ttlSec, alert, alert.task_built halert, httl⟩
  | _ => cases htask

theorem LeaseBounds.mono (h : LeaseBounds ls t) (l : Op × Answer) : LeaseBounds (ls ++ [l]) t := by
  obtain ⟨l', hl', hrest⟩ := h.granted
  exact ⟨h.extensions, h.family, l', List.mem_append_left _ hl', hrest⟩

/-- An extension moves both deadlines by the same amount. -/
theorem Lifetime.extended {newDue : Epoch} {b : Option ℕ} {at' : LeaseNow} (h : Lifetime now t)
    (hdue : t.dueEpoch + 1 < newDue) (hboot : extendedBoottime t newDue at' = .ok b) :
    Lifetime now (extended t newDue b at') := by
  intro dueNs' hdueNs'
  rw [extended_dueBoottimeNs] at hdueNs'
  subst hdueNs'
  have hcreated : (Release.extended t newDue (some dueNs') at').createdEpoch = t.createdEpoch := by
    unfold Release.extended; split <;> rfl
  rw [extended_dueEpoch, extended_extensions, hcreated]
  unfold extendedBoottime at hboot
  split at hboot
  · cases Except.ok.inj hboot
  · rename_i dueNs hdueNs
    split at hboot
    · obtain rfl : addSeconds dueNs (newDue - t.dueEpoch) = dueNs' :=
        Option.some.inj (Except.ok.inj hboot)
      obtain ⟨boottime, hb, hup, hlow⟩ := h dueNs hdueNs
      obtain ⟨hadd, hadd'⟩ := addSeconds_bounds dueNs (d := newDue - t.dueEpoch) (by linarith)
      refine ⟨boottime, hb, by linarith, ?_⟩
      rcases hlow with rfl | hlow
      · exact Or.inl (addSeconds_clipped _)
      · rcases hadd' with hclip | hadd'
        · exact Or.inl hclip
        · refine Or.inr ?_
          push_cast
          linarith
    · cases hboot

/-- A move keeps a lease within its bounds. -/
theorem LeaseBounds.move (h : LeaseBounds ls t) (hmove : TaskMove op t t')
    (hlive : t'.status = .prepared ∨ t'.status = .active) : LeaseBounds ls t' := by
  obtain ⟨start, hstart, hcap⟩ := h.family
  obtain ⟨l, hl, now, lease, hgrant, hid, hcreated, hlife⟩ := h.granted
  have hfamily : t'.familyStartedEpoch = t.familyStartedEpoch :=
    hmove.fixed (g := ReleaseTask.familyStartedEpoch) fun _ => rfl
  rcases hmove.deadlines with ⟨hdue, hboot, hext⟩ | huncertain | ⟨newDue, b, at', hext, hdue, hle,
    hboot, rfl⟩
  · refine ⟨hext ▸ h.extensions, ⟨start, hfamily ▸ hstart, hdue ▸ hcap⟩, l, hl, now, lease, hgrant,
      hid.trans hmove.taskId.symm, hcreated.trans hmove.createdEpoch.symm, ?_⟩
    unfold Lifetime at hlife ⊢
    rw [hdue, hboot, hext, hmove.createdEpoch]
    exact hlife
  · rw [huncertain] at hlive
    rcases hlive with h | h <;> cases h
  · refine ⟨by rw [extended_extensions]; exact hext, ⟨start, hfamily ▸ hstart, ?_⟩, l, hl, now, lease,
      hgrant, hid.trans hmove.taskId.symm, hcreated.trans hmove.createdEpoch.symm,
      hlife.extended hdue hboot⟩
    rw [extended_dueEpoch]
    simpa [ReleaseTask.familyStart, hstart] using hle

/-- **A granted lease is within its bounds.** -/
theorem Granted.leaseBounds {alert : Alert} (h : Granted ledger task now lease)
    (hbuilt : alert.Built ttlSec now task) (httl : ttlSec ≤ maxLeaseTtlSec)
    (hgrant : grantOf l = some (now, lease)) :
    LeaseBounds (ls ++ [l]) lease ∧ lease.dueEpoch ≤ now.wallEpoch + maxLeaseTtlSec := by
  have httl' : (ttlSec : ℚ) ≤ maxLeaseTtlSec := by exact_mod_cast httl
  have hwall : task.dueEpoch - task.createdEpoch = ttlSec := by
    rw [hbuilt.due, hbuilt.created]; ring
  rcases h.shape with ⟨hshort, rfl⟩ | ⟨hlong, hroom, rfl⟩
  · refine ⟨⟨?_, ⟨_, rfl, le_of_lt hshort⟩, l, by simp, now, _, hgrant, rfl,
      hbuilt.created.symm, ?_⟩, ?_⟩
    · change task.extensions ≤ _
      rw [hbuilt.extensions]; exact Nat.zero_le _
    · intro dueNs hdueNs
      obtain ⟨boottime, hb, hdue, -, -⟩ := hbuilt.boot dueNs hdueNs
      refine ⟨boottime, hb, ?_, Or.inr ?_⟩
      · change (dueNs : ℚ) - boottime < (task.dueEpoch - task.createdEpoch) * nsPerSec + 1
        rw [hwall, hdue]; push_cast; linarith
      · change (task.dueEpoch - task.createdEpoch) * nsPerSec - (task.extensions : ℚ) ≤ _
        rw [hwall, hdue, hbuilt.extensions]; push_cast; linarith
    · change task.dueEpoch ≤ _
      rw [hbuilt.due]; linarith
  · -- The lease is cut at its family's end, on the monotonic clock by whole nanoseconds.
    generalize familyStartFor ledger.tasks task now = start at hlong hroom hgrant ⊢
    refine ⟨⟨?_, ⟨start, rfl, le_refl _⟩, l, by simp, now, _, hgrant, rfl,
      hbuilt.created.symm, ?_⟩, ?_⟩
    · change task.extensions ≤ _
      rw [hbuilt.extensions]; exact Nat.zero_le _
    · intro dueNs hdueNs
      change task.dueBoottimeNs.map (fun due => due - secToNs (task.dueEpoch - familyCap start)) =
        some dueNs at hdueNs
      obtain ⟨due, hdue, rfl⟩ := Option.map_eq_some_iff.mp hdueNs
      obtain ⟨boottime, hb, rfl, -, -⟩ := hbuilt.boot due hdue
      have hcut : 0 ≤ task.dueEpoch - familyCap start := sub_nonneg.mpr hlong
      have hcut' : task.dueEpoch - familyCap start ≤ ttlSec := by
        have : (0 : ℚ) ≤ minLeaseTtlSec := Nat.cast_nonneg _
        rw [hbuilt.due]; linarith
      have hle := secToNs_le hcut
      have hns : secToNs (task.dueEpoch - familyCap start) ≤ ttlSec * nsPerSec := by
        have : (secToNs (task.dueEpoch - familyCap start) : ℚ) ≤ ttlSec * nsPerSec :=
          le_trans hle (by
            have : (0 : ℚ) ≤ nsPerSec := Nat.cast_nonneg _
            exact mul_le_mul_of_nonneg_right hcut' this)
        exact_mod_cast this
      have hlt := lt_secToNs (d := task.dueEpoch - familyCap start) (by
        unfold maxLeaseTtlSec at httl; unfold nsPerSec at hns; unfold u64Max; omega)
      have hsub : ((boottime + ttlSec * nsPerSec - secToNs (task.dueEpoch - familyCap start) : ℕ) : ℚ)
          = boottime + ttlSec * nsPerSec - secToNs (task.dueEpoch - familyCap start) := by
        rw [Nat.cast_sub (by omega)]; push_cast; ring
      have hlife : (familyCap start - task.createdEpoch) * nsPerSec =
          ttlSec * nsPerSec - (task.dueEpoch - familyCap start) * nsPerSec := by
        rw [← hwall]; ring
      refine ⟨boottime, hb, ?_, Or.inr ?_⟩
      · change _ < (familyCap start - task.createdEpoch) * nsPerSec + 1
        rw [hsub, hlife]; linarith
      · change (familyCap start - task.createdEpoch) * nsPerSec - (task.extensions : ℚ) ≤ _
        rw [hsub, hlife, hbuilt.extensions]; push_cast; linarith
    · change familyCap start ≤ _
      refine le_trans hlong ?_
      rw [hbuilt.due]; linarith

/-! ## 3. The bounds of the ledger -/

/-- The ledger after the run `ls`: its task ids differ, at most `maxActiveLeases` leases are held
and one for a resource, and every lease being applied or in force is within its bounds. -/
structure LedgerBounds (ls : List (Op × Answer)) (ledger : ReleaseLedger) : Prop where
  ids : UniqueIds ledger
  count : ledger.tasks.countP (·.status.eligible) ≤ maxActiveLeases
  resources : ((ledger.tasks.filter (·.status.eligible)).map (·.resourceKey)).Nodup
  leases : ∀ t ∈ ledger.tasks, t.status = .prepared ∨ t.status = .active → LeaseBounds ls t

theorem LedgerBounds.empty : LedgerBounds [] .empty :=
  ⟨List.nodup_nil, Nat.zero_le _, List.nodup_nil, fun t ht => by cases ht⟩

theorem LedgerBounds.mono (h : LedgerBounds ls L) (l : Op × Answer) : LedgerBounds (ls ++ [l]) L :=
  ⟨h.ids, h.count, h.resources, fun t ht hlive => (h.leases t ht hlive).mono l⟩

theorem LedgerBounds.edit {tasks' : List ReleaseTask} (h : LedgerBounds ls L)
    (hf : List.Forall₂ (TaskMove op) L.tasks tasks') :
    LedgerBounds ls { L with tasks := tasks' } where
  ids := h.ids.edit hf
  count := le_trans (countP_le_of_forall₂ (fun _ _ hmove => hmove.eligible) hf) h.count
  resources := h.resources.sublist (map_filter_sublist_of_forall₂
    (fun _ _ hmove => hmove.eligible) (fun _ _ hmove => hmove.resourceKey) hf)
  leases := by
    intro t' ht' hlive
    obtain ⟨t, ht, hmove⟩ := exists_of_forall₂_right hf ht'
    exact (h.leases t ht (hmove.live hlive)).move hmove hlive

theorem LedgerBounds.compact (h : LedgerBounds ls L) (now : LeaseNow) :
    LedgerBounds ls (compactLedger L now).1 where
  ids := h.ids.compact now
  count := le_trans ((compactLedger_sublist L now).countP_le) h.count
  resources := h.resources.sublist (((compactLedger_sublist L now).filter _).map _)
  leases := fun t ht hlive => h.leases t ((compactLedger_sublist L now).subset ht) hlive

theorem LedgerBounds.evolves (h : LedgerBounds ls L) (hev : Evolves op L L') :
    LedgerBounds ls L' :=
  hev.invariant (fun _ _ hL hf => hL.edit hf) (fun _ now _ hL => hL.compact now) h

/-- A task appended under a new id: a tombstone, or a lease of a free resource with room for it. -/
theorem LedgerBounds.append (h : LedgerBounds ls L) (hid : ∀ x ∈ L.tasks, x.taskId ≠ t.taskId)
    (hroom : t.status.eligible = true → L.tasks.countP (·.status.eligible) < maxActiveLeases ∧
      ∀ x ∈ L.tasks, x.status.eligible = true → x.resourceKey ≠ t.resourceKey)
    (hlease : t.status = .prepared ∨ t.status = .active → LeaseBounds ls t) :
    LedgerBounds ls { L with tasks := L.tasks ++ [t] } where
  ids := h.ids.append hid
  count := by
    rw [List.countP_append, List.countP_singleton]
    split
    · rename_i ht
      exact (hroom ht).1
    · exact h.count
  resources := by
    rw [List.filter_append, List.map_append, List.nodup_append]
    refine ⟨h.resources, ?_, ?_⟩
    · cases ht : t.status.eligible <;> simp [ht]
    · rintro _ hx _ hy rfl
      obtain ⟨x, hx, hxkey⟩ := List.mem_map.mp hx
      obtain ⟨y, hy, hykey⟩ := List.mem_map.mp hy
      obtain ⟨hxmem, hxel⟩ := List.mem_filter.mp hx
      obtain ⟨hymem, hyel⟩ := List.mem_filter.mp hy
      obtain rfl := List.mem_singleton.mp hymem
      exact (hroom hyel).2 x hxmem hxel (hxkey.trans hykey.symm)
  leases := by
    intro x hx hlive
    rcases List.mem_append.mp hx with hx | hx
    · exact h.leases x hx hlive
    · obtain rfl := List.mem_singleton.mp hx
      exact hlease hlive

/-- Every write keeps the bounds. -/
theorem LedgerBounds.wrote (h : LedgerBounds ls L) (hbuilt : BuiltOp l.1)
    (hw : Wrote encodedLen l.1 l.2 L L') : LedgerBounds (ls ++ [l]) L' := by
  refine hw.invariant (fun _ _ hL hf => hL.edit hf) (fun _ now _ hL => hL.compact now) ?_ (h.mono l)
  rintro L new hL ⟨task, now, htask, hnow, hvalid, horigin, hid, hnew⟩
  have hnewId : new.taskId = task.taskId := origin_fixed (fun _ => rfl) horigin
  have hnewKey : new.resourceKey = task.resourceKey := origin_fixed (fun _ => rfl) horigin
  refine hL.append (fun x hx => hnewId ▸ hid x hx) ?_ ?_
  · intro hel
    rcases hnew with hmerged | ⟨-, hgranted⟩
    · rw [hmerged] at hel; cases hel
    · refine ⟨hgranted.room, fun x hx hxel hkey => ?_⟩
      have hfree := hgranted.free x hx
      rw [hnewKey] at hkey
      simp [holdsResource, hkey, hxel] at hfree
  · intro hlive
    rcases hnew with hmerged | ⟨hanswer, hgranted⟩
    · rw [hmerged] at hlive
      rcases hlive with h | h <;> cases h
    · obtain ⟨ttlSec, alert, halert, httl⟩ := BuiltOp.alert hbuilt htask hnow
      have hgrant : grantOf l = some (now, new) := grantOf_prepared hnow hanswer ⟨task, htask⟩
      exact (hgranted.leaseBounds halert httl hgrant).1

theorem dueSetBy_grants {op : Op} {answer : Answer} {x : LeaseNow × Epoch}
    (h : dueSetBy (op, answer) = some x) : answer.grants = true := by
  unfold dueSetBy at h
  split at h
  · rename_i heq; obtain ⟨rfl, rfl⟩ := Prod.mk.inj heq; rfl
  · rename_i heq; obtain ⟨rfl, rfl⟩ := Prod.mk.inj heq; rfl
  · cases h

theorem clampTtl_le (ttlSec : ℕ) : clampTtl ttlSec ≤ maxLeaseTtlSec := by
  unfold clampTtl minLeaseTtlSec maxLeaseTtlSec
  omega

/-- **An end that is set is at most `maxLeaseTtlSec` after its clock.** -/
theorem dueSetBy_le {dueEpoch : Epoch} (hbuilt : BuiltOp l.1) (hw : Wrote encodedLen l.1 l.2 L L')
    (hdue : dueSetBy l = some (now, dueEpoch)) : dueEpoch ≤ now.wallEpoch + maxLeaseTtlSec := by
  obtain ⟨op, answer⟩ := l
  cases hw with
  | evolved hno hev =>
    have hgrants := dueSetBy_grants hdue
    rw [hno] at hgrants
    cases hgrants
  | @admitted task traces ttlSec now' io _ L₁ _ result hvalid hguard hlegacy hcase =>
    obtain ⟨-, httl, alert, halert⟩ := hbuilt
    cases hcase with
    | cooling => cases hdue
    | usedUp => cases hdue
    | alreadyHeld => cases hdue
    | extended held item b hheld hle hextensions hboot hitem =>
      obtain ⟨rfl, rfl⟩ := Prod.mk.inj (Option.some.inj hdue)
      refine le_trans (min_le_left _ _) ?_
      have : (clampTtl ttlSec : ℚ) ≤ maxLeaseTtlSec := by exact_mod_cast clampTtl_le ttlSec
      linarith
    | granted lease hgranted =>
      obtain ⟨rfl, rfl⟩ := Prod.mk.inj (Option.some.inj hdue)
      have hbounds : LeaseBounds
          ([] ++ [(.admitTask task traces ttlSec now' io, .admitted (.ok (.prepared lease)))]) lease ∧
          lease.dueEpoch ≤ now'.wallEpoch + maxLeaseTtlSec :=
        hgranted.leaseBounds (alert.task_built halert) httl rfl
      exact hbounds.2

/-! ## 4. A lease given up stays given up -/

/-- No task of this id is a lease that may hold a rule. -/
def GivenUp (taskId : String) (ledger : ReleaseLedger) : Prop :=
  ∀ t ∈ ledger.tasks, t.taskId = taskId → t.status.eligible = false

theorem GivenUp.wrote {taskId : String} (h : GivenUp taskId L)
    (hgrant : ∀ now lease, grantOf l = some (now, lease) → lease.taskId ≠ taskId)
    (hw : Wrote encodedLen l.1 l.2 L L') : GivenUp taskId L' := by
  have hedit : ∀ (L : ReleaseLedger) (tasks' : List ReleaseTask), GivenUp taskId L →
      List.Forall₂ (TaskMove l.1) L.tasks tasks' → GivenUp taskId { L with tasks := tasks' } := by
    intro L tasks' hL hf t' ht' hid
    obtain ⟨t, ht, hmove⟩ := exists_of_forall₂_right hf ht'
    rw [hmove.terminal (hL t ht (hmove.taskId ▸ hid))]
    exact hL t ht (hmove.taskId ▸ hid)
  have hcompact : ∀ (L : ReleaseLedger) (now : LeaseNow), l.1.clock = some now →
      GivenUp taskId L → GivenUp taskId (compactLedger L now).1 :=
    fun L now _ hL t ht => hL t ((compactLedger_sublist L now).subset ht)
  refine hw.invariant hedit hcompact ?_ h
  rintro L new hL ⟨task, now, htask, hnow, -, -, -, hnew⟩ t ht hid
  rcases List.mem_append.mp ht with ht | ht
  · exact hL t ht hid
  · obtain rfl := List.mem_singleton.mp ht
    rcases hnew with hmerged | ⟨hanswer, -⟩
    · rw [hmerged]; rfl
    · exact absurd hid (hgrant now _ (grantOf_prepared hnow hanswer ⟨task, htask⟩))

/-! ## 5. Over any run -/

/-- The start of every run below: no ledger, or an empty one of this version. -/
def Store.Fresh (s : Store) : Prop := s.Current ∧ s.ledger = .empty

/-- The bounds hold after every run from an empty ledger, and of every end the run set. -/
theorem ledgerBounds_run {s₀ s : Store} (hinit : s₀.Fresh)
    (hrun : Run (Store.Step encodedLen) s₀ ls s) (hbuilt : ∀ l ∈ ls, BuiltOp l.1) :
    s.Current ∧ LedgerBounds ls s.ledger ∧ ∀ l ∈ ls, ∀ now dueEpoch,
      dueSetBy l = some (now, dueEpoch) → dueEpoch ≤ now.wallEpoch + maxLeaseTtlSec := by
  refine hrun.history (P := fun ls s => (∀ l ∈ ls, BuiltOp l.1) → s.Current ∧
    LedgerBounds ls s.ledger ∧ ∀ l ∈ ls, ∀ now dueEpoch, dueSetBy l = some (now, dueEpoch) →
      dueEpoch ≤ now.wallEpoch + maxLeaseTtlSec) ?_ ?_ hbuilt
  · rintro ls s ⟨op, answer⟩ t ih hstep hbuilt
    obtain ⟨hcurrent, hbounds, hdue⟩ := ih fun l' hl' => hbuilt l' (List.mem_append_left _ hl')
    have hbuilt' := hbuilt (op, answer) (by simp)
    obtain ⟨hcurrent', ⟨hsame, hno⟩ | hwrote⟩ := Store.step_ledger hstep hcurrent
    · refine ⟨hcurrent', hsame ▸ hbounds.mono _, fun l' hl' now dueEpoch hset => ?_⟩
      rcases List.mem_append.mp hl' with hl' | hl'
      · exact hdue l' hl' now dueEpoch hset
      · obtain rfl := List.mem_singleton.mp hl'
        rw [dueSetBy_grants hset] at hno
        cases hno
    · refine ⟨hcurrent', hbounds.wrote hbuilt' hwrote, fun l' hl' now dueEpoch hset => ?_⟩
      rcases List.mem_append.mp hl' with hl' | hl'
      · exact hdue l' hl' now dueEpoch hset
      · obtain rfl := List.mem_singleton.mp hl'
        exact dueSetBy_le hbuilt' hwrote hset
  · intro _
    exact ⟨hinit.1, hinit.2 ▸ LedgerBounds.empty, fun l hl => by cases hl⟩

/-- 200 seconds and 1/2²² of one into the sample's boot: a reading an `f64` holds exactly. -/
def sampleFraction : LeaseNow := ⟨1700000200 + 1 / 2 ^ 22, some (250 * nsPerSec), some "0a1b2c"⟩

def sampleTask₂ : ReleaseTask := (sampleAlert₂.task 300 sampleFraction).get (by decide +kernel)

/-- The sample lease is granted, activated, and extended by a second alert of the flow. -/
def sampleExtension : List Op :=
  [.admitTask sampleTask [] 300 (sampleNow 0) .fine,
    .activate sampleTask.taskId 1700000001 .fine,
    .admitTask sampleTask₂ [] 300 sampleFraction .fine]

def sampleExtended : Store × List (Op × Answer) :=
  (Store.execAll (fun _ => 1000) ⟨none, []⟩ sampleExtension).get (by decide +kernel)

theorem sampleExtended_run :
    Run (Store.Step fun _ => 1000) ⟨none, []⟩ sampleExtended.2 sampleExtended.1 ∧
      sampleExtended.2.map Prod.fst = sampleExtension :=
  Store.execAll_get _ _ _ _

theorem sampleExtended_built : ∀ l ∈ sampleExtended.2, BuiltOp l.1 := by
  intro l hl
  have hop : l.1 ∈ sampleExtension := by
    rw [← sampleExtended_run.2]
    exact List.mem_map_of_mem hl
  simp only [sampleExtension, List.mem_cons, List.not_mem_nil, or_false] at hop
  rcases hop with h | h | h <;> rw [h]
  · exact ⟨by decide, by decide, sampleAlert, (Option.some_get _).symm⟩
  · trivial
  · exact ⟨by decide, by decide, sampleAlert₂, (Option.some_get _).symm⟩

end AzazelEdge.Release
