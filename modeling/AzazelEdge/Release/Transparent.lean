/-
# Generation migration is transparent to fresh alerts

A compaction takes terminal tasks out of the ledger and raises the watermark over their times.  An
admission looks at the tasks of the flow for a running cooldown and a current family, at the
eligible ones for a lease that holds the resource, and at the watermark.  None of that changes, as
long as the wall clock never falls back: what a compaction removes is `compactMinAgeSec` old, and
that is more than each of those looks reaches back.

* `Aged`: how the times of a task stand to each other and to the clock;
* `aged_run`: they stand so in every reachable ledger;
* `Forgettable`: what follows for a task that a compaction removes;
* `compaction_transparent`: the two admissions are one.

A refusal for want of room is left aside: that is what a compaction is for.
-/
import AzazelEdge.Release.Bounds

namespace AzazelEdge.Release

open AzazelEdge.Lib

/-! ## 1. The gate of the daemon -/

/-- `MAX_ALERT_AGE_SEC`. -/
def maxAlertAgeSec : ℕ := 300
/-- `MAX_ALERT_FUTURE_SEC`. -/
def maxAlertFutureSec : ℕ := 60

/-- `alert_freshness`, of the time that was read from the alert. -/
def alertFreshness (at' nowEpoch : Epoch) : Except String Epoch :=
  if nowEpoch + maxAlertFutureSec < at' then .error "alert_time_in_future"
  else if maxAlertAgeSec < nowEpoch - at' then .error "alert_stale"
  else .ok at'

/-- An operation as the daemon issues it: a lease is asked for an alert that is fresh at the clock
reading its task is built at. -/
def GatedOp (op : Op) : Prop :=
  BuiltOp op ∧ ∀ task now, op.admits = some task → op.clock = some now →
    ∀ at', task.eventEpoch = some at' → alertFreshness at' now.wallEpoch = .ok at'

/-- The wall clock readings of a run. -/
def walls (ls : List (Op × Answer)) : List Epoch := ls.filterMap (·.1.wallEpoch)

/-! ## 2. Ages -/

/-- The times of a task, under a clock that never fell back. -/
structure Aged (clock : Epoch) (t : ReleaseTask) : Prop where
  start : 0 ≤ t.createdEpoch
  family : t.familyStart ≤ t.createdEpoch
  created : t.createdEpoch ≤ t.updatedEpoch
  updated : t.updatedEpoch ≤ clock
  event : ∀ at', t.eventEpoch = some at' → at' ≤ t.createdEpoch + maxAlertFutureSec
  recorded : ∀ at', t.cooldownRecordedEpoch = some at' → at' ≤ clock

/-- A ledger of such tasks; before its first compaction it has no watermark. -/
structure AgedLedger (clock : Epoch) (L : ReleaseLedger) : Prop where
  tasks : ∀ t ∈ L.tasks, Aged clock t
  mark : L.checkpoint.generation = 0 → L.checkpoint.replayWatermarkEpoch = 0

variable {encodedLen : ReleaseLedger → ℕ} {op : Op} {answer : Answer} {t t' task : ReleaseTask}
  {now : LeaseNow} {clock : Epoch} {L L' : ReleaseLedger}

theorem Aged.mono {later : Epoch} (h : Aged clock t) (hle : clock ≤ later) : Aged later t :=
  { h with
    updated := h.updated.trans hle
    recorded := fun at' hat => (h.recorded at' hat).trans hle }

theorem AgedLedger.mono {later : Epoch} (h : AgedLedger clock L) (hle : clock ≤ later) :
    AgedLedger later L :=
  ⟨fun t ht => (h.tasks t ht).mono hle, h.mark⟩

/-- What a move does to the stamps: it leaves them, or sets them to its own clock. -/
theorem TaskMove.stamps (h : TaskMove op t t') (ht : t.updatedEpoch ≤ clock)
    (hwall : ∀ w, op.wallEpoch = some w → w = clock) :
    (t'.updatedEpoch = t.updatedEpoch ∨ t'.updatedEpoch = clock) ∧
      (t'.cooldownRecordedEpoch = t.cooldownRecordedEpoch ∨
        t'.cooldownRecordedEpoch = some clock) := by
  have hclock : ∀ {now : LeaseNow}, op.clock = some now → now.wallEpoch = clock :=
    fun hnow => hwall _ (wallEpoch_of_clock hnow)
  have hrecord : ∀ {now : LeaseNow} {x : ReleaseTask} {untilWall : Epoch},
      op.clock = some now → x.updatedEpoch ≤ clock →
      (recordCooldown x untilWall now).updatedEpoch = clock ∧
        (recordCooldown x untilWall now).cooldownRecordedEpoch = some clock := by
    intro now x untilWall hnow hx
    rw [← hclock hnow] at hx ⊢
    exact ⟨max_eq_right hx, rfl⟩
  cases h with
  | same => exact ⟨Or.inl rfl, Or.inl rfl⟩
  | usedUp now hnow =>
    obtain ⟨hupdated, hrecorded⟩ := hrecord hnow ht
    exact ⟨Or.inr hupdated, Or.inr hrecorded⟩
  | reread now hnow =>
    rcases cooldownRunning_task t now with h | ⟨untilWall, h⟩ <;> rw [h]
    · exact ⟨Or.inl rfl, Or.inl rfl⟩
    · obtain ⟨hupdated, hrecorded⟩ := hrecord hnow ht
      exact ⟨Or.inr hupdated, Or.inr hrecorded⟩
  | extended newDue b now hnow =>
    have hextend : (extendTo newDue b now t).updatedEpoch = clock := hclock hnow
    unfold Release.extended
    dsimp only
    split
    · obtain ⟨hupdated, hrecorded⟩ := hrecord hnow hextend.le
      exact ⟨Or.inr hupdated, Or.inr hrecorded⟩
    · exact ⟨Or.inr hextend, Or.inl rfl⟩
  | uncertain now _ hnow => exact ⟨Or.inr (hclock hnow), Or.inl rfl⟩
  | activated nowEpoch _ _ hstamp => exact ⟨Or.inr (hwall _ hstamp), Or.inl rfl⟩
  | superseded nowEpoch _ _ _ hstamp => exact ⟨Or.inr (hwall _ hstamp), Or.inl rfl⟩
  | attempted now result hnow =>
    refine ⟨Or.inr ?_, Or.inl ?_⟩
    · rw [← hclock hnow]
      cases result with
      | error e => rfl
      | ok outcome =>
        by_cases hreleased : outcome.status = .released
        · simp only [afterAttempt, if_pos hreleased]; rfl
        · simp only [afterAttempt, if_neg hreleased]; rfl
    · exact afterAttempt_leaves (g := ReleaseTask.cooldownRecordedEpoch)
        (fun _ _ _ _ _ _ _ _ _ => rfl) now result t
  | deferred newer now hnow => exact ⟨Or.inr (hclock hnow), Or.inl rfl⟩

/-- **A move at the clock keeps the ages.** -/
theorem Aged.move (h : Aged clock t) (hmove : TaskMove op t t')
    (hwall : ∀ w, op.wallEpoch = some w → w = clock) : Aged clock t' := by
  obtain ⟨hupdated, hrecorded⟩ := hmove.stamps h.updated hwall
  refine ⟨?_, ?_, ?_, ?_, ?_, ?_⟩
  · rw [hmove.createdEpoch]
    exact h.start
  · rw [hmove.familyStart, hmove.createdEpoch]
    exact h.family
  · rw [hmove.createdEpoch]
    rcases hupdated with hu | hu <;> rw [hu]
    · exact h.created
    · exact h.created.trans h.updated
  · rcases hupdated with hu | hu <;> rw [hu]
    exact h.updated
  · rw [hmove.eventEpoch, hmove.createdEpoch]
    exact h.event
  · intro at' hat
    rcases hrecorded with hr | hr <;> rw [hr] at hat
    · exact h.recorded at' hat
    · rw [← Option.some.inj hat]

/-- A compaction raises the generation with the watermark. -/
theorem AgedLedger.compact (h : AgedLedger clock L) (now : LeaseNow) :
    AgedLedger clock (compactLedger L now).1 := by
  refine ⟨fun t ht => h.tasks t ((compactLedger_sublist L now).subset ht), ?_⟩
  unfold compactLedger
  dsimp only
  split
  · exact h.mark
  · intro hzero
    have hpos : 0 < u64Add L.checkpoint.generation 1 := by
      unfold u64Add u64Max
      omega
    exact absurd hzero (Nat.pos_iff_ne_zero.mp hpos)

theorem buildReleaseTask_times {traceId iface sourceIp : String} {action : Action}
    {destinationPort redirectPort delayMs ttlSec : ℕ}
    (h : buildReleaseTask traceId action iface sourceIp destinationPort redirectPort delayMs ttlSec
      now = some task) :
    task.updatedEpoch = now.wallEpoch ∧ task.familyStartedEpoch = none ∧
      task.cooldownRecordedEpoch = none := by
  unfold buildReleaseTask at h
  split at h
  · cases h
  · obtain ⟨_, -, rfl⟩ := Option.map_eq_some_iff.mp h
    exact ⟨rfl, rfl, rfl⟩

/-- The times the builders give a task. -/
theorem Alert.task_times {alert : Alert} {ttlSec : ℕ} (h : alert.task ttlSec now = some task) :
    task.updatedEpoch = now.wallEpoch ∧ task.familyStartedEpoch = none ∧
      task.cooldownRecordedEpoch = none := by
  obtain ⟨built, hbuilt, rfl⟩ := Option.map_eq_some_iff.mp h
  split at hbuilt
  · unfold buildFlowThrottleTask at hbuilt
    split at hbuilt
    · cases hbuilt
    · split at hbuilt
      · cases hbuilt
      · obtain ⟨base, hbase, rfl⟩ := Option.map_eq_some_iff.mp hbuilt
        have htimes := buildReleaseTask_times hbase
        exact htimes
  · unfold buildFlowRedirectTask at hbuilt
    split at hbuilt
    · cases hbuilt
    · obtain ⟨base, hbase, rfl⟩ := Option.map_eq_some_iff.mp hbuilt
      have htimes := buildReleaseTask_times hbase
      exact htimes

/-- A task that passed the gate, before the ledger decides on it. -/
structure AskedFor (now : LeaseNow) (task : ReleaseTask) : Prop where
  start : 0 ≤ task.createdEpoch
  created : task.createdEpoch = now.wallEpoch
  updated : task.updatedEpoch = now.wallEpoch
  family : task.familyStartedEpoch = none
  recorded : task.cooldownRecordedEpoch = none
  event : ∀ at', task.eventEpoch = some at' → at' ≤ now.wallEpoch + maxAlertFutureSec

theorem GatedOp.askedFor (h : GatedOp op) (htask : op.admits = some task)
    (hnow : op.clock = some now) : AskedFor now task := by
  obtain ⟨hbuilt, hgate⟩ := h
  have htimes : ∃ (ttlSec : ℕ) (alert : Alert), alert.task ttlSec now = some task := by
    cases op with
    | admitTask task' traces ttlSec now' io =>
      obtain rfl := Option.some.inj htask
      obtain rfl := Option.some.inj hnow
      obtain ⟨-, -, alert, halert⟩ := hbuilt
      exact ⟨ttlSec, alert, halert⟩
    | _ => cases htask
  obtain ⟨ttlSec, alert, halert⟩ := htimes
  obtain ⟨hupdated, hfamily, hrecorded⟩ := alert.task_times halert
  have hcreated := (alert.task_built halert).created
  refine ⟨hcreated ▸ (alert.task_built halert).wall, hcreated, hupdated, hfamily, hrecorded, ?_⟩
  intro at' hat
  have hfresh := hgate task now htask hnow at' hat
  unfold alertFreshness at hfresh
  split at hfresh
  · cases hfresh
  · rename_i hfuture
    exact not_lt.mp hfuture

theorem AskedFor.tombstone (h : AskedFor now task) (held : ReleaseTask) :
    Aged now.wallEpoch (tombstoneOf task held now) where
  start := h.start
  family := by simp [ReleaseTask.familyStart, tombstoneOf, h.family]
  created := h.created.le
  updated := le_refl _
  event := fun at' hat => by
    rw [show (tombstoneOf task held now).createdEpoch = now.wallEpoch from h.created]
    exact h.event at' hat
  recorded := fun at' hat => by
    have : task.cooldownRecordedEpoch = some at' := hat
    rw [h.recorded] at this
    cases this

/-- A new lease: its family began with it, or with an older task of the ledger. -/
theorem AskedFor.granted {lease : ReleaseTask} (h : AskedFor now task) (hL : AgedLedger now.wallEpoch L)
    (hgranted : Granted L task now lease) : Aged now.wallEpoch lease := by
  have hfamily : familyStartFor L.tasks task now ≤ now.wallEpoch := by
    unfold familyStartFor
    cases hcurrent : currentFamily L.tasks task now with
    | none => exact le_refl _
    | some start =>
      obtain ⟨item, hitem, -, rfl, -⟩ := currentFamily_mem hcurrent
      have haged := hL.tasks item hitem
      exact haged.family.trans (haged.created.trans haged.updated)
  rcases hgranted.shape with ⟨-, rfl⟩ | ⟨-, -, rfl⟩
  · exact ⟨h.start, hfamily.trans h.created.ge, (h.created.trans h.updated.symm).le, h.updated.le,
      fun at' hat => (h.event at' hat).trans_eq (by rw [h.created]), fun at' hat => by
        rw [show _ = _ from h.recorded] at hat
        cases hat⟩
  · refine ⟨h.start, hfamily.trans h.created.ge, ?_, ?_,
      fun at' hat => (h.event at' hat).trans_eq (by rw [← h.created]; rfl), ?_⟩
    · exact h.created.le.trans (le_max_right _ _)
    · exact max_le h.updated.le (le_refl _)
    · rintro at' ⟨⟩
      exact le_refl _

/-- **Every write of a gated operation keeps the ages**, at its own clock. -/
theorem AgedLedger.wrote (h : AgedLedger clock L) (hgated : GatedOp op)
    (hwall : ∀ w, op.wallEpoch = some w → w = clock) (hw : Wrote encodedLen op answer L L') :
    AgedLedger clock L' := by
  refine hw.invariant ?_ (fun _ now _ hL => hL.compact now) ?_ h
  · intro L tasks' hL hf
    refine ⟨fun t' ht' => ?_, hL.mark⟩
    obtain ⟨t, ht, hmove⟩ := exists_of_forall₂_right hf ht'
    exact (hL.tasks t ht).move hmove hwall
  · rintro L new hL ⟨task, now, htask, hnow, -, -, -, hnew, hmerged⟩
    have hasked := hgated.askedFor htask hnow
    obtain rfl : now.wallEpoch = clock := hwall _ (wallEpoch_of_clock hnow)
    refine ⟨fun t ht => ?_, hL.mark⟩
    rcases List.mem_append.mp ht with ht | ht
    · exact hL.tasks t ht
    · obtain rfl := List.mem_singleton.mp ht
      rcases hnew with hstatus | ⟨-, hgranted⟩
      · obtain ⟨held, rfl⟩ := hmerged hstatus
        exact hasked.tombstone held
      · exact hasked.granted hL hgranted

/-! ## 3. Reachable ledgers -/

/-- A ledger that the previous core left, under the same clock: its tasks have none of the newer
fields, and its checkpoint is the default one. -/
structure LegacyLedger (clock : Epoch) (L : ReleaseLedger) : Prop where
  tasks : ∀ t ∈ L.tasks, 0 ≤ t.createdEpoch ∧ t.createdEpoch ≤ t.updatedEpoch ∧
    t.updatedEpoch ≤ clock ∧ t.eventEpoch = none ∧ t.familyStartedEpoch = none ∧
    t.cooldownRecordedEpoch = none
  checkpoint : L.checkpoint = ReleaseLedger.empty.checkpoint

/-- The start of a run: nothing on disk, an empty ledger, or one of the previous core. -/
def Store.Started (clock : Epoch) (s : Store) : Prop :=
  s.Fresh ∨ ∃ file, s.disk = some file ∧ file.schema = .v1 ∧ LegacyLedger clock file.ledger

theorem AgedLedger.empty : AgedLedger clock .empty := ⟨fun _ ht => (List.not_mem_nil ht).elim, fun _ => rfl⟩

theorem LegacyLedger.aged (h : LegacyLedger clock L) {t : ReleaseTask} (ht : t ∈ L.tasks) :
    Aged clock t := by
  obtain ⟨hstart, hcreated, hupdated, hevent, hfamily, hrecorded⟩ := h.tasks t ht
  exact ⟨hstart, by simp [ReleaseTask.familyStart, hfamily], hcreated, hupdated,
    by simp [hevent], by simp [hrecorded]⟩

/-- The migration of a v1 ledger starts a generation of its own. -/
theorem aged_migrated {file : LedgerFile} (h : LegacyLedger clock file.ledger) :
    AgedLedger clock (migrateV1 file) := by
  unfold migrateV1
  dsimp only
  split
  · refine ⟨fun t ht => h.aged ht, fun _ => ?_⟩
    rw [h.checkpoint]
    rfl
  · refine ⟨fun t ht => h.aged ht, fun hzero => ?_⟩
    have : max file.ledger.checkpoint.generation 1 = 0 := hzero
    omega

theorem aged_started {s : Store} (h : s.Started clock) : OnDisk (AgedLedger clock) s := by
  intro L hL
  rcases h with ⟨hcurrent, hempty⟩ | ⟨file, hdisk, hschema, hlegacy⟩
  · rw [hcurrent.load hL, hempty]
    exact AgedLedger.empty
  · rw [hdisk] at hL
    simp only [loadLedger, hschema] at hL
    split at hL
    · cases hL
    · rw [checkLoaded_ok hL]
      exact aged_migrated hlegacy

/-- **The ages hold of every reachable ledger**, at every clock reading that is not before those
of the run. -/
theorem aged_run {s₀ s : Store} {ls : List (Op × Answer)} {start : Epoch}
    (hinit : s₀.Started start) (hrun : Run (Store.Step encodedLen) s₀ ls s)
    (hgated : ∀ l ∈ ls, GatedOp l.1) (hwalls : (start :: walls ls).Pairwise (· ≤ ·)) :
    ∀ clock, start ≤ clock → (∀ w ∈ walls ls, w ≤ clock) → OnDisk (AgedLedger clock) s := by
  refine hrun.history (P := fun ls s => (∀ l ∈ ls, GatedOp l.1) →
    (start :: walls ls).Pairwise (· ≤ ·) → ∀ clock, start ≤ clock →
    (∀ w ∈ walls ls, w ≤ clock) → OnDisk (AgedLedger clock) s) ?_ ?_ hgated hwalls
  · rintro ls s ⟨op, answer⟩ s' ih hstep hgated hwalls clock hstart hclock
    have hsplit : walls (ls ++ [(op, answer)]) = walls ls ++ op.wallEpoch.toList := by
      unfold walls
      rw [List.filterMap_append]
      cases hop : op.wallEpoch <;> simp [hop]
    rw [hsplit, ← List.cons_append, List.pairwise_append] at hwalls
    rw [hsplit] at hclock
    have hgated' := hgated (op, answer) (by simp)
    have ih := ih (fun l hl => hgated l (List.mem_append_left _ hl)) hwalls.1
    -- The ages hold at the clock of the step, and from there on.
    cases hop : op.wallEpoch with
    | none =>
      refine Store.step_onDisk hstep (fun L L' hL hw => hL.wrote hgated' ?_ hw)
        (ih clock hstart fun w hw => hclock w (List.mem_append_left _ hw))
      simp [hop]
    | some w =>
      have hlast : ∀ x ∈ start :: walls ls, x ≤ w := fun x hx =>
        hwalls.2.2 x hx w (by simp [hop])
      have haged : OnDisk (AgedLedger w) s' := by
        refine Store.step_onDisk hstep (fun L L' hL hw => hL.wrote hgated' ?_ hw)
          (ih w (hlast start List.mem_cons_self) fun x hx => hlast x (List.mem_cons_of_mem _ hx))
        intro w' hw'
        rw [hop] at hw'
        exact (Option.some.inj hw').symm
      exact fun L hL => (haged L hL).mono (hclock w (by simp [hop]))
  · intro _ _ clock hstart _ L hL
    exact (aged_started hinit L hL).mono hstart

/-! ## 4. What a compaction removes -/

/-- A task that no admission looks at any more. -/
structure Forgettable (now : LeaseNow) (t : ReleaseTask) : Prop where
  terminal : t.status.eligible = false
  /-- Its cooldown is over, and reading it changes nothing. -/
  calm : (cooldownRunning t now).running = none ∧ (cooldownRunning t now).anchored = false
  /-- No current family is its own. -/
  family : t.familyStart + compactMinAgeSec ≤ now.wallEpoch
  /-- No fresh alert is as old. -/
  basis : replayBasis t + (compactMinAgeSec - maxAlertFutureSec : ℕ) ≤ now.wallEpoch
  start : (compactMinAgeSec : ℚ) ≤ now.wallEpoch

/-- A cooldown that may not be running is not, when the clock never fell back behind its record. -/
theorem cooldownRunning_of_over (hover : cooldownMayBeRunning t now = false)
    (hrecorded : ∀ at', t.cooldownRecordedEpoch = some at' → at' ≤ now.wallEpoch) :
    (cooldownRunning t now).running = none ∧ (cooldownRunning t now).anchored = false := by
  unfold cooldownMayBeRunning at hover
  unfold cooldownRunning
  cases huntil : t.cooldownUntilEpoch with
  | none => exact ⟨rfl, rfl⟩
  | some untilWall =>
    rw [huntil] at hover
    dsimp only at hover ⊢
    split at hover
    · cases hover
    · rename_i hlate
      have hlate : untilWall + flowCooldownSec ≤ now.wallEpoch := not_lt.mp hlate
      have hcooldown : (0 : ℚ) ≤ flowCooldownSec := Nat.cast_nonneg _
      have huntilNow : untilWall ≤ now.wallEpoch := by linarith
      -- On this boot the monotonic end has passed; otherwise the wall-clock end has.
      cases hremaining : cooldownBootRemaining t now with
      | some ns =>
        have hns : ns = 0 := by
          unfold cooldownBootRemaining at hremaining
          split at hremaining
          · rename_i endNs mono boot hend hmono hboot
            split at hremaining
            · rename_i hsame
              simp only [hend, hmono, hboot, hsame, decide_true, Bool.true_and,
                decide_eq_false_iff_not, not_lt] at hover
              rw [← Option.some.inj hremaining]
              omega
            · cases hremaining
          · cases hremaining
        subst hns
        exact ⟨rfl, rfl⟩
      | none =>
        have hback : ¬ now.wallEpoch < t.cooldownRecordedEpoch.getD (untilWall - flowCooldownSec) - 1 := by
          cases hrec : t.cooldownRecordedEpoch with
          | none =>
            rw [Option.getD_none]
            linarith
          | some at' =>
            have := hrecorded at' hrec
            rw [Option.getD_some]
            linarith
        dsimp only
        rw [if_pos ⟨huntilNow, by simpa using hback⟩]
        exact ⟨rfl, rfl⟩

/-- **What a compaction removes can be forgotten.** -/
theorem forgettable (haged : Aged clock t) (hclock : clock ≤ now.wallEpoch)
    (h : compactable now t = true) : Forgettable now t := by
  simp only [compactable, Bool.and_eq_true, decide_eq_true_eq, Bool.not_eq_true'] at h
  obtain ⟨⟨hterminal, hage⟩, hover⟩ := h
  have hage : t.updatedEpoch + compactMinAgeSec ≤ now.wallEpoch := by linarith
  have hcreated : t.createdEpoch + compactMinAgeSec ≤ now.wallEpoch := by
    have := haged.created
    linarith
  refine ⟨by simpa [Status.terminal] using hterminal, ?_, ?_, ?_, ?_⟩
  · exact cooldownRunning_of_over hover fun at' hat => (haged.recorded at' hat).trans hclock
  · have := haged.family
    linarith
  · have hbasis : replayBasis t ≤ t.createdEpoch + maxAlertFutureSec := by
      refine max_le ?_ (le_add_of_nonneg_right (Nat.cast_nonneg _))
      cases hevent : t.eventEpoch with
      | none => exact le_add_of_nonneg_right (Nat.cast_nonneg _)
      | some at' => exact haged.event at' hevent
    rw [Nat.cast_sub (by decide)]
    linarith
  · have := haged.start
    linarith

/-! ## 5. The looks of an admission -/

section Looks

variable {tasks : List ReleaseTask} {keep : ReleaseTask → Bool} {ttlSec : ℕ}

/-- A filter finds what it found, where it takes nothing that was removed. -/
theorem filter_kept {p : ReleaseTask → Bool}
    (h : ∀ t ∈ tasks, keep t = false → p t = false) :
    (tasks.filter keep).filter p = tasks.filter p := by
  rw [List.filter_filter]
  refine List.filter_congr fun t ht => ?_
  cases hkeep : keep t with
  | true => simp
  | false => simp [h t ht hkeep]

/-- What is read of the tasks is read of those that were kept, where the others yield nothing. -/
theorem filterMap_kept {β : Type} {f : ReleaseTask → Option β}
    (h : ∀ t ∈ tasks, keep t = false → f t = none) :
    (tasks.filter keep).filterMap f = tasks.filterMap f := by
  induction tasks with
  | nil => rfl
  | cons t tasks ih =>
    have ih := ih fun x hx => h x (List.mem_cons_of_mem _ hx)
    cases hkeep : keep t with
    | true => rw [List.filter_cons_of_pos hkeep, List.filterMap_cons, List.filterMap_cons, ih]
    | false =>
      rw [List.filter_cons_of_neg (by simp [hkeep]), ih,
        List.filterMap_cons_none (h t List.mem_cons_self hkeep)]

variable (hgone : ∀ t ∈ tasks, keep t = false → Forgettable now t)
include hgone

theorem cooldownEnd_kept : cooldownEnd task now (tasks.filter keep) = cooldownEnd task now tasks := by
  unfold cooldownEnd
  rw [List.filter_comm, filterMap_kept]
  intro t ht hkeep
  exact (hgone t (List.mem_of_mem_filter ht) hkeep).calm.1

theorem cooldownAnchored_kept :
    cooldownAnchored task now (tasks.filter keep) = cooldownAnchored task now tasks := by
  unfold cooldownAnchored
  rw [List.filter_comm, Bool.eq_iff_iff, List.any_eq_true, List.any_eq_true]
  constructor
  · rintro ⟨t, ht, hanchored⟩
    exact ⟨t, List.mem_of_mem_filter ht, hanchored⟩
  · rintro ⟨t, ht, hanchored⟩
    refine ⟨t, List.mem_filter.mpr ⟨ht, ?_⟩, hanchored⟩
    by_contra hkeep
    have hcalm := (hgone t (List.mem_of_mem_filter ht) (by simpa using hkeep)).calm.2
    rw [hcalm] at hanchored
    cases hanchored

theorem find?_holds_kept :
    (tasks.filter keep).find? (holdsResource task) = tasks.find? (holdsResource task) := by
  have hfilter := (@filter_kept tasks keep (holdsResource task))
    fun t ht hkeep => by simp [holdsResource, (hgone t ht hkeep).terminal]
  rw [← List.head?_filter, hfilter, List.head?_filter]

theorem countP_eligible_kept :
    (tasks.filter keep).countP (·.status.eligible) = tasks.countP (·.status.eligible) := by
  rw [List.countP_eq_length_filter, List.countP_eq_length_filter, filter_kept]
  exact fun t ht hkeep => (hgone t ht hkeep).terminal

theorem familyStartFor_kept :
    familyStartFor (tasks.filter keep) task now = familyStartFor tasks task now := by
  have hstarts : ∀ xs : List ReleaseTask,
      ((xs.filter (inFamilyOf task)).map (·.familyStart)).filter
          (fun start => now.wallEpoch - start < maxCumulativeLeaseSec) =
        (xs.filter fun t => decide (now.wallEpoch - t.familyStart < maxCumulativeLeaseSec) &&
          inFamilyOf task t).map (·.familyStart) := by
    intro xs
    rw [List.filter_map, List.filter_filter]
    rfl
  unfold familyStartFor currentFamily
  rw [hstarts, hstarts, filter_kept]
  intro t ht hkeep
  have hfamily := (hgone t ht hkeep).family
  have hold : ¬ now.wallEpoch - t.familyStart < maxCumulativeLeaseSec := by
    unfold compactMinAgeSec at hfamily
    push_cast at hfamily ⊢
    linarith
  simp [hold]

omit hgone

/-- Two plans that answer alike, and write both or neither. -/
def AdmitPlan.Same (a b : AdmitPlan) : Prop :=
  a.answer = b.answer ∧ a.save.isSome = b.save.isSome

theorem admitHeld_same {held : ReleaseTask} :
    (admitHeld L task held ttlSec now).Same (admitHeld L' task held ttlSec now) := by
  unfold admitHeld
  dsimp only
  split_ifs
  all_goals first
    | exact ⟨rfl, rfl⟩
    | cases extendedBoottime held _ now <;> exact ⟨rfl, rfl⟩

include hgone in
theorem admitFresh_same (htasks : L.tasks = tasks) (htasks' : L'.tasks = tasks.filter keep) :
    (admitFresh L task now).Same (admitFresh L' task now) := by
  unfold admitFresh
  rw [htasks, htasks', countP_eligible_kept hgone, familyStartFor_kept hgone]
  dsimp only
  split_ifs with hroom hshort hclose
  · exact ⟨rfl, rfl⟩
  · exact ⟨rfl, rfl⟩
  · obtain ⟨k, hk⟩ := latestOfFamily_isSome hclose
    have hclose' := hclose
    rw [← familyStartFor_kept hgone] at hclose'
    obtain ⟨k', hk'⟩ := latestOfFamily_isSome hclose'
    rw [familyStartFor_kept hgone] at hk'
    rw [hk, hk']
    exact ⟨rfl, rfl⟩
  · exact ⟨rfl, rfl⟩

include hgone in
/-- **Past the replay guards, an admission does not see what was removed.** -/
theorem admitGuarded_same (htasks : L.tasks = tasks) (htasks' : L'.tasks = tasks.filter keep) :
    (admitGuarded L task ttlSec now).Same (admitGuarded L' task ttlSec now) := by
  unfold admitGuarded
  rw [htasks, htasks', cooldownEnd_kept hgone, cooldownAnchored_kept hgone,
    find?_holds_kept hgone]
  dsimp only
  cases cooldownEnd task now tasks with
  | some untilEpoch =>
    refine ⟨rfl, ?_⟩
    dsimp only
    split <;> rfl
  | none =>
    dsimp only
    cases tasks.find? (holdsResource task) with
    | some held => exact admitHeld_same
    | none => exact admitFresh_same hgone htasks htasks'

end Looks

/-! ## 6. The replay guards -/

/-- The refusal of an admission that found no room. -/
def capacityReached : String :=
  "release ledger capacity reached; disruptive apply blocked (release continues)"

/-- The refusal of a save that found none. -/
def sizeExceeded : String := "release ledger encoded size exceeds safety bound"

/-- The refusal of an alert at or before the watermark. -/
def checkpointReached : String :=
  "release task is at or before the ledger replay checkpoint; replayed disruptive apply blocked"

/-- The alert is in the ledger in none of the ways a replay would be. -/
structure NotReplay (L : ReleaseLedger) (task : ReleaseTask) (legacyTraces : List String) :
    Prop where
  id : ∀ t ∈ L.tasks, t.taskId ≠ task.taskId
  key : task.eventKey ≠ "" → ∀ t ∈ L.tasks, t.eventKey ≠ task.eventKey
  legacy : legacyHandled L legacyTraces = false

/-- The alert is at or before the watermark of a compacted ledger. -/
def BeforeMark (L : ReleaseLedger) (task : ReleaseTask) : Prop :=
  0 < L.checkpoint.generation ∧
    task.eventEpoch.getD task.createdEpoch ≤ L.checkpoint.replayWatermarkEpoch

instance (L : ReleaseLedger) (task : ReleaseTask) : Decidable (BeforeMark L task) :=
  inferInstanceAs (Decidable (_ ∧ _))

/-- No room, once the ledger is compacted if it had to be. -/
def Full (encodedLen : ReleaseLedger → ℕ) (L : ReleaseLedger) : Prop :=
  admitMaxTasks ≤ L.tasks.length ∨ admitMaxBytes ≤ encodedLen L

instance (encodedLen : ReleaseLedger → ℕ) (L : ReleaseLedger) : Decidable (Full encodedLen L) :=
  inferInstanceAs (Decidable (_ ∨ _))

variable {traces : List String} {ttlSec : ℕ}

theorem legacyTraceIds_compact (L : ReleaseLedger) (now : LeaseNow) :
    (compactLedger L now).1.checkpoint.legacyTraceIds = L.checkpoint.legacyTraceIds := by
  unfold compactLedger
  dsimp only
  split <;> rfl

theorem NotReplay.compact (h : NotReplay L task traces) (now : LeaseNow) :
    NotReplay (compactLedger L now).1 task traces := by
  have hsub := (compactLedger_sublist L now).subset
  refine ⟨fun t ht => h.id t (hsub ht), fun hne t ht => h.key hne t (hsub ht), ?_⟩
  have hlegacy := h.legacy
  unfold legacyHandled at hlegacy ⊢
  rw [List.any_eq_false] at hlegacy ⊢
  intro trace htrace
  have hnone := hlegacy trace htrace
  rw [legacyTraceIds_compact]
  simp only [Bool.or_eq_true, List.any_eq_true, not_or, not_exists, not_and] at hnone ⊢
  exact ⟨hnone.1, fun t ht => hnone.2 t (hsub ht)⟩

theorem compactAtMarks_cases (encodedLen : ReleaseLedger → ℕ) (L : ReleaseLedger)
    (now : LeaseNow) :
    compactAtMarks encodedLen L now = L ∨
      compactAtMarks encodedLen L now = (compactLedger L now).1 := by
  unfold compactAtMarks
  split
  · exact Or.inr rfl
  · exact Or.inl rfl

/-- What is left of an admission that is no replay. -/
theorem admitReleaseTask_eq (h : NotReplay L task traces) :
    admitReleaseTask encodedLen L task traces ttlSec now =
      if BeforeMark L task then .refuse checkpointReached
      else if Full encodedLen (compactAtMarks encodedLen L now) then .refuse capacityReached
      else admitGuarded (compactAtMarks encodedLen L now) task ttlSec now := by
  have hfind : L.tasks.find? (fun item => item.taskId = task.taskId) = none := by
    rw [List.find?_eq_none]
    intro t ht
    simpa using h.id t ht
  have hkey : ¬ (task.eventKey ≠ "" ∧
      L.tasks.any (fun item => item.eventKey = task.eventKey) = true) := by
    rintro ⟨hne, hany⟩
    obtain ⟨t, ht, hsame⟩ := List.any_eq_true.mp hany
    exact h.key hne t ht (by simpa using hsame)
  have hlegacy : legacyHandled (compactAtMarks encodedLen L now) traces = false := by
    rcases compactAtMarks_cases encodedLen L now with hsame | hsame <;> rw [hsame]
    · exact h.legacy
    · exact (h.compact now).legacy
  unfold admitReleaseTask admitNewTask
  rw [hfind]
  dsimp only
  rw [if_neg hkey]
  by_cases hmark : BeforeMark L task
  · rw [if_pos hmark]
    have hmark : 0 < L.checkpoint.generation ∧ _ := hmark
    rw [if_pos hmark]
    rfl
  · rw [if_neg hmark]
    have hmark : ¬ (0 < L.checkpoint.generation ∧ _) := hmark
    rw [if_neg hmark]
    by_cases hfull : Full encodedLen (compactAtMarks encodedLen L now)
    · rw [if_pos hfull]
      have hfull : admitMaxTasks ≤ _ ∨ _ := hfull
      rw [if_pos hfull]
      rfl
    · rw [if_neg hfull]
      have hfull : ¬ (admitMaxTasks ≤ _ ∨ _) := hfull
      rw [if_neg hfull]
      dsimp only
      rw [hlegacy]
      rfl

/-- Compacting twice is compacting once. -/
theorem compactLedger_idem (L : ReleaseLedger) (now : LeaseNow) :
    (compactLedger (compactLedger L now).1 now).1 = (compactLedger L now).1 := by
  have hnone : (compactLedger L now).1.tasks.filter (compactable now) = [] := by
    rw [List.filter_eq_nil_iff]
    intro t ht
    simp [(mem_compactLedger.mp ht).2]
  rw [compactLedger]
  simp only [hnone, if_true]

/-- **A fresh alert is not behind a watermark that a compaction raises.** -/
theorem beforeMark_compact (haged : AgedLedger clock L) (hclock : clock ≤ now.wallEpoch)
    (hfresh : now.wallEpoch - task.eventEpoch.getD task.createdEpoch ≤ maxAlertAgeSec) :
    BeforeMark (compactLedger L now).1 task ↔ BeforeMark L task := by
  unfold compactLedger
  dsimp only
  split
  · exact Iff.rfl
  · rename_i hgone
    have hforget : ∀ t ∈ L.tasks.filter (compactable now), Forgettable now t := by
      intro t ht
      obtain ⟨hmem, hcompactable⟩ := List.mem_filter.mp ht
      exact forgettable (haged.tasks t hmem) hclock hcompactable
    obtain ⟨first, hfirst⟩ := List.exists_mem_of_ne_nil _ hgone
    have hstart := (hforget first hfirst).start
    have hgen : 0 < u64Add L.checkpoint.generation 1 := by
      unfold u64Add u64Max
      omega
    -- The watermark reaches the alert only where it did before.
    have hmarks : ∀ (removed : List ReleaseTask) (mark : Epoch),
        (∀ t ∈ removed, Forgettable now t) →
        (task.eventEpoch.getD task.createdEpoch ≤
            removed.foldl (fun mark task => max mark (replayBasis task)) mark ↔
          task.eventEpoch.getD task.createdEpoch ≤ mark) := by
      intro removed
      induction removed with
      | nil => exact fun _ _ => Iff.rfl
      | cons t removed ih =>
        intro mark hall
        have hbasis := (hall t List.mem_cons_self).basis
        rw [Nat.cast_sub (by decide)] at hbasis
        rw [List.foldl_cons, ih _ fun x hx => hall x (List.mem_cons_of_mem _ hx), le_max_iff]
        refine or_iff_left fun hle => ?_
        unfold compactMinAgeSec maxCumulativeLeaseSec maxAlertFutureSec at hbasis
        unfold maxAlertAgeSec at hfresh
        push_cast at hbasis hfresh
        linarith
    unfold BeforeMark
    dsimp only
    rw [hmarks _ _ hforget]
    refine ⟨fun h => ⟨?_, h.2⟩, fun h => ⟨hgen, h.2⟩⟩
    refine Nat.pos_of_ne_zero fun hzero => ?_
    have hle := h.2
    rw [haged.mark hzero] at hle
    unfold compactMinAgeSec maxCumulativeLeaseSec at hstart
    unfold maxAlertAgeSec at hfresh
    push_cast at hstart hfresh
    linarith

/-- **The plan of an admission, with and without a compaction before it.** -/
theorem admitReleaseTask_same (haged : AgedLedger clock L) (hclock : clock ≤ now.wallEpoch)
    (hfresh : now.wallEpoch - task.eventEpoch.getD task.createdEpoch ≤ maxAlertAgeSec)
    (hnew : NotReplay L task traces) :
    (admitReleaseTask encodedLen L task traces ttlSec now).Same
        (admitReleaseTask encodedLen (compactLedger L now).1 task traces ttlSec now) ∨
      admitReleaseTask encodedLen L task traces ttlSec now = .refuse capacityReached ∨
      admitReleaseTask encodedLen (compactLedger L now).1 task traces ttlSec now =
        .refuse capacityReached := by
  have hagain : compactAtMarks encodedLen (compactLedger L now).1 now = (compactLedger L now).1 := by
    rcases compactAtMarks_cases encodedLen (compactLedger L now).1 now with h | h <;> rw [h]
    exact compactLedger_idem L now
  rw [admitReleaseTask_eq hnew, admitReleaseTask_eq (hnew.compact now), hagain]
  by_cases hmark : BeforeMark L task
  · rw [if_pos hmark, if_pos ((beforeMark_compact haged hclock hfresh).mpr hmark)]
    exact Or.inl ⟨rfl, rfl⟩
  · rw [if_neg hmark, if_neg fun h => hmark ((beforeMark_compact haged hclock hfresh).mp h)]
    split
    · exact Or.inr (Or.inl rfl)
    · split
      · exact Or.inr (Or.inr rfl)
      · refine Or.inl ?_
        rcases compactAtMarks_cases encodedLen L now with h | h <;> rw [h]
        · refine admitGuarded_same ?_ rfl
            (compactLedger_tasks L now)
          intro t ht hkeep
          exact forgettable (haged.tasks t ht) hclock (by simpa using hkeep)
        · exact ⟨rfl, rfl⟩

/-! ## 7. The store -/

theorem validateTasks_sublist {xs ys : List ReleaseTask} (hsub : xs.Sublist ys)
    (h : validateTasks ys = .ok ()) : validateTasks xs = .ok () := by
  induction hsub with
  | slnil => rfl
  | cons t hsub ih =>
    rw [validateTasks] at h
    split at h
    · exact ih h
    · cases h
  | cons_cons t hsub ih =>
    rw [validateTasks] at h ⊢
    split at h
    · exact ih h
    · cases h

theorem le_foldl_max (basis : ReleaseTask → Epoch) :
    ∀ (removed : List ReleaseTask) (mark : Epoch),
      mark ≤ removed.foldl (fun mark task => max mark (basis task)) mark
  | [], _ => le_refl _
  | t :: removed, mark => (le_max_left mark (basis t)).trans (le_foldl_max basis removed _)

/-- The watermark only rises. -/
theorem compactLedger_mark (L : ReleaseLedger) (now : LeaseNow) :
    L.checkpoint.replayWatermarkEpoch ≤
      (compactLedger L now).1.checkpoint.replayWatermarkEpoch := by
  unfold compactLedger
  dsimp only
  split
  · exact le_refl _
  · exact le_foldl_max replayBasis _ _

/-- A compacted ledger passes the checks of a load again. -/
theorem checkLoaded_compact (h : checkLoaded L = .ok L') (now : LeaseNow) :
    checkLoaded (compactLedger L now).1 = .ok (compactLedger L now).1 := by
  have hsub := compactLedger_sublist L now
  unfold checkLoaded at h
  split at h
  · cases h
  · rename_i hmark
    split at h
    · cases h
    · rename_i hcount
      split at h
      · rename_i hvalid
        unfold checkLoaded
        rw [if_neg (not_lt.mpr ((not_lt.mp hmark).trans (compactLedger_mark L now))),
          if_neg (not_lt.mpr (hsub.length_le.trans (not_lt.mp hcount))),
          validateTasks_sublist hsub hvalid]
      · cases h

theorem loadLedger_checked {disk : Option LedgerFile} (h : loadLedger disk = .ok L) :
    checkLoaded L = .ok L := by
  unfold loadLedger at h
  split at h
  · obtain rfl := Except.ok.inj h
    rfl
  · split at h
    · cases h
    · split at h
      · rw [checkLoaded_ok h]
        rw [checkLoaded_ok h] at h
        exact h
      · rw [checkLoaded_ok h]
        rw [checkLoaded_ok h] at h
        exact h
      · cases h

/-- What a maintenance compaction leaves: the file as it was, or the file of the compacted
ledger. -/
theorem Store.compact_cases (s : Store) (now : LeaseNow) (io : LedgerIo) :
    (s.compact encodedLen now io).1.disk = s.disk ∨
      ∃ L old file, s.disk = some old ∧ loadLedger s.disk = .ok L ∧
        (s.compact encodedLen now io).1.disk = some file ∧
        loadLedger (some file) = .ok (compactLedger L now).1 := by
  unfold Store.compact Store.rewrite
  split
  · exact Or.inl rfl
  · exact Or.inl rfl
  · split
    · exact Or.inl rfl
    · rename_i hsome
      split
      · exact Or.inl rfl
      · rename_i L hopen
        obtain ⟨old, hold⟩ := Option.ne_none_iff_exists'.mp hsome
        have hload := openLedger_ok hopen
        dsimp only
        split
        · unfold commit
          dsimp only
          split
          · exact Or.inl rfl
          · rename_i file hsave
            refine Or.inr ⟨L, old, file, hold, hload, rfl, ?_⟩
            unfold saveLedger at hsave
            split at hsave
            · cases hsave
            · rename_i hsize
              split at hsave
              · cases hsave
              · obtain rfl := Except.ok.inj hsave
                rw [loadLedger, if_neg hsize]
                exact checkLoaded_compact (loadLedger_checked hload) now
        · exact Or.inl rfl

/-- The refusals for want of room. -/
def IsCapacity (result : Except String Admission) : Prop :=
  result = .error capacityReached ∨ result = .error sizeExceeded

/-- Plans that are alike are answered alike, but for the room. -/
theorem commit_same {a b : AdmitPlan} (h : a.Same b) (io : LedgerIo)
    (disk disk' : Option LedgerFile) :
    (commit encodedLen io disk a.save a.answer).2 = (commit encodedLen io disk' b.save b.answer).2 ∨
      IsCapacity (commit encodedLen io disk a.save a.answer).2 ∨
      IsCapacity (commit encodedLen io disk' b.save b.answer).2 := by
  obtain ⟨hanswer, hsome⟩ := h
  unfold commit
  cases ha : a.save with
  | none =>
    rw [ha] at hsome
    have hb : b.save = none := by simpa using hsome.symm
    rw [hb]
    exact Or.inl hanswer
  | some left =>
    rw [ha] at hsome
    obtain ⟨right, hb⟩ := Option.isSome_iff_exists.mp hsome.symm
    rw [hb]
    unfold saveLedger
    dsimp only
    split_ifs
    · exact Or.inl rfl
    · exact Or.inr (Or.inl (Or.inr rfl))
    · exact Or.inr (Or.inr (Or.inr rfl))
    · cases io.save with
      | error detail => exact Or.inl rfl
      | ok modified => exact Or.inl hanswer

theorem commit_refuse (io : LedgerIo) (disk : Option LedgerFile) (e : String) :
    (commit encodedLen io disk (AdmitPlan.refuse e).save (AdmitPlan.refuse e).answer).2 = .error e :=
  rfl

/-- Two stores whose ledgers open alike answer an admission alike, but for the room. -/
theorem Store.admit_same {s s' : Store} {io : LedgerIo}
    (h : ∀ L, openLedger io s.disk = .ok L → ∃ L', openLedger io s'.disk = .ok L' ∧
      ((admitReleaseTask encodedLen L task traces ttlSec now).Same
          (admitReleaseTask encodedLen L' task traces ttlSec now) ∨
        admitReleaseTask encodedLen L task traces ttlSec now = .refuse capacityReached ∨
        admitReleaseTask encodedLen L' task traces ttlSec now = .refuse capacityReached))
    (hfail : ∀ e, openLedger io s.disk = .error e → openLedger io s'.disk = .error e) :
    (s.admitTask encodedLen task traces ttlSec now io).2 =
        (s'.admitTask encodedLen task traces ttlSec now io).2 ∨
      IsCapacity (s.admitTask encodedLen task traces ttlSec now io).2 ∨
      IsCapacity (s'.admitTask encodedLen task traces ttlSec now io).2 := by
  unfold Store.admitTask
  split
  · exact Or.inl rfl
  · exact Or.inl rfl
  · cases hopen : openLedger io s.disk with
    | error e =>
      rw [hfail e hopen]
      exact Or.inl rfl
    | ok L =>
      obtain ⟨L', hopen', hplans⟩ := h L hopen
      rw [hopen']
      dsimp only
      rcases hplans with hsame | hfull | hfull
      · exact commit_same hsame io s.disk s'.disk
      · rw [hfull]
        exact Or.inr (Or.inl (Or.inl (commit_refuse io s.disk _)))
      · rw [hfull]
        exact Or.inr (Or.inr (Or.inl (commit_refuse io s'.disk _)))

/-- A compaction keeps every task that is eligible, whose cooldown runs or may be running. -/
def CompactKeeps (now : LeaseNow) (L : ReleaseLedger) : Prop :=
  ∀ t ∈ L.tasks, t.status.eligible = true ∨ cooldownMayBeRunning t now = true ∨
    (cooldownRunning t now).running.isSome → t ∈ (compactLedger L now).1.tasks

theorem compactKeeps (haged : AgedLedger clock L) (hclock : clock ≤ now.wallEpoch) :
    CompactKeeps now L := by
  intro t ht hheld
  rw [mem_compactLedger]
  refine ⟨ht, ?_⟩
  cases hcompactable : compactable now t with
  | false => rfl
  | true =>
    have hforget := forgettable (haged.tasks t ht) hclock hcompactable
    rcases hheld with heligible | hmaybe | hruns
    · rw [hforget.terminal] at heligible
      cases heligible
    · simp [compactable, hmaybe] at hcompactable
    · rw [hforget.calm.1] at hruns
      cases hruns

/-- **Generation migration is transparent to fresh alerts.**  On a store that a run of the daemon
reached while the wall clock never fell back, the admission of an alert that is fresh and no replay
is answered alike with and without a compaction just before it, unless one of the two finds no
room; and a compaction keeps every task that is eligible or whose cooldown may still run. -/
theorem compaction_transparent (encodedLen : ReleaseLedger → ℕ) {s₀ s : Store}
    {ls : List (Op × Answer)} {start : Epoch} (hinit : s₀.Started start)
    (hrun : Run (Store.Step encodedLen) s₀ ls s) (hgated : ∀ l ∈ ls, GatedOp l.1) (now : LeaseNow)
    (hwalls : (start :: (walls ls ++ [now.wallEpoch])).Pairwise (· ≤ ·)) :
    (∀ (task : ReleaseTask) (legacyTraces : List String) (ttlSec : ℕ) (io io' : LedgerIo),
      now.wallEpoch - task.eventEpoch.getD task.createdEpoch ≤ maxAlertAgeSec →
      (∀ L, loadLedger s.disk = .ok L → NotReplay L task legacyTraces) →
      (s.admitTask encodedLen task legacyTraces ttlSec now io).2 =
          ((s.compact encodedLen now io').1.admitTask encodedLen task legacyTraces ttlSec now io).2 ∨
        IsCapacity (s.admitTask encodedLen task legacyTraces ttlSec now io).2 ∨
        IsCapacity
          ((s.compact encodedLen now io').1.admitTask encodedLen task legacyTraces ttlSec now io).2) ∧
      ∀ L, loadLedger s.disk = .ok L → CompactKeeps now L := by
  rw [← List.cons_append, List.pairwise_append] at hwalls
  obtain ⟨hwalls, -, hlast⟩ := hwalls
  have hlast : ∀ w ∈ start :: walls ls, w ≤ now.wallEpoch := fun w hw =>
    hlast w hw _ (List.mem_singleton.mpr rfl)
  have haged := aged_run hinit hrun hgated hwalls now.wallEpoch (hlast start List.mem_cons_self)
    fun w hw => hlast w (List.mem_cons_of_mem _ hw)
  refine ⟨?_, fun L hL => compactKeeps (haged L hL) (le_refl _)⟩
  intro task traces ttlSec io io' hfresh hnew
  rcases Store.compact_cases s now io' with
    hsame | ⟨L, old, file, hold, hload, hdisk, hfile⟩
  · refine Store.admit_same (fun L hL => ⟨L, hsame ▸ hL, Or.inl ⟨rfl, rfl⟩⟩) ?_
    rw [hsame]
    exact fun e he => he
  · have hopens : openLedger io s.disk = .ok L ∧
        openLedger io (some file) = .ok (compactLedger L now).1 ∨
        ∃ e, openLedger io s.disk = .error e ∧ openLedger io (some file) = .error e := by
      unfold openLedger
      rw [hold] at hload ⊢
      cases io.lock with
      | error detail => exact Or.inr ⟨_, rfl, rfl⟩
      | ok =>
        cases io.read with
        | error detail => exact Or.inr ⟨_, rfl, rfl⟩
        | ok => exact Or.inl ⟨hload, hfile⟩
    refine Store.admit_same ?_ ?_
    · intro L₁ hL₁
      rw [hdisk]
      rcases hopens with ⟨hopen, hopen'⟩ | ⟨e, he, -⟩
      · rw [hopen] at hL₁
        obtain rfl := Except.ok.inj hL₁
        exact ⟨_, hopen',
          admitReleaseTask_same (haged L hload) (le_refl _) hfresh (hnew L hload)⟩
      · rw [he] at hL₁
        cases hL₁
    · intro e he
      rw [hdisk]
      rcases hopens with ⟨hopen, -⟩ | ⟨e', he', hfail⟩
      · rw [hopen] at he
        cases he
      · rw [he'] at he
        rw [← Except.error.inj he]
        exact hfail

/-- An alert of the next day. -/
def sampleTask₃ : ReleaseTask :=
  (({ sampleAlert with traceId := "trace-3", eventKey := "event-3", eventEpoch := 1700099990 } :
    Alert).task 300 (sampleNow 100000)).get (by decide +kernel)

theorem sampleExtended_gated : ∀ l ∈ sampleExtended.2, GatedOp l.1 := by
  intro l hl
  have hop : l.1 ∈ sampleExtension := by
    rw [← sampleExtended_run.2]
    exact List.mem_map_of_mem hl
  refine ⟨sampleExtended_built l hl, ?_⟩
  intro task now htask hnow at' hat
  simp only [sampleExtension, List.mem_cons, List.not_mem_nil, or_false] at hop
  rcases hop with h | h | h <;> rw [h] at htask hnow
  · obtain rfl := Option.some.inj htask
    obtain rfl := Option.some.inj hnow
    rw [show sampleTask.eventEpoch = some 1699999990 by decide +kernel] at hat
    obtain rfl := Option.some.inj hat
    decide +kernel
  · cases htask
  · obtain rfl := Option.some.inj htask
    obtain rfl := Option.some.inj hnow
    rw [show sampleTask₂.eventEpoch = some 1700000190 by decide +kernel] at hat
    obtain rfl := Option.some.inj hat
    decide +kernel

/-- On the sample's run a day later: a compaction takes the tombstone out, and the next alert is
answered alike. -/
theorem compaction_transparent_sample :
    let later := sampleNow 100000
    let compacted := (sampleExtended.1.compact (fun _ => 1000) later .fine).1
    let answer := (sampleExtended.1.admitTask (fun _ => 1000) sampleTask₃ [] 300 later .fine).2
    let answer' := (compacted.admitTask (fun _ => 1000) sampleTask₃ [] 300 later .fine).2
    (sampleExtended.1.ledger.tasks.length = 2 ∧ compacted.ledger.tasks.length = 1) ∧
      (answer = answer' ∨ IsCapacity answer ∨ IsCapacity answer') := by
  refine ⟨by decide +kernel, ?_⟩
  refine (@compaction_transparent (fun _ => 1000) _ _ _ 0
    (Or.inl ⟨fun file h => (by cases h), rfl⟩) sampleExtended_run.1 sampleExtended_gated
    (sampleNow 100000) (by decide +kernel)).1 sampleTask₃ [] 300 .fine .fine (by decide +kernel) ?_
  intro L hL
  have hloaded : loadLedger sampleExtended.1.disk = .ok sampleExtended.1.ledger := by
    decide +kernel
  rw [hloaded] at hL
  obtain rfl := Except.ok.inj hL
  exact ⟨by decide +kernel, by decide +kernel, by decide +kernel⟩

end AzazelEdge.Release
