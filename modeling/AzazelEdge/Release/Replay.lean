/-
# A replayed alert never acts twice

The replay guard of `admit_new_task` looks for the alert in the ledger, by its event key, and at
the checkpoint's watermark, by its time.  A compaction moves an alert from the one to the other.
So the invariant is a disjunction, `Handled`: the alert is in the ledger, or it is at or below the
watermark of a migrated ledger.  Every operation preserves it, an admission that acts on the alert
establishes it, and under it the guard refuses.

The alerts of a v1 ledger have no event key; they are refused by their trace ids, which the
checkpoint takes over when the v1 file is loaded and keeps for good.
-/
import Mathlib.Data.List.Dedup
import AzazelEdge.Release.Steps

namespace AzazelEdge.Release

open AzazelEdge.Lib

/-! ## 1. Alerts with an event key -/

/-- The alert with this key and time led to a lease or to a tombstone: it is in the ledger, or
was compacted below the watermark. -/
def Handled (key : String) (epoch : Epoch) (ledger : ReleaseLedger) : Prop :=
  (∃ t ∈ ledger.tasks, t.eventKey = key ∧ t.eventEpoch = some epoch) ∨
    (0 < ledger.checkpoint.generation ∧ epoch ≤ ledger.checkpoint.replayWatermarkEpoch)

variable {encodedLen : ReleaseLedger → ℕ} {key trace : String} {epoch : Epoch}
  {L L' : ReleaseLedger} {op : Op} {answer : Answer}

theorem Handled.edit {tasks' : List ReleaseTask} (h : Handled key epoch L)
    (hf : List.Forall₂ (TaskMove op) L.tasks tasks') :
    Handled key epoch { L with tasks := tasks' } := by
  rcases h with ⟨t, ht, hkey, hepoch⟩ | hmark
  · obtain ⟨t', ht', hmove⟩ := exists_of_forall₂_left hf ht
    exact Or.inl ⟨t', ht', by rw [hmove.eventKey, hkey], by rw [hmove.eventEpoch, hepoch]⟩
  · exact Or.inr hmark

theorem Handled.append (h : Handled key epoch L) (new : ReleaseTask) :
    Handled key epoch { L with tasks := L.tasks ++ [new] } := by
  rcases h with ⟨t, ht, hkey, hepoch⟩ | hmark
  · exact Or.inl ⟨t, List.mem_append_left _ ht, hkey, hepoch⟩
  · exact Or.inr hmark

/-- The watermark a compaction computes covers where it started and every task it removes. -/
theorem le_watermark (tasks : List ReleaseTask) (mark : Epoch) :
    mark ≤ tasks.foldl (fun mark task => max mark (replayBasis task)) mark ∧
      ∀ t ∈ tasks, replayBasis t ≤ tasks.foldl (fun mark task => max mark (replayBasis task)) mark := by
  induction tasks generalizing mark with
  | nil => exact ⟨le_refl _, fun t ht => by cases ht⟩
  | cons x xs ih =>
    obtain ⟨hmark, hall⟩ := ih (max mark (replayBasis x))
    refine ⟨le_trans (le_max_left _ _) hmark, fun t ht => ?_⟩
    rcases List.mem_cons.mp ht with rfl | ht
    · exact le_trans (le_max_right _ _) hmark
    · exact hall t ht

/-- **Compaction moves an alert from the ledger below the watermark**, never out of both. -/
theorem Handled.compact (h : Handled key epoch L) (now : LeaseNow) :
    Handled key epoch (compactLedger L now).1 := by
  unfold compactLedger
  dsimp only
  split
  · exact h
  · rename_i hgone
    have hgen : 0 < u64Add L.checkpoint.generation 1 := by
      unfold u64Add u64Max
      omega
    obtain ⟨hmark, hall⟩ := le_watermark (L.tasks.filter (compactable now))
      L.checkpoint.replayWatermarkEpoch
    rcases h with ⟨t, ht, hkey, hepoch⟩ | ⟨-, hle⟩
    · by_cases hc : compactable now t = true
      · refine Or.inr ⟨hgen, le_trans ?_ (hall t (List.mem_filter.mpr ⟨ht, hc⟩))⟩
        simp [replayBasis, hepoch]
      · exact Or.inl ⟨t, List.mem_filter.mpr ⟨ht, by simpa using hc⟩, hkey, hepoch⟩
    · exact Or.inr ⟨hgen, le_trans hle hmark⟩

/-- What is handled stays handled under every write. -/
theorem Handled.wrote (h : Handled key epoch L) (hw : Wrote encodedLen op answer L L') :
    Handled key epoch L' :=
  hw.invariant (fun _ _ hL hf => hL.edit hf) (fun _ now _ hL => hL.compact now)
    (fun _ new hL _ => hL.append new) h

/-- **The guard refuses a handled alert.** -/
theorem Handled.refused {task : ReleaseTask} {now : LeaseNow} (h : Handled key epoch L)
    (hkey : task.eventKey = key) (hepoch : task.eventEpoch = some epoch) (hne : key ≠ "") :
    admitNewTask encodedLen L task now ≠ .ok L' := by
  intro hok
  obtain ⟨-, hkeys, hmark, -, -⟩ := admitNewTask_ok hok
  rcases h with ⟨t, ht, htkey, -⟩ | ⟨hgen, hle⟩
  · exact hkeys (hkey ▸ hne) t ht (htkey.trans hkey.symm)
  · have := hmark hgen
    rw [hepoch] at this
    exact absurd hle (not_le.mpr this)

/-- An admission that acts on an alert makes it handled. -/
theorem handled_of_grants {task : ReleaseTask} {traces : List String} {ttlSec : ℕ}
    {now : LeaseNow} {io : LedgerIo}
    (hw : Wrote encodedLen (.admitTask task traces ttlSec now io) answer L L')
    (hgrants : answer.grants = true) (hepoch : task.eventEpoch = some epoch) :
    Handled task.eventKey epoch L' := by
  cases hw with
  | evolved hanswer _ => rw [hgrants] at hanswer; cases hanswer
  | admitted hvalid hguard hlegacy hcase =>
    obtain ⟨tasks', hf, ⟨hno, -⟩ | ⟨new, horigin, -, rfl⟩⟩ :=
      hcase.wrote hvalid (.admitTask task traces ttlSec now io) rfl rfl
    · rw [hgrants] at hno; cases hno
    · have hnewKey : new.eventKey = task.eventKey := origin_fixed (fun _ => rfl) horigin
      have hnewEpoch : new.eventEpoch = task.eventEpoch := origin_fixed (fun _ => rfl) horigin
      exact Or.inl ⟨new, by simp, hnewKey, by rw [hnewEpoch, hepoch]⟩

/-! ## 2. Alerts of a v1 ledger -/

/-- The checkpoint knows the trace id from a v1 ledger. -/
def KnownTrace (trace : String) (ledger : ReleaseLedger) : Prop :=
  trace ∈ ledger.checkpoint.legacyTraceIds

theorem KnownTrace.compact (h : KnownTrace trace L) (now : LeaseNow) :
    KnownTrace trace (compactLedger L now).1 := by
  unfold compactLedger
  dsimp only
  split <;> exact h

theorem KnownTrace.wrote (h : KnownTrace trace L) (hw : Wrote encodedLen op answer L L') :
    KnownTrace trace L' :=
  hw.invariant (fun _ _ hL _ => hL) (fun _ now _ hL => hL.compact now) (fun _ _ hL _ => hL) h

/-- An alert under a known trace id is refused. -/
theorem KnownTrace.refused {task : ReleaseTask} {traces : List String} {ttlSec : ℕ}
    {now : LeaseNow} {io : LedgerIo} (h : KnownTrace trace L) (htrace : trace ∈ traces)
    (hw : Wrote encodedLen (.admitTask task traces ttlSec now io) answer L L') :
    answer.grants = false := by
  cases hw with
  | evolved hanswer _ => exact hanswer
  | admitted hvalid hguard hlegacy hcase =>
    exfalso
    obtain ⟨-, -, -, rfl, -⟩ := admitNewTask_ok hguard
    have hL₁ : KnownTrace trace (compactAtMarks encodedLen L now) := by
      unfold compactAtMarks
      split
      · exact h.compact now
      · exact h
    have hhandled : legacyHandled (compactAtMarks encodedLen L now) traces = true :=
      List.any_eq_true.mpr ⟨trace, htrace, by
        rw [Bool.or_eq_true, List.contains_iff_mem]
        exact Or.inl hL₁⟩
    rw [hhandled] at hlegacy
    cases hlegacy

/-- Adding trace ids forgets none and adds them all. -/
theorem mem_addTraces {ids traces : List String} :
    ∀ {trace : String}, trace ∈ ids ∨ trace ∈ traces → trace ∈ addTraces ids traces := by
  unfold addTraces
  induction traces generalizing ids with
  | nil => intro trace h; simpa using h
  | cons x xs ih =>
    intro trace h
    refine ih ?_
    dsimp only
    split
    · rename_i hx
      rcases h with h | h
      · exact Or.inl h
      · rcases List.mem_cons.mp h with rfl | h
        · exact Or.inl hx
        · exact Or.inr h
    · rcases h with h | h
      · exact Or.inl (List.mem_append_left _ h)
      · rcases List.mem_cons.mp h with rfl | h
        · exact Or.inl (by simp)
        · exact Or.inr h

/-- The migration of a v1 ledger takes over the trace id of every one of its tasks. -/
theorem knownTrace_of_v1 {file : LedgerFile} {task : ReleaseTask} (hv : file.schema = .v1)
    (ht : task ∈ file.ledger.tasks) (h : loadLedger (some file) = .ok L) :
    KnownTrace task.traceId L := by
  simp only [loadLedger, hv] at h
  split at h
  · cases h
  · rw [checkLoaded_ok h]
    have hsorted : task.traceId ∈ sortedTraces file.ledger.tasks := by
      unfold sortedTraces
      rw [List.mem_dedup, List.mem_mergeSort]
      exact List.mem_map_of_mem ht
    unfold migrateV1 KnownTrace
    dsimp only
    split <;> exact mem_addTraces (Or.inr hsorted)

/-! ## 3. Over any run -/

/-- **A replayed alert never acts twice.**  Once an alert has been acted on, no later admission of
its event key and event time acts, whatever ran in between; and no admission of an alert whose
legacy trace ids hold that of a task of a v1 ledger acts, from the first load of that file on. -/
theorem replay_refused (encodedLen : ReleaseLedger → ℕ) :
    (∀ (s₀ s₁ s₂ s₃ : Store) (ls : List (Op × Answer)) (task replay : ReleaseTask)
        (traces traces' : List String) (ttlSec ttlSec' : ℕ) (now now' : LeaseNow)
        (io io' : LedgerIo) (answer answer' : Answer) (epoch : Epoch),
      Store.Step encodedLen s₀ (.admitTask task traces ttlSec now io, answer) s₁ →
      answer.grants = true → task.eventKey ≠ "" → task.eventEpoch = some epoch →
      Run (Store.Step encodedLen) s₁ ls s₂ →
      Store.Step encodedLen s₂ (.admitTask replay traces' ttlSec' now' io', answer') s₃ →
      replay.eventKey = task.eventKey → replay.eventEpoch = some epoch →
      answer'.grants = false) ∧
    (∀ (s₀ s₁ s₂ : Store) (ls : List (Op × Answer)) (file : LedgerFile) (old task : ReleaseTask)
        (traces : List String) (ttlSec : ℕ) (now : LeaseNow) (io : LedgerIo) (answer : Answer),
      s₀.disk = some file → file.schema = .v1 → old ∈ file.ledger.tasks →
      Run (Store.Step encodedLen) s₀ ls s₁ →
      Store.Step encodedLen s₁ (.admitTask task traces ttlSec now io, answer) s₂ →
      old.traceId ∈ traces → answer.grants = false) := by
  refine ⟨?_, ?_⟩
  · intro s₀ s₁ s₂ s₃ ls task replay traces traces' ttlSec ttlSec' now now' io io' answer answer'
      epoch hfirst hgrants hne hepoch hrun hreplay hkey hepoch'
    have hinit : OnDisk (Handled task.eventKey epoch) s₁ := by
      rcases Store.step_cases hfirst with ⟨-, hno⟩ | ⟨L, file, -, hdisk, hv, hw⟩
      · rw [hgrants] at hno; cases hno
      · intro L' hL'
        rw [hdisk] at hL'
        rw [loadLedger_v2 hv hL']
        exact handled_of_grants hw hgrants hepoch
    have hlast : OnDisk (Handled task.eventKey epoch) s₂ :=
      hrun.invariant (fun s l t hs hstep => Store.step_onDisk hstep (fun _ _ h hw => h.wrote hw) hs)
        hinit
    rcases Store.step_cases hreplay with ⟨-, hno⟩ | ⟨L, file, hload, -, -, hw⟩
    · exact hno
    · cases hw with
      | evolved hno _ => exact hno
      | admitted hvalid hguard hlegacy hcase =>
        exact absurd hguard ((hlast L hload).refused hkey hepoch' hne)
  · intro s₀ s₁ s₂ ls file old task traces ttlSec now io answer hdisk hv hold hrun hadmitted htrace
    have hinit : OnDisk (KnownTrace old.traceId) s₀ := by
      intro L hL
      rw [hdisk] at hL
      exact knownTrace_of_v1 hv hold hL
    have hlast : OnDisk (KnownTrace old.traceId) s₁ :=
      hrun.invariant (fun s l t hs hstep => Store.step_onDisk hstep (fun _ _ h hw => h.wrote hw) hs)
        hinit
    rcases Store.step_cases hadmitted with ⟨-, hno⟩ | ⟨L, file', hload, -, -, hw⟩
    · exact hno
    · exact (hlast L hload).refused htrace hw

/-- The sample alert is acted on, the core is restarted, and its replay as a redirect is refused;
and so is an alert under the trace id of a v1 lease, after a restart. -/
theorem replay_refused_sample :
    let encodedLen : ReleaseLedger → ℕ := fun ledger => 1000 * ledger.tasks.length
    let first := Store.admitTask encodedLen ⟨none, []⟩ sampleTask [] 300 (sampleNow 0) .fine
    let replay := { sampleTask with taskId := "release-0", traceId := "trace-2" }
    let old := { sampleTask with eventKey := "", eventEpoch := none }
    let v1 : LedgerFile := ⟨.v1, ⟨[old], ReleaseLedger.empty.checkpoint⟩, 1000, some 1700000000⟩
    first.2.toOption.isSome = true ∧
      (Answer.admitted
        (Store.admitTask encodedLen ⟨first.1.disk, []⟩ replay [] 300 (sampleNow 60) .fine).2).grants =
          false ∧
      (Answer.admitted
        (Store.admitTask encodedLen ⟨some v1, []⟩ sampleTask ["trace-1"] 300 (sampleNow 60) .fine).2).grants =
          false := by
  intro encodedLen first replay old v1
  refine ⟨by decide +kernel, ?_, ?_⟩
  · exact (replay_refused encodedLen).1 ⟨none, []⟩ first.1 ⟨first.1.disk, []⟩ _
      [(.stop, .stopped)] sampleTask replay [] [] 300 300 (sampleNow 0) (sampleNow 60) .fine .fine
      (.admitted first.2) _ 1699999990 rfl (by decide +kernel) (by decide +kernel)
      (by decide +kernel) (Run.single rfl) rfl rfl (by decide +kernel)
  · exact (replay_refused encodedLen).2 ⟨some v1, []⟩ ⟨some v1, []⟩ _ [(.stop, .stopped)] v1 old
      sampleTask ["trace-1"] 300 (sampleNow 60) .fine _ rfl rfl (by simp [v1]) (Run.single rfl) rfl
      (by decide +kernel)

end AzazelEdge.Release
