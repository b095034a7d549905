/-
# One step of the store

`Store.step_cases`: a step leaves the ledger file and grants nothing, or it writes over the ledger
it loaded what an evolution or an admission gives (`Wrote`).  From it, the rule by which a
property of the ledger is proved of every reachable file (`Store.step_onDisk`).
-/
import AzazelEdge.Release.Admit

namespace AzazelEdge.Release

open AzazelEdge.Lib

variable {L L' : ReleaseLedger}

/-! ## 1. What a step wrote -/

section

variable (encodedLen : ReleaseLedger → ℕ)

/-- What an operation wrote over the ledger it loaded, and what it answered. -/
inductive Wrote : Op → Answer → ReleaseLedger → ReleaseLedger → Prop
  | admitted {task : ReleaseTask} {legacyTraces : List String} {ttlSec : ℕ} {now : LeaseNow}
      {io : LedgerIo} {L L₁ L' : ReleaseLedger} {answer : Except String Admission}
      (hvalid : validateTask task = .ok ()) (hguard : admitNewTask encodedLen L task now = .ok L₁)
      (hlegacy : legacyHandled L₁ legacyTraces = false)
      (hcase : AdmitCase L₁ task ttlSec now ⟨some L', answer⟩) :
      Wrote (.admitTask task legacyTraces ttlSec now io) (.admitted answer) L L'
  | evolved {op : Op} {answer : Answer} {L L' : ReleaseLedger} (hanswer : answer.grants = false)
      (h : Evolves op L L') : Wrote op answer L L'

/-- The file stays and nothing is granted, or the operation wrote over the ledger it loaded. -/
def Store.Outcome (s s' : Store) (op : Op) (answer : Answer) : Prop :=
  (s'.disk = s.disk ∧ answer.grants = false) ∨
    ∃ L file, loadLedger s.disk = .ok L ∧ s'.disk = some file ∧ file.schema = .v2 ∧
      Wrote encodedLen op answer L file.ledger

variable {encodedLen} {s s' : Store} {op : Op} {answer : Answer}

theorem openLedger_ok {io : LedgerIo} {disk : Option LedgerFile}
    (h : openLedger io disk = .ok L) : loadLedger disk = .ok L := by
  unfold openLedger at h
  split at h
  · cases h
  · split at h
    · cases h
    · exact h

/-- A commit leaves the file, or writes the ledger it was given. -/
theorem commit_cases {α : Type} {io : LedgerIo} {disk disk' : Option LedgerFile}
    {save : Option ReleaseLedger} {given result : Except String α}
    (h : commit encodedLen io disk save given = (disk', result)) :
    (disk' = disk ∧ (save = none ∧ result = given ∨ ∃ detail, result = .error detail)) ∨
      ∃ L' file, save = some L' ∧ disk' = some file ∧ file.ledger = L' ∧ file.schema = .v2 ∧
        result = given := by
  unfold commit at h
  split at h
  · obtain ⟨rfl, rfl⟩ := Prod.mk.inj h
    exact Or.inl ⟨rfl, Or.inl ⟨rfl, rfl⟩⟩
  · split at h
    · obtain ⟨rfl, rfl⟩ := Prod.mk.inj h
      exact Or.inl ⟨rfl, Or.inr ⟨_, rfl⟩⟩
    · rename_i file hsave
      obtain ⟨rfl, rfl⟩ := Prod.mk.inj h
      obtain ⟨hL, hv⟩ := saveLedger_ok hsave
      exact Or.inr ⟨_, file, rfl, rfl, hL, hv, rfl⟩

/-- The plan of an admission is one of the cases, when it writes or grants. -/
theorem admitReleaseTask_cases (encodedLen : ReleaseLedger → ℕ) (L : ReleaseLedger)
    (task : ReleaseTask) (traces : List String) (ttlSec : ℕ) (now : LeaseNow) :
    (∃ e, admitReleaseTask encodedLen L task traces ttlSec now = .refuse e ∧ e ≠ limitReached) ∨
      ∃ L₁, admitNewTask encodedLen L task now = .ok L₁ ∧ legacyHandled L₁ traces = false ∧
        AdmitCase L₁ task ttlSec now (admitReleaseTask encodedLen L task traces ttlSec now) := by
  unfold admitReleaseTask
  split
  · rename_i e he
    refine Or.inl ⟨e, rfl, ?_⟩
    unfold admitNewTask at he
    split at he
    · rename_i existing hexisting
      split at he
      · rw [← Except.error.inj he]; cases existing.status <;> decide
      · rw [← Except.error.inj he]; decide
    · split at he
      · rw [← Except.error.inj he]; decide
      · split at he
        · rw [← Except.error.inj he]; decide
        · dsimp only at he
          split at he
          · rw [← Except.error.inj he]; decide
          · cases he
  · rename_i L₁ hL₁
    split
    · exact Or.inl ⟨_, rfl, by decide⟩
    · rename_i hlegacy
      exact Or.inr ⟨L₁, hL₁, by simpa using hlegacy, admitGuarded_cases L₁ task ttlSec now⟩

theorem Store.admit_outcome (s : Store) (task : ReleaseTask) (traces : List String) (ttlSec : ℕ)
    (now : LeaseNow) (io : LedgerIo) :
    Store.Outcome encodedLen s (s.admitTask encodedLen task traces ttlSec now io).1
      (.admitTask task traces ttlSec now io)
      (.admitted (s.admitTask encodedLen task traces ttlSec now io).2) := by
  unfold Store.admitTask
  split
  · exact Or.inl ⟨rfl, rfl⟩
  · exact Or.inl ⟨rfl, rfl⟩
  · rename_i hvalid _
    split
    · exact Or.inl ⟨rfl, rfl⟩
    · rename_i L hopen
      dsimp only
      have hload := openLedger_ok hopen
      rcases hcommit : commit encodedLen io s.disk
        (admitReleaseTask encodedLen L task traces ttlSec now).save
        (admitReleaseTask encodedLen L task traces ttlSec now).answer with ⟨disk, answer⟩
      dsimp only
      rcases admitReleaseTask_cases encodedLen L task traces ttlSec now with
        ⟨e, hplan, -⟩ | ⟨L₁, hguard, hleg, hcase⟩
      · rw [hplan] at hcommit
        obtain ⟨rfl, rfl⟩ := Prod.mk.inj hcommit
        exact Or.inl ⟨rfl, rfl⟩
      · rcases commit_cases hcommit with ⟨rfl, ⟨hnone, rfl⟩ | ⟨detail, rfl⟩⟩ |
          ⟨L', file, hsave, rfl, rfl, hv, rfl⟩
        · exact Or.inl ⟨rfl, hcase.grants_of_save_none hnone⟩
        · exact Or.inl ⟨rfl, rfl⟩
        · refine Or.inr ⟨L, file, hload, rfl, hv, Wrote.admitted hvalid hguard hleg ?_⟩
          rw [← hsave]
          exact hcase

theorem Store.endApply_outcome (s : Store) (taskId : String) (nowEpoch : Epoch) (io : LedgerIo)
    {update : ReleaseLedger → Except String ReleaseLedger} (hanswer : answer.grants = false)
    (hupdate : ∀ L L', update L = .ok L' → Evolves op L L') :
    Store.Outcome encodedLen s
      (s.endApply encodedLen taskId nowEpoch io update).1 op answer := by
  unfold Store.endApply
  split
  · exact Or.inl ⟨rfl, hanswer⟩
  · exact Or.inl ⟨rfl, hanswer⟩
  · dsimp only
    split
    · exact Or.inl ⟨rfl, hanswer⟩
    · rename_i L hopen
      split
      · exact Or.inl ⟨rfl, hanswer⟩
      · rename_i L' hL'
        rcases hcommit : commit encodedLen io s.disk (some L') (.ok ()) with ⟨disk, result⟩
        rcases commit_cases hcommit with ⟨rfl, -⟩ | ⟨L'', file, hsave, rfl, rfl, hv, -⟩
        · exact Or.inl ⟨rfl, hanswer⟩
        · obtain rfl := Option.some.inj hsave
          exact Or.inr ⟨L, file, openLedger_ok hopen, rfl, hv, Wrote.evolved hanswer
            (hupdate L _ hL')⟩

theorem Store.rewrite_outcome (s : Store) (nowEpoch : Epoch) (io : LedgerIo)
    {update : ReleaseLedger → ReleaseLedger × ℕ} (hanswer : answer.grants = false)
    (hupdate : ∀ L, Evolves op L (update L).1) :
    Store.Outcome encodedLen s
      (s.rewrite encodedLen nowEpoch io update).1 op answer := by
  unfold Store.rewrite
  split
  · exact Or.inl ⟨rfl, hanswer⟩
  · exact Or.inl ⟨rfl, hanswer⟩
  · split
    · exact Or.inl ⟨rfl, hanswer⟩
    · split
      · exact Or.inl ⟨rfl, hanswer⟩
      · rename_i L hopen
        dsimp only
        rcases hcommit : commit encodedLen io s.disk
          (if 0 < (update L).2 then some (update L).1 else none) (.ok (update L).2)
          with ⟨disk, result⟩
        rcases commit_cases hcommit with ⟨rfl, -⟩ | ⟨L', file, hsave, rfl, rfl, hv, -⟩
        · exact Or.inl ⟨rfl, hanswer⟩
        · have hfile : (update L).1 = file.ledger := by
            split at hsave
            · exact Option.some.inj hsave
            · cases hsave
          exact Or.inr ⟨L, file, openLedger_ok hopen, rfl, hv, Wrote.evolved hanswer
            (hfile ▸ hupdate L)⟩

theorem Store.rewrite_inFlight {nowEpoch : Epoch} {io : LedgerIo}
    {update : ReleaseLedger → ReleaseLedger × ℕ} :
    (s.rewrite encodedLen nowEpoch io update).1.inFlight = s.inFlight := by
  unfold Store.rewrite
  split
  · rfl
  · rfl
  · split
    · rfl
    · split <;> rfl

/-- A candidate is a held lease that is not being applied. -/
theorem candidate?_some {inFlight : List String} {c : String × ExpiryClock} {now : LeaseNow}
    {t : ReleaseTask} (h : candidate? inFlight now t = some c) :
    c.1 = t.taskId ∧ t.status.eligible = true ∧ t.taskId ∉ inFlight := by
  unfold candidate? at h
  split at h
  · rename_i hheld
    obtain ⟨clock, -, hclock⟩ := Option.bind_eq_some_iff.mp h
    split at hclock
    · obtain rfl := Option.some.inj hclock
      exact ⟨rfl, hheld⟩
    · cases hclock
  · cases h

/-- What a sweep has to run over is the ledger it loaded. -/
theorem Store.sweepStart_run {s : Store} {now : LeaseNow} {io : LedgerIo}
    {due : List (String × ExpiryClock)} (h : s.sweepStart now io = .run L due) :
    loadLedger s.disk = .ok L ∧ due = candidates s.inFlight now L.tasks ∧ due ≠ [] := by
  unfold Store.sweepStart at h
  split at h
  · cases h
  · cases h
  · split at h
    · cases h
    · split at h
      · cases h
      · rename_i L' hopen
        split at h
        · cases h
        · rename_i candidate rest hcand
          obtain ⟨rfl, rfl⟩ := SweepStart.run.inj h
          exact ⟨openLedger_ok hopen, hcand.symm, by simp⟩

theorem Store.sweep_outcome {s s' : Store} {now : LeaseNow} {audit : StartAudit}
    {replies : List Reply} {io : LedgerIo} {result : Except String (List ReleaseOutcome)}
    (h : s.sweep encodedLen now audit replies io = some (s', result))
    (hanswer : answer.grants = false) :
    Store.Outcome encodedLen s s' (.sweep now audit replies io) answer := by
  unfold Store.sweep at h
  split at h
  · split at h
    · obtain ⟨rfl, rfl⟩ := Prod.mk.inj (Option.some.inj h)
      exact Or.inl ⟨rfl, hanswer⟩
    · cases h
  · rename_i L due hstart
    obtain ⟨⟨L', outcomes⟩, hrun, hend⟩ := Option.map_eq_some_iff.mp h
    have hloop : Evolves (.sweep now audit replies io) L L' :=
      (evolves_sweepLoop rfl rfl audit due L).run hrun
    unfold Store.sweepEnd at hend
    split at hend
    · rename_i file hsave
      obtain ⟨rfl, rfl⟩ := Prod.mk.inj hend
      have hsaved : Evolves (.sweep now audit replies io) L' file.ledger ∧ file.schema = .v2 :=
        evolves_sweepSave rfl hsave
      obtain ⟨hev, hv⟩ := hsaved
      exact Or.inr ⟨L, file, (Store.sweepStart_run hstart).1, rfl, hv,
        Wrote.evolved hanswer (hloop.trans hev)⟩
    · obtain ⟨rfl, rfl⟩ := Prod.mk.inj hend
      exact Or.inl ⟨rfl, hanswer⟩

/-- **One step of the store**: the file stays and nothing is granted, or the operation wrote over
the ledger it loaded. -/
theorem Store.step_cases (h : Store.Step encodedLen s (op, answer) s') :
    Store.Outcome encodedLen s s' op answer := by
  unfold Store.Step Store.exec at h
  cases op with
  | admitTask task traces ttlSec now io =>
    obtain ⟨rfl, rfl⟩ := Prod.mk.inj (Option.some.inj h)
    exact Store.admit_outcome ..
  | activate taskId nowEpoch io =>
    obtain ⟨rfl, rfl⟩ := Prod.mk.inj (Option.some.inj h)
    exact Store.endApply_outcome s taskId nowEpoch io rfl fun L L' => evolves_activate rfl rfl
  | abandon taskId reason now io =>
    obtain ⟨rfl, rfl⟩ := Prod.mk.inj (Option.some.inj h)
    exact Store.endApply_outcome s taskId now.wallEpoch io rfl fun L L' => evolves_abandon rfl
  | recover now io =>
    obtain ⟨rfl, rfl⟩ := Prod.mk.inj (Option.some.inj h)
    exact Store.rewrite_outcome s now.wallEpoch io rfl fun L => evolves_recover L rfl
  | sweep now audit replies io =>
    obtain ⟨⟨s'', result⟩, hsweep, hs'⟩ := Option.map_eq_some_iff.mp h
    obtain ⟨rfl, rfl⟩ := Prod.mk.inj hs'
    exact Store.sweep_outcome hsweep rfl
  | compact now io =>
    obtain ⟨rfl, rfl⟩ := Prod.mk.inj (Option.some.inj h)
    exact Store.rewrite_outcome s now.wallEpoch io rfl fun L => Evolves.compact L rfl
  | stop =>
    obtain ⟨rfl, rfl⟩ := Prod.mk.inj (Option.some.inj h)
    exact Or.inl ⟨rfl, rfl⟩

/-! ## 2. What the replay guard lets through -/

theorem admitNewTask_ok {task : ReleaseTask} {now : LeaseNow}
    (h : admitNewTask encodedLen L task now = .ok L') :
    (∀ x ∈ L.tasks, x.taskId ≠ task.taskId) ∧
      (task.eventKey ≠ "" → ∀ x ∈ L.tasks, x.eventKey ≠ task.eventKey) ∧
      (0 < L.checkpoint.generation →
        L.checkpoint.replayWatermarkEpoch < task.eventEpoch.getD task.createdEpoch) ∧
      L' = compactAtMarks encodedLen L now ∧ L'.tasks.length < admitMaxTasks := by
  unfold admitNewTask at h
  split at h
  · split at h <;> cases h
  · rename_i hid
    split at h
    · cases h
    · rename_i hkey
      split at h
      · cases h
      · rename_i hmark
        dsimp only at h
        split at h
        · cases h
        · rename_i hroom
          obtain rfl := Except.ok.inj h
          refine ⟨?_, ?_, ?_, rfl, not_le.mp fun hfull => hroom (Or.inl hfull)⟩
          · intro x hx
            simpa using List.find?_eq_none.mp hid x hx
          · intro hne x hx hsame
            exact hkey ⟨hne, List.any_eq_true.mpr ⟨x, hx, by simpa using hsame⟩⟩
          · intro hgen
            exact not_le.mp fun hle => hmark ⟨hgen, hle⟩

/-- The task an admission appends to the ledger: the alert's own, under a new id, as a tombstone
or as the lease it answers with. -/
inductive Appended (op : Op) (answer : Answer) (L : ReleaseLedger) (new : ReleaseTask) : Prop
  | intro (task : ReleaseTask) (now : LeaseNow) (htask : op.admits = some task)
      (hnow : op.clock = some now) (hvalid : validateTask task = .ok ())
      (horigin : new.origin = task.origin) (hid : ∀ x ∈ L.tasks, x.taskId ≠ task.taskId)
      (hnew : new.status = .merged ∨
        answer = .admitted (.ok (.prepared new)) ∧ Granted L task now new)
      (hmerged : new.status = .merged → ∃ held, new = tombstoneOf task held now)

/-- **The rule for writes.**  What an edit, a compaction and an appended task preserve, every
write preserves. -/
theorem Wrote.invariant {I : ReleaseLedger → Prop} (h : Wrote encodedLen op answer L L')
    (hedit : ∀ L tasks', I L → List.Forall₂ (TaskMove op) L.tasks tasks' →
      I { L with tasks := tasks' })
    (hcompact : ∀ L now, op.clock = some now → I L → I (compactLedger L now).1)
    (happend : ∀ L new, I L → Appended op answer L new →
      I { L with tasks := L.tasks ++ [new] }) (hL : I L) : I L' := by
  cases h with
  | evolved _ hev => exact hev.invariant hedit hcompact hL
  | @admitted task traces ttlSec now io _ L₁ _ answer hvalid hguard hlegacy hcase =>
    obtain ⟨hids, -, -, rfl, -⟩ := admitNewTask_ok hguard
    have hids₁ : ∀ x ∈ (compactAtMarks encodedLen L now).tasks, x.taskId ≠ task.taskId :=
      fun x hx => hids x ((compactAtMarks_sublist encodedLen L now).subset hx)
    have hL₁ : I (compactAtMarks encodedLen L now) :=
      (evolves_compactAtMarks encodedLen L rfl).invariant hedit hcompact hL
    obtain ⟨tasks', hf, ⟨-, rfl⟩ | ⟨new, horigin, hnew, rfl⟩⟩ :=
      hcase.wrote hvalid (.admitTask task traces ttlSec now io) rfl rfl
    · exact hedit _ _ hL₁ hf
    · refine happend _ new (hedit _ _ hL₁ hf)
        (Appended.intro task now rfl rfl hvalid horigin ?_ ?_ ?_)
      · intro x hx
        obtain ⟨y, hy, hmove⟩ := exists_of_forall₂_right hf hx
        rw [hmove.taskId]
        exact hids₁ y hy
      · rcases hnew with ⟨held, rfl⟩ | ⟨rfl, rfl, hgranted⟩
        · exact Or.inl rfl
        · exact Or.inr ⟨rfl, hgranted⟩
      · intro hmerged
        rcases hnew with hheld | ⟨-, -, hgranted⟩
        · exact hheld
        · rw [hgranted.status] at hmerged
          cases hmerged

/-- No two tasks of the ledger have one id. -/
def UniqueIds (ledger : ReleaseLedger) : Prop := (ledger.tasks.map (·.taskId)).Nodup

theorem UniqueIds.edit {tasks' : List ReleaseTask} (h : UniqueIds L)
    (hf : List.Forall₂ (TaskMove op) L.tasks tasks') : UniqueIds { L with tasks := tasks' } := by
  have hids : tasks'.map (·.taskId) = L.tasks.map (·.taskId) :=
    map_eq_of_forall₂ (fun _ _ hmove => hmove.taskId) hf
  unfold UniqueIds
  rw [hids]
  exact h

theorem UniqueIds.compact (h : UniqueIds L) (now : LeaseNow) : UniqueIds (compactLedger L now).1 :=
  h.sublist ((compactLedger_sublist L now).map _)

theorem UniqueIds.append {new : ReleaseTask} (h : UniqueIds L)
    (hid : ∀ x ∈ L.tasks, x.taskId ≠ new.taskId) :
    UniqueIds { L with tasks := L.tasks ++ [new] } := by
  unfold UniqueIds
  rw [List.map_append, List.nodup_append]
  refine ⟨h, List.nodup_singleton _, ?_⟩
  rintro _ hx _ hy rfl
  obtain ⟨x, hx, hxid⟩ := List.mem_map.mp hx
  exact hid x hx (hxid.trans (by simpa using hy))

/-- **Ids stay unique**: a task is appended under a new one. -/
theorem UniqueIds.wrote (h : UniqueIds L) (hw : Wrote encodedLen op answer L L') : UniqueIds L' := by
  refine hw.invariant (fun _ _ hL hf => hL.edit hf) (fun _ now _ hL => hL.compact now) ?_ h
  rintro L new hL ⟨task, now, -, -, -, horigin, hid, -⟩
  have hnewId : new.taskId = task.taskId := origin_fixed (fun _ => rfl) horigin
  exact hL.append fun x hx => hnewId ▸ hid x hx

/-- The lease an admission granted, with the clock it was granted at. -/
def grantOf : Op × Answer → Option (LeaseNow × ReleaseTask)
  | (.admitTask _ _ _ now _, .admitted (.ok (.prepared lease))) => some (now, lease)
  | _ => none

theorem grantOf_prepared {l : Op × Answer} {now : LeaseNow} {lease : ReleaseTask}
    (hnow : l.1.clock = some now) (hanswer : l.2 = .admitted (.ok (.prepared lease)))
    (hadmitted : ∃ task, l.1.admits = some task) : grantOf l = some (now, lease) := by
  obtain ⟨op, answer⟩ := l
  obtain ⟨task, htask⟩ := hadmitted
  cases op with
  | admitTask task traces ttlSec now' io =>
    subst hanswer
    obtain rfl := Option.some.inj hnow
    rfl
  | _ => cases htask

/-! ## 3. Invariants of the ledger on disk -/

/-- The checks of a load change nothing. -/
theorem checkLoaded_ok (h : checkLoaded L = .ok L') : L' = L := by
  unfold checkLoaded at h
  split at h
  · cases h
  · split at h
    · cases h
    · split at h
      · exact (Except.ok.inj h).symm
      · cases h

/-- A v2 file loads as the ledger it holds, or not at all. -/
theorem loadLedger_v2 {file : LedgerFile} (hv : file.schema = .v2)
    (h : loadLedger (some file) = .ok L) : L = file.ledger := by
  simp only [loadLedger, hv] at h
  split at h
  · cases h
  · exact checkLoaded_ok h

/-- The ledger the file loads as, when it does, satisfies `I`. -/
def OnDisk (I : ReleaseLedger → Prop) (s : Store) : Prop :=
  ∀ L, loadLedger s.disk = .ok L → I L

/-- **The rule for ledger invariants.**  What every write preserves, every step preserves. -/
theorem Store.step_onDisk {I : ReleaseLedger → Prop} (hstep : Store.Step encodedLen s (op, answer) s')
    (hI : ∀ L L', I L → Wrote encodedLen op answer L L' → I L') (hs : OnDisk I s) : OnDisk I s' := by
  rcases Store.step_cases hstep with ⟨hdisk, -⟩ | ⟨L, file, hload, hdisk, hv, hwrote⟩
  · intro L hL
    exact hs L (hdisk ▸ hL)
  · intro L' hL'
    rw [hdisk] at hL'
    rw [loadLedger_v2 hv hL']
    exact hI L _ (hs L hload) hwrote

/-! ## 4. Stores without a v1 file -/

/-- The ledger on disk. -/
def Store.ledger (s : Store) : ReleaseLedger := (s.disk.map (·.ledger)).getD .empty

/-- No file, or one of this version. -/
def Store.Current (s : Store) : Prop := ∀ file, s.disk = some file → file.schema = .v2

theorem Store.Current.load (h : s.Current) (hload : loadLedger s.disk = .ok L) : L = s.ledger := by
  unfold Store.ledger
  cases hdisk : s.disk with
  | none =>
    rw [hdisk] at hload
    exact (Except.ok.inj hload).symm
  | some file =>
    rw [hdisk] at hload
    exact loadLedger_v2 (h file hdisk) hload

/-- **One step of a current store**: it stays current, and its ledger stays or is written. -/
theorem Store.step_ledger (hstep : Store.Step encodedLen s (op, answer) s') (h : s.Current) :
    s'.Current ∧ ((s'.ledger = s.ledger ∧ answer.grants = false) ∨
      Wrote encodedLen op answer s.ledger s'.ledger) := by
  rcases Store.step_cases hstep with ⟨hdisk, hno⟩ | ⟨L, file, hload, hdisk, hv, hwrote⟩
  · refine ⟨fun file hfile => h file (hdisk ▸ hfile), Or.inl ⟨?_, hno⟩⟩
    unfold Store.ledger
    rw [hdisk]
  · refine ⟨fun file' hfile' => ?_, Or.inr ?_⟩
    · rw [hdisk] at hfile'
      obtain rfl := Option.some.inj hfile'
      exact hv
    · have hledger : s'.ledger = file.ledger := by simp [Store.ledger, hdisk]
      rw [hledger, ← h.load hload]
      exact hwrote

end

end AzazelEdge.Release
