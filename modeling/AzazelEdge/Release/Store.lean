/-
# The release store: the ledger file, the in-flight registry, and every operation on them

Each operation of `release.rs` holds the ledger lock from its load to its save, so on the store
it is one step: `admit_release_task`, `activate_release_task`, `abandon_release_task`,
`recover_unconfirmed_on_start`, `process_due_releases`, `compact_release_ledger`, and the stop of
the process, which forgets the registry and keeps the file.

What the environment decides goes into the operation: the clock reading, whether the lock, the
read and the save succeed, and the answers to the commands of a sweep.
-/
import AzazelEdge.Lib.Run
import AzazelEdge.Release.Sweep

namespace AzazelEdge.Release

open AzazelEdge.Lib

/-! ## 1. State, operations, answers -/

/-- What outlives an operation. -/
structure Store where
  disk : Option LedgerFile
  /-- `IN_FLIGHT`: the leases whose apply is running in this process. -/
  inFlight : List String

/-- What the operating system did for one operation. -/
structure LedgerIo where
  /-- `lock_ledger`. -/
  lock : Except String Unit
  /-- The read of `load_ledger`. -/
  read : Except String Unit
  save : SaveIo
  /-- The second save of a sweep whose first one failed. -/
  retry : SaveIo

/-- Everything succeeds. -/
def LedgerIo.fine : LedgerIo := ⟨.ok (), .ok (), .ok none, .ok none⟩

inductive Op where
  | admitTask (task : ReleaseTask) (legacyTraces : List String) (ttlSec : ℕ) (now : LeaseNow)
      (io : LedgerIo)
  | activate (taskId : String) (nowEpoch : Epoch) (io : LedgerIo)
  | abandon (taskId reason : String) (now : LeaseNow) (io : LedgerIo)
  | recover (now : LeaseNow) (io : LedgerIo)
  | sweep (now : LeaseNow) (audit : StartAudit) (replies : List Reply) (io : LedgerIo)
  | compact (now : LeaseNow) (io : LedgerIo)
  /-- The process stops, at whatever point: its memory is gone. -/
  | stop

inductive Answer where
  | admitted (result : Except String Admission)
  | activated (result : Except String Unit)
  | abandoned (result : Except String Unit)
  | recovered (result : Except String ℕ)
  | swept (result : Except String (List ReleaseOutcome))
  | compacted (result : Except String ℕ)
  | stopped

/-- The alert acts under this answer. -/
def Answer.grants : Answer → Bool
  | .admitted (.ok admission) => admission.grants
  | _ => false

/-! ## 2. Read-modify-write -/

section

variable (encodedLen : ReleaseLedger → ℕ)

/-- The lock and the load that open every operation.  A file that is not there is not read. -/
def openLedger (io : LedgerIo) (disk : Option LedgerFile) : Except String ReleaseLedger :=
  match io.lock with
  | .error detail => .error (ledgerError detail)
  | .ok () =>
    match disk, io.read with
    | some _, .error detail => .error (ledgerError detail)
    | _, _ => loadLedger disk

/-- Save the ledger when there is one to save; a failed save turns the answer into its error. -/
def commit {α : Type} (io : LedgerIo) (disk : Option LedgerFile) (save : Option ReleaseLedger)
    (answer : Except String α) : Option LedgerFile × Except String α :=
  match save with
  | none => (disk, answer)
  | some ledger =>
    match saveLedger encodedLen io.save ledger with
    | .error e => (disk, .error e)
    | .ok file => (some file, answer)

/-! ## 3. The in-flight registry -/

/-- `set_in_flight`. -/
def setInFlight (set : List String) (taskId : String) (on : Bool) : List String :=
  set.filter (· ≠ taskId) ++ if on then [taskId] else []

/-! ## 4. The operations -/

/-- `admit_release_task`. -/
def Store.admitTask (s : Store) (task : ReleaseTask) (legacyTraces : List String) (ttlSec : ℕ)
    (now : LeaseNow) (io : LedgerIo) : Store × Except String Admission :=
  match validateTask task, validateNow now.wallEpoch with
  | .error e, _ => (s, .error e)
  | .ok (), .error e => (s, .error e)
  | .ok (), .ok () =>
    match openLedger io s.disk with
    | .error e => (s, .error e)
    | .ok ledger =>
      let plan := admitReleaseTask encodedLen ledger task legacyTraces ttlSec now
      let (disk, answer) := commit encodedLen io s.disk plan.save plan.answer
      -- The new lease is entered before the save, and taken out again when the save fails.
      let inFlight :=
        match plan.answer with
        | .ok (.prepared _) => setInFlight s.inFlight task.taskId answer.isOk
        | _ => s.inFlight
      (⟨disk, inFlight⟩, answer)

/-- The end of an apply: the lease leaves the registry before anything else can fail, then its
task is updated.  The shape of activation and abandonment. -/
def Store.endApply (s : Store) (taskId : String) (nowEpoch : Epoch) (io : LedgerIo)
    (update : ReleaseLedger → Except String ReleaseLedger) : Store × Except String Unit :=
  match validateNow nowEpoch, io.lock with
  | .error e, _ => (s, .error e)
  | .ok (), .error detail => (s, .error (ledgerError detail))
  | .ok (), .ok () =>
    let inFlight := setInFlight s.inFlight taskId false
    match openLedger io s.disk with
    | .error e => (⟨s.disk, inFlight⟩, .error e)
    | .ok ledger =>
      match update ledger with
      | .error e => (⟨s.disk, inFlight⟩, .error e)
      | .ok updated =>
        let (disk, answer) := commit encodedLen io s.disk (some updated) (.ok ())
        (⟨disk, inFlight⟩, answer)

/-- `activate_release_task`. -/
def Store.activate (s : Store) (taskId : String) (nowEpoch : Epoch) (io : LedgerIo) :
    Store × Except String Unit :=
  s.endApply encodedLen taskId nowEpoch io fun ledger => activateReleaseTask ledger taskId nowEpoch

/-- `abandon_release_task`. -/
def Store.abandon (s : Store) (taskId reason : String) (now : LeaseNow) (io : LedgerIo) :
    Store × Except String Unit :=
  s.endApply encodedLen taskId now.wallEpoch io fun ledger =>
    abandonReleaseTask ledger taskId reason now

/-- A rewrite of the ledger that counts what it changed: nothing to do without a file, and saved
only when it changed anything.  The shape of recovery and of the maintenance compaction. -/
def Store.rewrite (s : Store) (nowEpoch : Epoch) (io : LedgerIo)
    (update : ReleaseLedger → ReleaseLedger × ℕ) : Store × Except String ℕ :=
  match validateNow nowEpoch, io.lock with
  | .error e, _ => (s, .error e)
  | .ok (), .error detail => (s, .error (ledgerError detail))
  | .ok (), .ok () =>
    if s.disk = none then (s, .ok 0)
    else match openLedger io s.disk with
      | .error e => (s, .error e)
      | .ok ledger =>
        let (updated, count) := update ledger
        let (disk, answer) :=
          commit encodedLen io s.disk (if 0 < count then some updated else none) (.ok count)
        (⟨disk, s.inFlight⟩, answer)

/-- `recover_unconfirmed_on_start`. -/
def Store.recover (s : Store) (now : LeaseNow) (io : LedgerIo) : Store × Except String ℕ :=
  s.rewrite encodedLen now.wallEpoch io fun ledger => recoverUnconfirmed ledger now

/-- `compact_release_ledger`. -/
def Store.compact (s : Store) (now : LeaseNow) (io : LedgerIo) : Store × Except String ℕ :=
  s.rewrite encodedLen now.wallEpoch io fun ledger => compactLedger ledger now

/-- What a sweep has to do once it holds the lock: nothing (with its answer), or to run its loop
over these candidates of this ledger. -/
inductive SweepStart where
  | nothing (answer : Except String (List ReleaseOutcome))
  | run (ledger : ReleaseLedger) (due : List (String × ExpiryClock))

/-- The opening of `process_due_releases`. -/
def Store.sweepStart (s : Store) (now : LeaseNow) (io : LedgerIo) : SweepStart :=
  match validateNow now.wallEpoch, io.lock with
  | .error e, _ => .nothing (.error e)
  | .ok (), .error detail => .nothing (.error (ledgerError detail))
  | .ok (), .ok () =>
    if s.disk = none then .nothing (.ok [])
    else match openLedger io s.disk with
      | .error e => .nothing (.error e)
      | .ok ledger =>
        match candidates s.inFlight now ledger.tasks with
        | [] => .nothing (.ok [])
        | candidate :: rest => .run ledger (candidate :: rest)

/-- The save that ends a sweep. -/
def Store.sweepEnd (s : Store) (now : LeaseNow) (io : LedgerIo)
    (result : ReleaseLedger × List ReleaseOutcome) : Store × Except String (List ReleaseOutcome) :=
  match sweepSave encodedLen io.save io.retry result.1 now with
  | .ok file => (⟨some file, s.inFlight⟩, .ok result.2)
  | .error e => (s, .error e)

/-- `process_due_releases` with the answers to its commands; `none` when these are not exactly
the commands it issues. -/
def Store.sweep (s : Store) (now : LeaseNow) (audit : StartAudit) (replies : List Reply)
    (io : LedgerIo) : Option (Store × Except String (List ReleaseOutcome)) :=
  match s.sweepStart now io with
  | .nothing answer => if replies.isEmpty then some (s, answer) else none
  | .run ledger due =>
    ((sweepLoop now audit due ledger).run replies).map (s.sweepEnd encodedLen now io)

/-! ## 5. Steps and runs -/

/-- One operation on the store. -/
def Store.exec (s : Store) : Op → Option (Store × Answer)
  | .admitTask task legacyTraces ttlSec now io =>
    some ((s.admitTask encodedLen task legacyTraces ttlSec now io).map id .admitted)
  | .activate taskId nowEpoch io =>
    some ((s.activate encodedLen taskId nowEpoch io).map id .activated)
  | .abandon taskId reason now io =>
    some ((s.abandon encodedLen taskId reason now io).map id .abandoned)
  | .recover now io => some ((s.recover encodedLen now io).map id .recovered)
  | .sweep now audit replies io =>
    (s.sweep encodedLen now audit replies io).map (Prod.map id .swept)
  | .compact now io => some ((s.compact encodedLen now io).map id .compacted)
  | .stop => some (⟨s.disk, []⟩, .stopped)

/-- The step relation of the store: an operation, with the answer it gave. -/
def Store.Step (s : Store) (label : Op × Answer) (t : Store) : Prop :=
  s.exec encodedLen label.1 = some (t, label.2)

/-- A list of operations in order, with the labels of the run they make. -/
def Store.execAll (s : Store) : List Op → Option (Store × List (Op × Answer))
  | [] => some (s, [])
  | op :: ops =>
    match s.exec encodedLen op with
    | none => none
    | some (t, answer) => (Store.execAll t ops).map fun (u, ls) => (u, (op, answer) :: ls)

/-- Executed operations are a run. -/
theorem Store.execAll_run {s t : Store} {ops : List Op} {ls : List (Op × Answer)}
    (h : s.execAll encodedLen ops = some (t, ls)) :
    Run (Store.Step encodedLen) s ls t ∧ ls.map Prod.fst = ops := by
  induction ops generalizing s ls with
  | nil =>
    obtain ⟨rfl, rfl⟩ := Prod.mk.inj (Option.some.inj h)
    exact ⟨Run.refl s, rfl⟩
  | cons op ops ih =>
    rw [Store.execAll] at h
    split at h
    · cases h
    · rename_i u answer hexec
      obtain ⟨⟨t', ls'⟩, hrest, heq⟩ := Option.map_eq_some_iff.mp h
      obtain ⟨rfl, rfl⟩ := Prod.mk.inj heq
      obtain ⟨hrun, hops⟩ := ih hrest
      exact ⟨Run.head hexec hrun, by rw [List.map_cons, hops]⟩

theorem Store.execAll_get (s : Store) (ops : List Op)
    (h : (s.execAll encodedLen ops).isSome = true) :
    Run (Store.Step encodedLen) s ((s.execAll encodedLen ops).get h).2
        ((s.execAll encodedLen ops).get h).1 ∧
      ((s.execAll encodedLen ops).get h).2.map Prod.fst = ops :=
  Store.execAll_run encodedLen (Option.some_get h).symm

end

end AzazelEdge.Release
