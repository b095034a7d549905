/-
# What every run of the engine keeps

`Engine.step_store`: the engine does to the store what an operation of the store does, so every run
of it is a run of the store (`Engine.run_store`) and the store's invariants are the engine's.
`Engine.Sound` adds what ties the decision thread and a sweep in progress to the store: the
ledger's tasks are held in the kernel under tokens of their own, a lease that is not closed is in
the registry, and a sweep is where its answers have brought it.
-/
import AzazelEdge.Release.Engine

namespace AzazelEdge.Release

open AzazelEdge.Lib

variable {encodedLen : ReleaseLedger → ℕ} {s s' : Store} {op : Op} {answer : Answer}
  {L L' : ReleaseLedger} {t t' : ReleaseTask} {token chain : String}

/-! ## 1. Ledgers of leases held in the kernel -/

/-- The task's restriction is a rule of an owned chain, under a token no other id has. -/
def FlowHeld (task : ReleaseTask) : Prop :=
  task.ownerToken = ownerTokenOf task.taskId ∧ validOwnerToken task.ownerToken = true ∧
    isLegacyTcThrottle task = false ∧ (ownedNftChain task).isSome = true

/-- Tasks of different ids, each of them so held. -/
def FlowLedger (ledger : ReleaseLedger) : Prop :=
  UniqueIds ledger ∧ ∀ task ∈ ledger.tasks, FlowHeld task

theorem ownerTokenOf_injective {a b : String} (h : ownerTokenOf a = ownerTokenOf b) : a = b := by
  have hlist := congrArg String.toList h
  simp only [ownerTokenOf, String.toList_append] at hlist
  exact String.toList_injective (List.append_cancel_left hlist)

/-- Two tasks of one token have one id. -/
theorem FlowHeld.taskId_eq (h : FlowHeld t) (h' : FlowHeld t')
    (htoken : t.ownerToken = t'.ownerToken) : t.taskId = t'.taskId :=
  ownerTokenOf_injective (h.1.symm.trans (htoken.trans h'.1))

/-- The task an operation asks admission for was built for an alert. -/
def Op.Built (op : Op) : Prop :=
  ∀ task, op.admits = some task → ∃ (alert : Alert) (ttlSec : ℕ) (now : LeaseNow),
    alert.task ttlSec now = some task

theorem Op.built_of_none (h : op.admits = none) : op.Built :=
  fun _ htask => by rw [h] at htask; cases htask

theorem flowHeld_of_alert {alert : Alert} {ttlSec : ℕ} {now : LeaseNow} {task : ReleaseTask}
    (h : alert.task ttlSec now = some task) (hvalid : validateTask task = .ok ()) :
    FlowHeld task := by
  have hbuilt := alert.task_built h
  exact ⟨hbuilt.token, (validateTask_ok hvalid).2.2.1, hbuilt.mechanism, by rw [hbuilt.chain]; rfl⟩

theorem FlowLedger.edit {tasks' : List ReleaseTask} (h : FlowLedger L)
    (hf : List.Forall₂ (TaskMove op) L.tasks tasks') : FlowLedger { L with tasks := tasks' } := by
  refine ⟨h.1.edit hf, fun t' ht' => ?_⟩
  obtain ⟨t, ht, hmove⟩ := exists_of_forall₂_right hf ht'
  rw [hmove.fixed (g := FlowHeld) fun _ => rfl]
  exact h.2 t ht

theorem FlowLedger.compact (h : FlowLedger L) (now : LeaseNow) :
    FlowLedger (compactLedger L now).1 :=
  ⟨h.1.compact now, fun t ht => h.2 t ((compactLedger_sublist L now).subset ht)⟩

theorem FlowLedger.append {new : ReleaseTask} (h : FlowLedger L) (hbuilt : op.Built)
    (hnew : Appended op answer L new) : FlowLedger { L with tasks := L.tasks ++ [new] } := by
  obtain ⟨task, now, htask, -, hvalid, horigin, hid, -⟩ := hnew
  have hnewId : new.taskId = task.taskId := origin_fixed (fun _ => rfl) horigin
  refine ⟨h.1.append fun x hx => hnewId ▸ hid x hx, fun t ht => ?_⟩
  rcases List.mem_append.mp ht with ht | ht
  · exact h.2 t ht
  · obtain rfl := List.mem_singleton.mp ht
    obtain ⟨alert, ttlSec, at', halert⟩ := hbuilt task htask
    rw [origin_fixed (g := FlowHeld) (fun _ => rfl) horigin]
    exact flowHeld_of_alert halert hvalid

/-- **Every write keeps the ledger one of leases held in the kernel.** -/
theorem FlowLedger.wrote (h : FlowLedger L) (hbuilt : op.Built)
    (hw : Wrote encodedLen op answer L L') : FlowLedger L' :=
  hw.invariant (fun _ _ hL hf => hL.edit hf) (fun _ now _ hL => hL.compact now)
    (fun _ _ hL hnew => hL.append hbuilt hnew) h

/-! ## 2. A lease just prepared -/

/-- **A prepared lease is on disk and in the registry.** -/
theorem Store.admit_prepared {task lease : ReleaseTask} {traces : List String} {ttlSec : ℕ}
    {now : LeaseNow} {io : LedgerIo}
    (h : (s.admitTask encodedLen task traces ttlSec now io).2 = .ok (.prepared lease)) :
    lease ∈ (s.admitTask encodedLen task traces ttlSec now io).1.ledger.tasks ∧
      lease.taskId ∈ (s.admitTask encodedLen task traces ttlSec now io).1.inFlight ∧
      lease.origin = task.origin ∧ lease.status = .prepared ∧ validateTask task = .ok () := by
  unfold Store.admitTask at h ⊢
  split at h
  · cases h
  · cases h
  · rename_i hvalid _
    split at h
    · cases h
    · rename_i L hopen
      dsimp only at h ⊢
      rcases hcommit : commit encodedLen io s.disk
        (admitReleaseTask encodedLen L task traces ttlSec now).save
        (admitReleaseTask encodedLen L task traces ttlSec now).answer with ⟨disk, answer⟩
      rw [hcommit] at h
      dsimp only at h ⊢
      subst h
      rcases admitReleaseTask_cases encodedLen L task traces ttlSec now with
        ⟨e, hrefused, -⟩ | ⟨L₁, -, -, hcase⟩
      · rw [hrefused] at hcommit
        cases (Prod.mk.inj hcommit).2
      · generalize admitReleaseTask encodedLen L task traces ttlSec now = plan at hcase hcommit ⊢
        rcases commit_cases hcommit with ⟨-, ⟨hnone, hgiven⟩ | ⟨detail, he⟩⟩ |
          ⟨L', file, hsave, rfl, rfl, -, hgiven⟩
        · have hgrants := hcase.grants_of_save_none hnone
          rw [← hgiven] at hgrants
          cases hgrants
        · cases he
        · cases hcase with
          | granted lease' hgranted =>
            obtain rfl : lease' = lease := by simpa using hgiven.symm
            have hledger : file.ledger = { L₁ with tasks := L₁.tasks ++ [lease'] } :=
              (Option.some.inj hsave).symm
            have hid : lease'.taskId = task.taskId := origin_fixed (fun _ => rfl) hgranted.origin
            refine ⟨?_, ?_, hgranted.origin, hgranted.status, hvalid⟩
            · simp [Store.ledger, hledger]
            · simp [setInFlight, hid, Except.isOk, Except.toBool]
          | _ => cases hgiven

/-! ## 3. The engine does what the store does -/

/-- What ties the decision thread and a sweep in progress to the store. -/
structure Engine.Sound (e : Engine) : Prop where
  current : e.store.Current
  flow : FlowLedger e.store.ledger
  /-- A lease that is not closed is in the registry. -/
  lease : ∀ lease, e.decision.lease? = some lease →
    lease.taskId ∈ e.store.inFlight ∧ FlowHeld lease
  /-- Its command inserts its rule. -/
  argv : ∀ lease argv, e.decision = .applying lease argv → ∃ chain,
    ownedNftChain lease = some chain ∧ insertTarget? argv = some (chain, lease.ownerToken)
  /-- The process runs while a sweep does, and what is left of the sweep is what its answers have
  left of the loop it began with. -/
  sweep : ∀ w, e.sweep = some w → e.decision.isDown = false ∧
    ∃ L due, e.store.sweepStart w.now w.io = .run L due ∧
      (sweepLoop w.now w.audit due L).resume w.replies = some w.prog

/-- The operation of the store that a step of the engine carries out, when it carries one out. -/
def Engine.Step.Carries (encodedLen : ReleaseLedger → ℕ) (e e' : Engine) : Prop :=
  e'.store = e.store ∨ ∃ op answer, Store.Step encodedLen e.store (op, answer) e'.store ∧ op.Built ∧
    (op.isSweep = true → e.sweep.isSome = true)

variable {e e' : Engine} {ev : Event}

theorem Store.step_close (encodedLen : ReleaseLedger → ℕ) (s : Store) (lease : ReleaseTask)
    (confirmed : Bool) (now : LeaseNow) (io : LedgerIo) : ∃ op answer,
      Store.Step encodedLen s (op, answer) (s.close encodedLen lease confirmed now io) ∧
      op.admits = none ∧ op.isSweep = false ∧
      ∀ id, op.activates = some id → confirmed = true ∧ id = lease.taskId := by
  cases confirmed with
  | true =>
    exact ⟨.activate lease.taskId now.wallEpoch io, _, rfl, rfl, rfl,
      fun id h => ⟨rfl, (Option.some.inj h).symm⟩⟩
  | false =>
    exact ⟨.abandon lease.taskId "apply_unconfirmed" now io, _, rfl, rfl, rfl,
      fun id h => by cases h⟩

/-- **A step of the engine leaves the store or is one operation on it**: a sweep's, with exactly
the answers its commands were given, at its end. -/
theorem Engine.step_store (h : Engine.Step encodedLen e ev e') (hs : e.Sound) :
    Engine.Step.Carries encodedLen e e' := by
  cases h with
  | start command now io =>
    exact Or.inr ⟨.recover now io, _, rfl, Op.built_of_none rfl, fun h => by cases h⟩
  | admitTask alert ttlSec traces now io task hidle hfree htask =>
    refine Or.inr ⟨.admitTask task traces ttlSec now io, _, rfl, fun task' h' => ?_, fun h => by cases h⟩
    obtain rfl := Option.some.inj h'
    exact ⟨alert, ttlSec, now, htask⟩
  | close lease confirmed now io =>
    obtain ⟨op, answer, hstep, hadmits, hsweep, -⟩ :=
      Store.step_close encodedLen e.store lease confirmed now io
    exact Or.inr ⟨op, answer, hstep, Op.built_of_none hadmits, fun h => by rw [hsweep] at h; cases h⟩
  | sweepEnd w result hsweep hprog =>
    obtain ⟨hup, L, due, hstart, hresume⟩ := hs.sweep w hsweep
    rw [hprog] at hresume
    refine Or.inr ⟨.sweep w.now w.audit w.replies w.io,
      .swept (e.store.sweepEnd encodedLen w.now w.io result).2, ?_, Op.built_of_none rfl,
      fun _ => by rw [hsweep]; rfl⟩
    simp only [Store.Step, Store.exec, Store.sweep, hstart, Prog.run_of_resume _ _ hresume,
      Option.map_some]
    rfl
  | compact now io =>
    exact Or.inr ⟨.compact now io, _, rfl, Op.built_of_none rfl, fun h => by cases h⟩
  | crash => exact Or.inr ⟨.stop, .stopped, rfl, Op.built_of_none rfl, fun h => by cases h⟩
  | land => exact Or.inl rfl
  | applied => exact Or.inl rfl
  | readback => exact Or.inl rfl
  | sweepBegin => exact Or.inl rfl
  | command => exact Or.inl rfl
  | vanish => exact Or.inl rfl

/-- The ledger stays one of leases held in the kernel. -/
theorem Engine.Step.Carries.flow (h : Engine.Step.Carries encodedLen e e')
    (hs : e.Sound) : e'.store.Current ∧ FlowLedger e'.store.ledger := by
  rcases h with hsame | ⟨op, answer, hstep, hbuilt, -⟩
  · rw [hsame]
    exact ⟨hs.current, hs.flow⟩
  · obtain ⟨hcurrent, ⟨hledger, -⟩ | hw⟩ := Store.step_ledger hstep hs.current
    · exact ⟨hcurrent, hledger ▸ hs.flow⟩
    · exact ⟨hcurrent, hs.flow.wrote hbuilt hw⟩

theorem Decision.afterAdmit_lease {argv : Argv} {lease : ReleaseTask}
    {result : Except String Admission} (h : (afterAdmit argv result).lease? = some lease) :
    result = .ok (.prepared lease) ∧ afterAdmit argv result = .applying lease argv := by
  unfold afterAdmit at h ⊢
  split at h
  · obtain rfl := Option.some.inj h
    exact ⟨rfl, rfl⟩
  · cases h

/-- **Every step keeps the engine sound.** -/
theorem Engine.Sound.step (hs : e.Sound) (h : Engine.Step encodedLen e ev e') : e'.Sound := by
  obtain ⟨hcurrent, hflow⟩ := (Engine.step_store h hs).flow hs
  cases h with
  | start command now io hdown hfree =>
    exact ⟨hcurrent, hflow, fun _ h => (by cases h), fun _ _ h => (by cases h),
      fun w h => by rw [hfree] at h; cases h⟩
  | admitTask alert ttlSec traces now io task hidle hfree htask =>
    refine ⟨hcurrent, hflow, fun lease h => ?_, fun lease argv h => ?_,
      fun w h => by rw [hfree] at h; cases h⟩
    · obtain ⟨hresult, -⟩ := Decision.afterAdmit_lease h
      obtain ⟨-, hflight, horigin, -, hvalid⟩ := Store.admit_prepared hresult
      refine ⟨hflight, ?_⟩
      rw [origin_fixed (g := FlowHeld) (fun _ => rfl) horigin]
      exact flowHeld_of_alert htask hvalid
    · replace h : Decision.afterAdmit (alert.applyArgv task)
          (e.store.admitTask encodedLen task traces ttlSec now io).2 = .applying lease argv := h
      have hlease : (Decision.afterAdmit (alert.applyArgv task)
          (e.store.admitTask encodedLen task traces ttlSec now io).2).lease? = some lease := by
        rw [h]; rfl
      obtain ⟨hresult, hargv⟩ := Decision.afterAdmit_lease hlease
      obtain ⟨-, hflight, horigin, -, hvalid⟩ := Store.admit_prepared hresult
      obtain ⟨-, rfl⟩ := Decision.applying.inj (hargv.symm.trans h)
      have hchain : ownedNftChain lease = ownedNftChain task := origin_fixed (fun _ => rfl) horigin
      have htoken : lease.ownerToken = task.ownerToken := origin_fixed (fun _ => rfl) horigin
      refine ⟨alert.chain, hchain.trans (alert.task_built htask).chain, ?_⟩
      rw [htoken]
      exact insertTarget?_applyArgv alert ((validateTask_ok hvalid).2.2.1)
  | land argv rule hcommand hrule hfresh =>
    exact ⟨hcurrent, hflow, hs.lease, hs.argv, hs.sweep⟩
  | applied lease argv ok happlying =>
    have hlease := hs.lease lease (by rw [happlying]; rfl)
    refine ⟨hcurrent, hflow, fun lease' h => ?_, fun lease' argv' h => ?_,
      fun w h => ⟨by cases ok <;> rfl, (hs.sweep w h).2⟩⟩
    · have : lease = lease' := by cases ok <;> exact Option.some.inj h
      exact this ▸ hlease
    · cases ok <;> cases h
  | readback lease chain reply result hreading hchain hshows hresult =>
    refine ⟨hcurrent, hflow, fun lease' h => ?_, fun _ _ h => (by cases h),
      fun w h => ⟨rfl, (hs.sweep w h).2⟩⟩
    obtain rfl := Option.some.inj h
    exact hs.lease lease (by rw [hreading]; rfl)
  | close lease confirmed now io hclosing hfree =>
    exact ⟨hcurrent, hflow, fun _ h => (by cases h), fun _ _ h => (by cases h),
      fun w h => by rw [hfree] at h; cases h⟩
  | sweepBegin now audit io L due hup hfree hstart =>
    refine ⟨hcurrent, hflow, hs.lease, hs.argv, fun w h => ?_⟩
    obtain rfl := Option.some.inj h
    exact ⟨hup, L, due, hstart, Prog.resume_nil _⟩
  | command w argv next reply kernel hsweep hprog hanswers =>
    refine ⟨hcurrent, hflow, hs.lease, hs.argv, fun w' h => ?_⟩
    obtain rfl := Option.some.inj h
    obtain ⟨hup, L, due, hstart, hresume⟩ := hs.sweep w hsweep
    rw [hprog] at hresume
    exact ⟨hup, L, due, hstart, Prog.resume_snoc _ _ reply hresume⟩
  | sweepEnd w result hsweep hprog =>
    have hflight : (e.store.sweepEnd encodedLen w.now w.io result).1.inFlight = e.store.inFlight := by
      unfold Store.sweepEnd
      split <;> rfl
    refine ⟨hcurrent, hflow, fun lease h => ?_, hs.argv, fun w h => by cases h⟩
    obtain ⟨hmem, hheld⟩ := hs.lease lease h
    exact ⟨hflight.symm ▸ hmem, hheld⟩
  | compact now io hfree =>
    refine ⟨hcurrent, hflow, fun lease h => ?_, hs.argv, fun w h => by rw [hfree] at h; cases h⟩
    have hflight : (e.store.compact encodedLen now io).1.inFlight = e.store.inFlight :=
      Store.rewrite_inFlight
    obtain ⟨hmem, hheld⟩ := hs.lease lease h
    exact ⟨hflight.symm ▸ hmem, hheld⟩
  | crash hup =>
    exact ⟨hcurrent, hflow, fun _ h => (by cases h), fun _ _ h => (by cases h), fun w h => by cases h⟩
  | vanish p => exact ⟨hcurrent, hflow, hs.lease, hs.argv, hs.sweep⟩

theorem Engine.fresh_sound : Engine.fresh.Sound where
  current := fun _ h => by cases h
  flow := ⟨List.nodup_nil, fun _ h => by cases h⟩
  lease := fun _ h => by cases h
  argv := fun _ _ h => by cases h
  sweep := fun _ h => by cases h

/-- **Every run of the engine is a run of its store.** -/
theorem Engine.run_store {evs : List Event} (h : Run (Engine.Step encodedLen) e evs e')
    (hs : e.Sound) : e'.Sound ∧ ∃ ls, Run (Store.Step encodedLen) e.store ls e'.store := by
  induction h with
  | refl => exact ⟨hs, [], Run.refl _⟩
  | head hstep _ ih =>
    obtain ⟨hsound, ls, hrun⟩ := ih (hs.step hstep)
    refine ⟨hsound, ?_⟩
    rcases Engine.step_store hstep hs with hsame | ⟨op, answer, hop, -⟩
    · exact ⟨ls, hsame ▸ hrun⟩
    · exact ⟨(op, answer) :: ls, Run.head hop hrun⟩

end AzazelEdge.Release
