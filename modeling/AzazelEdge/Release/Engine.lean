/-
# The engine: decision thread, release sweep and kernel together

The store's operations are atomic because each holds the ledger lock.  What the lock does not cover
is the apply: `maybe_enforce_with` admits a lease, runs its command, reads it back and closes it,
while sweeps come and go, and a sweep's own commands run one by one.  This module is that
interleaving, one step for each thing that can happen next:

* the decision thread takes an alert (`admit`), its command takes effect (`land`) and returns
  (`applied`), the readback is answered (`readback`), the lease is activated or abandoned (`close`);
* a sweep takes the lock (`sweepBegin`), a command of it is answered (`command`), it saves
  (`sweepEnd`); while it holds the lock no other operation on the ledger runs;
* the maintenance subcommand compacts, the process crashes and starts again, and rules can vanish
  under the core's feet.
-/
import AzazelEdge.Release.Kernel
import AzazelEdge.Release.Steps

namespace AzazelEdge.Release

open AzazelEdge.Lib

/-! ## 1. State -/

/-- Where the decision thread is with the alert it handles. -/
inductive Decision where
  /-- The process is not running.  A command it had started may still be. -/
  | down (command : Option Argv)
  | idle
  | applying (lease : ReleaseTask) (argv : Argv)
  /-- The command reported success; the readback is under way. -/
  | reading (lease : ReleaseTask)
  | closing (lease : ReleaseTask) (confirmed : Bool)

/-- The apply command that may still take effect. -/
def Decision.command? : Decision → Option Argv
  | .down command => command
  | .applying _ argv => some argv
  | _ => none

/-- The lease the thread has admitted and not closed. -/
def Decision.lease? : Decision → Option ReleaseTask
  | .applying lease _ => some lease
  | .reading lease => some lease
  | .closing lease _ => some lease
  | _ => none

def Decision.isDown : Decision → Bool
  | .down _ => true
  | _ => false

/-- A sweep that holds the ledger lock: what it was called with, what is left of its loop, and
what has happened to it so far. -/
structure Sweeping where
  now : LeaseNow
  audit : StartAudit
  io : LedgerIo
  prog : Cmd (ReleaseLedger × List ReleaseOutcome)
  replies : List Reply
  /-- A deletion of this sweep has removed the rule of a lease that is active on disk. -/
  removed : Bool
  /-- It has, and no listing has been answered since. -/
  unread : Bool

structure Engine where
  store : Store
  kernel : Kernel
  decision : Decision
  sweep : Option Sweeping

/-- Before the first start: no ledger file, no rule. -/
def Engine.fresh : Engine := ⟨⟨none, []⟩, .empty, .down none, none⟩

/-- A lease in force: active, and its rule not known to be gone. -/
def ReleaseTask.inForce (task : ReleaseTask) : Bool :=
  decide (task.status = .active) && task.ruleRemovedEpoch.isNone

/-- Going over to this kernel takes a rule from a lease that is in force on disk. -/
def Engine.removesHeld (e : Engine) (kernel : Kernel) : Bool :=
  e.store.ledger.tasks.any fun task => task.inForce &&
    e.kernel.rules.any fun rule => decide (rule.token = task.ownerToken) &&
      !kernel.rules.any fun other => other.handle = rule.handle

/-! ## 2. Steps -/

/-- What happens at a step. -/
inductive Event where
  | start
  | admitTask (answer : Except String Admission)
  | land (rule : NftRule)
  | applied (ok : Bool)
  | readback (reply : Reply)
  | close
  | sweepBegin
  | command (argv : Argv) (reply : Reply)
  | sweepEnd (answer : Except String (List ReleaseOutcome))
  | compact
  | crash
  | vanish

/-- The thread after its admission: only a new lease is applied. -/
def Decision.afterAdmit (argv : Argv) : Except String Admission → Decision
  | .ok (.prepared lease) => .applying lease argv
  | _ => .idle

/-- `readback == Ok(true)`. -/
def readbackConfirms : Except String Bool → Bool
  | .ok true => true
  | _ => false

/-- The sweep with one more answer. -/
def Sweeping.answer (w : Sweeping) (argv : Argv) (reply : Reply)
    (next : Cmd (ReleaseLedger × List ReleaseOutcome)) (removes : Bool) : Sweeping :=
  { w with
    prog := next
    replies := w.replies ++ [reply]
    removed := w.removed || removes
    unread := removes || (w.unread && decide (∀ chain ∈ ["input", "prerouting", "throttle"],
      argv ≠ listChainArgv chain)) }

section

variable (encodedLen : ReleaseLedger → ℕ)

/-- The end of an apply: `activate_release_task` when the readback confirmed it,
`abandon_release_task` otherwise. -/
def Store.close (s : Store) (lease : ReleaseTask) (confirmed : Bool) (now : LeaseNow)
    (io : LedgerIo) : Store :=
  if confirmed then (s.activate encodedLen lease.taskId now.wallEpoch io).1
  else (s.abandon encodedLen lease.taskId "apply_unconfirmed" now io).1

/-- One step of the engine. -/
inductive Engine.Step : Engine → Event → Engine → Prop
  /-- `recover_unconfirmed_on_start`; the core starts whether or not it succeeds. -/
  | start (e : Engine) (command : Option Argv) (now : LeaseNow) (io : LedgerIo)
      (hdown : e.decision = .down command) (hfree : e.sweep = none) :
      Step e .start { e with store := (e.store.recover encodedLen now io).1, decision := .idle }
  /-- An alert up to its admission. -/
  | admitTask (e : Engine) (alert : Alert) (ttlSec : ℕ) (legacyTraces : List String) (now : LeaseNow)
      (io : LedgerIo) (task : ReleaseTask) (hidle : e.decision = .idle) (hfree : e.sweep = none)
      (htask : alert.task ttlSec now = some task) :
      Step e (.admitTask (e.store.admitTask encodedLen task legacyTraces ttlSec now io).2)
        { e with
          store := (e.store.admitTask encodedLen task legacyTraces ttlSec now io).1
          decision := .afterAdmit (alert.applyArgv task)
            (e.store.admitTask encodedLen task legacyTraces ttlSec now io).2 }
  /-- The apply command takes effect. -/
  | land (e : Engine) (argv : Argv) (rule : NftRule) (hcommand : e.decision.command? = some argv)
      (hrule : insertTarget? argv = some (rule.chain, rule.token))
      (hfresh : e.kernel.nextHandle ≤ rule.handle) :
      Step e (.land rule) { e with kernel := e.kernel.insert rule hfresh }
  /-- The apply command returns, fails or is timed out. -/
  | applied (e : Engine) (lease : ReleaseTask) (argv : Argv) (ok : Bool)
      (happlying : e.decision = .applying lease argv) :
      Step e (.applied ok)
        { e with decision := if ok then .reading lease else .closing lease false }
  | readback (e : Engine) (lease : ReleaseTask) (chain : String) (reply : Reply)
      (result : Except String Bool) (hreading : e.decision = .reading lease)
      (hchain : ownedNftChain lease = some chain) (hshows : e.kernel.Shows chain reply)
      (hresult : (ownedStateMatchesPlan lease).run [reply] = some result) :
      Step e (.readback reply) { e with decision := .closing lease (readbackConfirms result) }
  | close (e : Engine) (lease : ReleaseTask) (confirmed : Bool) (now : LeaseNow) (io : LedgerIo)
      (hclosing : e.decision = .closing lease confirmed) (hfree : e.sweep = none) :
      Step e .close
        { e with store := e.store.close encodedLen lease confirmed now io, decision := .idle }
  /-- A sweep takes the lock and finds something due.  One that does not changes nothing. -/
  | sweepBegin (e : Engine) (now : LeaseNow) (audit : StartAudit) (io : LedgerIo)
      (L : ReleaseLedger) (due : List (String × ExpiryClock)) (hup : e.decision.isDown = false)
      (hfree : e.sweep = none) (hstart : e.store.sweepStart now io = .run L due) :
      Step e .sweepBegin
        { e with sweep := some ⟨now, audit, io, sweepLoop now audit due L, [], false, false⟩ }
  | command (e : Engine) (w : Sweeping) (argv : Argv)
      (next : Reply → Cmd (ReleaseLedger × List ReleaseOutcome)) (reply : Reply) (kernel : Kernel)
      (hsweep : e.sweep = some w) (hprog : w.prog = .call argv next)
      (hanswers : e.kernel.Answers argv reply kernel) :
      Step e (.command argv reply)
        { e with
          kernel
          sweep := some (w.answer argv reply (next reply) (e.removesHeld kernel)) }
  | sweepEnd (e : Engine) (w : Sweeping) (result : ReleaseLedger × List ReleaseOutcome)
      (hsweep : e.sweep = some w) (hprog : w.prog = .done result) :
      Step e (.sweepEnd (e.store.sweepEnd encodedLen w.now w.io result).2)
        { e with store := (e.store.sweepEnd encodedLen w.now w.io result).1, sweep := none }
  /-- `compact_release_ledger`, from another process. -/
  | compact (e : Engine) (now : LeaseNow) (io : LedgerIo) (hfree : e.sweep = none) :
      Step e .compact { e with store := (e.store.compact encodedLen now io).1 }
  /-- The process stops, at whatever point.  Nothing of a command it had started outlives the next
  start. -/
  | crash (e : Engine) (hup : e.decision.isDown = false) :
      Step e .crash
        { e with
          store := ⟨e.store.disk, []⟩
          decision := .down e.decision.command?
          sweep := none }
  /-- Rules are removed by someone else. -/
  | vanish (e : Engine) (p : NftRule → Bool) : Step e .vanish { e with kernel := e.kernel.keep p }

end

end AzazelEdge.Release
