/-
# Submits and workers of the capability broker

`CapabilityBroker._submit` from its admission on, for all brokers that `for_new_cycle` made of one.
An admitted submit has a worker thread and a slot.  Each critical section is one step, and so is
each release of a semaphore; the threads take their steps in any order, and a wait may end at any
time, by its timeout or because it was woken.

What a request is checked for before the admission, and what `_finalize` makes of a handler's data,
are left out.
-/
import Mathlib.Data.Int.Basic

namespace AzazelEdge.Broker

/-! ## 1. Limits -/

/-- What a `CapabilitySpec` bounds, as `_frozen_spec` lets it pass. -/
structure Spec where
  maxCallsPerCycle : ℤ
  maxConcurrency : ℕ
  concurrency_ok : 1 ≤ maxConcurrency ∧ maxConcurrency ≤ 8

/-- The bounds of a family of brokers, as the constructor clamps them. -/
structure Limits where
  registry : String → Option Spec
  maxTotalCalls : ℕ
  maxInFlight : ℕ
  maxQuarantined : ℕ
  inFlight_ok : 1 ≤ maxInFlight ∧ maxInFlight ≤ 16
  quarantined_ok : 1 ≤ maxQuarantined ∧ maxQuarantined ≤ 16

/-! ## 2. Calls -/

/-- What the handler came to: data, `CapabilityUnavailable`, or another exception. -/
inductive Outcome where
  | raw
  | unavailable
  | error
deriving DecidableEq

/-- What an admitted submit returns. -/
inductive SubmitResult where
  | workerStartFailed
  | timeout
  | stale
  | unavailable
  | error
  /-- `_finalize` of the handler's data. -/
  | finalized
deriving DecidableEq

/-- Only a finalized result has data that is not empty. -/
def SubmitResult.hasData : SubmitResult → Bool
  | .finalized => true
  | _ => false

def Outcome.result : Outcome → SubmitResult
  | .raw => .finalized
  | .unavailable => .unavailable
  | .error => .error

/-- What a thread that took the release of a slot frees next. -/
inductive Freeing where
  | capability
  | global
  | inFlight
deriving DecidableEq

/-- Where the worker thread is. -/
inductive WorkerPc where
  | idle
  /-- In the handler. -/
  | running
  /-- At `slot.release()`. -/
  | release
  | freeing (next : Freeing)
  /-- Before it marks the slot as done. -/
  | marking
  | ended
deriving DecidableEq

/-- Where the submit is. -/
inductive SubmitPc where
  /-- Before `worker.start()`. -/
  | starting
  | waiting
  | woken
  /-- It left the waiters, and has read whether the broker is closed. -/
  | left (cycleClosed : Bool)
  /-- At `slot.release()`, to return this. -/
  | release (result : SubmitResult)
  | freeing (next : Freeing) (result : SubmitResult)
  | returned (result : SubmitResult)
deriving DecidableEq

/-- An admitted submit: its slot, its worker, and what became of it. -/
structure Call where
  broker : ℕ
  capability : String
  /-- `_Slot._released`. -/
  released : Bool
  done : Bool
  hung : Bool
  outcome : Outcome
  worker : WorkerPc
  submit : SubmitPc
deriving DecidableEq

/-- What a step of a call adds to the shared counters. -/
structure Effect where
  inFlight : ℤ := 0
  quarantined : ℤ := 0
  globalSlots : ℤ := 0
  capabilitySlots : ℤ := 0

/-- The steps of the threads of a call. -/
inductive CallOp where
  | starts
  | startFails
  | handlerEnds (outcome : Outcome)
  | workerReleases
  | workerFrees
  | workerMarks
  | wakes
  | leaves
  | judges
  | submitReleases
  | submitFrees

/-- The semaphore or the counter that is freed next. -/
def Freeing.effect : Freeing → Effect
  | .capability => { capabilitySlots := 1 }
  | .global => { globalSlots := 1 }
  | .inFlight => { inFlight := -1 }

/-- What follows it. -/
def Freeing.next : Freeing → Option Freeing
  | .capability => some .global
  | .global => some .inFlight
  | .inFlight => none

/-- One step of a call, whose broker is closed or not; none when no thread is there. -/
def callStep (op : CallOp) (closed : Bool) (c : Call) : Option (Call × Effect) :=
  match op with
  | .starts =>
    if c.submit = .starting then some ({ c with worker := .running, submit := .waiting }, {}) else none
  | .startFails =>
    if c.submit = .starting then some ({ c with submit := .release .workerStartFailed }, {}) else none
  | .handlerEnds outcome =>
    if c.worker = .running then some ({ c with outcome, worker := .release }, {}) else none
  | .workerReleases =>
    if c.worker = .release then
      if c.released then some ({ c with worker := .marking }, {})
      else some ({ c with released := true, worker := .freeing .capability }, {})
    else none
  | .workerFrees =>
    match c.worker with
    | .freeing what => some ({ c with worker := what.next.elim .marking .freeing }, what.effect)
    | _ => none
  | .workerMarks =>
    -- Under the lock of the slot, and the counter of the quarantine under the shared one.
    if c.worker = .marking then
      some ({ c with done := true, worker := .ended }, { quarantined := if c.hung then -1 else 0 })
    else none
  | .wakes => if c.submit = .waiting then some ({ c with submit := .woken }, {}) else none
  | .leaves => if c.submit = .woken then some ({ c with submit := .left closed }, {}) else none
  | .judges =>
    match c.submit with
    | .left cycleClosed =>
      if c.done then
        some ({ c with submit := .returned (if cycleClosed then .stale else c.outcome.result) }, {})
      else
        some ({ c with hung := true, submit := .release (if cycleClosed then .stale else .timeout) },
          { quarantined := 1 })
    | _ => none
  | .submitReleases =>
    match c.submit with
    | .release result =>
      if c.released then some ({ c with submit := .returned result }, {})
      else some ({ c with released := true, submit := .freeing .capability result }, {})
    | _ => none
  | .submitFrees =>
    match c.submit with
    | .freeing what result =>
      some ({ c with submit := what.next.elim (.returned result) (.freeing · result) }, what.effect)
    | _ => none

/-! ## 3. The family -/

/-- What a broker keeps for its cycle. -/
structure Cycle where
  totalCalls : ℕ
  perCapabilityCalls : String → ℕ
  closed : Bool

def Cycle.new (closed : Bool) : Cycle := ⟨0, fun _ => 0, closed⟩

/-- The brokers of a family with their admitted submits, and `_SharedLimits`. -/
structure Family where
  brokers : List Cycle
  calls : List Call
  inFlight : ℤ
  inFlightPerCapability : String → ℤ
  quarantined : ℤ
  quarantinedPerCapability : String → ℤ
  globalSlots : ℤ
  capabilitySlots : String → ℤ

/-- One broker, as it is constructed. -/
def Family.init (limits : Limits) : Family where
  brokers := [Cycle.new false]
  calls := []
  inFlight := 0
  inFlightPerCapability := fun _ => 0
  quarantined := 0
  quarantinedPerCapability := fun _ => 0
  globalSlots := limits.maxInFlight
  capabilitySlots := fun name => (limits.registry name).elim 0 fun spec => spec.maxConcurrency

/-- The counter of a capability, moved. -/
def bump (counter : String → ℤ) (capability : String) (by' : ℤ) : String → ℤ :=
  fun name => if name = capability then counter name + by' else counter name

def Family.add (s : Family) (capability : String) (e : Effect) : Family :=
  { s with
    inFlight := s.inFlight + e.inFlight
    inFlightPerCapability := bump s.inFlightPerCapability capability e.inFlight
    quarantined := s.quarantined + e.quarantined
    quarantinedPerCapability := bump s.quarantinedPerCapability capability e.quarantined
    globalSlots := s.globalSlots + e.globalSlots
    capabilitySlots := bump s.capabilitySlots capability e.capabilitySlots }

/-- The refusal of an admission, if there is one. -/
def refusal (limits : Limits) (s : Family) (cycle : Cycle) (capability : String) (spec : Spec) :
    Option String :=
  if cycle.closed then some "broker_closed"
  else if limits.maxTotalCalls ≤ cycle.totalCalls then some "broker_total_budget_exhausted"
  else if spec.maxCallsPerCycle ≤ cycle.perCapabilityCalls capability then
    some "capability_budget_exhausted"
  else if limits.maxQuarantined ≤ s.quarantined + s.inFlight then
    some (if s.quarantined = 0 then "broker_overloaded" else "broker_quarantine_full")
  else if spec.maxConcurrency ≤
      s.quarantinedPerCapability capability + s.inFlightPerCapability capability then
    some (if s.quarantinedPerCapability capability = 0 then "capability_overloaded"
      else "capability_quarantined")
  else if s.globalSlots ≤ 0 then some "broker_overloaded"
  else if s.capabilitySlots capability ≤ 0 then some "capability_overloaded"
  else none

/-- An admitted submit. -/
def Call.new (broker : ℕ) (capability : String) : Call where
  broker
  capability
  released := false
  done := false
  hung := false
  outcome := .raw
  worker := .idle
  submit := .starting

/-- What an admission writes. -/
def Family.admitCall (s : Family) (broker : ℕ) (cycle : Cycle) (capability : String) : Family :=
  let counted : Cycle :=
    { cycle with
      totalCalls := cycle.totalCalls + 1
      perCapabilityCalls := fun name =>
        if name = capability then cycle.perCapabilityCalls name + 1
        else cycle.perCapabilityCalls name }
  { s.add capability { inFlight := 1, globalSlots := -1, capabilitySlots := -1 } with
    brokers := s.brokers.set broker counted
    calls := s.calls ++ [Call.new broker capability] }

inductive Op where
  /-- `for_new_cycle` of this broker. -/
  | forNewCycle (broker : ℕ)
  | close (broker : ℕ)
  /-- A submit reaches its admission. -/
  | submit (broker : ℕ) (capability : String)
  /-- A thread of this call takes a step. -/
  | step (call : ℕ) (op : CallOp)

inductive Answer where
  | done
  | rejected (reason : String)
  | admitted
deriving DecidableEq

/-- One step of the family; none when there is nothing to take it. -/
def Family.exec (limits : Limits) (s : Family) : Op → Option (Family × Answer)
  | .forNewCycle broker =>
    (s.brokers[broker]?).map fun cycle =>
      ({ s with brokers := s.brokers ++ [Cycle.new cycle.closed] }, .done)
  | .close broker =>
    (s.brokers[broker]?).map fun cycle =>
      ({ s with brokers := s.brokers.set broker { cycle with closed := true } }, .done)
  | .submit broker capability =>
    (s.brokers[broker]?).map fun cycle =>
      match limits.registry capability with
      | none => (s, .rejected "capability_not_allowlisted")
      | some spec =>
        match refusal limits s cycle capability spec with
        | some reason => (s, .rejected reason)
        | none => (s.admitCall broker cycle capability, .admitted)
  | .step call op =>
    (s.calls[call]?).bind fun c =>
      let closed := (s.brokers[c.broker]?).any (·.closed)
      (callStep op closed c).map fun (c', e) =>
        ({ s.add c.capability e with calls := s.calls.set call c' }, .done)

/-- The step relation of the family: a step, with the answer it gave. -/
def Family.Step (limits : Limits) (s : Family) (label : Op × Answer) (s' : Family) : Prop :=
  s.exec limits label.1 = some (s', label.2)

end AzazelEdge.Broker
