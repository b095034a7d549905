/-
# Capability handlers stay bounded

A handler that runs is counted as in flight, or in the quarantine: the submit that gives it up
counts it there before it frees the slot.  A call whose handler has returned may still be counted,
in either counter or for a moment in none, and a late submit may count it in the quarantine again;
but an admission needs room in the sum of both, so the calls that may run a handler stay within the
bounds.

* `CallOk`: which places the two threads of a call can be at together;
* `Inv`: what the counters and the semaphores are the sum of;
* `handlers_bounded`: the bounds, and what is left when all threads have ended.

A worker counts itself out behind its handler, so the counters are zero when no worker thread runs,
and not yet when no handler does (`counted_behind_handler`).
-/
import AzazelEdge.Lib.Run
import AzazelEdge.Lib.Tally
import AzazelEdge.Broker.Workers

namespace AzazelEdge.Broker

open AzazelEdge.Lib

/-! ## 1. What a call holds -/

@[grind] def WorkerPc.isFreeing : WorkerPc → Bool
  | .freeing _ => true
  | _ => false

@[grind] def SubmitPc.isFreeing : SubmitPc → Bool
  | .freeing _ _ => true
  | _ => false

/-- What is next to be freed, of a slot whose release has begun. -/
@[grind] def Call.frees (c : Call) : Option Freeing :=
  match c.worker, c.submit with
  | .freeing what, _ => some what
  | _, .freeing what _ => some what
  | _, _ => none

/-- The call is counted in flight. -/
@[grind] def Call.inFlightUnits (c : Call) : ℤ := if c.released = false ∨ c.frees.isSome then 1 else 0

/-- It holds a global slot. -/
@[grind] def Call.globalUnits (c : Call) : ℤ :=
  if c.released = false ∨ c.frees = some .capability ∨ c.frees = some .global then 1 else 0

/-- It holds a slot of its capability. -/
@[grind] def Call.capabilityUnits (c : Call) : ℤ :=
  if c.released = false ∨ c.frees = some .capability then 1 else 0

/-- It is counted in the quarantine. -/
@[grind] def Call.quarantinedUnits (c : Call) : ℤ := if c.hung = true ∧ c.done = false then 1 else 0

/-- Its handler runs, or may yet be started. -/
@[grind] def Call.activeUnits (c : Call) : ℤ := if c.worker = .running ∨ c.submit = .starting then 1 else 0

/-- Where the two threads of a call can be together. -/
structure CallOk (c : Call) : Prop where
  starting : c.submit = .starting → c.worker = .idle ∧ c.released = false ∧ c.hung = false
  idle : c.worker = .idle → c.hung = false ∧ c.done = false ∧
    c.submit ≠ .waiting ∧ c.submit ≠ .woken ∧ ∀ closed, c.submit ≠ .left closed
  unreleased : c.released = false → (c.worker = .idle ∨ c.worker = .running ∨ c.worker = .release) ∧
    c.submit.isFreeing = false ∧ ∀ result, c.submit ≠ .returned result
  released : c.released = true → c.worker = .running ∨ c.worker = .release → c.hung = true
  one : c.worker.isFreeing = true → c.submit.isFreeing = false
  done : c.done = true ↔ c.worker = .ended
  waiting : c.submit = .waiting ∨ c.submit = .woken ∨ (∃ closed, c.submit = .left closed) →
    c.hung = false
  givenUp : ∀ result, c.submit = .release result → c.worker ≠ .idle → c.hung = true

theorem Call.new_ok (broker : ℕ) (capability : String) : CallOk (Call.new broker capability) where
  starting _ := ⟨rfl, rfl, rfl⟩
  idle _ := ⟨rfl, rfl, by simp [Call.new], by simp [Call.new], by simp [Call.new]⟩
  unreleased _ := ⟨Or.inl rfl, rfl, by simp [Call.new]⟩
  released h := by cases h
  one h := by cases h
  done := by simp [Call.new]
  waiting _ := rfl
  givenUp _ h := by cases h

attribute [grind] Freeing.next Freeing.effect

variable {op : CallOp} {closed : Bool} {c c' : Call} {e : Effect}

/-- What a step adds to the counters is what it changes of the call's part in them. -/
structure Accounted (c c' : Call) (e : Effect) : Prop where
  broker : c'.broker = c.broker
  capability : c'.capability = c.capability
  inFlight : e.inFlight = c'.inFlightUnits - c.inFlightUnits
  quarantined : e.quarantined = c'.quarantinedUnits - c.quarantinedUnits
  globalSlots : -e.globalSlots = c'.globalUnits - c.globalUnits
  capabilitySlots : -e.capabilitySlots = c'.capabilityUnits - c.capabilityUnits
  freed : 0 ≤ e.globalSlots ∧ 0 ≤ e.capabilitySlots
  active : c'.activeUnits ≤ c.activeUnits

theorem Call.inFlightUnits_nonneg (c : Call) : 0 ≤ c.inFlightUnits := by
  unfold Call.inFlightUnits
  split <;> decide

theorem Call.quarantinedUnits_nonneg (c : Call) : 0 ≤ c.quarantinedUnits := by
  unfold Call.quarantinedUnits
  split <;> decide

theorem Call.globalUnits_nonneg (c : Call) : 0 ≤ c.globalUnits := by
  unfold Call.globalUnits
  split <;> decide

theorem Call.capabilityUnits_nonneg (c : Call) : 0 ≤ c.capabilityUnits := by
  unfold Call.capabilityUnits
  split <;> decide

/-- A running handler is counted. -/
theorem CallOk.counted (h : CallOk c) : c.activeUnits ≤ c.inFlightUnits + c.quarantinedUnits := by
  have hinFlight := c.inFlightUnits_nonneg
  have hquarantined := c.quarantinedUnits_nonneg
  unfold Call.activeUnits
  split
  · rename_i hactive
    cases hreleased : c.released with
    | false =>
      have : c.inFlightUnits = 1 := if_pos (Or.inl hreleased)
      omega
    | true =>
      have hrunning : c.worker = .running := by
        refine hactive.resolve_right fun hstarting => ?_
        have := (h.starting hstarting).2.1
        rw [hreleased] at this
        cases this
      have hdone : c.done = false := by
        by_contra hdone
        have hended := h.done.mp (by simpa using hdone)
        rw [hrunning] at hended
        cases hended
      have : c.quarantinedUnits = 1 :=
        if_pos ⟨h.released hreleased (Or.inl hrunning), hdone⟩
      omega
  · omega

/-- **One step of a call**: the places stay possible, and the counters move with the call. -/
theorem callStep_ok (h : CallOk c) (hstep : callStep op closed c = some (c', e)) :
    CallOk c' ∧ Accounted c c' e := by
  obtain ⟨broker, capability, released, done, hung, outcome, worker, submit⟩ := c
  obtain ⟨hstarting, hidle, hunreleased, hreleased, hone, hdone, hwaiting, hgivenUp⟩ := h
  dsimp only at hstarting hidle hunreleased hreleased hone hdone hwaiting hgivenUp
  cases op with
  | starts =>
    simp only [callStep, Option.ite_none_right_eq_some, Option.some.injEq, Prod.mk.injEq] at hstep
    obtain ⟨rfl, rfl, rfl⟩ := hstep
    obtain ⟨rfl, rfl, rfl⟩ := hstarting rfl
    exact ⟨by constructor <;> grind -ring -linarith, by constructor <;> grind -ring -linarith⟩
  | startFails =>
    simp only [callStep, Option.ite_none_right_eq_some, Option.some.injEq, Prod.mk.injEq] at hstep
    obtain ⟨rfl, rfl, rfl⟩ := hstep
    obtain ⟨rfl, rfl, rfl⟩ := hstarting rfl
    exact ⟨by constructor <;> grind -ring -linarith, by constructor <;> grind -ring -linarith⟩
  | handlerEnds outcome =>
    simp only [callStep, Option.ite_none_right_eq_some, Option.some.injEq, Prod.mk.injEq] at hstep
    obtain ⟨rfl, rfl, rfl⟩ := hstep
    exact ⟨by constructor <;> grind -ring -linarith, by constructor <;> grind -ring -linarith⟩
  | workerReleases =>
    simp only [callStep, Option.ite_none_right_eq_some] at hstep
    obtain ⟨rfl, hstep⟩ := hstep
    split at hstep <;> obtain ⟨rfl, rfl⟩ := Prod.mk.inj (Option.some.inj hstep)
    · exact ⟨by constructor <;> grind -ring -linarith, by constructor <;> grind -ring -linarith⟩
    · exact ⟨by constructor <;> grind -ring -linarith, by constructor <;> grind -ring -linarith⟩
  | workerFrees =>
    cases worker with
    | freeing what =>
      obtain ⟨rfl, rfl⟩ := Prod.mk.inj (Option.some.inj hstep)
      cases what
      all_goals
        exact ⟨by constructor <;> grind -ring -linarith, by constructor <;> grind -ring -linarith⟩
    | _ => cases hstep
  | workerMarks =>
    simp only [callStep, Option.ite_none_right_eq_some, Option.some.injEq, Prod.mk.injEq] at hstep
    obtain ⟨rfl, rfl, rfl⟩ := hstep
    exact ⟨by constructor <;> grind -ring -linarith, by constructor <;> grind -ring -linarith⟩
  | wakes =>
    simp only [callStep, Option.ite_none_right_eq_some, Option.some.injEq, Prod.mk.injEq] at hstep
    obtain ⟨rfl, rfl, rfl⟩ := hstep
    exact ⟨by constructor <;> grind -ring -linarith, by constructor <;> grind -ring -linarith⟩
  | leaves =>
    simp only [callStep, Option.ite_none_right_eq_some, Option.some.injEq, Prod.mk.injEq] at hstep
    obtain ⟨rfl, rfl, rfl⟩ := hstep
    exact ⟨by constructor <;> grind -ring -linarith, by constructor <;> grind -ring -linarith⟩
  | judges =>
    cases submit with
    | left cycleClosed =>
      simp only [callStep] at hstep
      split at hstep <;> obtain ⟨rfl, rfl⟩ := Prod.mk.inj (Option.some.inj hstep)
      · exact ⟨by constructor <;> grind -ring -linarith, by constructor <;> grind -ring -linarith⟩
      · exact ⟨by constructor <;> grind -ring -linarith, by constructor <;> grind -ring -linarith⟩
    | _ => cases hstep
  | submitReleases =>
    cases submit with
    | release result =>
      simp only [callStep] at hstep
      split at hstep <;> obtain ⟨rfl, rfl⟩ := Prod.mk.inj (Option.some.inj hstep)
      · exact ⟨by constructor <;> grind -ring -linarith, by constructor <;> grind -ring -linarith⟩
      · exact ⟨by constructor <;> grind -ring -linarith, by constructor <;> grind -ring -linarith⟩
    | _ => cases hstep
  | submitFrees =>
    cases submit with
    | freeing what result =>
      obtain ⟨rfl, rfl⟩ := Prod.mk.inj (Option.some.inj hstep)
      cases what
      all_goals
        exact ⟨by constructor <;> grind -ring -linarith, by constructor <;> grind -ring -linarith⟩
    | _ => cases hstep

/-! ## 2. Sums over the calls -/

/-- Whether a bound is about this capability: the total is about all. -/
def covers : Option String → String → Bool
  | none, _ => true
  | some name, capability => name = capability

/-- The part of the calls that a bound is about, in this measure. -/
def part (k : Option String) (units : Call → ℤ) (c : Call) : ℤ :=
  if covers k c.capability then units c else 0

/-- How many live handlers there may be, in total or of a capability. -/
def Limits.bound (limits : Limits) : Option String → ℤ
  | none => limits.maxQuarantined
  | some name => (limits.registry name).elim 0 fun spec => spec.maxConcurrency

/-- The initial value of a semaphore. -/
def Limits.slots (limits : Limits) : Option String → ℤ
  | none => limits.maxInFlight
  | some name => (limits.registry name).elim 0 fun spec => spec.maxConcurrency

/-- How many handlers a broker may start. -/
def Limits.budget (limits : Limits) : Option String → ℕ
  | none => limits.maxTotalCalls
  | some name => (limits.registry name).elim 0 fun spec => spec.maxCallsPerCycle.toNat

def Family.inFlightOf (s : Family) : Option String → ℤ
  | none => s.inFlight
  | some name => s.inFlightPerCapability name

def Family.quarantinedOf (s : Family) : Option String → ℤ
  | none => s.quarantined
  | some name => s.quarantinedPerCapability name

def Family.slotsOf (s : Family) : Option String → ℤ
  | none => s.globalSlots
  | some name => s.capabilitySlots name

def Effect.slots (e : Effect) : Option String → ℤ
  | none => e.globalSlots
  | some _ => e.capabilitySlots

def Call.slotUnits (k : Option String) (c : Call) : ℤ :=
  match k with
  | none => c.globalUnits
  | some _ => c.capabilityUnits

theorem Call.slotUnits_nonneg (k : Option String) (c : Call) : 0 ≤ c.slotUnits k := by
  cases k with
  | none => exact c.globalUnits_nonneg
  | some name => exact c.capabilityUnits_nonneg

def Cycle.callsOf (cycle : Cycle) : Option String → ℕ
  | none => cycle.totalCalls
  | some name => cycle.perCapabilityCalls name

variable {s t : Family} {k : Option String} {capability : String} {i b : ℕ}

theorem add_inFlightOf : (s.add capability e).inFlightOf k =
    s.inFlightOf k + if covers k capability then e.inFlight else 0 := by
  cases k with
  | none => simp [Family.add, Family.inFlightOf, covers]
  | some name =>
    by_cases h : name = capability
    · simp [Family.add, Family.inFlightOf, covers, bump, h]
    · simp [Family.add, Family.inFlightOf, covers, bump, h]

theorem add_quarantinedOf : (s.add capability e).quarantinedOf k =
    s.quarantinedOf k + if covers k capability then e.quarantined else 0 := by
  cases k with
  | none => simp [Family.add, Family.quarantinedOf, covers]
  | some name =>
    by_cases h : name = capability
    · simp [Family.add, Family.quarantinedOf, covers, bump, h]
    · simp [Family.add, Family.quarantinedOf, covers, bump, h]

theorem add_slotsOf : (s.add capability e).slotsOf k =
    s.slotsOf k + if covers k capability then e.slots k else 0 := by
  cases k with
  | none => simp [Family.add, Family.slotsOf, covers, Effect.slots]
  | some name =>
    by_cases h : name = capability
    · simp [Family.add, Family.slotsOf, covers, bump, Effect.slots, h]
    · simp [Family.add, Family.slotsOf, covers, bump, h]

/-- The part of a broker. -/
def ofBroker (b : ℕ) (k : Option String) (c : Call) : ℤ :=
  if c.broker = b ∧ covers k c.capability then 1 else 0

/-- **The invariant of a family.** -/
structure Inv (limits : Limits) (s : Family) : Prop where
  calls : ∀ c ∈ s.calls, CallOk c
  inFlight : ∀ k, s.inFlightOf k = tally (part k Call.inFlightUnits) s.calls
  quarantined : ∀ k, s.quarantinedOf k = tally (part k Call.quarantinedUnits) s.calls
  slots : ∀ k, s.slotsOf k + tally (part k (Call.slotUnits k)) s.calls = limits.slots k
  free : ∀ k, 0 ≤ s.slotsOf k
  active : ∀ k, tally (part k Call.activeUnits) s.calls ≤ limits.bound k
  brokers : ∀ c ∈ s.calls, c.broker < s.brokers.length
  counted : ∀ (b : ℕ) (cycle : Cycle), s.brokers[b]? = some cycle →
    ∀ k, tally (ofBroker b k) s.calls = cycle.callsOf k
  budget : ∀ cycle ∈ s.brokers, ∀ k, cycle.callsOf k ≤ limits.budget k

variable {limits : Limits}

theorem bound_nonneg (limits : Limits) (k : Option String) : 0 ≤ limits.bound k := by
  cases k with
  | none => exact Int.natCast_nonneg _
  | some name =>
    change 0 ≤ (limits.registry name).elim 0 _
    cases limits.registry name with
    | none => exact le_refl _
    | some spec => exact Int.natCast_nonneg _

theorem slots_nonneg (limits : Limits) (k : Option String) : 0 ≤ limits.slots k := by
  cases k with
  | none => exact Int.natCast_nonneg _
  | some name => exact bound_nonneg limits (some name)

theorem inv_init (limits : Limits) : Inv limits (Family.init limits) where
  calls c hc := by cases hc
  inFlight k := by cases k <;> rfl
  quarantined k := by cases k <;> rfl
  slots k := by cases k <;> exact Int.add_zero _
  free k := slots_nonneg limits k
  active k := bound_nonneg limits k
  brokers c hc := by cases hc
  counted b cycle hcycle k := by
    obtain rfl : cycle = Cycle.new false := by
      have := List.mem_of_getElem? hcycle
      simpa [Family.init] using this
    cases k <;> rfl
  budget cycle hcycle k := by
    obtain rfl : cycle = Cycle.new false := by simpa [Family.init] using hcycle
    cases k <;> exact Nat.zero_le _

/-- What a step adds to a sum over the calls. -/
theorem tally_part_set {units : Call → ℤ} (hi : s.calls[i]? = some c)
    (hcapability : c'.capability = c.capability) :
    tally (part k units) (s.calls.set i c') = tally (part k units) s.calls +
      if covers k c.capability then units c' - units c else 0 := by
  rw [tally_set hi, part, part, hcapability]
  split
  · rfl
  · rfl

/-- **One step of a thread keeps the invariant.** -/
theorem Inv.called (h : Inv limits s) (hi : s.calls[i]? = some c)
    (hstep : callStep op closed c = some (c', e)) :
    Inv limits { s.add c.capability e with calls := s.calls.set i c' } := by
  obtain ⟨hc', haccounted⟩ := callStep_ok (h.calls c (List.mem_of_getElem? hi)) hstep
  have hcapability := haccounted.capability
  constructor
  · intro d hd
    obtain hd | rfl := List.mem_or_eq_of_mem_set hd
    · exact h.calls d hd
    · exact hc'
  · intro k
    rw [tally_part_set hi hcapability, ← haccounted.inFlight, ← h.inFlight k]
    exact add_inFlightOf
  · intro k
    rw [tally_part_set hi hcapability, ← haccounted.quarantined, ← h.quarantined k]
    exact add_quarantinedOf
  · intro k
    have hslots : -e.slots k = Call.slotUnits k c' - Call.slotUnits k c := by
      cases k with
      | none => exact haccounted.globalSlots
      | some name => exact haccounted.capabilitySlots
    have hadd : (s.add c.capability e).slotsOf k =
        s.slotsOf k + if covers k c.capability then e.slots k else 0 := add_slotsOf
    rw [tally_part_set hi hcapability, ← hslots, ← h.slots k]
    change (s.add c.capability e).slotsOf k + _ = _
    rw [hadd]
    split <;> omega
  · intro k
    have hfree := h.free k
    have heffect : 0 ≤ e.slots k := by
      cases k with
      | none => exact haccounted.freed.1
      | some name => exact haccounted.freed.2
    refine le_of_le_of_eq ?_ add_slotsOf.symm
    split <;> omega
  · intro k
    have hactive := haccounted.active
    have hbound := h.active k
    rw [tally_part_set hi hcapability]
    split <;> omega
  · intro d hd
    obtain hd | rfl := List.mem_or_eq_of_mem_set hd
    · exact h.brokers d hd
    · rw [haccounted.broker]
      exact h.brokers c (List.mem_of_getElem? hi)
  · intro b cycle hcycle k
    rw [← h.counted b cycle hcycle k, tally_set hi, ofBroker, ofBroker, haccounted.broker, hcapability]
    omega
  · exact h.budget

variable {cycle : Cycle} {spec : Spec} {broker : ℕ}

/-- **An admission needs room**: in the counters, in the semaphores, and in the budgets. -/
theorem refusal_none (h : refusal limits s cycle capability spec = none) :
    cycle.closed = false ∧ cycle.totalCalls < limits.maxTotalCalls ∧
      cycle.perCapabilityCalls capability < spec.maxCallsPerCycle ∧
      s.quarantined + s.inFlight < limits.maxQuarantined ∧
      s.quarantinedPerCapability capability + s.inFlightPerCapability capability
        < spec.maxConcurrency ∧
      0 < s.globalSlots ∧ 0 < s.capabilitySlots capability := by
  unfold refusal at h
  split_ifs at h with h1 h2 h3 h4 h5 h6 h7
  exact ⟨by simpa using h1, by omega, by omega, by omega, by omega, by omega, by omega⟩

theorem callsOf_counted {cycle : Cycle} {capability : String} (k : Option String) :
    Cycle.callsOf { cycle with
      totalCalls := cycle.totalCalls + 1
      perCapabilityCalls := fun name =>
        if name = capability then cycle.perCapabilityCalls name + 1
        else cycle.perCapabilityCalls name } k =
      cycle.callsOf k + if covers k capability then 1 else 0 := by
  cases k with
  | none => simp [Cycle.callsOf, covers]
  | some name =>
    by_cases h : name = capability
    · simp [Cycle.callsOf, covers, h]
    · simp [Cycle.callsOf, covers, h]

theorem Call.new_units (broker : ℕ) (capability : String) :
    (Call.new broker capability).inFlightUnits = 1 ∧
      (Call.new broker capability).quarantinedUnits = 0 ∧
      (Call.new broker capability).activeUnits = 1 ∧
      ∀ k, (Call.new broker capability).slotUnits k = 1 :=
  ⟨rfl, rfl, rfl, fun k => by cases k <;> rfl⟩

/-- **An admission keeps the invariant.** -/
theorem Inv.admitted (h : Inv limits s) (hbroker : s.brokers[broker]? = some cycle)
    (hspec : limits.registry capability = some spec)
    (hroom : refusal limits s cycle capability spec = none) :
    Inv limits (s.admitCall broker cycle capability) := by
  obtain ⟨-, htotal, hper, hsum, hsumOf, hglobal, hcapability⟩ := refusal_none hroom
  obtain ⟨hinFlight, hquarantined, hactive, hslot⟩ := Call.new_units broker capability
  have hadd : ∀ {units : Call → ℤ} (k : Option String),
      tally (part k units) (s.calls ++ [Call.new broker capability]) =
        tally (part k units) s.calls +
          if covers k capability then units (Call.new broker capability) else 0 :=
    fun k => tally_concat
  have hlt : broker < s.brokers.length := (List.getElem?_eq_some_iff.mp hbroker).1
  constructor
  · intro d hd
    obtain hd | hd := List.mem_append.mp hd
    · exact h.calls d hd
    · rw [List.mem_singleton.mp hd]
      exact Call.new_ok broker capability
  · intro k
    refine Eq.trans add_inFlightOf ?_
    rw [h.inFlight k]
    refine Eq.trans ?_ (hadd k).symm
    rw [hinFlight]
  · intro k
    refine Eq.trans add_quarantinedOf ?_
    rw [h.quarantined k]
    refine Eq.trans ?_ (hadd k).symm
    rw [hquarantined]
  · intro k
    have hslots := h.slots k
    have hfree := @add_slotsOf { inFlight := 1, globalSlots := -1, capabilitySlots := -1 } s k
      capability
    have heffect : Effect.slots { inFlight := 1, globalSlots := -1, capabilitySlots := -1 } k = -1 := by
      cases k <;> rfl
    have hheld := @hadd (Call.slotUnits k) k
    rw [hslot k] at hheld
    rw [heffect] at hfree
    refine Eq.trans (congrArg₂ (· + ·) hfree hheld) ?_
    split <;> omega
  · intro k
    have hfree := h.free k
    refine le_of_le_of_eq ?_ add_slotsOf.symm
    split
    · rename_i hcovers
      cases k with
      | none =>
        change 0 ≤ s.globalSlots + -1
        omega
      | some name =>
        obtain rfl : name = capability := by simpa [covers] using hcovers
        change 0 ≤ s.capabilitySlots name + -1
        omega
    · omega
  · intro k
    have hbound := h.active k
    have hnew := @hadd Call.activeUnits k
    rw [hactive] at hnew
    refine le_of_eq_of_le hnew ?_
    have hcounted : tally (part k Call.activeUnits) s.calls ≤
        s.inFlightOf k + s.quarantinedOf k := by
      rw [h.inFlight k, h.quarantined k, ← tally_add]
      refine tally_le fun d hd => ?_
      have := (h.calls d hd).counted
      unfold part
      split <;> omega
    split
    · rename_i hcovers
      cases k with
      | none =>
        change _ ≤ s.inFlight + s.quarantined at hcounted
        change _ ≤ (limits.maxQuarantined : ℤ)
        omega
      | some name =>
        obtain rfl : name = capability := by simpa [covers] using hcovers
        have : limits.bound (some name) = spec.maxConcurrency := by
          simp [Limits.bound, hspec]
        change _ ≤ s.inFlightPerCapability name + s.quarantinedPerCapability name at hcounted
        omega
    · omega
  · intro d hd
    change d.broker < (s.brokers.set broker _).length
    rw [List.length_set]
    obtain hd | hd := List.mem_append.mp hd
    · exact h.brokers d hd
    · rw [List.mem_singleton.mp hd]
      exact hlt
  · intro b cycle' hcycle' k
    refine Eq.trans tally_concat ?_
    by_cases hb : broker = b
    · subst hb
      obtain rfl := Option.some.inj ((List.getElem?_set_self hlt).symm.trans hcycle')
      rw [callsOf_counted, h.counted broker cycle hbroker k]
      simp [ofBroker, Call.new]
    · rw [h.counted b cycle' ((List.getElem?_set_ne hb).symm.trans hcycle') k]
      simp [ofBroker, Call.new, hb]
  · intro cycle' hcycle' k
    obtain hcycle' | rfl := List.mem_or_eq_of_mem_set hcycle'
    · exact h.budget cycle' hcycle' k
    · rw [callsOf_counted]
      have hbudget := h.budget cycle (List.mem_of_getElem? hbroker) k
      split
      · rename_i hcovers
        cases k with
        | none => exact htotal
        | some name =>
          obtain rfl : name = capability := by simpa [covers] using hcovers
          have : limits.budget (some name) = spec.maxCallsPerCycle.toNat := by
            simp [Limits.budget, hspec]
          change cycle.perCapabilityCalls name + 1 ≤ _
          omega
      · exact hbudget

/-- A new cycle starts with no calls. -/
theorem Inv.newCycle (h : Inv limits s) (closed : Bool) :
    Inv limits { s with brokers := s.brokers ++ [Cycle.new closed] } where
  calls := h.calls
  inFlight := h.inFlight
  quarantined := h.quarantined
  slots := h.slots
  free := h.free
  active := h.active
  brokers d hd := by
    rw [List.length_append]
    exact Nat.lt_add_right _ (h.brokers d hd)
  counted b cycle hcycle k := by
    obtain hlt | hge := lt_or_ge b s.brokers.length
    · rw [List.getElem?_append_left hlt] at hcycle
      exact h.counted b cycle hcycle k
    · rw [List.getElem?_append_right hge] at hcycle
      obtain rfl : cycle = Cycle.new closed := by
        simpa using List.mem_of_getElem? hcycle
      have hnone : tally (ofBroker b k) s.calls = 0 := by
        refine tally_zero fun d hd => if_neg fun hd' => ?_
        have := h.brokers d hd
        omega
      rw [hnone]
      cases k <;> rfl
  budget cycle hcycle k := by
    obtain hcycle | hcycle := List.mem_append.mp hcycle
    · exact h.budget cycle hcycle k
    · rw [List.mem_singleton.mp hcycle]
      cases k <;> exact Nat.zero_le _

theorem Inv.closes (h : Inv limits s) (hbroker : s.brokers[broker]? = some cycle) :
    Inv limits { s with brokers := s.brokers.set broker { cycle with closed := true } } where
  calls := h.calls
  inFlight := h.inFlight
  quarantined := h.quarantined
  slots := h.slots
  free := h.free
  active := h.active
  brokers d hd := by
    rw [List.length_set]
    exact h.brokers d hd
  counted b cycle' hcycle' k := by
    by_cases hb : broker = b
    · subst hb
      have hlt := (List.getElem?_eq_some_iff.mp hbroker).1
      obtain rfl := Option.some.inj ((List.getElem?_set_self hlt).symm.trans hcycle')
      rw [h.counted broker cycle hbroker k]
      cases k <;> rfl
    · exact h.counted b cycle' ((List.getElem?_set_ne hb).symm.trans hcycle') k
  budget cycle' hcycle' k := by
    obtain hcycle' | rfl := List.mem_or_eq_of_mem_set hcycle'
    · exact h.budget cycle' hcycle' k
    · have := h.budget cycle (List.mem_of_getElem? hbroker) k
      cases k <;> exact this

variable {label : Op × Answer} {ls : List (Op × Answer)}

/-- What a step of the family can do. -/
inductive Moves (limits : Limits) (s : Family) : Op × Answer → Family → Prop
  | newCycle {broker : ℕ} {cycle : Cycle} (hbroker : s.brokers[broker]? = some cycle) :
    Moves limits s (.forNewCycle broker, .done)
      { s with brokers := s.brokers ++ [Cycle.new cycle.closed] }
  | closes {broker : ℕ} {cycle : Cycle} (hbroker : s.brokers[broker]? = some cycle) :
    Moves limits s (.close broker, .done)
      { s with brokers := s.brokers.set broker { cycle with closed := true } }
  | rejects (broker : ℕ) (capability reason : String) :
    Moves limits s (.submit broker capability, .rejected reason) s
  | admits {broker : ℕ} {cycle : Cycle} {capability : String} {spec : Spec}
    (hbroker : s.brokers[broker]? = some cycle) (hspec : limits.registry capability = some spec)
    (hroom : refusal limits s cycle capability spec = none) :
    Moves limits s (.submit broker capability, .admitted) (s.admitCall broker cycle capability)
  | calls {i : ℕ} {op : CallOp} {c c' : Call} {e : Effect} (hi : s.calls[i]? = some c)
    (hcall : callStep op ((s.brokers[c.broker]?).any (·.closed)) c = some (c', e)) :
    Moves limits s (.step i op, .done) { s.add c.capability e with calls := s.calls.set i c' }

theorem moves_of_step (hstep : s.Step limits label t) : Moves limits s label t := by
  obtain ⟨op, answer⟩ := label
  change s.exec limits op = some (t, answer) at hstep
  cases op with
  | forNewCycle broker =>
    obtain ⟨cycle, hcycle, hstep⟩ := Option.map_eq_some_iff.mp hstep
    obtain ⟨rfl, rfl⟩ := Prod.mk.inj hstep
    exact .newCycle hcycle
  | close broker =>
    obtain ⟨cycle, hcycle, hstep⟩ := Option.map_eq_some_iff.mp hstep
    obtain ⟨rfl, rfl⟩ := Prod.mk.inj hstep
    exact .closes hcycle
  | submit broker capability =>
    obtain ⟨cycle, hcycle, hstep⟩ := Option.map_eq_some_iff.mp hstep
    split at hstep
    · obtain ⟨rfl, rfl⟩ := Prod.mk.inj hstep
      exact .rejects broker capability _
    · rename_i spec hspec
      split at hstep
      · obtain ⟨rfl, rfl⟩ := Prod.mk.inj hstep
        exact .rejects broker capability _
      · rename_i hroom
        obtain ⟨rfl, rfl⟩ := Prod.mk.inj hstep
        exact .admits hcycle hspec hroom
  | step call op =>
    obtain ⟨c, hc, hstep⟩ := Option.bind_eq_some_iff.mp hstep
    obtain ⟨⟨c', e⟩, hcall, hstep⟩ := Option.map_eq_some_iff.mp hstep
    obtain ⟨rfl, rfl⟩ := Prod.mk.inj hstep
    exact .calls hc hcall

/-- **One step of the family keeps the invariant.** -/
theorem Inv.step (h : Inv limits s) (hstep : s.Step limits label t) : Inv limits t := by
  cases moves_of_step hstep with
  | newCycle hbroker => exact h.newCycle _
  | closes hbroker => exact h.closes hbroker
  | rejects broker capability reason => exact h
  | admits hbroker hspec hroom => exact h.admitted hbroker hspec hroom
  | calls hi hcall => exact h.called hi hcall

/-- **Every run keeps it.** -/
theorem inv_run (h : Run (Family.Step limits) (Family.init limits) ls s) : Inv limits s :=
  h.invariant (fun _ _ _ hs hstep => hs.step hstep) (inv_init limits)

/-! ## 4. The slot of a call -/

/-- The step frees one part of the slot. -/
def CallOp.frees : CallOp → Bool
  | .workerFrees | .submitFrees => true
  | _ => false

/-- The label frees one part of the slot of this call. -/
def freesOf (i : ℕ) : Op × Answer → Bool
  | (.step call op, _) => call = i && op.frees
  | _ => false

/-- The parts of its slot that a call still holds. -/
def Call.heldUnits (c : Call) : ℤ := c.capabilityUnits + c.globalUnits + c.inFlightUnits

theorem Call.heldUnits_nonneg (c : Call) : 0 ≤ c.heldUnits :=
  add_nonneg (add_nonneg c.capabilityUnits_nonneg c.globalUnits_nonneg) c.inFlightUnits_nonneg

theorem callStep_frees (h : CallOk c) (hstep : callStep op closed c = some (c', e)) :
    c'.heldUnits + (if op.frees then 1 else 0) = c.heldUnits := by
  obtain ⟨-, haccounted⟩ := callStep_ok h hstep
  have hcapability := haccounted.capabilitySlots
  have hglobal := haccounted.globalSlots
  have hinFlight := haccounted.inFlight
  have heffect : e.capabilitySlots + e.globalSlots - e.inFlight = if op.frees then 1 else 0 := by
    cases op with
    | workerFrees =>
      simp only [callStep] at hstep
      split at hstep
      · rename_i what _
        obtain ⟨-, rfl⟩ := Prod.mk.inj (Option.some.inj hstep)
        cases what <;> rfl
      · cases hstep
    | submitFrees =>
      simp only [callStep] at hstep
      split at hstep
      · rename_i what result _
        obtain ⟨-, rfl⟩ := Prod.mk.inj (Option.some.inj hstep)
        cases what <;> rfl
      · cases hstep
    | _ => grind [callStep, CallOp.frees]
  unfold Call.heldUnits
  omega

/-- The call is there, and the rest of its slot is what the run has not freed. -/
def FreedSoFar (i : ℕ) (ls : List (Op × Answer)) (s : Family) : Prop :=
  match s.calls[i]? with
  | none => ls.countP (freesOf i) = 0
  | some c => (ls.countP (freesOf i) : ℤ) + c.heldUnits = 3

/-- **Each part of a slot is freed once**: the run lemma. -/
theorem freed_run (h : Run (Family.Step limits) (Family.init limits) ls s) (i : ℕ) :
    Inv limits s ∧ FreedSoFar i ls s := by
  refine h.history (P := fun ls s => Inv limits s ∧ FreedSoFar i ls s) ?_ ⟨inv_init limits, rfl⟩
  intro ls s label t ⟨hinv, hfreed⟩ hstep
  refine ⟨hinv.step hstep, ?_⟩
  -- Only a step of this call frees a part, and only an admission adds a call.
  have hsame : freesOf i label = false → s.calls[i]? = t.calls[i]? →
      FreedSoFar i (ls ++ [label]) t := by
    intro hfrees hcalls
    unfold FreedSoFar at hfreed ⊢
    rw [List.countP_append, List.countP_singleton, hfrees, ← hcalls]
    exact hfreed
  cases moves_of_step hstep with
  | newCycle hbroker => exact hsame rfl rfl
  | closes hbroker => exact hsame rfl rfl
  | rejects broker capability reason => exact hsame rfl rfl
  | @admits broker cycle capability spec hbroker hspec hroom =>
    obtain hlt | rfl | hgt := lt_trichotomy i s.calls.length
    · exact hsame rfl (List.getElem?_append_left hlt).symm
    · have hnone : s.calls[s.calls.length]? = none := List.getElem?_eq_none (le_refl _)
      have hnew : (s.admitCall broker cycle capability).calls[s.calls.length]? =
          some (Call.new broker capability) := List.getElem?_concat_length
      unfold FreedSoFar at hfreed ⊢
      rw [hnone] at hfreed
      rw [hnew, List.countP_append, List.countP_singleton]
      change ((List.countP _ ls + 0 : ℕ) : ℤ) + 3 = 3
      dsimp only at hfreed
      omega
    · refine hsame rfl ?_
      rw [List.getElem?_eq_none (le_of_lt hgt)]
      refine (List.getElem?_eq_none ?_).symm
      change (s.calls ++ [_]).length ≤ i
      rw [List.length_append]
      exact hgt
  | @calls call op c c' e hc hcall =>
    by_cases hi : call = i
    · subst hi
      have hlt := (List.getElem?_eq_some_iff.mp hc).1
      have hstepFrees := callStep_frees (hinv.calls c (List.mem_of_getElem? hc)) hcall
      have hfreesOf : freesOf call (.step call op, Answer.done) = op.frees := by simp [freesOf]
      unfold FreedSoFar at hfreed ⊢
      rw [hc] at hfreed
      rw [List.getElem?_set_self hlt, List.countP_append, List.countP_singleton, hfreesOf]
      dsimp only at hfreed ⊢
      split at hstepFrees
      · rename_i hfrees
        rw [if_pos hfrees]
        omega
      · rename_i hfrees
        rw [if_neg hfrees]
        omega
    · refine hsame ?_ (List.getElem?_set_ne hi).symm
      simp [freesOf, hi]

/-- The submit has returned, and its worker has not started or has ended. -/
def Call.over (c : Call) : Prop :=
  (∃ result, c.submit = .returned result) ∧ (c.worker = .idle ∨ c.worker = .ended)

/-- **A call that is over holds nothing.** -/
theorem CallOk.over (h : CallOk c) (hover : c.over) :
    c.inFlightUnits = 0 ∧ c.quarantinedUnits = 0 ∧ c.globalUnits = 0 ∧ c.capabilityUnits = 0 := by
  obtain ⟨⟨result, hsubmit⟩, hworker⟩ := hover
  have hreleased : c.released = true := by
    by_contra hreleased
    exact (h.unreleased (by simpa using hreleased)).2.2 result hsubmit
  have hfrees : c.frees = none := by
    unfold Call.frees
    rw [hsubmit]
    obtain hworker | hworker := hworker <;> rw [hworker]
  have hquarantined : ¬(c.hung = true ∧ c.done = false) := by
    rintro ⟨hhung, hdone⟩
    obtain hworker | hworker := hworker
    · rw [(h.idle hworker).1] at hhung
      cases hhung
    · rw [h.done.mpr hworker] at hdone
      cases hdone
  refine ⟨?_, if_neg hquarantined, ?_, ?_⟩
  · simp [Call.inFlightUnits, hreleased, hfrees]
  · simp [Call.globalUnits, hreleased, hfrees]
  · simp [Call.capabilityUnits, hreleased, hfrees]

/-! ## 5. A closed cycle -/

def Family.isClosed (s : Family) (broker : ℕ) : Prop :=
  (s.brokers[broker]?).any (·.closed) = true

theorem isClosed_iff : s.isClosed broker ↔
    ∃ cycle, s.brokers[broker]? = some cycle ∧ cycle.closed = true := by
  unfold Family.isClosed
  cases s.brokers[broker]? with
  | none => simp
  | some cycle => simp

theorem isClosed_set (hbroker : s.brokers[broker]? = some cycle) {cycle' : Cycle}
    (hkept : cycle.closed = true → cycle'.closed = true) (h : s.isClosed b) :
    ((s.brokers.set broker cycle')[b]?).any (·.closed) = true := by
  by_cases hb : broker = b
  · subst hb
    have hlt := (List.getElem?_eq_some_iff.mp hbroker).1
    unfold Family.isClosed at h
    rw [hbroker] at h
    rw [List.getElem?_set_self hlt]
    exact hkept h
  · rw [List.getElem?_set_ne hb]
    exact h

/-- **A closed broker stays closed.** -/
theorem isClosed_step (hstep : s.Step limits label t) (h : s.isClosed b) : t.isClosed b := by
  cases moves_of_step hstep with
  | newCycle hbroker =>
    obtain ⟨cycle, hcycle, hclosed⟩ := isClosed_iff.mp h
    refine isClosed_iff.mpr ⟨cycle, ?_, hclosed⟩
    have hlt := (List.getElem?_eq_some_iff.mp hcycle).1
    exact (List.getElem?_append_left hlt).trans hcycle
  | closes hbroker => exact isClosed_set hbroker (fun _ => rfl) h
  | rejects broker capability reason => exact h
  | admits hbroker hspec hroom => exact isClosed_set hbroker (fun hclosed => hclosed) h
  | calls hi hcall => exact h

/-- **A closed broker admits nothing.** -/
theorem not_admitted (h : Run (Family.Step limits) s ls t) (hclosed : s.isClosed b) :
    ∀ capability, (Op.submit b capability, Answer.admitted) ∉ ls := by
  intro capability hmem
  induction h with
  | refl => cases hmem
  | @head s u t label ls hstep _ ih =>
    obtain rfl | hmem := List.mem_cons.mp hmem
    · cases moves_of_step hstep with
      | admits hbroker hspec hroom =>
        obtain ⟨cycle, hcycle, hclosed⟩ := isClosed_iff.mp hclosed
        obtain rfl := Option.some.inj (hbroker.symm.trans hcycle)
        rw [(refusal_none hroom).1] at hclosed
        cases hclosed
    · exact ih (isClosed_step hstep hclosed) hmem

/-- The submit is past its wait, and what it read or is to return is that its cycle is over. -/
def SubmitPc.isStale : SubmitPc → Bool
  | .woken => true
  | .left cycleClosed => cycleClosed
  | .release result | .freeing _ result | .returned result => result = .stale
  | .starting | .waiting => false

theorem callStep_stale (h : c.submit.isStale = true) (hstep : callStep op true c = some (c', e)) :
    c'.submit.isStale = true ∧ c'.broker = c.broker := by
  obtain ⟨broker, capability, released, done, hung, outcome, worker, submit⟩ := c
  cases op with
  | submitFrees =>
    cases submit with
    | freeing what result => cases what <;> grind [callStep, SubmitPc.isStale, Freeing.next]
    | _ => cases hstep
  | _ => grind [callStep, SubmitPc.isStale]

/-- A call whose wait ended when its broker was closed. -/
def EndedStale (s : Family) (i : ℕ) : Prop :=
  ∃ c, s.calls[i]? = some c ∧ s.isClosed c.broker ∧ c.submit.isStale = true

theorem endedStale_step (hstep : s.Step limits label t) (h : EndedStale s i) : EndedStale t i := by
  obtain ⟨c, hc, hclosed, hstale⟩ := h
  have hlt := (List.getElem?_eq_some_iff.mp hc).1
  have hclosed' := isClosed_step hstep hclosed
  cases moves_of_step hstep with
  | newCycle hbroker => exact ⟨c, hc, hclosed', hstale⟩
  | closes hbroker => exact ⟨c, hc, hclosed', hstale⟩
  | rejects broker capability reason => exact ⟨c, hc, hclosed', hstale⟩
  | admits hbroker hspec hroom =>
    exact ⟨c, (List.getElem?_append_left hlt).trans hc, hclosed', hstale⟩
  | @calls call op d d' e hd hcall =>
    by_cases hi : call = i
    · subst hi
      obtain rfl := Option.some.inj (hd.symm.trans hc)
      rw [show (s.brokers[d.broker]?).any (·.closed) = true from hclosed] at hcall
      obtain ⟨hstale', hbroker⟩ := callStep_stale hstale hcall
      exact ⟨d', List.getElem?_set_self hlt, by rw [hbroker]; exact hclosed', hstale'⟩
    · exact ⟨c, (List.getElem?_set_ne hi).trans hc, hclosed', hstale⟩

/-- **A submit whose wait ends after the close of its broker is stale.** -/
theorem stale_run {ls' : List (Op × Answer)} {u : Family} {answer : Answer}
    (hc : s.calls[i]? = some c) (hclosed : s.isClosed c.broker)
    (hwakes : s.Step limits (.step i .wakes, answer) t)
    (h : Run (Family.Step limits) t ls' u) : EndedStale u i := by
  refine h.invariant (I := fun s => EndedStale s i)
    (fun _ _ _ hs hstep => endedStale_step hstep hs) ?_
  have hclosed' := isClosed_step hwakes hclosed
  have hlt := (List.getElem?_eq_some_iff.mp hc).1
  cases moves_of_step hwakes with
  | @calls _ _ d d' e hd hcall =>
    obtain rfl := Option.some.inj (hd.symm.trans hc)
    simp only [callStep, Option.ite_none_right_eq_some, Option.some.injEq, Prod.mk.injEq] at hcall
    obtain ⟨-, rfl, rfl⟩ := hcall
    exact ⟨_, List.getElem?_set_self hlt, hclosed', rfl⟩

/-! ## 6. Capability handlers stay bounded -/

/-- The handlers that run, in total or of a capability. -/
def Family.executing (s : Family) (k : Option String) : ℕ :=
  s.calls.countP fun c => c.worker = .running ∧ covers k c.capability

/-- The handlers that a broker started. -/
def Family.started (s : Family) (b : ℕ) (k : Option String) : ℕ :=
  s.calls.countP fun c => c.worker ≠ .idle ∧ c.broker = b ∧ covers k c.capability

theorem Inv.executing_le (h : Inv limits s) (k : Option String) :
    (s.executing k : ℤ) ≤ limits.bound k := by
  refine le_trans ?_ (h.active k)
  unfold Family.executing
  rw [← tally_countP]
  refine tally_le fun c _ => ?_
  simp only [part, Call.activeUnits]
  grind

theorem Inv.started_le (h : Inv limits s) (hb : b < s.brokers.length) (k : Option String) :
    s.started b k ≤ limits.budget k := by
  have hcycle : s.brokers[b]? = some s.brokers[b] := List.getElem?_eq_getElem hb
  have hcounted := h.counted b _ hcycle k
  have hbudget := h.budget _ (List.mem_of_getElem? hcycle) k
  have hle : (s.started b k : ℤ) ≤ tally (ofBroker b k) s.calls := by
    unfold Family.started
    rw [← tally_countP]
    refine tally_le fun c _ => ?_
    simp only [ofBroker]
    grind
  omega

theorem Inv.counters_nonneg (h : Inv limits s) (k : Option String) :
    0 ≤ s.inFlightOf k ∧ 0 ≤ s.quarantinedOf k ∧ 0 ≤ s.slotsOf k ∧ s.slotsOf k ≤ limits.slots k := by
  have hpart : ∀ units : Call → ℤ, (∀ c, 0 ≤ units c) → 0 ≤ tally (part k units) s.calls := by
    intro units hunits
    refine tally_nonneg fun c _ => ?_
    have := hunits c
    unfold part
    split <;> omega
  have hslots := h.slots k
  have hheld := hpart (Call.slotUnits k) fun c => c.slotUnits_nonneg k
  rw [h.inFlight k, h.quarantined k]
  exact ⟨hpart _ Call.inFlightUnits_nonneg, hpart _ Call.quarantinedUnits_nonneg, h.free k, by omega⟩

/-- When every call is over, nothing is counted and every slot is free. -/
theorem Inv.quiescent (h : Inv limits s) (hover : ∀ c ∈ s.calls, c.over) (k : Option String) :
    s.inFlightOf k = 0 ∧ s.quarantinedOf k = 0 ∧ s.slotsOf k = limits.slots k := by
  have hpart : ∀ units : Call → ℤ, (∀ c ∈ s.calls, units c = 0) →
      tally (part k units) s.calls = 0 := by
    intro units hunits
    refine tally_zero fun c hc => ?_
    unfold part
    rw [hunits c hc, ite_self]
  have hholds := fun c hc => (h.calls c hc).over (hover c hc)
  have hslots := h.slots k
  have hheld : tally (part k (Call.slotUnits k)) s.calls = 0 := by
    refine hpart _ fun c hc => ?_
    cases k with
    | none => exact (hholds c hc).2.2.1
    | some name => exact (hholds c hc).2.2.2
  refine ⟨?_, ?_, by omega⟩
  · exact (h.inFlight k).trans (hpart _ fun c hc => (hholds c hc).1)
  · exact (h.quarantined k).trans (hpart _ fun c hc => (hholds c hc).2.1)

/-- **Capability handlers stay bounded.**  In every run: the handlers that run are at most
`max_quarantined`, and of a capability at most its `max_concurrency`; a broker starts at most what
its budgets allow; no counter is negative, and no semaphore has more than it began with; each of
the three parts of an admitted slot is freed at most once, and once when the call is over; when
every call is over, the counters are zero and the semaphores as they began; a submit whose wait
ends after the close of its broker returns stale, with no data; and a closed broker admits none. -/
theorem handlers_bounded (limits : Limits) {ls : List (Op × Answer)} {s : Family}
    (h : Run (Family.Step limits) (Family.init limits) ls s) :
    (∀ k, (s.executing k : ℤ) ≤ limits.bound k) ∧
    (∀ b, b < s.brokers.length → ∀ k, s.started b k ≤ limits.budget k) ∧
    (∀ k, 0 ≤ s.inFlightOf k ∧ 0 ≤ s.quarantinedOf k ∧
      0 ≤ s.slotsOf k ∧ s.slotsOf k ≤ limits.slots k) ∧
    (∀ i c, s.calls[i]? = some c →
      ls.countP (freesOf i) ≤ 3 ∧ (c.over → ls.countP (freesOf i) = 3)) ∧
    ((∀ c ∈ s.calls, c.over) →
      ∀ k, s.inFlightOf k = 0 ∧ s.quarantinedOf k = 0 ∧ s.slotsOf k = limits.slots k) ∧
    (∀ i c answer t ls' u, s.calls[i]? = some c → s.isClosed c.broker →
      s.Step limits (.step i .wakes, answer) t → Run (Family.Step limits) t ls' u →
      ∀ c', u.calls[i]? = some c' → ∀ result, c'.submit = .returned result →
        result = .stale ∧ result.hasData = false) ∧
    (∀ b, s.isClosed b → ∀ ls' u, Run (Family.Step limits) s ls' u →
      ∀ capability, (Op.submit b capability, Answer.admitted) ∉ ls') := by
  have hinv := inv_run h
  refine ⟨hinv.executing_le, fun b hb => hinv.started_le hb, hinv.counters_nonneg, ?_,
    hinv.quiescent, ?_, fun b hclosed ls' u hrun => not_admitted hrun hclosed⟩
  · intro i c hc
    have hfreed := (freed_run h i).2
    unfold FreedSoFar at hfreed
    rw [hc] at hfreed
    dsimp only at hfreed
    refine ⟨?_, fun hover => ?_⟩
    · have := c.heldUnits_nonneg
      omega
    · obtain ⟨hinFlight, -, hglobal, hcapability⟩ :=
        (hinv.calls c (List.mem_of_getElem? hc)).over hover
      unfold Call.heldUnits at hfreed
      omega
  · intro i c answer t ls' u hc hclosed hwakes hrun c' hc' result hresult
    obtain ⟨d, hd, -, hstale⟩ := stale_run hc hclosed hwakes hrun
    obtain rfl := Option.some.inj (hd.symm.trans hc')
    rw [hresult] at hstale
    obtain rfl : result = .stale := by simpa [SubmitPc.isStale] using hstale
    exact ⟨rfl, rfl⟩

/-! ## 7. Two runs -/

/-- The steps one after the other; none when one cannot be taken or answers another thing. -/
def Family.replay (limits : Limits) (s : Family) : List (Op × Answer) → Option Family
  | [] => some s
  | (op, answer) :: ls =>
    match s.exec limits op with
    | some (t, answer') => if answer' = answer then t.replay limits ls else none
    | none => none

theorem run_of_replay (h : s.replay limits ls = some t) : Run (Family.Step limits) s ls t := by
  induction ls generalizing s with
  | nil =>
    obtain rfl := Option.some.inj h
    exact Run.refl s
  | cons label ls ih =>
    obtain ⟨op, answer⟩ := label
    unfold Family.replay at h
    split at h
    · rename_i u answer' hexec
      split at h
      · rename_i hanswer
        subst hanswer
        exact Run.head hexec (ih h)
      · cases h
    · cases h

/-- One read of the evidence at a time, and one live handler. -/
def sampleLimits : Limits where
  registry name := if name = "evidence_lookup" then some ⟨2, 1, by decide⟩ else none
  maxTotalCalls := 4
  maxInFlight := 4
  maxQuarantined := 4
  inFlight_ok := by decide
  quarantined_ok := by decide

/-- The wait ends by its timeout and the handler returns, before the worker counts itself out. -/
def timedOut : List (Op × Answer) :=
  [(.submit 0 "evidence_lookup", .admitted), (.step 0 .starts, .done), (.step 0 .wakes, .done),
    (.step 0 .leaves, .done), (.step 0 .judges, .done), (.step 0 .submitReleases, .done),
    (.step 0 .submitFrees, .done), (.step 0 .submitFrees, .done), (.step 0 .submitFrees, .done),
    (.step 0 (.handlerEnds .raw), .done)]

theorem handlers_bounded_sample : ∃ s,
    Run (Family.Step sampleLimits) (Family.init sampleLimits) timedOut s ∧
      (s.executing none : ℤ) ≤ sampleLimits.bound none :=
  have hreplay : ((Family.init sampleLimits).replay sampleLimits timedOut).isSome := by decide
  have hrun := run_of_replay (Option.some_get hreplay).symm
  ⟨_, hrun, (handlers_bounded sampleLimits hrun).1 none⟩

/-- **A worker counts itself out behind its handler.**  No handler runs and every submit has
returned, but one is still in the quarantine. -/
theorem counted_behind_handler : ∃ ls s,
    Run (Family.Step sampleLimits) (Family.init sampleLimits) ls s ∧
      (∀ c ∈ s.calls, c.worker ≠ .running ∧ ∃ result, c.submit = .returned result) ∧
      s.quarantined = 1 := by
  have hreplay : ((Family.init sampleLimits).replay sampleLimits timedOut).map
      (fun s => (s.calls, s.quarantined)) =
      some ([⟨0, "evidence_lookup", true, false, true, .raw, .release, .returned .timeout⟩], 1) := by
    decide
  obtain ⟨s, hs, hparts⟩ := Option.map_eq_some_iff.mp hreplay
  obtain ⟨hcalls, hquarantined⟩ := Prod.mk.inj hparts
  refine ⟨timedOut, s, run_of_replay hs, fun c hc => ?_, hquarantined⟩
  rw [hcalls] at hc
  obtain rfl := List.mem_singleton.mp hc
  exact ⟨by decide, .timeout, rfl⟩

end AzazelEdge.Broker
