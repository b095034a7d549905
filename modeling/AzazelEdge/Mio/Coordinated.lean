/-
# What every method of the coordinator keeps

A coordinator is `Sound` when its records say the same: a cycle in flight is the latest of its
trace and of the running epoch, what is latest is recorded, and every recorded cycle has an id that
was given out before.  It is `Bounded` when no more is recorded than its limits allow.  Each method
is a chain of a few moves, and each move keeps both.
-/
import AzazelEdge.Lib.PyDict
import AzazelEdge.Lib.PySettled
import AzazelEdge.Mio.Coordinator

namespace AzazelEdge.Mio

open AzazelEdge.Lib AzazelEdge.Lib.Py
open AzazelEdge.Audit (Row getKey_popKey popKey_keys_nodup)

/-! ## 1. Ids of cycles -/

/-- What ends in numbers behind a mark is cut there. -/
theorem append_digits_inj {s s' ds ds' : PyStr} {mark : CodePoint} (hmark : isDigit mark.val = false)
    (hds : ∀ c ∈ ds, isDigit c.val = true) (hds' : ∀ c ∈ ds', isDigit c.val = true)
    (h : s ++ mark :: ds = s' ++ mark :: ds') : s = s' ∧ ds = ds' := by
  have hcut : ∀ s ds : PyStr, (∀ c ∈ ds, isDigit c.val = true) →
      (s ++ mark :: ds).reverse.takeWhile (fun c => isDigit c.val) = ds.reverse := by
    intro s ds hds
    rw [List.reverse_append, List.reverse_cons, List.append_assoc, List.takeWhile_append_of_pos]
    · simp [hmark]
    · intro c hc
      exact hds c (List.mem_reverse.mp hc)
  have hsame : ds = ds' := by
    have := hcut s ds hds
    rw [h, hcut s' ds' hds'] at this
    exact (List.reverse_inj.mp this).symm
  rw [hsame] at h
  exact ⟨List.append_cancel_right h, hsame⟩

theorem digits_number (n : ℕ) : ∀ c ∈ ofText (natText n), isDigit c.val = true := by
  intro c hc
  obtain ⟨d, hd, rfl⟩ := List.mem_map.mp hc
  have hdigit := (digits_natText n).2 d hd
  have hsmall : d < 0x110000 := by
    simp only [isDigit, Bool.and_eq_true, decide_eq_true_eq] at hdigit
    omega
  rw [ofNat_lt hsmall]
  exact hdigit

theorem number_inj {n n' : ℕ} (h : ofText (natText n) = ofText (natText n')) : n = n' := by
  have hval : ∀ n, (ofText (natText n)).map Fin.val = natText n := by
    intro n
    rw [ofText, List.map_map]
    refine (List.map_congr_left fun d hd => ?_).trans (List.map_id _)
    have hdigit := (digits_natText n).2 d hd
    simp only [isDigit, Bool.and_eq_true, decide_eq_true_eq] at hdigit
    exact ofNat_lt (by omega)
  rw [← ofDigits_natText n, ← ofDigits_natText n', ← hval n, ← hval n', h]

/-- **An id says which trace, which epoch and which number it was given out for.** -/
theorem cycleIdOf_inj {traceId traceId' : PyStr} {epoch epoch' number number' : ℕ}
    (h : cycleIdOf traceId epoch number = cycleIdOf traceId' epoch' number') :
    traceId = traceId' ∧ epoch = epoch' ∧ number = number' := by
  have hcolon : pyStr ":c" = [58, 99] := by decide
  have hmark : pyStr ":e" = [58, 101] := by decide
  simp only [cycleIdOf, hcolon, hmark, List.append_assoc, List.cons_append, List.nil_append] at h
  have hleft : ∀ (t : PyStr) (e n : ℕ), t ++ (58 :: 101 :: (ofText (natText e) ++
      (58 :: 99 :: ofText (natText n)))) =
      (t ++ (58 :: 101 :: (ofText (natText e) ++ [58]))) ++ 99 :: ofText (natText n) := by
    intro t e n
    simp
  rw [hleft, hleft] at h
  obtain ⟨h, hnumber⟩ := append_digits_inj (by decide) (digits_number _) (digits_number _) h
  have hinner : ∀ (t : PyStr) (e : ℕ), t ++ (58 :: 101 :: (ofText (natText e) ++ [58])) =
      ((t ++ [58]) ++ 101 :: ofText (natText e)) ++ [58] := by
    intro t e
    simp
  rw [hinner, hinner] at h
  obtain ⟨h, hepoch⟩ := append_digits_inj (by decide) (digits_number _) (digits_number _)
    (List.append_cancel_right h)
  exact ⟨List.append_cancel_right h, number_inj hepoch, number_inj hnumber⟩

theorem cycleIdOf_ne_nil (traceId : PyStr) (epoch number : ℕ) :
    cycleIdOf traceId epoch number ≠ [] := by
  have hmark : pyStr ":e" = [58, 101] := by decide
  simp [cycleIdOf, hmark]

/-! ## 2. The invariants -/

variable {F : Type} {c : Coordinator F} {cycle old : Cycle} {traceId : PyStr}

/-- The records say the same. -/
structure Sound (c : Coordinator F) : Prop where
  nodup : (c.cycles.map Prod.fst).Nodup
  latest : ∀ traceId id, getKey traceId c.latest = some id →
    ∃ cycle, getKey id c.cycles = some cycle ∧ cycle.ticket.traceId = traceId
  flight : ∀ id cycle, getKey id c.cycles = some cycle → cycle.status = .inFlight →
    getKey cycle.ticket.traceId c.latest = some id ∧ cycle.ticket.epoch = c.epoch
  issued : ∀ id cycle, getKey id c.cycles = some cycle → cycle.ticket.cycleId = id ∧
    ∃ epoch number : ℕ, cycle.ticket.epoch = epoch ∧ epoch ≤ c.epoch ∧ number < c.nextCycle ∧
      id = cycleIdOf cycle.ticket.traceId epoch number
  current : ∀ traceId outcome, getKey traceId c.current = some outcome →
    (getKey traceId c.latest).isSome

/-- No more is recorded than the limits allow. -/
structure Bounded (c : Coordinator F) : Prop where
  flights : c.inFlight ≤ c.limits.maxTraces
  finished : c.finished.length ≤ c.limits.maxRetained
  rows : c.trail.rows.length ≤ c.limits.maxAudit

/-- A new coordinator. -/
theorem sound_new (limits : Limits) (epoch nextCycle : ℕ) :
    Sound ({ limits, epoch, nextCycle } : Coordinator F) := by
  constructor
  · exact List.nodup_nil
  · intro traceId id h
    cases h
  · intro id cycle h
    cases h
  · intro id cycle h
    cases h
  · intro traceId outcome h
    cases h

/-! ## 3. Moves that leave the cycles -/

variable {event : String} {fields : Row F} {who : Option Cycle} {cycleId : PyStr}
  {outcome : CycleOutcome}

theorem Sound.closeBroker (h : Sound c) : Sound (c.closeBroker cycleId) := by
  unfold Coordinator.closeBroker
  split
  · exact ⟨h.nodup, h.latest, h.flight, h.issued, h.current⟩
  · exact h

/-- A current advisory goes. -/
theorem Sound.popCurrent (h : Sound c) :
    Sound { c with current := popKey traceId c.current } := by
  refine ⟨h.nodup, h.latest, h.flight, h.issued, ?_⟩
  intro trace outcome hcurrent
  have hget := hcurrent
  simp only [getKey_popKey] at hget
  split_ifs at hget
  exact h.current trace outcome hget

/-- A trace with a latest cycle gets a current advisory. -/
theorem Sound.setCurrent (h : Sound c) (hlatest : (getKey traceId c.latest).isSome) :
    Sound { c with current := setKey traceId outcome c.current } := by
  refine ⟨h.nodup, h.latest, h.flight, h.issued, ?_⟩
  intro trace outcome hcurrent
  simp only [getKey_setKey] at hcurrent
  split_ifs at hcurrent with htrace
  · rw [← htrace]
    exact hlatest
  · exact h.current trace outcome hcurrent

@[simp] theorem closeBroker_cycles : (c.closeBroker cycleId).cycles = c.cycles := by
  unfold Coordinator.closeBroker
  split <;> rfl

@[simp] theorem closeBroker_latest : (c.closeBroker cycleId).latest = c.latest := by
  unfold Coordinator.closeBroker
  split <;> rfl

@[simp] theorem closeBroker_current : (c.closeBroker cycleId).current = c.current := by
  unfold Coordinator.closeBroker
  split <;> rfl

@[simp] theorem closeBroker_trail : (c.closeBroker cycleId).trail = c.trail := by
  unfold Coordinator.closeBroker
  split <;> rfl

@[simp] theorem closeBroker_limits : (c.closeBroker cycleId).limits = c.limits := by
  unfold Coordinator.closeBroker
  split <;> rfl

@[simp] theorem closeBroker_epoch : (c.closeBroker cycleId).epoch = c.epoch := by
  unfold Coordinator.closeBroker
  split <;> rfl

@[simp] theorem closeBroker_nextCycle : (c.closeBroker cycleId).nextCycle = c.nextCycle := by
  unfold Coordinator.closeBroker
  split <;> rfl

/-! ## 4. A recorded cycle changes -/

/-- The cycle is the record of its id. -/
def Recorded (c : Coordinator F) (cycle : Cycle) : Prop :=
  getKey cycle.ticket.cycleId c.cycles = some cycle

theorem Sound.recorded (h : Sound c) (hget : getKey cycleId c.cycles = some cycle) :
    Recorded c cycle := by
  rw [Recorded, (h.issued cycleId cycle hget).1]
  exact hget

/-- A record gets a new status and new notes; a cycle that was over keeps its status. -/
structure Changes (old cycle : Cycle) : Prop where
  ticket : cycle.ticket = old.ticket
  final : old.status ≠ .inFlight → cycle.status = old.status

theorem Changes.refl (cycle : Cycle) : Changes cycle cycle := ⟨rfl, fun _ => rfl⟩

theorem Changes.ended (h : Changes old cycle) (hstatus : cycle.status = .inFlight) :
    old.status = .inFlight := by
  by_contra hover
  exact hover ((h.final hover).symm.trans hstatus)

theorem Changes.trans {new : Cycle} (h : Changes old cycle) (h' : Changes cycle new) :
    Changes old new := by
  refine ⟨h'.ticket.trans h.ticket, fun hover => ?_⟩
  have hsame := h.final hover
  exact (h'.final (hsame ▸ hover)).trans hsame

/-- A cycle in flight may get any status. -/
theorem changes_of_flight (hticket : cycle.ticket = old.ticket) (hstatus : old.status = .inFlight) :
    Changes old cycle :=
  ⟨hticket, fun hover => absurd hstatus hover⟩

theorem Sound.put (h : Sound c) (hold : Recorded c old) (hchange : Changes old cycle) :
    Sound (c.put cycle) := by
  have hid : cycle.ticket.cycleId = old.ticket.cycleId := by rw [hchange.ticket]
  have hget : ∀ id found, getKey id (c.put cycle).cycles = some found →
      ∃ was, getKey id c.cycles = some was ∧ Changes was found := by
    intro id found hfound
    rw [Coordinator.put, getKey_setKey] at hfound
    split_ifs at hfound with hk
    · refine ⟨old, ?_, Option.some.inj hfound ▸ hchange⟩
      rw [← hk, hid]
      exact hold
    · exact ⟨found, hfound, Changes.refl found⟩
  constructor
  · exact setKey_keys_nodup h.nodup
  · intro traceId id hlatest
    obtain ⟨found, hfound, htrace⟩ := h.latest traceId id hlatest
    by_cases hk : cycle.ticket.cycleId = id
    · refine ⟨cycle, by rw [Coordinator.put, getKey_setKey, if_pos hk], ?_⟩
      have : found = old := by
        rw [← hk, hid, hold] at hfound
        exact (Option.some.inj hfound).symm
      rw [hchange.ticket, ← this]
      exact htrace
    · exact ⟨found, by rw [Coordinator.put, getKey_setKey, if_neg hk]; exact hfound, htrace⟩
  · intro id found hfound hstatus
    obtain ⟨was, hwas, hchanged⟩ := hget id found hfound
    rw [hchanged.ticket]
    exact h.flight id was hwas (hchanged.ended hstatus)
  · intro id found hfound
    obtain ⟨was, hwas, hchanged⟩ := hget id found hfound
    rw [hchanged.ticket]
    exact h.issued id was hwas
  · exact h.current

theorem mem_finished (h : Sound c) (hmem : cycle ∈ c.finished) :
    Recorded c cycle ∧ cycle.status ≠ .inFlight := by
  obtain ⟨hcycle, hstatus⟩ := List.mem_filter.mp hmem
  obtain ⟨⟨id, found⟩, hitem, rfl⟩ := List.mem_map.mp hcycle
  exact ⟨h.recorded (getKey_of_mem h.nodup hitem), of_decide_eq_true hstatus⟩

theorem finished_nodup (h : Sound c) : (c.finished.map (·.ticket.cycleId)).Nodup := by
  have hkeys : (c.cycles.map Prod.snd).map (·.ticket.cycleId) = c.cycles.map Prod.fst := by
    rw [List.map_map]
    refine List.map_congr_left fun item hitem => ?_
    exact (h.issued item.1 item.2 (getKey_of_mem h.nodup hitem)).1
  have hsub := (List.filter_sublist (p := fun cycle : Cycle => cycle.status ≠ .inFlight)
    (l := c.cycles.map Prod.snd)).map (·.ticket.cycleId)
  rw [hkeys] at hsub
  exact h.nodup.sublist hsub

/-! ## 5. Cycles are evicted -/

/-- The cycles that are evicted: records of cycles that are over, each once. -/
structure Evictable (c : Coordinator F) (gone : List Cycle) : Prop where
  recorded : ∀ cycle ∈ gone, Recorded c cycle
  ended : ∀ cycle ∈ gone, cycle.status ≠ .inFlight
  nodup : (gone.map (·.ticket.cycleId)).Nodup

theorem evictable_finished (h : Sound c) (n : ℕ) : Evictable c (c.finished.take n) := by
  constructor
  · intro cycle hmem
    exact (mem_finished h (List.mem_of_mem_take hmem)).1
  · intro cycle hmem
    exact (mem_finished h (List.mem_of_mem_take hmem)).2
  · rw [List.map_take]
    exact (finished_nodup h).sublist (List.take_sublist n _)

section Logged

variable [PyFloat F] [PyRepr F]

theorem Sound.log (h : Sound c) : Sound (c.log event who fields) :=
  ⟨h.nodup, h.latest, h.flight, h.issued, h.current⟩

theorem evict_cycles : (c.evict cycle).cycles = popKey cycle.ticket.cycleId c.cycles := by
  unfold Coordinator.evict Coordinator.forget
  dsimp only [Coordinator.log]
  split_ifs <;> rfl

theorem evict_latest : (c.evict cycle).latest =
    if getKey cycle.ticket.traceId c.latest = some cycle.ticket.cycleId then
      popKey cycle.ticket.traceId c.latest else c.latest := by
  unfold Coordinator.evict Coordinator.forget
  dsimp only [Coordinator.log]
  split_ifs <;> rfl

theorem evict_current : (c.evict cycle).current =
    if getKey cycle.ticket.traceId c.latest = some cycle.ticket.cycleId then
      popKey cycle.ticket.traceId c.current else c.current := by
  unfold Coordinator.evict Coordinator.forget
  dsimp only [Coordinator.log]
  split_ifs <;> rfl

@[simp] theorem evict_limits : (c.evict cycle).limits = c.limits := by
  unfold Coordinator.evict Coordinator.forget
  dsimp only [Coordinator.log]
  split_ifs <;> rfl

@[simp] theorem evict_epoch : (c.evict cycle).epoch = c.epoch := by
  unfold Coordinator.evict Coordinator.forget
  dsimp only [Coordinator.log]
  split_ifs <;> rfl

@[simp] theorem evict_nextCycle : (c.evict cycle).nextCycle = c.nextCycle := by
  unfold Coordinator.evict Coordinator.forget
  dsimp only [Coordinator.log]
  split_ifs <;> rfl

theorem evict_brokers : (c.evict cycle).brokers = c.brokers := by
  unfold Coordinator.evict Coordinator.forget
  dsimp only [Coordinator.log]
  split_ifs <;> rfl

theorem evict_closed : (c.evict cycle).closed = c.closed := by
  unfold Coordinator.evict Coordinator.forget
  dsimp only [Coordinator.log]
  split_ifs <;> rfl

/-- What is still recorded was recorded, under another id. -/
theorem getKey_evict {id : PyStr} {found : Cycle}
    (h : getKey id (c.evict cycle).cycles = some found) :
    getKey id c.cycles = some found ∧ cycle.ticket.cycleId ≠ id := by
  rw [evict_cycles, getKey_popKey] at h
  split_ifs at h with hid
  exact ⟨h, hid⟩

/-- **A cycle that is over goes without a trace of it.** -/
theorem Sound.evict (h : Sound c) (hrec : Recorded c cycle) : Sound (c.evict cycle) := by
  constructor
  · rw [evict_cycles]
    exact popKey_keys_nodup _ h.nodup
  · intro traceId id hlatest
    have hwas : getKey traceId c.latest = some id ∧ id ≠ cycle.ticket.cycleId := by
      rw [evict_latest] at hlatest
      split_ifs at hlatest with hown
      · rw [getKey_popKey] at hlatest
        split_ifs at hlatest with htrace
        refine ⟨hlatest, fun hid => ?_⟩
        obtain ⟨found, hfound, hfoundTrace⟩ := h.latest traceId id hlatest
        rw [hid, hrec] at hfound
        exact htrace (Option.some.inj hfound ▸ hfoundTrace)
      · refine ⟨hlatest, fun hid => hown ?_⟩
        obtain ⟨found, hfound, hfoundTrace⟩ := h.latest traceId id hlatest
        rw [hid, hrec] at hfound
        rw [Option.some.inj hfound, hfoundTrace, hlatest, hid]
        simp [← Option.some.inj hfound]
    obtain ⟨found, hfound, htrace⟩ := h.latest traceId id hwas.1
    refine ⟨found, ?_, htrace⟩
    rw [evict_cycles, getKey_popKey, if_neg fun heq => hwas.2 heq.symm]
    exact hfound
  · intro id found hfound hstatus
    obtain ⟨hwas, hne⟩ := getKey_evict hfound
    obtain ⟨hlatest, hepoch⟩ := h.flight id found hwas hstatus
    refine ⟨?_, by rw [evict_epoch]; exact hepoch⟩
    rw [evict_latest]
    split_ifs with hown
    · rw [getKey_popKey, if_neg]
      · exact hlatest
      · intro htrace
        rw [htrace, hlatest] at hown
        exact hne (Option.some.inj hown).symm
    · exact hlatest
  · intro id found hfound
    rw [evict_epoch, evict_nextCycle]
    exact h.issued id found (getKey_evict hfound).1
  · intro traceId outcome hcurrent
    rw [evict_current] at hcurrent
    rw [evict_latest]
    split_ifs at hcurrent ⊢ with hown
    · rw [getKey_popKey] at hcurrent ⊢
      split_ifs at hcurrent ⊢ with htrace
      exact h.current traceId outcome hcurrent
    · exact h.current traceId outcome hcurrent

theorem Evictable.tail {gone : List Cycle} (h : Evictable c (cycle :: gone)) :
    Evictable (c.evict cycle) gone := by
  obtain ⟨hnotin, hnodup⟩ := List.nodup_cons.mp h.nodup
  constructor
  · intro found hfound
    have hne : cycle.ticket.cycleId ≠ found.ticket.cycleId := by
      intro heq
      exact hnotin (List.mem_map.mpr ⟨found, hfound, heq.symm⟩)
    rw [Recorded, evict_cycles, getKey_popKey, if_neg hne]
    exact h.recorded found (List.mem_cons_of_mem _ hfound)
  · intro found hfound
    exact h.ended found (List.mem_cons_of_mem _ hfound)
  · exact hnodup

/-- What evicting one cycle keeps, evicting many keeps. -/
theorem Evictable.foldl {gone : List Cycle} {P : Coordinator F → Prop}
    (hstep : ∀ c cycle, P c → Recorded c cycle → cycle.status ≠ .inFlight → P (c.evict cycle))
    (h : Evictable c gone) (hP : P c) : P (gone.foldl Coordinator.evict c) := by
  induction gone generalizing c with
  | nil => exact hP
  | cons cycle gone ih =>
    rw [List.foldl_cons]
    exact ih h.tail (hstep c cycle hP (h.recorded cycle List.mem_cons_self)
      (h.ended cycle List.mem_cons_self))

theorem Sound.prune (h : Sound c) : Sound c.prune :=
  (evictable_finished h _).foldl (fun _ _ hsound hrec _ => hsound.evict hrec) h

/-- What evicting keeps, whatever goes, `_prune` keeps. -/
theorem prune_of {P : Coordinator F → Prop} (hP : ∀ c cycle, P c → P (c.evict cycle)) (h : P c) :
    P c.prune := by
  unfold Coordinator.prune
  generalize c.finished.take _ = gone
  induction gone generalizing c with
  | nil => exact h
  | cons cycle gone ih =>
    rw [List.foldl_cons]
    exact ih (hP c cycle h)

/-- What is recorded, and what is latest, was so before. -/
theorem prune_sub : (∀ id found, getKey id c.prune.cycles = some found →
      getKey id c.cycles = some found) ∧
    ∀ traceId id, getKey traceId c.prune.latest = some id → getKey traceId c.latest = some id := by
  refine prune_of (P := fun c' => (∀ id found, getKey id c'.cycles = some found →
      getKey id c.cycles = some found) ∧
    ∀ traceId id, getKey traceId c'.latest = some id → getKey traceId c.latest = some id)
    (fun c' cycle h => ⟨?_, ?_⟩) ⟨fun _ _ h => h, fun _ _ h => h⟩
  · intro id found hfound
    exact h.1 id found (getKey_evict hfound).1
  · intro traceId id hlatest
    refine h.2 traceId id ?_
    rw [evict_latest] at hlatest
    split_ifs at hlatest
    · rw [getKey_popKey] at hlatest
      split_ifs at hlatest
      exact hlatest
    · exact hlatest

theorem prune_keeps {α : Type} (g : Coordinator F → α)
    (hg : ∀ (c : Coordinator F) cycle, g (c.evict cycle) = g c) : g c.prune = g c :=
  prune_of (P := fun c' => g c' = g c) (fun c' cycle heq => (hg c' cycle).trans heq) rfl

theorem prune_current_nil (h : c.current = []) : c.prune.current = [] := by
  refine prune_of (P := fun c => c.current = []) (fun c cycle hnil => ?_) h
  rw [evict_current, hnil]
  split_ifs <;> rfl

@[simp] theorem prune_limits : c.prune.limits = c.limits :=
  prune_keeps Coordinator.limits fun _ _ => evict_limits

@[simp] theorem prune_epoch : c.prune.epoch = c.epoch :=
  prune_keeps Coordinator.epoch fun _ _ => evict_epoch

@[simp] theorem prune_nextCycle : c.prune.nextCycle = c.nextCycle :=
  prune_keeps Coordinator.nextCycle fun _ _ => evict_nextCycle

end Logged

/-! ## 6. A cycle is opened -/

theorem latestCycle_eq (h : Sound c) (traceId : PyStr) :
    c.latestCycle traceId = (getKey traceId c.latest).bind fun id => getKey id c.cycles := by
  unfold Coordinator.latestCycle
  cases hlatest : getKey traceId c.latest with
  | none => rfl
  | some id =>
    obtain ⟨cycle, hcycle, -⟩ := h.latest traceId id hlatest
    obtain ⟨-, epoch, number, -, -, -, hid⟩ := h.issued id cycle hcycle
    have hne : id ≠ [] := by
      rw [hid]
      exact cycleIdOf_ne_nil _ _ _
    simp [hne]

/-- The latest cycle of a trace is a record of the trace. -/
theorem recorded_latestCycle (h : Sound c) (hlatest : c.latestCycle traceId = some cycle) :
    Recorded c cycle ∧ cycle.ticket.traceId = traceId ∧
      getKey traceId c.latest = some cycle.ticket.cycleId := by
  rw [latestCycle_eq h] at hlatest
  cases hid : getKey traceId c.latest with
  | none =>
    rw [hid] at hlatest
    cases hlatest
  | some id =>
    rw [hid] at hlatest
    have hget : getKey id c.cycles = some cycle := hlatest
    obtain ⟨found, hfound, htrace⟩ := h.latest traceId id hid
    rw [hget] at hfound
    rw [Option.some.inj hfound, (h.issued id found (hfound ▸ hget)).1]
    refine ⟨h.recorded (hfound ▸ hget), htrace, rfl⟩

/-- A cycle in flight makes its trace busy. -/
theorem busy_of_flight (h : Sound c) (hrec : Recorded c cycle) (hstatus : cycle.status = .inFlight) :
    c.busy cycle.ticket.traceId = true := by
  have hlatest := (h.flight _ cycle hrec hstatus).1
  have hcycle : getKey cycle.ticket.cycleId c.cycles = some cycle := hrec
  rw [Coordinator.busy, latestCycle_eq h, hlatest, Option.bind_some, hcycle]
  simp [hstatus]

/-- No record has the id of the next cycle. -/
theorem mint_fresh (h : Sound c) (frame : Frame) :
    (c.mint frame).cycleId ∉ c.cycles.map Prod.fst := by
  rw [← getKey_eq_none]
  cases hget : getKey (c.mint frame).cycleId c.cycles with
  | none => rfl
  | some found =>
    obtain ⟨-, epoch, number, -, -, hnumber, hid⟩ := h.issued _ found hget
    have := (cycleIdOf_inj hid).2.2
    omega

/-- **A new cycle on a trace that has none in flight.** -/
theorem Sound.record {frame : Frame} (h : Sound c) (hfree : c.busy frame.traceId = false) :
    Sound (c.record (c.mint frame)) := by
  have hfresh := mint_fresh h frame
  have hget : ∀ id found, getKey id (c.record (c.mint frame)).cycles = some found →
      (id = (c.mint frame).cycleId ∧ found = { ticket := c.mint frame, status := .inFlight }) ∨
        (id ≠ (c.mint frame).cycleId ∧ getKey id c.cycles = some found) := by
    intro id found hfound
    rw [Coordinator.record, getKey_setKey] at hfound
    split_ifs at hfound with hid
    · exact .inl ⟨hid.symm, (Option.some.inj hfound).symm⟩
    · exact .inr ⟨fun heq => hid heq.symm, hfound⟩
  constructor
  · exact setKey_keys_nodup h.nodup
  · intro traceId id hlatest
    rw [Coordinator.record, getKey_setKey] at hlatest
    split_ifs at hlatest with htrace
    · refine ⟨{ ticket := c.mint frame, status := .inFlight }, ?_, htrace⟩
      rw [Coordinator.record, getKey_setKey, if_pos (Option.some.inj hlatest)]
    · obtain ⟨found, hfound, hfoundTrace⟩ := h.latest traceId id hlatest
      refine ⟨found, ?_, hfoundTrace⟩
      rw [Coordinator.record, getKey_setKey, if_neg]
      · exact hfound
      · rintro rfl
        exact hfresh (getKey_isSome.mp (by rw [hfound]; rfl))
  · intro id found hfound hstatus
    rcases hget id found hfound with ⟨rfl, rfl⟩ | ⟨hid, hwas⟩
    · refine ⟨?_, rfl⟩
      rw [Coordinator.record, getKey_setKey, if_pos rfl]
    · obtain ⟨hlatest, hepoch⟩ := h.flight id found hwas hstatus
      refine ⟨?_, hepoch⟩
      have hother : (c.mint frame).traceId ≠ found.ticket.traceId := by
        intro heq
        have hbusy := busy_of_flight h (h.recorded hwas) hstatus
        rw [← heq] at hbusy
        exact Bool.false_ne_true (hfree.symm.trans hbusy)
      rw [Coordinator.record, getKey_setKey, if_neg hother]
      exact hlatest
  · intro id found hfound
    rcases hget id found hfound with ⟨rfl, rfl⟩ | ⟨hid, hwas⟩
    · exact ⟨rfl, c.epoch, c.nextCycle, rfl, le_refl _, Nat.lt_succ_self _, rfl⟩
    · obtain ⟨hown, epoch, number, hepoch, hle, hlt, heq⟩ := h.issued id found hwas
      exact ⟨hown, epoch, number, hepoch, hle, Nat.lt_succ_of_lt hlt, heq⟩
  · intro traceId outcome hcurrent
    have hsome := h.current traceId outcome hcurrent
    rw [Coordinator.record, getKey_setKey]
    split_ifs
    · rfl
    · exact hsome

/-! ## 7. The methods keep the records sound -/

section Methods

variable [PyFloat F] [PyRepr F] {frame : Frame} {ticket : CycleTicket} {reason : PyStr}

theorem changes_displaced (old : Cycle) : Changes old old.displaced := by
  unfold Cycle.displaced
  split_ifs with hstatus
  · exact changes_of_flight rfl hstatus
  · exact Changes.refl old

theorem Sound.supersede (h : Sound c) (hrec : Recorded c old) : Sound (c.supersede old cycleId) := by
  unfold Coordinator.supersede
  split_ifs
  · exact ((h.put hrec (changes_displaced old)).log).closeBroker
  · exact h

theorem Sound.retire (h : Sound c) : Sound (c.retire old frame cycleId) := by
  unfold Coordinator.retire
  split_ifs
  · exact h.popCurrent.log
  · exact h

@[simp] theorem supersede_epoch : (c.supersede old cycleId).epoch = c.epoch := by
  unfold Coordinator.supersede
  split_ifs
  · simp [Coordinator.log, Coordinator.put]
  · rfl

@[simp] theorem supersede_nextCycle : (c.supersede old cycleId).nextCycle = c.nextCycle := by
  unfold Coordinator.supersede
  split_ifs
  · simp [Coordinator.log, Coordinator.put]
  · rfl

@[simp] theorem supersede_limits : (c.supersede old cycleId).limits = c.limits := by
  unfold Coordinator.supersede
  split_ifs
  · simp [Coordinator.log, Coordinator.put]
  · rfl

@[simp] theorem supersede_latest : (c.supersede old cycleId).latest = c.latest := by
  unfold Coordinator.supersede
  split_ifs
  · simp [Coordinator.log, Coordinator.put]
  · rfl

@[simp] theorem supersede_current : (c.supersede old cycleId).current = c.current := by
  unfold Coordinator.supersede
  split_ifs
  · simp [Coordinator.log, Coordinator.put]
  · rfl

/-- What `begin` does. -/
inductive Begins (c : Coordinator F) (frame : Frame) : Coordinator F × Option CycleTicket → Prop
  | same (old : Cycle) (hlatest : c.latestCycle frame.traceId = some old)
      (hstatus : old.status = .inFlight) (hdigest : old.ticket.materialDigest = frame.digest) :
      Begins c frame
        (c.log "frame_not_material" (some old) [(pyStr "new_frame_id", .str frame.frameId)],
          some { old.ticket with deduplicated := true })
  | full (hfree : c.busy frame.traceId = false) (hfull : c.limits.maxTraces ≤ c.inFlight) :
      Begins c frame
        (c.log "begin_rejected_backpressure" none
          [(pyStr "trace_id", .str frame.traceId), (pyStr "frame_id", .str frame.frameId)], none)
  | next (old : Cycle) (hlatest : c.latestCycle frame.traceId = some old)
      (hdigest : old.status = .inFlight → old.ticket.materialDigest ≠ frame.digest)
      (hroom : old.status ≠ .inFlight → c.inFlight < c.limits.maxTraces) :
      Begins c frame ((c.makeWay old frame).start (c.mint frame), some (c.mint frame))
  | first (hlatest : c.latestCycle frame.traceId = none) (hroom : c.inFlight < c.limits.maxTraces) :
      Begins c frame (c.start (c.mint frame), some (c.mint frame))

theorem begin_cases : Begins c frame (c.begin frame) := by
  unfold Coordinator.begin
  split
  · rename_i old hfilter
    obtain ⟨hlatest, hsame⟩ := Option.filter_eq_some_iff.mp hfilter
    rw [decide_eq_true_eq] at hsame
    exact .same old hlatest hsame.1 hsame.2
  · rename_i hfilter
    split_ifs with hfull
    · exact .full (Bool.eq_false_iff.mpr hfull.1) hfull.2
    · cases hlatest : c.latestCycle frame.traceId with
      | none =>
        have hfree : ¬ c.busy frame.traceId = true := by simp [Coordinator.busy, hlatest]
        exact .first hlatest (not_le.mp fun hle => hfull ⟨hfree, hle⟩)
      | some old =>
        refine .next old hlatest (fun hstatus hdigest => ?_) fun hstatus => ?_
        · rw [hlatest] at hfilter
          simp [Option.filter, hstatus, hdigest] at hfilter
        · have hfree : ¬ c.busy frame.traceId = true := by simp [Coordinator.busy, hlatest, hstatus]
          exact not_le.mp fun hle => hfull ⟨hfree, hle⟩

/-- What `cancel` does. -/
inductive Cancels (c : Coordinator F) (traceId reason : PyStr) : Coordinator F × Bool → Prop
  | cancelled (cycle : Cycle) (hget : getKey ((getKey traceId c.latest).getD []) c.cycles = some cycle)
      (hstatus : cycle.status = .inFlight) :
      Cancels c traceId reason
        ((((c.put cycle.cancelled).log "cycle_cancelled" (some cycle.cancelled)
          [(pyStr "reason", .str (reason.take 64))]).closeBroker cycle.ticket.cycleId).prune, true)
  | idle : Cancels c traceId reason (c, false)

theorem cancel_cases : Cancels c traceId reason (c.cancel traceId reason) := by
  unfold Coordinator.cancel
  split
  · rename_i cycle hfilter
    obtain ⟨hget, hstatus⟩ := Option.filter_eq_some_iff.mp hfilter
    exact .cancelled cycle hget (of_decide_eq_true hstatus)
  · exact .idle

/-- What `complete` does. -/
inductive Completes (c : Coordinator F) (outcome : CycleOutcome) :
    Option CycleTicket → Coordinator F × CompletionResult → Prop
  | accepted (ticket : CycleTicket) (cycle : Cycle)
      (hget : getKey ticket.cycleId c.cycles = some cycle) (hsame : SameCycle ticket cycle.ticket)
      (hepoch : ticket.epoch = c.epoch) (hstatus : cycle.status = .inFlight) :
      Completes c outcome (some ticket) (c.accept cycle outcome,
        { accepted := true, cycleStatus := word CycleStatus.accepted, reason := pyStr "current"
          outcome := some outcome })
  | discarded (ticket : CycleTicket) (cycle : Cycle)
      (hget : getKey ticket.cycleId c.cycles = some cycle) (hsame : SameCycle ticket cycle.ticket)
      (hstale : ticket.epoch ≠ c.epoch ∨ cycle.status ≠ .inFlight) (reason : StaleReason)
      (status : PyStr) :
      Completes c outcome (some ticket) (c.discard cycle ticket outcome reason,
        { accepted := false, cycleStatus := status, reason := word reason })
  | counted (ticket : Option CycleTicket)
      (hother : ∀ t, ticket = some t → ∀ cycle, getKey t.cycleId c.cycles = some cycle →
        ¬ SameCycle t cycle.ticket) (reason : StaleReason) (status : PyStr) :
      Completes c outcome ticket (c.count reason,
        { accepted := false, cycleStatus := status, reason := word reason })

omit [PyFloat F] [PyRepr F] in
/-- A ticket may complete the cycle in flight that it is the ticket of. -/
theorem staleReason_ok (h : c.staleReason ticket who = .ok cycle) :
    who = some cycle ∧ SameCycle ticket cycle.ticket ∧ ticket.epoch = c.epoch ∧
      cycle.status = .inFlight := by
  cases who with
  | none =>
    simp only [Coordinator.staleReason, Option.any_none, Option.filter_none] at h
    split_ifs at h
  | some found =>
    simp only [Coordinator.staleReason, Option.any_some] at h
    split_ifs at h with hsame hepoch
    by_cases hnow : ticket.epoch = c.epoch
    · simp only [Option.filter_some, hnow, decide_true, if_true] at h
      cases hstatus : found.status <;> rw [hstatus] at h <;> cases h
      exact ⟨rfl, by simpa using hsame, hnow, hstatus⟩
    · simp [Option.filter_some, hnow] at h

omit [PyFloat F] [PyRepr F] in
theorem staleReason_error {stale : StaleReason × PyStr} (h : c.staleReason ticket who = .error stale)
    (hwho : who = some cycle) (hsame : SameCycle ticket cycle.ticket) :
    ticket.epoch ≠ c.epoch ∨ cycle.status ≠ .inFlight := by
  by_contra hnot
  rw [not_or, not_not, not_not] at hnot
  rw [hwho] at h
  simp [Coordinator.staleReason, hsame, hnot.1, hnot.2, Option.filter_some] at h

theorem complete_cases (ticket : Option CycleTicket) :
    Completes c outcome ticket (c.complete ticket outcome) := by
  cases ticket with
  | none => exact .counted none (fun t ht => by cases ht) _ _
  | some ticket =>
    unfold Coordinator.complete
    dsimp only
    cases hstale : c.staleReason ticket (getKey ticket.cycleId c.cycles) with
    | ok cycle =>
      obtain ⟨hget, hsame, hepoch, hstatus⟩ := staleReason_ok hstale
      exact .accepted ticket cycle hget hsame hepoch hstatus
    | error stale =>
      obtain ⟨reason, status⟩ := stale
      cases hfilter : (getKey ticket.cycleId c.cycles).filter
          fun cycle => SameCycle ticket cycle.ticket with
      | some cycle =>
        obtain ⟨hget, hsame⟩ := Option.filter_eq_some_iff.mp hfilter
        have hsame := of_decide_eq_true hsame
        simp only
        exact .discarded ticket cycle hget hsame (staleReason_error hstale hget hsame) reason status
      | none =>
        refine .counted (some ticket) (fun t ht cycle hget hsame => ?_) reason status
        rw [Option.some.inj ht, hget] at hfilter
        simp [Option.filter, hsame] at hfilter

/-! ### The records -/

theorem displaced_status (old : Cycle) : old.displaced.status ≠ .inFlight := by
  unfold Cycle.displaced
  split_ifs with hstatus
  · intro h
    cases h
  · exact hstatus

theorem Sound.makeWay (h : Sound c) (hrec : Recorded c old) : Sound (c.makeWay old frame) :=
  (h.supersede hrec).retire

@[simp] theorem retire_cycles : (c.retire old frame cycleId).cycles = c.cycles := by
  unfold Coordinator.retire
  split_ifs <;> rfl

@[simp] theorem retire_latest : (c.retire old frame cycleId).latest = c.latest := by
  unfold Coordinator.retire
  split_ifs <;> rfl

@[simp] theorem retire_limits : (c.retire old frame cycleId).limits = c.limits := by
  unfold Coordinator.retire
  split_ifs <;> rfl

@[simp] theorem retire_epoch : (c.retire old frame cycleId).epoch = c.epoch := by
  unfold Coordinator.retire
  split_ifs <;> rfl

@[simp] theorem retire_nextCycle : (c.retire old frame cycleId).nextCycle = c.nextCycle := by
  unfold Coordinator.retire
  split_ifs <;> rfl

theorem makeWay_mint : (c.makeWay old frame).mint frame = c.mint frame := by
  simp [Coordinator.makeWay, Coordinator.mint]

theorem makeWay_cycles {id : PyStr} (hrec : Recorded c old) :
    getKey id (c.makeWay old frame).cycles =
      if old.ticket.cycleId = id then some old.displaced else getKey id c.cycles := by
  rw [Coordinator.makeWay, retire_cycles]
  have hticket := (changes_displaced old).ticket
  unfold Coordinator.supersede
  split_ifs with hstatus hid hid
  · simp [Coordinator.log, Coordinator.put, getKey_setKey, hticket, hid]
  · simp [Coordinator.log, Coordinator.put, getKey_setKey, hticket, hid]
  · rw [Cycle.displaced, if_neg hstatus, ← hid]
    exact hrec
  · rfl

/-- The trace is free for a new cycle. -/
theorem makeWay_free (h : Sound c) (hlatest : c.latestCycle frame.traceId = some old) :
    (c.makeWay old frame).busy frame.traceId = false := by
  obtain ⟨hrec, -, hid⟩ := recorded_latestCycle h hlatest
  cases hnew : (c.makeWay old frame).latestCycle frame.traceId with
  | none => simp [Coordinator.busy, hnew]
  | some found =>
    obtain ⟨hfound, -, hfoundId⟩ := recorded_latestCycle (h.makeWay hrec) hnew
    rw [Coordinator.makeWay, retire_latest, supersede_latest, hid] at hfoundId
    rw [Recorded, makeWay_cycles hrec, if_pos (Option.some.inj hfoundId)] at hfound
    simp [Coordinator.busy, hnew, ← Option.some.inj hfound, displaced_status]

theorem Sound.start (h : Sound c) (hfree : c.busy frame.traceId = false) :
    Sound (c.start (c.mint frame)) :=
  (h.record hfree).log.prune

theorem Begins.sound {result : Coordinator F × Option CycleTicket} (hbegin : Begins c frame result)
    (h : Sound c) : Sound result.1 := by
  cases hbegin with
  | same old hlatest hstatus hdigest => exact h.log
  | full hfree hfull => exact h.log
  | next old hlatest hdigest hroom =>
    have hway : Sound (c.makeWay old frame) := h.makeWay (recorded_latestCycle h hlatest).1
    have hstart := hway.start (makeWay_free h hlatest)
    rw [makeWay_mint] at hstart
    exact hstart
  | first hlatest hroom => exact h.start (by simp [Coordinator.busy, hlatest])

theorem Cancels.sound {result : Coordinator F × Bool} (hcancel : Cancels c traceId reason result)
    (h : Sound c) : Sound result.1 := by
  cases hcancel with
  | cancelled cycle hget hstatus =>
    have hchange : Changes cycle cycle.cancelled := changes_of_flight rfl hstatus
    exact ((h.put (h.recorded hget) hchange).log).closeBroker.prune
  | idle => exact h

theorem Sound.accept (h : Sound c) (hrec : Recorded c cycle) (hstatus : cycle.status = .inFlight) :
    Sound (c.accept cycle outcome) := by
  have hchange : Changes cycle (cycle.settledBy outcome) :=
    changes_of_flight rfl hstatus
  have hput := h.put hrec hchange
  have hlatest := (h.flight _ cycle hrec hstatus).1
  exact (hput.setCurrent (by rw [Coordinator.put, hlatest]; rfl)).log.prune

theorem Sound.discard {stale : StaleReason} (h : Sound c) (hrec : Recorded c cycle) :
    Sound (c.discard cycle ticket outcome stale) := by
  have hchange : Changes cycle cycle.refused := ⟨rfl, fun _ => rfl⟩
  have hput := h.put hrec hchange
  unfold Coordinator.discard
  split_ifs
  · exact hput.log
  · exact hput

theorem Completes.sound {offered : Option CycleTicket} {result : Coordinator F × CompletionResult}
    (hcomplete : Completes c outcome offered result) (h : Sound c) : Sound result.1 := by
  cases hcomplete with
  | accepted ticket cycle hget hsame hepoch hstatus => exact h.accept (h.recorded hget) hstatus
  | discarded ticket cycle hget hsame hstale reason status => exact h.discard (h.recorded hget)
  | counted ticket hother reason status =>
    exact ⟨h.nodup, h.latest, h.flight, h.issued, h.current⟩

omit [PyFloat F] [PyRepr F] in
theorem Sound.attachBroker {broker : ℕ} (h : Sound c) : Sound (c.attachBroker ticket broker) := by
  have hattached : Sound { c with brokers := setKey ticket.cycleId broker c.brokers } :=
    ⟨h.nodup, h.latest, h.flight, h.issued, h.current⟩
  unfold Coordinator.attachBroker
  dsimp only
  split_ifs
  · exact hattached
  · exact hattached.closeBroker

end Methods

end AzazelEdge.Mio
