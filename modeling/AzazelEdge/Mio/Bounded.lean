/-
# What the coordinator keeps in memory

Counted move by move: cycles in flight, cycles that are over, rows of the audit.  `_prune` leaves
`max_retained_cycles` cycles that are over, a new cycle is only opened where one in flight made way
or there is room, and each row that is too many pushes one out.

The rows are numbered without a gap and end at the last number given out, so the log is always the
end of what was written (`Numbered`).
-/
import AzazelEdge.Mio.Coordinated
import Mathlib.Logic.Relation
import Mathlib.Tactic.Ring

namespace AzazelEdge.Mio

open AzazelEdge.Lib AzazelEdge.Lib.Py
open AzazelEdge.Audit (Row popKey_keys_nodup)
open Relation (ReflTransGen)

/-! ## 1. Counting the cycles -/

variable {F : Type} {c : Coordinator F} {cycle old : Cycle}

theorem finished_length : c.finished.length = c.cycles.countP (·.2.status ≠ .inFlight) := by
  rw [Coordinator.finished, ← List.countP_eq_length_filter, List.countP_map]
  rfl

theorem put_inFlight (hrec : Recorded c old) (hticket : cycle.ticket = old.ticket) :
    (c.put cycle).inFlight + (if old.status = .inFlight then 1 else 0) =
      c.inFlight + if cycle.status = .inFlight then 1 else 0 := by
  rw [Recorded, ← hticket] at hrec
  simpa [Coordinator.inFlight, Coordinator.put] using
    countP_setKey_old (p := fun item => item.2.status = .inFlight) (v := cycle) hrec

theorem put_finished (hrec : Recorded c old) (hticket : cycle.ticket = old.ticket) :
    (c.put cycle).finished.length + (if old.status = .inFlight then 0 else 1) =
      c.finished.length + if cycle.status = .inFlight then 0 else 1 := by
  rw [Recorded, ← hticket] at hrec
  have := countP_setKey_old (p := fun item => item.2.status ≠ .inFlight) (v := cycle) hrec
  rw [finished_length, finished_length]
  simpa [Coordinator.put] using this

/-- A record that keeps its status counts as before. -/
theorem put_same (hrec : Recorded c old) (hticket : cycle.ticket = old.ticket)
    (hstatus : cycle.status = old.status) :
    (c.put cycle).inFlight = c.inFlight ∧
      (c.put cycle).finished.length = c.finished.length := by
  have hflights := put_inFlight hrec hticket
  have hfinished := put_finished hrec hticket
  rw [hstatus] at hflights hfinished
  exact ⟨by omega, by omega⟩

/-- A new cycle is in flight. -/
theorem record_inFlight {frame : Frame} (h : Sound c) :
    (c.record (c.mint frame)).inFlight = c.inFlight + 1 := by
  simp [Coordinator.inFlight, Coordinator.record, countP_setKey_new (mint_fresh h frame)]

theorem record_finished {frame : Frame} (h : Sound c) :
    (c.record (c.mint frame)).finished.length = c.finished.length := by
  rw [finished_length, finished_length]
  simp [Coordinator.record, countP_setKey_new (mint_fresh h frame)]

section Logged

variable [PyFloat F] [PyRepr F]

theorem evict_inFlight (h : Sound c) (hrec : Recorded c cycle) (hover : cycle.status ≠ .inFlight) :
    (c.evict cycle).inFlight = c.inFlight := by
  have := countP_popKey (p := fun item => item.2.status = .inFlight) h.nodup hrec
  rw [Coordinator.inFlight, evict_cycles, Coordinator.inFlight, ← this]
  simp [hover]

theorem evict_finished (h : Sound c) (hrec : Recorded c cycle) (hover : cycle.status ≠ .inFlight) :
    (c.evict cycle).finished.length + 1 = c.finished.length := by
  have := countP_popKey (p := fun item => item.2.status ≠ .inFlight) h.nodup hrec
  rw [finished_length, finished_length, evict_cycles, ← this]
  simp [hover]

theorem foldl_evict_finished {gone : List Cycle} (h : Sound c) (hgone : Evictable c gone) :
    (gone.foldl Coordinator.evict c).finished.length + gone.length = c.finished.length := by
  induction gone generalizing c with
  | nil => rfl
  | cons cycle gone ih =>
    have hrec := hgone.recorded cycle List.mem_cons_self
    have hone := evict_finished h hrec (hgone.ended cycle List.mem_cons_self)
    have := ih (h.evict hrec) hgone.tail
    rw [List.foldl_cons, List.length_cons]
    omega

/-- **No more cycles that are over than the limit.** -/
theorem prune_finished (h : Sound c) : c.prune.finished.length ≤ c.limits.maxRetained := by
  have := foldl_evict_finished h (evictable_finished h (c.finished.length - c.limits.maxRetained))
  rw [List.length_take] at this
  unfold Coordinator.prune
  omega

theorem prune_inFlight (h : Sound c) : c.prune.inFlight = c.inFlight := by
  have hboth : Sound c.prune ∧ c.prune.inFlight = c.inFlight := by
    refine (evictable_finished h _).foldl
      (P := fun c' => Sound c' ∧ c'.inFlight = c.inFlight) ?_ ⟨h, rfl⟩
    intro c' cycle hc' hrec hover
    exact ⟨hc'.1.evict hrec, (evict_inFlight hc'.1 hrec hover).trans hc'.2⟩
  exact hboth.2

/-! ## 2. The audit log -/

/-- The keys that every row of a cycle has. -/
def cycleRowKeys : List PyStr :=
  [pyStr "seq", pyStr "epoch", pyStr "event", pyStr "trace_id", pyStr "cycle_id", pyStr "frame_id",
    pyStr "cycle_status"]

/-- The row of an event before it is bounded. -/
def rawRow (seq : ℤ) (epoch : ℕ) (event : String) (who : Option Cycle) (fields : Row F) : Row F :=
  [(pyStr "seq", .int seq), (pyStr "epoch", .int epoch), (pyStr "event", .str (pyStr event))] ++
    (who.map Cycle.fields).getD [] ++ fields

/-- Each field of a row goes under a key of its own, and all of them fit. -/
structure Regular (who : Option Cycle) (fields : Row F) : Prop where
  nodup : ((rawRow 0 0 "" who fields).map Prod.fst).Nodup
  fits : (rawRow 0 0 "" who fields).length ≤ 16

omit [PyFloat F] [PyRepr F] in
theorem regular_of_cycle {fields : Row F} (h : (cycleRowKeys ++ fields.map Prod.fst).Nodup)
    (hfits : fields.length ≤ 9) : Regular (some cycle) fields := by
  constructor
  · simpa [rawRow, Cycle.fields, cycleRowKeys] using h
  · simp only [rawRow, Option.map_some, Option.getD_some, Cycle.fields, List.length_append,
      List.length_cons, List.length_nil]
    omega

omit [PyFloat F] [PyRepr F] in
theorem regular_bare : Regular (some cycle) ([] : Row F) := by
  refine regular_of_cycle ?_ (Nat.zero_le _)
  simp only [List.map_nil, List.append_nil]
  decide

omit [PyFloat F] [PyRepr F] in
/-- A row of a cycle with one field more. -/
theorem regular_one {key : PyStr} {value : PyJson F} (h : (cycleRowKeys ++ [key]).Nodup) :
    Regular (some cycle) [(key, value)] :=
  regular_of_cycle h (by simp)

omit [PyFloat F] [PyRepr F] in
theorem regular_rejected {s s' : PyStr} :
    Regular none [(pyStr "trace_id", (.str s : PyJson F)), (pyStr "frame_id", .str s')] := by
  constructor
  · simp only [rawRow, Option.map_none, Option.getD_none, List.append_nil, List.cons_append,
      List.nil_append, List.map_cons, List.map_nil]
    decide
  · simp [rawRow]

omit [PyFloat F] [PyRepr F] in
theorem regular_accepted {s s' : PyStr} : Regular (some cycle)
    [(pyStr "outcome_state", (.str s : PyJson F)), (pyStr "advisory_id", .str s')] := by
  refine regular_of_cycle ?_ (by simp)
  simp only [List.map_cons, List.map_nil]
  decide

omit [PyFloat F] [PyRepr F] in
theorem regular_discarded {ticket : CycleTicket} {outcome : CycleOutcome} {stale : StaleReason} :
    Regular (some cycle) (Coordinator.discardFields ticket outcome stale : Row F) := by
  refine regular_of_cycle ?_ (by simp [Coordinator.discardFields])
  simp only [Coordinator.discardFields, List.map_cons, List.map_nil]
  decide

/-- One row is written. -/
def Writes (maxAudit : ℕ) (trail trail' : Trail F) : Prop :=
  ∃ epoch event who fields, Regular who fields ∧
    trail' = trail.push maxAudit (eventRow (trail.seq + 1) epoch event who fields)

/-- Rows are written, limits and epoch stay, and a trace has one latest cycle. -/
structure Extends (c c' : Coordinator F) : Prop where
  limits : c'.limits = c.limits
  epoch : c'.epoch = c.epoch
  nextCycle : c.nextCycle ≤ c'.nextCycle
  latest : (c.latest.map Prod.fst).Nodup → (c'.latest.map Prod.fst).Nodup
  written : ReflTransGen (Writes c.limits.maxAudit) c.trail c'.trail

theorem Extends.refl (c : Coordinator F) : Extends c c := ⟨rfl, rfl, le_refl _, id, .refl⟩

theorem Extends.trans {c' c'' : Coordinator F} (h : Extends c c') (h' : Extends c' c'') :
    Extends c c'' := by
  refine ⟨h'.limits.trans h.limits, h'.epoch.trans h.epoch, h.nextCycle.trans h'.nextCycle,
    fun hd => h'.latest (h.latest hd), ?_⟩
  have hwritten := h'.written
  rw [h.limits] at hwritten
  exact h.written.trans hwritten

variable {event : String} {fields : Row F} {who : Option Cycle} {cycleId traceId reason : PyStr}
  {frame : Frame} {ticket : CycleTicket} {outcome : CycleOutcome}

theorem extends_log (h : Regular who fields) : Extends c (c.log event who fields) :=
  ⟨rfl, rfl, le_refl _, id, .single ⟨_, _, _, _, h, rfl⟩⟩

theorem extends_put : Extends c (c.put cycle) := ⟨rfl, rfl, le_refl _, id, .refl⟩

theorem extends_closeBroker : Extends c (c.closeBroker cycleId) := by
  constructor
  · simp
  · simp
  · simp
  · simp
  · rw [closeBroker_trail]

theorem extends_evict : Extends c (c.evict cycle) := by
  have hforget : ∀ c : Coordinator F, Extends c (c.forget cycle) := by
    intro c
    unfold Coordinator.forget
    dsimp only
    split_ifs
    · exact ⟨rfl, rfl, le_refl _, popKey_keys_nodup _, .single ⟨_, _, _, _, regular_bare, rfl⟩⟩
    · exact ⟨rfl, rfl, le_refl _, popKey_keys_nodup _, .refl⟩
  have hpop : Extends c { c with cycles := popKey cycle.ticket.cycleId c.cycles } :=
    ⟨rfl, rfl, le_refl _, id, .refl⟩
  unfold Coordinator.evict
  dsimp only
  split_ifs
  · exact (hpop.trans (hforget _)).trans (extends_log regular_bare)
  · exact hpop.trans (extends_log regular_bare)

theorem extends_prune : Extends c c.prune :=
  prune_of (P := Extends c) (fun _ _ h => h.trans extends_evict) (Extends.refl c)

theorem extends_supersede : Extends c (c.supersede old cycleId) := by
  unfold Coordinator.supersede
  split_ifs
  · exact (extends_put.trans (extends_log (regular_one (by decide)))).trans extends_closeBroker
  · exact Extends.refl c

theorem extends_retire : Extends c (c.retire old frame cycleId) := by
  unfold Coordinator.retire
  split_ifs
  · exact ⟨rfl, rfl, le_refl _, id, .single ⟨_, _, _, _, regular_one (by decide), rfl⟩⟩
  · exact Extends.refl c

theorem extends_start : Extends c (c.start ticket) := by
  have hrecord : Extends c (c.record ticket) := ⟨rfl, rfl, Nat.le_succ _, setKey_keys_nodup, .refl⟩
  exact (hrecord.trans (extends_log (regular_one (by decide)))).trans extends_prune

theorem Begins.extends {result : Coordinator F × Option CycleTicket} (hbegin : Begins c frame result) :
    Extends c result.1 := by
  cases hbegin with
  | same old hlatest hstatus hdigest => exact extends_log (regular_one (by decide))
  | full hfree hfull => exact extends_log regular_rejected
  | next old hlatest hdigest hroom => exact (extends_supersede.trans extends_retire).trans extends_start
  | first hlatest hroom => exact extends_start

theorem Cancels.extends {result : Coordinator F × Bool} (hcancel : Cancels c traceId reason result) :
    Extends c result.1 := by
  cases hcancel with
  | cancelled cycle hget hstatus =>
    exact ((extends_put.trans (extends_log (regular_one (by decide)))).trans
      extends_closeBroker).trans extends_prune
  | idle => exact Extends.refl c

theorem extends_accept : Extends c (c.accept cycle outcome) := by
  have hput : ∀ cycle', Extends c { c.put cycle' with
      current := setKey cycle.ticket.traceId outcome c.current } :=
    fun _ => ⟨rfl, rfl, le_refl _, id, .refl⟩
  exact ((hput _).trans (extends_log regular_accepted)).trans extends_prune

theorem extends_discard {stale : StaleReason} : Extends c (c.discard cycle ticket outcome stale) := by
  unfold Coordinator.discard
  split_ifs
  · exact extends_put.trans (extends_log regular_discarded)
  · exact extends_put

theorem Completes.extends {offered : Option CycleTicket} {result : Coordinator F × CompletionResult}
    (hcomplete : Completes c outcome offered result) : Extends c result.1 := by
  cases hcomplete with
  | accepted ticket cycle hget hsame hepoch hstatus => exact extends_accept
  | discarded ticket cycle hget hsame hstale reason status => exact extends_discard
  | counted ticket hother reason status => exact ⟨rfl, rfl, le_refl _, id, .refl⟩

theorem extends_attachBroker {broker : ℕ} : Extends c (c.attachBroker ticket broker) := by
  have hattached : Extends c { c with brokers := setKey ticket.cycleId broker c.brokers } :=
    ⟨rfl, rfl, le_refl _, id, .refl⟩
  unfold Coordinator.attachBroker
  dsimp only
  split_ifs
  · exact hattached
  · exact hattached.trans extends_closeBroker

/-! ## 3. Numbers of rows -/

omit [PyFloat F] [PyRepr F] in
theorem take_eq_short {key k : PyStr} (hkey : key.length < 64) : k.take 64 = key ↔ k = key := by
  constructor
  · intro h
    have hlength := congrArg List.length h
    rw [List.length_take] at hlength
    rw [← h, List.take_of_length_le (by omega)]
  · intro h
    rw [h, List.take_of_length_le (by omega)]

theorem getKey_cut {key : PyStr} (hkey : key.length < 64) (n : ℕ) (d : Row F) :
    getKey key (d.map fun item => (item.1.take 64, bound n item.2)) =
      (getKey key d).map (bound n) := by
  induction d with
  | nil => rfl
  | cons item d ih =>
    obtain ⟨k, v⟩ := item
    rw [List.map_cons, getKey, getKey, ih]
    simp only [take_eq_short hkey]
    split_ifs <;> rfl

/-- **A short key of a short row keeps its value, bounded.** -/
theorem getKey_boundRow {key : PyStr} {row : Row F} (hkey : key.length < 64)
    (hnodup : (row.map Prod.fst).Nodup) (hfits : row.length ≤ 16) :
    getKey key (boundRow row) = (getKey key row).map (bound 2) := by
  rw [boundRow, List.take_of_length_le hfits, getKey_pyDict, ← List.map_reverse, getKey_cut hkey,
    Audit.getKey_perm (List.reverse_perm row)]
  rwa [List.map_reverse, List.nodup_reverse]

theorem getKey_eventRow {key : PyStr} {seq : ℤ} {epoch : ℕ} (hkey : key.length < 64)
    (h : Regular who fields) : getKey key (eventRow seq epoch event who fields) =
      (getKey key (rawRow seq epoch event who fields)).map (bound 2) := by
  have hnodup : ((rawRow seq epoch event who fields).map Prod.fst).Nodup := by
    simpa [rawRow] using h.nodup
  have hfits : (rawRow seq epoch event who fields).length ≤ 16 := by
    simpa [rawRow] using h.fits
  have hrow : eventRow seq epoch event who fields =
      boundRow (pyDict (rawRow seq epoch event who fields)) := rfl
  rw [hrow, pyDict_of_nodup hnodup, getKey_boundRow hkey hnodup hfits]

theorem seqOf_eventRow {seq : ℤ} {epoch : ℕ} (h : Regular who fields) :
    seqOf (eventRow seq epoch event who fields) = some seq := by
  rw [seqOf, getKey_eventRow (by decide) h]
  rfl

end Logged

/-- The last `n` numbers up to `seq`. -/
def numbersTo (seq : ℤ) (n : ℕ) : List ℤ := (List.range n).map fun i : ℕ => seq - n + 1 + i

theorem numbersTo_succ (seq : ℤ) (n : ℕ) :
    numbersTo (seq + 1) (n + 1) = numbersTo seq n ++ [seq + 1] := by
  rw [numbersTo, numbersTo, List.range_succ, List.map_append, List.map_singleton]
  congr 1
  · refine List.map_congr_left fun i _ => ?_
    push_cast
    ring
  · congr 1
    push_cast
    ring

theorem numbersTo_drop (seq : ℤ) (n k : ℕ) : (numbersTo seq n).drop k = numbersTo seq (n - k) := by
  refine List.ext_getElem (by simp [numbersTo]) fun i hi hi' => ?_
  simp only [numbersTo, List.length_map, List.length_range] at hi'
  simp only [numbersTo, List.getElem_drop, List.getElem_map, List.getElem_range]
  push_cast [Nat.cast_sub (show k ≤ n by omega)]
  ring

/-- A row has an event, and no more than 16 keys, each once. -/
structure Tidy (row : Row F) : Prop where
  event : hasEvent row = true
  nodup : (row.map Prod.fst).Nodup
  fits : row.length ≤ 16

/-- The rows are tidy, and numbered without a gap up to the last number. -/
structure Numbered (trail : Trail F) : Prop where
  begun : trail.rows = [] → trail.seq = 0
  numbers : trail.rows.map seqOf = (numbersTo trail.seq trail.rows.length).map some
  tidy : ∀ row ∈ trail.rows, Tidy row

/-- How many rows are gone without being counted. -/
def Trail.uncounted (trail : Trail F) : ℤ := trail.seq - trail.dropped - trail.rows.length

theorem numbered_new : Numbered ({} : Trail F) := by
  constructor
  · intro _
    rfl
  · rfl
  · intro row hrow
    cases hrow

section Writes

variable [PyFloat F] [PyRepr F] {maxAudit : ℕ} {trail trail' : Trail F}

theorem boundRow_nodup (row : Row F) : ((boundRow row).map Prod.fst).Nodup := pyDict_keys_nodup _

theorem boundRow_fits (row : Row F) : (boundRow row).length ≤ 16 := by
  refine (length_pyDict_le _).trans ?_
  rw [List.length_map]
  exact List.length_take_le 16 row

theorem tidy_eventRow {event : String} {who : Option Cycle} {fields : Row F} {seq : ℤ} {epoch : ℕ}
    (h : Regular who fields) : Tidy (eventRow seq epoch event who fields) := by
  refine ⟨?_, boundRow_nodup _, boundRow_fits _⟩
  have hget : getKey (pyStr "event") (rawRow seq epoch event who fields) =
      some (.str (pyStr event)) := rfl
  rw [hasEvent, getKey_eventRow (by decide) h, hget]
  rfl

theorem Writes.numbered (hpos : 0 < maxAudit) (h : Writes maxAudit trail trail')
    (hn : Numbered trail) : Numbered trail' := by
  obtain ⟨epoch, event, who, fields, hregular, rfl⟩ := h
  have hrows : (trail.rows ++ [eventRow (trail.seq + 1) epoch event who fields]).map seqOf =
      (numbersTo (trail.seq + 1) (trail.rows.length + 1)).map some := by
    rw [List.map_append, hn.numbers, numbersTo_succ, List.map_append, List.map_singleton,
      seqOf_eventRow hregular, List.map_singleton]
  have htidy : ∀ row ∈ trail.rows ++ [eventRow (trail.seq + 1) epoch event who fields],
      Tidy row := by
    intro row hrow
    rcases List.mem_append.mp hrow with hrow | hrow
    · exact hn.tidy row hrow
    · rw [List.mem_singleton.mp hrow]
      exact tidy_eventRow hregular
  unfold Trail.push
  split_ifs with hfull
  · constructor
    · intro hnil
      have hlength := congrArg List.length hnil
      simp only [List.length_tail, List.length_append, List.length_singleton, List.length_nil]
        at hlength hfull
      exfalso
      omega
    · rw [← List.drop_one, List.map_drop, hrows, ← List.map_drop, numbersTo_drop]
      simp
    · intro row hrow
      exact htidy row (List.mem_of_mem_tail hrow)
  · constructor
    · simp
    · simpa using hrows
    · exact htidy

theorem Writes.rows (h : Writes maxAudit trail trail') (hle : trail.rows.length ≤ maxAudit) :
    trail'.rows.length ≤ maxAudit := by
  obtain ⟨epoch, event, who, fields, -, rfl⟩ := h
  unfold Trail.push
  split_ifs with hfull
  · simpa using hle
  · simpa using hfull

/-- **A row that goes for a new one is counted.** -/
theorem Writes.uncounted (h : Writes maxAudit trail trail') : trail'.uncounted = trail.uncounted := by
  obtain ⟨epoch, event, who, fields, -, rfl⟩ := h
  unfold Trail.push Trail.uncounted
  split_ifs
  · simp only [List.length_tail, List.length_append, List.length_singleton]
    push_cast
    omega
  · simp only [List.length_append, List.length_singleton]
    push_cast
    omega

theorem written_keeps {P : Trail F → Prop}
    (hP : ∀ trail trail' : Trail F, Writes maxAudit trail trail' → P trail → P trail')
    (h : ReflTransGen (Writes maxAudit) trail trail') (ht : P trail) : P trail' := by
  induction h with
  | refl => exact ht
  | tail _ hstep ih => exact hP _ _ hstep ih

end Writes

/-! ## 4. The methods keep the bounds -/

section Methods

variable [PyFloat F] [PyRepr F] {c' : Coordinator F} {cycleId traceId reason : PyStr} {frame : Frame}
  {ticket : CycleTicket} {outcome : CycleOutcome}

theorem Extends.rows (h : Extends c c') (hb : Bounded c) : c'.trail.rows.length ≤ c'.limits.maxAudit := by
  rw [h.limits]
  exact written_keeps (P := fun trail => trail.rows.length ≤ c.limits.maxAudit)
    (fun _ _ hwrite hle => hwrite.rows hle) h.written hb.rows

theorem supersede_inFlight (hrec : Recorded c old) :
    (c.supersede old cycleId).inFlight + (if old.status = .inFlight then 1 else 0) = c.inFlight := by
  unfold Coordinator.supersede
  split_ifs with hstatus
  · have hput := put_inFlight hrec (changes_displaced old).ticket
    rw [if_pos hstatus, if_neg (displaced_status old)] at hput
    have hsame : ∀ (event : String) (who : Option Cycle) (fields : Row F),
        (((c.put old.displaced).log event who fields).closeBroker old.ticket.cycleId).inFlight =
          (c.put old.displaced).inFlight := by
      intro event who fields
      simp only [Coordinator.inFlight, closeBroker_cycles]
      rfl
    rw [hsame]
    exact hput
  · rfl

theorem makeWay_inFlight (hrec : Recorded c old) :
    (c.makeWay old frame).inFlight + (if old.status = .inFlight then 1 else 0) = c.inFlight := by
  have hsupersede := @supersede_inFlight F c old _ _ (c.mint frame).cycleId hrec
  rw [← hsupersede]
  simp [Coordinator.makeWay, Coordinator.inFlight]

theorem start_inFlight (h : Sound c) (hfree : c.busy frame.traceId = false) :
    (c.start (c.mint frame)).inFlight = c.inFlight + 1 := by
  rw [Coordinator.start, prune_inFlight (h.record hfree).log]
  exact record_inFlight h

theorem start_finished (h : Sound c) (hfree : c.busy frame.traceId = false) :
    (c.start (c.mint frame)).finished.length ≤ c.limits.maxRetained :=
  prune_finished (h.record hfree).log

theorem Begins.bounded {result : Coordinator F × Option CycleTicket} (hbegin : Begins c frame result)
    (h : Sound c) (hb : Bounded c) : Bounded result.1 := by
  have hextends := hbegin.extends
  have hlimits := hextends.limits
  refine ⟨?_, ?_, hextends.rows hb⟩
  · rw [hlimits]
    cases hbegin with
    | same old hlatest hstatus hdigest => exact hb.flights
    | full hfree hfull => exact hb.flights
    | next old hlatest hdigest hroom =>
      have hrec := (recorded_latestCycle h hlatest).1
      have hstart := start_inFlight (h.makeWay hrec) (makeWay_free h hlatest)
      have hway := @makeWay_inFlight F c old _ _ frame hrec
      rw [makeWay_mint] at hstart
      have hflights := hb.flights
      split_ifs at hway with hstatus
      · dsimp only
        omega
      · have := hroom hstatus
        dsimp only
        omega
    | first hlatest hroom =>
      have hfree : c.busy frame.traceId = false := by simp [Coordinator.busy, hlatest]
      have hstart := start_inFlight h hfree
      dsimp only
      omega
  · rw [hlimits]
    cases hbegin with
    | same old hlatest hstatus hdigest => exact hb.finished
    | full hfree hfull => exact hb.finished
    | next old hlatest hdigest hroom =>
      have hrec := (recorded_latestCycle h hlatest).1
      have hstart := start_finished (h.makeWay hrec) (makeWay_free h hlatest)
      rw [makeWay_mint] at hstart
      have hway : (c.makeWay old frame).limits = c.limits := by simp [Coordinator.makeWay]
      rw [hway] at hstart
      exact hstart
    | first hlatest hroom =>
      exact start_finished h (by simp [Coordinator.busy, hlatest])

/-- A change of a record to a cycle that is over, with rows written and brokers closed, and a prune. -/
theorem bounded_over (hb : Bounded c) (hrec : Recorded c old)
    (hchange : Changes old cycle) (hover : cycle.status ≠ .inFlight) (hsound : Sound c')
    (hcycles : c'.cycles = (c.put cycle).cycles) (hextends : Extends c c') : Bounded c'.prune := by
  have hput := put_inFlight hrec hchange.ticket
  rw [if_neg hover] at hput
  have hsame : c'.inFlight = (c.put cycle).inFlight := by
    rw [Coordinator.inFlight, Coordinator.inFlight, hcycles]
  refine ⟨?_, ?_, (hextends.trans extends_prune).rows hb⟩
  · rw [prune_limits, hextends.limits, prune_inFlight hsound, hsame]
    have hflights := hb.flights
    omega
  · rw [prune_limits]
    exact prune_finished hsound

theorem Cancels.bounded {result : Coordinator F × Bool} (hcancel : Cancels c traceId reason result)
    (h : Sound c) (hb : Bounded c) : Bounded result.1 := by
  cases hcancel with
  | cancelled cycle hget hstatus =>
    have hrec := h.recorded hget
    have hchange : Changes cycle cycle.cancelled := changes_of_flight rfl hstatus
    have hover : cycle.cancelled.status ≠ .inFlight := by
      intro heq
      cases heq
    refine bounded_over hb hrec hchange hover ((h.put hrec hchange).log).closeBroker ?_ ?_
    · rw [closeBroker_cycles]
      rfl
    · exact (extends_put.trans (extends_log (regular_one (by decide)))).trans extends_closeBroker
  | idle => exact hb

theorem Completes.bounded {offered : Option CycleTicket} {result : Coordinator F × CompletionResult}
    (hcomplete : Completes c outcome offered result) (h : Sound c) (hb : Bounded c) :
    Bounded result.1 := by
  cases hcomplete with
  | accepted ticket cycle hget hsame hepoch hstatus =>
    have hrec := h.recorded hget
    have hchange : Changes cycle (cycle.settledBy outcome) :=
      changes_of_flight rfl hstatus
    have hover : (cycle.settledBy outcome).status ≠ .inFlight := by
      intro heq
      cases heq
    have hlatest := (h.flight _ cycle hrec hstatus).1
    have hsound : Sound { c.put (cycle.settledBy outcome) with
        current := setKey cycle.ticket.traceId outcome c.current } :=
      (h.put hrec hchange).setCurrent (by rw [Coordinator.put, hlatest]; rfl)
    have hset : Extends c { c.put (cycle.settledBy outcome) with
        current := setKey cycle.ticket.traceId outcome c.current } :=
      ⟨rfl, rfl, le_refl _, id, .refl⟩
    exact bounded_over hb hrec hchange hover hsound.log rfl
      (hset.trans (extends_log regular_accepted))
  | discarded ticket cycle hget hsame hstale reason status =>
    have hrec := h.recorded hget
    have hsame := @put_same F c cycle.refused cycle hrec rfl rfl
    have hextends : Extends c (c.discard cycle ticket outcome reason) := extends_discard
    have hcycles : (c.discard cycle ticket outcome reason).cycles = (c.put cycle.refused).cycles := by
      unfold Coordinator.discard
      split_ifs <;> rfl
    refine ⟨?_, ?_, hextends.rows hb⟩
    · rw [hextends.limits, Coordinator.inFlight, hcycles, ← Coordinator.inFlight, hsame.1]
      exact hb.flights
    · rw [hextends.limits, finished_length, hcycles, ← finished_length, hsame.2]
      exact hb.finished
  | counted ticket hother reason status => exact ⟨hb.flights, hb.finished, hb.rows⟩

omit [PyFloat F] [PyRepr F] in
theorem Bounded.attachBroker {broker : ℕ} (hb : Bounded c) : Bounded (c.attachBroker ticket broker) := by
  unfold Coordinator.attachBroker
  dsimp only
  split_ifs
  · exact ⟨hb.flights, hb.finished, hb.rows⟩
  · constructor
    · simpa [Coordinator.inFlight] using hb.flights
    · simpa [Coordinator.finished] using hb.finished
    · simpa using hb.rows

omit [PyFloat F] [PyRepr F] in
theorem Bounded.detachBroker (hb : Bounded c) : Bounded (c.detachBroker ticket) := by
  unfold Coordinator.detachBroker
  constructor
  · simpa [Coordinator.inFlight] using hb.flights
  · simpa [Coordinator.finished] using hb.finished
  · simpa using hb.rows

end Methods

end AzazelEdge.Mio
