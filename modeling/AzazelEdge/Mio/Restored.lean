/-
# What a restart keeps

A restored coordinator is as sound and as bounded as the one that was saved, with nothing in flight
and nothing current.  `restore` takes back every snapshot of a sound coordinator whose ids fit into
the fields of a snapshot: the same cycles, those in flight and the accepted ones closed, and the end
of the same audit.
-/
import AzazelEdge.Mio.Bounded
import AzazelEdge.Mio.Imaged

namespace AzazelEdge.Mio

open AzazelEdge.Lib AzazelEdge.Lib.Py
open AzazelEdge.Audit (Row)
open Relation (ReflTransGen)

/-! ## 1. The cycles are recorded again -/

variable {F : Type} {c : Coordinator F} {cycle : Cycle} {s : Snapshot F} {limits : Limits}

theorem closed_ticket (cycle : Cycle) : cycle.closed.ticket = cycle.ticket := by
  unfold Cycle.closed
  cases cycle.status <;> rfl

theorem closed_status (cycle : Cycle) : cycle.closed.status ≠ .inFlight := by
  unfold Cycle.closed
  cases hstatus : cycle.status <;> simp [hstatus]

/-- What a snapshot of a coordinator says of its cycles. -/
structure Snapshot.Valid (s : Snapshot F) : Prop where
  ids : (s.cycles.map (·.ticket.cycleId)).Nodup
  latest : ∀ traceId id, getKey traceId s.latest = some id →
    ∃ cycle ∈ s.cycles, cycle.ticket.cycleId = id ∧ cycle.ticket.traceId = traceId
  issued : ∀ cycle ∈ s.cycles, ∃ epoch number : ℕ, cycle.ticket.epoch = epoch ∧ epoch ≤ s.epoch ∧
    number < s.nextCycle ∧ cycle.ticket.cycleId = cycleIdOf cycle.ticket.traceId epoch number

section Rebuilt

variable [PyFloat F] [PyRepr F]

theorem readmit_cycles :
    (c.readmit cycle).cycles = setKey cycle.ticket.cycleId cycle.closed c.cycles := by
  unfold Coordinator.readmit
  cases hstatus : cycle.status <;>
    simp [Coordinator.put, Coordinator.log, closed_ticket] <;> simp [Cycle.closed, hstatus]

theorem readmit_keeps {α : Type} (g : Coordinator F → α)
    (hput : ∀ (c : Coordinator F) cycle, g (c.put cycle) = g c)
    (hlog : ∀ (c : Coordinator F) event who fields, g (c.log event who fields) = g c) :
    g (c.readmit cycle) = g c := by
  unfold Coordinator.readmit
  cases cycle.status <;> simp [hput, hlog]

theorem foldl_readmit_keeps {α : Type} (g : Coordinator F → α)
    (hput : ∀ (c : Coordinator F) cycle, g (c.put cycle) = g c)
    (hlog : ∀ (c : Coordinator F) event who fields, g (c.log event who fields) = g c)
    (cycles : List Cycle) : g (cycles.foldl Coordinator.readmit c) = g c := by
  induction cycles generalizing c with
  | nil => rfl
  | cons cycle cycles ih => rw [List.foldl_cons, ih, readmit_keeps g hput hlog]

theorem extends_readmit : Extends c (c.readmit cycle) := by
  unfold Coordinator.readmit
  cases cycle.status with
  | inFlight => exact extends_put.trans (extends_log regular_bare)
  | accepted => exact extends_put.trans (extends_log (regular_one (by decide)))
  | superseded | cancelled | abandonedOnRestart | restoredStale => exact extends_put

theorem extends_foldl_readmit (cycles : List Cycle) :
    Extends c (cycles.foldl Coordinator.readmit c) := by
  induction cycles generalizing c with
  | nil => exact Extends.refl c
  | cons cycle cycles ih => exact extends_readmit.trans ih

/-- **Each cycle is recorded once, closed, in the order of the snapshot.** -/
theorem foldl_readmit_cycles {cycles : List Cycle} {before : List (PyStr × Cycle)}
    (hbefore : c.cycles = before)
    (hnodup : (before.map Prod.fst ++ cycles.map (·.ticket.cycleId)).Nodup) :
    (cycles.foldl Coordinator.readmit c).cycles =
      before ++ cycles.map fun cycle => (cycle.ticket.cycleId, cycle.closed) := by
  induction cycles generalizing c before with
  | nil => simpa using hbefore
  | cons cycle cycles ih =>
    have hfresh : cycle.ticket.cycleId ∉ before.map Prod.fst := by
      intro hmem
      exact (List.nodup_append.mp hnodup).2.2 _ hmem _ List.mem_cons_self rfl
    have hcycles : (c.readmit cycle).cycles = before ++ [(cycle.ticket.cycleId, cycle.closed)] := by
      rw [readmit_cycles, hbefore, setKey_of_not_mem hfresh]
    rw [List.foldl_cons, ih hcycles (by simpa using hnodup)]
    simp

variable {opened : Coordinator F}

theorem opened_fields (h : s.opened limits = some opened) : opened.limits = limits ∧
    opened.epoch = s.epoch + 1 ∧ opened.nextCycle = s.nextCycle ∧ opened.latest = s.latest ∧
    opened.cycles = [] ∧ opened.current = [] ∧ opened.brokers = [] := by
  obtain ⟨seqs, -, rfl⟩ := Option.map_eq_some_iff.mp h
  exact ⟨rfl, rfl, rfl, rfl, rfl, rfl, rfl⟩

/-- The coordinator before cycles are evicted. -/
theorem readmitted_sound (h : s.Valid) (hopened : s.opened limits = some opened) :
    Sound (s.cycles.foldl Coordinator.readmit opened) ∧
      (s.cycles.foldl Coordinator.readmit opened).inFlight = 0 := by
  obtain ⟨-, hepoch, hnext, hlatest, hcycles, hcurrent, -⟩ := opened_fields hopened
  have hepoch' : (s.cycles.foldl Coordinator.readmit opened).epoch = s.epoch + 1 :=
    (foldl_readmit_keeps _ (fun _ _ => rfl) (fun _ _ _ _ => rfl) _).trans hepoch
  have hnext' : (s.cycles.foldl Coordinator.readmit opened).nextCycle = s.nextCycle :=
    (foldl_readmit_keeps _ (fun _ _ => rfl) (fun _ _ _ _ => rfl) _).trans hnext
  have hlatest' : (s.cycles.foldl Coordinator.readmit opened).latest = s.latest :=
    (foldl_readmit_keeps _ (fun _ _ => rfl) (fun _ _ _ _ => rfl) _).trans hlatest
  have hcurrent' : (s.cycles.foldl Coordinator.readmit opened).current = [] :=
    (foldl_readmit_keeps _ (fun _ _ => rfl) (fun _ _ _ _ => rfl) _).trans hcurrent
  have hcycles' := foldl_readmit_cycles hcycles (by simpa using h.ids)
  rw [List.nil_append] at hcycles'
  have hkeys : (s.cycles.map fun cycle => (cycle.ticket.cycleId, cycle.closed)).map Prod.fst =
      s.cycles.map (·.ticket.cycleId) := by
    rw [List.map_map]
    rfl
  have hnodup : ((s.cycles.map fun cycle => (cycle.ticket.cycleId, cycle.closed)).map
      Prod.fst).Nodup := hkeys ▸ h.ids
  have hfrom : ∀ id found, getKey id (s.cycles.foldl Coordinator.readmit opened).cycles = some found →
      ∃ cycle ∈ s.cycles, cycle.ticket.cycleId = id ∧ cycle.closed = found := by
    intro id found hfound
    rw [hcycles'] at hfound
    obtain ⟨cycle, hcycle, heq⟩ := List.mem_map.mp (getKey_mem hfound)
    obtain ⟨hid, hclosed⟩ := Prod.mk.inj heq
    exact ⟨cycle, hcycle, hid, hclosed⟩
  refine ⟨?_, ?_⟩
  · constructor
    · rw [hcycles']
      exact hnodup
    · intro traceId id hget
      rw [hlatest'] at hget
      obtain ⟨cycle, hcycle, hid, htrace⟩ := h.latest traceId id hget
      refine ⟨cycle.closed, ?_, by rw [closed_ticket]; exact htrace⟩
      rw [hcycles']
      exact getKey_of_mem hnodup (List.mem_map.mpr ⟨cycle, hcycle, by rw [hid]⟩)
    · intro id found hfound hstatus
      obtain ⟨cycle, -, -, rfl⟩ := hfrom id found hfound
      exact absurd hstatus (closed_status cycle)
    · intro id found hfound
      obtain ⟨cycle, hcycle, hid, rfl⟩ := hfrom id found hfound
      obtain ⟨epoch, number, hown, hle, hlt, heq⟩ := h.issued cycle hcycle
      rw [closed_ticket, hepoch', hnext', ← hid]
      exact ⟨rfl, epoch, number, hown, hle.trans (Nat.le_succ _), hlt, heq⟩
    · intro traceId outcome hget
      rw [hcurrent'] at hget
      cases hget
  · rw [Coordinator.inFlight, hcycles', List.countP_eq_zero]
    intro item hitem
    obtain ⟨cycle, -, rfl⟩ := List.mem_map.mp hitem
    simpa using closed_status cycle

/-! ## 2. The audit is taken over -/

/-- The rows of a snapshot have an event, and their numbers go up to `seq` without a gap. -/
structure Snapshot.NumberedTo (s : Snapshot F) (seq : ℤ) : Prop where
  begun : s.audit = [] → seq = 0
  numbers : (s.audit.map boundRow).map seqOf = (numbersTo seq s.audit.length).map some
  events : ∀ row ∈ s.audit, hasEvent (boundRow row) = true

omit [PyFloat F] [PyRepr F] in
theorem mapM_eq_some {α β : Type} {f : α → Option β} {xs : List α} {ys : List β}
    (h : xs.map f = ys.map some) : xs.mapM f = some ys := by
  induction xs generalizing ys with
  | nil =>
    cases ys with
    | nil => rfl
    | cons y ys => cases h
  | cons x xs ih =>
    cases ys with
    | nil => cases h
    | cons y ys =>
      obtain ⟨hx, hxs⟩ := List.cons.inj h
      rw [List.mapM_cons, hx, ih hxs]
      rfl

theorem max_numbersTo (seq : ℤ) (n : ℕ) : (numbersTo seq (n + 1)).max? = some seq := by
  rw [List.max?_eq_some_iff]
  constructor
  · refine List.mem_map.mpr ⟨n, List.mem_range.mpr (Nat.lt_succ_self n), ?_⟩
    push_cast
    omega
  · intro k hk
    obtain ⟨i, hi, rfl⟩ := List.mem_map.mp hk
    have := List.mem_range.mp hi
    push_cast
    omega

/-- **The end of the audit is taken over, under its numbers.** -/
theorem opened_trail {seq : ℤ} (h : s.NumberedTo seq) (limits : Limits) :
    s.opened limits = some
      { limits, epoch := s.epoch + 1, nextCycle := s.nextCycle, latest := s.latest
        trail := { rows := (s.audit.map boundRow).drop (s.audit.length - limits.maxAudit), seq
                   dropped := s.auditDropped } } := by
  have hseqs : ((s.audit.map boundRow).drop (s.audit.length - limits.maxAudit)).mapM seqOf =
      some (numbersTo seq (s.audit.length - (s.audit.length - limits.maxAudit))) := by
    refine mapM_eq_some ?_
    rw [List.map_drop, h.numbers, ← List.map_drop, numbersTo_drop]
  have hmax : (numbersTo seq (s.audit.length - (s.audit.length - limits.maxAudit))).max?.getD 0 =
      seq := by
    have hpos := limits.audit_pos
    cases hlength : s.audit.length - (s.audit.length - limits.maxAudit) with
    | zero =>
      rw [h.begun (List.eq_nil_of_length_eq_zero (by omega))]
      rfl
    | succ n => rw [max_numbersTo, Option.getD_some]
  rw [Snapshot.opened, hseqs, Option.map_some, hmax]

theorem opened_numbered {seq : ℤ} (h : s.NumberedTo seq) (hopened : s.opened limits = some opened) :
    Numbered opened.trail ∧ opened.trail.rows.length ≤ limits.maxAudit ∧
      opened.trail.uncounted =
        seq - s.auditDropped - s.audit.length + (s.audit.length - limits.maxAudit : ℕ) := by
  rw [opened_trail h limits] at hopened
  obtain rfl := Option.some.inj hopened
  have hlength : ((s.audit.map boundRow).drop (s.audit.length - limits.maxAudit)).length =
      s.audit.length - (s.audit.length - limits.maxAudit) := by simp
  refine ⟨⟨?_, ?_, ?_⟩, ?_, ?_⟩
  · intro hnil
    have hpos := limits.audit_pos
    rw [List.eq_nil_iff_length_eq_zero, hlength] at hnil
    exact h.begun (List.eq_nil_of_length_eq_zero (by omega))
  · dsimp only
    rw [hlength, List.map_drop, h.numbers, ← List.map_drop, numbersTo_drop]
  · intro row hrow
    obtain ⟨old, hold, rfl⟩ := List.mem_map.mp (List.mem_of_mem_drop hrow)
    exact ⟨h.events old hold, boundRow_nodup old, boundRow_fits old⟩
  · dsimp only
    omega
  · simp only [Trail.uncounted, hlength]
    omega

/-- **A restored coordinator is sound and bounded, and has nothing in flight and nothing current.** -/
theorem rebuilt_sound (h : s.Valid) {seq : ℤ} (hseq : s.NumberedTo seq)
    (hrebuilt : s.rebuilt limits = some c) :
    Sound c ∧ Bounded c ∧ Numbered c.trail ∧ c.limits = limits ∧ c.epoch = s.epoch + 1 ∧
      c.nextCycle = s.nextCycle ∧ c.inFlight = 0 ∧ c.current = [] ∧ c.brokers = [] ∧
      c.trail.uncounted =
        seq - s.auditDropped - s.audit.length + (s.audit.length - limits.maxAudit : ℕ) := by
  obtain ⟨opened, hopened, rfl⟩ := Option.map_eq_some_iff.mp hrebuilt
  obtain ⟨hlimits, hepoch, hnext, -, -, hcurrent, hbrokers⟩ := opened_fields hopened
  obtain ⟨hsound, hflights⟩ := readmitted_sound h hopened
  obtain ⟨hnumbered, hrows, huncounted⟩ := opened_numbered hseq hopened
  have hreadmit : Extends opened (s.cycles.foldl Coordinator.readmit opened) :=
    extends_foldl_readmit s.cycles
  have hextends := hreadmit.trans extends_prune
  have hpos : 0 < opened.limits.maxAudit := opened.limits.audit_pos
  have hcurrent' : (s.cycles.foldl Coordinator.readmit opened).current = [] :=
    (foldl_readmit_keeps _ (fun _ _ => rfl) (fun _ _ _ _ => rfl) _).trans hcurrent
  have hbrokers' : (s.cycles.foldl Coordinator.readmit opened).brokers = [] :=
    (foldl_readmit_keeps _ (fun _ _ => rfl) (fun _ _ _ _ => rfl) _).trans hbrokers
  refine ⟨hsound.prune, ⟨?_, ?_, ?_⟩, ?_, ?_, ?_, ?_, ?_, ?_, ?_, ?_⟩
  · rw [prune_inFlight hsound, hflights]
    exact Nat.zero_le _
  · rw [prune_limits]
    exact prune_finished hsound
  · rw [hextends.limits]
    refine written_keeps (P := fun trail => trail.rows.length ≤ opened.limits.maxAudit)
      (fun _ _ hwrite hle => hwrite.rows hle) hextends.written ?_
    rw [hlimits]
    exact hrows
  · exact written_keeps (fun _ _ hwrite hn => hwrite.numbered hpos hn) hextends.written hnumbered
  · exact hextends.limits.trans hlimits
  · exact hextends.epoch.trans hepoch
  · rw [prune_nextCycle]
    exact (foldl_readmit_keeps Coordinator.nextCycle (fun _ _ => rfl) (fun _ _ _ _ => rfl) _).trans
      hnext
  · rw [prune_inFlight hsound, hflights]
  · exact prune_current_nil hcurrent'
  · rw [prune_keeps Coordinator.brokers fun _ _ => evict_brokers]
    exact hbrokers'
  · rw [← huncounted]
    exact written_keeps (P := fun trail => trail.uncounted = opened.trail.uncounted)
      (fun _ _ hwrite heq => hwrite.uncounted.trans heq) hextends.written rfl

end Rebuilt

/-! ## 3. A saved coordinator -/

/-- What is plain behind a text stays apart from it. -/
theorem joinPairs_append {t : PyStr} (ht : Plain t) (s : PyStr) :
    joinPairs (s ++ t) = joinPairs s ++ t := by
  induction s using joinPairs.induct with
  | case1 high low tail hpair ih =>
    rw [List.cons_append, List.cons_append, joinPairs, if_pos hpair, ih, joinPairs, if_pos hpair,
      List.cons_append]
  | case2 high low tail hno ih =>
    rw [List.cons_append, List.cons_append, joinPairs, if_neg hno, ← List.cons_append, ih, joinPairs,
      if_neg hno, List.cons_append]
  | case3 s hshort =>
    obtain - | ⟨a, s⟩ := s
    · exact joinPairs_plain ht
    · obtain - | ⟨b, s⟩ := s
      · have hone : joinPairs [a] = [a] := rfl
        rw [hone, List.singleton_append, joinPairs_cons, joinPairs_plain ht]
        right
        intro d s' heq
        have hsmall := ht d (by rw [heq]; exact List.mem_cons_self)
        simp only [isLow, Bool.and_eq_false_iff, decide_eq_false_iff_not]
        omega
      · exact absurd rfl (hshort a b s)

/-- **The id of a cycle comes back as the id for its trace.** -/
theorem joinPairs_cycleIdOf (traceId : PyStr) (epoch number : ℕ) :
    joinPairs (cycleIdOf traceId epoch number) = cycleIdOf (joinPairs traceId) epoch number := by
  have hmark : ∀ m, Plain (ofText (natText m)) := by
    intro m c hc
    have hdigit := digits_number m c hc
    simp only [isDigit, Bool.and_eq_true, decide_eq_true_eq] at hdigit
    omega
  have hplain : Plain (pyStr ":e" ++ (ofText (natText epoch) ++ (pyStr ":c" ++
      ofText (natText number)))) := by
    have hfixed : Plain (pyStr ":e") ∧ Plain (pyStr ":c") := by decide
    intro c hc
    simp only [List.mem_append] at hc
    rcases hc with hc | hc | hc | hc
    · exact hfixed.1 c hc
    · exact hmark epoch c hc
    · exact hfixed.2 c hc
    · exact hmark number c hc
  simp only [cycleIdOf, List.append_assoc]
  exact joinPairs_append hplain traceId

variable {row : Row F}

theorem seqOf_backRow (hd : (row.map Prod.fst).Nodup) : seqOf (backRow row) = seqOf row := by
  rw [seqOf, getKey_backRow (by decide) hd, seqOf]
  cases getKey (pyStr "seq") row with
  | none => rfl
  | some value => cases value <;> rfl

theorem hasEvent_backRow (hd : (row.map Prod.fst).Nodup) : hasEvent (backRow row) = hasEvent row := by
  rw [hasEvent, getKey_backRow (by decide) hd, hasEvent]
  cases getKey (pyStr "event") row with
  | none => rfl
  | some value => cases value <;> rfl

theorem tidy_backRow (h : Tidy row) : Tidy (backRow row) := by
  refine ⟨?_, pyDict_keys_nodup _, ?_⟩
  · rw [hasEvent_backRow h.nodup]
    exact h.event
  · refine (length_pyDict_le _).trans ?_
    rw [settledMembers_eq, Audit.sortMembers_eq, List.length_map, List.length_insertionSort,
      List.length_map]
    exact h.fits

section Saved

variable [PyFloat F] [PyRepr F]

theorem seqOf_boundRow (h : Tidy row) : seqOf (boundRow row) = seqOf row := by
  rw [seqOf, getKey_boundRow (by decide) h.nodup h.fits, seqOf]
  cases getKey (pyStr "seq") row with
  | none => rfl
  | some value => cases value <;> rfl

theorem hasEvent_boundRow (h : Tidy row) : hasEvent (boundRow row) = true := by
  have hevent := h.event
  rw [hasEvent] at hevent
  rw [hasEvent, getKey_boundRow (by decide) h.nodup h.fits]
  cases hget : getKey (pyStr "event") row with
  | none =>
    rw [hget] at hevent
    cases hevent
  | some value =>
    rw [hget] at hevent
    cases value with
    | str s => rfl
    | null | bool _ | int _ | float _ | arr _ | obj _ => cases hevent

variable {d : Coordinator F}

/-- The rows of a saved coordinator keep their numbers. -/
theorem saved_numberedTo (hn : Numbered d.trail) : d.saved.back.NumberedTo d.trail.seq := by
  have hrows : d.saved.back.audit = d.trail.rows.map backRow := rfl
  constructor
  · intro hnil
    rw [hrows, List.map_eq_nil_iff] at hnil
    exact hn.begun hnil
  · rw [hrows, List.length_map, ← hn.numbers, List.map_map, List.map_map]
    refine List.map_congr_left fun row hrow => ?_
    rw [Function.comp_apply, Function.comp_apply, seqOf_boundRow (tidy_backRow (hn.tidy row hrow)),
      seqOf_backRow (hn.tidy row hrow).nodup]
  · intro row hrow
    rw [hrows] at hrow
    obtain ⟨old, hold, rfl⟩ := List.mem_map.mp hrow
    exact hasEvent_boundRow (tidy_backRow (hn.tidy old hold))

omit [PyFloat F] [PyRepr F] in
/-- **What is read of a sound coordinator is a valid snapshot.** -/
theorem saved_valid (h : Sound d) (hstorable : d.saved.Storable) : d.saved.back.Valid := by
  refine ⟨hstorable.ids, ?_, ?_⟩
  · intro traceId id hget
    exact hstorable.latest (traceId, id) (getKey_mem hget)
  · intro cycle hcycle
    obtain ⟨old, hold, rfl⟩ := List.mem_map.mp hcycle
    obtain ⟨⟨key, old⟩, hmem, rfl⟩ := List.mem_map.mp hold
    obtain ⟨hid, epoch, number, hown, hle, hlt, heq⟩ := h.issued key old (getKey_of_mem h.nodup hmem)
    refine ⟨epoch, number, hown, hle, hlt, ?_⟩
    simp only [Cycle.rejoined]
    rw [hid, heq, joinPairs_cycleIdOf]

end Saved

end AzazelEdge.Mio
