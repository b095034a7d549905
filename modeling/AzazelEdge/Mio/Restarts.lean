/-
# Runs of the coordinator, across restarts

A `System` is a coordinator with the last image that was saved of it.  Any caller may call any
method at any time, the image may be saved at any time, and the process may come up again from the
image at any time, with other limits.  Every state of such a run is `Kept`: sound, bounded, its
audit numbered without a gap.
-/
import AzazelEdge.Lib.Run
import AzazelEdge.Mio.Restored

namespace AzazelEdge.Mio

open AzazelEdge.Lib AzazelEdge.Lib.Py
open AzazelEdge.Audit (Row)

/-! ## 1. The system -/

/-- What happens to the coordinator, with what the caller gets. -/
inductive Event where
  | begun (frame : Frame) (ticket : Option CycleTicket)
  | completed (ticket : Option CycleTicket) (outcome : CycleOutcome) (result : CompletionResult)
  | cancelled (traceId reason : PyStr) (done : Bool)
  | attached (ticket : CycleTicket) (broker : ℕ)
  | detached (ticket : CycleTicket)
  | persisted
  | restarted (limits : Limits)

/-- The coordinator and the last image of it. -/
structure System (F : Type) where
  live : Coordinator F
  disk : Option Text := none

section Steps

variable {F : Type} [PyFloat F] [PyRepr F]

/-- A step of the system.  It comes up again only from an image that `restore` takes. -/
inductive Step : System F → Event → System F → Prop
  | begin (s : System F) (frame : Frame) :
      Step s (.begun frame (s.live.begin frame).2) { s with live := (s.live.begin frame).1 }
  | complete (s : System F) (ticket : Option CycleTicket) (outcome : CycleOutcome) :
      Step s (.completed ticket outcome (s.live.complete ticket outcome).2)
        { s with live := (s.live.complete ticket outcome).1 }
  | cancel (s : System F) (traceId reason : PyStr) :
      Step s (.cancelled traceId reason (s.live.cancel traceId reason).2)
        { s with live := (s.live.cancel traceId reason).1 }
  | attach (s : System F) (ticket : CycleTicket) (broker : ℕ) :
      Step s (.attached ticket broker) { s with live := s.live.attachBroker ticket broker }
  | detach (s : System F) (ticket : CycleTicket) :
      Step s (.detached ticket) { s with live := s.live.detachBroker ticket }
  | persist (s : System F) : Step s .persisted { s with disk := some s.live.snapshot }
  | restart (s : System F) (bytes : Text) (limits : Limits) (c : Coordinator F)
      (hdisk : s.disk = some bytes) (hrestore : Coordinator.restore bytes limits = .ok c) :
      Step s (.restarted limits) { s with live := c }

/-! ## 2. What is kept -/

/-- What every coordinator of a run is. -/
structure Kept (c : Coordinator F) : Prop where
  sound : Sound c
  bounded : Bounded c
  numbered : Numbered c.trail
  traces : (c.latest.map Prod.fst).Nodup
  begun : 1 ≤ c.nextCycle

variable {c d : Coordinator F} {limits : Limits} {frame : Frame} {outcome : CycleOutcome}
  {ticket : Option CycleTicket} {traceId reason : PyStr}

omit [PyFloat F] [PyRepr F] in
theorem kept_new (limits : Limits) : Kept ({ limits } : Coordinator F) := by
  constructor
  · exact sound_new limits 0 1
  · exact ⟨Nat.zero_le _, Nat.zero_le _, Nat.zero_le _⟩
  · exact numbered_new
  · exact List.nodup_nil
  · exact le_refl 1

theorem Kept.extends (h : Kept c) (hextends : Extends c d) (hsound : Sound d) (hbounded : Bounded d) :
    Kept d := by
  constructor
  · exact hsound
  · exact hbounded
  · have hpos := c.limits.audit_pos
    exact written_keeps (fun _ _ hwrite hn => hwrite.numbered hpos hn) hextends.written h.numbered
  · exact hextends.latest h.traces
  · exact h.begun.trans hextends.nextCycle

theorem Kept.begins (h : Kept c) : Kept (c.begin frame).1 :=
  h.extends begin_cases.extends (begin_cases.sound h.sound) (begin_cases.bounded h.sound h.bounded)

theorem Kept.completes (h : Kept c) : Kept (c.complete ticket outcome).1 :=
  h.extends (complete_cases ticket).extends ((complete_cases ticket).sound h.sound)
    ((complete_cases ticket).bounded h.sound h.bounded)

theorem Kept.cancels (h : Kept c) : Kept (c.cancel traceId reason).1 :=
  h.extends cancel_cases.extends (cancel_cases.sound h.sound) (cancel_cases.bounded h.sound h.bounded)

theorem Kept.attaches {ticket : CycleTicket} {broker : ℕ} (h : Kept c) :
    Kept (c.attachBroker ticket broker) :=
  h.extends extends_attachBroker h.sound.attachBroker h.bounded.attachBroker

theorem Kept.detaches {ticket : CycleTicket} (h : Kept c) : Kept (c.detachBroker ticket) :=
  h.extends extends_closeBroker h.sound.closeBroker h.bounded.detachBroker

/-! ## 3. Coming up again -/

/-- **What `restore` makes of an image, and which images it takes.** -/
theorem restore_snapshot_ok (h : Kept d) : Coordinator.restore d.snapshot limits = .ok c ↔
    d.saved.Storable ∧ d.saved.back.rebuilt limits = some c := by
  have hrebuilt : (d.saved.back.rebuilt limits).isSome := by
    rw [Snapshot.rebuilt, opened_trail (saved_numberedTo h.numbered)]
    rfl
  have hfound : ∀ found, validateSnapshot d.snapshot = .ok found ↔
      found = d.saved.back ∧ d.saved.Storable := fun found => validateSnapshot_ok
  unfold Coordinator.restore
  cases hvalid : validateSnapshot (F := F) d.snapshot with
  | error e =>
    have hnot : ¬ d.saved.Storable := by
      intro hstorable
      have := (hfound _).mpr ⟨rfl, hstorable⟩
      rw [hvalid] at this
      cases this
    simp [hnot]
  | ok found =>
    obtain ⟨rfl, hstorable⟩ := (hfound found).mp hvalid
    obtain ⟨c', hc'⟩ := Option.isSome_iff_exists.mp hrebuilt
    simp [hstorable, hc']

/-- A restored coordinator, beside the one that was saved. -/
structure Restores (d : Coordinator F) (limits : Limits) (c : Coordinator F) : Prop where
  uncounted : c.trail.uncounted =
    d.trail.uncounted + (d.trail.rows.length - limits.maxAudit : ℕ)
  limits : c.limits = limits
  epoch : c.epoch = d.epoch + 1
  nextCycle : c.nextCycle = d.nextCycle
  past : ∀ id cycle, getKey id c.cycles = some cycle → cycle.ticket.epoch ≤ d.epoch
  flights : c.inFlight = 0
  current : c.current = []
  brokers : c.brokers = []
  closed : c.closed = []

theorem Kept.restores (h : Kept d) (hrestore : Coordinator.restore d.snapshot limits = .ok c) :
    Kept c ∧ Restores d limits c := by
  obtain ⟨hstorable, hrebuilt⟩ := (restore_snapshot_ok h).mp hrestore
  have hnumbered := saved_numberedTo h.numbered
  obtain ⟨hsound, hbounded, htrail, hlimits, hepoch, hnext, hflights, hcurrent, hbrokers, huncounted⟩ :=
    rebuilt_sound (saved_valid h.sound hstorable) hnumbered hrebuilt
  have hlength : d.saved.back.audit.length = d.trail.rows.length := List.length_map _
  refine ⟨⟨hsound, hbounded, htrail, ?_, ?_⟩,
    ⟨?_, hlimits, hepoch, hnext, ?_, hflights, hcurrent, hbrokers, ?_⟩⟩
  · obtain ⟨opened, hopened, rfl⟩ := Option.map_eq_some_iff.mp hrebuilt
    have hagain : Extends opened (d.saved.back.cycles.foldl Coordinator.readmit opened) :=
      extends_foldl_readmit d.saved.back.cycles
    refine (hagain.trans extends_prune).latest ?_
    rw [(opened_fields hopened).2.2.2.1]
    exact texts_keys_nodup (pyDict_keys_nodup _)
  · rw [hnext]
    exact h.begun
  · rw [huncounted, hlength]
    rfl
  · intro id cycle hget
    obtain ⟨opened, hopened, rfl⟩ := Option.map_eq_some_iff.mp hrebuilt
    have hgot := getKey_mem (prune_sub.1 id cycle hget)
    rw [foldl_readmit_cycles (opened_fields hopened).2.2.2.2.1 (by simpa using hstorable.ids),
      List.nil_append] at hgot
    obtain ⟨back, hback, heq⟩ := List.mem_map.mp hgot
    obtain ⟨old, hold, rfl⟩ := List.mem_map.mp hback
    rw [← (Prod.mk.inj heq).2, closed_ticket]
    exact (hstorable.cycles old hold).2.2
  · obtain ⟨opened, hopened, rfl⟩ := Option.map_eq_some_iff.mp hrebuilt
    obtain ⟨seqs, -, rfl⟩ := Option.map_eq_some_iff.mp hopened
    rw [prune_keeps Coordinator.closed fun _ _ => evict_closed]
    exact foldl_readmit_keeps Coordinator.closed (fun _ _ => rfl) (fun _ _ _ _ => rfl) _

/-- The coordinator is kept, and so was the one that the image is of. -/
structure System.Kept (s : System F) : Prop where
  live : Mio.Kept s.live
  disk : ∀ bytes, s.disk = some bytes → ∃ d : Coordinator F, Mio.Kept d ∧ d.snapshot = bytes

/-- The system at its first start. -/
def System.new (limits : Limits) : System F := { live := { limits } }

omit [PyRepr F] in
theorem System.kept_new (limits : Limits) : (System.new limits : System F).Kept := by
  constructor
  · exact Mio.kept_new limits
  · intro bytes hdisk
    cases hdisk

variable {s s' : System F} {event : Event} {events : List Event}

/-- **A step keeps the coordinator.** -/
theorem Step.kept (hstep : Step s event s') (h : s.Kept) : s'.Kept := by
  cases hstep with
  | begin frame => exact ⟨h.live.begins, h.disk⟩
  | complete ticket outcome => exact ⟨h.live.completes, h.disk⟩
  | cancel traceId reason => exact ⟨h.live.cancels, h.disk⟩
  | attach ticket broker => exact ⟨h.live.attaches, h.disk⟩
  | detach ticket => exact ⟨h.live.detaches, h.disk⟩
  | persist =>
    refine ⟨h.live, fun bytes hdisk => ?_⟩
    exact ⟨s.live, h.live, Option.some.inj hdisk⟩
  | restart bytes limits c hdisk hrestore =>
    obtain ⟨d, hd, rfl⟩ := h.disk bytes hdisk
    exact ⟨(hd.restores hrestore).1, h.disk⟩

/-- **So does a run.** -/
theorem run_kept (hrun : Run Step s events s') (h : s.Kept) : s'.Kept :=
  hrun.invariant (fun _ _ _ h hstep => hstep.kept h) h

/-- **In every run, across restarts, no trace has two cycles in flight, the one that is in flight is
its latest and of the running epoch, and cycles and audit stay within the limits.** -/
theorem one_in_flight (limits : Limits) (hrun : Run Step (System.new limits : System F) events s) :
    (∀ id cycle, getKey id s.live.cycles = some cycle → cycle.status = .inFlight →
      getKey cycle.ticket.traceId s.live.latest = some id ∧ cycle.ticket.epoch = s.live.epoch ∧
        ∀ id' cycle', getKey id' s.live.cycles = some cycle' → cycle'.status = .inFlight →
          cycle'.ticket.traceId = cycle.ticket.traceId → id' = id) ∧
      s.live.inFlight ≤ s.live.limits.maxTraces ∧
      s.live.finished.length ≤ s.live.limits.maxRetained ∧
      s.live.trail.rows.length ≤ s.live.limits.maxAudit := by
  have h := (run_kept hrun (System.kept_new limits)).live
  refine ⟨?_, h.bounded.flights, h.bounded.finished, h.bounded.rows⟩
  intro id cycle hget hstatus
  obtain ⟨hlatest, hepoch⟩ := h.sound.flight id cycle hget hstatus
  refine ⟨hlatest, hepoch, ?_⟩
  intro id' cycle' hget' hstatus' htrace
  have hlatest' := (h.sound.flight id' cycle' hget' hstatus').1
  rw [htrace, hlatest] at hlatest'
  exact (Option.some.inj hlatest').symm

theorem one_in_flight_two_frames : ∃ events, ∃ s : System NaN,
    Run Step (System.new {}) events s ∧ events.length = 2 ∧ s.live.inFlight ≤ s.live.limits.maxTraces := by
  have hrun := Run.head (Step.begin (System.new {} : System NaN) ⟨[], [], []⟩)
    (Run.single (Step.begin _ ⟨[], [], [0]⟩))
  exact ⟨_, _, hrun, rfl, (one_in_flight {} hrun).2.1⟩

/-- A step that is no restart writes rows, and no more. -/
theorem Step.extends (hstep : Step s event s') (hrestart : ∀ l, event ≠ .restarted l) :
    Extends s.live s'.live := by
  cases hstep with
  | begin frame => exact begin_cases.extends
  | complete ticket outcome => exact (complete_cases ticket).extends
  | cancel traceId reason => exact cancel_cases.extends
  | attach ticket broker => exact extends_attachBroker
  | detach ticket => exact extends_closeBroker
  | persist => exact Extends.refl s.live
  | restart bytes limits c hdisk hrestore => exact absurd rfl (hrestart limits)

/-- The coordinator keeps `maxAudit` rows, and counted every other one. -/
structure Counted (maxAudit : ℕ) (c : Coordinator F) : Prop where
  kept : Mio.Kept c
  limit : c.limits.maxAudit = maxAudit
  uncounted : c.trail.uncounted = 0

theorem Counted.extends {maxAudit : ℕ} (h : Counted maxAudit c) (hextends : Extends c d)
    (hkept : Mio.Kept d) : Counted maxAudit d := by
  constructor
  · exact hkept
  · rw [hextends.limits]
    exact h.limit
  · exact written_keeps (P := fun trail => trail.uncounted = 0)
      (fun _ _ hwrite heq => hwrite.uncounted.trans heq) hextends.written h.uncounted

/-- The same of the system. -/
structure System.Counted (maxAudit : ℕ) (s : System F) : Prop where
  live : Mio.Counted maxAudit s.live
  disk : ∀ bytes, s.disk = some bytes → ∃ d : Coordinator F, Mio.Counted maxAudit d ∧ d.snapshot = bytes

theorem Step.counted {maxAudit : ℕ} (hstep : Step s event s')
    (hsame : ∀ l, event = .restarted l → l.maxAudit = maxAudit) (h : s.Counted maxAudit) :
    s'.Counted maxAudit := by
  cases hstep with
  | begin frame => exact ⟨h.live.extends begin_cases.extends h.live.kept.begins, h.disk⟩
  | complete ticket outcome =>
    exact ⟨h.live.extends (complete_cases ticket).extends h.live.kept.completes, h.disk⟩
  | cancel traceId reason => exact ⟨h.live.extends cancel_cases.extends h.live.kept.cancels, h.disk⟩
  | attach ticket broker => exact ⟨h.live.extends extends_attachBroker h.live.kept.attaches, h.disk⟩
  | detach ticket => exact ⟨h.live.extends extends_closeBroker h.live.kept.detaches, h.disk⟩
  | persist =>
    refine ⟨h.live, fun bytes hdisk => ?_⟩
    exact ⟨s.live, h.live, Option.some.inj hdisk⟩
  | restart bytes limits c hdisk hrestore =>
    obtain ⟨d, hd, rfl⟩ := h.disk bytes hdisk
    obtain ⟨hkept, hrestores⟩ := hd.kept.restores hrestore
    have hlimit := hsame limits rfl
    refine ⟨⟨hkept, ?_, ?_⟩, h.disk⟩
    · rw [hrestores.limits]
      exact hlimit
    · have hrows := hd.kept.bounded.rows
      rw [hd.limit] at hrows
      rw [hrestores.uncounted, hd.uncounted, hlimit, Nat.sub_eq_zero_of_le hrows]
      rfl

end Steps

end AzazelEdge.Mio
