/-
# The brokers of the cycles

`run_cycle` attaches a broker of its own to every cycle and detaches it when the loop has come back.
In between the coordinator closes it when the cycle is superseded or cancelled.  So a broker that was
attached is open or closed, and was closed once; and none is open for a cycle whose result will not
be taken.
-/
import AzazelEdge.Mio.Served

namespace AzazelEdge.Mio

open AzazelEdge.Lib AzazelEdge.Lib.Py
open AzazelEdge.Audit (Row getKey_popKey popKey_keys_nodup)

/-! ## 1. Nothing is lost -/

variable {F : Type} {c c' c'' : Coordinator F} {cycle old : Cycle} {cycleId traceId reason : PyStr}

/-- The brokers that are closed or open. -/
def Coordinator.brokered (c : Coordinator F) : List ℕ := c.closed ++ c.brokers.map Prod.snd

/-- No broker is opened; what is no longer open is closed. -/
structure Releases (c c' : Coordinator F) : Prop where
  keys : (c.brokers.map Prod.fst).Nodup → (c'.brokers.map Prod.fst).Nodup
  perm : (c.brokers.map Prod.fst).Nodup → c'.brokered.Perm c.brokered
  sub : ∀ id broker, getKey id c'.brokers = some broker → getKey id c.brokers = some broker

theorem releases_of_eq (hbrokers : c'.brokers = c.brokers) (hclosed : c'.closed = c.closed) :
    Releases c c' := by
  constructor
  · intro hkeys
    rw [hbrokers]
    exact hkeys
  · intro _
    rw [Coordinator.brokered, hbrokers, hclosed]
    rfl
  · intro id broker hget
    rw [← hbrokers]
    exact hget

theorem Releases.trans (h : Releases c c') (h' : Releases c' c'') : Releases c c'' := by
  constructor
  · intro hkeys
    exact h'.keys (h.keys hkeys)
  · intro hkeys
    exact (h'.perm (h.keys hkeys)).trans (h.perm hkeys)
  · intro id broker hget
    exact h.sub id broker (h'.sub id broker hget)

/-- A dict without one of its keys. -/
theorem popKey_perm {α : Type} {d : List (PyStr × α)} {key : PyStr} {v : α}
    (hd : (d.map Prod.fst).Nodup) (hget : getKey key d = some v) :
    (v :: (popKey key d).map Prod.snd).Perm (d.map Prod.snd) := by
  induction d with
  | nil => cases hget
  | cons item d ih =>
    obtain ⟨k, w⟩ := item
    obtain ⟨hfresh, hd⟩ := List.nodup_cons.mp hd
    rw [getKey] at hget
    split_ifs at hget with hk
    · subst hk
      have hrest : popKey k d = d := Audit.popKey_of_not_mem hfresh
      have hpop : popKey k ((k, w) :: d) = popKey k d := by simp [popKey]
      rw [hpop, hrest, Option.some.inj hget]
      rfl
    · have hpop : popKey key ((k, w) :: d) = (k, w) :: popKey key d := by simp [popKey, hk]
      rw [hpop]
      exact (List.Perm.swap w v _).trans ((ih hd hget).cons w)

theorem releases_closeBroker : Releases c (c.closeBroker cycleId) := by
  unfold Coordinator.closeBroker
  cases hget : getKey cycleId c.brokers with
  | none => exact releases_of_eq rfl rfl
  | some broker =>
    constructor
    · intro hkeys
      exact popKey_keys_nodup cycleId hkeys
    · intro hkeys
      have hperm := (popKey_perm hkeys hget).append_left c.closed
      rw [Coordinator.brokered, List.append_assoc, List.singleton_append]
      exact hperm
    · intro id found hfound
      have hpop : getKey id (popKey cycleId c.brokers) = some found := hfound
      rw [getKey_popKey] at hpop
      split_ifs at hpop
      exact hpop

theorem closeBroker_brokers : (c.closeBroker cycleId).brokers = popKey cycleId c.brokers := by
  unfold Coordinator.closeBroker
  cases hget : getKey cycleId c.brokers with
  | none => exact (Audit.popKey_of_not_mem (getKey_eq_none.mp hget)).symm
  | some broker => rfl

/-! ## 2. Whose brokers are open -/

/-- The cycle may get its result, or has it. -/
def Cycle.Live (cycle : Cycle) : Prop := cycle.status = .inFlight ∨ cycle.status = .accepted

/-- Brokers are open for cycles that may get their result, or have it. -/
def Attended (c : Coordinator F) : Prop :=
  ∀ id broker cycle, getKey id c.brokers = some broker → getKey id c.cycles = some cycle → cycle.Live

/-- A move that leaves open only what was open, for a cycle that was recorded with its status. -/
theorem Attended.of_sub (h : Attended c)
    (hsub : ∀ id broker, getKey id c'.brokers = some broker → getKey id c.brokers = some broker ∧
      ∀ cycle, getKey id c'.cycles = some cycle →
        cycle.Live ∨ ∃ old, getKey id c.cycles = some old ∧ cycle.status = old.status) :
    Attended c' := by
  intro id broker cycle hbroker hget
  obtain ⟨hopen, hcycle⟩ := hsub id broker hbroker
  rcases hcycle cycle hget with hlive | ⟨old, hold, hstatus⟩
  · exact hlive
  · have hlive := h id broker old hopen hold
    rw [Cycle.Live, hstatus]
    exact hlive

theorem Attended.of_eq (h : Attended c) (hbrokers : c'.brokers = c.brokers)
    (hcycles : c'.cycles = c.cycles) : Attended c' := by
  intro id broker cycle hbroker hget
  exact h id broker cycle (hbrokers ▸ hbroker) (hcycles ▸ hget)

/-- One record changes, and the broker of its cycle is closed. -/
theorem Attended.pop (h : Attended c) (hbrokers : c'.brokers = popKey cycleId c.brokers)
    (hcycles : ∀ id, cycleId ≠ id → getKey id c'.cycles = getKey id c.cycles) : Attended c' := by
  intro id broker cycle hbroker hget
  rw [hbrokers, getKey_popKey] at hbroker
  split_ifs at hbroker with hother
  rw [hcycles id hother] at hget
  exact h id broker cycle hbroker hget

theorem Attended.put_live (h : Attended c)
    (hlive : cycle.Live ∨ ∃ old, getKey cycle.ticket.cycleId c.cycles = some old ∧
      cycle.status = old.status) : Attended (c.put cycle) := by
  refine h.of_sub fun id broker hbroker => ⟨hbroker, ?_⟩
  intro found hget
  rw [Coordinator.put, getKey_setKey] at hget
  split_ifs at hget with hid
  · rw [← Option.some.inj hget, ← hid]
    exact hlive
  · exact .inr ⟨found, hget, rfl⟩

/-- A broker is attached to a cycle in flight, or closed at once. -/
theorem Attended.attachBroker {ticket : CycleTicket} {broker : ℕ} (h : Attended c) :
    Attended (c.attachBroker ticket broker) := by
  unfold Coordinator.attachBroker
  dsimp only
  split_ifs with hflight
  · intro id found cycle hbroker hget
    have hset : getKey id (setKey ticket.cycleId broker c.brokers) = some found := hbroker
    rw [getKey_setKey] at hset
    split_ifs at hset with hid
    · have hown : getKey ticket.cycleId c.cycles = some cycle := hid ▸ hget
      rw [hown, Option.any_some, decide_eq_true_eq] at hflight
      exact .inl hflight
    · exact h id found cycle hset hget
  · intro id found cycle hbroker hget
    rw [closeBroker_brokers, getKey_popKey] at hbroker
    split_ifs at hbroker with hother
    have hset : getKey id (setKey ticket.cycleId broker c.brokers) = some found := hbroker
    rw [getKey_setKey, if_neg hother] at hset
    rw [closeBroker_cycles] at hget
    exact h id found cycle hset hget

section Methods

variable [PyFloat F] [PyRepr F] {frame : Frame} {ticket : CycleTicket} {outcome : CycleOutcome}
  {event : String} {who : Option Cycle} {fields : Row F}

theorem prune_releases : Releases c c.prune :=
  releases_of_eq (prune_keeps Coordinator.brokers fun _ _ => evict_brokers)
    (prune_keeps Coordinator.closed fun _ _ => evict_closed)

theorem Attended.prune (h : Attended c) : Attended c.prune := by
  refine h.of_sub fun id broker hbroker => ⟨prune_releases.sub id broker hbroker, ?_⟩
  intro cycle hget
  exact .inr ⟨cycle, prune_sub.1 id cycle hget, rfl⟩

theorem makeWay_releases : Releases c (c.makeWay old frame) := by
  have hsupersede : Releases c (c.supersede old (c.mint frame).cycleId) := by
    unfold Coordinator.supersede
    split_ifs
    · exact (releases_of_eq rfl rfl : Releases c ((c.put old.displaced).log _ _ _)).trans
        releases_closeBroker
    · exact releases_of_eq rfl rfl
  refine hsupersede.trans ?_
  unfold Coordinator.makeWay Coordinator.retire
  split_ifs
  · exact releases_of_eq rfl rfl
  · exact releases_of_eq rfl rfl

theorem Attended.makeWay (h : Attended c) : Attended (c.makeWay old frame) := by
  have hsupersede : Attended (c.supersede old (c.mint frame).cycleId) := by
    unfold Coordinator.supersede
    split_ifs
    · refine h.pop closeBroker_brokers fun id hother => ?_
      rw [closeBroker_cycles]
      exact (getKey_setKey _ _ _ _).trans (if_neg (by rwa [(changes_displaced old).ticket]))
    · exact h
  refine hsupersede.of_eq ?_ ?_
  · unfold Coordinator.makeWay Coordinator.retire
    split_ifs <;> rfl
  · exact retire_cycles

/-- A new cycle is in flight. -/
theorem Attended.start (h : Attended c) : Attended (c.start ticket) := by
  have hrecord : Attended (c.record ticket) := by
    refine h.of_sub fun id broker hbroker => ⟨hbroker, ?_⟩
    intro cycle hget
    rw [Coordinator.record, getKey_setKey] at hget
    split_ifs at hget with hid
    · rw [← Option.some.inj hget]
      exact .inl (.inl rfl)
    · exact .inr ⟨cycle, hget, rfl⟩
  exact (hrecord.of_eq rfl rfl : Attended ((c.record ticket).log _ _ _)).prune

theorem start_releases : Releases c (c.start ticket) :=
  (releases_of_eq rfl rfl : Releases c ((c.record ticket).log _ _ _)).trans prune_releases

theorem Begins.releases {result : Coordinator F × Option CycleTicket} (hbegin : Begins c frame result) :
    Releases c result.1 := by
  cases hbegin with
  | same old hlatest hstatus hdigest => exact releases_of_eq rfl rfl
  | full hfree hfull => exact releases_of_eq rfl rfl
  | next old hlatest hdigest hroom => exact makeWay_releases.trans start_releases
  | first hlatest hroom => exact start_releases

theorem Begins.attended {result : Coordinator F × Option CycleTicket} (hbegin : Begins c frame result)
    (h : Attended c) : Attended result.1 := by
  cases hbegin with
  | same old hlatest hstatus hdigest => exact h.of_eq rfl rfl
  | full hfree hfull => exact h.of_eq rfl rfl
  | next old hlatest hdigest hroom => exact h.makeWay.start
  | first hlatest hroom => exact h.start

theorem Cancels.releases {result : Coordinator F × Bool} (hcancel : Cancels c traceId reason result) :
    Releases c result.1 := by
  cases hcancel with
  | cancelled cycle hget hstatus =>
    exact ((releases_of_eq rfl rfl : Releases c ((c.put cycle.cancelled).log _ _ _)).trans
      releases_closeBroker).trans prune_releases
  | idle => exact releases_of_eq rfl rfl

theorem Cancels.attended {result : Coordinator F × Bool} (hcancel : Cancels c traceId reason result)
    (h : Attended c) : Attended result.1 := by
  cases hcancel with
  | cancelled cycle hget hstatus =>
    refine Attended.prune ?_
    refine h.pop closeBroker_brokers fun id hother => ?_
    rw [closeBroker_cycles]
    exact (getKey_setKey _ _ _ _).trans (if_neg hother)
  | idle => exact h

theorem Completes.releases {offered : Option CycleTicket} {result : Coordinator F × CompletionResult}
    (hcomplete : Completes c outcome offered result) : Releases c result.1 := by
  cases hcomplete with
  | accepted ticket cycle hget hsame hepoch hstatus =>
    have hlogged : Releases c ({ c.put (cycle.settledBy outcome) with
        current := setKey cycle.ticket.traceId outcome c.current }.log "result_accepted"
          (some (cycle.settledBy outcome)) [(pyStr "outcome_state", .str outcome.state),
            (pyStr "advisory_id", .str outcome.advisoryId)]) := releases_of_eq rfl rfl
    exact hlogged.trans prune_releases
  | discarded ticket cycle hget hsame hstale reason status =>
    unfold Coordinator.discard
    split_ifs <;> exact releases_of_eq rfl rfl
  | counted ticket hother reason status => exact releases_of_eq rfl rfl

theorem Completes.attended {offered : Option CycleTicket} {result : Coordinator F × CompletionResult}
    (hcomplete : Completes c outcome offered result) (hsound : Sound c) (h : Attended c) :
    Attended result.1 := by
  cases hcomplete with
  | accepted ticket cycle hget hsame hepoch hstatus =>
    have hput : Attended (c.put (cycle.settledBy outcome)) := h.put_live (.inl (.inr rfl))
    have hlogged : Attended ({ c.put (cycle.settledBy outcome) with
        current := setKey cycle.ticket.traceId outcome c.current }.log "result_accepted"
          (some (cycle.settledBy outcome)) [(pyStr "outcome_state", .str outcome.state),
            (pyStr "advisory_id", .str outcome.advisoryId)]) := hput.of_eq rfl rfl
    exact hlogged.prune
  | discarded ticket cycle hget hsame hstale reason status =>
    have hput : Attended (c.put cycle.refused) :=
      h.put_live (.inr ⟨cycle, hsound.recorded hget, rfl⟩)
    unfold Coordinator.discard
    split_ifs
    · exact hput.of_eq rfl rfl
    · exact hput
  | counted ticket hother reason status => exact h.of_eq rfl rfl

/-! ## 3. Every broker of a run -/

/-- A broker is attached to a cycle. -/
def Event.attachment : Event → Option (PyStr × ℕ)
  | .attached ticket broker => some (ticket.cycleId, broker)
  | _ => none

/-- The brokers that were attached since the last restart, and their cycles. -/
def attachments (events : List Event) : List (PyStr × ℕ) :=
  (recent events).filterMap Event.attachment

variable {s s' : System F} {events : List Event} {ev : Event}

omit [PyFloat F] [PyRepr F] in
theorem attachments_snoc (hrestart : ∀ l, ev ≠ .restarted l) :
    attachments (events ++ [ev]) = ev.attachment.toList ++ attachments events := by
  rw [attachments, recent_snoc hrestart]
  cases hattachment : ev.attachment <;> simp [attachments, hattachment]

/-- The brokers of a run, beside the coordinator. -/
structure Accounted (events : List Event) (s : System F) : Prop where
  kept : s.Kept
  attended : Attended s.live
  keys : (s.live.brokers.map Prod.fst).Nodup
  known : ∀ id broker, getKey id s.live.brokers = some broker →
    id ∈ (attachments events).map Prod.fst
  perm : ((attachments events).map Prod.fst).Nodup →
    s.live.brokered.Perm ((attachments events).map Prod.snd)

/-- A step that attaches no broker. -/
theorem Accounted.releases (h : Accounted events s) (hstep : Step s ev s')
    (hrestart : ∀ l, ev ≠ .restarted l) (hattachment : ev.attachment = none)
    (hreleases : Releases s.live s'.live) (hattended : Attended s'.live) :
    Accounted (events ++ [ev]) s' := by
  have hsame : attachments (events ++ [ev]) = attachments events := by
    rw [attachments_snoc hrestart, hattachment]
    rfl
  refine ⟨hstep.kept h.kept, hattended, hreleases.keys h.keys, ?_, ?_⟩
  · intro id broker hget
    rw [hsame]
    exact h.known id broker (hreleases.sub id broker hget)
  · intro hdistinct
    rw [hsame] at hdistinct ⊢
    exact (hreleases.perm h.keys).trans (h.perm hdistinct)

/-- A broker is attached. -/
theorem Accounted.attach {ticket : CycleTicket} {broker : ℕ} (h : Accounted events s) :
    Accounted (events ++ [.attached ticket broker])
      { s with live := s.live.attachBroker ticket broker } := by
  have hcons : attachments (events ++ [.attached ticket broker]) =
      (ticket.cycleId, broker) :: attachments events :=
    attachments_snoc (fun l hl => by cases hl)
  -- the table before it is seen whether the cycle is still in flight
  have hopened : Releases { s.live with brokers := setKey ticket.cycleId broker s.live.brokers }
      (s.live.attachBroker ticket broker) := by
    unfold Coordinator.attachBroker
    dsimp only
    split_ifs
    · exact releases_of_eq rfl rfl
    · exact releases_closeBroker
  have hkeys : ((setKey ticket.cycleId broker s.live.brokers).map Prod.fst).Nodup :=
    setKey_keys_nodup h.keys
  refine ⟨(Step.attach s ticket broker).kept h.kept, h.attended.attachBroker, hopened.keys hkeys, ?_, ?_⟩
  · intro id found hget
    have hset : getKey id (setKey ticket.cycleId broker s.live.brokers) = some found :=
      hopened.sub id found hget
    rw [getKey_setKey] at hset
    rw [hcons, List.map_cons]
    split_ifs at hset with hid
    · exact hid ▸ List.mem_cons_self
    · exact List.mem_cons_of_mem _ (h.known id found hset)
  · intro hdistinct
    rw [hcons, List.map_cons] at hdistinct ⊢
    obtain ⟨hnew, hdistinct⟩ := List.nodup_cons.mp hdistinct
    have hfresh : ticket.cycleId ∉ s.live.brokers.map Prod.fst := by
      intro hmem
      obtain ⟨found, hfound⟩ := Option.isSome_iff_exists.mp (getKey_isSome.mpr hmem)
      exact hnew (h.known _ found hfound)
    refine (hopened.perm hkeys).trans ?_
    rw [Coordinator.brokered, setKey_of_not_mem hfresh, List.map_append, ← List.append_assoc]
    exact (List.perm_append_singleton broker _).trans ((h.perm hdistinct).cons broker)

theorem Accounted.step (h : Accounted events s) (hstep : Step s ev s') :
    Accounted (events ++ [ev]) s' := by
  have hkept := hstep.kept h.kept
  have hcopy := hstep
  cases hstep with
  | begin frame =>
    exact h.releases hcopy (by simp) rfl begin_cases.releases (begin_cases.attended h.attended)
  | complete ticket outcome =>
    exact h.releases hcopy (by simp) rfl (complete_cases ticket).releases
      ((complete_cases ticket).attended h.kept.live.sound h.attended)
  | cancel traceId reason =>
    exact h.releases hcopy (by simp) rfl cancel_cases.releases (cancel_cases.attended h.attended)
  | attach ticket broker => exact h.attach
  | detach ticket =>
    refine h.releases hcopy (by simp) rfl releases_closeBroker ?_
    refine h.attended.pop closeBroker_brokers fun id _ => ?_
    exact congrArg (getKey id) closeBroker_cycles
  | persist => exact h.releases hcopy (by simp) rfl (releases_of_eq rfl rfl) h.attended
  | restart bytes limits c hdisk hrestore =>
    obtain ⟨d, hd, rfl⟩ := h.kept.disk bytes hdisk
    obtain ⟨-, hrestores⟩ := hd.restores hrestore
    have hnone : attachments (events ++ [.restarted limits]) = [] := by
      simp [attachments, recent]
    refine ⟨hkept, ?_, ?_, ?_, ?_⟩
    · intro id broker cycle hbroker
      rw [hrestores.brokers] at hbroker
      cases hbroker
    · dsimp only
      rw [hrestores.brokers]
      exact List.nodup_nil
    · intro id broker hget
      rw [hrestores.brokers] at hget
      cases hget
    · intro _
      rw [hnone, Coordinator.brokered, hrestores.brokers, hrestores.closed]
      rfl

end Methods

end AzazelEdge.Mio
