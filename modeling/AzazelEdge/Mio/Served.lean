/-
# Which results are served

The history of a run says which tickets were handed out (`issued`) and which results were taken
(`taken`).  No cycle is opened twice and no cycle gets two results, and what `current` has of a trace
is the last result that was taken for it, reasoned from the material situation that it is in.
-/
import AzazelEdge.Mio.Restarts

namespace AzazelEdge.Mio

open AzazelEdge.Lib AzazelEdge.Lib.Py
open AzazelEdge.Audit (Row getKey_popKey)

/-! ## 1. What a move leaves -/

variable {F : Type} {c c' c'' : Coordinator F} {cycle old : Cycle}

/-- Nothing is recorded, latest or current that was not so before, and a cycle that was over keeps
its status. -/
structure Narrows (c c' : Coordinator F) : Prop where
  cycles : ∀ id cycle, getKey id c'.cycles = some cycle →
    ∃ old, getKey id c.cycles = some old ∧ Changes old cycle
  latest : ∀ traceId id, getKey traceId c'.latest = some id → getKey traceId c.latest = some id
  current : ∀ traceId outcome, getKey traceId c'.current = some outcome →
    getKey traceId c.current = some outcome

theorem narrows_of_eq (hcycles : c'.cycles = c.cycles) (hlatest : c'.latest = c.latest)
    (hcurrent : c'.current = c.current) : Narrows c c' := by
  constructor
  · intro id cycle hget
    exact ⟨cycle, hcycles ▸ hget, Changes.refl cycle⟩
  · intro traceId id hget
    exact hlatest ▸ hget
  · intro traceId outcome hget
    exact hcurrent ▸ hget

theorem Narrows.refl (c : Coordinator F) : Narrows c c := narrows_of_eq rfl rfl rfl

theorem Narrows.trans (h : Narrows c c') (h' : Narrows c' c'') : Narrows c c'' := by
  constructor
  · intro id cycle hget
    obtain ⟨mid, hmid, hchange'⟩ := h'.cycles id cycle hget
    obtain ⟨old, hold, hchange⟩ := h.cycles id mid hmid
    exact ⟨old, hold, hchange.trans hchange'⟩
  · intro traceId id hget
    exact h.latest traceId id (h'.latest traceId id hget)
  · intro traceId outcome hget
    exact h.current traceId outcome (h'.current traceId outcome hget)

theorem narrows_put (hrec : Recorded c old) (hchange : Changes old cycle) : Narrows c (c.put cycle) := by
  refine ⟨?_, fun _ _ h => h, fun _ _ h => h⟩
  intro id found hget
  rw [Coordinator.put, getKey_setKey] at hget
  split_ifs at hget with hid
  · refine ⟨old, ?_, Option.some.inj hget ▸ hchange⟩
    rw [← hid, hchange.ticket]
    exact hrec
  · exact ⟨found, hget, Changes.refl found⟩

theorem narrows_closeBroker {cycleId : PyStr} : Narrows c (c.closeBroker cycleId) :=
  narrows_of_eq closeBroker_cycles closeBroker_latest closeBroker_current

theorem narrows_attachBroker {ticket : CycleTicket} {broker : ℕ} :
    Narrows c (c.attachBroker ticket broker) := by
  have hattached : Narrows c { c with brokers := setKey ticket.cycleId broker c.brokers } :=
    narrows_of_eq rfl rfl rfl
  unfold Coordinator.attachBroker
  dsimp only
  split_ifs
  · exact hattached
  · exact hattached.trans narrows_closeBroker

section Methods

variable [PyFloat F] [PyRepr F] {event : String} {who : Option Cycle} {fields : Row F}
  {cycleId traceId reason : PyStr} {frame : Frame} {ticket : CycleTicket} {outcome : CycleOutcome}

theorem narrows_log : Narrows c (c.log event who fields) := narrows_of_eq rfl rfl rfl

theorem narrows_evict : Narrows c (c.evict cycle) := by
  constructor
  · intro id found hget
    exact ⟨found, (getKey_evict hget).1, Changes.refl found⟩
  · intro traceId id hget
    rw [evict_latest] at hget
    split_ifs at hget
    · rw [getKey_popKey] at hget
      split_ifs at hget
      exact hget
    · exact hget
  · intro traceId outcome hget
    rw [evict_current] at hget
    split_ifs at hget
    · rw [getKey_popKey] at hget
      split_ifs at hget
      exact hget
    · exact hget

theorem narrows_prune : Narrows c c.prune :=
  prune_of (P := Narrows c) (fun _ _ h => h.trans narrows_evict) (Narrows.refl c)

theorem narrows_supersede (hrec : Recorded c old) : Narrows c (c.supersede old cycleId) := by
  unfold Coordinator.supersede
  split_ifs
  · exact ((narrows_put hrec (changes_displaced old)).trans narrows_log).trans narrows_closeBroker
  · exact Narrows.refl c

theorem narrows_retire : Narrows c (c.retire old frame cycleId) := by
  unfold Coordinator.retire
  split_ifs
  · refine ⟨fun id found hget => ⟨found, hget, Changes.refl found⟩, fun _ _ h => h, ?_⟩
    intro traceId outcome hget
    have hpop : getKey traceId (popKey frame.traceId c.current) = some outcome := hget
    rw [getKey_popKey] at hpop
    split_ifs at hpop
    exact hpop
  · exact Narrows.refl c

theorem narrows_makeWay (hrec : Recorded c old) : Narrows c (c.makeWay old frame) :=
  (narrows_supersede hrec).trans narrows_retire

theorem narrows_discard {stale : StaleReason} (hrec : Recorded c cycle) :
    Narrows c (c.discard cycle ticket outcome stale) := by
  have hput := narrows_put hrec (⟨rfl, fun _ => rfl⟩ : Changes cycle cycle.refused)
  unfold Coordinator.discard
  split_ifs
  · exact hput.trans narrows_log
  · exact hput

theorem Cancels.narrows {result : Coordinator F × Bool} (hcancel : Cancels c traceId reason result)
    (h : Sound c) : Narrows c result.1 := by
  cases hcancel with
  | cancelled cycle hget hstatus =>
    have hchange : Changes cycle cycle.cancelled := changes_of_flight rfl hstatus
    exact (((narrows_put (h.recorded hget) hchange).trans narrows_log).trans
      narrows_closeBroker).trans narrows_prune
  | idle => exact Narrows.refl c

/-- What a cycle is opened over: the trace has no current advisory left, unless it was reasoned
from the same material situation. -/
structure ReadyFor (c : Coordinator F) (frame : Frame) (m : Coordinator F) : Prop where
  narrows : Narrows c m
  epoch : m.epoch = c.epoch
  nextCycle : m.nextCycle = c.nextCycle
  current : ∀ outcome, getKey frame.traceId m.current = some outcome →
    ∃ old, c.latestCycle frame.traceId = some old ∧ old.ticket.materialDigest = frame.digest

theorem makeWay_ready (h : Sound c) (hlatest : c.latestCycle frame.traceId = some old) :
    ReadyFor c frame (c.makeWay old frame) := by
  refine ⟨narrows_makeWay (recorded_latestCycle h hlatest).1, by simp [Coordinator.makeWay],
    by simp [Coordinator.makeWay], ?_⟩
  intro outcome hget
  refine ⟨old, hlatest, ?_⟩
  by_contra hdigest
  rw [Coordinator.makeWay, Coordinator.retire] at hget
  split_ifs at hget with hretire
  · have hpop : getKey frame.traceId (popKey frame.traceId
        (c.supersede old (c.mint frame).cycleId).current) = some outcome := hget
    rw [getKey_popKey, if_pos rfl] at hpop
    cases hpop
  · exact hretire ⟨by rw [hget]; rfl, hdigest⟩

omit [PyFloat F] [PyRepr F] in
/-- A trace without a latest cycle has no current advisory. -/
theorem ready_self (h : Sound c) (hlatest : c.latestCycle frame.traceId = none) :
    ReadyFor c frame c := by
  refine ⟨Narrows.refl c, rfl, rfl, ?_⟩
  intro outcome hget
  obtain ⟨id, hid⟩ := Option.isSome_iff_exists.mp (h.current frame.traceId outcome hget)
  obtain ⟨cycle, hcycle, -⟩ := h.latest frame.traceId id hid
  rw [latestCycle_eq h, hid, Option.bind_some, hcycle] at hlatest
  cases hlatest

/-- What `begin` gives: no ticket, the ticket of the cycle in flight, or that of a new cycle. -/
inductive Opens (c : Coordinator F) (frame : Frame) : Coordinator F × Option CycleTicket → Prop
  | rejected (d : Coordinator F) (hnarrows : Narrows c d) : Opens c frame (d, none)
  | same (d : Coordinator F) (old : Cycle) (hlatest : c.latestCycle frame.traceId = some old)
      (hdigest : old.ticket.materialDigest = frame.digest) (hnarrows : Narrows c d) :
      Opens c frame (d, some { old.ticket with deduplicated := true })
  | fresh (d m : Coordinator F) (hready : ReadyFor c frame m) (hnext : c.nextCycle < d.nextCycle)
      (hnarrows : Narrows (m.record (c.mint frame)) d) : Opens c frame (d, some (c.mint frame))

theorem Begins.opens {result : Coordinator F × Option CycleTicket} (hbegin : Begins c frame result)
    (h : Sound c) : Opens c frame result := by
  cases hbegin with
  | same old hlatest hstatus hdigest => exact .same _ old hlatest hdigest narrows_log
  | full hfree hfull => exact .rejected _ narrows_log
  | next old hlatest hdigest hroom =>
    refine .fresh _ _ (makeWay_ready h hlatest) ?_ (narrows_log.trans narrows_prune)
    simp [Coordinator.start, Coordinator.log, Coordinator.record, Coordinator.makeWay]
  | first hlatest hroom =>
    refine .fresh _ c (ready_self h hlatest) ?_ (narrows_log.trans narrows_prune)
    simp [Coordinator.start, Coordinator.log, Coordinator.record]

end Methods

/-! ## 2. The history of a run -/

/-- The ticket of a new cycle. -/
def Event.issued : Event → Option CycleTicket
  | .begun _ (some ticket) => if ticket.deduplicated then none else some ticket
  | _ => none

/-- The tickets of all cycles that were opened. -/
def issued (events : List Event) : List CycleTicket := events.filterMap Event.issued

/-- A result that was taken, with its ticket. -/
def Event.taken : Event → Option (CycleTicket × CycleOutcome)
  | .completed (some ticket) outcome result => if result.accepted then some (ticket, outcome) else none
  | _ => none

/-- All results that were taken. -/
def taken (events : List Event) : List (CycleTicket × CycleOutcome) := events.filterMap Event.taken

/-- The image is of the running epoch, behind an event. -/
def Event.saves (before : Bool) : Event → Bool
  | .persisted => true
  | .restarted _ => false
  | _ => before

/-- The image is of the running epoch, if there is one. -/
def saved (events : List Event) : Bool := events.foldl Event.saves true

/-- Behind a restart, the image is saved before a cycle is opened. -/
def Careful (events : List Event) : Prop :=
  ∀ before frame ticket after, events = before ++ .begun frame ticket :: after → saved before = true

theorem issued_snoc (events : List Event) (event : Event) :
    issued (events ++ [event]) = issued events ++ event.issued.toList := by
  rw [issued, List.filterMap_append]
  cases hissued : event.issued <;> simp [issued, hissued]

theorem taken_snoc (events : List Event) (event : Event) :
    taken (events ++ [event]) = taken events ++ event.taken.toList := by
  rw [taken, List.filterMap_append]
  cases htaken : event.taken <;> simp [taken, htaken]

theorem saved_snoc (events : List Event) (event : Event) :
    saved (events ++ [event]) = event.saves (saved events) := by
  simp [saved]

theorem Careful.left {events more : List Event} (h : Careful (events ++ more)) : Careful events := by
  intro before frame ticket after heq
  refine h before frame ticket (after ++ more) ?_
  rw [heq, List.append_assoc, List.cons_append]

theorem Careful.last {events : List Event} {frame : Frame} {ticket : Option CycleTicket}
    (h : Careful (events ++ [.begun frame ticket])) : saved events = true :=
  h events frame ticket [] rfl

section Histories

variable [PyFloat F] [PyRepr F] {s s' : System F} {event : Event} {events : List Event}

omit [PyFloat F] [PyRepr F] in
theorem not_flight_of_none {id : PyStr} (h : c.inFlight = 0) (hget : getKey id c.cycles = some cycle) :
    cycle.status ≠ .inFlight := by
  rw [Coordinator.inFlight, List.countP_eq_zero] at h
  simpa using h _ (getKey_mem hget)

/-- Every record was a record before, or is that of the new cycle. -/
theorem Step.records (hstep : Step s event s') (h : s.Kept) (hrestart : ∀ l, event ≠ .restarted l)
    {id : PyStr} (hget : getKey id s'.live.cycles = some cycle) :
    (∃ ticket, event.issued = some ticket ∧ id = ticket.cycleId ∧ cycle.ticket = ticket) ∨
      ∃ old, getKey id s.live.cycles = some old ∧ Changes old cycle := by
  cases hstep with
  | begin frame =>
    have hopens := (begin_cases : Begins s.live frame _).opens h.live.sound
    generalize s.live.begin frame = result at hopens hget
    cases hopens with
    | rejected d hnarrows => exact .inr (hnarrows.cycles id cycle hget)
    | same d old hlatest hdigest hnarrows => exact .inr (hnarrows.cycles id cycle hget)
    | fresh d m hready hnext hnarrows =>
      obtain ⟨mid, hmid, hchange⟩ := hnarrows.cycles id cycle hget
      rw [Coordinator.record, getKey_setKey] at hmid
      split_ifs at hmid with hid
      · refine .inl ⟨s.live.mint frame, rfl, hid.symm, ?_⟩
        rw [hchange.ticket, ← Option.some.inj hmid]
      · obtain ⟨old, hold, hchange'⟩ := hready.narrows.cycles id mid hmid
        exact .inr ⟨old, hold, hchange'.trans hchange⟩
  | complete ticket outcome =>
    have hcomplete := (complete_cases ticket : Completes s.live outcome ticket _)
    generalize s.live.complete ticket outcome = result at hcomplete hget
    cases hcomplete with
    | accepted ticket own hown hsame hepoch hstatus =>
      have hchange : Changes own (own.settledBy outcome) := changes_of_flight rfl hstatus
      obtain ⟨mid, hmid, hchange'⟩ := (narrows_log.trans narrows_prune).cycles id cycle hget
      obtain ⟨old, hold, hchange''⟩ :=
        (narrows_put (h.live.sound.recorded hown) hchange).cycles id mid hmid
      exact .inr ⟨old, hold, hchange''.trans hchange'⟩
    | discarded ticket own hown hsame hstale reason status =>
      exact .inr ((narrows_discard (h.live.sound.recorded hown)).cycles id cycle hget)
    | counted ticket hother reason status => exact .inr ⟨cycle, hget, Changes.refl cycle⟩
  | cancel traceId reason =>
    exact .inr ((cancel_cases.narrows h.live.sound).cycles id cycle hget)
  | attach ticket broker => exact .inr (narrows_attachBroker.cycles id cycle hget)
  | detach ticket => exact .inr (narrows_closeBroker.cycles id cycle hget)
  | persist => exact .inr ⟨cycle, hget, Changes.refl cycle⟩
  | restart bytes limits c hdisk hrestore => exact absurd rfl (hrestart limits)

/-! ## 3. No cycle is opened twice -/

/-- A new ticket has the next number of the running epoch. -/
theorem Step.mints (hstep : Step s event s') (h : s.Kept) {ticket : CycleTicket}
    (hissued : event.issued = some ticket) :
    (∃ frame, event = .begun frame (some ticket) ∧ ticket = s.live.mint frame) ∧
      s.live.nextCycle < s'.live.nextCycle := by
  cases hstep with
  | begin frame =>
    have hopens := (begin_cases : Begins s.live frame _).opens h.live.sound
    generalize s.live.begin frame = result at hopens hissued
    cases hopens with
    | rejected d hnarrows => cases hissued
    | same d old hlatest hdigest hnarrows => cases hissued
    | fresh d m hready hnext hnarrows =>
      obtain rfl : s.live.mint frame = ticket := Option.some.inj hissued
      exact ⟨⟨frame, rfl, rfl⟩, hnext⟩
  | complete | cancel | attach | detach | persist | restart => cases hissued

/-- The tickets that were handed out, beside the coordinator and its image. -/
structure Issued (events : List Event) (s : System F) : Prop where
  kept : s.Kept
  nodup : ((issued events).map (·.cycleId)).Nodup
  numbers : ∀ ticket ∈ issued events, ∃ epoch number : ℕ, ticket.epoch = epoch ∧
    ticket.cycleId = cycleIdOf ticket.traceId epoch number ∧
      (epoch < s.live.epoch ∨
        saved events = true ∧ epoch = s.live.epoch ∧ number < s.live.nextCycle)
  flights : ∀ id cycle, getKey id s.live.cycles = some cycle → cycle.status = .inFlight →
    cycle.ticket ∈ issued events
  disk : ∀ bytes, s.disk = some bytes → ∃ d : Coordinator F, Mio.Kept d ∧ d.snapshot = bytes ∧
    d.epoch + (if saved events then 0 else 1) = s.live.epoch

omit [PyRepr F] in
/-- A new id is none of those before. -/
theorem Issued.fresh {frame : Frame} (h : Issued events s) :
    (s.live.mint frame).cycleId ∉ (issued events).map (·.cycleId) := by
  intro hmem
  obtain ⟨ticket, hticket, heq⟩ := List.mem_map.mp hmem
  obtain ⟨epoch, number, -, hid, hnumber⟩ := h.numbers ticket hticket
  rw [hid] at heq
  obtain ⟨-, hepoch, hnext⟩ := cycleIdOf_inj heq
  omega

/-- A step that is no restart, where the image is of the running epoch if it opens a cycle. -/
theorem Issued.step (h : Issued events s) (hstep : Step s event s')
    (hrestart : ∀ l, event ≠ .restarted l)
    (hcareful : ∀ frame ticket, event = .begun frame ticket → saved events = true) :
    Issued (events ++ [event]) s' := by
  have hextends := hstep.extends hrestart
  have hsaved : saved events = true → saved (events ++ [event]) = true := by
    intro hsaved
    rw [saved_snoc, hsaved]
    cases hstep <;> first | rfl | exact absurd rfl (hrestart _)
  have hold : ∀ ticket ∈ issued events, ∃ epoch number : ℕ, ticket.epoch = epoch ∧
      ticket.cycleId = cycleIdOf ticket.traceId epoch number ∧
        (epoch < s'.live.epoch ∨
          saved (events ++ [event]) = true ∧ epoch = s'.live.epoch ∧ number < s'.live.nextCycle) := by
    intro ticket hticket
    obtain ⟨epoch, number, hepoch, hid, hnumber⟩ := h.numbers ticket hticket
    refine ⟨epoch, number, hepoch, hid, ?_⟩
    rw [hextends.epoch]
    have hle := hextends.nextCycle
    rcases hnumber with hlt | ⟨hnow, heq, hlt⟩
    · exact .inl hlt
    · exact .inr ⟨hsaved hnow, heq, hlt.trans_le hle⟩
  refine ⟨hstep.kept h.kept, ?_, ?_, ?_, ?_⟩
  · rw [issued_snoc]
    cases hissued : event.issued with
    | none => simpa using h.nodup
    | some ticket =>
      obtain ⟨⟨frame, -, rfl⟩, -⟩ := hstep.mints h.kept hissued
      rw [Option.toList_some, List.map_append, List.map_singleton]
      refine List.nodup_append.mpr ⟨h.nodup, List.nodup_singleton _, ?_⟩
      intro a ha b hb heq
      rw [List.mem_singleton.mp hb] at heq
      exact h.fresh (heq ▸ ha)
  · intro ticket hticket
    rw [issued_snoc, List.mem_append, Option.mem_toList] at hticket
    rcases hticket with hticket | hissued
    · exact hold ticket hticket
    · obtain ⟨⟨frame, hevent, rfl⟩, hnext⟩ := hstep.mints h.kept hissued
      refine ⟨s.live.epoch, s.live.nextCycle, rfl, rfl, .inr ⟨hsaved (hcareful _ _ hevent), ?_, hnext⟩⟩
      rw [hextends.epoch]
  · intro id cycle hget hstatus
    rw [issued_snoc, List.mem_append, Option.mem_toList]
    rcases hstep.records h.kept hrestart hget with ⟨ticket, hissued, -, hticket⟩ | ⟨old, hold, hchange⟩
    · exact .inr (hticket ▸ hissued)
    · rw [hchange.ticket]
      exact .inl (h.flights id old hold (hchange.ended hstatus))
  · rw [hextends.epoch, saved_snoc]
    cases hstep with
    | begin | complete | cancel | attach | detach => exact h.disk
    | persist =>
      intro bytes hdisk
      exact ⟨s.live, h.kept.live, Option.some.inj hdisk, rfl⟩
    | restart bytes limits c hdisk hrestore => exact absurd rfl (hrestart limits)

/-- A restart hands out nothing, and is in an epoch of its own. -/
theorem Issued.restart {limits : Limits} (h : Issued events s) (hstep : Step s (.restarted limits) s') :
    Issued (events ++ [.restarted limits]) s' := by
  have hkept := hstep.kept h.kept
  have hissued : issued (events ++ [.restarted limits]) = issued events := by
    rw [issued_snoc]
    exact List.append_nil _
  have hunsaved : saved (events ++ [.restarted limits]) = false := saved_snoc _ _
  cases hstep with
  | restart bytes limits c hdisk hrestore =>
    obtain ⟨d, hd, rfl, hepoch⟩ := h.disk bytes hdisk
    obtain ⟨-, hrestores⟩ := hd.restores hrestore
    refine ⟨hkept, ?_, ?_, ?_, ?_⟩
    · rw [hissued]
      exact h.nodup
    · intro ticket hticket
      rw [hissued] at hticket
      obtain ⟨epoch, number, hown, hid, hnumber⟩ := h.numbers ticket hticket
      refine ⟨epoch, number, hown, hid, .inl ?_⟩
      dsimp only
      rw [hrestores.epoch]
      rcases hnumber with hlt | ⟨hnow, heq, -⟩
      · split_ifs at hepoch <;> omega
      · rw [hnow, if_pos rfl] at hepoch
        omega
    · intro id cycle hget hstatus
      exact absurd hstatus (not_flight_of_none hrestores.flights hget)
    · intro bytes' hdisk'
      rw [hunsaved]
      obtain rfl : d.snapshot = bytes' := Option.some.inj (hdisk.symm.trans hdisk')
      exact ⟨d, hd, rfl, hrestores.epoch.symm⟩

/-- **Behind every careful run.** -/
theorem Issued.snoc (h : Careful events → Issued events s) (hstep : Step s event s')
    (hcareful : Careful (events ++ [event])) : Issued (events ++ [event]) s' := by
  have hnow := h hcareful.left
  by_cases hrestart : ∃ l, event = .restarted l
  · obtain ⟨limits, rfl⟩ := hrestart
    exact hnow.restart hstep
  · refine hnow.step hstep (fun l hl => hrestart ⟨l, hl⟩) ?_
    rintro frame ticket rfl
    exact hcareful.last

/-- A result is taken for a cycle in flight, which is over from then on. -/
theorem Step.takes (hstep : Step s event s') (h : s.Kept) {ticket : CycleTicket}
    {outcome : CycleOutcome} (htaken : event.taken = some (ticket, outcome)) :
    (∃ cycle, getKey ticket.cycleId s.live.cycles = some cycle ∧ cycle.status = .inFlight ∧
      SameCycle ticket cycle.ticket ∧ ticket.epoch = s.live.epoch) ∧
    ∀ cycle, getKey ticket.cycleId s'.live.cycles = some cycle → cycle.status ≠ .inFlight := by
  cases hstep with
  | complete offered result =>
    have hcomplete := (complete_cases offered : Completes s.live result offered _)
    generalize s.live.complete offered result = out at hcomplete htaken
    cases hcomplete with
    | accepted own cycle hget hsame hepoch hstatus =>
      obtain ⟨rfl, rfl⟩ := Prod.mk.inj (Option.some.inj htaken)
      refine ⟨⟨cycle, hget, hstatus, hsame, hepoch⟩, ?_⟩
      intro after hafter hflight
      obtain ⟨mid, hmid, hchange⟩ := (narrows_log.trans narrows_prune).cycles _ after hafter
      have hid : (cycle.settledBy result).ticket.cycleId = own.cycleId :=
        (h.live.sound.issued _ cycle hget).1
      have hput : getKey own.cycleId (s.live.put (cycle.settledBy result)).cycles = some mid := hmid
      rw [Coordinator.put, getKey_setKey, if_pos hid] at hput
      have hended := hchange.ended hflight
      rw [← Option.some.inj hput] at hended
      cases hended
    | discarded own cycle hget hsame hstale reason status => cases htaken
    | counted offered hother reason status => cases offered <;> cases htaken
  | begin | cancel | attach | detach | persist | restart => cases htaken

/-- The results that were taken, beside the coordinator. -/
structure Taken (events : List Event) (s : System F) : Prop where
  issued : Issued events s
  nodup : ((taken events).map (·.1.cycleId)).Nodup
  tickets : ∀ result ∈ taken events, ∃ own ∈ Mio.issued events, SameCycle result.1 own
  closed : ∀ result ∈ taken events, ∀ cycle,
    getKey result.1.cycleId s.live.cycles = some cycle → cycle.status ≠ .inFlight

omit [PyFloat F] [PyRepr F] in
theorem sameCycle_id {ticket own : CycleTicket} (h : SameCycle ticket own) :
    ticket.cycleId = own.cycleId :=
  (Prod.mk.inj h).1

/-- A cycle that is not in flight does not come back into flight under an id that was handed out. -/
theorem Issued.closed (h : Issued events s) (hnow : Issued (events ++ [event]) s')
    (hstep : Step s event s') {id : PyStr} (hid : id ∈ (issued events).map (·.cycleId))
    (hclosed : ∀ cycle, getKey id s.live.cycles = some cycle → cycle.status ≠ .inFlight) :
    ∀ cycle, getKey id s'.live.cycles = some cycle → cycle.status ≠ .inFlight := by
  intro cycle hget hstatus
  by_cases hrestart : ∃ l, event = .restarted l
  · obtain ⟨limits, rfl⟩ := hrestart
    cases hstep with
    | restart bytes limits c hdisk hrestore =>
      obtain ⟨d, hd, rfl⟩ := h.kept.disk bytes hdisk
      exact not_flight_of_none (hd.restores hrestore).2.flights hget hstatus
  · rcases hstep.records h.kept (fun l hl => hrestart ⟨l, hl⟩) hget with
      ⟨ticket, hissued, rfl, -⟩ | ⟨old, hold, hchange⟩
    · have hnodup := hnow.nodup
      rw [issued_snoc, hissued, Option.toList_some, List.map_append, List.map_singleton,
        List.nodup_append] at hnodup
      exact hnodup.2.2 _ hid _ List.mem_cons_self rfl
    · exact hclosed old hold (hchange.ended hstatus)

theorem Taken.snoc (h : Careful events → Taken events s) (hstep : Step s event s')
    (hcareful : Careful (events ++ [event])) : Taken (events ++ [event]) s' := by
  have hnow := h hcareful.left
  have hissued : Issued (events ++ [event]) s' := Issued.snoc (fun hc => (h hc).issued) hstep hcareful
  have hkeep : ∀ own ∈ Mio.issued events, own ∈ Mio.issued (events ++ [event]) := by
    intro own hown
    rw [issued_snoc]
    exact List.mem_append_left _ hown
  have hclosed : ∀ result ∈ taken events, ∀ cycle,
      getKey result.1.cycleId s'.live.cycles = some cycle → cycle.status ≠ .inFlight := by
    intro result hresult
    obtain ⟨own, hown, hsame⟩ := hnow.tickets result hresult
    refine hnow.issued.closed hissued hstep ?_ (hnow.closed result hresult)
    exact List.mem_map.mpr ⟨own, hown, (sameCycle_id hsame).symm⟩
  cases htaken : event.taken with
  | none =>
    have hsame : taken (events ++ [event]) = taken events := by
      rw [taken_snoc, htaken]
      exact List.append_nil _
    refine ⟨hissued, ?_, ?_, ?_⟩
    · rw [hsame]
      exact hnow.nodup
    · intro result hresult
      rw [hsame] at hresult
      obtain ⟨own, hown, heq⟩ := hnow.tickets result hresult
      exact ⟨own, hkeep own hown, heq⟩
    · rw [hsame]
      exact hclosed
  | some result =>
    obtain ⟨ticket, outcome⟩ := result
    obtain ⟨⟨cycle, hget, hstatus, hsame, -⟩, hafter⟩ := hstep.takes hnow.issued.kept htaken
    have hcons : taken (events ++ [event]) = taken events ++ [(ticket, outcome)] := by
      rw [taken_snoc, htaken]
      rfl
    refine ⟨hissued, ?_, ?_, ?_⟩
    · rw [hcons, List.map_append, List.map_singleton]
      refine List.nodup_append.mpr ⟨hnow.nodup, List.nodup_singleton _, ?_⟩
      intro a ha b hb heq
      obtain ⟨result, hresult, rfl⟩ := List.mem_map.mp ha
      rw [List.mem_singleton.mp hb] at heq
      exact hnow.closed result hresult cycle (by rw [heq]; exact hget) hstatus
    · intro result hresult
      rw [hcons] at hresult
      rcases List.mem_append.mp hresult with hresult | hresult
      · obtain ⟨own, hown, heq⟩ := hnow.tickets result hresult
        exact ⟨own, hkeep own hown, heq⟩
      · rw [List.mem_singleton.mp hresult]
        exact ⟨cycle.ticket, hkeep _ (hnow.issued.flights _ cycle hget hstatus), hsame⟩
    · intro result hresult
      rw [hcons] at hresult
      rcases List.mem_append.mp hresult with hresult | hresult
      · exact hclosed result hresult
      · rw [List.mem_singleton.mp hresult]
        exact hafter

/-- A frame of the trace for which `begin` gave a ticket. -/
def Event.begunFor (traceId : PyStr) : Event → Option PyStr
  | .begun frame (some _) => if frame.traceId = traceId then some frame.digest else none
  | _ => none

/-- A result that was taken for the trace. -/
def Event.takenFor (traceId : PyStr) (event : Event) : Option (CycleTicket × CycleOutcome) :=
  event.taken.filter fun result => result.1.traceId = traceId

/-- What happened since the last restart, latest first. -/
def recent (events : List Event) : List Event :=
  events.reverse.takeWhile fun event => match event with
    | .restarted _ => false
    | _ => true

/-- The material situation of the last frame of a trace. -/
def lastBegun (events : List Event) (traceId : PyStr) : Option PyStr :=
  (recent events).findSome? (Event.begunFor traceId)

/-- The last result that was taken for a trace. -/
def lastTaken (events : List Event) (traceId : PyStr) : Option (CycleTicket × CycleOutcome) :=
  (recent events).findSome? (Event.takenFor traceId)

omit [PyFloat F] [PyRepr F] in
theorem recent_snoc (hrestart : ∀ l, event ≠ .restarted l) :
    recent (events ++ [event]) = event :: recent events := by
  unfold recent
  rw [List.reverse_append, List.reverse_singleton, List.singleton_append]
  cases event with
  | restarted limits => exact absurd rfl (hrestart limits)
  | begun | completed | cancelled | attached | detached | persisted => rfl

omit [PyFloat F] [PyRepr F] in
theorem lastBegun_snoc (hrestart : ∀ l, event ≠ .restarted l) : lastBegun (events ++ [event]) =
    fun traceId => (event.begunFor traceId).or (lastBegun events traceId) := by
  funext traceId
  rw [lastBegun, recent_snoc hrestart, List.findSome?_cons, lastBegun]
  cases event.begunFor traceId <;> rfl

omit [PyFloat F] [PyRepr F] in
theorem lastTaken_snoc (hrestart : ∀ l, event ≠ .restarted l) : lastTaken (events ++ [event]) =
    fun traceId => (event.takenFor traceId).or (lastTaken events traceId) := by
  funext traceId
  rw [lastTaken, recent_snoc hrestart, List.findSome?_cons, lastTaken]
  cases event.takenFor traceId <;> rfl

/-- What is latest and what is current, beside the last frame and the last result of each trace. -/
structure Serves (begun : PyStr → Option PyStr) (taken : PyStr → Option (CycleTicket × CycleOutcome))
    (c : Coordinator F) : Prop where
  latest : ∀ traceId id cycle, getKey traceId c.latest = some id → getKey id c.cycles = some cycle →
    cycle.ticket.epoch = c.epoch → begun traceId = some cycle.ticket.materialDigest
  current : ∀ traceId outcome, getKey traceId c.current = some outcome →
    ∃ ticket, taken traceId = some (ticket, outcome) ∧ ticket.epoch = c.epoch ∧
      ∀ id cycle, getKey traceId c.latest = some id → getKey id c.cycles = some cycle →
        cycle.ticket.epoch = c.epoch ∧ cycle.ticket.materialDigest = ticket.materialDigest

variable {begun : PyStr → Option PyStr} {results : PyStr → Option (CycleTicket × CycleOutcome)}
  {frame : Frame} {outcome : CycleOutcome}

omit [PyFloat F] [PyRepr F] in
theorem Serves.narrows (h : Serves begun results c) (hnarrows : Narrows c c')
    (hepoch : c'.epoch = c.epoch) : Serves begun results c' := by
  constructor
  · intro traceId id cycle hlatest hget hown
    obtain ⟨old, hold, hchange⟩ := hnarrows.cycles id cycle hget
    rw [hepoch, hchange.ticket] at hown
    rw [hchange.ticket]
    exact h.latest traceId id old (hnarrows.latest traceId id hlatest) hold hown
  · intro traceId outcome hcurrent
    obtain ⟨ticket, htaken, hticket, hsame⟩ :=
      h.current traceId outcome (hnarrows.current traceId outcome hcurrent)
    rw [hepoch]
    refine ⟨ticket, htaken, hticket, ?_⟩
    intro id cycle hlatest hget
    obtain ⟨old, hold, hchange⟩ := hnarrows.cycles id cycle hget
    rw [hchange.ticket]
    exact hsame id old (hnarrows.latest traceId id hlatest) hold

omit [PyFloat F] [PyRepr F] in
/-- A new cycle is latest of its trace, and what is still current there is of its situation. -/
theorem Serves.opens {m : Coordinator F} (h : Serves begun results c) (hsound : Sound c)
    (hready : ReadyFor c frame m) :
    Serves (fun traceId => if frame.traceId = traceId then some frame.digest else begun traceId)
      results (m.record (c.mint frame)) := by
  have hm := h.narrows hready.narrows hready.epoch
  have hother : ∀ traceId id cycle, frame.traceId ≠ traceId →
      getKey traceId (m.record (c.mint frame)).latest = some id →
      getKey id (m.record (c.mint frame)).cycles = some cycle →
      getKey traceId m.latest = some id ∧ getKey id m.cycles = some cycle := by
    intro traceId id cycle htrace hlatest hget
    have hticket : (c.mint frame).traceId ≠ traceId := htrace
    rw [Coordinator.record, getKey_setKey, if_neg hticket] at hlatest
    have hid : (c.mint frame).cycleId ≠ id := by
      rintro rfl
      obtain ⟨found, hfound, -⟩ := hsound.latest _ _ (hready.narrows.latest _ _ hlatest)
      exact mint_fresh hsound frame (getKey_isSome.mp (by rw [hfound]; rfl))
    rw [Coordinator.record, getKey_setKey, if_neg hid] at hget
    exact ⟨hlatest, hget⟩
  have hown : ∀ id cycle, getKey frame.traceId (m.record (c.mint frame)).latest = some id →
      getKey id (m.record (c.mint frame)).cycles = some cycle → cycle.ticket = c.mint frame := by
    intro id cycle hlatest hget
    have hticket : (c.mint frame).traceId = frame.traceId := rfl
    rw [Coordinator.record, getKey_setKey, if_pos hticket] at hlatest
    rw [Coordinator.record, getKey_setKey, if_pos (Option.some.inj hlatest)] at hget
    rw [← Option.some.inj hget]
  constructor
  · intro traceId id cycle hlatest hget hepoch
    split_ifs with htrace
    · subst htrace
      rw [hown id cycle hlatest hget]
      rfl
    · obtain ⟨hlatest', hget'⟩ := hother traceId id cycle htrace hlatest hget
      exact hm.latest traceId id cycle hlatest' hget' hepoch
  · intro traceId outcome hcurrent
    have hcurrent' : getKey traceId m.current = some outcome := hcurrent
    obtain ⟨ticket, htaken, hticket, hsame⟩ := hm.current traceId outcome hcurrent'
    refine ⟨ticket, htaken, hticket, ?_⟩
    intro id cycle hlatest hget
    by_cases htrace : frame.traceId = traceId
    · subst htrace
      obtain ⟨old, hold, hdigest⟩ := hready.current outcome hcurrent'
      obtain ⟨hrec, -, holdId⟩ := recorded_latestCycle hsound hold
      obtain ⟨ticket', htaken', -, hsame'⟩ :=
        h.current _ outcome (hready.narrows.current _ _ hcurrent')
      obtain rfl : ticket = ticket' :=
        (Prod.mk.inj (Option.some.inj (htaken.symm.trans htaken'))).1
      rw [hown id cycle hlatest hget]
      refine ⟨?_, ?_⟩
      · exact congrArg Int.ofNat hready.epoch.symm
      · rw [← (hsame' _ old holdId hrec).2, hdigest]
        rfl
    · obtain ⟨hlatest', hget'⟩ := hother traceId id cycle htrace hlatest hget
      exact hsame id cycle hlatest' hget'

/-- A result that is taken becomes current, under the ticket it came with. -/
theorem Serves.accepts {ticket : CycleTicket} (h : Serves begun results c) (hsound : Sound c)
    (hget : getKey ticket.cycleId c.cycles = some cycle) (hsame : SameCycle ticket cycle.ticket)
    (hepoch : ticket.epoch = c.epoch) (hstatus : cycle.status = .inFlight) :
    Serves begun (fun traceId => if ticket.traceId = traceId then some (ticket, outcome)
      else results traceId) (c.accept cycle outcome) := by
  have hrec := hsound.recorded hget
  have htrace : ticket.traceId = cycle.ticket.traceId := (Prod.mk.inj (Prod.mk.inj hsame).2).1
  have hdigest : ticket.materialDigest = cycle.ticket.materialDigest :=
    (Prod.mk.inj (Prod.mk.inj (Prod.mk.inj (Prod.mk.inj hsame).2).2).2).2
  have hput : Serves begun results (c.put (cycle.settledBy outcome)) :=
    h.narrows (narrows_put hrec (changes_of_flight rfl hstatus)) rfl
  have hset : Serves begun (fun traceId => if ticket.traceId = traceId then some (ticket, outcome)
      else results traceId) { c.put (cycle.settledBy outcome) with
        current := setKey cycle.ticket.traceId outcome c.current } := by
    refine ⟨hput.latest, ?_⟩
    intro traceId served hcurrent
    have hset : getKey traceId (setKey cycle.ticket.traceId outcome c.current) = some served :=
      hcurrent
    rw [getKey_setKey, ← htrace] at hset
    dsimp only
    split_ifs at hset ⊢ with hown
    · refine ⟨ticket, by rw [Option.some.inj hset], hepoch, ?_⟩
      intro id found hlatest hfound
      subst hown
      have hid : id = cycle.ticket.cycleId := by
        have := (hsound.flight _ cycle hrec hstatus).1
        rw [← htrace] at this
        exact Option.some.inj (hlatest.symm.trans this)
      have hfound' : getKey id (setKey cycle.ticket.cycleId (cycle.settledBy outcome) c.cycles) =
          some found := hfound
      rw [getKey_setKey, if_pos hid.symm] at hfound'
      rw [← Option.some.inj hfound', hdigest]
      exact ⟨(hsound.flight _ cycle hrec hstatus).2, rfl⟩
    · exact hput.current traceId served hset
  exact hset.narrows (narrows_log.trans narrows_prune) (by simp [Coordinator.accept, Coordinator.log,
    Coordinator.put])

/-- **One step.** -/
theorem Step.serves (hstep : Step s event s') (hkept : s.Kept)
    (h : Serves (lastBegun events) (lastTaken events) s.live) :
    Serves (lastBegun (events ++ [event])) (lastTaken (events ++ [event])) s'.live := by
  have hquiet : ∀ {t : Coordinator F}, (∀ l, event ≠ .restarted l) →
      (∀ traceId, event.begunFor traceId = none) → event.taken = none → Narrows s.live t →
      t.epoch = s.live.epoch →
        Serves (lastBegun (events ++ [event])) (lastTaken (events ++ [event])) t := by
    intro t hrestart hbegun htaken hnarrows hepoch
    rw [lastBegun_snoc hrestart, lastTaken_snoc hrestart]
    simp only [hbegun, Event.takenFor, htaken, Option.filter_none, Option.none_or]
    exact h.narrows hnarrows hepoch
  cases hstep with
  | begin frame =>
    have hrestart : ∀ ticket l, Event.begun frame ticket ≠ .restarted l := by
      intro ticket l heq
      cases heq
    have hepoch := (begin_cases : Begins s.live frame _).extends.epoch
    have hopens := (begin_cases : Begins s.live frame _).opens hkept.live.sound
    generalize s.live.begin frame = result at hopens hepoch hquiet
    cases hopens with
    | rejected d hnarrows => exact hquiet (hrestart _) (fun _ => rfl) rfl hnarrows hepoch
    | same d old hlatest hdigest hnarrows =>
      rw [lastBegun_snoc (hrestart _), lastTaken_snoc (hrestart _)]
      refine Serves.narrows ⟨?_, h.current⟩ hnarrows hepoch
      intro traceId id cycle hid hget hown
      simp only [Event.begunFor]
      split_ifs with htrace
      · subst htrace
        obtain ⟨hrec, -, holdId⟩ := recorded_latestCycle hkept.live.sound hlatest
        obtain rfl : id = old.ticket.cycleId := Option.some.inj (hid.symm.trans holdId)
        obtain rfl : cycle = old := Option.some.inj (hget.symm.trans hrec)
        rw [Option.some_or, hdigest]
      · exact h.latest traceId id cycle hid hget hown
    | fresh d m hready hnext hnarrows =>
      rw [lastBegun_snoc (hrestart _), lastTaken_snoc (hrestart _)]
      have hopened := (h.opens hkept.live.sound hready).narrows hnarrows
        (hepoch.trans hready.epoch.symm)
      have hbegun : (fun traceId => if frame.traceId = traceId then some frame.digest
          else lastBegun events traceId) = fun traceId =>
            (Event.begunFor traceId (.begun frame (some (s.live.mint frame)))).or
              (lastBegun events traceId) := by
        funext traceId
        simp only [Event.begunFor]
        split_ifs <;> rfl
      rw [hbegun] at hopened
      exact hopened
  | complete offered outcome =>
    have hcomplete := (complete_cases offered : Completes s.live outcome offered _)
    have hepoch := hcomplete.extends.epoch
    generalize s.live.complete offered outcome = result at hcomplete hepoch hquiet
    cases hcomplete with
    | accepted ticket cycle hget hsame hnow hstatus =>
      rw [lastBegun_snoc (by simp), lastTaken_snoc (by simp)]
      have haccepted := @Serves.accepts F _ _ _ _ _ _ outcome ticket h hkept.live.sound hget hsame hnow
        hstatus
      have htaken : (fun traceId => if ticket.traceId = traceId then some (ticket, outcome)
          else lastTaken events traceId) = fun traceId =>
            (Event.takenFor traceId (.completed (some ticket) outcome
              { accepted := true, cycleStatus := word CycleStatus.accepted
                reason := pyStr "current", outcome := some outcome })).or
              (lastTaken events traceId) := by
        funext traceId
        simp only [Event.takenFor, Event.taken, if_true, Option.filter_some, decide_eq_true_eq]
        split_ifs <;> rfl
      rw [htaken] at haccepted
      exact haccepted
    | discarded ticket cycle hget hsame hstale reason status =>
      exact hquiet (by simp) (fun _ => rfl) rfl
        (narrows_discard (hkept.live.sound.recorded hget)) hepoch
    | counted offered hother reason status =>
      refine hquiet (by simp) (fun _ => rfl) ?_ (narrows_of_eq rfl rfl rfl) hepoch
      cases offered <;> rfl
  | cancel traceId reason =>
    exact hquiet (by simp) (fun _ => rfl) rfl (cancel_cases.narrows hkept.live.sound)
      cancel_cases.extends.epoch
  | attach ticket broker =>
    exact hquiet (by simp) (fun _ => rfl) rfl narrows_attachBroker extends_attachBroker.epoch
  | detach ticket =>
    exact hquiet (by simp) (fun _ => rfl) rfl narrows_closeBroker closeBroker_epoch
  | persist => exact hquiet (by simp) (fun _ => rfl) rfl (Narrows.refl _) rfl
  | restart bytes limits c hdisk hrestore =>
    obtain ⟨d, hd, rfl⟩ := hkept.disk bytes hdisk
    obtain ⟨-, hrestores⟩ := hd.restores hrestore
    constructor
    · intro traceId id cycle hlatest hget hepoch
      have hpast := hrestores.past id cycle hget
      rw [hepoch, hrestores.epoch] at hpast
      omega
    · intro traceId outcome hcurrent
      rw [hrestores.current] at hcurrent
      cases hcurrent

/-- **What is served as current of a trace is the last result that was taken for it since the last
restart, and it was reasoned from the material situation of the last frame that was begun on the
trace**, in every run. -/
theorem current_is_last (limits : Limits) (hrun : Run Step (System.new limits : System F) events s)
    {traceId : PyStr} (hcurrent : getKey traceId s.live.current = some outcome) :
    ∃ ticket, lastTaken events traceId = some (ticket, outcome) ∧
      lastBegun events traceId = some ticket.materialDigest ∧ ticket.epoch = s.live.epoch := by
  have hnew : Serves (lastBegun []) (lastTaken []) (System.new limits : System F).live := by
    constructor
    · intro traceId id cycle hlatest
      cases hlatest
    · intro traceId outcome hcurrent
      cases hcurrent
  have hserves : s.Kept ∧ Serves (lastBegun events) (lastTaken events) s.live :=
    hrun.history (P := fun events s => s.Kept ∧ Serves (lastBegun events) (lastTaken events) s.live)
      (fun _ _ _ _ h hstep => ⟨hstep.kept h.1, hstep.serves h.1 h.2⟩)
      ⟨System.kept_new limits, hnew⟩
  obtain ⟨hkept, hserves⟩ := hserves
  obtain ⟨ticket, htaken, hepoch, hsame⟩ := hserves.current traceId outcome hcurrent
  obtain ⟨id, hid⟩ := Option.isSome_iff_exists.mp (hkept.live.sound.current traceId outcome hcurrent)
  obtain ⟨cycle, hget, -⟩ := hkept.live.sound.latest traceId id hid
  obtain ⟨hown, hdigest⟩ := hsame id cycle hid hget
  refine ⟨ticket, htaken, ?_, hepoch⟩
  rw [hserves.latest traceId id cycle hid hget hown, hdigest]

theorem current_is_last_one_frame : ∃ events, ∃ s : System NaN,
    Run Step (System.new {}) events s ∧ ∃ ticket, lastTaken events [] = some (ticket, ⟨[0], [], []⟩) ∧
      lastBegun events [] = some ticket.materialDigest ∧ ticket.epoch = s.live.epoch := by
  have hrun := Run.head (Step.begin (System.new {} : System NaN) ⟨[], [], []⟩)
    (Run.single (Step.complete _ (({ limits := {} } : Coordinator NaN).begin ⟨[], [], []⟩).2
      ⟨[0], [], []⟩))
  exact ⟨_, _, hrun, current_is_last {} hrun (by decide)⟩

end Histories

end AzazelEdge.Mio
