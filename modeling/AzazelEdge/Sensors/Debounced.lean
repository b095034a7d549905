/-
# No change is lost, and no burst gets through

What holds in every run of the watcher whose clock does not go back.

Two firings are `min_interval_s` apart.  An interface that was noted is answered by the first `due`
at or after the note plus `max_delay_s` and the last firing plus `min_interval_s` at the latest; an
earlier `due` may answer it, for a link that has settled does not wait for the maximum delay.  It is
answered again only when it is noted again.  And a state of a monitored interface that differs from
the one acted on is noted, whatever the scope did in between.
-/
import AzazelEdge.Sensors.LinkWatch

namespace AzazelEdge.Sensors

open AzazelEdge.Lib AzazelEdge.Lib.Py

/-! ## 1. Histories -/

/-- The note that a call makes on the gate. -/
def Event.noted : Event → Option (ℚ × PyStr)
  | .note now iface => some (now, iface)
  | .observe now iface _ true => some (now, iface)
  | _ => none

/-- What a call of `due` answers. -/
def Event.answered : Event → List PyStr
  | .due _ result => result
  | _ => []

/-- The last time something was answered, after one more event. -/
def laterFiring (fire : Option ℚ) : Event → Option ℚ
  | .due now result => if result = [] then fire else some now
  | _ => fire

/-- When `due` last answered something. -/
def lastFiring (events : List Event) : Option ℚ := events.foldl laterFiring none

/-- What a history says of the interfaces: the scope, the state last acted on while an interface was
monitored, and the state it had when it was last re-evaluated, or when it was first seen. -/
structure Account where
  interfaces : Option (List PyStr)
  acted : PyStr → Option (Option LinkState)
  evaluated : PyStr → Option (Option LinkState)

def Account.after (a : Account) : Event → Account
  | .scope interfaces => { a with interfaces := interfaces }
  | .observe _ iface state _ =>
    if iface ∈ monitored a.interfaces then
      { a with
        acted := Function.update a.acted iface (some state)
        evaluated :=
          if a.acted iface = none then Function.update a.evaluated iface (some state)
          else a.evaluated }
    else a
  | .due _ result => { a with evaluated := fun i => if i ∈ result then a.acted i else a.evaluated i }
  | _ => a

def account (interfaces : Option (List PyStr)) (events : List Event) : Account :=
  events.foldl Account.after ⟨interfaces, fun _ => none, fun _ => none⟩

variable {c : GateConfig} {w w' : World} {e : Event} {events : List Event} {i : PyStr} {t now : ℚ}
  {interfaces : Option (List PyStr)}

/-! ## 2. What a step does to the gate -/

/-- A call that makes no note and answers nothing leaves the gate. -/
theorem observe_cases (iface : PyStr) (state : Option LinkState) (now : ℚ) (w : Watcher) :
    (iface ∉ monitored w.interfaces ∧ observe iface state now w = (w, false)) ∨
    iface ∈ monitored w.interfaces ∧
      ((getItem iface w.known = none ∧ observe iface state now w =
          ({ w with known := setItem iface state w.known }, false)) ∨
        (getItem iface w.known = some state ∧ observe iface state now w = (w, false)) ∨
        ∃ known, getItem iface w.known = some known ∧ known ≠ state ∧ observe iface state now w =
          ({ w with known := setItem iface state w.known, gate := note iface now w.gate }, true)) := by
  unfold observe
  by_cases hin : iface ∈ monitored w.interfaces
  · refine .inr ⟨hin, ?_⟩
    rw [if_neg (not_not.mpr hin)]
    cases hknown : getItem iface w.known with
    | none => exact .inl ⟨rfl, rfl⟩
    | some known =>
      by_cases heq : known = state
      · exact .inr (.inl ⟨by rw [heq], by simp [heq]⟩)
      · exact .inr (.inr ⟨known, rfl, heq, by simp [heq]⟩)
  · exact .inl ⟨hin, if_pos hin⟩

/-- **A step leaves the gate, notes an interface on it, or empties it.** -/
theorem step_gate (h : Step c w e w') :
    w.clock ≤ w'.clock ∧
    ((w'.watcher.gate = w.watcher.gate ∧ e.noted = none ∧ e.answered = []) ∨
      (∃ iface, e.noted = some (w'.clock, iface) ∧ e.answered = [] ∧
        w'.watcher.gate = note iface w'.clock w.watcher.gate) ∨
      ∃ ready, readyAt c w.watcher.gate = some ready ∧ ready ≤ w'.clock ∧ e.noted = none ∧
        e = .due w'.clock (pending w.watcher.gate) ∧
        w'.watcher.gate = ⟨[], [], some w'.clock, w.watcher.gate.fired + 1⟩) := by
  cases h with
  | scope interfaces => exact ⟨le_refl _, .inl ⟨rfl, rfl, rfl⟩⟩
  | note now iface hle => exact ⟨hle, .inr (.inl ⟨iface, rfl, rfl, rfl⟩)⟩
  | observe now iface state hle =>
    refine ⟨hle, ?_⟩
    rcases observe_cases iface state now w.watcher with ⟨-, heq⟩ | ⟨-, ⟨-, heq⟩ | ⟨-, heq⟩ | hnew⟩
    · rw [heq]
      exact .inl ⟨rfl, rfl, rfl⟩
    · rw [heq]
      exact .inl ⟨rfl, rfl, rfl⟩
    · rw [heq]
      exact .inl ⟨rfl, rfl, rfl⟩
    · obtain ⟨known, -, -, heq⟩ := hnew
      rw [heq]
      exact .inr (.inl ⟨iface, rfl, rfl, rfl⟩)
  | waitS now hle => exact ⟨hle, .inl ⟨rfl, rfl, rfl⟩⟩
  | due now hle =>
    refine ⟨hle, ?_⟩
    rcases due_cases c now w.watcher.gate with ⟨heq, -⟩ | ⟨ready, hready, hle', heq⟩
    · rw [heq]
      exact .inl ⟨rfl, rfl, rfl⟩
    · rw [heq]
      exact .inr (.inr ⟨ready, hready, hle', rfl, rfl, rfl⟩)

theorem even_note {g : Gate} : (note i now g).Even := by
  have hfirst : (note i now g).first ≠ [] := by
    rw [note, setDefault]
    split_ifs with hsome
    · intro hnil
      rw [hnil] at hsome
      cases hsome
    · exact setItem_ne_nil
  exact ⟨fun h => absurd h hfirst, fun h => absurd h setItem_ne_nil⟩

theorem step_even (h : Step c w e w') (heven : w.watcher.gate.Even) : w'.watcher.gate.Even := by
  obtain ⟨-, ⟨hgate, -⟩ | ⟨iface, -, -, hgate⟩ | ⟨ready, -, -, -, -, hgate⟩⟩ := step_gate h
  · rwa [hgate]
  · rw [hgate]
    exact even_note
  · rw [hgate]
    exact Iff.rfl

/-- The gate knows when it last fired. -/
theorem step_lastFire (h : Step c w e w') (heven : w.watcher.gate.Even) :
    w'.watcher.gate.lastFire = laterFiring w.watcher.gate.lastFire e := by
  obtain ⟨-, ⟨hgate, -, hnone⟩ | ⟨iface, hnoted, -, hgate⟩ | ⟨ready, hready, -, -, rfl, hgate⟩⟩ :=
    step_gate h
  · rw [hgate]
    cases e with
    | due now result => exact (if_pos hnone).symm
    | _ => rfl
  · rw [hgate]
    cases e with
    | due => cases hnoted
    | _ => rfl
  · have hpending : pending w.watcher.gate ≠ [] := by
      rw [Ne, pending_eq_nil, ← readyAt_eq_none heven (c := c), hready]
      simp
    rw [hgate]
    exact (if_neg hpending).symm

/-- No time of a note lies ahead. -/
def Timely (w : World) : Prop :=
  ∀ i first, getItem i w.watcher.gate.first = some first → first ≤ w.clock

theorem step_timely (h : Step c w e w') (htimely : Timely w) : Timely w' := by
  intro i first hfirst
  obtain ⟨hclock, ⟨hgate, -⟩ | ⟨iface, -, -, hgate⟩ | ⟨ready, -, -, -, -, hgate⟩⟩ := step_gate h
  · rw [hgate] at hfirst
    exact (htimely i first hfirst).trans hclock
  · rw [hgate, getItem_note] at hfirst
    split_ifs at hfirst with hi
    · cases hold : getItem i w.watcher.gate.first with
      | none =>
        rw [hold] at hfirst
        cases hfirst
        exact le_refl _
      | some old =>
        rw [hold] at hfirst
        cases hfirst
        exact (htimely i _ hold).trans hclock
    · exact (htimely i first hfirst).trans hclock
  · rw [hgate] at hfirst
    cases hfirst

theorem run_gate (h : Run (Step c) (newWorld interfaces t) events w) :
    w.watcher.gate.Even ∧ Timely w ∧ w.watcher.gate.lastFire = lastFiring events := by
  refine h.history (P := fun events w => w.watcher.gate.Even ∧ Timely w ∧
    w.watcher.gate.lastFire = lastFiring events) ?_ ⟨Iff.rfl, (fun _ _ h => by cases h), rfl⟩
  rintro events w e w' ⟨heven, htimely, hfire⟩ hstep
  refine ⟨step_even hstep heven, step_timely hstep htimely, ?_⟩
  rw [step_lastFire hstep heven, hfire, lastFiring, lastFiring, List.foldl_append]
  rfl

/-! ## 3. Apart -/

/-- The gate has fired at `t` or later. -/
def FiredSince (t : ℚ) (w : World) : Prop :=
  t ≤ w.clock ∧ ∃ fire, w.watcher.gate.lastFire = some fire ∧ t ≤ fire

theorem step_firedSince (w : World) (e : Event) (w' : World) (hfired : FiredSince t w)
    (h : Step c w e w') : FiredSince t w' := by
  obtain ⟨hclock, fire, hfire, hle⟩ := hfired
  obtain ⟨hmono, ⟨hgate, -⟩ | ⟨iface, -, -, hgate⟩ | ⟨ready, -, -, -, -, hgate⟩⟩ := step_gate h
  · exact ⟨hclock.trans hmono, fire, by rw [hgate, hfire], hle⟩
  · exact ⟨hclock.trans hmono, fire, by rw [hgate]; exact hfire, hle⟩
  · exact ⟨hclock.trans hmono, w'.clock, by rw [hgate], hclock.trans hmono⟩

/-- What a `due` that answers leaves, and what held before it. -/
theorem step_due {result : List PyStr} (h : Step c w (.due now result) w') (hne : result ≠ []) :
    w'.clock = now ∧ result = pending w.watcher.gate ∧ w'.watcher.gate.first = [] ∧
      w'.watcher.gate.lastFire = some now ∧
      ∃ ready, readyAt c w.watcher.gate = some ready ∧ ready ≤ now := by
  obtain ⟨-, ⟨-, -, hnone⟩ | ⟨iface, hnoted, -⟩ | ⟨ready, hready, hle, -, heq, hgate⟩⟩ := step_gate h
  · exact absurd hnone hne
  · cases hnoted
  · cases heq
    rw [hgate]
    exact ⟨rfl, rfl, rfl, rfl, ready, hready, hle⟩

/-- **Two firings are an interval apart.** -/
theorem firings_apart {mid : List Event} {t' : ℚ} {result result' : List PyStr} {w'' : World}
    (hfirst : Step c w (.due t result) w') (hrun : Run (Step c) w' mid w'')
    {w₃ : World} (hsecond : Step c w'' (.due t' result') w₃) (hne : result ≠ [])
    (hne' : result' ≠ []) : t + c.minInterval ≤ t' := by
  obtain ⟨hclock, -, -, hfire, -⟩ := step_due hfirst hne
  obtain ⟨-, -, -, -, ready, hready, hle⟩ := step_due hsecond hne'
  have hsince : FiredSince t w' := ⟨hclock.ge, t, hfire, le_refl _⟩
  obtain ⟨-, fire, hlast, hge⟩ := hrun.invariant step_firedSince hsince
  have := lastFire_le_ready hready hlast
  linarith

/-! ## 4. Answered in time, and once -/

/-- The interface is pending, first noted at `t` or earlier. -/
def Waiting (t : ℚ) (i : PyStr) (w : World) : Prop :=
  ∃ first, getItem i w.watcher.gate.first = some first ∧ first ≤ t

theorem step_waiting (h : Step c w e w') (hwait : Waiting t i w) :
    Waiting t i w' ∨ i ∈ e.answered := by
  obtain ⟨first, hfirst, hle⟩ := hwait
  obtain ⟨-, ⟨hgate, -⟩ | ⟨iface, -, -, hgate⟩ | ⟨ready, -, -, -, rfl, -⟩⟩ := step_gate h
  · exact .inl ⟨first, by rw [hgate, hfirst], hle⟩
  · refine .inl ⟨first, ?_, hle⟩
    rw [hgate, getItem_note, hfirst]
    split_ifs <;> rfl
  · exact .inr (mem_pending.mpr (by rw [hfirst]; rfl))

theorem run_waiting {mid : List Event} (h : Run (Step c) w mid w') (hwait : Waiting t i w) :
    Waiting t i w' ∨ ∃ e ∈ mid, i ∈ e.answered := by
  induction h with
  | refl => exact .inl hwait
  | head hstep _ ih =>
    rcases step_waiting hstep hwait with hwait | hanswered
    · rcases ih hwait with hwait | ⟨e, he, hanswered⟩
      · exact .inl hwait
      · exact .inr ⟨e, List.mem_cons_of_mem _ he, hanswered⟩
    · exact .inr ⟨_, List.mem_cons_self, hanswered⟩

theorem waiting_of_noted (h : Step c w e w') (htimely : Timely w)
    (hnoted : e.noted = some (t, i)) : Waiting t i w' := by
  have htimely' := step_timely h htimely
  obtain ⟨-, ⟨-, hnone, -⟩ | ⟨iface, heq, -, hgate⟩ | ⟨ready, -, -, hnone, -⟩⟩ := step_gate h
  · rw [hnone] at hnoted
    cases hnoted
  · rw [heq] at hnoted
    cases hnoted
    have hfirst : getItem i w'.watcher.gate.first =
        some ((getItem i w.watcher.gate.first).getD w'.clock) := by
      rw [hgate, getItem_note, if_pos rfl]
    exact ⟨_, hfirst, htimely' _ _ hfirst⟩
  · rw [hnone] at hnoted
    cases hnoted

/-- **A `due` after the deadline answers what is waiting.** -/
theorem answered_of_waiting {result : List PyStr} (h : Step c w (.due now result) w')
    (heven : w.watcher.gate.Even) (hwait : Waiting t i w) (hdelay : t + c.maxDelay ≤ now)
    (hfire : ∀ fire, w.watcher.gate.lastFire = some fire → fire + c.minInterval ≤ now) :
    i ∈ result := by
  obtain ⟨first, hfirst, hle⟩ := hwait
  have hsome : readyAt c w.watcher.gate ≠ none := by
    rw [Ne, readyAt_eq_none heven]
    intro hnil
    rw [hnil] at hfirst
    cases hfirst
  obtain ⟨ready, hready⟩ := Option.ne_none_iff_exists'.mp hsome
  have hle' : ready ≤ now := ready_le hready hfirst (by linarith) hfire
  cases h with
  | due _ _ =>
    rcases due_cases c now w.watcher.gate with ⟨-, hlt⟩ | ⟨_, -, -, heq⟩
    · exact absurd hle' (not_le.mpr (hlt ready hready))
    · rw [heq]
      exact mem_pending.mpr (by rw [hfirst]; rfl)

/-- Nothing is known of the interface that is not answered yet. -/
def Quiet (i : PyStr) (w : World) : Prop := getItem i w.watcher.gate.first = none

theorem step_quiet (h : Step c w e w') (hquiet : Quiet i w) :
    Quiet i w' ∨ ∃ now, e.noted = some (now, i) := by
  obtain ⟨-, ⟨hgate, -⟩ | ⟨iface, hnoted, -, hgate⟩ | ⟨ready, -, -, -, -, hgate⟩⟩ := step_gate h
  · exact .inl (by rw [Quiet, hgate]; exact hquiet)
  · by_cases hi : i = iface
    · exact .inr ⟨w'.clock, by rw [hnoted, hi]⟩
    · exact .inl (by rw [Quiet, hgate, getItem_note, if_neg hi]; exact hquiet)
  · exact .inl (by rw [Quiet, hgate]; rfl)

theorem run_quiet {mid : List Event} (h : Run (Step c) w mid w') (hquiet : Quiet i w) :
    Quiet i w' ∨ ∃ e ∈ mid, ∃ now, e.noted = some (now, i) := by
  induction h with
  | refl => exact .inl hquiet
  | head hstep _ ih =>
    rcases step_quiet hstep hquiet with hquiet | hnoted
    · rcases ih hquiet with hquiet | ⟨e, he, hnoted⟩
      · exact .inl hquiet
      · exact .inr ⟨e, List.mem_cons_of_mem _ he, hnoted⟩
    · exact .inr ⟨_, List.mem_cons_self, hnoted⟩

/-- **What is answered again was noted again.** -/
theorem noted_between {mid : List Event} {t' : ℚ} {result result' : List PyStr} {w'' w₃ : World}
    (hfirst : Step c w (.due t result) w') (hrun : Run (Step c) w' mid w'')
    (hsecond : Step c w'' (.due t' result') w₃) (hne : result ≠ []) (hi : i ∈ result') :
    ∃ e ∈ mid, ∃ now, e.noted = some (now, i) := by
  have hquiet : Quiet i w' := by
    rw [Quiet, (step_due hfirst hne).2.2.1]
    rfl
  rcases run_quiet hrun hquiet with hquiet | hnoted
  · have hpending := (step_due hsecond (List.ne_nil_of_mem hi)).2.1
    rw [hpending, mem_pending, hquiet] at hi
    cases hi
  · exact hnoted

/-! ## 5. No change is lost -/

/-- The watcher knows what was acted on, and what differs from the state at the last re-evaluation is
pending. -/
structure Tells (a : Account) (w : Watcher) : Prop where
  interfaces : w.interfaces = a.interfaces
  known : ∀ i, getItem i w.known = a.acted i
  baseline : ∀ i, a.acted i = none → a.evaluated i = none
  pending : ∀ i, a.acted i ≠ a.evaluated i → i ∈ Sensors.pending w.gate

theorem mem_pending_note {g : Gate} {iface : PyStr} :
    i ∈ pending (note iface now g) ↔ i = iface ∨ i ∈ pending g := by
  rw [mem_pending, mem_pending, getItem_note]
  by_cases hi : i = iface
  · simp [hi]
  · simp [hi]

theorem tells_observe {a : Account} {watcher : Watcher} {iface : PyStr} {state : Option LinkState}
    (h : Tells a watcher) (now : ℚ) (changed : Bool) :
    Tells (a.after (.observe now iface state changed)) (observe iface state now watcher).1 := by
  rcases observe_cases iface state now watcher with ⟨hout, heq⟩ | ⟨hin, hcases⟩
  · rw [h.interfaces] at hout
    rw [heq, Account.after, if_neg hout]
    exact h
  rw [h.interfaces] at hin
  have hafter : a.after (.observe now iface state changed) =
      ⟨a.interfaces, Function.update a.acted iface (some state),
        if a.acted iface = none then Function.update a.evaluated iface (some state)
        else a.evaluated⟩ := by
    rw [Account.after, if_pos hin]
  have hknown : ∀ i, getItem i (setItem iface state watcher.known) =
      Function.update a.acted iface (some state) i := by
    intro i
    rw [getItem_setItem, Function.update_apply, h.known]
  rcases hcases with ⟨hnone, heq⟩ | ⟨hsame, heq⟩ | ⟨known, hold, hne, heq⟩
  · -- first sight: the state is the baseline
    rw [h.known] at hnone
    rw [hafter, heq, if_pos hnone]
    refine ⟨h.interfaces, hknown, fun i hi => ?_, fun i hi => ?_⟩
    · dsimp only at hi ⊢
      by_cases heq : i = iface
      · simp [heq] at hi
      · rw [Function.update_of_ne heq] at hi ⊢
        exact h.baseline i hi
    · dsimp only at hi
      by_cases heq : i = iface
      · simp [heq] at hi
      · rw [Function.update_of_ne heq, Function.update_of_ne heq] at hi
        exact h.pending i hi
  · rw [h.known] at hsame
    rw [hafter, heq, hsame, if_neg (by simp), ← hsame, Function.update_eq_self]
    exact h
  · rw [h.known] at hold
    rw [hafter, heq, hold, if_neg (by simp)]
    refine ⟨h.interfaces, hknown, fun i hi => ?_, fun i hi => ?_⟩
    · dsimp only at hi ⊢
      by_cases heq : i = iface
      · simp [heq] at hi
      · rw [Function.update_of_ne heq] at hi
        exact h.baseline i hi
    · refine mem_pending_note.mpr ?_
      by_cases heq : i = iface
      · exact .inl heq
      · dsimp only at hi
        rw [Function.update_of_ne heq] at hi
        exact .inr (h.pending i hi)

theorem step_tells {a : Account} (h : Step c w e w') (htells : Tells a w.watcher) :
    Tells (a.after e) w'.watcher := by
  cases h with
  | scope interfaces => exact ⟨rfl, htells.known, htells.baseline, htells.pending⟩
  | note now iface hle =>
    exact ⟨htells.interfaces, htells.known, htells.baseline, fun i hi =>
      mem_pending_note.mpr (.inr (htells.pending i hi))⟩
  | observe now iface state hle => exact tells_observe htells now _
  | waitS now hle => exact htells
  | due now hle =>
    rw [Account.after]
    rcases due_cases c now w.watcher.gate with ⟨heq, -⟩ | ⟨ready, -, -, heq⟩
    · rw [heq]
      refine ⟨htells.interfaces, htells.known, fun i hi => ?_, fun i hi => ?_⟩
      · simpa using htells.baseline i hi
      · exact htells.pending i (by simpa using hi)
    · rw [heq]
      refine ⟨htells.interfaces, htells.known, fun i hi => ?_, fun i hi => ?_⟩
      · dsimp only at hi ⊢
        rw [hi, htells.baseline i hi, ite_self]
      · -- what was pending has been re-evaluated
        dsimp only at hi
        by_cases hmem : i ∈ pending w.watcher.gate
        · rw [if_pos hmem] at hi
          exact absurd rfl hi
        · rw [if_neg hmem] at hi
          exact absurd (htells.pending i hi) hmem

theorem run_tells (h : Run (Step c) (newWorld interfaces t) events w) :
    Tells (account interfaces events) w.watcher := by
  refine h.history (P := fun events w => Tells (account interfaces events) w.watcher) ?_ ?_
  · intro events w e w' htells hstep
    rw [account, List.foldl_append]
    exact step_tells hstep htells
  · exact ⟨rfl, fun _ => rfl, fun _ _ => rfl, fun i hi => absurd rfl hi⟩

/-! ## 6. Every run -/

/-- A run cut around one of its events. -/
theorem run_cut {before after : List Event} (h : Run (Step c) w (before ++ e :: after) w') :
    ∃ w₁ w₂, Run (Step c) w before w₁ ∧ Step c w₁ e w₂ ∧ Run (Step c) w₂ after w' := by
  obtain ⟨w₁, hbefore, hrest⟩ := h.split
  cases hrest with
  | head hstep hafter => exact ⟨w₁, _, hbefore, hstep, hafter⟩

/-- **A noted interface is answered by its deadline**, for the events of one run. -/
theorem answered_by_deadline {before mid after : List Event} {result : List PyStr}
    (h : Run (Step c) (newWorld interfaces t) (before ++ e :: (mid ++ .due now result :: after)) w)
    {noted : ℚ} (hnoted : e.noted = some (noted, i)) (hdelay : noted + c.maxDelay ≤ now)
    (hfire : ∀ fire, lastFiring (before ++ e :: mid) = some fire → fire + c.minInterval ≤ now) :
    i ∈ result ∨ ∃ e' ∈ mid, i ∈ e'.answered := by
  obtain ⟨w₁, w₂, hbefore, hstep, hrest⟩ := run_cut h
  obtain ⟨w₃, w₄, hmid, hdue, -⟩ := run_cut hrest
  have hwait : Waiting noted i w₂ := waiting_of_noted hstep (run_gate hbefore).2.1 hnoted
  rcases run_waiting hmid hwait with hwait | hanswered
  · obtain ⟨heven, -, hlast⟩ := run_gate (hbefore.append (.head hstep hmid))
    exact .inl (answered_of_waiting hdue heven hwait hdelay fun fire hf => hfire fire (hlast ▸ hf))
  · exact .inr hanswered

/-- **A state that differs from the one acted on is noted.** -/
theorem difference_noted {before after : List Event} {iface : PyStr} {state acted : Option LinkState}
    {changed : Bool}
    (h : Run (Step c) (newWorld interfaces t)
      (before ++ .observe now iface state changed :: after) w)
    (hin : iface ∈ monitored (account interfaces before).interfaces)
    (hacted : (account interfaces before).acted iface = some acted) (hne : acted ≠ state) :
    (Event.observe now iface state changed).noted = some (now, iface) := by
  obtain ⟨w₁, w₂, hbefore, hstep, -⟩ := run_cut h
  have htells := run_tells hbefore
  cases hstep with
  | observe _ _ _ hle =>
    rw [← htells.known] at hacted
    rw [← htells.interfaces] at hin
    rcases observe_cases iface state now w₁.watcher with ⟨hout, -⟩ | ⟨-, ⟨hnone, -⟩ | ⟨hsame, -⟩ | hnew⟩
    · exact absurd hin hout
    · rw [hnone] at hacted
      cases hacted
    · rw [hsame] at hacted
      cases hacted
      exact absurd rfl hne
    · obtain ⟨known, -, -, heq⟩ := hnew
      rw [heq]
      rfl

/-- **Link changes are not lost and re-evaluations are bounded**, in every run of the watcher: the
firings are an interval apart, `due` answers exactly when something is pending and `wait_s` is 0, a
noted interface is answered at its deadline or before, and once for its notes, and a state that
differs from the one acted on is noted and stays pending until it is re-evaluated. -/
theorem link_changes_bounded {events : List Event}
    (h : Run (Step c) (newWorld interfaces t) events w) :
    (∀ before mid after t₁ t₂ result₁ result₂,
      events = before ++ .due t₁ result₁ :: (mid ++ .due t₂ result₂ :: after) →
      result₁ ≠ [] → result₂ ≠ [] → t₁ + c.minInterval ≤ t₂) ∧
    (∀ now, (due c now w.watcher.gate).2 ≠ [] ↔
      pending w.watcher.gate ≠ [] ∧ waitS c now w.watcher.gate = some 0) ∧
    (∀ before e mid after noted i now result,
      events = before ++ e :: (mid ++ .due now result :: after) → e.noted = some (noted, i) →
      noted + c.maxDelay ≤ now →
      (∀ fire, lastFiring (before ++ e :: mid) = some fire → fire + c.minInterval ≤ now) →
      i ∈ result ∨ ∃ e' ∈ mid, i ∈ e'.answered) ∧
    (∀ before mid after t₁ t₂ result₁ result₂ i,
      events = before ++ .due t₁ result₁ :: (mid ++ .due t₂ result₂ :: after) →
      i ∈ result₁ → i ∈ result₂ → ∃ e ∈ mid, ∃ now, e.noted = some (now, i)) ∧
    (∀ before after now iface state changed acted,
      events = before ++ .observe now iface state changed :: after →
      iface ∈ monitored (account interfaces before).interfaces →
      (account interfaces before).acted iface = some acted → acted ≠ state →
      (Event.observe now iface state changed).noted = some (now, iface)) ∧
    ∀ i, (account interfaces events).acted i ≠ (account interfaces events).evaluated i →
      i ∈ pending w.watcher.gate := by
  refine ⟨?_, ?_, ?_, ?_, ?_, ?_⟩
  · rintro before mid after t₁ t₂ result₁ result₂ rfl hne₁ hne₂
    obtain ⟨w₁, w₂, -, hfirst, hrest⟩ := run_cut h
    obtain ⟨w₃, w₄, hmid, hsecond, -⟩ := run_cut hrest
    exact firings_apart hfirst hmid hsecond hne₁ hne₂
  · exact fun now => due_ne_nil_iff (run_gate h).1
  · rintro before e mid after noted i now result rfl hnoted hdelay hfire
    exact answered_by_deadline h hnoted hdelay hfire
  · rintro before mid after t₁ t₂ result₁ result₂ i rfl hi₁ hi₂
    obtain ⟨w₁, w₂, -, hfirst, hrest⟩ := run_cut h
    obtain ⟨w₃, w₄, hmid, hsecond, -⟩ := run_cut hrest
    exact noted_between hfirst hmid hsecond (List.ne_nil_of_mem hi₁) hi₂
  · rintro before after now iface state changed acted rfl hin hacted hne
    exact difference_noted h hin hacted hne
  · exact (run_tells h).pending

/-- A debounce of a quarter of a second, one second at most, and two seconds between firings. -/
def sampleConfig : GateConfig := ⟨1 / 4, 1, 2, by norm_num, by norm_num, by norm_num⟩

def eth0 : PyStr := pyStr "eth0"

/-- One note, which the first `due` answers when the link has settled. -/
def sampleEvents : List Event :=
  [.note 0 eth0, .due (1 / 4) [eth0], .due 10 []]

/-- The watcher after them. -/
def sampleWorld : World := ⟨⟨none, ⟨[], [], some (1 / 4), 1⟩, []⟩, 10⟩

theorem sampleEvents_run : Run (Step sampleConfig) (newWorld none 0) sampleEvents sampleWorld := by
  have hdue : due sampleConfig (1 / 4) (note eth0 0 newGate) =
      (⟨[], [], some (1 / 4), 1⟩, [eth0]) := by
    norm_num [due, readyAt, note, setDefault, setItem, getItem, newGate, sampleConfig, pending]
  have hfire := Step.due (c := sampleConfig) ⟨⟨none, note eth0 0 newGate, []⟩, 0⟩ (1 / 4)
    (by norm_num)
  simp only [hdue] at hfire
  exact .head (.note _ 0 eth0 (le_refl _)) (.head hfire (.single (.due _ 10 (by norm_num))))

/-- The bounds hold in this run: two seconds after the firing nothing is pending. -/
theorem link_changes_bounded_sample :
    (due sampleConfig 10 sampleWorld.watcher.gate).2 ≠ [] ↔
      pending sampleWorld.watcher.gate ≠ [] ∧
        waitS sampleConfig 10 sampleWorld.watcher.gate = some 0 :=
  (link_changes_bounded sampleEvents_run).2.1 10

/-- The first `due` at or after the deadline need not hold the interface: an earlier one has answered
it, for the link had settled. -/
theorem settled_link_answered_early :
    ¬ ∀ (c : GateConfig) interfaces t before e mid noted i now result w,
      Run (Step c) (newWorld interfaces t) (before ++ e :: (mid ++ [.due now result])) w →
      e.noted = some (noted, i) → noted + c.maxDelay ≤ now →
      (∀ fire, lastFiring (before ++ e :: mid) = some fire → fire + c.minInterval ≤ now) →
      (∀ now' result', .due now' result' ∈ mid → now' < noted + c.maxDelay) → i ∈ result := by
  intro h
  have hin := h sampleConfig none 0 [] (.note 0 eth0) [.due (1 / 4) [eth0]] 0
    eth0 10 [] sampleWorld sampleEvents_run rfl (by norm_num [sampleConfig]) ?_ ?_
  · cases hin
  · rintro fire hfire
    cases hfire
    norm_num [sampleConfig]
  · intro now' result' hmem
    cases List.mem_singleton.mp hmem
    norm_num [sampleConfig]

end AzazelEdge.Sensors
