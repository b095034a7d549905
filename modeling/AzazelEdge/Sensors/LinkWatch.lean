/-
# The link-state watch

`sensors/link_watch.py`: the gate that debounces link changes and bounds the rate of re-evaluations,
and the watcher that notes a change on it.

A step is a call from outside with the reading of the clock it makes and what it answers; the
callback that names the monitored interfaces may answer something else, or raise, from one step to
the next.  `fire_due` is `due`, for what the re-evaluation raises is swallowed, and `resync` is one
`observe` after the other.  The clock is exact here.
-/
import AzazelEdge.Arbiter.Action
import AzazelEdge.Decision.Payload
import AzazelEdge.Lib.Dict
import AzazelEdge.Lib.Run
import Mathlib.Algebra.Order.Ring.Rat
import Mathlib.Tactic.Linarith

namespace AzazelEdge.Sensors

open AzazelEdge.Lib AzazelEdge.Lib.Py

/-! ## 1. The gate -/

/-- The bounds of a `ReevaluationGate`, which its constructor checks. -/
structure GateConfig where
  debounce : ℚ
  maxDelay : ℚ
  minInterval : ℚ
  debounce_nonneg : 0 ≤ debounce
  debounce_le : debounce ≤ maxDelay
  minInterval_pos : 0 < minInterval

/-- `ReevaluationGate`. -/
structure Gate where
  first : List (PyStr × ℚ)
  last : List (PyStr × ℚ)
  lastFire : Option ℚ
  fired : ℕ

def newGate : Gate := ⟨[], [], none, 0⟩

/-- `d.setdefault(key, value)`. -/
def setDefault {α : Type} (key : PyStr) (value : α) (d : List (PyStr × α)) : List (PyStr × α) :=
  if (getItem key d).isSome then d else setItem key value d

/-- `note`. -/
def note (iface : PyStr) (now : ℚ) (g : Gate) : Gate :=
  { g with first := setDefault iface now g.first, last := setItem iface now g.last }

/-- `pending`. -/
def pending (g : Gate) : List PyStr :=
  (g.first.map Prod.fst).insertionSort fun a b => keyLe a b = true

/-- `_ready_at`.  An interface has a first time if and only if it has a last one. -/
def readyAt (c : GateConfig) (g : Gate) : Option ℚ :=
  match g.first.map Prod.snd, g.last.map Prod.snd with
  | f :: fs, l :: ls =>
    let settle := min (fs.foldl min f + c.maxDelay) (ls.foldl max l + c.debounce)
    match g.lastFire with
    | some fire => some (max settle (fire + c.minInterval))
    | none => some settle
  | _, _ => none

/-- `wait_s`. -/
def waitS (c : GateConfig) (now : ℚ) (g : Gate) : Option ℚ :=
  (readyAt c g).map fun ready => max 0 (ready - now)

/-- `due`. -/
def due (c : GateConfig) (now : ℚ) (g : Gate) : Gate × List PyStr :=
  match readyAt c g with
  | none => (g, [])
  | some ready =>
    if now < ready then (g, []) else (⟨[], [], some now, g.fired + 1⟩, pending g)

/-! ## 2. The watcher -/

/-- `LinkState`: the operstate and the carrier. -/
abbrev LinkState := PyStr × ℤ

/-- `LinkStateWatcher`: what the callback answers, unless it raises, the gate, and the known states,
where `none` is the state of an interface that is gone. -/
structure Watcher where
  interfaces : Option (List PyStr)
  gate : Gate
  known : List (PyStr × Option LinkState)

/-- `_monitored`. -/
def monitored (interfaces : Option (List PyStr)) : List PyStr :=
  Arbiter.sortedUnique (((interfaces.getD []).map Decision.strip).filter fun i => i ≠ [])

/-- `observe`. -/
def observe (iface : PyStr) (state : Option LinkState) (now : ℚ) (w : Watcher) : Watcher × Bool :=
  if iface ∉ monitored w.interfaces then (w, false)
  else
    match getItem iface w.known with
    | none => ({ w with known := setItem iface state w.known }, false)
    | some known =>
      if known = state then (w, false)
      else
        ({ w with known := setItem iface state w.known, gate := note iface now w.gate }, true)

/-! ## 3. Steps -/

/-- A call, the clock reading it makes, and what it answers. -/
inductive Event where
  | scope (interfaces : Option (List PyStr))
  | note (now : ℚ) (iface : PyStr)
  | observe (now : ℚ) (iface : PyStr) (state : Option LinkState) (changed : Bool)
  | waitS (now : ℚ) (result : Option ℚ)
  | due (now : ℚ) (result : List PyStr)

/-- The watcher and the last reading of the clock. -/
structure World where
  watcher : Watcher
  clock : ℚ

/-- A step; the clock never goes back. -/
inductive Step (c : GateConfig) : World → Event → World → Prop
  | scope (w : World) (interfaces : Option (List PyStr)) :
      Step c w (.scope interfaces) ⟨{ w.watcher with interfaces := interfaces }, w.clock⟩
  | note (w : World) (now : ℚ) (iface : PyStr) : w.clock ≤ now →
      Step c w (.note now iface)
        ⟨{ w.watcher with gate := Sensors.note iface now w.watcher.gate }, now⟩
  | observe (w : World) (now : ℚ) (iface : PyStr) (state : Option LinkState) : w.clock ≤ now →
      Step c w (.observe now iface state (Sensors.observe iface state now w.watcher).2)
        ⟨(Sensors.observe iface state now w.watcher).1, now⟩
  | waitS (w : World) (now : ℚ) : w.clock ≤ now →
      Step c w (.waitS now (Sensors.waitS c now w.watcher.gate)) ⟨w.watcher, now⟩
  | due (w : World) (now : ℚ) : w.clock ≤ now →
      Step c w (.due now (Sensors.due c now w.watcher.gate).2)
        ⟨{ w.watcher with gate := (Sensors.due c now w.watcher.gate).1 }, now⟩

/-- A new watcher. -/
def newWorld (interfaces : Option (List PyStr)) (clock : ℚ) : World :=
  ⟨⟨interfaces, newGate, []⟩, clock⟩

/-! ## 4. What the gate answers -/

variable {c : GateConfig} {g : Gate} {now t : ℚ} {i iface : PyStr}

theorem getItem_isSome {α : Type} {d : List (PyStr × α)} :
    (getItem i d).isSome = true ↔ i ∈ d.map Prod.fst := by
  induction d with
  | nil => simp [getItem]
  | cons item d ih =>
    obtain ⟨k, v⟩ := item
    rw [getItem, List.map_cons, List.mem_cons]
    by_cases hk : k = i
    · simp [hk]
    · rw [if_neg hk, ih]
      exact ⟨.inr, fun h => h.resolve_left (Ne.symm hk)⟩

theorem mem_pending : i ∈ pending g ↔ (getItem i g.first).isSome = true := by
  rw [pending, List.mem_insertionSort, getItem_isSome]

theorem pending_eq_nil : pending g = [] ↔ g.first = [] := by
  rw [pending, ← List.length_eq_zero_iff, List.length_insertionSort, List.length_map,
    List.length_eq_zero_iff]

theorem setItem_ne_nil {α : Type} {d : List (PyStr × α)} {v : α} : setItem i v d ≠ [] := by
  cases d with
  | nil => simp [setItem]
  | cons item d =>
    obtain ⟨k, v'⟩ := item
    rw [setItem]
    split_ifs <;> simp

/-- **A first time stays**, and one is there after a note. -/
theorem getItem_note : getItem i (note iface now g).first =
    if i = iface then some ((getItem i g.first).getD now) else getItem i g.first := by
  rw [note, setDefault]
  by_cases hi : i = iface
  · subst hi
    rw [if_pos rfl]
    cases hget : getItem i g.first with
    | none => simp [getItem_setItem]
    | some t => simp [hget]
  · rw [if_neg hi]
    split_ifs
    · rfl
    · rw [getItem_setItem, if_neg hi]

theorem foldl_min_le {ts : List ℚ} : ts.foldl min t ≤ t ∧ ∀ x ∈ ts, ts.foldl min t ≤ x := by
  induction ts generalizing t with
  | nil => simp
  | cons a ts ih =>
    obtain ⟨hle, hall⟩ := @ih (min t a)
    rw [List.foldl_cons]
    refine ⟨hle.trans (min_le_left _ _), fun x hx => ?_⟩
    rcases List.mem_cons.mp hx with rfl | hx
    · exact hle.trans (min_le_right _ _)
    · exact hall x hx

theorem mem_of_getItem {α : Type} {d : List (PyStr × α)} {v : α} (h : getItem i d = some v) :
    (i, v) ∈ d := by
  induction d with
  | nil => cases h
  | cons item d ih =>
    obtain ⟨k, v'⟩ := item
    rw [getItem] at h
    split_ifs at h with hk
    · cases h
      rw [hk]
      exact List.mem_cons_self
    · exact List.mem_cons_of_mem _ (ih h)

/-- Both dicts of a gate have keys or none has. -/
def Gate.Even (g : Gate) : Prop := g.first = [] ↔ g.last = []

theorem readyAt_eq_none (h : g.Even) : readyAt c g = none ↔ g.first = [] := by
  unfold readyAt
  cases hfirst : g.first with
  | nil => simp
  | cons f fs =>
    cases hlast : g.last with
    | nil =>
      rw [h.mpr hlast] at hfirst
      cases hfirst
    | cons l ls => cases g.lastFire <;> simp

/-- The gate is not ready before the interval since the last firing is over. -/
theorem lastFire_le_ready {ready fire : ℚ} (h : readyAt c g = some ready)
    (hfire : g.lastFire = some fire) : fire + c.minInterval ≤ ready := by
  unfold readyAt at h
  rw [hfire] at h
  split at h
  · cases h
    exact le_max_right _ _
  · cases h

/-- **The gate is ready** when an interface has waited for the maximum delay and the interval since
the last firing is over. -/
theorem ready_le {ready first : ℚ} (h : readyAt c g = some ready)
    (hfirst : getItem i g.first = some first) (hdelay : first + c.maxDelay ≤ t)
    (hfire : ∀ fire, g.lastFire = some fire → fire + c.minInterval ≤ t) : ready ≤ t := by
  have hmem : first ∈ g.first.map Prod.snd := List.mem_map_of_mem (mem_of_getItem hfirst)
  unfold readyAt at h
  split at h
  · rename_i f fs l ls heq _
    rw [heq] at hmem
    have hmin : fs.foldl min f ≤ first := by
      rcases List.mem_cons.mp hmem with rfl | hmem
      · exact foldl_min_le.1
      · exact foldl_min_le.2 _ hmem
    have hsettle : min (fs.foldl min f + c.maxDelay) (ls.foldl max l + c.debounce) ≤ t :=
      (min_le_left _ _).trans (by linarith)
    dsimp only at h
    split at h
    · rename_i fire hlast
      cases h
      exact max_le hsettle (hfire fire hlast)
    · cases h
      exact hsettle
  · cases h

/-- **`due` answers everything that is pending, or nothing.** -/
theorem due_cases (c : GateConfig) (now : ℚ) (g : Gate) :
    (due c now g = (g, []) ∧ ∀ ready, readyAt c g = some ready → now < ready) ∨
    ∃ ready, readyAt c g = some ready ∧ ready ≤ now ∧
      due c now g = (⟨[], [], some now, g.fired + 1⟩, pending g) := by
  unfold due
  cases hready : readyAt c g with
  | none => exact .inl ⟨rfl, nofun⟩
  | some ready =>
    by_cases hlt : now < ready
    · refine .inl ⟨by simp [hlt], fun r hr => ?_⟩
      cases hr
      exact hlt
    · exact .inr ⟨ready, rfl, not_lt.mp hlt, by simp [hlt]⟩

/-- **`due` answers something exactly when something is pending and `wait_s` is 0.** -/
theorem due_ne_nil_iff (h : g.Even) :
    (due c now g).2 ≠ [] ↔ pending g ≠ [] ∧ waitS c now g = some 0 := by
  rw [Ne, Ne, pending_eq_nil, ← readyAt_eq_none h (c := c), waitS]
  rcases due_cases c now g with ⟨hdue, hlt⟩ | ⟨ready, hready, hle, hdue⟩
  · rw [hdue]
    cases hready : readyAt c g with
    | none => simp
    | some ready =>
      have := hlt ready hready
      simp [this]
  · have hpending : pending g ≠ [] := by
      rw [Ne, pending_eq_nil, ← readyAt_eq_none h (c := c), hready]
      simp
    simp [hdue, hready, hpending, hle]

end AzazelEdge.Sensors
