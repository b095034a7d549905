/-
# The life cycle of incidents

Over every run of calls, an incident that is kept has been quiet for as many calls as its
`inactive_rounds` says, and its `recurrence_count` counts the alerts that came after a quiet call,
since it was opened (`Kept.step`).  One that is dropped although it was touched makes room for
`max_incidents` others that were touched and rank as high (`dropped_row`).

The counts are taken before the eviction, and `incident_count` after it: they agree exactly in the
calls that evict nothing (`life_cycle_iff`).
-/
import AzazelEdge.Evaluators.Incidents
import AzazelEdge.Lib.Run
import AzazelEdge.Lib.Upsert
import Mathlib.Data.List.Dedup

namespace AzazelEdge.Evaluators.Soc

open AzazelEdge.Lib AzazelEdge.Lib.Py AzazelEdge.Audit AzazelEdge.Arbiter AzazelEdge.EvidencePlane

/-! ## 1. What a call does to the rows -/

variable {store pool : Store} {row old : Incident} {hit : Hit} {hits : List Hit}
  {flows : List Flow}

theorem mem_ids (h : row ∈ store) : row.incidentId ∈ store.ids := List.mem_map_of_mem h

/-- An alert changes the row of its incident. -/
theorem touch_eq (store : Store) (hit : Hit) :
    touch store hit = upsert (·.incidentId) hit.incidentId (.new hit) (·.take hit) store := by
  unfold touch upsert
  congr

theorem upserts_take (hit : Hit) : Upserts (α := Incident) (·.incidentId) hit.incidentId (.new hit)
    (·.take hit) := ⟨fun _ => rfl, rfl⟩

theorem mem_ids_touches {id : PyStr} :
    id ∈ Store.ids (hits.foldl touch store) ↔ id ∈ store.ids ∨ id ∈ hits.map (·.incidentId) := by
  induction hits generalizing store with
  | nil => simp
  | cons hit hits ih =>
    rw [List.foldl_cons, ih, touch_eq, Store.ids, mem_keys_upsert (upserts_take hit), or_assoc,
      List.map_cons, List.mem_cons]
    rfl

theorem nodup_touches (h : store.ids.Nodup) : (Store.ids (hits.foldl touch store)).Nodup := by
  induction hits generalizing store with
  | nil => exact h
  | cons hit hits ih =>
    refine ih ?_
    rw [touch_eq]
    exact nodup_upsert (upserts_take hit) h

/-- Where a row comes from when alerts have been taken in: it was there and none was for it, or it
was there and is active again, or it was opened. -/
inductive Came (store : Store) (touched : List PyStr) (row : Incident) : Prop where
  | stayed (hmem : row ∈ store) (hid : row.incidentId ∉ touched)
  | again (old : Incident) (hold : old ∈ store) (hsame : old.incidentId = row.incidentId)
    (hid : row.incidentId ∈ touched) (hinactive : row.inactiveRounds = 0)
    (hstatus : row.status = .active)
    (hcount : row.recurrenceCount =
      old.recurrenceCount + if 0 < old.inactiveRounds then 1 else 0)
  | opened (hnew : row.incidentId ∉ store.ids) (hid : row.incidentId ∈ touched)
    (hinactive : row.inactiveRounds = 0) (hstatus : row.status = .active)
    (hcount : row.recurrenceCount = 0)

/-- One alert more. -/
theorem Came.touch (hits : List Hit)
    (ih : ∀ row ∈ hits.foldl touch store, Came store (hits.map (·.incidentId)) row)
    (h : row ∈ touch (hits.foldl touch store) hit) :
    Came store ((hits ++ [hit]).map (·.incidentId)) row := by
  rw [List.map_append, List.map_singleton]
  rw [touch_eq] at h
  rcases mem_upsert (upserts_take hit) h with
    ⟨hmem, hother⟩ | ⟨hid, old, hold, hsame, rfl⟩ | ⟨hid, hnew, rfl⟩
  · cases ih row hmem with
    | stayed hold hid =>
      exact .stayed hold (by simp only [List.mem_append, List.mem_singleton]; tauto)
    | again old hold hsame hid hinactive hstatus hcount =>
      exact .again old hold hsame (List.mem_append_left _ hid) hinactive hstatus hcount
    | opened hnew hid hinactive hstatus hcount =>
      exact .opened hnew (List.mem_append_left _ hid) hinactive hstatus hcount
  · have hmem : (old.take hit).incidentId ∈
        hits.map (·.incidentId) ++ [hit.incidentId] := by simp [hid]
    cases ih old hold with
    | stayed hstore _ =>
      exact .again old hstore rfl hmem rfl rfl (by simp only [Incident.take]; split <;> rfl)
    | again first hfirst hsame' _ hinactive _ hcount =>
      refine .again first hfirst hsame' hmem rfl rfl ?_
      simp only [Incident.take, hinactive, lt_irrefl, if_false, hcount]
    | opened hnew _ hinactive _ hcount =>
      refine .opened hnew hmem rfl rfl ?_
      simp only [Incident.take, hinactive, lt_irrefl, if_false, hcount]
  · refine .opened (fun hmem => hnew (mem_ids_touches.mpr (.inl hmem))) (by simp [hid]) rfl rfl rfl

theorem came (h : row ∈ hits.foldl touch store) : Came store (hits.map (·.incidentId)) row := by
  induction hits using List.reverseRecOn generalizing row with
  | nil => exact .stayed h (by simp)
  | append_singleton hits hit ih =>
    rw [List.foldl_append] at h
    exact .touch hits (fun _ hmem => ih hmem) h

/-- Two rows at the same point of one life. -/
structure SameLife (row old : Incident) : Prop where
  id : row.incidentId = old.incidentId
  inactive : row.inactiveRounds = old.inactiveRounds
  recurrence : row.recurrenceCount = old.recurrenceCount
  status : row.status = old.status

theorem sameLife_support (row : Incident) (flow : Flow) : SameLife (row.support flow) row := by
  unfold Incident.support
  split <;> exact ⟨rfl, rfl, rfl, rfl⟩

theorem SameLife.trans {a b c : Incident} (h : SameLife a b) (h' : SameLife b c) : SameLife a c :=
  ⟨h.id.trans h'.id, h.inactive.trans h'.inactive, h.recurrence.trans h'.recurrence,
    h.status.trans h'.status⟩

/-- A flow changes nothing in the life of an incident. -/
theorem mem_support (h : row ∈ support flows store) : ∃ old ∈ store, SameLife row old := by
  induction flows generalizing store with
  | nil => exact ⟨row, h, rfl, rfl, rfl, rfl⟩
  | cons flow flows ih =>
    obtain ⟨mid, hmid, hsame⟩ := ih h
    obtain ⟨old, hold, rfl⟩ := List.mem_map.mp hmid
    exact ⟨old, hold, hsame.trans (sameLife_support old flow)⟩

theorem ids_support (flows : List Flow) (store : Store) :
    (support flows store).ids = store.ids := by
  induction flows generalizing store with
  | nil => rfl
  | cons flow flows ih =>
    have hone : Store.ids (store.map (·.support flow)) = store.ids := by
      rw [Store.ids, List.map_map]
      exact List.map_congr_left fun row _ => (sameLife_support row flow).id
    exact (ih _).trans hone

theorem ids_age (touched : List PyStr) (store : Store) : (age touched store).ids = store.ids := by
  rw [Store.ids, age, List.map_map]
  refine List.map_congr_left fun row _ => ?_
  simp only [Function.comp_apply]
  split <;> rfl

/-- The store before the eviction. -/
def poolOf (store : Store) (hits : List Hit) (flows : List Flow) : Store :=
  support flows (age (hits.map (·.incidentId)) (hits.foldl touch store))

theorem ids_pool : (poolOf store hits flows).ids = Store.ids (hits.foldl touch store) := by
  rw [poolOf, ids_support, ids_age]

/-- How a row of the pool stands to the store before the call. -/
inductive Stands (store : Store) (touched : List PyStr) (row : Incident) : Prop where
  | aged (old : Incident) (hold : old ∈ store) (hsame : old.incidentId = row.incidentId)
    (hid : row.incidentId ∉ touched) (hinactive : row.inactiveRounds = old.inactiveRounds + 1)
    (hcount : row.recurrenceCount = old.recurrenceCount)
  | again (old : Incident) (hold : old ∈ store) (hsame : old.incidentId = row.incidentId)
    (hid : row.incidentId ∈ touched) (hinactive : row.inactiveRounds = 0)
    (hcount : row.recurrenceCount =
      old.recurrenceCount + if 0 < old.inactiveRounds then 1 else 0)
  | opened (hnew : row.incidentId ∉ store.ids) (hid : row.incidentId ∈ touched)
    (hinactive : row.inactiveRounds = 0) (hcount : row.recurrenceCount = 0)

/-- **The rows of the pool**: the touched ones are as the alerts left them, the others have aged. -/
theorem stands (h : row ∈ poolOf store hits flows) :
    Stands store (hits.map (·.incidentId)) row ∧ row.status = .ofRounds row.inactiveRounds := by
  obtain ⟨aged, haged, hid, hinactive, hrecurrence, hstatus⟩ := mem_support h
  rw [hstatus, hinactive]
  obtain ⟨mid, hmid, rfl⟩ := List.mem_map.mp haged
  by_cases htouched : mid.incidentId ∈ hits.map (·.incidentId)
  · rw [if_pos htouched] at hid hinactive hrecurrence ⊢
    cases came hmid with
    | stayed _ hno => exact absurd htouched hno
    | again old hold hsame _ hzero hactive hcount =>
      refine ⟨.again old hold (hsame.trans hid.symm) (hid ▸ htouched) (hinactive.trans hzero)
        (hrecurrence.trans hcount), ?_⟩
      rw [hactive, hzero]
      rfl
    | opened hnew _ hzero hactive hcount =>
      refine ⟨.opened (hid ▸ hnew) (hid ▸ htouched) (hinactive.trans hzero)
        (hrecurrence.trans hcount), ?_⟩
      rw [hactive, hzero]
      rfl
  · rw [if_neg htouched] at hid hinactive hrecurrence ⊢
    cases came hmid with
    | stayed hold _ =>
      exact ⟨.aged mid hold hid.symm (fun hmem => htouched (hid ▸ hmem)) hinactive hrecurrence, rfl⟩
    | again _ _ _ hyes => exact absurd hyes htouched
    | opened _ hyes => exact absurd hyes htouched

/-- A row of the pool is active exactly when it was touched. -/
theorem active_iff (h : row ∈ poolOf store hits flows) :
    row.status = .active ↔ row.incidentId ∈ hits.map (·.incidentId) := by
  obtain ⟨hstands, hstatus⟩ := stands h
  rw [hstatus]
  cases hstands with
  | aged old _ _ hid hinactive _ =>
    refine ⟨fun hactive => ?_, fun hmem => absurd hmem hid⟩
    rw [hinactive, Status.ofRounds] at hactive
    split at hactive
    · cases hactive
    · rw [if_pos (by omega)] at hactive
      cases hactive
  | again _ _ _ hid hinactive _ => exact iff_of_true (by rw [hinactive]; rfl) hid
  | opened _ hid hinactive _ => exact iff_of_true (by rw [hinactive]; rfl) hid

theorem nodup_pool (hits : List Hit) (flows : List Flow) (h : store.ids.Nodup) :
    (poolOf store hits flows).ids.Nodup := by
  rw [ids_pool]
  exact nodup_touches h

/-- **The pool has one row for every incident that was retained or is touched.** -/
theorem length_pool (h : store.ids.Nodup) :
    (poolOf store hits flows).length = (store.ids ++ hits.map (·.incidentId)).dedup.length := by
  have hperm : (poolOf store hits flows).ids.Perm (store.ids ++ hits.map (·.incidentId)).dedup := by
    refine (List.perm_ext_iff_of_nodup (nodup_pool hits flows h)
      (List.nodup_dedup _)).mpr fun id => ?_
    rw [ids_pool, mem_ids_touches, List.mem_dedup, List.mem_append]
  rw [← hperm.length_eq, Store.ids, List.length_map]

/-! ## 2. Ranks and the eviction -/

/-- A chain of keys that are compared one after the other is an order if every key has one. -/
theorem outranks_iff {a b : Incident} : a.outranks b = true ↔
    b.status.rank < a.status.rank ∨ b.status.rank = a.status.rank ∧
      (b.maxScore < a.maxScore ∨ b.maxScore = a.maxScore ∧
        (b.eventCount < a.eventCount ∨ b.eventCount = a.eventCount ∧
          keyLe b.lastSeen a.lastSeen = true)) := by
  unfold Incident.outranks
  split_ifs with h₁ h₂ h₃
  · simp only [decide_eq_true_eq]
    omega
  · simp only [decide_eq_true_eq]
    omega
  · simp only [decide_eq_true_eq]
    omega
  · simp only [not_not] at h₁ h₂ h₃
    simp [h₁, h₂, h₃]

theorem outranks_total (a b : Incident) : a.outranks b = true ∨ b.outranks a = true := by
  rw [outranks_iff, outranks_iff]
  rcases keyLe_total a.lastSeen b.lastSeen with h | h
  · simp only [h, and_true]
    omega
  · simp only [h, and_true]
    omega

theorem outranks_trans {a b c : Incident} (h : a.outranks b = true) (h' : b.outranks c = true) :
    a.outranks c = true := by
  rw [outranks_iff] at h h' ⊢
  rcases h with h | ⟨hrank, h | ⟨hscore, h | ⟨hcount, hlast⟩⟩⟩ <;>
    rcases h' with h' | ⟨hrank', h' | ⟨hscore', h' | ⟨hcount', hlast'⟩⟩⟩
  case inr.inr.inr.inr.inr.inr =>
    have hkey := keyLe_trans hlast' hlast
    simp [hrank, hrank', hscore, hscore', hcount, hcount', hkey]
  all_goals omega

instance : Std.Total fun a b : Incident => a.outranks b = true := ⟨outranks_total⟩

instance : IsTrans Incident fun a b => a.outranks b = true := ⟨fun _ _ _ => outranks_trans⟩

theorem mem_ranked : row ∈ ranked store ↔ row ∈ store := List.mem_insertionSort _

theorem length_ranked (store : Store) : (ranked store).length = store.length :=
  List.length_insertionSort _ _

/-- What stays ranks at least as high as what does not. -/
theorem kept_outranks {limit : ℕ} {other : Incident} (hkept : other ∈ kept limit store)
    (hmem : row ∈ store) (hout : row ∉ kept limit store) : other.outranks row = true := by
  have hsorted := List.pairwise_insertionSort (fun a b : Incident => a.outranks b = true) store
  rw [← List.take_append_drop limit (store.insertionSort _)] at hsorted
  refine (List.pairwise_append.mp hsorted).2.2 other hkept row ?_
  have hranked := mem_ranked.mpr hmem
  rw [ranked, ← List.take_append_drop limit (store.insertionSort _), List.mem_append] at hranked
  exact hranked.resolve_left hout

theorem nodup_ids_iff {rows rows' : Store} (h : rows.Perm rows') :
    rows.ids.Nodup ↔ rows'.ids.Nodup := (h.map _).nodup_iff

theorem kept_subset {limit : ℕ} : kept limit store ⊆ store := fun _ h =>
  mem_ranked.mp (List.mem_of_mem_take h)

theorem nodup_kept {limit : ℕ} (h : store.ids.Nodup) : (kept limit store).ids.Nodup := by
  have hranked : (ranked store).ids.Nodup := (nodup_ids_iff (List.perm_insertionSort _ store)).mpr h
  exact hranked.sublist ((List.take_sublist _ _).map _)

theorem evict_subset {limit : ℕ} : evict limit store ⊆ store := by
  unfold evict
  split
  · exact List.filter_subset_self _
  · exact List.Subset.refl _

/-- **The eviction keeps the rows that the result shows.** -/
theorem evict_perm (limit : ℕ) (h : store.ids.Nodup) :
    (evict limit store).Perm (kept limit store) := by
  unfold evict
  split
  · refine (List.perm_ext_iff_of_nodup (h.of_map.filter _) (nodup_kept h).of_map).mpr fun row => ?_
    rw [List.mem_filter, decide_eq_true_eq]
    refine ⟨fun ⟨hmem, hid⟩ => ?_, fun hkept => ⟨kept_subset hkept, mem_ids hkept⟩⟩
    obtain ⟨other, hother, hsame⟩ := List.mem_map.mp hid
    exact List.inj_on_of_nodup_map h (kept_subset hother) hmem hsame ▸ hother
  · rename_i hle
    rw [kept, List.take_of_length_le (not_lt.mp hle)]
    exact (List.perm_insertionSort _ store).symm

theorem length_evict {limit : ℕ} (h : store.ids.Nodup) :
    (evict limit store).length = min limit store.length := by
  rw [(evict_perm limit h).length_eq, kept, List.length_take, length_ranked]

theorem nodup_evict {limit : ℕ} (h : store.ids.Nodup) : (evict limit store).ids.Nodup :=
  (nodup_ids_iff (evict_perm limit h)).mpr (nodup_kept h)

/-- Every row is counted once. -/
theorem counts (store : Store) :
    count .active store + count .cooling store + count .closed store = store.length := by
  induction store with
  | nil => rfl
  | cons row store ih =>
    simp only [count] at ih
    cases hstatus : row.status <;>
      simp only [count, List.countP_cons, hstatus, decide_true, List.length_cons, reduceCtorEq,
        decide_false, if_true, Bool.false_eq_true, if_false] <;> omega

/-- **A row that is dropped although it was touched** makes room for as many others as are kept, all
of them touched and of a rank at least as high. -/
theorem dropped_row {limit : ℕ} (hnodup : store.ids.Nodup) (hmem : row ∈ poolOf store hits flows)
    (hid : row.incidentId ∈ hits.map (·.incidentId))
    (hout : row.incidentId ∉ (evict limit (poolOf store hits flows)).ids) :
    ∃ others : List Incident, others ⊆ poolOf store hits flows ∧ others.length = limit ∧
      (Store.ids others).Nodup ∧ row.incidentId ∉ Store.ids others ∧
      ∀ other ∈ others, other.incidentId ∈ hits.map (·.incidentId) ∧ other.outranks row = true := by
  have hpool := nodup_pool hits flows hnodup
  have hperm := evict_perm limit hpool
  have hids : row.incidentId ∉ (kept limit (poolOf store hits flows)).ids := fun h =>
    hout (((hperm.map (·.incidentId)).mem_iff).mpr h)
  have hrow : row ∉ kept limit (poolOf store hits flows) := fun h => hids (mem_ids h)
  refine ⟨kept limit (poolOf store hits flows), kept_subset, ?_, nodup_kept hpool, hids,
    fun other hother => ?_⟩
  · -- nothing is dropped from a store within the limit
    have hlong : limit ≤ (poolOf store hits flows).length := by
      by_contra hshort
      rw [kept, List.take_of_length_le (by rw [length_ranked]; omega)] at hrow
      exact hrow (mem_ranked.mpr hmem)
    rw [kept, List.length_take, length_ranked, min_eq_left hlong]
  · have hrank := kept_outranks hother hmem hrow
    refine ⟨(active_iff (kept_subset hother)).mp ?_, hrank⟩
    have hactive := (active_iff hmem).mpr hid
    rw [outranks_iff, hactive] at hrank
    cases hstatus : other.status with
    | active => rfl
    | _ => simp [hstatus, Status.rank] at hrank

/-! ## 3. The calls behind -/

variable {F T : Type}

/-- A call of a run: the store it finds, its alerts, and what it makes of them. -/
structure Round (F T : Type) where
  before : Store
  call : Call F T
  hits : List Hit
  out : Evaluated

/-- The incidents that a call has alerts for. -/
def Round.touched (round : Round F T) : List PyStr := round.hits.map (·.incidentId)

/-! Rounds as they lie behind, the last one first. -/

/-- The calls since the last one that had an alert for the incident. -/
def quiet (id : PyStr) (recent : List (Round F T)) : ℕ :=
  (recent.takeWhile fun round => id ∉ round.touched).length

/-- The calls since the incident was opened. -/
def life (id : PyStr) (recent : List (Round F T)) : List (Round F T) :=
  recent.takeWhile fun round => id ∈ round.out.store.ids

/-- How often a call with an alert came after one without. -/
def reopenings : List Bool → ℕ
  | now :: before :: rest => (if now && !before then 1 else 0) + reopenings (before :: rest)
  | _ => 0

/-- How often the incident was opened again. -/
def recurrences (id : PyStr) (recent : List (Round F T)) : ℕ :=
  reopenings ((life id recent).map fun round => decide (id ∈ round.touched))

/-- What an incident that is retained says of the calls behind it. -/
structure Truthful (recent : List (Round F T)) (row : Incident) : Prop where
  active : row.status = .active ↔ quiet row.incidentId recent = 0
  cooling : row.status = .cooling ↔
    1 ≤ quiet row.incidentId recent ∧ quiet row.incidentId recent ≤ 2
  closed : row.status = .closed ↔ 3 ≤ quiet row.incidentId recent
  recurrence : row.recurrenceCount = recurrences row.incidentId recent

/-- A touched incident is dropped only for `limit` others that are touched and rank as high. -/
def DroppedForOthers (limit : ℕ) (round : Round F T) : Prop :=
  ∀ id ∈ round.touched, id ∉ round.out.store.ids → ∃ row ∈ round.out.pool, row.incidentId = id ∧
    ∃ others : List Incident, others ⊆ round.out.pool ∧ others.length = limit ∧
      (Store.ids others).Nodup ∧ id ∉ Store.ids others ∧
      ∀ other ∈ others, other.incidentId ∈ round.touched ∧ other.outranks row = true

/-- **The life cycle**, in the last of these rounds. -/
structure LifeCycle (limits : Limits) (past : List (Round F T)) (round : Round F T) : Prop where
  counts : round.out.result.activeCount + round.out.result.coolingCount +
    round.out.result.closedCount = round.out.result.incidentCount
  bounded : round.out.result.incidentCount ≤ limits.maxIncidents
  /-- The result shows the incidents that are retained. -/
  shown : round.out.result.topIncidents.Perm (round.out.store.map (·.top limits))
  truthful : ∀ row ∈ round.out.store, Truthful (past ++ [round]).reverse row
  dropped : DroppedForOthers limits.maxIncidents round

/-- The incidents retained before the call and those it has alerts for are within the limit. -/
def HasRoom (limits : Limits) (round : Round F T) : Prop :=
  (round.before.ids ++ round.touched).dedup.length ≤ limits.maxIncidents

/-- What holds of the store, given the rounds so far: each row stands where its life has led. -/
structure Kept (past : List (Round F T)) (store : Store) : Prop where
  nodup : store.ids.Nodup
  last : store = (past.reverse.head?.map (·.out.store)).getD []
  inactive : ∀ row ∈ store, row.inactiveRounds = quiet row.incidentId past.reverse
  status : ∀ row ∈ store, row.status = .ofRounds row.inactiveRounds
  recurrence : ∀ row ∈ store, row.recurrenceCount = recurrences row.incidentId past.reverse

variable {past rounds : List (Round F T)} {round : Round F T} {s t : Store} {id : PyStr}

theorem quiet_cons (id : PyStr) (round : Round F T) (recent : List (Round F T)) :
    quiet id (round :: recent) = if id ∈ round.touched then 0 else quiet id recent + 1 := by
  unfold quiet
  by_cases h : id ∈ round.touched <;> simp [h]

/-- An incident that was retained goes on with its life, one call longer. -/
theorem recurrences_retained (round : Round F T) (hkept : Kept past s) (hold : old ∈ s)
    (hin : old.incidentId ∈ round.out.store.ids) :
    recurrences old.incidentId (round :: past.reverse) = old.recurrenceCount +
      if old.incidentId ∈ round.touched ∧ 0 < old.inactiveRounds then 1 else 0 := by
  rw [hkept.recurrence old hold, hkept.inactive old hold]
  have hlast := hkept.last
  cases hrecent : past.reverse with
  | nil =>
    rw [hrecent] at hlast
    exact absurd (hlast ▸ hold) (List.not_mem_nil)
  | cons before recent =>
    rw [hrecent] at hlast
    have hstored : old.incidentId ∈ before.out.store.ids := by
      have hstore : s = before.out.store := hlast
      exact hstore ▸ mem_ids hold
    have hlife : life old.incidentId (before :: recent) = before :: life old.incidentId recent := by
      simp [life, hstored]
    have hlonger : life old.incidentId (round :: before :: recent) =
        round :: life old.incidentId (before :: recent) := by
      rw [life, List.takeWhile_cons_of_pos (by simpa using hin)]
      rfl
    rw [recurrences, recurrences, hlonger, hlife, List.map_cons, List.map_cons, reopenings,
      quiet_cons, Nat.add_comm]
    by_cases htouched : old.incidentId ∈ before.touched <;>
      by_cases hnow : old.incidentId ∈ round.touched <;> simp [htouched, hnow]

/-- An incident that was not retained begins a life. -/
theorem recurrences_opened (hkept : Kept past s) (hnew : id ∉ s.ids) :
    recurrences id (round :: past.reverse) = 0 := by
  have hend : life id past.reverse = [] := by
    have hlast := hkept.last
    cases hrecent : past.reverse with
    | nil => rfl
    | cons before recent =>
      rw [hrecent] at hlast
      have hstore : s = before.out.store := hlast
      rw [life, List.takeWhile_cons_of_neg (by simpa [← hstore] using hnew)]
  unfold recurrences life
  by_cases hin : id ∈ round.out.store.ids
  · rw [List.takeWhile_cons_of_pos (by simpa using hin)]
    simp only [life] at hend
    rw [hend]
    rfl
  · rw [List.takeWhile_cons_of_neg (by simpa using hin)]
    rfl

/-- Where a row stands says what it has to. -/
theorem Kept.truthful (hkept : Kept past s) (hmem : row ∈ s) : Truthful past.reverse row := by
  have hinactive := hkept.inactive row hmem
  have hstatus := hkept.status row hmem
  rw [hinactive, Status.ofRounds] at hstatus
  refine ⟨?_, ?_, ?_, hkept.recurrence row hmem⟩ <;>
  · rw [hstatus]
    split_ifs <;> simp only [true_iff, false_iff] <;> omega

/-! ## 4. Runs -/

section Runs

variable [PyFloat F] [PyRepr F] [PyConvert F] [PyDatetime T] [PyDigits] {config : SocConfig T}

/-- A call that succeeds. -/
def step (config : SocConfig T) (s : Store) (round : Round F T) (t : Store) : Prop :=
  round.before = s ∧ hitsOf config round.call = some round.hits ∧
    evaluate config s round.call = some round.out ∧ t = round.out.store

/-- What a round comes to. -/
theorem out_of_step (h : step config s round t) : round.before = s ∧ t = round.out.store ∧
    round.out = evaluateIncidentCampaignState config.limits round.hits (flowsOf round.call) s := by
  obtain ⟨hbefore, hhits, hout, ht⟩ := h
  rw [evaluate, hhits, Option.map_some] at hout
  exact ⟨hbefore, ht, (Option.some.inj hout).symm⟩

/-- **A call keeps every row where its life has led.** -/
theorem Kept.step (hkept : Kept past s) (h : step config s round t) :
    Kept (past ++ [round]) t := by
  obtain ⟨-, rfl, hout⟩ := out_of_step h
  have hrecent : (past ++ [round]).reverse = round :: past.reverse := by simp
  have hstore : round.out.store =
      evict config.limits.maxIncidents (poolOf s round.hits (flowsOf round.call)) :=
    congrArg Evaluated.store hout
  have hpool : ∀ row ∈ round.out.store, row ∈ poolOf s round.hits (flowsOf round.call) :=
    fun row hrow => evict_subset (hstore ▸ hrow)
  have hstands : ∀ row ∈ round.out.store, Stands s round.touched row :=
    fun row hrow => (stands (hpool row hrow)).1
  refine ⟨?_, by rw [hrecent]; rfl, fun row hrow => ?_, fun row hrow => (stands (hpool row hrow)).2,
    fun row hrow => ?_⟩
  · rw [hstore]
    exact nodup_evict (nodup_pool _ _ hkept.nodup)
  · rw [hrecent, quiet_cons]
    cases hstands row hrow with
    | aged old hold hsame hid hinactive _ =>
      rw [if_neg hid, hinactive, hkept.inactive old hold, hsame]
    | again _ _ _ hid hinactive _ => rw [if_pos hid, hinactive]
    | opened _ hid hinactive _ => rw [if_pos hid, hinactive]
  · rw [hrecent]
    cases hstands row hrow with
    | aged old hold hsame hid _ hcount =>
      have hlonger := recurrences_retained round hkept hold (hsame ▸ mem_ids hrow)
      rw [if_neg fun hboth => hid (hsame ▸ hboth.1), Nat.add_zero, hsame] at hlonger
      rw [hcount, hlonger]
    | again old hold hsame hid _ hcount =>
      have hlonger := recurrences_retained round hkept hold (hsame ▸ mem_ids hrow)
      simp only [hsame, hid, true_and] at hlonger
      rw [hcount, hlonger]
    | opened hnew _ _ hcount => rw [hcount, recurrences_opened hkept hnew]

theorem kept_of_run (h : Run (step config) [] past s) : Kept past s :=
  h.history (fun _ _ _ _ hkept hstep => hkept.step hstep)
    ⟨List.nodup_nil, rfl, by simp, by simp, by simp⟩

/-- **The counts agree exactly in the calls that have room**; the rest holds of every call. -/
theorem lifeCycle_iff (hkept : Kept past s) (h : step config s round t) :
    LifeCycle config.limits past round ↔ HasRoom config.limits round := by
  have hafter := hkept.step h
  obtain ⟨rfl, rfl, hout⟩ := out_of_step h
  set pool := poolOf round.before round.hits (flowsOf round.call) with hpooldef
  have hpool : round.out.pool = pool := congrArg Evaluated.pool hout
  have hstore : round.out.store = evict config.limits.maxIncidents pool :=
    congrArg Evaluated.store hout
  have hresult : round.out.result = campaignState config.limits pool :=
    congrArg Evaluated.result hout
  have hnodup : pool.ids.Nodup := nodup_pool _ _ hkept.nodup
  have hlength : pool.length = (round.before.ids ++ round.touched).dedup.length :=
    length_pool hkept.nodup
  have hcount : round.out.result.incidentCount = min config.limits.maxIncidents pool.length := by
    rw [hresult]
    exact length_evict hnodup
  have hsum : round.out.result.activeCount + round.out.result.coolingCount +
      round.out.result.closedCount = pool.length := by
    rw [hresult]
    exact counts pool
  rw [HasRoom, ← hlength]
  refine ⟨fun hlife => ?_, fun hroom => ?_⟩
  · have hagree := hlife.counts
    rw [hsum, hcount] at hagree
    exact hagree ▸ min_le_left _ _
  · refine ⟨by rw [hsum, hcount, min_eq_right hroom], by rw [hcount]; exact min_le_left _ _, ?_,
      fun row hrow => hafter.truthful hrow, fun id hid hgone => ?_⟩
    · rw [hresult, hstore]
      simp only [campaignState]
      rw [List.take_of_length_le (by
        rw [List.length_map, kept, List.length_take]
        exact min_le_left _ _)]
      exact ((evict_perm _ hnodup).map _).symm
    · rw [hpool]
      have hids : id ∈ pool.ids := by
        rw [hpooldef, ids_pool]
        exact mem_ids_touches.mpr (.inr hid)
      obtain ⟨row, hrow, rfl⟩ := List.mem_map.mp hids
      exact ⟨row, hrow, rfl, dropped_row hkept.nodup hrow hid (hstore ▸ hgone)⟩

/-- **The life cycle holds in every call of a run exactly when every call has room**: when the
incidents that were retained and those it has alerts for are together within `max_incidents`. -/
theorem life_cycle_iff (h : Run (step config) [] rounds s) :
    (∀ past round, past ++ [round] <+: rounds → LifeCycle config.limits past round) ↔
      ∀ round ∈ rounds, HasRoom config.limits round := by
  have hround : ∀ past round, past ++ [round] <+: rounds →
      (LifeCycle config.limits past round ↔ HasRoom config.limits round) := by
    rintro past round ⟨rest, hrest⟩
    rw [← hrest, List.append_assoc] at h
    obtain ⟨before, hbefore, hafter⟩ := h.split
    cases hafter with
    | head hstep _ => exact lifeCycle_iff (kept_of_run hbefore) hstep
  refine ⟨fun hlife round hmem => ?_, fun hroom past round hpast => ?_⟩
  · obtain ⟨past, rest, hsplit⟩ := List.append_of_mem hmem
    have hpast : past ++ [round] <+: rounds := ⟨rest, by rw [hsplit]; simp⟩
    exact (hround past round hpast).mp (hlife past round hpast)
  · exact (hround past round hpast).mpr (hroom round (hpast.subset (by simp)))

end Runs

/-! ## 5. Nine scans -/

/-- Times that are read as they stand. -/
instance : PyDatetime PyStr where
  fromIsoformat s := some s
  isoformat s := s

/-- An alert about a scan of a host. -/
def scanOf (host : String) : PyJson Whole :=
  .obj [(pyStr "event_id", .str (pyStr host)),
    (pyStr "ts", .str (pyStr "2026-07-01T00:00:00+00:00")),
    (pyStr "source", .str (pyStr "suricata_eve")), (pyStr "kind", .str (pyStr "alert")),
    (pyStr "subject", .str (pyStr "192.0.2.9->" ++ pyStr host ++ pyStr ":22/TCP")),
    (pyStr "severity", .int 80),
    (pyStr "attrs", .obj [(pyStr "sid", .int 2001), (pyStr "attack_type", .str (pyStr "scan")),
      (pyStr "category", .str (pyStr "attempted-recon")), (pyStr "risk_score", .int 80)])]

/-- A call with a scan of each of these hosts. -/
def scans (hosts : List String) : Call Whole PyStr := ⟨hosts.map scanOf, fun _ => [], []⟩

/-- The default evaluator, but for eight incidents. -/
def eightIncidents : SocConfig PyStr where
  sha := Sha256.hexdigest
  limits := .ofArgs 8 16
  policy := ⟨[], [], [], [], [], [], [], fun _ => some false⟩

/-- The rounds that these calls come to. -/
def roundsOf (before : Store) : List (Call Whole PyStr) → Option (List (Round Whole PyStr))
  | [] => some []
  | call :: calls => do
    let hits ← hitsOf eightIncidents call
    let out ← evaluate eightIncidents before call
    let rounds ← roundsOf out.store calls
    return ⟨before, call, hits, out⟩ :: rounds

theorem run_of_roundsOf {s : Store} {calls : List (Call Whole PyStr)}
    {rounds : List (Round Whole PyStr)} (h : roundsOf s calls = some rounds) :
    ∃ t, Run (step eightIncidents) s rounds t := by
  induction calls generalizing s rounds with
  | nil =>
    cases h
    exact ⟨s, Run.refl s⟩
  | cons call calls ih =>
    simp only [roundsOf, Option.bind_eq_bind, Option.bind_eq_some_iff, Option.pure_def,
      Option.some.injEq] at h
    obtain ⟨hits, hhits, out, hout, rounds, hrounds, rfl⟩ := h
    obtain ⟨t, hrun⟩ := ih hrounds
    exact ⟨t, Run.head ⟨rfl, hhits, hout, rfl⟩ hrun⟩

instance (limits : Limits) (round : Round F T) : Decidable (HasRoom limits round) :=
  inferInstanceAs (Decidable (_ ≤ _))

/-- A host is scanned, and then it is quiet. -/
def scanThenQuiet : List (Call Whole PyStr) := [scans ["198.51.100.7"], scans []]

theorem life_cycle_iff_sample : ∃ rounds s, roundsOf [] scanThenQuiet = some rounds ∧
    Run (step eightIncidents) [] rounds s ∧
    ∀ past round, past ++ [round] <+: rounds → LifeCycle eightIncidents.limits past round := by
  have hroom : (roundsOf [] scanThenQuiet).map (fun rounds =>
      decide (∀ round ∈ rounds, HasRoom eightIncidents.limits round)) = some true := by
    decide +kernel
  obtain ⟨rounds, hrounds, hroom⟩ := Option.map_eq_some_iff.mp hroom
  obtain ⟨s, hrun⟩ := run_of_roundsOf hrounds
  exact ⟨rounds, s, hrounds, hrun, (life_cycle_iff hrun).mpr (of_decide_eq_true hroom)⟩

/-- Nine hosts are scanned in one call. -/
def nineScans : List (Call Whole PyStr) :=
  [scans ["198.51.100.1", "198.51.100.2", "198.51.100.3", "198.51.100.4", "198.51.100.5",
    "198.51.100.6", "198.51.100.7", "198.51.100.8", "198.51.100.9"]]

/-- **Nine hosts are scanned in one call**: nine incidents are active, of eight. -/
theorem nine_active_of_eight : ∃ rounds s, roundsOf [] nineScans = some rounds ∧
    Run (step eightIncidents) [] rounds s ∧
    rounds.map (fun round => (round.out.result.activeCount, round.out.result.incidentCount)) =
      [(9, 8)] ∧
    ¬∀ past round, past ++ [round] <+: rounds → LifeCycle eightIncidents.limits past round := by
  have hcounted : (roundsOf [] nineScans).map (fun rounds => rounds.map fun round =>
      (round.out.result.activeCount, round.out.result.incidentCount)) = some [(9, 8)] := by
    decide +kernel
  obtain ⟨rounds, hrounds, hcounted⟩ := Option.map_eq_some_iff.mp hcounted
  obtain ⟨s, hrun⟩ := run_of_roundsOf hrounds
  refine ⟨rounds, s, hrounds, hrun, hcounted, fun hlife => ?_⟩
  obtain ⟨round, rfl, hpair⟩ := List.map_eq_singleton_iff.mp hcounted
  have hcounts := (hlife [] round List.prefix_rfl).counts
  obtain ⟨hactive, hincidents⟩ := Prod.mk.inj hpair
  omega

end AzazelEdge.Evaluators.Soc
