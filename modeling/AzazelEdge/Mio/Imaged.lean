/-
# An image that was written and read

`snapshot` writes an image of the coordinator and `_validate_snapshot` reads it.  What is read is
what was written, up to the surrogate pairs that JSON joins (`Snapshot.back`).
-/
import AzazelEdge.Mio.Coordinated
import AzazelEdge.Mio.Snapshot

namespace AzazelEdge.Mio

open AzazelEdge.Lib AzazelEdge.Lib.Py
open AzazelEdge.Audit (Row)

variable {F : Type} {cycle : Cycle}

/-! ## 1. A dict that was written and read -/

/-- The members of a dict that was written with its keys in order, and read. -/
def backRow (row : Row F) : Row F :=
  pyDict (settledMembers ((sortMembers row).insertionSort fun a b => keyLe a.1 b.1 = true))

theorem settled_obj (row : Row F) : settled (sortKeys (.obj row)) = .obj (backRow row) := by
  rw [sortKeys, settled]
  rfl

variable {key : PyStr} {row : Row F}

theorem getKey_backRow (hkey : Plain key) (hd : (row.map Prod.fst).Nodup) :
    getKey key (backRow row) = (getKey key row).map fun v => settled (sortKeys v) := by
  obtain ⟨back, hback, hget⟩ := Audit.getKey_sorted hkey hd
  rw [settled_obj] at hback
  injection hback with hback
  rw [hback]
  exact hget

theorem mem_backRow {item : PyStr × PyJson F} (h : item ∈ backRow row) :
    ∃ k ∈ row.map Prod.fst, item.1 = joinPairs k := by
  have hmem := mem_pyDict h
  rw [settledMembers_eq, Audit.sortMembers_eq] at hmem
  obtain ⟨sorted, hsorted, rfl⟩ := List.mem_map.mp hmem
  rw [List.mem_insertionSort] at hsorted
  obtain ⟨⟨k, v⟩, hmember, rfl⟩ := List.mem_map.mp hsorted
  exact ⟨k, List.mem_map_of_mem hmember, rfl⟩

/-- It has the same keys. -/
theorem hasKeys_backRow (hplain : ∀ k ∈ row.map Prod.fst, Plain k) (hd : (row.map Prod.fst).Nodup) :
    HasKeys (row.map Prod.fst) (backRow row) := by
  constructor
  · intro item hitem
    obtain ⟨k, hk, heq⟩ := mem_backRow hitem
    rw [heq, joinPairs_plain (hplain k hk)]
    exact hk
  · intro k hk
    rw [getKey_backRow (hplain k hk) hd, Option.isSome_map]
    exact getKey_isSome.mpr hk

/-! ## 2. A cycle that was written and read -/

/-- The cycle with its texts as they come back. -/
def Cycle.rejoined (cycle : Cycle) : Cycle :=
  { ticket :=
      { traceId := joinPairs cycle.ticket.traceId, cycleId := joinPairs cycle.ticket.cycleId
        epoch := cycle.ticket.epoch, frameId := joinPairs cycle.ticket.frameId
        materialDigest := joinPairs cycle.ticket.materialDigest }
    status := cycle.status, outcomeState := joinPairs cycle.outcomeState
    advisoryId := joinPairs cycle.advisoryId, discards := cycle.discards }

/-- No text of the cycle is longer than `_ID_LIMIT`. -/
structure Cycle.Fits (cycle : Cycle) : Prop where
  traceId : cycle.ticket.traceId.length ≤ 192
  cycleId : cycle.ticket.cycleId.length ≤ 192
  frameId : cycle.ticket.frameId.length ≤ 192
  materialDigest : cycle.ticket.materialDigest.length ≤ 192
  outcomeState : cycle.outcomeState.length ≤ 192
  advisoryId : cycle.advisoryId.length ≤ 192

theorem readId_ok {s : PyStr} :
    readId key row = .ok s ↔ getKey key row = some (.str s) ∧ s.length ≤ 192 := by
  unfold readId
  cases hget : getKey key row with
  | none => simp
  | some value =>
    cases value with
    | str s' =>
      simp only [Option.some.injEq, PyJson.str.injEq]
      split_ifs with hlength
      · constructor
        · intro h
          rw [← Except.ok.inj h]
          exact ⟨rfl, hlength⟩
        · intro h
          rw [h.1]
      · constructor
        · intro h
          cases h
        · intro h
          exact absurd (h.1 ▸ h.2) hlength
    | null | bool _ | int _ | float _ | arr _ | obj _ => simp

theorem readNat_ok {least n : ℕ} {value : Option (PyJson F)} :
    readNat least value = .ok n ↔ value = some (.int n) ∧ least ≤ n := by
  unfold readNat
  cases value with
  | none => simp
  | some value =>
    cases value with
    | int m =>
      simp only [Option.some.injEq, PyJson.int.injEq]
      split_ifs with hleast
      · constructor
        · intro h
          have := Except.ok.inj h
          omega
        · intro h
          rw [Except.ok.injEq]
          omega
      · constructor
        · intro h
          cases h
        · intro h
          omega
    | null | bool _ | str _ | float _ | arr _ | obj _ => simp

theorem readEpoch_ok {epoch : ℕ} {n : ℤ} {value : Option (PyJson F)} :
    readEpoch epoch value = .ok n ↔ value = some (.int n) ∧ 0 ≤ n ∧ n ≤ epoch := by
  unfold readEpoch
  cases value with
  | none => simp
  | some value =>
    cases value with
    | int m =>
      simp only [Option.some.injEq, PyJson.int.injEq]
      split_ifs with hrange
      · constructor
        · intro h
          rw [← Except.ok.inj h]
          exact ⟨rfl, hrange⟩
        · intro h
          rw [h.1]
      · constructor
        · intro h
          cases h
        · intro h
          exact absurd (h.1 ▸ h.2) hrange
    | null | bool _ | str _ | float _ | arr _ | obj _ => simp

theorem keys_toDict (cycle : Cycle) : (cycle.toDict : Row F).map Prod.fst = cycleKeys := rfl

theorem plain_cycleKeys : ∀ k ∈ cycleKeys, Plain k := by decide

theorem cycleKeys_nodup : cycleKeys.Nodup := by decide

/-- A member of a cycle, as it comes back. -/
theorem getKey_toDict (hkey : key ∈ cycleKeys) (cycle : Cycle) :
    getKey key (backRow (cycle.toDict : Row F)) =
      (getKey key (cycle.toDict : Row F)).map fun v => settled (sortKeys v) := by
  refine getKey_backRow (plain_cycleKeys key hkey) ?_
  rw [keys_toDict]
  exact cycleKeys_nodup

theorem hasKeys_toDict (cycle : Cycle) : HasKeys cycleKeys (backRow (cycle.toDict : Row F)) := by
  have h := @hasKeys_backRow F cycle.toDict
    (by rw [keys_toDict]; exact plain_cycleKeys) (by rw [keys_toDict]; exact cycleKeys_nodup)
  rwa [keys_toDict] at h

/-- The texts of a cycle, as they come back. -/
theorem readId_toDict {s : PyStr} (hkey : key ∈ cycleKeys) (cycle : Cycle)
    (hget : getKey key (cycle.toDict : Row F) = some (.str s)) {t : PyStr} :
    readId key (backRow (cycle.toDict : Row F)) = .ok t ↔ t = joinPairs s ∧ t.length ≤ 192 := by
  have hsettled : settled (sortKeys (.str s : PyJson F)) = .str (joinPairs s) := rfl
  rw [readId_ok, getKey_toDict hkey, hget, Option.map_some, hsettled, Option.some.injEq,
    PyJson.str.injEq, eq_comm]

theorem joinPairs_word (status : CycleStatus) : joinPairs (word status) = word status := by
  have hplain : Plain (word status) := by cases status <;> decide
  exact joinPairs_plain hplain

theorem word_short (status : CycleStatus) : (word status).length ≤ 192 := by
  cases status <;> decide

/-- **A cycle that fits is read back.** -/
theorem readCycle_back {epoch : ℕ} (hfits : cycle.rejoined.Fits)
    (hepoch : 0 ≤ cycle.ticket.epoch ∧ cycle.ticket.epoch ≤ epoch) :
    readCycle epoch (backRow (cycle.toDict : Row F)) = .ok cycle.rejoined := by
  have hdiscards : readNat 0 (some ((getKey (pyStr "discards") (backRow (cycle.toDict : Row F))).getD
      (.int 0))) = .ok cycle.discards := by
    rw [getKey_toDict (by decide)]
    exact readNat_ok.mpr ⟨rfl, Nat.zero_le _⟩
  have hread : readEpoch epoch (getKey (pyStr "epoch") (backRow (cycle.toDict : Row F))) =
      .ok cycle.ticket.epoch := by
    rw [getKey_toDict (by decide)]
    exact readEpoch_ok.mpr ⟨rfl, hepoch⟩
  have hstatus : readId (pyStr "status") (backRow (cycle.toDict : Row F)) = .ok (word cycle.status) :=
    (readId_toDict (by decide) cycle rfl).mpr ⟨(joinPairs_word _).symm, word_short _⟩
  rw [readCycle, if_neg (not_not.mpr (.inl (hasKeys_toDict cycle)))]
  refine ok_of_bind hdiscards ?_
  refine ok_of_bind ((readId_toDict (by decide) cycle rfl).mpr ⟨rfl, hfits.cycleId⟩) ?_
  refine ok_of_bind ((readId_toDict (by decide) cycle rfl).mpr ⟨rfl, hfits.traceId⟩) ?_
  refine ok_of_bind ((readId_toDict (by decide) cycle rfl).mpr ⟨rfl, hfits.frameId⟩) ?_
  refine ok_of_bind ((readId_toDict (by decide) cycle rfl).mpr ⟨rfl, hfits.materialDigest⟩) ?_
  refine ok_of_bind hstatus ?_
  refine ok_of_bind ((readId_toDict (by decide) cycle rfl).mpr ⟨rfl, hfits.outcomeState⟩) ?_
  refine ok_of_bind ((readId_toDict (by decide) cycle rfl).mpr ⟨rfl, hfits.advisoryId⟩) ?_
  refine ok_of_bind hread ?_
  rw [readWord_word]
  rfl

/-- What is read of a cycle that was written is that cycle, and it fits. -/
theorem readCycle_back_ok {epoch : ℕ} {found : Cycle}
    (h : readCycle epoch (backRow (cycle.toDict : Row F)) = .ok found) :
    found = cycle.rejoined ∧ cycle.rejoined.Fits ∧ 0 ≤ cycle.ticket.epoch ∧
      cycle.ticket.epoch ≤ epoch := by
  rw [readCycle, if_neg (not_not.mpr (.inl (hasKeys_toDict cycle)))] at h
  obtain ⟨discards, hdiscards, h⟩ := bind_eq_ok h
  obtain ⟨cycleId, hcycleId, h⟩ := bind_eq_ok h
  obtain ⟨traceId, htraceId, h⟩ := bind_eq_ok h
  obtain ⟨frameId, hframeId, h⟩ := bind_eq_ok h
  obtain ⟨materialDigest, hdigest, h⟩ := bind_eq_ok h
  obtain ⟨statusText, hstatus, h⟩ := bind_eq_ok h
  obtain ⟨outcomeState, hstate, h⟩ := bind_eq_ok h
  obtain ⟨advisoryId, hadvisory, h⟩ := bind_eq_ok h
  obtain ⟨cycleEpoch, hepoch, h⟩ := bind_eq_ok h
  rw [getKey_toDict (by decide)] at hdiscards hepoch
  obtain ⟨hdiscards, -⟩ := readNat_ok.mp hdiscards
  obtain ⟨hepoch, hzero, hle⟩ := readEpoch_ok.mp hepoch
  obtain ⟨rfl, hcycleIdFits⟩ := (readId_toDict (by decide) cycle rfl).mp hcycleId
  obtain ⟨rfl, htraceIdFits⟩ := (readId_toDict (by decide) cycle rfl).mp htraceId
  obtain ⟨rfl, hframeIdFits⟩ := (readId_toDict (by decide) cycle rfl).mp hframeId
  obtain ⟨rfl, hdigestFits⟩ := (readId_toDict (by decide) cycle rfl).mp hdigest
  obtain ⟨rfl, -⟩ := (readId_toDict (by decide) cycle rfl).mp hstatus
  obtain ⟨rfl, hstateFits⟩ := (readId_toDict (by decide) cycle rfl).mp hstate
  obtain ⟨rfl, hadvisoryFits⟩ := (readId_toDict (by decide) cycle rfl).mp hadvisory
  have hown : cycle.ticket.epoch = cycleEpoch := PyJson.int.inj (Option.some.inj hepoch)
  have hcount : (cycle.discards : ℤ) = discards := PyJson.int.inj (Option.some.inj hdiscards)
  rw [joinPairs_word, readWord_word] at h
  rw [hown]
  refine ⟨?_, ⟨htraceIdFits, hcycleIdFits, hframeIdFits, hdigestFits, hstateFits, hadvisoryFits⟩,
    hzero, hle⟩
  rw [← Except.ok.inj h, Cycle.rejoined, hown, Int.ofNat.inj hcount]

/-! ## 3. The lists of a snapshot -/

/-- What a mapped result was. -/
theorem map_ok {ε α β : Type} {r : Except ε α} {f : α → β} {b : β} (h : r.map f = .ok b) :
    ∃ a, r = .ok a ∧ f a = b := by
  cases r with
  | error e => cases h
  | ok a => exact ⟨a, rfl, Except.ok.inj h⟩

/-- The cycles of a snapshot as they come back. -/
def backCycles (cycles : List Cycle) : List (PyJson F) :=
  cycles.map fun cycle => .obj (backRow cycle.toDict)

/-- A cycle can be read under an epoch. -/
def Cycle.Readable (epoch : ℕ) (cycle : Cycle) : Prop :=
  cycle.rejoined.Fits ∧ 0 ≤ cycle.ticket.epoch ∧ cycle.ticket.epoch ≤ epoch

theorem readCycles_back {epoch : ℕ} {seen cycles : List Cycle}
    (h : ∀ cycle ∈ cycles, cycle.Readable epoch)
    (hnodup : ((seen ++ cycles.map Cycle.rejoined).map (·.ticket.cycleId)).Nodup) :
    readCycles epoch seen (backCycles cycles : List (PyJson F)) =
      .ok (seen ++ cycles.map Cycle.rejoined) := by
  induction cycles generalizing seen with
  | nil => simp [backCycles, readCycles]
  | cons cycle cycles ih =>
    obtain ⟨hcycle, hcycles⟩ := List.forall_mem_cons.mp h
    have hfresh : cycle.rejoined.ticket.cycleId ∉ seen.map (·.ticket.cycleId) := by
      intro hmem
      rw [List.map_append, List.nodup_append] at hnodup
      exact hnodup.2.2 _ hmem _ List.mem_cons_self rfl
    have hrest : ((seen ++ [cycle.rejoined] ++ cycles.map Cycle.rejoined).map
        (·.ticket.cycleId)).Nodup := by simpa using hnodup
    rw [backCycles, List.map_cons, readCycles]
    refine ok_of_bind (readCycle_back hcycle.1 hcycle.2) ?_
    rw [if_neg hfresh, ← backCycles, ih hcycles hrest]
    simp

theorem readCycles_back_ok {epoch : ℕ} {seen cycles out : List Cycle}
    (h : readCycles epoch seen (backCycles cycles : List (PyJson F)) = .ok out) :
    out = seen ++ cycles.map Cycle.rejoined ∧ (∀ cycle ∈ cycles, cycle.Readable epoch) ∧
      ((seen.map (·.ticket.cycleId)).Nodup → (out.map (·.ticket.cycleId)).Nodup) := by
  induction cycles generalizing seen with
  | nil =>
    have hout : out = seen := by
      rw [backCycles, List.map_nil, readCycles] at h
      exact (Except.ok.inj h).symm
    refine ⟨by simp [hout], by simp, fun hseen => by rw [hout]; exact hseen⟩
  | cons cycle cycles ih =>
    rw [backCycles, List.map_cons, readCycles] at h
    obtain ⟨found, hfound, h⟩ := bind_eq_ok h
    obtain ⟨rfl, hreadable⟩ := readCycle_back_ok hfound
    split_ifs at h with hfresh
    obtain ⟨hout, hall, hnodup⟩ := ih h
    refine ⟨by rw [hout]; simp, List.forall_mem_cons.mpr ⟨hreadable, hall⟩, fun hseen => hnodup ?_⟩
    rw [List.map_append, List.map_singleton]
    refine List.nodup_append.mpr ⟨hseen, List.nodup_singleton _, ?_⟩
    intro a ha b hb heq
    rw [List.mem_singleton.mp hb] at heq
    exact hfresh (heq ▸ ha)

/-- The latest cycles of a snapshot as they come back. -/
theorem readLatest_ok {cycles : List Cycle} {items : Row F} {out : List (PyStr × PyStr)}
    (h : readLatest cycles items = .ok out) :
    items = out.map (fun item => (item.1, .str item.2)) ∧ ∀ item ∈ out,
      ∃ cycle ∈ cycles, cycle.ticket.cycleId = item.2 ∧ cycle.ticket.traceId = item.1 := by
  induction items generalizing out with
  | nil =>
    rw [readLatest] at h
    rw [← Except.ok.inj h]
    simp
  | cons item items ih =>
    obtain ⟨traceId, value⟩ := item
    cases value with
    | str cycleId =>
      rw [readLatest] at h
      split_ifs at h with hany
      obtain ⟨rest, hrest, rfl⟩ := map_ok h
      obtain ⟨hitems, hall⟩ := ih hrest
      obtain ⟨cycle, hcycle, heq⟩ := List.any_eq_true.mp hany
      refine ⟨by rw [hitems]; rfl, List.forall_mem_cons.mpr ⟨⟨cycle, hcycle, ?_⟩, hall⟩⟩
      simpa using heq
    | null | bool _ | int _ | float _ | arr _ | obj _ => cases h

theorem readLatest_of {cycles : List Cycle} {out : List (PyStr × PyStr)}
    (h : ∀ item ∈ out, ∃ cycle ∈ cycles, cycle.ticket.cycleId = item.2 ∧
      cycle.ticket.traceId = item.1) :
    readLatest cycles (out.map fun item => (item.1, (.str item.2 : PyJson F))) = .ok out := by
  induction out with
  | nil => rfl
  | cons item out ih =>
    obtain ⟨⟨cycle, hcycle, hid, htrace⟩, hrest⟩ := List.forall_mem_cons.mp h
    have hany : (cycles.any fun cycle =>
        cycle.ticket.cycleId = item.2 ∧ cycle.ticket.traceId = item.1) = true :=
      List.any_eq_true.mpr ⟨cycle, hcycle, by simp [hid, htrace]⟩
    rw [List.map_cons, readLatest, if_pos hany, ih hrest]
    rfl

theorem readAudit_ok {items : List (PyJson F)} {rows : List (Row F)} :
    readAudit items = .ok rows ↔
      items = rows.map .obj ∧ ∀ row ∈ rows, (seqOf row).isSome ∧ hasEvent row = true := by
  induction items generalizing rows with
  | nil =>
    rw [readAudit]
    constructor
    · intro h
      rw [← Except.ok.inj h]
      simp
    · intro h
      rw [List.map_eq_nil_iff.mp h.1.symm]
  | cons item items ih =>
    cases item with
    | obj row =>
      rw [readAudit]
      split_ifs with hrow
      · constructor
        · intro h
          obtain ⟨rest, hrest, rfl⟩ := map_ok h
          obtain ⟨hitems, hall⟩ := ih.mp hrest
          exact ⟨by rw [hitems]; rfl, List.forall_mem_cons.mpr ⟨hrow, hall⟩⟩
        · intro h
          cases rows with
          | nil => cases h.1
          | cons first rest =>
            obtain ⟨hfirst, hitems⟩ := List.cons.inj h.1
            rw [ih.mpr ⟨hitems, (List.forall_mem_cons.mp h.2).2⟩, PyJson.obj.inj hfirst]
            rfl
      · constructor
        · intro h
          cases h
        · intro h
          cases rows with
          | nil => cases h.1
          | cons first rest =>
            obtain ⟨hfirst, -⟩ := List.cons.inj h.1
            rw [PyJson.obj.inj hfirst] at hrow
            exact absurd (List.forall_mem_cons.mp h.2).1 hrow
    | null | bool _ | int _ | float _ | str _ | arr _ =>
      constructor
      · intro h
        cases h
      · intro h
        cases rows with
        | nil => cases h.1
        | cons first rest => cases (List.cons.inj h.1).1

/-! ## 4. The payload -/

theorem sortItems_eq (items : List (PyJson F)) : sortItems items = items.map sortKeys := by
  induction items with
  | nil => rfl
  | cons item items ih => rw [sortItems, ih, List.map_cons]

theorem settledItems_eq (items : List (PyJson F)) : settledItems items = items.map settled := by
  induction items with
  | nil => rfl
  | cons item items ih => rw [settledItems, ih, List.map_cons]

theorem settled_arr (items : List (PyJson F)) :
    settled (sortKeys (.arr items)) = .arr (items.map fun item => settled (sortKeys item)) := by
  rw [sortKeys, settled, sortItems_eq, settledItems_eq, List.map_map]
  rfl

variable {s : Snapshot F}

/-- The latest cycles in the payload. -/
def Snapshot.latestRow (s : Snapshot F) : Row F := s.latest.map fun item => (item.1, .str item.2)

/-- The members of a dict that are texts. -/
def texts (row : Row F) : List (PyStr × PyStr) :=
  row.filterMap fun item => match item.2 with
    | .str t => some (item.1, t)
    | _ => none

/-- A snapshot as it comes back. -/
def Snapshot.back (s : Snapshot F) : Snapshot F :=
  { epoch := s.epoch, nextCycle := s.nextCycle, latest := texts (backRow s.latestRow)
    cycles := s.cycles.map Cycle.rejoined, audit := s.audit.map backRow
    auditDropped := s.auditDropped }

theorem keys_payload (s : Snapshot F) : s.payload.map Prod.fst = snapshotKeys := rfl

theorem plain_snapshotKeys : ∀ k ∈ snapshotKeys, Plain k := by decide

theorem snapshotKeys_nodup : snapshotKeys.Nodup := by decide

/-- A member of the payload, as it comes back. -/
theorem getKey_payload (hkey : key ∈ snapshotKeys) (s : Snapshot F) :
    getKey key (backRow s.payload) = (getKey key s.payload).map fun v => settled (sortKeys v) := by
  refine getKey_backRow (plain_snapshotKeys key hkey) ?_
  rw [keys_payload]
  exact snapshotKeys_nodup

theorem hasKeys_payload (s : Snapshot F) : HasKeys snapshotKeys (backRow s.payload) := by
  have h := @hasKeys_backRow F s.payload
    (by rw [keys_payload]; exact plain_snapshotKeys) (by rw [keys_payload]; exact snapshotKeys_nodup)
  rwa [keys_payload] at h

theorem ofSchema_payload (s : Snapshot F) : ofSchema (backRow s.payload) = true := by
  rw [ofSchema, getKey_payload (by decide)]
  have hget : getKey (pyStr "schema") s.payload = some (.str coordinatorSnapshotSchema) := rfl
  have hplain : joinPairs coordinatorSnapshotSchema = coordinatorSnapshotSchema := joinPairs_pyStr _
  rw [hget, Option.map_some, sortKeys, settled, hplain]
  · exact decide_eq_true rfl
  · intro items h
    cases h
  · intro members h
    cases h

/-- **The payload comes back as it was written.** -/
theorem readPayload_back (s : Snapshot F) : readPayload (backRow s.payload) =
    if 1 ≤ s.nextCycle then do
      let cycles ← readCycles s.epoch [] (backCycles s.cycles : List (PyJson F))
      let latest ← readLatest cycles (backRow s.latestRow)
      let audit ← readAudit (s.audit.map fun row => .obj (backRow row))
      .ok { epoch := s.epoch, nextCycle := s.nextCycle, latest, cycles, audit
            auditDropped := s.auditDropped }
    else .error .malformed := by
  have hcycles : getKey (pyStr "cycles") (backRow s.payload) = some (.arr (backCycles s.cycles)) := by
    rw [getKey_payload (by decide)]
    have hget : getKey (pyStr "cycles") s.payload =
        some (.arr (s.cycles.map fun cycle => .obj cycle.toDict)) := rfl
    rw [hget, Option.map_some, settled_arr, List.map_map]
    simp only [backCycles, Function.comp_def, settled_obj]
  have hlatest : getKey (pyStr "latest") (backRow s.payload) = some (.obj (backRow s.latestRow)) := by
    rw [getKey_payload (by decide)]
    have hget : getKey (pyStr "latest") s.payload = some (.obj s.latestRow) := rfl
    rw [hget, Option.map_some, settled_obj]
  have haudit : getKey (pyStr "audit") (backRow s.payload) =
      some (.arr (s.audit.map fun row => .obj (backRow row))) := by
    rw [getKey_payload (by decide)]
    have hget : getKey (pyStr "audit") s.payload = some (.arr (s.audit.map .obj)) := rfl
    rw [hget, Option.map_some, settled_arr, List.map_map]
    simp only [Function.comp_def, settled_obj]
  have hepoch : readNat 0 (getKey (pyStr "epoch") (backRow s.payload)) = .ok s.epoch := by
    rw [getKey_payload (by decide)]
    exact readNat_ok.mpr ⟨rfl, Nat.zero_le _⟩
  have hdropped : readNat 0 (getKey (pyStr "audit_dropped") (backRow s.payload)) =
      .ok s.auditDropped := by
    rw [getKey_payload (by decide)]
    exact readNat_ok.mpr ⟨rfl, Nat.zero_le _⟩
  have hnext : readNat 1 (getKey (pyStr "next_cycle") (backRow s.payload)) =
      if 1 ≤ s.nextCycle then .ok s.nextCycle else .error .malformed := by
    rw [getKey_payload (by decide)]
    exact if_congr Int.ofNat_le rfl rfl
  rw [readPayload, hcycles, hlatest, haudit, hepoch, hdropped, hnext]
  split_ifs <;> rfl

theorem map_texts {row : Row F} (h : ∀ item ∈ row, ∃ t, item.2 = .str t) :
    (texts row).map (fun item => (item.1, .str item.2)) = row := by
  induction row with
  | nil => rfl
  | cons item row ih =>
    obtain ⟨⟨t, ht⟩, hrow⟩ := List.forall_mem_cons.mp h
    obtain ⟨k, v⟩ := item
    obtain rfl : v = .str t := ht
    have hcons : texts ((k, .str t) :: row) = (k, t) :: texts row := rfl
    rw [hcons, List.map_cons, ih hrow]

theorem texts_keys_nodup {row : Row F} (h : (row.map Prod.fst).Nodup) :
    ((texts row).map Prod.fst).Nodup := by
  refine h.sublist ?_
  induction row with
  | nil => exact List.Sublist.refl _
  | cons item row ih =>
    obtain ⟨k, v⟩ := item
    have hrest := ih (List.nodup_cons.mp h).2
    cases v with
    | str t => exact hrest.cons_cons k
    | null | bool _ | int _ | float _ | arr _ | obj _ => exact hrest.cons k

theorem backRow_latest (s : Snapshot F) :
    backRow s.latestRow = s.back.latest.map fun item => (item.1, .str item.2) := by
  refine (map_texts fun item hitem => ?_).symm
  have hrow := mem_pyDict hitem
  rw [settledMembers_eq, Audit.sortMembers_eq] at hrow
  obtain ⟨sorted, hsorted, rfl⟩ := List.mem_map.mp hrow
  rw [List.mem_insertionSort] at hsorted
  obtain ⟨member, hmember, rfl⟩ := List.mem_map.mp hsorted
  obtain ⟨old, -, rfl⟩ := List.mem_map.mp hmember
  exact ⟨joinPairs old.2, rfl⟩

/-- What `_validate_snapshot` asks of an image. -/
structure Snapshot.Storable (s : Snapshot F) : Prop where
  next : 1 ≤ s.nextCycle
  cycles : ∀ cycle ∈ s.cycles, cycle.Readable s.epoch
  ids : (s.back.cycles.map (·.ticket.cycleId)).Nodup
  latest : ∀ item ∈ s.back.latest, ∃ cycle ∈ s.back.cycles,
    cycle.ticket.cycleId = item.2 ∧ cycle.ticket.traceId = item.1
  audit : ∀ row ∈ s.back.audit, (seqOf row).isSome ∧ hasEvent row = true

variable [PyFloat F]

/-- The bytes of an image are ASCII, and read back. -/
theorem validateSnapshot_bytes (s : Snapshot F) :
    validateSnapshot s.bytes = readPayload (backRow s.payload) := by
  have hascii : s.bytes.all (· < 128) = true := by
    rw [List.all_eq_true]
    intro c hc
    have := printable_text (sortKeys (.obj s.payload)) c hc
    exact decide_eq_true (by omega)
  have hloads : (loads s.bytes : Option (PyJson F)) = some (.obj (backRow s.payload)) := by
    rw [Snapshot.bytes, loads_text, settled_obj]
  rw [validateSnapshot, if_pos hascii, hloads]
  simp only [ofSchema_payload, hasKeys_payload, if_true]

/-- **An image is read back exactly when it is storable, and as `back`.** -/
theorem validateSnapshot_ok {found : Snapshot F} :
    validateSnapshot s.bytes = .ok found ↔ found = s.back ∧ s.Storable := by
  have hrows : (s.audit.map fun row => (.obj (backRow row) : PyJson F)) = s.back.audit.map .obj := by
    rw [Snapshot.back, List.map_map]
    rfl
  rw [validateSnapshot_bytes, readPayload_back, backRow_latest, hrows]
  constructor
  · intro h
    split_ifs at h with hnext
    obtain ⟨cycles, hcycles, h⟩ := bind_eq_ok h
    obtain ⟨latest, hlatest, h⟩ := bind_eq_ok h
    obtain ⟨audit, haudit, h⟩ := bind_eq_ok h
    obtain ⟨hback, hreadable, hnodup⟩ := readCycles_back_ok hcycles
    obtain ⟨hitems, hall⟩ := readLatest_ok hlatest
    obtain ⟨hrows, hrow⟩ := readAudit_ok.mp haudit
    have hlatest' : latest = s.back.latest := by
      refine (List.map_injective_iff.mpr ?_ hitems).symm
      intro item item' heq
      obtain ⟨hfst, hsnd⟩ := Prod.mk.inj heq
      exact Prod.ext hfst (PyJson.str.inj hsnd)
    have haudit' : audit = s.back.audit :=
      (List.map_injective_iff.mpr (fun _ _ => PyJson.obj.inj) hrows).symm
    have hcycles' : cycles = s.back.cycles := hback
    rw [hlatest', hcycles'] at hall
    rw [haudit'] at hrow
    rw [← Except.ok.inj h, hlatest', haudit', hcycles']
    refine ⟨rfl, hnext, hreadable, ?_, hall, hrow⟩
    rw [← hcycles']
    exact hnodup List.nodup_nil
  · rintro ⟨rfl, h⟩
    rw [if_pos h.next]
    refine ok_of_bind (readCycles_back h.cycles h.ids) ?_
    refine ok_of_bind (readLatest_of h.latest) ?_
    refine ok_of_bind (readAudit_ok.mpr ⟨rfl, h.audit⟩) ?_
    rfl

end AzazelEdge.Mio
