/-
# One record of the audit chain

What `P0AuditLogger` makes of a call, the line it writes, the dict a reader gets of the line, and
the check of a row's hash (`audit/logger.py`).

The hash is taken over the record in memory with `sort_keys`, and is checked over the row read back.
The two are hashes of one text when the record does not name `chain_hash` itself and is `Stable`
(`rowHash_chained`): a payload that names `chain_hash` is hashed with that member and read back
without it.

The hash function is a parameter: of a digest only what its text looks like is used.
-/
import AzazelEdge.Lib.PyRead
import AzazelEdge.Lib.HashChain

namespace AzazelEdge.Audit

open AzazelEdge.Lib AzazelEdge.Lib.Py

variable {F : Type} [PyFloat F]

/-! ## 1. The call -/

/-- `VALID_KINDS`. -/
def validKinds : List PyStr :=
  [pyStr "event_receive", pyStr "evaluation", pyStr "action_decision", pyStr "notification",
    pyStr "ai_assist", pyStr "triage_session_started", pyStr "triage_step_answered",
    pyStr "triage_state_changed", pyStr "triage_runbook_proposed", pyStr "triage_handoff",
    pyStr "triage_completed"]

/-- `DURABLE_KINDS`. -/
def durableKinds : List PyStr := [pyStr "action_decision", pyStr "notification"]

/-- The parameters of `log`, which no keyword of a payload can have. -/
def parameters : List PyStr :=
  [pyStr "self", pyStr "kind", pyStr "trace_id", pyStr "source"]

/-- A call of `log`, and the `ts` the clock gives it. -/
structure Call (F : Type) where
  kind : PyStr
  traceId : PyStr
  source : PyStr
  payload : List (PyStr × PyValue F)
  ts : PyStr
  payload_nodup : (payload.map Prod.fst).Nodup
  payload_free : ∀ key ∈ parameters, key ∉ payload.map Prod.fst

abbrev kTs : PyStr := pyStr "ts"
abbrev kKind : PyStr := pyStr "kind"
abbrev kTraceId : PyStr := pyStr "trace_id"
abbrev kSource : PyStr := pyStr "source"
abbrev kChainPrev : PyStr := pyStr "chain_prev"
abbrev kChainId : PyStr := pyStr "chain_id"
abbrev kChainHash : PyStr := pyStr "chain_hash"

/-- A record, as a dict. -/
abbrev Record (F : Type) := List (PyStr × PyValue F)

/-- A row, as a reader has it. -/
abbrev Row (F : Type) := List (PyStr × PyJson F)

/-- `d.update(other)`. -/
def update (d other : Record F) : Record F := other.foldl (fun d item => setKey item.1 item.2 d) d

/-- The logger's own fields. -/
def Call.fields (c : Call F) (lastChainHash : PyStr) : Record F :=
  [(kTs, .str c.ts), (kKind, .str c.kind), (kTraceId, .str c.traceId), (kSource, .str c.source),
    (kChainPrev, .str lastChainHash)]

/-- The record before it is hashed.  `chainId` is given for the first record of a rotated chain's
new file. -/
def Call.record (c : Call F) (lastChainHash : PyStr) (chainId : Option PyStr) : Record F :=
  match chainId with
  | some id => setKey kChainId (.str id) (popKey kChainId (update (c.fields lastChainHash) c.payload))
  | none => popKey kChainId (update (c.fields lastChainHash) c.payload)

/-! ## 2. The hash and the line -/

/-- `_compute_chain_hash` of a record. -/
def computeChainHash (sha : Text → PyStr) (record : Record F) : PyStr :=
  sha (text (written true (strDict record)))

/-- The record with its hash; none when `json.dumps` cannot sort its keys. -/
def chained (sha : Text → PyStr) (record : Record F) : Option (Record F) :=
  if sortable (strDict record) then
    some (setKey kChainHash (.str (computeChainHash sha record)) record)
  else none

/-- The line of a record. -/
def lineOf (record : Record F) : Text := text (written false (strDict record))

/-- The row a reader gets of a record's line. -/
def rowOf (record : Record F) : Row F := pyDict (readBack record)

/-- `_compute_chain_hash` of a row. -/
def rowHash (sha : Text → PyStr) (row : Row F) : PyStr := sha (text (sortKeys (.obj row)))

section Coerced

variable [PyRepr F]

/-- `str(row.get(key) or '')`. -/
def strAt (key : PyStr) (row : Row F) : PyStr := strOr (getKey key row)

def chainPrev (row : Row F) : PyStr := strAt kChainPrev row

def chainHash (row : Row F) : PyStr := strAt kChainHash row

/-- The hash that the row's own text has. -/
def bodyHash (sha : Text → PyStr) (row : Row F) : PyStr := rowHash sha (popKey kChainHash row)

end Coerced

/-! ## 3. `_verify_lines` -/

structure VerifyResult where
  ok : Bool
  entries : ℕ
  error : String
  deriving DecidableEq, Repr

section Verify

variable [PyRepr F] (F)

/-- `_verify_lines` from the line after the first `done`; nothing when it raises. -/
def verifyLines (sha : Text → PyStr) : ℕ → List Text → PyStr → Option VerifyResult
  | done, [], _ => some ⟨true, done, ""⟩
  | done, line :: lines, prev =>
    match (loads line : Option (PyJson F)) with
    | some (.obj row) =>
      if chainPrev row ≠ prev then some ⟨false, done, s!"chain_prev_mismatch_at:{done + 1}"⟩
      else if chainHash row ≠ bodyHash sha row then
        some ⟨false, done, s!"chain_hash_mismatch_at:{done + 1}"⟩
      else verifyLines sha (done + 1) lines (chainHash row)
    | _ => none

/-- `verify_chain` of a file; the newline translation of `read_text` moves no line break. -/
def verifyChain (sha : Text → PyStr) (file : Option Text) : Option VerifyResult :=
  match file with
  | none => some ⟨true, 0, ""⟩
  | some bytes =>
    (decodeUtf8 false bytes).bind fun t => verifyLines F sha 0 (splitLines t) []

end Verify

/-! ## 4. Dicts of records -/

theorem plain_keys : ∀ key ∈ [kTs, kKind, kTraceId, kSource, kChainPrev, kChainId, kChainHash],
    Plain key := by decide +kernel

theorem plain_chainHash : Plain kChainHash := plain_keys _ (by simp)

theorem plain_chainPrev : Plain kChainPrev := plain_keys _ (by simp)

theorem plain_chainId : Plain kChainId := plain_keys _ (by simp)

variable {key : PyStr} {record : Record F} {sha : Text → PyStr}

omit [PyFloat F] in
theorem getKey_update (d other : Record F) (h : (other.map Prod.fst).Nodup) :
    getKey key (update d other) = (getKey key other).or (getKey key d) := by
  induction other generalizing d with
  | nil => rfl
  | cons item other ih =>
    rw [List.map_cons, List.nodup_cons] at h
    rw [update, List.foldl_cons, ← update, ih _ h.2, getKey_setKey, getKey]
    split_ifs with hkey
    · rw [getKey_eq_none.mpr (hkey ▸ h.1)]
      rfl
    · rfl

omit [PyFloat F] in
theorem update_keys_nodup {d : Record F} (other : Record F) (h : (d.map Prod.fst).Nodup) :
    ((update d other).map Prod.fst).Nodup := by
  induction other generalizing d with
  | nil => exact h
  | cons item other ih => exact ih (setKey_keys_nodup h)

theorem getKey_popKey {α : Type} (k : PyStr) (d : List (PyStr × α)) :
    getKey key (popKey k d) = if k = key then none else getKey key d := by
  induction d with
  | nil => simp [popKey, getKey]
  | cons item d ih =>
    obtain ⟨k', v⟩ := item
    by_cases hk : k' = k
    · rw [popKey, List.filter_cons_of_neg (by simpa using hk), ← popKey, ih, getKey, hk]
      split_ifs <;> rfl
    · rw [popKey, List.filter_cons_of_pos (by simpa using hk), ← popKey, getKey, ih, getKey]
      by_cases hkey : k' = key
      · rw [if_pos hkey, if_pos hkey, if_neg (fun h => hk (hkey.trans h.symm))]
      · rw [if_neg hkey, if_neg hkey]

theorem popKey_keys_nodup {α : Type} {d : List (PyStr × α)} (k : PyStr)
    (h : (d.map Prod.fst).Nodup) : ((popKey k d).map Prod.fst).Nodup :=
  h.sublist (List.filter_sublist.map Prod.fst)

theorem popKey_of_not_mem {α : Type} {d : List (PyStr × α)} (h : key ∉ d.map Prod.fst) :
    popKey key d = d := by
  refine List.filter_eq_self.mpr fun item hitem => ?_
  have : item.1 ≠ key := fun hkey => h (hkey ▸ List.mem_map_of_mem hitem)
  simpa using this

omit [PyFloat F] in
theorem fields_nodup (c : Call F) (prev : PyStr) : ((c.fields prev).map Prod.fst).Nodup := by
  simp only [Call.fields, List.map_cons, List.map_nil]
  decide

omit [PyFloat F] in
theorem record_nodup (c : Call F) (prev : PyStr) (chainId : Option PyStr) :
    ((c.record prev chainId).map Prod.fst).Nodup := by
  have hpop := popKey_keys_nodup kChainId (update_keys_nodup c.payload (fields_nodup c prev))
  unfold Call.record
  split
  · exact setKey_keys_nodup hpop
  · exact hpop

omit [PyFloat F] in
/-- The members of a record. -/
theorem getKey_record (c : Call F) (prev : PyStr) (chainId : Option PyStr) :
    getKey key (c.record prev chainId) =
      if key = kChainId then chainId.map .str
      else (getKey key c.payload).or (getKey key (c.fields prev)) := by
  have hpop : getKey key (popKey kChainId (update (c.fields prev) c.payload)) =
      if key = kChainId then none
      else (getKey key c.payload).or (getKey key (c.fields prev)) := by
    rw [getKey_popKey, getKey_update _ _ c.payload_nodup]
    simp only [eq_comm]
  unfold Call.record
  cases chainId with
  | none => exact hpop
  | some id =>
    rw [getKey_setKey, hpop]
    by_cases hkey : key = kChainId
    · rw [if_pos hkey.symm, if_pos hkey]
      rfl
    · rw [if_neg (Ne.symm hkey), if_neg hkey, if_neg hkey]

omit [PyFloat F] in
/-- The payload cannot name a parameter of `log`. -/
theorem getKey_payload_parameter (c : Call F) (h : key ∈ parameters) :
    getKey key c.payload = none :=
  getKey_eq_none.mpr (c.payload_free key h)

/-! ## 5. What a reader gets of a chained record -/

theorem chained_eq {record' : Record F} (h : chained sha record = some record') :
    sortable (strDict record) = true ∧
      record' = setKey kChainHash (.str (computeChainHash sha record)) record := by
  unfold chained at h
  split_ifs at h with hsort
  exact ⟨hsort, (Option.some.inj h).symm⟩

theorem loads_lineOf (record : Record F) : loads (lineOf record) = some (.obj (rowOf record)) := by
  rw [lineOf, loads_text, settled_strDict, rowOf]

theorem lineOf_obj (record : Record F) : ∃ members, lineOf record = text (F := F) (.obj members) ∧
    settled (.obj members) = .obj (rowOf record) := by
  have hsettled := settled_strDict record
  rw [strDict, written] at hsettled
  refine ⟨_, ?_, hsettled⟩
  rw [lineOf, strDict, written]

/-- The bytes of a line load as the row. -/
theorem loadsBytes_lineOf (wide : Text → Option Text) (record : Record F) :
    loadsBytes wide (lineOf record) = some (.obj (rowOf record)) := by
  obtain ⟨members, hline, hsettled⟩ := lineOf_obj record
  rw [hline, loadsBytes_text, hsettled]

theorem printable_lineOf (record : Record F) : Printable (lineOf record) := printable_text _

theorem getKey_rowOf (hrecord : (record.map Prod.fst).Nodup) (hkey : Plain key) :
    getKey key (rowOf record) = (getKey key record).map fun v => settled (written false v) :=
  getKey_settled hrecord hkey

/-- The hash a chained record carries is read back. -/
theorem getKey_chainHash {record' : Record F} (hrecord : (record.map Prod.fst).Nodup)
    (h : chained sha record = some record') :
    getKey kChainHash (rowOf record') = some (.str (joinPairs (computeChainHash sha record))) := by
  obtain ⟨-, rfl⟩ := chained_eq h
  rw [getKey_rowOf (setKey_keys_nodup hrecord) plain_chainHash, getKey_setKey, if_pos rfl]
  rfl

/-- **The row of a record that does not name `chain_hash` has the hash of the record.** -/
theorem rowHash_chained [PyRepr F] {record' : Record F}
    (h : chained sha record = some record') (hfree : kChainHash ∉ record.map Prod.fst)
    (hstable : Stable (strDict record)) :
    bodyHash sha (rowOf record') = computeChainHash sha record := by
  obtain ⟨-, rfl⟩ := chained_eq h
  have hnames : ((readBack record).map Prod.fst).Nodup := by
    have hkeys := names_nodup hstable.1
    rw [List.map_map, List.map_map] at hkeys
    rw [readBack, List.map_map]
    exact hkeys
  have hnot : kChainHash ∉ (readBack record).map Prod.fst := by
    intro hmem
    rw [readBack, List.map_map] at hmem
    obtain ⟨item, hitem, hname⟩ := List.mem_map.mp hmem
    exact hfree ((joinPairs_eq_plain plain_chainHash hname) ▸ List.mem_map_of_mem hitem)
  -- the hash is the last member, in memory and in the row
  have hrow : rowOf (setKey kChainHash (.str (computeChainHash sha record)) record) =
      readBack record ++ [(kChainHash, .str (joinPairs (computeChainHash sha record)))] := by
    rw [rowOf, setKey_of_not_mem hfree, readBack, List.map_append, ← readBack, pyDict_of_nodup]
    · simp only [List.map_cons, List.map_nil, joinPairs_plain plain_chainHash]
      rfl
    · rw [List.map_append, List.nodup_append]
      refine ⟨hnames, by simp, ?_⟩
      intro a ha b hb hab
      simp only [List.map_cons, List.map_nil, List.mem_singleton,
        joinPairs_plain plain_chainHash] at hb
      exact hnot (hb ▸ hab ▸ ha)
  have hbody : popKey kChainHash
      (rowOf (setKey kChainHash (.str (computeChainHash sha record)) record)) =
        readBack record := by
    rw [hrow, popKey, List.filter_append, ← popKey, popKey_of_not_mem hnot]
    simp
  have hread : .obj (readBack record) = settled (written false (strDict record)) := by
    rw [settled_strDict, pyDict_of_nodup hnames]
  rw [bodyHash, hbody, rowHash, hread, text_sortKeys hstable]
  rfl

end AzazelEdge.Audit
