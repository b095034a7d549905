/-
# A verified chain is determined by its end

A row's hash is the hash of its canonical text, so under a hash that is injective on canonical JSON
two rows of one hash have one text.  From a text the link back is recovered as far as it is a digest
(`strOr_of_settled`): a string, a number and a list can have one `str(...)`, but no list's begins with
a hexadecimal digit and no two scalars have one text.  `HashChain.ends_agree` walks back from there.

Records are the same in what the hash sees: their texts without `chain_hash`, and `chain_hash` as
`str(... or '')`.  More cannot be had: a reader of bytes takes a raw surrogate pair and the character
it stands for to different strings of one canonical text (`raw_surrogates_verify`).
-/
import AzazelEdge.Audit.Verified

namespace AzazelEdge.Audit

open AzazelEdge.Lib AzazelEdge.Lib.Py HashChain

variable {F : Type} [PyFloat F] {row row' : Row F} {key : PyStr}

/-! ## 1. What a text says of a member -/

omit [PyFloat F] in
theorem sortMembers_eq (members : Row F) : sortMembers members = members.map sortMember := by
  induction members with
  | nil => rfl
  | cons member members ih => rw [sortMembers, ih, List.map_cons]

theorem getKey_perm {α : Type} {d d' : List (PyStr × α)} (hperm : d.Perm d')
    (hd : (d.map Prod.fst).Nodup) : getKey key d = getKey key d' := by
  cases hget : getKey key d' with
  | none =>
    rw [getKey_eq_none] at hget ⊢
    rwa [(hperm.map Prod.fst).mem_iff]
  | some v => exact getKey_of_mem hd (hperm.mem_iff.mpr (getKey_mem hget))

omit [PyFloat F] in
theorem getKey_settledMembers (hkey : Plain key) (members : Row F) :
    getKey key (members.map settledMember) = (getKey key members).map settled := by
  induction members with
  | nil => rfl
  | cons member members ih =>
    obtain ⟨k, v⟩ := member
    rw [List.map_cons, settledMember, getKey, getKey, ih]
    simp only [joinPairs_eq_iff hkey]
    split_ifs <;> rfl

omit [PyFloat F] in
/-- **The canonical text keeps every plain member.** -/
theorem getKey_sorted (hkey : Plain key) {members : Row F} (hd : (members.map Prod.fst).Nodup) :
    ∃ back, settled (sortKeys (.obj members)) = .obj back ∧
      getKey key back = (getKey key members).map fun v => settled (sortKeys v) := by
  have hsort : members.map sortMember = members.map fun item => (item.1, sortKeys item.2) :=
    List.map_congr_left fun item _ => by obtain ⟨k, v⟩ := item; rfl
  have hperm := List.perm_insertionSort (fun a b : PyStr × PyJson F => keyLe a.1 b.1 = true)
    (members.map sortMember)
  have hnodup : (((members.map sortMember).insertionSort
      (fun a b => keyLe a.1 b.1 = true)).map Prod.fst).Nodup := by
    rw [(hperm.map Prod.fst).nodup_iff, hsort, List.map_map]
    exact hd
  refine ⟨_, by rw [sortKeys, sortMembers_eq, settled, settledMembers_eq], ?_⟩
  rw [getKey_pyDict, ← List.map_reverse, getKey_settledMembers hkey,
    getKey_perm (List.reverse_perm _) (by rwa [List.map_reverse, List.nodup_reverse]),
    getKey_perm hperm hnodup, hsort, getKey_map, Option.map_map]
  rfl

section Coerced

variable [PyRepr F] {sha : Text → PyStr} {wide : Text → Option Text} {rows rows' : List (Row F)}
  {dir dir' : Dir}

/-- The `chain_prev` that the first row starts from. -/
def startOf : List (Row F) → PyStr
  | [] => []
  | row :: _ => chainPrev row

omit [PyRepr F] in
theorem scanScalar_ne_obj {t rest : Text} {members : Row F} :
    scanScalar t ≠ some (PyJson.obj members, rest) := by
  have hnumber : ∀ (negative : Bool) (t : Text),
      scanNumber (F := F) negative t ≠ some (PyJson.obj members, rest) := by
    intro negative t h
    rw [scanNumber] at h
    split at h
    · cases h
    · simp only at h
      split_ifs at h <;> simp at h
  intro h
  unfold scanScalar at h
  split at h
  · cases h
  split at h
  · cases h
  split at h
  · cases h
  split at h
  · cases h
  split at h <;> exact hnumber _ _ h

omit [PyRepr F] in
theorem loads_nodup {t : Text} {members : Row F} (h : loads t = some (.obj members)) :
    (members.map Prod.fst).Nodup := by
  have hscan : ∀ {fuel : ℕ} {t rest : Text} {members : Row F},
      scanOnce fuel t = some (.obj members, rest) → (members.map Prod.fst).Nodup := by
    intro fuel t rest members h
    cases fuel with
    | zero => rw [scanOnce.eq_def] at h; cases h
    | succ fuel =>
      obtain - | ⟨c, t⟩ := t
      · rw [scanOnce.eq_def] at h
        cases h
      rw [scanOnce.eq_def] at h
      simp only at h
      split_ifs at h with hquote hbrace hbracket
      · rw [Option.map_eq_some_iff] at h
        obtain ⟨a, -, ha⟩ := h
        simp at ha
      · split at h
        · cases h
        · split_ifs at h
          · simp only [Option.some.injEq, Prod.mk.injEq, PyJson.obj.injEq] at h
            rw [← h.1]
            exact List.nodup_nil
          · rw [Option.map_eq_some_iff] at h
            obtain ⟨a, -, ha⟩ := h
            simp only [Prod.mk.injEq, PyJson.obj.injEq] at ha
            rw [← ha.1]
            exact pyDict_keys_nodup _
      · split at h
        · cases h
        · split_ifs at h
          · simp at h
          · rw [Option.map_eq_some_iff] at h
            obtain ⟨a, -, ha⟩ := h
            simp at ha
      · exact absurd h scanScalar_ne_obj
  rw [loads] at h
  split at h
  · cases h
  · rename_i hread
    split_ifs at h
    exact hscan (Option.some.inj h ▸ hread)

omit [PyRepr F] in
theorem loadsDict_nodup {bytes : Text} (h : loadsDict wide bytes = some row) :
    (row.map Prod.fst).Nodup := by
  unfold loadsDict loadsBytes at h
  split at h
  · rename_i hload
    obtain ⟨t, -, ht⟩ := Option.bind_eq_some_iff.mp hload
    exact Option.some.inj h ▸ loads_nodup ht
  · cases h

/-- The `chain_hash` of the last record. -/
def lastChainHash (rows : List (Row F)) : PyStr := endHash chainHash [] rows

end Coerced

/-! ## 4. One record in two encodings -/

end AzazelEdge.Audit
