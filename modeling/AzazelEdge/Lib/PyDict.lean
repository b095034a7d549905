/-
# Counting in a dict

How many values of a kind a dict has, after one key was set or popped.
-/
import AzazelEdge.Lib.PyValue
import AzazelEdge.Lib.PyRead

namespace AzazelEdge.Lib.Py

variable {α : Type} {key k : PyStr} {v old : α} {d : List (PyStr × α)} {p : PyStr × α → Bool}

/-- A key that was not there adds its value. -/
theorem countP_setKey_new (h : key ∉ d.map Prod.fst) :
    (setKey key v d).countP p = d.countP p + if p (key, v) then 1 else 0 := by
  rw [setKey_of_not_mem h, List.countP_append, List.countP_singleton]

/-- A key that was there changes its value. -/
theorem countP_setKey_old (h : getKey key d = some old) :
    (setKey key v d).countP p + (if p (key, old) then 1 else 0) =
      d.countP p + if p (key, v) then 1 else 0 := by
  induction d with
  | nil => cases h
  | cons item d ih =>
    obtain ⟨k, w⟩ := item
    by_cases hk : k = key
    · rw [getKey, if_pos hk, Option.some.injEq] at h
      rw [setKey, if_pos hk, List.countP_cons, List.countP_cons, hk, h]
      omega
    · rw [getKey, if_neg hk] at h
      have := ih h
      rw [setKey, if_neg hk, List.countP_cons, List.countP_cons]
      omega

/-- The keys stay when one of them is set. -/
theorem setKey_keys (h : key ∈ d.map Prod.fst) : (setKey key v d).map Prod.fst = d.map Prod.fst := by
  induction d with
  | nil => cases h
  | cons item d ih =>
    obtain ⟨k, w⟩ := item
    rw [setKey]
    split_ifs with hk
    · rw [List.map_cons, List.map_cons, hk]
    · have hmem : key ∈ d.map Prod.fst := by
        rcases List.mem_cons.mp h with heq | hmem
        · exact absurd heq.symm hk
        · exact hmem
      rw [List.map_cons, List.map_cons, ih hmem]

/-- A key that is popped takes its value along. -/
theorem countP_popKey (hd : (d.map Prod.fst).Nodup) (h : getKey key d = some old) :
    (popKey key d).countP p + (if p (key, old) then 1 else 0) = d.countP p := by
  induction d with
  | nil => cases h
  | cons item d ih =>
    obtain ⟨k, w⟩ := item
    rw [List.map_cons, List.nodup_cons] at hd
    by_cases hk : k = key
    · rw [getKey, if_pos hk, Option.some.injEq] at h
      have hrest : popKey key d = d := by
        refine List.filter_eq_self.mpr fun item hitem => ?_
        have hne : item.1 ≠ key := by
          rintro heq
          exact hd.1 (List.mem_map.mpr ⟨item, hitem, heq.trans hk.symm⟩)
        simpa using hne
      rw [popKey, List.filter_cons_of_neg (by simpa using hk), ← popKey, hrest, List.countP_cons, hk,
        h]
    · rw [getKey, if_neg hk] at h
      have := ih hd.2 h
      rw [popKey, List.filter_cons_of_pos (by simpa using hk), ← popKey, List.countP_cons,
        List.countP_cons]
      omega

/-- A dict has no more members than there are pairs. -/
theorem length_pyDict_le (pairs : List (PyStr × α)) : (pyDict pairs).length ≤ pairs.length := by
  have hnodup : (pyDict pairs).Nodup := List.Nodup.of_map Prod.fst (pyDict_keys_nodup pairs)
  exact (List.subperm_of_subset hnodup fun _ hitem => mem_pyDict hitem).length_le

theorem getKey_isSome : (getKey key d).isSome ↔ key ∈ d.map Prod.fst := by
  rw [← not_iff_not, ← getKey_eq_none]
  simp

end AzazelEdge.Lib.Py
