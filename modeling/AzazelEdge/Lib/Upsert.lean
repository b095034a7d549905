/-
# A table of rows with keys

The row of a key is changed where it is; a key without a row gets one at the end.  Rows keep their
keys.  No key comes twice (`nodup_upsert`), and a row of the table after a change is one of another
key, the changed row of this key, or the new one (`mem_upsert`).
-/
import Mathlib.Data.List.Nodup

namespace AzazelEdge.Lib

variable {α κ : Type*} [DecidableEq κ] {key : α → κ} {k : κ} {new : α} {f : α → α}
  {rows : List α} {row old : α}

/-- The row of `k`, which is `new` if there is none, is changed by `f`. -/
def upsert (key : α → κ) (k : κ) (new : α) (f : α → α) (rows : List α) : List α :=
  if k ∈ rows.map key then rows.map fun row => if key row = k then f row else row
  else rows ++ [f new]

/-- A change of rows that leaves their keys, and a new row of this key. -/
structure Upserts (key : α → κ) (k : κ) (new : α) (f : α → α) : Prop where
  keeps : ∀ row, key (f row) = key row
  key_new : key new = k

theorem keys_upsert (h : Upserts key k new f) (rows : List α) :
    (upsert key k new f rows).map key =
      if k ∈ rows.map key then rows.map key else rows.map key ++ [k] := by
  unfold upsert
  split
  · rw [List.map_map]
    refine List.map_congr_left fun row _ => ?_
    rw [Function.comp_apply]
    split
    · exact h.keeps row
    · rfl
  · rw [List.map_append, List.map_singleton, h.keeps, h.key_new]

theorem mem_keys_upsert {a : κ} (h : Upserts key k new f) :
    a ∈ (upsert key k new f rows).map key ↔ a ∈ rows.map key ∨ a = k := by
  rw [keys_upsert h]
  split
  · rename_i hk
    exact ⟨.inl, fun hor => hor.elim id fun heq => heq ▸ hk⟩
  · rw [List.mem_append, List.mem_singleton]

theorem nodup_upsert (h : Upserts key k new f) (hrows : (rows.map key).Nodup) :
    ((upsert key k new f rows).map key).Nodup := by
  rw [keys_upsert h]
  split
  · exact hrows
  · rename_i hk
    exact List.nodup_append.mpr ⟨hrows, List.nodup_singleton _, fun a ha b hb heq =>
      hk (List.mem_singleton.mp hb ▸ heq ▸ ha)⟩

/-- **Where a row comes from.** -/
theorem mem_upsert (h : Upserts key k new f) (hrow : row ∈ upsert key k new f rows) :
    (row ∈ rows ∧ key row ≠ k) ∨ (key row = k ∧ ∃ old ∈ rows, key old = k ∧ row = f old) ∨
      (key row = k ∧ k ∉ rows.map key ∧ row = f new) := by
  unfold upsert at hrow
  split at hrow
  · obtain ⟨old, hold, rfl⟩ := List.mem_map.mp hrow
    by_cases hk : key old = k
    · rw [if_pos hk]
      exact .inr (.inl ⟨(h.keeps old).trans hk, old, hold, hk, rfl⟩)
    · rw [if_neg hk]
      exact .inl ⟨hold, hk⟩
  · rename_i hnew
    rcases List.mem_append.mp hrow with hmem | hmem
    · exact .inl ⟨hmem, fun heq => hnew (heq ▸ List.mem_map_of_mem hmem)⟩
    · rw [List.mem_singleton.mp hmem]
      exact .inr (.inr ⟨(h.keeps new).trans h.key_new, hnew, rfl⟩)

/-- A row stays, changed if it is of the key. -/
theorem upsert_of_mem (h : old ∈ rows) :
    (if key old = k then f old else old) ∈ upsert key k new f rows := by
  unfold upsert
  split
  · exact List.mem_map_of_mem h
  · rename_i hnew
    have hother : key old ≠ k := fun heq => hnew (heq ▸ List.mem_map_of_mem h)
    rw [if_neg hother]
    exact List.mem_append_left _ h

end AzazelEdge.Lib
