/-
# A dict over its pairs

Where one key comes twice among the pairs, the dict has it once: at its first place, with its last
value.  So what a key gets is of the last pair with it (`getItem_dictOf`), while the first key of a
kind is the first one among the pairs (`find_dictOf`).
-/
import Mathlib.Data.List.Basic
import Mathlib.Data.List.Induction

namespace AzazelEdge.Lib

variable {κ α : Type*} [DecidableEq κ]

/-- `d.get(key)`. -/
def getItem (key : κ) : List (κ × α) → Option α
  | [] => none
  | (k, v) :: rest => if k = key then some v else getItem key rest

/-- `d[key] = value`. -/
def setItem (key : κ) (value : α) : List (κ × α) → List (κ × α)
  | [] => [(key, value)]
  | (k, v) :: rest => if k = key then (k, value) :: rest else (k, v) :: setItem key value rest

/-- `{key: value for key, value in pairs}`. -/
def dictOf (pairs : List (κ × α)) : List (κ × α) :=
  pairs.foldl (fun d item => setItem item.1 item.2 d) []

variable {key k : κ} {value : α} {d pairs : List (κ × α)} {P : κ → Bool}

theorem dictOf_concat : dictOf (pairs ++ [(key, value)]) = setItem key value (dictOf pairs) := by
  simp [dictOf]

theorem getItem_setItem :
    getItem k (setItem key value d) = if k = key then some value else getItem k d := by
  induction d with
  | nil => simp [setItem, getItem, eq_comm]
  | cons item rest ih =>
    obtain ⟨k', v⟩ := item
    by_cases hkey : k' = key
    · subst hkey
      by_cases hk : k' = k <;> simp [setItem, getItem, hk, eq_comm (a := k)]
    · rw [setItem, if_neg hkey, getItem, ih, getItem]
      by_cases hk : k' = k
      · have hne : k ≠ key := fun heq => hkey (hk.trans heq)
        simp [hk, hne]
      · simp [hk]

theorem mem_setItem_self : (key, value) ∈ setItem key value d := by
  induction d with
  | nil => exact List.mem_cons_self
  | cons item rest ih =>
    obtain ⟨k', v⟩ := item
    by_cases hkey : k' = key
    · rw [setItem, if_pos hkey, hkey]
      exact List.mem_cons_self
    · rw [setItem, if_neg hkey]
      exact List.mem_cons_of_mem _ ih

theorem mem_of_mem_setItem {item : κ × α} (h : item ∈ setItem key value d) :
    item = (key, value) ∨ item ∈ d := by
  induction d with
  | nil => exact .inl (List.mem_singleton.mp h)
  | cons first rest ih =>
    obtain ⟨k', v⟩ := first
    by_cases hkey : k' = key
    · rw [setItem, if_pos hkey, hkey] at h
      exact (List.mem_cons.mp h).imp_right (List.mem_cons_of_mem _)
    · rw [setItem, if_neg hkey] at h
      rcases List.mem_cons.mp h with heq | h
      · exact .inr (heq ▸ List.mem_cons_self)
      · exact (ih h).imp_right (List.mem_cons_of_mem _)

/-- What holds of the items before holds of them after if it does of the new one. -/
theorem forall_setItem {Q : κ × α → Prop} (h : ∀ item ∈ d, Q item) :
    (∀ item ∈ setItem key value d, Q item) ↔ Q (key, value) := by
  constructor
  · exact fun hall => hall _ mem_setItem_self
  · rintro hnew item hitem
    rcases mem_of_mem_setItem hitem with rfl | hitem
    · exact hnew
    · exact h item hitem

/-- The value of a key is the one that came last. -/
theorem getItem_dictOf :
    getItem k (dictOf pairs) = ((pairs.filter fun item => item.1 = k).getLast?).map Prod.snd := by
  induction pairs using List.reverseRecOn with
  | nil => rfl
  | append_singleton pairs item ih =>
    obtain ⟨key, value⟩ := item
    rw [dictOf_concat, getItem_setItem, ih, List.filter_append]
    by_cases hk : key = k
    · simp [hk]
    · simp [hk, Ne.symm hk]

theorem find_keys_setItem :
    ((setItem key value d).map Prod.fst).find? P = ((d.map Prod.fst) ++ [key]).find? P := by
  induction d with
  | nil => rfl
  | cons item rest ih =>
    obtain ⟨k', v⟩ := item
    by_cases hkey : k' = key
    · subst hkey
      cases hP : P k' <;> simp [setItem, hP]
    · rw [setItem, if_neg hkey]
      cases hP : P k'
      · simpa [hP] using ih
      · simp [hP]

/-- The first key of a kind is the one that came first. -/
theorem find_keys_dictOf :
    ((dictOf pairs).map Prod.fst).find? P = (pairs.map Prod.fst).find? P := by
  induction pairs using List.reverseRecOn with
  | nil => rfl
  | append_singleton pairs item ih =>
    obtain ⟨key, value⟩ := item
    rw [dictOf_concat, find_keys_setItem, List.find?_append, ih, List.map_append,
      List.find?_append]
    rfl

/-- What is found by its key is the value of the key that is found. -/
theorem find_by_key :
    (d.find? fun item => P item.1).map Prod.snd =
      ((d.map Prod.fst).find? P).bind fun key => getItem key d := by
  induction d with
  | nil => rfl
  | cons item rest ih =>
    obtain ⟨k, v⟩ := item
    cases hP : P k with
    | true => simp [hP, getItem]
    | false =>
      have hother : ∀ key, P key = true → key ≠ k := fun key hkey heq => by
        rw [heq, hP] at hkey
        cases hkey
      rw [List.find?_cons_of_neg (by simp [hP]), ih, List.map_cons,
        List.find?_cons_of_neg (by simp [hP])]
      cases hfind : (rest.map Prod.fst).find? P with
      | none => rfl
      | some key =>
        have hne := hother key (List.find?_some hfind)
        simp [getItem, Ne.symm hne]

/-- Found by its key in a dict: the last value of the first key of the kind. -/
theorem find_dictOf :
    ((dictOf pairs).find? fun item => P item.1).map Prod.snd =
      ((pairs.map Prod.fst).find? P).bind fun key =>
        ((pairs.filter fun item => item.1 = key).getLast?).map Prod.snd := by
  rw [find_by_key, find_keys_dictOf]
  simp only [getItem_dictOf]

end AzazelEdge.Lib
