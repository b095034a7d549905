/-
# The first distinct values

A loop over raw values that keeps every accepted one it has not kept yet and stops when it has so
many.  What it keeps is a fixed point of the loop (`collect_again`), also behind a prefix of its
own that is put in front once more (`collect_behind`).
-/
import Mathlib.Data.List.Nodup

namespace AzazelEdge.Lib

variable {α β : Type} [DecidableEq α] {limit : ℕ} {pick : β → Option α} {kept xs : List α}
  {values rest : List β} {inj : α → β} {x : α}

/-- The loop, with what is kept so far. -/
def collectFrom (limit : ℕ) (pick : β → Option α) : List α → List β → List α
  | kept, [] => kept
  | kept, value :: values =>
    match pick value with
    | none => collectFrom limit pick kept values
    | some x =>
      if x ∈ kept then collectFrom limit pick kept values
      else if limit ≤ kept.length + 1 then kept ++ [x]
      else collectFrom limit pick (kept ++ [x]) values

/-- The first `limit` distinct values that `pick` accepts. -/
def collect (limit : ℕ) (pick : β → Option α) (values : List β) : List α :=
  collectFrom limit pick [] values

/-! ## 1. What is kept -/

theorem collectFrom_nodup (h : kept.Nodup) : (collectFrom limit pick kept values).Nodup := by
  fun_induction collectFrom limit pick kept values with
  | case1 kept => exact h
  | case2 kept value values hpick ih => exact ih h
  | case3 kept value values x hpick hmem ih => exact ih h
  | case4 kept value values x hpick hmem hfull => exact List.nodup_append.mpr ⟨h, by simp, by
      rintro a ha b hb rfl
      exact hmem (List.mem_singleton.mp hb ▸ ha)⟩
  | case5 kept value values x hpick hmem hroom ih =>
    exact ih (List.nodup_append.mpr ⟨h, by simp, by
      rintro a ha b hb rfl
      exact hmem (List.mem_singleton.mp hb ▸ ha)⟩)

theorem collectFrom_length (h : kept.length < limit) :
    (collectFrom limit pick kept values).length ≤ limit := by
  fun_induction collectFrom limit pick kept values with
  | case1 kept => omega
  | case2 kept value values hpick ih => exact ih h
  | case3 kept value values x hpick hmem ih => exact ih h
  | case4 kept value values x hpick hmem hfull =>
    rw [List.length_append, List.length_singleton]
    exact h
  | case5 kept value values x hpick hmem hroom ih =>
    exact ih (by rw [List.length_append, List.length_singleton]; omega)

theorem mem_collectFrom (h : x ∈ collectFrom limit pick kept values) :
    x ∈ kept ∨ ∃ value ∈ values, pick value = some x := by
  fun_induction collectFrom limit pick kept values with
  | case1 kept => exact Or.inl h
  | case2 kept value values hpick ih =>
    exact (ih h).imp_right fun ⟨v, hv, hx⟩ => ⟨v, List.mem_cons_of_mem _ hv, hx⟩
  | case3 kept value values y hpick hmem ih =>
    exact (ih h).imp_right fun ⟨v, hv, hx⟩ => ⟨v, List.mem_cons_of_mem _ hv, hx⟩
  | case4 kept value values y hpick hmem hfull =>
    rcases List.mem_append.mp h with h | h
    · exact Or.inl h
    · exact Or.inr ⟨value, List.mem_cons_self, List.mem_singleton.mp h ▸ hpick⟩
  | case5 kept value values y hpick hmem hroom ih =>
    rcases ih h with h | ⟨v, hv, hx⟩
    · rcases List.mem_append.mp h with h | h
      · exact Or.inl h
      · exact Or.inr ⟨value, List.mem_cons_self, List.mem_singleton.mp h ▸ hpick⟩
    · exact Or.inr ⟨v, List.mem_cons_of_mem _ hv, hx⟩

/-- What was kept stays in front. -/
theorem kept_prefix_collectFrom : kept <+: collectFrom limit pick kept values := by
  fun_induction collectFrom limit pick kept values with
  | case1 kept => exact List.prefix_rfl
  | case2 kept value values hpick ih => exact ih
  | case3 kept value values x hpick hmem ih => exact ih
  | case4 kept value values x hpick hmem hfull => exact List.prefix_append _ _
  | case5 kept value values x hpick hmem hroom ih => exact (List.prefix_append _ _).trans ih

theorem collect_nodup : (collect limit pick values).Nodup := collectFrom_nodup List.nodup_nil

theorem collect_length (h : 0 < limit) : (collect limit pick values).length ≤ limit :=
  collectFrom_length h

theorem mem_collect (h : x ∈ collect limit pick values) : ∃ value ∈ values, pick value = some x :=
  (mem_collectFrom h).resolve_left List.not_mem_nil

/-! ## 2. Values that are accepted as they are -/

/-- New values with room for them are kept. -/
theorem collectFrom_new (hinj : ∀ x ∈ xs, pick (inj x) = some x) (hnodup : (kept ++ xs).Nodup)
    (hroom : kept.length + xs.length < limit) :
    collectFrom limit pick kept (xs.map inj ++ rest) =
      collectFrom limit pick (kept ++ xs) rest := by
  induction xs generalizing kept with
  | nil => simp
  | cons x xs ih =>
    have hfresh : x ∉ kept := fun hx =>
      (List.nodup_append.mp hnodup).2.2 x hx x List.mem_cons_self rfl
    rw [List.length_cons] at hroom
    rw [List.map_cons, List.cons_append, collectFrom, hinj x List.mem_cons_self]
    simp only [if_neg hfresh, if_neg (show ¬ limit ≤ kept.length + 1 by omega)]
    rw [ih (fun y hy => hinj y (List.mem_cons_of_mem _ hy)) (by simpa using hnodup)
      (by rw [List.length_append, List.length_singleton]; omega), List.append_assoc]
    rfl

/-- So are the last ones that there is room for. -/
theorem collectFrom_last (hinj : ∀ x ∈ xs, pick (inj x) = some x) (hnodup : (kept ++ xs).Nodup)
    (hroom : kept.length + xs.length ≤ limit) :
    collectFrom limit pick kept (xs.map inj) = kept ++ xs := by
  induction xs generalizing kept with
  | nil => simp [collectFrom]
  | cons x xs ih =>
    have hfresh : x ∉ kept := fun hx =>
      (List.nodup_append.mp hnodup).2.2 x hx x List.mem_cons_self rfl
    rw [List.length_cons] at hroom
    rw [List.map_cons, collectFrom, hinj x List.mem_cons_self]
    simp only [if_neg hfresh]
    by_cases hfull : limit ≤ kept.length + 1
    · have hxs : xs = [] := List.length_eq_zero_iff.mp (by omega)
      rw [if_pos hfull, hxs]
    · rw [if_neg hfull, ih (fun y hy => hinj y (List.mem_cons_of_mem _ hy)) (by simpa using hnodup)
        (by rw [List.length_append, List.length_singleton]; omega), List.append_assoc]
      rfl

/-- Values that are kept already change nothing. -/
theorem collectFrom_known (hinj : ∀ x ∈ xs, pick (inj x) = some x) (hknown : ∀ x ∈ xs, x ∈ kept) :
    collectFrom limit pick kept (xs.map inj ++ rest) = collectFrom limit pick kept rest := by
  induction xs with
  | nil => rfl
  | cons x xs ih =>
    rw [List.map_cons, List.cons_append, collectFrom, hinj x List.mem_cons_self]
    simp only [if_pos (hknown x List.mem_cons_self)]
    exact ih (fun y hy => hinj y (List.mem_cons_of_mem _ hy))
      fun y hy => hknown y (List.mem_cons_of_mem _ hy)

/-- **What is kept is kept again.** -/
theorem collect_again (hinj : ∀ x ∈ xs, pick (inj x) = some x) (hnodup : xs.Nodup)
    (hroom : xs.length ≤ limit) : collect limit pick (xs.map inj) = xs := by
  have hlast := (@collectFrom_last _ _ _ _ _ []) hinj hnodup (by simpa using hroom)
  simpa [collect] using hlast

/-- **Values put in front stay in front.** -/
theorem prefix_collect (hinj : ∀ x ∈ xs, pick (inj x) = some x) (hnodup : xs.Nodup)
    (hroom : xs.length < limit) : xs <+: collect limit pick (xs.map inj ++ rest) := by
  have hnew : collect limit pick (xs.map inj ++ rest) = collectFrom limit pick xs rest :=
    collectFrom_new hinj hnodup (by simpa using hroom)
  exact hnew ▸ kept_prefix_collectFrom

/-- **A prefix that is put in front once more changes nothing.** -/
theorem collect_behind {head : List α} (hinj : ∀ x ∈ xs, pick (inj x) = some x) (hnodup : xs.Nodup)
    (hroom : xs.length ≤ limit) (hhead : head <+: xs) (hshort : head.length < limit) :
    collect limit pick (head.map inj ++ xs.map inj) = xs := by
  obtain ⟨tail, rfl⟩ := hhead
  have hinjHead : ∀ x ∈ head, pick (inj x) = some x := fun x hx =>
    hinj x (List.mem_append_left _ hx)
  have hinjTail : ∀ x ∈ tail, pick (inj x) = some x := fun x hx =>
    hinj x (List.mem_append_right _ hx)
  have hnew : collect limit pick (head.map inj ++ (head ++ tail).map inj) =
      collectFrom limit pick head ((head ++ tail).map inj) :=
    collectFrom_new hinjHead (List.nodup_append.mp hnodup).1 (by simpa using hshort)
  rw [hnew, List.map_append, collectFrom_known hinjHead fun x hx => hx,
    collectFrom_last hinjTail hnodup (by simpa using hroom)]

end AzazelEdge.Lib
