/-
# Groups in the order of their first member

A list is put into groups by a key, each where its first member stood.  `evict` drops the oldest
groups whole until what is left fits.

What is left, and what is dropped, is the list without, or with only, the dropped keys: in another
order (`evict_perm`), which sorting undoes where the list was sorted (`sort_evict`).
-/
import Mathlib.Data.List.Sort
import Mathlib.Data.List.Perm.Basic
import Mathlib.Data.List.Nodup
import Mathlib.Data.List.Induction
import Mathlib.Order.RelIso.Basic
import Mathlib.Data.Int.Order.Basic

namespace AzazelEdge.Lib

variable {α κ : Type*} [DecidableEq κ] (key : α → κ) {xs : List α} {x : α}
  {gs : List (κ × List α)}

/-! ## 1. Groups -/

/-- One more member: it joins the group of its key, or begins one. -/
def addTo (x : α) : List (κ × List α) → List (κ × List α)
  | [] => [(key x, [x])]
  | (k, members) :: gs =>
    if k = key x then (k, members ++ [x]) :: gs else (k, members) :: addTo x gs

def groups (xs : List α) : List (κ × List α) := xs.foldl (fun gs x => addTo key x gs) []

variable {key}

theorem groups_concat (xs : List α) (x : α) :
    groups key (xs ++ [x]) = addTo key x (groups key xs) := by
  simp [groups]

/-- Groups by a key: of different keys, each with members of its own key. -/
structure Grouped (key : α → κ) (gs : List (κ × List α)) : Prop where
  nodup : (gs.map Prod.fst).Nodup
  keyed : ∀ g ∈ gs, ∀ x ∈ g.2, key x = g.1

theorem addTo_keys {k : κ} (h : k ∈ (addTo key x gs).map Prod.fst) :
    k = key x ∨ k ∈ gs.map Prod.fst := by
  induction gs with
  | nil => simpa [addTo] using h
  | cons g gs ih =>
    obtain ⟨k', members⟩ := g
    rw [addTo] at h
    split_ifs at h with hk
    · exact .inr (by simpa using h)
    · rw [List.map_cons, List.mem_cons] at h ⊢
      rcases h with h | h
      · exact .inr (.inl h)
      · exact (ih h).imp id .inr

theorem grouped_addTo (h : Grouped key gs) : Grouped key (addTo key x gs) := by
  induction gs with
  | nil =>
    refine ⟨by simp [addTo], fun g hg y hy => ?_⟩
    rw [addTo, List.mem_singleton] at hg
    subst hg
    rw [List.mem_singleton] at hy
    rw [hy]
  | cons g gs ih =>
    obtain ⟨k, members⟩ := g
    have hrest : Grouped key gs :=
      ⟨(List.nodup_cons.mp h.nodup).2, fun g hg => h.keyed g (List.mem_cons_of_mem _ hg)⟩
    have hfirst := h.keyed (k, members) List.mem_cons_self
    rw [addTo]
    split_ifs with hk
    · refine ⟨h.nodup, fun g hg y hy => ?_⟩
      rcases List.mem_cons.mp hg with rfl | hg
      · rcases List.mem_append.mp hy with hy | hy
        · exact hfirst y hy
        · rw [List.mem_singleton.mp hy, hk]
      · exact hrest.keyed g hg y hy
    · refine ⟨List.nodup_cons.mpr ⟨fun hmem => ?_, (ih hrest).nodup⟩, fun g hg y hy => ?_⟩
      · rcases addTo_keys hmem with heq | hmem
        · exact hk heq
        · exact (List.nodup_cons.mp h.nodup).1 hmem
      · rcases List.mem_cons.mp hg with rfl | hg
        · exact hfirst y hy
        · exact (ih hrest).keyed g hg y hy

theorem grouped_groups (xs : List α) : Grouped key (groups key xs) := by
  induction xs using List.reverseRecOn with
  | nil => exact ⟨List.nodup_nil, fun _ h => by cases h⟩
  | append_singleton xs x ih =>
    rw [groups_concat]
    exact grouped_addTo ih

theorem addTo_perm (x : α) (gs : List (κ × List α)) :
    ((addTo key x gs).flatMap Prod.snd).Perm (gs.flatMap Prod.snd ++ [x]) := by
  induction gs with
  | nil => exact .refl _
  | cons g gs ih =>
    obtain ⟨k, members⟩ := g
    rw [addTo]
    split_ifs
    · rw [List.flatMap_cons, List.flatMap_cons, List.append_assoc, List.append_assoc]
      exact List.perm_append_comm.append_left members
    · rw [List.flatMap_cons, List.flatMap_cons, List.append_assoc]
      exact ih.append_left members

/-- **The groups have every member once.** -/
theorem groups_perm (xs : List α) : ((groups key xs).flatMap Prod.snd).Perm xs := by
  induction xs using List.reverseRecOn with
  | nil => exact .refl _
  | append_singleton xs x ih =>
    rw [groups_concat]
    exact (addTo_perm x _).trans (ih.append_right [x])

/-! ## 2. Eviction -/

/-- The oldest groups go, while `kept` members and the incoming ones are more than `limit`: the
groups that go, and those that stay. -/
def evict (limit incoming : ℕ) : ℕ → List (κ × List α) → List (κ × List α) × List (κ × List α)
  | _, [] => ([], [])
  | kept, g :: gs =>
    if limit < kept + incoming then
      (g :: (evict limit incoming (kept - g.2.length) gs).1,
        (evict limit incoming (kept - g.2.length) gs).2)
    else ([], g :: gs)

variable {limit incoming kept : ℕ}

omit [DecidableEq κ] in
theorem evict_append (kept : ℕ) (gs : List (κ × List α)) :
    (evict limit incoming kept gs).1 ++ (evict limit incoming kept gs).2 = gs := by
  induction gs generalizing kept with
  | nil => rfl
  | cons g gs ih =>
    rw [evict]
    split_ifs
    · rw [List.cons_append, ih]
    · rfl

omit [DecidableEq κ] in
/-- What stays fits, if anything stays. -/
theorem evict_fits (hkept : (gs.flatMap Prod.snd).length = kept) :
    (evict limit incoming kept gs).2 = [] ∨
      ((evict limit incoming kept gs).2.flatMap Prod.snd).length + incoming ≤ limit := by
  induction gs generalizing kept with
  | nil => exact .inl rfl
  | cons g gs ih =>
    rw [List.flatMap_cons, List.length_append] at hkept
    rw [evict]
    split_ifs with hover
    · exact ih (by omega)
    · refine .inr ?_
      rw [List.flatMap_cons, List.length_append]
      omega

/-- **What stays is what has none of the dropped keys.** -/
theorem evict_perm (xs : List α) (kept : ℕ) :
    ((evict limit incoming kept (groups key xs)).2.flatMap Prod.snd).Perm
      (xs.filter fun x => key x ∉ (evict limit incoming kept (groups key xs)).1.map Prod.fst) := by
  have hcut := (@evict_append _ _ limit incoming) kept (groups key xs)
  generalize evict limit incoming kept (groups key xs) = r at hcut ⊢
  obtain ⟨gone, stay⟩ := r
  have hgrouped := (@grouped_groups _ _ _ key) xs
  rw [← hcut] at hgrouped
  have hperm := (@groups_perm _ _ _ key) xs
  rw [← hcut] at hperm
  refine List.Perm.trans ?_ (hperm.filter _)
  rw [List.flatMap_append, List.filter_append, List.filter_eq_nil_iff.mpr, List.nil_append,
    List.filter_eq_self.mpr]
  · intro x hx
    obtain ⟨g, hg, hx⟩ := List.mem_flatMap.mp hx
    have hkey := hgrouped.keyed g (List.mem_append_right _ hg) x hx
    have hnodup := hgrouped.nodup
    rw [List.map_append, List.nodup_append] at hnodup
    have hnot : key x ∉ gone.map Prod.fst := fun hmem =>
      hnodup.2.2 _ hmem _ (List.mem_map_of_mem hg) hkey
    simpa using hnot
  · intro x hx
    obtain ⟨g, hg, hx⟩ := List.mem_flatMap.mp hx
    have hkey := hgrouped.keyed g (List.mem_append_left _ hg) x hx
    have hmem : key x ∈ gone.map Prod.fst := hkey ▸ List.mem_map_of_mem hg
    simpa using hmem

/-- **Sorting by what the list was sorted by restores the order.** -/
theorem sort_evict {f : α → ℤ} (hxs : xs.Pairwise fun a b => f a < f b) (kept : ℕ) :
    ((evict limit incoming kept (groups key xs)).2.flatMap Prod.snd).insertionSort
        (fun a b => f a ≤ f b) =
      xs.filter fun x => key x ∉ (evict limit incoming kept (groups key xs)).1.map Prod.fst := by
  have htotal : Std.Total fun a b : α => f a ≤ f b := ⟨fun a b => le_total (f a) (f b)⟩
  have htrans : IsTrans α fun a b => f a ≤ f b := ⟨fun _ _ _ => le_trans⟩
  have hstay := ((@evict_perm _ _ _ key limit incoming) xs kept)
  refine List.Perm.eq_of_pairwise ?_ (List.pairwise_insertionSort _ _)
    ((hxs.filter _).imp fun h => h.le) ((List.perm_insertionSort _ _).trans hstay)
  -- two members of one place in the order are one
  have hnodup : (xs.map f).Nodup := List.pairwise_map.mpr (hxs.imp fun h => h.ne)
  intro a b ha hb hab hba
  have hmem := hstay.mem_iff.mp ((List.mem_insertionSort _).mp ha)
  exact List.inj_on_of_nodup_map hnodup (List.mem_of_mem_filter hmem) (List.mem_of_mem_filter hb)
    (le_antisymm hab hba)

end AzazelEdge.Lib
