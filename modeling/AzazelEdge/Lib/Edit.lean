/-
# Editing one entry of a list

The ledger code finds an entry with `iter_mut().find(..)` or `max_by(..)` and changes it where it
stands.  On lists that is `editFirst` and `List.modify` at the index `lastMax` gives.  What a proof
needs of an edit is always the same: every entry of the result is an old entry or the edited one,
and a field the edit leaves alone keeps its whole column.
-/
import Mathlib.Data.List.Nodup
import Mathlib.Order.Defs.LinearOrder
import Mathlib.Order.Lattice

namespace AzazelEdge.Lib

variable {α β κ : Type*}

/-! ## 1. The first entry that satisfies a test -/

/-- Change the first entry that satisfies `p`. -/
def editFirst (p : α → Bool) (f : α → α) : List α → List α
  | [] => []
  | x :: xs => if p x then f x :: xs else x :: editFirst p f xs

@[simp] theorem editFirst_nil (p : α → Bool) (f : α → α) : editFirst p f [] = [] := rfl

theorem length_editFirst (p : α → Bool) (f : α → α) (xs : List α) :
    (editFirst p f xs).length = xs.length := by
  induction xs with
  | nil => rfl
  | cons x xs ih =>
    by_cases h : p x <;> simp [editFirst, h, ih]

/-- An edit that leaves a field alone leaves the whole column of that field alone. -/
theorem map_editFirst {p : α → Bool} {f : α → α} (g : α → β) (hg : ∀ x, g (f x) = g x)
    (xs : List α) : (editFirst p f xs).map g = xs.map g := by
  induction xs with
  | nil => rfl
  | cons x xs ih =>
    by_cases h : p x <;> simp [editFirst, h, ih, hg]

/-- **Every entry of the result is an old one, or the edited first match.** -/
theorem mem_editFirst {p : α → Bool} {f : α → α} {xs : List α} {y : α}
    (h : y ∈ editFirst p f xs) : y ∈ xs ∨ ∃ x, xs.find? p = some x ∧ y = f x := by
  induction xs with
  | nil => cases h
  | cons x xs ih =>
    by_cases hx : p x
    · rw [editFirst, if_pos hx] at h
      rcases List.mem_cons.mp h with rfl | h
      · exact Or.inr ⟨x, by simp [hx], rfl⟩
      · exact Or.inl (List.mem_cons_of_mem _ h)
    · rw [editFirst, if_neg hx] at h
      rcases List.mem_cons.mp h with rfl | h
      · exact Or.inl List.mem_cons_self
      · rcases ih h with h | ⟨z, hz, rfl⟩
        · exact Or.inl (List.mem_cons_of_mem _ h)
        · exact Or.inr ⟨z, by simp [hx, hz], rfl⟩

/-- An entry that is not edited stays. -/
theorem mem_editFirst_of_not {p : α → Bool} {f : α → α} {xs : List α} {y : α} (h : y ∈ xs)
    (hy : p y = false) : y ∈ editFirst p f xs := by
  induction xs with
  | nil => cases h
  | cons x xs ih =>
    by_cases hx : p x
    · rw [editFirst, if_pos hx]
      rcases List.mem_cons.mp h with rfl | h
      · rw [hy] at hx; cases hx
      · exact List.mem_cons_of_mem _ h
    · rw [editFirst, if_neg hx]
      rcases List.mem_cons.mp h with rfl | h
      · exact List.mem_cons_self
      · exact List.mem_cons_of_mem _ (ih h)

/-- The first match is replaced by its edit. -/
theorem mem_editFirst_of_find {p : α → Bool} {f : α → α} {xs : List α} {x : α}
    (h : xs.find? p = some x) : f x ∈ editFirst p f xs := by
  induction xs with
  | nil => cases h
  | cons z xs ih =>
    by_cases hz : p z
    · have hzx : z = x := by simpa [List.find?_cons, hz] using h
      rw [editFirst, if_pos hz, hzx]
      exact List.mem_cons_self
    · have hx : xs.find? p = some x := by simpa [List.find?_cons, hz] using h
      rw [editFirst, if_neg hz]
      exact List.mem_cons_of_mem _ (ih hx)

/-! ## 2. Entries with a unique key -/

/-- With unique keys, two entries of one key are one entry. -/
theorem eq_of_key {key : α → β} {xs : List α} (hnd : (xs.map key).Nodup) {x y : α}
    (hx : x ∈ xs) (hy : y ∈ xs) (h : key x = key y) : x = y :=
  List.inj_on_of_nodup_map hnd hx hy h

/-- With unique keys, looking an entry up by its own key finds it. -/
theorem find?_key [DecidableEq β] {key : α → β} {xs : List α} (hnd : (xs.map key).Nodup) {x : α}
    (hx : x ∈ xs) : xs.find? (fun y => key y = key x) = some x := by
  cases h : xs.find? (fun y => key y = key x) with
  | none => exact absurd (List.find?_eq_none.mp h x hx) (by simp)
  | some y =>
    have hy : key y = key x := by simpa using List.find?_some h
    rw [eq_of_key hnd (List.mem_of_find?_eq_some h) hx hy]

/-! ## 3. The last greatest entry -/

variable [LinearOrder κ]

/-- `max_by` over the entries that satisfy `p`: the index of the last one of greatest key.
`i` is the index of the first entry and `best` what was found before it. -/
def lastMaxFrom (p : α → Bool) (key : α → κ) : ℕ → Option (ℕ × κ) → List α → Option ℕ
  | _, best, [] => best.map Prod.fst
  | i, best, x :: xs =>
    if p x && (best.all fun b => decide (b.2 ≤ key x)) then
      lastMaxFrom p key (i + 1) (some (i, key x)) xs
    else lastMaxFrom p key (i + 1) best xs

/-- The index of the last entry of greatest key among those that satisfy `p`. -/
def lastMax (p : α → Bool) (key : α → κ) (xs : List α) : Option ℕ := lastMaxFrom p key 0 none xs

theorem lastMaxFrom_spec {p : α → Bool} {key : α → κ} {k : ℕ} :
    ∀ (xs : List α) (i : ℕ) (best : Option (ℕ × κ)), lastMaxFrom p key i best xs = some k →
      (∃ b, best = some b ∧ b.1 = k) ∨ ∃ x, i ≤ k ∧ xs[k - i]? = some x ∧ p x = true
  | [], i, best, h => by
    simp only [lastMaxFrom, Option.map_eq_some_iff] at h
    exact Or.inl h
  | x :: xs, i, best, h => by
    rw [lastMaxFrom] at h
    have shift : ∀ {y}, i + 1 ≤ k → xs[k - (i + 1)]? = some y → (x :: xs)[k - i]? = some y := by
      intro y hik hy
      rw [show k - i = k - (i + 1) + 1 by omega, List.getElem?_cons_succ]
      exact hy
    split at h
    · rename_i hx
      rcases lastMaxFrom_spec xs (i + 1) _ h with ⟨b, hb, hk⟩ | ⟨y, hik, hy, hpy⟩
      · obtain rfl : (i, key x) = b := Option.some.inj hb
        exact Or.inr ⟨x, by omega, by simp [← hk], by simp_all⟩
      · exact Or.inr ⟨y, by omega, shift hik hy, hpy⟩
    · rcases lastMaxFrom_spec xs (i + 1) _ h with hb | ⟨y, hik, hy, hpy⟩
      · exact Or.inl hb
      · exact Or.inr ⟨y, by omega, shift hik hy, hpy⟩

theorem lastMaxFrom_isSome {p : α → Bool} {key : α → κ} :
    ∀ (xs : List α) (i : ℕ) (best : Option (ℕ × κ)),
      (best.isSome = true ∨ ∃ x ∈ xs, p x = true) → (lastMaxFrom p key i best xs).isSome = true
  | [], i, best, h => by
    rcases h with h | ⟨x, hx, -⟩
    · simpa [lastMaxFrom] using h
    · cases hx
  | x :: xs, i, best, h => by
    rw [lastMaxFrom]
    split
    · exact lastMaxFrom_isSome xs _ _ (Or.inl rfl)
    · rename_i hx
      refine lastMaxFrom_isSome xs _ _ ?_
      rcases h with h | ⟨y, hy, hpy⟩
      · exact Or.inl h
      · rcases List.mem_cons.mp hy with rfl | hy
        · cases hb : best with
          | none => simp [hb, hpy] at hx
          | some b => exact Or.inl rfl
        · exact Or.inr ⟨y, hy, hpy⟩

/-- **`lastMax` points at an entry that satisfies the test.** -/
theorem lastMax_spec {p : α → Bool} {key : α → κ} {xs : List α} {k : ℕ}
    (h : lastMax p key xs = some k) : ∃ x, xs[k]? = some x ∧ p x = true := by
  rcases lastMaxFrom_spec xs 0 none h with ⟨b, hb, -⟩ | ⟨x, -, hx, hpx⟩
  · cases hb
  · exact ⟨x, by simpa using hx, hpx⟩

/-- `lastMax` finds an entry whenever there is one. -/
theorem lastMax_isSome {p : α → Bool} {key : α → κ} {xs : List α} {x : α} (hx : x ∈ xs)
    (hpx : p x = true) : ∃ k, lastMax p key xs = some k :=
  Option.isSome_iff_exists.mp (lastMaxFrom_isSome xs 0 none (Or.inr ⟨x, hx, hpx⟩))

/-! ## 4. Editing at an index -/

/-- Every entry of the result is an old one, or the edited one. -/
theorem mem_modify {f : α → α} {xs : List α} {k : ℕ} {y : α} (h : y ∈ xs.modify k f) :
    y ∈ xs ∨ ∃ x, xs[k]? = some x ∧ y = f x := by
  induction xs generalizing k with
  | nil => simp at h
  | cons x xs ih =>
    cases k with
    | zero =>
      rcases List.mem_cons.mp (by simpa using h) with rfl | h
      · exact Or.inr ⟨x, rfl, rfl⟩
      · exact Or.inl (List.mem_cons_of_mem _ h)
    | succ k =>
      rcases List.mem_cons.mp (by simpa using h) with rfl | h
      · exact Or.inl List.mem_cons_self
      · rcases ih h with h | ⟨z, hz, rfl⟩
        · exact Or.inl (List.mem_cons_of_mem _ h)
        · exact Or.inr ⟨z, by simpa using hz, rfl⟩

/-- The entry at the index is replaced by its edit. -/
theorem mem_modify_of_getElem? {f : α → α} {xs : List α} {k : ℕ} {x : α} (h : xs[k]? = some x) :
    f x ∈ xs.modify k f := by
  induction xs generalizing k with
  | nil => simp at h
  | cons z xs ih =>
    cases k with
    | zero =>
      obtain rfl : z = x := by simpa using h
      simp
    | succ k =>
      have := ih (k := k) (by simpa using h)
      simp [this]

/-- An edit that leaves a field alone leaves the whole column of that field alone. -/
theorem map_modify {f : α → α} (g : α → β) (hg : ∀ x, g (f x) = g x) (xs : List α) (k : ℕ) :
    (xs.modify k f).map g = xs.map g := by
  induction xs generalizing k with
  | nil => simp
  | cons x xs ih => cases k <;> simp [hg, ih]

/-! ## 5. Edits as pointwise relations

Each edit relates the two lists entry by entry: the edited entries by what the edit does, every
other one by reflexivity. -/

variable {R : α → α → Prop}

theorem forall₂_map {f : α → α} (hR : ∀ x, R x (f x)) (xs : List α) : List.Forall₂ R xs (xs.map f) := by
  induction xs with
  | nil => exact List.Forall₂.nil
  | cons x xs ih => exact List.Forall₂.cons (hR x) ih

theorem forall₂_editFirst {p : α → Bool} {f : α → α} (hrefl : ∀ x, R x x) {xs : List α}
    (hR : ∀ x, xs.find? p = some x → R x (f x)) : List.Forall₂ R xs (editFirst p f xs) := by
  induction xs with
  | nil => exact List.Forall₂.nil
  | cons x xs ih =>
    by_cases hx : p x
    · rw [editFirst, if_pos hx]
      exact List.Forall₂.cons (hR x (by simp [hx])) (List.forall₂_same.mpr fun y _ => hrefl y)
    · rw [editFirst, if_neg hx]
      exact List.Forall₂.cons (hrefl x) (ih fun y hy => hR y (by simpa [hx] using hy))

theorem forall₂_modify {f : α → α} (hrefl : ∀ x, R x x) {xs : List α} {k : ℕ}
    (hR : ∀ x, xs[k]? = some x → R x (f x)) : List.Forall₂ R xs (xs.modify k f) := by
  induction xs generalizing k with
  | nil => simp
  | cons x xs ih =>
    cases k with
    | zero => simpa using ⟨hR x rfl, fun y _ => hrefl y⟩
    | succ k => simpa using ⟨hrefl x, ih fun y hy => hR y (by simpa using hy)⟩

/-- The partner of an entry of the second list. -/
theorem exists_of_forall₂_right {S : α → β → Prop} {xs : List α} {ys : List β}
    (h : List.Forall₂ S xs ys) {y : β} (hy : y ∈ ys) : ∃ x ∈ xs, S x y := by
  induction h with
  | nil => cases hy
  | cons hxy _ ih =>
    rcases List.mem_cons.mp hy with rfl | hy
    · exact ⟨_, List.mem_cons_self, hxy⟩
    · obtain ⟨x, hx, hR⟩ := ih hy
      exact ⟨x, List.mem_cons_of_mem _ hx, hR⟩

/-- The partner of an entry of the first list. -/
theorem exists_of_forall₂_left {S : α → β → Prop} {xs : List α} {ys : List β}
    (h : List.Forall₂ S xs ys) {x : α} (hx : x ∈ xs) : ∃ y ∈ ys, S x y := by
  induction h with
  | nil => cases hx
  | cons hxy _ ih =>
    rcases List.mem_cons.mp hx with rfl | hx
    · exact ⟨_, List.mem_cons_self, hxy⟩
    · obtain ⟨y, hy, hR⟩ := ih hx
      exact ⟨y, List.mem_cons_of_mem _ hy, hR⟩

/-- A field that related entries share has one column. -/
theorem map_eq_of_forall₂ {g : α → β} (hg : ∀ x y, R x y → g y = g x) {xs ys : List α}
    (h : List.Forall₂ R xs ys) : ys.map g = xs.map g := by
  induction h with
  | nil => rfl
  | cons hxy _ ih => simp [hg _ _ hxy, ih]

/-- A test that fails on the second entry whenever it fails on the first counts no more there. -/
theorem countP_le_of_forall₂ {p : α → Bool} (hp : ∀ x y, R x y → p y = true → p x = true)
    {xs ys : List α} (h : List.Forall₂ R xs ys) : ys.countP p ≤ xs.countP p := by
  induction h with
  | nil => exact Nat.le_refl _
  | @cons x y xs ys hxy _ ih =>
    simp only [List.countP_cons]
    by_cases hy : p y = true
    · simp [hy, hp x y hxy hy]; exact ih
    · simp only [hy]
      exact Nat.le_trans (by simpa using ih) (Nat.le_add_right _ _)

/-- The entries that pass such a test, by a shared field, are among those that passed it before. -/
theorem map_filter_sublist_of_forall₂ {p : α → Bool} {g : α → β}
    (hp : ∀ x y, R x y → p y = true → p x = true) (hg : ∀ x y, R x y → g y = g x)
    {xs ys : List α} (h : List.Forall₂ R xs ys) :
    List.Sublist ((ys.filter p).map g) ((xs.filter p).map g) := by
  induction h with
  | nil => exact List.Sublist.refl _
  | @cons x y xs ys hxy _ ih =>
    by_cases hy : p y = true
    · rw [List.filter_cons_of_pos hy, List.filter_cons_of_pos (hp x y hxy hy), List.map_cons,
        List.map_cons, hg x y hxy]
      exact ih.cons_cons _
    · rw [List.filter_cons_of_neg hy]
      refine ih.trans (List.Sublist.map g ?_)
      exact List.Sublist.filter p (List.sublist_cons_self x xs)

end AzazelEdge.Lib
