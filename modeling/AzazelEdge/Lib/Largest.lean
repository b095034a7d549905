/-
# The largest members of a set

A set that is cut to its `cap` largest members.  A member stays when fewer than `cap` others are
greater (`mem_largest`), and cutting on the way makes no difference to what is left at the end
(`largest_union_largest`).
-/
import Mathlib.Data.Finset.Sort
import Mathlib.Data.Finset.Card

namespace AzazelEdge.Lib

variable {α : Type*} [LinearOrder α] {cap : ℕ} {s t : Finset α} {x y : α}

/-- The members of `s` that are greater. -/
def greater (x : α) (s : Finset α) : Finset α := s.filter (x < ·)

@[simp] theorem mem_greater : y ∈ greater x s ↔ y ∈ s ∧ x < y := by
  simp [greater]

theorem greater_subset : greater x s ⊆ s := Finset.filter_subset _ _

theorem greater_mono (h : s ⊆ t) : greater x s ⊆ greater x t := Finset.filter_subset_filter _ h

theorem greater_anti (h : x ≤ y) : greater y s ⊆ greater x s := by
  intro z hz
  rw [mem_greater] at hz ⊢
  exact ⟨hz.1, h.trans_lt hz.2⟩

theorem card_greater_lt (h : x ∈ s) : (greater x s).card < s.card := by
  refine Finset.card_lt_card (Finset.ssubset_iff_subset_ne.mpr ⟨greater_subset, ?_⟩)
  intro heq
  rw [← heq] at h
  simp at h

variable [DecidableEq α]

/-- The `cap` largest members. -/
def largest (cap : ℕ) (s : Finset α) : Finset α :=
  if cap < s.card then ((s.sort (· ≤ ·)).drop (s.card - cap)).toFinset else s

/-- In a sorted list the greater ones stand behind. -/
theorem greater_of_sorted {before after : List α}
    (h : (before ++ x :: after).Pairwise (· < ·)) :
    greater x (before ++ x :: after).toFinset = after.toFinset := by
  obtain ⟨-, hafter, hbefore⟩ := List.pairwise_append.mp h
  have hx := (List.pairwise_cons.mp hafter).1
  ext y
  simp only [mem_greater, List.mem_toFinset, List.mem_append, List.mem_cons]
  constructor
  · rintro ⟨hy | rfl | hy, hlt⟩
    · exact absurd (hbefore y hy x List.mem_cons_self) (lt_asymm hlt)
    · exact absurd hlt (lt_irrefl _)
    · exact hy
  · intro hy
    exact ⟨Or.inr (Or.inr hy), hx y hy⟩

/-- **A member stays when fewer than `cap` others are greater.** -/
theorem mem_largest : x ∈ largest cap s ↔ x ∈ s ∧ (greater x s).card < cap := by
  unfold largest
  split
  · rename_i hover
    rw [List.mem_toFinset]
    by_cases hx : x ∈ s
    · have hsorted : (s.sort (· ≤ ·)).Pairwise (· < ·) := Finset.sortedLT_sort s |>.pairwise
      have hlength : (s.sort (· ≤ ·)).length = s.card := Finset.length_sort _
      have hmem : x ∈ s.sort (· ≤ ·) := (Finset.mem_sort _).mpr hx
      have hset : (s.sort (· ≤ ·)).toFinset = s := Finset.sort_toFinset _ _
      obtain ⟨before, after, heq⟩ := List.append_of_mem hmem
      rw [heq] at hsorted hlength hset ⊢
      have hnodup := hsorted.imp (fun h => ne_of_lt h)
      have hcard : (greater x s).card = after.length := by
        rw [← hset, greater_of_sorted hsorted, List.toFinset_card_of_nodup]
        exact (List.nodup_cons.mp (List.nodup_append.mp hnodup).2.1).2
      rw [List.length_append, List.length_cons] at hlength
      rw [hcard]
      constructor
      · intro hdrop
        refine ⟨hx, ?_⟩
        by_contra hge
        have hout : x ∈ after := by
          rw [List.append_cons, List.drop_append] at hdrop
          rw [List.drop_eq_nil_of_le (by simp; omega), List.nil_append] at hdrop
          exact List.mem_of_mem_drop hdrop
        exact (List.nodup_cons.mp (List.nodup_append.mp hnodup).2.1).1 hout
      · rintro ⟨-, hlt⟩
        rw [List.drop_append_of_le_length (by omega)]
        simp
    · refine iff_of_false (fun hdrop => hx ?_) fun h => hx h.1
      exact (Finset.mem_sort _).mp (List.mem_of_mem_drop hdrop)
  · rename_i hfits
    refine ⟨fun hx => ⟨hx, ?_⟩, And.left⟩
    exact (card_greater_lt hx).trans_le (not_lt.mp hfits)

theorem card_largest (h : cap < s.card) : (largest cap s).card = cap := by
  have hnodup : ((s.sort (· ≤ ·)).drop (s.card - cap)).Nodup :=
    (Finset.sort_nodup _ _).sublist (List.drop_sublist _ _)
  rw [largest, if_pos h, List.toFinset_card_of_nodup hnodup, List.length_drop, Finset.length_sort]
  omega

theorem largest_subset : largest cap s ⊆ s := fun _ hx => (mem_largest.mp hx).1

/-- What fits is left as it is. -/
theorem largest_of_le (h : s.card ≤ cap) : largest cap s = s := if_neg (not_lt.mpr h)

/-- Of one that is cut all that are left are greater, and they are `cap`. -/
theorem card_greater_largest (hx : x ∈ s) (hcut : x ∉ largest cap s) :
    cap ≤ (greater x (largest cap s)).card := by
  have hmany : cap ≤ (greater x s).card := by
    by_contra hfew
    exact hcut (mem_largest.mpr ⟨hx, not_le.mp hfew⟩)
  have hall : largest cap s ⊆ greater x (largest cap s) := by
    intro y hy
    refine mem_greater.mpr ⟨hy, lt_of_not_ge fun hle => ?_⟩
    have hless := (mem_largest.mp hy).2
    exact absurd (hmany.trans (Finset.card_le_card (greater_anti hle))) (not_le.mpr hless)
  calc cap = (largest cap s).card := (card_largest (hmany.trans_lt (card_greater_lt hx))).symm
    _ ≤ (greater x (largest cap s)).card := Finset.card_le_card hall

/-- **Cutting on the way makes no difference.** -/
theorem largest_union_largest : largest cap (largest cap s ∪ t) = largest cap (s ∪ t) := by
  have hsub : largest cap s ∪ t ⊆ s ∪ t := Finset.union_subset_union_left largest_subset
  ext x
  rw [mem_largest, mem_largest]
  constructor
  · rintro ⟨hx, hfew⟩
    refine ⟨hsub hx, (Finset.card_le_card ?_).trans_lt hfew⟩
    intro y hy
    rw [mem_greater] at hy ⊢
    refine ⟨?_, hy.2⟩
    by_contra hcut
    obtain ⟨hnot, hout⟩ := not_or.mp (fun h => hcut (Finset.mem_union.mpr h))
    have hys : y ∈ s := (Finset.mem_union.mp hy.1).resolve_right hout
    refine absurd (card_greater_largest hys hnot) (not_le.mpr ?_)
    refine (Finset.card_le_card ?_).trans_lt hfew
    exact (greater_anti hy.2.le).trans (greater_mono Finset.subset_union_left)
  · rintro ⟨hx, hfew⟩
    refine ⟨?_, (Finset.card_le_card (greater_mono hsub)).trans_lt hfew⟩
    rcases Finset.mem_union.mp hx with hs | ht
    · refine Finset.mem_union_left _ (mem_largest.mpr ⟨hs, ?_⟩)
      exact (Finset.card_le_card (greater_mono Finset.subset_union_left)).trans_lt hfew
    · exact Finset.mem_union_right _ ht

theorem largest_largest : largest cap (largest cap s) = largest cap s := by
  have h : largest cap (largest cap s ∪ ∅) = largest cap (s ∪ ∅) := largest_union_largest
  simpa using h

end AzazelEdge.Lib
