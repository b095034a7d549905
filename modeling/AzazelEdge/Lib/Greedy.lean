/-
# Greedy choice

A loop that assesses everything pending, takes the best of it, and goes on with what is left and a
state that the choice has changed, until nothing is good enough.  An assessment may depend on the
state, so everything is assessed anew in every round.

What the loop takes and what it leaves are together everything that was pending, each once
(`greedy_perm`); each was assessed in a state that the loop came through (`mem_taken`, `mem_left`).
Where an assessment never improves on the way, the loop takes in order (`taken_pairwise`).
-/
import Mathlib.Data.List.Nodup
import Mathlib.Data.List.Perm.Basic
import Mathlib.Logic.Relation

namespace AzazelEdge.Lib

/-- How a choice is made: `α` is pending, `β` an assessment, `σ` the state, `κ` the names. -/
structure Policy (α β σ κ : Type) where
  key : α → κ
  keyOf : β → κ
  assess : σ → α → β
  best : List β → Option β
  advance : σ → β → σ
  keyOf_assess : ∀ s a, keyOf (assess s a) = key a
  mem_of_best : ∀ {bs b}, best bs = some b → b ∈ bs

namespace Policy

variable {α β σ κ : Type} {p : Policy α β σ κ} {s t : σ} {pending : List α} {a : α} {b : β}

/-- The assessments of one round. -/
def round (p : Policy α β σ κ) (s : σ) (pending : List α) : List β := pending.map (p.assess s)

theorem exists_of_best (h : p.best (p.round s pending) = some b) :
    ∃ a ∈ pending, p.assess s a = b ∧ p.key a = p.keyOf b := by
  obtain ⟨a, ha, rfl⟩ := List.mem_map.mp (p.mem_of_best h)
  exact ⟨a, ha, rfl, (p.keyOf_assess s a).symm⟩

variable [DecidableEq κ]

/-- What is pending but the one of this name. -/
def without (p : Policy α β σ κ) (k : κ) (pending : List α) : List α :=
  pending.filter (p.key · ≠ k)

/-! ## 1. The loop -/

theorem length_without (h : p.best (p.round s pending) = some b) :
    (p.without (p.keyOf b) pending).length < pending.length := by
  obtain ⟨a, ha, -, hkey⟩ := exists_of_best h
  exact List.length_filter_lt_length_iff_exists.mpr ⟨a, ha, by simp [hkey]⟩

/-- What the loop takes, in order, and the last assessments of what it leaves. -/
def greedy (p : Policy α β σ κ) (s : σ) (pending : List α) : List β × List β :=
  match _h : p.best (p.round s pending) with
  | none => ([], p.round s pending)
  | some b =>
    let rest := greedy p (p.advance s b) (p.without (p.keyOf b) pending)
    (b :: rest.1, rest.2)
termination_by pending.length
decreasing_by exact length_without _h

theorem greedy_none (h : p.best (p.round s pending) = none) :
    p.greedy s pending = ([], p.round s pending) := by
  rw [greedy.eq_def]
  split
  · rfl
  · rename_i b hsome
    rw [h] at hsome
    cases hsome

theorem greedy_some (h : p.best (p.round s pending) = some b) :
    p.greedy s pending =
      (b :: (p.greedy (p.advance s b) (p.without (p.keyOf b) pending)).1,
        (p.greedy (p.advance s b) (p.without (p.keyOf b) pending)).2) := by
  rw [greedy.eq_def]
  split
  · rename_i hnone
    rw [h] at hnone
    cases hnone
  · rename_i c hc
    rw [h] at hc
    cases hc
    rfl

/-! ## 2. Everything, once -/

/-- Taking out the one of a name leaves the other names. -/
theorem keys_without (hnodup : (pending.map p.key).Nodup) (ha : a ∈ pending) :
    (pending.map p.key).Perm (p.key a :: (p.without (p.key a) pending).map p.key) := by
  have hrest : (p.without (p.key a) pending).map p.key =
      (pending.map p.key).filter (· ≠ p.key a) := by
    rw [without, List.filter_map]
    rfl
  have herase : (pending.map p.key).erase (p.key a) = (pending.map p.key).filter (· ≠ p.key a) := by
    rw [hnodup.erase_eq_filter]
    exact List.filter_congr fun k _ => by rw [Bool.eq_iff_iff]; simp
  rw [hrest, ← herase]
  exact List.perm_cons_erase (List.mem_map_of_mem ha)

/-- **What is taken and what is left are what was pending.** -/
theorem greedy_perm (hnodup : (pending.map p.key).Nodup) :
    (((p.greedy s pending).1 ++ (p.greedy s pending).2).map p.keyOf).Perm (pending.map p.key) := by
  fun_induction greedy p s pending with
  | case1 s pending h =>
    have hkeys : (p.round s pending).map p.keyOf = pending.map p.key := by
      rw [round, List.map_map]
      exact List.map_congr_left fun a _ => p.keyOf_assess s a
    rw [List.nil_append, hkeys]
  | case2 s pending b h rest ih =>
    obtain ⟨a, ha, -, hkey⟩ := exists_of_best h
    have hperm := keys_without hnodup ha
    rw [hkey] at hperm
    have hrest : ((p.without (p.keyOf b) pending).map p.key).Nodup :=
      (List.nodup_cons.mp (hperm.nodup_iff.mp hnodup)).2
    rw [List.cons_append, List.map_cons]
    exact (List.Perm.cons _ (ih hrest)).trans hperm.symm

/-! ## 3. Where an assessment is from -/

/-- The loop comes from one state to another. -/
def Reaches (p : Policy α β σ κ) : σ → σ → Prop :=
  Relation.ReflTransGen fun s t => ∃ b, p.advance s b = t

theorem mem_of_mem_without {k : κ} (h : a ∈ p.without k pending) : a ∈ pending :=
  List.mem_of_mem_filter h

/-- **What is taken was the best of its round.** -/
theorem mem_taken (hb : b ∈ (p.greedy s pending).1) :
    ∃ t, ∃ a ∈ pending, p.Reaches s t ∧ b = p.assess t a ∧ ∃ bs, p.best bs = some b := by
  fun_induction greedy p s pending with
  | case1 s pending h => cases hb
  | case2 s pending c h rest ih =>
    rcases List.mem_cons.mp hb with rfl | hb
    · obtain ⟨a, ha, heq, -⟩ := exists_of_best h
      exact ⟨s, a, ha, .refl, heq.symm, _, h⟩
    · obtain ⟨t, a, ha, hreach, heq, hbs⟩ := ih hb
      exact ⟨t, a, mem_of_mem_without ha, .head ⟨c, rfl⟩ hreach, heq, hbs⟩

theorem mem_left (hb : b ∈ (p.greedy s pending).2) :
    ∃ t, ∃ a ∈ pending, p.Reaches s t ∧ b = p.assess t a := by
  fun_induction greedy p s pending with
  | case1 s pending h =>
    obtain ⟨a, ha, rfl⟩ := List.mem_map.mp hb
    exact ⟨s, a, ha, .refl, rfl⟩
  | case2 s pending c h rest ih =>
    obtain ⟨t, a, ha, hreach, heq⟩ := ih hb
    exact ⟨t, a, mem_of_mem_without ha, .head ⟨c, rfl⟩ hreach, heq⟩

/-- Of what is left nothing was the best. -/
theorem best_left : p.best (p.greedy s pending).2 = none := by
  fun_induction greedy p s pending with
  | case1 s pending h => exact h
  | case2 s pending b h rest ih => exact ih

/-! ## 4. Order and number -/

/-- **The loop takes in order**, where the best is before every good one and an assessment that is
good later was no worse before. -/
theorem taken_pairwise (Good : β → Prop) (before : β → β → Prop)
    (hgood : ∀ bs b, p.best bs = some b → Good b)
    (hbest : ∀ bs b, p.best bs = some b → ∀ c ∈ bs, Good c → before b c)
    (hworse : ∀ s t a, p.Reaches s t → Good (p.assess t a) →
      Good (p.assess s a) ∧ ∀ b, before b (p.assess s a) → before b (p.assess t a)) :
    (p.greedy s pending).1.Pairwise before := by
  fun_induction greedy p s pending with
  | case1 s pending h => exact List.Pairwise.nil
  | case2 s pending b h rest ih =>
    refine List.Pairwise.cons (fun c hc => ?_) ih
    obtain ⟨t, a, ha, hreach, rfl, bs, hbs⟩ := mem_taken hc
    obtain ⟨hnow, hlater⟩ := hworse s t a (.head ⟨b, rfl⟩ hreach) (hgood _ _ hbs)
    exact hlater b (hbest _ _ h _ (List.mem_map_of_mem (mem_of_mem_without ha)) hnow)

/-- Where every choice costs something, there are no more than can be paid. -/
theorem length_taken {m : σ → ℕ}
    (hcost : ∀ s pending b, p.best (p.round s pending) = some b → m (p.advance s b) < m s) :
    (p.greedy s pending).1.length ≤ m s := by
  fun_induction greedy p s pending with
  | case1 s pending h => exact Nat.zero_le _
  | case2 s pending b h rest ih =>
    exact Nat.succ_le_of_lt (Nat.lt_of_le_of_lt ih (hcost s pending b h))

/-! ## 5. Two loops, and one item of a loop -/

/-- Two loops that agree in every round are the same. -/
theorem greedy_congr {q : Policy α β σ κ} {R : σ → σ → Prop} (hkey : p.key = q.key)
    (hkeyOf : p.keyOf = q.keyOf) (hbest : p.best = q.best)
    (hassess : ∀ s t, R s t → ∀ a, p.assess s a = q.assess t a)
    (hadvance : ∀ s t b, R s t → R (p.advance s b) (q.advance t b)) (h : R s t) :
    p.greedy s pending = q.greedy t pending := by
  have hround {s t} (h : R s t) (pending : List α) : p.round s pending = q.round t pending :=
    List.map_congr_left fun a _ => hassess s t h a
  induction s, pending using greedy.induct p generalizing t with
  | case1 s pending hnone =>
    have hnone' : q.best (q.round t pending) = none := by rwa [← hbest, ← hround h]
    rw [greedy_none hnone, greedy_none hnone', hround h]
  | case2 s pending b hsome ih =>
    have hsome' : q.best (q.round t pending) = some b := by rwa [← hbest, ← hround h]
    have hwithout : p.without (p.keyOf b) pending = q.without (q.keyOf b) pending := by
      rw [without, without, hkey, hkeyOf]
    rw [greedy_some hsome, greedy_some hsome', ih (hadvance s t b h), hwithout]

/-- **The fate of one item**: where its assessment is good or not whatever is chosen before it, it
is so in the end. -/
theorem good_iff (Good : β → Prop) (I : σ → List α → Prop) {G : Prop}
    (hgood : ∀ s pending, I s pending → (Good (p.assess s a) ↔ G))
    (hstep : ∀ s pending b, I s pending → p.best (p.round s pending) = some b →
      p.keyOf b ≠ p.key a → I (p.advance s b) (p.without (p.keyOf b) pending))
    (hnodup : (pending.map p.key).Nodup) (ha : a ∈ pending) (hI : I s pending)
    (hb : b ∈ (p.greedy s pending).1 ++ (p.greedy s pending).2) (hkey : p.keyOf b = p.key a) :
    Good b ↔ G := by
  fun_induction greedy p s pending with
  | case1 s pending h =>
    obtain ⟨c, hc, rfl⟩ := List.mem_map.mp hb
    rw [p.keyOf_assess] at hkey
    rw [List.inj_on_of_nodup_map hnodup hc ha hkey]
    exact hgood s pending hI
  | case2 s pending c h rest ih =>
    obtain ⟨d, hd, rfl, hdkey⟩ := exists_of_best h
    rw [List.cons_append, List.mem_cons] at hb
    by_cases hfirst : p.keyOf (p.assess s d) = p.key a
    · have hsame : d = a := List.inj_on_of_nodup_map hnodup hd ha (hdkey.trans hfirst)
      rcases hb with rfl | hb
      · rw [hsame]
        exact hgood s pending hI
      · -- The others have other names.
        have hother : p.keyOf b ∈ (p.without (p.keyOf (p.assess s d)) pending).map p.key := by
          rcases List.mem_append.mp hb with hb | hb
          · obtain ⟨t, e, he, -, rfl, -⟩ := mem_taken hb
            exact p.keyOf_assess t e ▸ List.mem_map_of_mem he
          · obtain ⟨t, e, he, -, rfl⟩ := mem_left hb
            exact p.keyOf_assess t e ▸ List.mem_map_of_mem he
        obtain ⟨e, he, hek⟩ := List.mem_map.mp hother
        exact absurd (hek.trans (hkey.trans hfirst.symm)) (by simpa using List.of_mem_filter he)
    · rcases hb with rfl | hb
      · exact absurd hkey hfirst
      · have hsub : ((p.without (p.keyOf (p.assess s d)) pending).map p.key).Nodup :=
          hnodup.sublist (List.filter_sublist.map p.key)
        have hmem : a ∈ p.without (p.keyOf (p.assess s d)) pending :=
          List.mem_filter.mpr ⟨ha, by simpa using fun heq => hfirst heq.symm⟩
        exact ih hsub hmem (hstep s pending _ hI h hfirst) hb

end Policy

end AzazelEdge.Lib
