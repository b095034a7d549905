/-
# A queue that is pruned at its head

Items with times come in at the end, and a pruning takes them off the head while they are before
its cutoff.  The times need not rise, so an item that is before the cutoff stays behind one that is
not.  Where the cutoffs rise, an item is there exactly when at each pruning since it came in some
item that came in no later was not before the cutoff (`mem_queueOf_iff`).
-/
import Mathlib.Data.List.Basic
import Mathlib.Data.List.Induction
import Mathlib.Data.List.TakeWhile
import Mathlib.Order.Basic
import Mathlib.Order.Lattice

namespace AzazelEdge.Lib

/-- An item comes in, or the queue is pruned. -/
inductive QueueAct (α κ : Type) where
  | put (item : α)
  | prune (cutoff : κ)

variable {α κ : Type} [LinearOrder κ] (time : α → κ)

/-- Items are taken off the head while they are before the cutoff. -/
def pruneHead (cutoff : κ) (queue : List α) : List α :=
  queue.dropWhile fun item => decide (time item < cutoff)

/-- One act. -/
def queueAct (queue : List α) : QueueAct α κ → List α
  | .put item => queue ++ [item]
  | .prune cutoff => pruneHead time cutoff queue

/-- The queue after some acts. -/
def queueOf (acts : List (QueueAct α κ)) : List α := acts.foldl (queueAct time) []

/-- The items that came in, in order. -/
def puts (acts : List (QueueAct α κ)) : List α :=
  acts.filterMap fun
    | .put item => some item
    | .prune _ => none

/-- The cutoffs, in order. -/
def cutoffs (acts : List (QueueAct α κ)) : List κ :=
  acts.filterMap fun
    | .put _ => none
    | .prune cutoff => some cutoff

/-- The cutoffs rise. -/
def Rising (acts : List (QueueAct α κ)) : Prop := (cutoffs acts).Pairwise (· ≤ ·)

/-- At each pruning since it came in, some item that came in no later was not before the cutoff. -/
def Survives (acts : List (QueueAct α κ)) (item : α) : Prop :=
  ∃ before after, acts = before ++ .put item :: after ∧
    ∀ cutoff ∈ cutoffs after, ∃ other ∈ puts before ++ [item], cutoff ≤ time other

variable {time} {acts before after : List (QueueAct α κ)} {items : List α} {item : α} {cutoff : κ}

omit [LinearOrder κ] in
@[simp] theorem puts_append : puts (before ++ after) = puts before ++ puts after := by
  simp [puts]

omit [LinearOrder κ] in
@[simp] theorem cutoffs_append : cutoffs (before ++ after) = cutoffs before ++ cutoffs after := by
  simp [cutoffs]

omit [LinearOrder κ] in
theorem puts_flatMap {β : Type} {f : β → List (QueueAct α κ)} {l : List β} :
    puts (l.flatMap f) = l.flatMap fun b => puts (f b) := by
  simp [puts, List.filterMap_flatMap]

omit [LinearOrder κ] in
theorem cutoffs_flatMap {β : Type} {f : β → List (QueueAct α κ)} {l : List β} :
    cutoffs (l.flatMap f) = l.flatMap fun b => cutoffs (f b) := by
  simp [cutoffs, List.filterMap_flatMap]

omit [LinearOrder κ] in
@[simp] theorem puts_cons_put : puts (.put item :: acts) = item :: puts acts := rfl

omit [LinearOrder κ] in
@[simp] theorem puts_cons_prune : puts (.prune cutoff :: acts) = puts acts := rfl

omit [LinearOrder κ] in
@[simp] theorem cutoffs_cons_put : cutoffs (.put item :: acts) = cutoffs acts := rfl

omit [LinearOrder κ] in
@[simp] theorem cutoffs_cons_prune : cutoffs (.prune cutoff :: acts) = cutoff :: cutoffs acts := rfl

omit [LinearOrder κ] in
@[simp] theorem puts_nil : puts ([] : List (QueueAct α κ)) = [] := rfl

omit [LinearOrder κ] in
@[simp] theorem cutoffs_nil : cutoffs ([] : List (QueueAct α κ)) = [] := rfl

theorem queueOf_append : queueOf time (before ++ after) =
    after.foldl (queueAct time) (queueOf time before) := by
  simp [queueOf]

theorem queueOf_concat_put : queueOf time (acts ++ [.put item]) = queueOf time acts ++ [item] := by
  simp [queueOf, queueAct]

theorem queueOf_concat_prune :
    queueOf time (acts ++ [.prune cutoff]) = pruneHead time cutoff (queueOf time acts) := by
  simp [queueOf, queueAct]

/-- What is behind an item that is not before the cutoff stays. -/
theorem mem_pruneHead : item ∈ pruneHead time cutoff items ↔
    ∃ before after, items = before ++ item :: after ∧
      ∃ other ∈ before ++ [item], cutoff ≤ time other := by
  induction items with
  | nil => simp [pruneHead]
  | cons first items ih =>
    rw [pruneHead, List.dropWhile_cons]
    by_cases hfirst : time first < cutoff
    · rw [if_pos (by simpa using hfirst)]
      refine ih.trans ⟨?_, ?_⟩
      · rintro ⟨before, after, rfl, other, hother, hle⟩
        exact ⟨first :: before, after, rfl, other, List.mem_cons_of_mem _ hother, hle⟩
      · rintro ⟨_ | ⟨head, before⟩, after, heq, other, hother, hle⟩
        · obtain ⟨rfl, -⟩ := List.cons.inj heq
          rw [List.mem_singleton.mp hother] at hle
          exact absurd hfirst (not_lt.mpr hle)
        · obtain ⟨rfl, hrest⟩ := List.cons.inj heq
          rcases List.mem_cons.mp hother with rfl | hother
          · exact absurd hfirst (not_lt.mpr hle)
          · exact ⟨before, after, hrest, other, hother, hle⟩
    · rw [if_neg (by simpa using hfirst)]
      constructor
      · intro hmem
        obtain ⟨before, after, heq⟩ := List.append_of_mem hmem
        refine ⟨before, after, heq, first, ?_, not_lt.mp hfirst⟩
        rcases before with _ | ⟨head, before⟩
        · simp [(List.cons.inj heq).1]
        · simp [(List.cons.inj heq).1]
      · rintro ⟨before, after, heq, -⟩
        rw [heq]
        simp

/-- What has gone was before a cutoff, and what is there is the rest. -/
theorem puts_eq_gone (time : α → κ) (acts : List (QueueAct α κ)) :
    ∃ gone, puts acts = gone ++ queueOf time acts ∧
      ∀ item ∈ gone, ∃ cutoff ∈ cutoffs acts, time item < cutoff := by
  induction acts using List.reverseRecOn with
  | nil => exact ⟨[], rfl, by simp⟩
  | append_singleton acts act ih =>
    obtain ⟨gone, hputs, hgone⟩ := ih
    cases act with
    | put item =>
      refine ⟨gone, by simp [hputs, queueOf_concat_put], fun other hother => ?_⟩
      simpa using hgone other hother
    | prune cutoff =>
      refine ⟨gone ++ (queueOf time acts).takeWhile fun item => decide (time item < cutoff), ?_, ?_⟩
      · rw [queueOf_concat_prune, pruneHead, List.append_assoc, List.takeWhile_append_dropWhile]
        simp [hputs]
      · intro other hother
        rcases List.mem_append.mp hother with hold | hnew
        · obtain ⟨earlier, hmem, hlt⟩ := hgone other hold
          exact ⟨earlier, by simp [hmem], hlt⟩
        · exact ⟨cutoff, by simp, by simpa using List.mem_takeWhile_imp hnew⟩

/-- After a pruning, what is there is what all that came in would be pruned to. -/
theorem queueOf_prune (h : Rising (acts ++ [.prune cutoff])) :
    queueOf time (acts ++ [.prune cutoff]) = pruneHead time cutoff (puts acts) := by
  obtain ⟨gone, hputs, hgone⟩ := puts_eq_gone time acts
  have hle : ∀ earlier ∈ cutoffs acts, earlier ≤ cutoff := by
    intro earlier hearlier
    rw [Rising, cutoffs_append] at h
    exact (List.pairwise_append.mp h).2.2 earlier hearlier cutoff (by simp)
  rw [queueOf_concat_prune, hputs, pruneHead, pruneHead, List.dropWhile_append_of_pos]
  intro item hitem
  obtain ⟨earlier, hmem, hlt⟩ := hgone item hitem
  simpa using lt_of_lt_of_le hlt (hle earlier hmem)

omit [LinearOrder κ] in
/-- An item among those that came in has come in by an act. -/
theorem exists_put {first last : List α} (h : puts acts = first ++ item :: last) :
    ∃ before after, acts = before ++ .put item :: after ∧ puts before = first := by
  induction acts generalizing first with
  | nil => simp at h
  | cons act acts ih =>
    cases act with
    | put other =>
      rw [puts_cons_put] at h
      rcases first with _ | ⟨head, first⟩
      · obtain ⟨rfl, -⟩ := List.cons.inj h
        exact ⟨[], acts, rfl, rfl⟩
      · obtain ⟨rfl, hrest⟩ := List.cons.inj h
        obtain ⟨before, after, rfl, rfl⟩ := ih hrest
        exact ⟨.put other :: before, after, rfl, rfl⟩
    | prune cutoff =>
      obtain ⟨before, after, rfl, rfl⟩ := ih h
      exact ⟨.prune cutoff :: before, after, rfl, rfl⟩

/-- **What is in the queue.** -/
theorem mem_queueOf_iff (h : Rising acts) : item ∈ queueOf time acts ↔ Survives time acts item := by
  induction acts using List.reverseRecOn with
  | nil =>
    refine iff_of_false (by simp [queueOf]) ?_
    rintro ⟨before, after, heq, -⟩
    simp at heq
  | append_singleton acts act ih =>
    cases act with
    | put other =>
      have hacts : Rising acts := by simpa [Rising] using h
      rw [queueOf_concat_put, List.mem_append, List.mem_singleton, ih hacts]
      constructor
      · rintro (⟨before, after, rfl, hall⟩ | rfl)
        · exact ⟨before, after ++ [.put other], by simp, by simpa using hall⟩
        · exact ⟨acts, [], rfl, by simp⟩
      · rintro ⟨before, after, heq, hall⟩
        rcases List.eq_nil_or_concat after with rfl | ⟨after, last, rfl⟩
        · obtain ⟨-, hput⟩ := List.append_inj' heq rfl
          cases hput
          exact Or.inr rfl
        · rw [List.concat_eq_append, ← List.cons_append, ← List.append_assoc] at heq
          obtain ⟨rfl, hlast⟩ := List.append_inj' heq rfl
          cases hlast
          exact Or.inl ⟨before, after, rfl, by simpa using hall⟩
    | prune cutoff =>
      rw [queueOf_prune h, mem_pruneHead]
      have hle : ∀ earlier ∈ cutoffs acts, earlier ≤ cutoff := by
        intro earlier hearlier
        rw [Rising, cutoffs_append] at h
        exact (List.pairwise_append.mp h).2.2 earlier hearlier cutoff (by simp)
      constructor
      · rintro ⟨first, last, hputs, other, hother, hcutoff⟩
        obtain ⟨before, after, rfl, rfl⟩ := exists_put hputs
        refine ⟨before, after ++ [.prune cutoff], by simp, fun earlier hearlier => ?_⟩
        refine ⟨other, hother, le_trans ?_ hcutoff⟩
        rw [cutoffs_append, List.mem_append] at hearlier
        rcases hearlier with hmem | hmem
        · exact hle earlier (by simp [hmem])
        · rw [List.mem_singleton.mp hmem]
      · rintro ⟨before, after, heq, hall⟩
        rcases List.eq_nil_or_concat after with rfl | ⟨after, last, rfl⟩
        · obtain ⟨-, hput⟩ := List.append_inj' heq rfl
          cases hput
        · rw [List.concat_eq_append, ← List.cons_append, ← List.append_assoc] at heq
          obtain ⟨rfl, hlast⟩ := List.append_inj' heq rfl
          cases hlast
          obtain ⟨other, hother, hcutoff⟩ := hall cutoff (by simp)
          exact ⟨puts before, puts after, by simp, other, hother, hcutoff⟩

/-- Where the times rise, an item survives when it is not before a cutoff itself. -/
theorem survives_iff_of_sorted (h : (puts acts).Pairwise fun a b => time a ≤ time b) :
    Survives time acts item ↔ ∃ before after, acts = before ++ .put item :: after ∧
      ∀ cutoff ∈ cutoffs after, cutoff ≤ time item := by
  constructor
  · rintro ⟨before, after, rfl, hall⟩
    refine ⟨before, after, rfl, fun cutoff hcutoff => ?_⟩
    obtain ⟨other, hother, hle⟩ := hall cutoff hcutoff
    refine le_trans hle ?_
    rcases List.mem_append.mp hother with hearlier | hself
    · rw [puts_append] at h
      exact (List.pairwise_append.mp h).2.2 other hearlier item (by simp)
    · rw [List.mem_singleton.mp hself]
  · rintro ⟨before, after, rfl, hall⟩
    exact ⟨before, after, rfl, fun cutoff hcutoff => ⟨item, by simp, hall cutoff hcutoff⟩⟩

end AzazelEdge.Lib
