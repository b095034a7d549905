/-
# Words

A text cut at its blanks, `str.split()`, and words joined by one: cut again they are the same words.
What a blank is, is a parameter.
-/
import Mathlib.Data.List.Basic

namespace AzazelEdge.Lib

variable {α : Type} (blank : α → Bool)

/-- The words of a text. -/
def words (t : List α) : List (List α) := (t.splitOnP blank).filter fun w => !w.isEmpty

/-- A text that is one word. -/
def Solid (w : List α) : Prop := w ≠ [] ∧ ∀ x ∈ w, blank x = false

/-- Words with one separator between each two. -/
def joinWith (b : α) : List (List α) → List α
  | [] => []
  | [w] => w
  | w :: ws => w ++ b :: joinWith b ws

variable {blank} {b : α} {w rest : List α} {ws : List (List α)}

@[simp] theorem joinWith_cons_cons (w w' : List α) (ws : List (List α)) :
    joinWith b (w :: w' :: ws) = w ++ b :: joinWith b (w' :: ws) := rfl

/-- A word ends at a blank. -/
theorem words_cons (hw : Solid blank w) (hb : blank b = true) :
    words blank (w ++ b :: rest) = w :: words blank rest := by
  rw [words, List.splitOnP_append_cons_of_forall_mem hw.2 b hb, List.filter_cons_of_pos]
  · rfl
  · simpa using hw.1

theorem words_single (hw : Solid blank w) : words blank w = [w] := by
  rw [words, List.splitOnP_eq_singleton hw.2, List.filter_cons_of_pos]
  · rfl
  · simpa using hw.1

/-- **Words joined are the same words again**, whatever follows them. -/
theorem words_join_append {vs : List (List α)} (hb : blank b = true)
    (h : ∀ w ∈ ws, Solid blank w) (hvs : vs ≠ []) :
    words blank (joinWith b (ws ++ vs)) = ws ++ words blank (joinWith b vs) := by
  induction ws with
  | nil => rfl
  | cons w ws ih =>
    obtain ⟨v, rest, hrest⟩ : ∃ v rest, ws ++ vs = v :: rest :=
      List.exists_cons_of_ne_nil (by simp [hvs])
    have hjoin : joinWith b (w :: ws ++ vs) = w ++ b :: joinWith b (ws ++ vs) := by
      rw [List.cons_append, hrest, joinWith_cons_cons]
    rw [hjoin, words_cons (h w List.mem_cons_self) hb,
      ih fun v hv => h v (List.mem_cons_of_mem _ hv), List.cons_append]

theorem words_join (hb : blank b = true) (h : ∀ w ∈ ws, Solid blank w) :
    words blank (joinWith b ws) = ws := by
  rcases List.eq_nil_or_concat ws with rfl | ⟨init, last, hws⟩
  · rfl
  · rw [List.concat_eq_append] at hws
    subst hws
    have hinit : ∀ w ∈ init, Solid blank w := fun w hw => h w (by simp [hw])
    rw [words_join_append hb hinit (by simp)]
    exact congrArg (init ++ ·) (words_single (h last (by simp)))

/-- What is cut out is a word. -/
theorem solid_of_mem_words (h : w ∈ words blank rest) : Solid blank w := by
  have hne : w ≠ [] := by simpa using (List.mem_filter.mp h).2
  refine ⟨hne, ?_⟩
  have hparts : ∀ t : List α, ∀ w ∈ t.splitOnP blank, ∀ x ∈ w, blank x = false := by
    intro t
    induction t with
    | nil => simp
    | cons x t ih =>
      intro w hw
      rw [List.splitOnP_cons_eq_if_modifyHead] at hw
      split at hw
      · rcases List.mem_cons.mp hw with rfl | hw
        · simp
        · exact ih w hw
      · rename_i hx
        cases hsplit : t.splitOnP blank with
        | nil => exact absurd hsplit (List.splitOnP_ne_nil _ _)
        | cons head tail =>
          rw [hsplit] at hw ih
          rcases List.mem_cons.mp hw with rfl | hw
          · intro y hy
            rcases List.mem_cons.mp hy with rfl | hy
            · simpa using hx
            · exact ih head List.mem_cons_self y hy
          · exact ih w (List.mem_cons_of_mem _ hw)
  exact hparts rest w (List.mem_filter.mp h).1

end AzazelEdge.Lib
