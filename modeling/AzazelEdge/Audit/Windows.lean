/-
# What the windows find

A file that ends in a newline: the unbounded window from its end finds the last line whatever its
length (`lastLine_window`), the bounded one finds a line of less than two megabytes
(`lastLine_window_bounded`), and the window from the front finds a first line of less than one
(`headLine_eq`).
-/
import AzazelEdge.Audit.Logger

namespace AzazelEdge.Audit

open AzazelEdge.Lib AzazelEdge.Lib.Py

variable {before line rest : Text} {start fuel step pos k : ℕ} {file : Text}

/-- The bytes that the doubling windows hold when they reach `_HEAD_MAX`. -/
def windowMax : ℕ := 31 * firstStep

/-! ## 1. The last line -/

theorem dropNewline_concat (data : Text) : dropNewline (data ++ [nl]) = data := by
  simp [dropNewline]

theorem lineTail_of_getLast (h : before.getLast? = some nl) : lineTail nl before = [] := by
  by_contra hne
  have hjoin := cutLines_join nl before
  have hlast : before.getLast? = (lineTail nl before).getLast? := by
    rw [← hjoin, List.getLast?_append_of_ne_nil _ hne]
    rw [hjoin]
  rw [h, List.getLast?_eq_some_getLast hne] at hlast
  have := List.getLast_mem hne
  rw [← Option.some.inj hlast] at this
  exact not_mem_lineTail nl before this

/-- The last line of a text that ends before a newline. -/
theorem lineTail_last (hbefore : before = [] ∨ before.getLast? = some nl) (hline : nl ∉ line) :
    lineTail nl (before ++ line) = line := by
  rw [lineTail_open hline]
  rcases hbefore with rfl | h
  · rfl
  · rw [lineTail_of_getLast h]
    rfl

theorem drop_file (h : start ≤ (before ++ line).length) :
    dropNewline ((before ++ line ++ [nl]).drop start) = (before ++ line).drop start := by
  rw [List.drop_append_of_le_length h, dropNewline_concat]

/-- A window with a newline in it, or with the whole file, ends in the last line. -/
theorem lastLine_drop (hbefore : before = [] ∨ before.getLast? = some nl) (hline : nl ∉ line)
    (h : start = 0 ∨ nl ∈ dropNewline ((before ++ line ++ [nl]).drop start)) :
    lineTail nl (dropNewline ((before ++ line ++ [nl]).drop start)) = line ∧
      ((before ++ line ++ [nl]).drop start).getLast? = some nl := by
  have hle : start ≤ (before ++ line).length := by
    by_contra hlt
    have hshort : (before ++ line ++ [nl]).drop start = [] := by
      rw [List.drop_eq_nil_iff]
      simp only [List.length_append, List.length_singleton] at hlt ⊢
      omega
    rcases h with rfl | h
    · omega
    · rw [hshort] at h
      cases h
  refine ⟨?_, by rw [List.drop_append_of_le_length hle, List.getLast?_concat]⟩
  rw [drop_file hle] at h ⊢
  by_cases hin : start ≤ before.length
  · rw [List.drop_append_of_le_length hin]
    refine lineTail_last ?_ hline
    rcases hbefore with rfl | hlast
    · exact .inl List.drop_nil
    · by_cases hall : before.drop start = []
      · exact .inl hall
      · rw [List.getLast?_drop]
        rw [List.drop_eq_nil_iff] at hall
        exact .inr (by rw [if_neg hall, hlast])
  · -- such a window is inside the line
    have hdrop : (before ++ line).drop start = line.drop (start - before.length) := by
      rw [List.drop_append, List.drop_eq_nil_of_le (by omega), List.nil_append]
    rcases h with rfl | h
    · omega
    · rw [hdrop] at h
      exact absurd (List.mem_of_mem_drop h) hline

theorem windowStart_unbounded (hstep : 0 < step) (hfuel : pos ≤ fuel) :
    windowStart false file fuel step pos = 0 ∨
      nl ∈ dropNewline (file.drop (windowStart false file fuel step pos)) := by
  induction fuel generalizing step pos with
  | zero => exact .inl (by rw [windowStart]; omega)
  | succ fuel ih =>
    rw [windowStart]
    by_cases hzero : pos = 0
    · rw [if_pos (.inl hzero)]
      exact .inl hzero
    rw [if_neg (not_or.mpr ⟨hzero, by simp⟩)]
    by_cases hfound : nl ∈ dropNewline (file.drop (pos - step)) ∨ pos - step = 0
    · rw [if_pos hfound]
      exact hfound.symm
    · rw [if_neg hfound]
      exact ih (by omega) (by omega)

/-- **The last line of a file that ends in a newline.** -/
theorem lastLine_window (hbefore : before = [] ∨ before.getLast? = some nl) (hline : nl ∉ line) :
    lineTail nl (dropNewline (window false (before ++ line ++ [nl]))) = line :=
  (lastLine_drop hbefore hline (windowStart_unbounded (by decide) (by omega))).1

theorem windowStart_bounded (hstep : step = firstStep * 2 ^ k) (hfuel : pos ≤ fuel)
    (hread : pos = 0 ∨ (file.length - pos + firstStep = step ∧ pos ≤ file.length)) :
    windowStart true file fuel step pos = 0 ∨
      nl ∈ dropNewline (file.drop (windowStart true file fuel step pos)) ∨
      windowMax ≤ file.length - windowStart true file fuel step pos := by
  induction fuel generalizing step pos k with
  | zero => exact .inl (by rw [windowStart]; omega)
  | succ fuel ih =>
    rw [windowStart]
    split_ifs with hstop hfound
    · rcases hstop with hzero | ⟨-, hmax⟩
      · exact .inl hzero
      · -- the windows before held less: this is the fifth doubling at least
        rcases hread with hzero | ⟨hread, -⟩
        · exact .inl hzero
        · have hpow : 17 ≤ 2 ^ k := by
            simp only [headMax, firstStep] at hmax hread hstep
            omega
          have hk : 5 ≤ k := by
            by_contra hk
            have : 2 ^ k ≤ 2 ^ 4 := Nat.pow_le_pow_right (by decide) (by omega)
            omega
          have : 2 ^ 5 ≤ 2 ^ k := Nat.pow_le_pow_right (by decide) hk
          refine .inr (.inr ?_)
          simp only [windowMax, firstStep] at hread hstep ⊢
          omega
    · rcases hfound with hfound | hzero
      · exact .inr (.inl hfound)
      · exact .inl hzero
    · rw [not_or] at hstop hfound
      have hnext : 2 * step = firstStep * 2 ^ (k + 1) := by
        rw [hstep, Nat.pow_succ, Nat.mul_left_comm, Nat.mul_comm 2]
      have hpositive : 0 < firstStep := by decide
      rcases hread with hzero | ⟨hread, hle⟩
      · exact absurd hzero hstop.1
      · have hmore := hfound.2
        exact ih hnext (by omega) (.inr (by omega))

/-- **The bounded window finds the last line unless that is about two megabytes long.** -/
theorem lastLine_window_bounded (hbefore : before = [] ∨ before.getLast? = some nl)
    (hline : nl ∉ line) (hlength : line.length + 2 ≤ windowMax) :
    lineTail nl (dropNewline (window true (before ++ line ++ [nl]))) = line ∧
      (window true (before ++ line ++ [nl])).getLast? = some nl := by
  refine lastLine_drop hbefore hline ?_
  rcases (@windowStart_bounded ((before ++ line ++ [nl]).length + 1) _
      ((before ++ line ++ [nl]).length) 0 (before ++ line ++ [nl]))
    (by rw [Nat.pow_zero, Nat.mul_one]) (by omega) (.inr ⟨by omega, le_refl _⟩) with h | h | h
  · exact .inl h
  · exact .inr h
  · -- a window of that many bytes holds the newline before the line
    generalize windowStart true (before ++ line ++ [nl]) _ firstStep _ = start at h ⊢
    simp only [List.length_append, List.length_singleton] at h
    have hstart : start < before.length := by omega
    rcases hbefore with rfl | hlast
    · simp at hstart
    · refine .inr ?_
      rw [drop_file (by rw [List.length_append]; omega), List.drop_append_of_le_length hstart.le]
      refine List.mem_append_left _ (List.mem_of_getLast? ?_)
      rw [List.getLast?_drop, if_neg (by omega), hlast]

/-! ## 2. The first line -/

theorem takeWhile_line (hline : nl ∉ line) (rest : Text) :
    (line ++ nl :: rest).takeWhile (fun c => c ≠ nl) = line := by
  induction line with
  | nil => rfl
  | cons c line ih =>
    rw [List.mem_cons, not_or] at hline
    have hc : decide (c ≠ nl) = true := by simpa using Ne.symm hline.1
    rw [List.cons_append, List.takeWhile_cons, if_pos hc, ih hline.2]

/-- **The first line, unless it is a megabyte long.** -/
theorem headLine_eq (hline : nl ∉ line) (hlength : line.length < headMax) (rest : Text) :
    headLine (line ++ nl :: rest) 17 0 = some line := by
  have hloop : ∀ fuel read, read ≤ line.length → line.length < read + fuel * firstStep →
      headLine (line ++ nl :: rest) fuel read = some line := by
    intro fuel
    induction fuel with
    | zero => intro read hread hfuel; omega
    | succ fuel ih =>
      intro read hread hfuel
      have hdrop : (line ++ nl :: rest).drop read ≠ [] := by
        rw [Ne, List.drop_eq_nil_iff]
        simp only [List.length_append, List.length_cons]
        omega
      rw [headLine, if_neg (by omega), if_neg hdrop]
      by_cases hin : line.length < read + firstStep
      · obtain ⟨n, hn⟩ : ∃ n, read + firstStep = line.length + (n + 1) :=
          ⟨read + firstStep - line.length - 1, by omega⟩
        have htake : (line ++ nl :: rest).take (read + firstStep) = line ++ nl :: rest.take n := by
          rw [hn, List.take_length_add_append, List.take_succ_cons]
        rw [htake, if_pos (by simp), takeWhile_line hline]
      · have htake : (line ++ nl :: rest).take (read + firstStep) = line.take (read + firstStep) :=
          List.take_append_of_le_length (by omega)
        rw [htake, if_neg (fun h => hline (List.mem_of_mem_take h))]
        exact ih _ (by omega) (by rw [Nat.add_mul, Nat.one_mul] at hfuel; omega)
  exact hloop 17 0 (by omega) (by simp only [headMax, firstStep] at hlength ⊢; omega)

end AzazelEdge.Audit
