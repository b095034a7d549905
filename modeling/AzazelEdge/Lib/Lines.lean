/-
# Streams of lines

A stream is cut at every occurrence of a terminator: the complete lines, each without its
terminator, and the tail after the last one.  Whatever arrives later only extends the tail, so the
cut of a longer stream is the cut of what was there, gone on with.
-/
import Mathlib.Data.List.Basic

namespace AzazelEdge.Lib

variable {α : Type*} [DecidableEq α] {nl : α} {xs ys l : List α}

/-- One more character in front: it belongs to the first line, or to the tail if there is none. -/
def extendFirst (x : α) : List (List α) × List α → List (List α) × List α
  | ([], tail) => ([], x :: tail)
  | (line :: lines, tail) => ((x :: line) :: lines, tail)

/-- The complete lines of a stream, and its unterminated tail. -/
def cutLines (nl : α) : List α → List (List α) × List α
  | [] => ([], [])
  | x :: xs =>
    if x = nl then ([] :: (cutLines nl xs).1, (cutLines nl xs).2)
    else extendFirst x (cutLines nl xs)

def completeLines (nl : α) (xs : List α) : List (List α) := (cutLines nl xs).1

def lineTail (nl : α) (xs : List α) : List α := (cutLines nl xs).2

@[simp] theorem completeLines_nil : completeLines nl [] = [] := rfl

@[simp] theorem lineTail_nil : lineTail nl [] = [] := rfl

/-- A stream without a terminator is all tail. -/
theorem cutLines_of_not_mem (h : nl ∉ xs) : cutLines nl xs = ([], xs) := by
  induction xs with
  | nil => rfl
  | cons x xs ih =>
    obtain ⟨hx, hxs⟩ := not_or.mp (mt List.mem_cons.mpr h)
    rw [cutLines, if_neg (Ne.symm hx), ih hxs, extendFirst]

/-- The first line is cut off. -/
theorem cutLines_line (h : nl ∉ l) (xs : List α) :
    cutLines nl (l ++ nl :: xs) = (l :: completeLines nl xs, lineTail nl xs) := by
  induction l with
  | nil => simp [cutLines, completeLines, lineTail]
  | cons x l ih =>
    obtain ⟨hx, hl⟩ := not_or.mp (mt List.mem_cons.mpr h)
    rw [List.cons_append, cutLines, if_neg (Ne.symm hx), ih hl, extendFirst]

omit [DecidableEq α] in
theorem extendFirst_join (x : α) (p : List (List α) × List α) :
    (extendFirst x p).1.flatMap (· ++ [nl]) ++ (extendFirst x p).2 =
      x :: (p.1.flatMap (· ++ [nl]) ++ p.2) := by
  obtain ⟨_ | ⟨line, lines⟩, tail⟩ := p <;> rfl

/-- A stream is its lines, each ended, and its tail. -/
theorem cutLines_join (nl : α) (xs : List α) :
    (completeLines nl xs).flatMap (· ++ [nl]) ++ lineTail nl xs = xs := by
  unfold completeLines lineTail
  induction xs with
  | nil => rfl
  | cons x xs ih =>
    rw [cutLines]
    split
    · rename_i hx
      rw [List.flatMap_cons, hx, List.append_assoc, ih]
      rfl
    · rw [extendFirst_join, ih]

theorem not_mem_lineTail (nl : α) (xs : List α) : nl ∉ lineTail nl xs := by
  unfold lineTail
  induction xs with
  | nil => exact List.not_mem_nil
  | cons x xs ih =>
    rw [cutLines]
    split
    · exact ih
    · rename_i hx
      match hcut : cutLines nl xs with
      | ([], tail) =>
        rw [hcut] at ih
        exact fun hmem => (List.mem_cons.mp hmem).elim (fun h => hx h.symm) ih
      | (line :: lines, tail) =>
        rw [hcut] at ih
        exact ih

/-- **What arrives later goes on with the tail.** -/
theorem cutLines_append (xs ys : List α) :
    cutLines nl (xs ++ ys) =
      (completeLines nl xs ++ completeLines nl (lineTail nl xs ++ ys),
        lineTail nl (lineTail nl xs ++ ys)) := by
  unfold completeLines lineTail
  induction xs with
  | nil => rfl
  | cons x xs ih =>
    rw [List.cons_append, cutLines, ih, cutLines]
    by_cases hx : x = nl
    · rw [if_pos hx, if_pos hx, List.cons_append]
    · rw [if_neg hx, if_neg hx]
      match cutLines nl xs with
      | ([], tail) =>
        show _ = (_, _)
        rw [extendFirst, List.nil_append, List.cons_append, cutLines, if_neg hx]
        rfl
      | (line :: lines, tail) => rfl

theorem completeLines_append (xs ys : List α) :
    completeLines nl (xs ++ ys) =
      completeLines nl xs ++ completeLines nl (lineTail nl xs ++ ys) :=
  congrArg Prod.fst (cutLines_append xs ys)

theorem lineTail_append (xs ys : List α) :
    lineTail nl (xs ++ ys) = lineTail nl (lineTail nl xs ++ ys) := by
  rw [lineTail, cutLines_append]

/-- The end of the current line arrives. -/
theorem completeLines_ended (h : nl ∉ l) (xs : List α) :
    completeLines nl (xs ++ (l ++ [nl])) = completeLines nl xs ++ [lineTail nl xs ++ l] := by
  have hmem : nl ∉ lineTail nl xs ++ l := by
    simpa [not_or] using ⟨not_mem_lineTail nl xs, h⟩
  rw [completeLines_append, ← List.append_assoc, completeLines, completeLines, cutLines_line hmem]
  rfl

theorem lineTail_ended (h : nl ∉ l) (xs : List α) : lineTail nl (xs ++ (l ++ [nl])) = [] := by
  have hmem : nl ∉ lineTail nl xs ++ l := by
    simpa [not_or] using ⟨not_mem_lineTail nl xs, h⟩
  rw [lineTail_append, ← List.append_assoc, lineTail, cutLines_line hmem]
  rfl

/-- More of the current line arrives. -/
theorem completeLines_open (h : nl ∉ l) (xs : List α) :
    completeLines nl (xs ++ l) = completeLines nl xs := by
  have hmem : nl ∉ lineTail nl xs ++ l := by
    simpa [not_or] using ⟨not_mem_lineTail nl xs, h⟩
  rw [completeLines_append, completeLines, completeLines, cutLines_of_not_mem hmem,
    List.append_nil]

theorem lineTail_open (h : nl ∉ l) (xs : List α) : lineTail nl (xs ++ l) = lineTail nl xs ++ l := by
  have hmem : nl ∉ lineTail nl xs ++ l := by
    simpa [not_or] using ⟨not_mem_lineTail nl xs, h⟩
  rw [lineTail_append, lineTail, cutLines_of_not_mem hmem]

end AzazelEdge.Lib
