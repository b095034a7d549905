/-
# Floats that are whole numbers

Enough of Python's floats for a stamp in whole seconds: `7` is written `7.0`.
-/
import AzazelEdge.Lib.PyRead

namespace AzazelEdge.Lib.Py

/-- A float without a fraction. -/
structure Whole where
  n : ℕ
  deriving DecidableEq

/-- The number that a comparison takes. -/
def Whole.number : ℤ ⊕ Whole → ℤ
  | .inl n => n
  | .inr x => x.n

def Whole.text (x : Whole) : Text := natText x.n ++ [chDot, chZero]

theorem Whole.shape (x : Whole) : FloatLiteral x.text := by
  have hdigits : Digits [chZero] := ⟨by decide, by decide⟩
  exact ⟨[], natText x.n, [chDot, chZero], [], by simp [Whole.text], .inl rfl, intPart_natText x.n,
    .inr ⟨_, hdigits, rfl⟩, .inl rfl, .inl (by decide)⟩

theorem Whole.takeWhile_text (x : Whole) : x.text.takeWhile isDigit = natText x.n := by
  rw [Whole.text, List.takeWhile_append_of_pos (digits_natText x.n).2]
  simp [isDigit, chDot]

instance : PyFloat Whole where
  repr := Whole.text
  ofText t := ⟨ofDigits (t.takeWhile isDigit)⟩
  lt a b := Whole.number a < Whole.number b
  str x := Py.ofText x.text
  truthy x := x.n ≠ 0
  lt_irrefl a := by simp
  shape x := .inr x.shape
  ofText_repr x := by rw [Whole.takeWhile_text, ofDigits_natText]

instance : PyRepr Whole where
  repr
    | .arr _ => [91]
    | _ => [123]
  arr _ := rfl
  obj _ := rfl

end AzazelEdge.Lib.Py
