/-
# Conversions of Python values

`int(x)`, `float(x)` and the case of a string.  What they do to a float or to a text is left open
(`PyConvert`); what they refuse is none.
-/
import AzazelEdge.Lib.PyWhole

namespace AzazelEdge.Lib.Py

/-- What comes to a value has come to one at each of its steps. -/
theorem bind_eq_ok {ε α β : Type} {r : Except ε α} {f : α → Except ε β} {b : β}
    (h : r >>= f = .ok b) : ∃ a, r = .ok a ∧ f a = .ok b := by
  cases r with
  | error e => cases h
  | ok a => exact ⟨a, rfl, h⟩

theorem ok_of_bind {ε α β : Type} {r : Except ε α} {f : α → Except ε β} {a : α} {b : β}
    (hr : r = .ok a) (hf : f a = .ok b) : r >>= f = .ok b := by
  subst hr
  exact hf

/-- A check that raises was passed. -/
theorem guard_eq_ok {ε β : Type} {p : Prop} [Decidable p] {e : ε} {rest : Unit → Except ε β} {b : β} :
    (if p then throw e >>= rest else rest ()) = .ok b ↔ ¬ p ∧ rest () = .ok b := by
  by_cases hp : p
  · simp [hp, throw, throwThe, MonadExceptOf.throw, bind, Except.bind]
  · simp [hp]

theorem check_eq_ok {ε : Type} {p : Prop} [Decidable p] {e : ε} :
    (if p then throw e else pure () : Except ε Unit) = .ok () ↔ ¬ p := by
  by_cases hp : p
  · simp [hp, throw, throwThe, MonadExceptOf.throw]
  · simp [hp, pure, Except.pure]

/-- The conversions that this development leaves open. -/
class PyConvert (F : Type) where
  /-- `int(x)`; none when it raises. -/
  intOfFloat : F → Option ℤ
  /-- `int(s)`. -/
  intOfStr : PyStr → Option ℤ
  /-- `float(n)`. -/
  floatOfInt : ℤ → Option F
  /-- `float(s)`. -/
  floatOfStr : PyStr → Option F
  /-- `s.upper()`. -/
  upper : PyStr → PyStr
  /-- `s.lower()`. -/
  lower : PyStr → PyStr

/-- The arithmetic of floats that is asked for. -/
class PyArith (F : Type) where
  mul : F → F → F
  /-- `x / y`, where `y` is not zero. -/
  div : F → F → F
  isNan : F → Bool
  /-- `round(x)`; none when it raises. -/
  round : F → Option ℤ
  /-- `round(x, 4)`. -/
  round4 : F → F

/-- A letter or a digit of ASCII. -/
def isAsciiAlnum (n : ℕ) : Bool :=
  isDigit n || decide (65 ≤ n ∧ n ≤ 90) || decide (97 ≤ n ∧ n ≤ 122)

/-- The number of these digits in base 16. -/
def ofHex (ds : List ℕ) : ℤ := (ds.foldl (fun n d => 16 * n + d) 0 : ℕ)

/-- What is asked of Unicode beyond ASCII. -/
class PyChars where
  /-- `str.isalnum` of a character. -/
  isalnum : CodePoint → Bool
  isalnum_ascii : ∀ c : CodePoint, c.val < 128 → isalnum c = isAsciiAlnum c.val
  /-- `int(s, 16)`; none when it raises. -/
  intBase16 : PyStr → Option ℤ
  intBase16_digits : ∀ (s : PyStr) (ds : List ℕ), s.mapM (fun c => hexVal c.val) = some ds → ds ≠ [] →
    intBase16 s = some (ofHex ds) ∧
      intBase16 (43 :: s) = some (ofHex ds)

/-- The decimal digits of `str.isdecimal`, which `\d` finds and `int` reads. -/
class PyDigits where
  /-- The value of a digit. -/
  decimal : CodePoint → Option ℕ
  ascii : ∀ c : CodePoint, c.val < 128 →
    decimal c = if isDigit c.val then some (c.val - 48) else none

variable {F : Type} [PyConvert F]

/-- `int(value)`. -/
def toInt : PyJson F → Option ℤ
  | .bool b => some (if b then 1 else 0)
  | .int n => some n
  | .float x => PyConvert.intOfFloat x
  | .str s => PyConvert.intOfStr (F := F) s
  | _ => none

/-- `float(value)`. -/
def toFloat : PyJson F → Option F
  | .bool b => PyConvert.floatOfInt (if b then 1 else 0)
  | .int n => PyConvert.floatOfInt n
  | .float x => some x
  | .str s => PyConvert.floatOfStr s
  | _ => none

/-- A letter of ASCII in the other case. -/
def shiftCase (lo hi : ℕ) (shift : ℤ) (c : CodePoint) : CodePoint :=
  if lo ≤ c.val ∧ c.val ≤ hi then Fin.ofNat 0x110000 (c.val + shift).toNat else c

/-- What `s.lower()` does to a string of ASCII. -/
class PyCase (F : Type) [PyConvert F] : Prop where
  lower_ascii : ∀ s : PyStr, (∀ c ∈ s, c.val < 128) →
    PyConvert.lower F s = s.map (shiftCase 65 90 32)

/-- A text of small letters of ASCII stays as it is. -/
theorem lower_small [PyCase F] {s : PyStr}
    (h : s.all (fun c => decide (c.val < 128) && decide (shiftCase 65 90 32 c = c)) = true) :
    PyConvert.lower F s = s := by
  have hall : ∀ c ∈ s, c.val < 128 ∧ shiftCase 65 90 32 c = c := by
    simpa using h
  rw [PyCase.lower_ascii s fun c hc => (hall c hc).1]
  exact (List.map_congr_left fun c hc => (hall c hc).2).trans (List.map_id s)

/-- What `s.upper()` does to a string of ASCII. -/
class PyUpper (F : Type) [PyConvert F] : Prop where
  upper_ascii : ∀ s : PyStr, (∀ c ∈ s, c.val < 128) →
    PyConvert.upper F s = s.map (shiftCase 97 122 (-32))

/-- A text of capital letters of ASCII stays as it is. -/
theorem upper_capital [PyUpper F] {s : PyStr}
    (h : s.all (fun c => decide (c.val < 128) && decide (shiftCase 97 122 (-32) c = c)) = true) :
    PyConvert.upper F s = s := by
  have hall : ∀ c ∈ s, c.val < 128 ∧ shiftCase 97 122 (-32) c = c := by
    simpa using h
  rw [PyUpper.upper_ascii s fun c hc => (hall c hc).1]
  exact (List.map_congr_left fun c hc => (hall c hc).2).trans (List.map_id s)

section Or

variable [PyFloat F]

/-- `bool(value)` of a value that may be missing. -/
def isTruthy (value : Option (PyJson F)) : Bool := value.any truthy

/-- `int(value or 0)`. -/
def intOr0 (value : Option (PyJson F)) : Option ℤ :=
  match value with
  | some value => if truthy value then toInt value else some 0
  | none => some 0

/-- `float(value or 0.0)`. -/
def floatOr0 (value : Option (PyJson F)) : Option F :=
  match value with
  | some value => if truthy value then toFloat value else PyConvert.floatOfInt 0
  | none => PyConvert.floatOfInt 0

/-- `a or b`. -/
def pyOr (a b : Option (PyJson F)) : Option (PyJson F) := if isTruthy a then a else b

/-- A float that is written so in the source. -/
def lit (text : String) : F := PyFloat.ofText (ascii text)

/-- `max(a, b)`. -/
def maxFloat (a b : F) : F := if PyFloat.lt (.inr a) (.inr b) then b else a

/-- `min(a, b)`. -/
def minFloat (a b : F) : F := if PyFloat.lt (.inr b) (.inr a) then b else a

@[simp] theorem intOr0_none : intOr0 (none : Option (PyJson F)) = some 0 := rfl

@[simp] theorem intOr0_int (n : ℤ) : intOr0 (some (.int n : PyJson F)) = some n := by
  by_cases hn : n = 0 <;> simp [intOr0, truthy, toInt, hn]

end Or

/-! ## Whole numbers -/

/-- The digits of a string. -/
def digitsOf (s : PyStr) : Option ℤ :=
  if s ≠ [] ∧ s.all fun c => isDigit c.val then some (ofDigits (s.map Fin.val)) else none

instance : PyArith Whole where
  mul x y := ⟨x.n * y.n⟩
  div x y := ⟨x.n / y.n⟩
  isNan _ := false
  round x := some x.n
  round4 x := x

/-- The digits of base 16, behind a sign or not. -/
def hexDigitsOf (s : PyStr) : Option ℤ :=
  match s.mapM fun c => hexVal c.val with
  | some (d :: ds) => some (ofHex (d :: ds))
  | _ => none

/-- Only the letters and digits of ASCII. -/
instance : PyChars where
  isalnum c := isAsciiAlnum c.val
  isalnum_ascii _ _ := rfl
  intBase16
    | 43 :: s => hexDigitsOf s
    | s => hexDigitsOf s
  intBase16_digits s ds hs hne := by
    have hof : hexDigitsOf s = some (ofHex ds) := by
      obtain ⟨d, ds, rfl⟩ := List.exists_cons_of_ne_nil hne
      rw [hexDigitsOf, hs]
    refine ⟨?_, hof⟩
    split
    · rename_i s'
      have hplus : hexVal 43 = none := by decide
      simp [List.mapM_cons, hplus] at hs
    · exact hof

/-- Only the digits of ASCII. -/
instance : PyDigits where
  decimal c := if isDigit c.val then some (c.val - 48) else none
  ascii _ _ := rfl

instance : PyConvert Whole where
  intOfFloat x := some x.n
  intOfStr := digitsOf
  floatOfInt n := some ⟨n.toNat⟩
  floatOfStr s := (digitsOf s).map fun n => ⟨n.toNat⟩
  upper s := s.map (shiftCase 97 122 (-32))
  lower s := s.map (shiftCase 65 90 32)

instance : PyCase Whole where
  lower_ascii _ _ := rfl

instance : PyUpper Whole where
  upper_ascii _ _ := rfl

end AzazelEdge.Lib.Py
