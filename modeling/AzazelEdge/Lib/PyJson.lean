/-
# Python's `json` module

Values, `json.dumps` and `json.loads`.  A text is its code points; a Python `str` may hold
surrogates, so a code point here is any number below `0x110000`.

A value that is written and a value that was read are of one type, `PyJson`, whose objects have
strings for keys.  A value to be written may be richer: `PyValue` has the keys `json.dumps` accepts
besides.  `PyValue.written` is what becomes of it, and `text` writes that down.

`json.loads` follows the C scanner of CPython with its defaults: `strict`, and the last of several
members of one name stays.  How a float is written and read is left open (`PyFloat`).
-/
import Mathlib.Data.Nat.Notation
import Mathlib.Algebra.GroupWithZero.Nat
import Mathlib.Data.List.Sort

namespace AzazelEdge.Lib.Py

/-! ## 1. Characters -/

/-- A code point of a Python `str`. -/
abbrev CodePoint := Fin 0x110000

abbrev PyStr := List CodePoint

-- by name, so that a definition that rests on one says so in every module alike
instance codePoint_neZero : NeZero 0x110000 := ⟨by decide⟩

instance pyStr_lawfulBEq : LawfulBEq PyStr := inferInstance

/-- A text as its code points. -/
abbrev Text := List ℕ

@[match_pattern] abbrev chQuote : ℕ := 34
@[match_pattern] abbrev chPlus : ℕ := 43
@[match_pattern] abbrev chComma : ℕ := 44
@[match_pattern] abbrev chMinus : ℕ := 45
@[match_pattern] abbrev chDot : ℕ := 46
@[match_pattern] abbrev chZero : ℕ := 48
@[match_pattern] abbrev chColon : ℕ := 58
@[match_pattern] abbrev chOpenBracket : ℕ := 91
@[match_pattern] abbrev chBackslash : ℕ := 92
@[match_pattern] abbrev chCloseBracket : ℕ := 93
@[match_pattern] abbrev chU : ℕ := 117
@[match_pattern] abbrev chOpenBrace : ℕ := 123
@[match_pattern] abbrev chCloseBrace : ℕ := 125

/-- The code points of a Lean string, as a text. -/
def ascii (s : String) : Text := s.toList.map Char.toNat

/-- The same as a Python `str`. -/
def pyStr (s : String) : PyStr := s.toList.map fun c => Fin.ofNat 0x110000 c.toNat

def isHigh (n : ℕ) : Bool := decide (0xD800 ≤ n) && decide (n ≤ 0xDBFF)

def isLow (n : ℕ) : Bool := decide (0xDC00 ≤ n) && decide (n ≤ 0xDFFF)

/-- The code point of a surrogate pair. -/
def joined (high low : ℕ) : CodePoint :=
  Fin.ofNat 0x110000 (0x10000 + (high - 0xD800) * 0x400 + (low - 0xDC00))

/-- A string with every surrogate pair joined, as reading it back joins them. -/
def joinPairs : PyStr → PyStr
  | high :: low :: rest =>
    if isHigh high ∧ isLow low then joined high low :: joinPairs rest
    else high :: joinPairs (low :: rest)
  | s => s

/-! ## 2. Writing -/

def hexDigit (n : ℕ) : ℕ := (Nat.digitChar n).toNat

/-- `\uXXXX`. -/
def uEscape (n : ℕ) : Text :=
  [chBackslash, chU, hexDigit (n / 4096), hexDigit (n / 256 % 16), hexDigit (n / 16 % 16),
    hexDigit (n % 16)]

/-- `ensure_ascii`: a code point inside quotes. -/
def escape (c : CodePoint) : Text :=
  if c.val = chQuote then [chBackslash, chQuote]
  else if c.val = chBackslash then [chBackslash, chBackslash]
  else if c.val = 8 then [chBackslash, 98]
  else if c.val = 9 then [chBackslash, 116]
  else if c.val = 10 then [chBackslash, 110]
  else if c.val = 12 then [chBackslash, 102]
  else if c.val = 13 then [chBackslash, 114]
  else if 32 ≤ c.val ∧ c.val ≤ 126 then [c.val]
  else if c.val < 0x10000 then uEscape c.val
  else uEscape (0xD800 + (c.val - 0x10000) / 0x400) ++ uEscape (0xDC00 + (c.val - 0x10000) % 0x400)

def quoted (s : PyStr) : Text := chQuote :: (s.flatMap escape ++ [chQuote])

/-- `str(n)` of a natural number. -/
def natText (n : ℕ) : Text := (Nat.toDigits 10 n).map Char.toNat

/-- `str(n)`. -/
def intText (n : ℤ) : Text := if n < 0 then chMinus :: natText n.natAbs else natText n.natAbs

def isDigit (c : ℕ) : Bool := decide (48 ≤ c) && decide (c ≤ 57)

/-- A run of digits. -/
def Digits (t : Text) : Prop := t ≠ [] ∧ ∀ c ∈ t, isDigit c = true

/-- The integer part of a number: no needless zero. -/
def IntPart (t : Text) : Prop := t = [chZero] ∨ (Digits t ∧ t.head? ≠ some chZero)

/-- `NaN`, `Infinity`, `-Infinity`. -/
def floatConstants : List Text := [ascii "NaN", ascii "Infinity", ascii "-Infinity"]

/-- A number with a fraction or an exponent, as `float.__repr__` writes it. -/
def FloatLiteral (t : Text) : Prop :=
  ∃ sign whole fraction exponent, t = sign ++ whole ++ fraction ++ exponent ∧
    (sign = [] ∨ sign = [chMinus]) ∧ IntPart whole ∧
    (fraction = [] ∨ ∃ ds, Digits ds ∧ fraction = chDot :: ds) ∧
    (exponent = [] ∨ ∃ s ds, (s = [] ∨ s = [chPlus] ∨ s = [chMinus]) ∧ Digits ds ∧
      exponent = 101 :: (s ++ ds)) ∧
    (fraction ≠ [] ∨ exponent ≠ [])

/-- Floats: what `json` writes for one, how a number literal or a constant is read, how two keys
compare when one is a float, and `str(x)` and `bool(x)`. -/
class PyFloat (F : Type) where
  repr : F → Text
  ofText : Text → F
  lt : ℤ ⊕ F → ℤ ⊕ F → Bool
  str : F → PyStr
  truthy : F → Bool
  lt_irrefl : ∀ a, lt a a = false
  shape : ∀ x, repr x ∈ floatConstants ∨ FloatLiteral (repr x)
  ofText_repr : ∀ x, ofText (repr x) = x

/-- A JSON value in Python. -/
inductive PyJson (F : Type) where
  | null
  | bool (b : Bool)
  | int (n : ℤ)
  | float (x : F)
  | str (s : PyStr)
  | arr (items : List (PyJson F))
  | obj (members : List (PyStr × PyJson F))

variable {F : Type} [PyFloat F]

mutual

/-- A value written with the separators `(',', ':')`, its members in their order. -/
def text : PyJson F → Text
  | .null => ascii "null"
  | .bool true => ascii "true"
  | .bool false => ascii "false"
  | .int n => intText n
  | .float x => PyFloat.repr x
  | .str s => quoted s
  | .arr [] => [chOpenBracket, chCloseBracket]
  | .arr (item :: items) => chOpenBracket :: (text item ++ textItems items)
  | .obj [] => [chOpenBrace, chCloseBrace]
  | .obj (member :: members) => chOpenBrace :: (textMember member ++ textMembers members)

/-- The items after the first, and the closing bracket. -/
def textItems : List (PyJson F) → Text
  | [] => [chCloseBracket]
  | item :: items => chComma :: (text item ++ textItems items)

def textMember : PyStr × PyJson F → Text
  | (key, value) => quoted key ++ chColon :: text value

/-- The members after the first, and the closing brace. -/
def textMembers : List (PyStr × PyJson F) → Text
  | [] => [chCloseBrace]
  | member :: members => chComma :: (textMember member ++ textMembers members)

end

/-- `a <= b` for Python strings, by code points. -/
def keyLe : PyStr → PyStr → Bool
  | [], _ => true
  | _ :: _, [] => false
  | a :: s, b :: t => if a.val < b.val then true else if b.val < a.val then false else keyLe s t

mutual

/-- The value with the members of every object in the order of their keys: `sort_keys`. -/
def sortKeys : PyJson F → PyJson F
  | .arr items => .arr (sortItems items)
  | .obj members => .obj ((sortMembers members).insertionSort fun a b => keyLe a.1 b.1 = true)
  | value => value

def sortItems : List (PyJson F) → List (PyJson F)
  | [] => []
  | item :: items => sortKeys item :: sortItems items

def sortMembers : List (PyStr × PyJson F) → List (PyStr × PyJson F)
  | [] => []
  | member :: members => sortMember member :: sortMembers members

def sortMember : PyStr × PyJson F → PyStr × PyJson F
  | (key, value) => (key, sortKeys value)

end

/-! ## 3. Reading -/

/-- The value of a hexadecimal digit. -/
def hexVal (c : ℕ) : Option ℕ :=
  if 48 ≤ c ∧ c ≤ 57 then some (c - 48)
  else if 97 ≤ c ∧ c ≤ 102 then some (c - 87)
  else if 65 ≤ c ∧ c ≤ 70 then some (c - 55)
  else none

/-- Four hexadecimal digits. -/
def hexVal4 (a b c d : ℕ) : Option ℕ :=
  match hexVal a, hexVal b, hexVal c, hexVal d with
  | some a, some b, some c, some d => some (4096 * a + 256 * b + 16 * c + d)
  | _, _, _, _ => none

/-- The character after a backslash. -/
def unescape (c : ℕ) : Option CodePoint :=
  if c = chQuote ∨ c = chBackslash ∨ c = 47 then some (Fin.ofNat 0x110000 c)
  else if c = 98 then some 8
  else if c = 102 then some 12
  else if c = 110 then some 10
  else if c = 114 then some 13
  else if c = 116 then some 9
  else none

/-- One more character of a string. -/
def push (c : CodePoint) (rest : Option (PyStr × Text)) : Option (PyStr × Text) :=
  rest.map fun (s, rest) => (c :: s, rest)

/-- `scanstring`, from after the opening quote. -/
def scanString : Text → Option (PyStr × Text)
  | [] => none
  | chQuote :: rest => some ([], rest)
  | chBackslash :: chU :: a :: b :: c :: d :: rest =>
    match hexVal4 a b c d with
    | none => none
    | some high =>
      if isHigh high then
        match rest with
        | chBackslash :: chU :: a :: b :: c :: d :: rest' =>
          match hexVal4 a b c d with
          | none => none
          | some low =>
            if isLow low then push (joined high low) (scanString rest')
            else push (Fin.ofNat 0x110000 high)
              (scanString (chBackslash :: chU :: a :: b :: c :: d :: rest'))
        | rest => push (Fin.ofNat 0x110000 high) (scanString rest)
      else push (Fin.ofNat 0x110000 high) (scanString rest)
  | chBackslash :: c :: rest =>
    match unescape c with
    | some c => push c (scanString rest)
    | none => none
  | c :: rest => if c < 32 then none else push (Fin.ofNat 0x110000 c) (scanString rest)

/-- The white space between tokens. -/
def skipWs (t : Text) : Text := t.dropWhile fun c => c = 32 ∨ c = 9 ∨ c = 10 ∨ c = 13

/-- The digits at the front. -/
def spanDigits (t : Text) : Text × Text := (t.takeWhile isDigit, t.dropWhile isDigit)

/-- The integer part of a number, after its sign. -/
def scanInt (t : Text) : Option (Text × Text) :=
  match t with
  | chZero :: rest => some ([chZero], rest)
  | t => if (spanDigits t).1 = [] then none else some (spanDigits t)

/-- A fraction, if one follows. -/
def scanFraction (t : Text) : Text × Text :=
  match t with
  | chDot :: rest =>
    if (spanDigits rest).1 = [] then ([], t)
    else (chDot :: (spanDigits rest).1, (spanDigits rest).2)
  | _ => ([], t)

/-- The sign of an exponent. -/
def scanSign (t : Text) : Text × Text :=
  match t with
  | chPlus :: rest => ([chPlus], rest)
  | chMinus :: rest => ([chMinus], rest)
  | t => ([], t)

/-- An exponent, if one follows. -/
def scanExponent (t : Text) : Text × Text :=
  match t with
  | c :: rest =>
    if c = 101 ∨ c = 69 then
      if (spanDigits (scanSign rest).2).1 = [] then ([], t)
      else (c :: ((scanSign rest).1 ++ (spanDigits (scanSign rest).2).1),
        (spanDigits (scanSign rest).2).2)
    else ([], t)
  | [] => ([], t)

def ofDigits (ds : Text) : ℕ := Nat.ofDigitChars 10 (ds.map Char.ofNat) 0

/-- A number after its sign, which `negative` tells. -/
def scanNumber (negative : Bool) (t : Text) : Option (PyJson F × Text) :=
  match scanInt t with
  | none => none
  | some (whole, rest) =>
    let fraction := scanFraction rest
    let exponent := scanExponent fraction.2
    if fraction.1 = [] ∧ exponent.1 = [] then
      some (.int (if negative then -(ofDigits whole : ℤ) else ofDigits whole), rest)
    else
      some (.float (PyFloat.ofText
        ((if negative then [chMinus] else []) ++ whole ++ fraction.1 ++ exponent.1)), exponent.2)

/-- The rest of a text that begins with `token`. -/
def dropToken (token t : Text) : Option Text :=
  if token.isPrefixOf t then some (t.drop token.length) else none

/-- A constant or a number. -/
def scanScalar (t : Text) : Option (PyJson F × Text) :=
  match dropToken (ascii "null") t with
  | some rest => some (.null, rest)
  | none =>
  match dropToken (ascii "true") t with
  | some rest => some (.bool true, rest)
  | none =>
  match dropToken (ascii "false") t with
  | some rest => some (.bool false, rest)
  | none =>
  match floatConstants.findSome? fun token => (dropToken token t).map fun rest => (token, rest) with
  | some (token, rest) => some (.float (PyFloat.ofText token), rest)
  | none =>
  match t with
  | chMinus :: rest => scanNumber true rest
  | t => scanNumber false t

/-- `dict(pairs)`: the last value of a key, in the place of its first. -/
def setKey {α : Type} (key : PyStr) (value : α) : List (PyStr × α) → List (PyStr × α)
  | [] => [(key, value)]
  | (k, v) :: rest => if k = key then (key, value) :: rest else (k, v) :: setKey key value rest

def pyDict {α : Type} (pairs : List (PyStr × α)) : List (PyStr × α) :=
  pairs.foldl (fun d (key, value) => setKey key value d) []

mutual

/-- `scan_once`. -/
def scanOnce : ℕ → Text → Option (PyJson F × Text)
  | 0, _ => none
  | _, [] => none
  | fuel + 1, c :: rest =>
    if c = chQuote then (scanString rest).map fun (s, rest) => (.str s, rest)
    else if c = chOpenBrace then
      match skipWs rest with
      | [] => none
      | c :: rest =>
        if c = chCloseBrace then some (.obj [], rest)
        else if c = chQuote then
          (scanMembers fuel rest).map fun (members, rest) => (.obj (pyDict members), rest)
        else none
    else if c = chOpenBracket then
      match skipWs rest with
      | [] => none
      | d :: rest' =>
        if d = chCloseBracket then some (.arr [], rest')
        else (scanItems fuel (skipWs rest)).map fun (items, rest) => (.arr items, rest)
    else scanScalar (c :: rest)

/-- The items of an array, up to its closing bracket. -/
def scanItems : ℕ → Text → Option (List (PyJson F) × Text)
  | 0, _ => none
  | fuel + 1, t =>
    match scanOnce fuel t with
    | none => none
    | some (item, rest) =>
      match skipWs rest with
      | [] => none
      | c :: rest =>
        if c = chCloseBracket then some ([item], rest)
        else if c = chComma then
          (scanItems fuel (skipWs rest)).map fun (items, rest) => (item :: items, rest)
        else none

/-- The members of an object, from after the opening quote of a key up to the closing brace. -/
def scanMembers : ℕ → Text → Option (List (PyStr × PyJson F) × Text)
  | 0, _ => none
  | fuel + 1, t =>
    match scanString t with
    | none => none
    | some (key, rest) =>
      match skipWs rest with
      | [] => none
      | c :: rest =>
        if c = chColon then
          match scanOnce fuel (skipWs rest) with
          | none => none
          | some (value, rest) =>
            match skipWs rest with
            | [] => none
            | c :: rest =>
              if c = chCloseBrace then some ([(key, value)], rest)
              else if c = chComma then
                match skipWs rest with
                | [] => none
                | c :: rest =>
                  if c = chQuote then
                    (scanMembers fuel rest).map fun (members, rest) =>
                      ((key, value) :: members, rest)
                  else none
              else none
        else none

end

/-- `json.loads` of a `str`. -/
def loads (t : Text) : Option (PyJson F) :=
  match scanOnce (t.length + 1) (skipWs t) with
  | none => none
  | some (value, rest) => if skipWs rest = [] then some value else none

end AzazelEdge.Lib.Py
