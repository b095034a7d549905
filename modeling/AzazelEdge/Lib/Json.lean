/-
# JSON values

What a JSON parser hands over: `serde_json::Value` on the Rust side, the result of
`json.loads` on the Python side.  An object is its list of members in order; a parser never
yields two members of one name, so `get?` may take the first.  Integers and other numbers
are kept apart, as both parsers keep them apart.
-/
import Mathlib.Data.Rat.Defs
import Mathlib.Algebra.Group.Int.Defs
import Mathlib.Algebra.Group.Nat.Defs

namespace AzazelEdge.Lib

/-- A parsed JSON value. -/
inductive Json where
  | null
  | bool (b : Bool)
  | int (n : ℤ)
  | float (q : ℚ)
  | str (s : String)
  | arr (items : List Json)
  | obj (members : List (String × Json))

namespace Json

/-- `Value::get` with a member name: absent on anything but an object. -/
def get? : Json → String → Option Json
  | obj members, key => members.lookup key
  | _, _ => none

/-- `Value::as_str`. -/
def asStr? : Json → Option String
  | str s => some s
  | _ => none

/-- `Value::as_bool`. -/
def asBool? : Json → Option Bool
  | bool b => some b
  | _ => none

/-- `Value::as_array`. -/
def asArray? : Json → Option (List Json)
  | arr items => some items
  | _ => none

/-- `Value::as_u64`: an integer of the type's range. -/
def asU64? : Json → Option ℕ
  | int n => if 0 ≤ n ∧ n < 2 ^ 64 then some n.toNat else none
  | _ => none

/-- The string member `key`, when there is one. -/
def strAt? (v : Json) (key : String) : Option String := (v.get? key).bind asStr?

@[simp] theorem get?_obj (members : List (String × Json)) (key : String) :
    (obj members).get? key = members.lookup key := rfl

@[simp] theorem asStr?_str (s : String) : (str s).asStr? = some s := rfl

@[simp] theorem asArray?_arr (items : List Json) : (arr items).asArray? = some items := rfl

/-- A natural number below `2 ^ 64` reads back as itself. -/
theorem asU64?_ofNat {n : ℕ} (h : n < 2 ^ 64) : (int n).asU64? = some n := by
  have hb : 0 ≤ (n : ℤ) ∧ (n : ℤ) < 2 ^ 64 := ⟨Int.natCast_nonneg n, by exact_mod_cast h⟩
  simp only [asU64?, if_pos hb, Int.toNat_natCast]

end Json

end AzazelEdge.Lib
