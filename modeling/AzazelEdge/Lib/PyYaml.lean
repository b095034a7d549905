/-
# What a YAML file is loaded as

The values of `yaml.safe_load`, whose dicts may have keys of any scalar: an unquoted `yes` is the
boolean `True`.  `str`, `bool`, `int`, `list` and `dict` of them, and whether `json.dump` can write
them into a file of UTF-8.
-/
import AzazelEdge.Lib.PyNumber

namespace AzazelEdge.Lib.Py

/-- A value of a YAML file; a date, or what else is no number, text or container, is `other`. -/
inductive Yaml (F : Type) where
  | null
  | bool (b : Bool)
  | int (n : ℤ)
  | float (x : F)
  | str (s : PyStr)
  | seq (items : List (Yaml F))
  | map (entries : List (Yaml F × Yaml F))
  | other (text : PyStr)

/-- `repr` of a list or a dict. -/
class YamlRepr (F : Type) where
  repr : Yaml F → PyStr

variable {F : Type} [PyFloat F] [PyConvert F] [YamlRepr F]

/-- `str(value)`. -/
def Yaml.text : Yaml F → PyStr
  | .null => pyStr "None"
  | .bool true => pyStr "True"
  | .bool false => pyStr "False"
  | .int n => ofText (intText n)
  | .float x => PyFloat.str x
  | .str s => s
  | .other s => s
  | value => YamlRepr.repr value

/-- `bool(value)`. -/
def Yaml.truthy : Yaml F → Bool
  | .null => false
  | .bool b => b
  | .int n => n ≠ 0
  | .float x => PyFloat.truthy x
  | .str s => !s.isEmpty
  | .seq items => !items.isEmpty
  | .map entries => !entries.isEmpty
  | .other _ => true

/-- `int(value)`; none when it raises. -/
def Yaml.toInt : Yaml F → Option ℤ
  | .bool b => some b.toInt
  | .int n => some n
  | .float x => PyConvert.intOfFloat x
  | .str s => PyConvert.intOfStr F s
  | _ => none

/-- `list(value)`; none when it raises. -/
def Yaml.list : Yaml F → Option (List (Yaml F))
  | .seq items => some items
  | .map entries => some (entries.map Prod.fst)
  | .str s => some (s.map fun c => .str [c])
  | _ => none

/-- The number that a scalar is equal to, if it is one. -/
def Yaml.number : Yaml F → Option (ℤ ⊕ F)
  | .bool b => some (.inl b.toInt)
  | .int n => some (.inl n)
  | .float x => some (.inr x)
  | _ => none

/-- Two keys are one key of a dict. -/
def Yaml.sameKey : Yaml F → Yaml F → Bool
  | .null, .null => true
  | .str s, .str t => s = t
  | .other s, .other t => s = t
  | a, b =>
    match a.number, b.number with
    | some x, some y => !PyFloat.lt x y && !PyFloat.lt y x
    | _, _ => false

/-- A value that can be a key. -/
def Yaml.hashable : Yaml F → Bool
  | .seq _ => false
  | .map _ => false
  | _ => true

/-- `d[key] = value`. -/
def Yaml.put (key value : Yaml F) : List (Yaml F × Yaml F) → List (Yaml F × Yaml F)
  | [] => [(key, value)]
  | (k, v) :: rest => if k.sameKey key then (k, value) :: rest else (k, v) :: Yaml.put key value rest

/-- One pair of a list of pairs goes into a dict; none when that raises. -/
def Yaml.putPair (entries : List (Yaml F × Yaml F)) (pair : Yaml F) :
    Option (List (Yaml F × Yaml F)) :=
  match pair.list with
  | some [key, value] => if key.hashable then some (Yaml.put key value entries) else none
  | _ => none

/-- `dict(value)`; none when it raises. -/
def Yaml.dict : Yaml F → Option (List (Yaml F × Yaml F))
  | .map entries => some entries
  | value => do (← value.list).foldlM Yaml.putPair []

/-- `d.get(key)` of a dict with texts for keys. -/
def Yaml.get (key : String) : List (Yaml F × Yaml F) → Option (Yaml F)
  | [] => none
  | (.str k, value) :: rest => if k = pyStr key then some value else Yaml.get key rest
  | _ :: rest => Yaml.get key rest

/-- `list(d.get(key) or [])`. -/
def Yaml.listAt (key : String) (entries : List (Yaml F × Yaml F)) : Option (List (Yaml F)) :=
  match Yaml.get key entries with
  | some value => if value.truthy then value.list else some []
  | none => some []

/-- `dict(value or {})`. -/
def Yaml.dictOr (value : Option (Yaml F)) : Option (List (Yaml F × Yaml F)) :=
  match value with
  | some value => if value.truthy then value.dict else some []
  | none => some []

def isSurrogate (c : CodePoint) : Bool := decide (0xD800 ≤ c.val) && decide (c.val ≤ 0xDFFF)

/-- A text that UTF-8 can encode: one without surrogates. -/
def Encodable (s : PyStr) : Prop := ∀ c ∈ s, isSurrogate c = false

instance (s : PyStr) : Decidable (Encodable s) :=
  decidable_of_iff ((s.all fun c => !isSurrogate c) = true) (by simp [Encodable])

/-- `sorted` can compare the keys of a dict. -/
def Yaml.comparable (keys : List (Yaml F)) : Bool :=
  decide (keys.length ≤ 1) || keys.all (fun key => key.number.isSome) ||
    keys.all fun key => key matches .str _

mutual

/-- `json.dump` can write the value, with its keys in order. -/
def Yaml.storable : Yaml F → Bool
  | .str s => decide (Encodable s)
  | .seq items => storableItems items
  | .map entries => Yaml.comparable (entries.map Prod.fst) && storableEntries entries
  | .other _ => false
  | _ => true

def Yaml.storableItems : List (Yaml F) → Bool
  | [] => true
  | item :: items => item.storable && storableItems items

def Yaml.storableEntries : List (Yaml F × Yaml F) → Bool
  | [] => true
  | (key, value) :: entries =>
    key.hashable && key.storable && value.storable && storableEntries entries

end

end AzazelEdge.Lib.Py
