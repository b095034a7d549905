/-
# The chain the Rust core writes

`audit_chain.rs`: its canonical JSON, the head of a chain file, and `append`.

`serde_json` writes the members of an object in the order of its sorted map, escapes what JSON must
escape, and leaves the rest as it is; the module then rewrites what is not ASCII.  The result is
Python's `json.dumps` text of the same value (`canonicalText_eq`), and a string of Rust has no
surrogates, so reading it back loses nothing (`canonical_json_reads_back`).

How `serde_json` writes a float and how it parses are left open.
-/
import AzazelEdge.Lib.Json
import AzazelEdge.Audit.Windows
import AzazelEdge.Audit.Verified

namespace AzazelEdge.Audit

open AzazelEdge.Lib AzazelEdge.Lib.Py HashChain

/-! ## 1. Canonical JSON -/

/-- `serde_json::Map`: a map sorted by its keys. -/
abbrev Map := List (String × Json)

mutual

/-- `contains_float`. -/
def containsFloat : Json → Bool
  | .float _ => true
  | .arr items => anyFloat items
  | .obj members => anyMemberFloat members
  | _ => false

def anyFloat : List Json → Bool
  | [] => false
  | item :: items => containsFloat item || anyFloat items

def anyMemberFloat : List (String × Json) → Bool
  | [] => false
  | member :: members => memberFloat member || anyMemberFloat members

def memberFloat : String × Json → Bool
  | (_, value) => containsFloat value

end

/-- A character as `serde_json` writes it inside quotes. -/
def serdeEscape (c : ℕ) : Text :=
  if c = chQuote then [chBackslash, chQuote]
  else if c = chBackslash then [chBackslash, chBackslash]
  else if c = 8 then [chBackslash, 98]
  else if c = 9 then [chBackslash, 116]
  else if c = 10 then [chBackslash, 110]
  else if c = 12 then [chBackslash, 102]
  else if c = 13 then [chBackslash, 114]
  else if c < 32 then uEscape c
  else [c]

def serdeString (s : String) : Text :=
  chQuote :: ((s.toList.map Char.toNat).flatMap serdeEscape ++ [chQuote])

section Text

variable (ryu : ℚ → Text)

mutual

/-- `serde_json::to_string`; `ryu` writes a float. -/
def serdeText : Json → Text
  | .null => ascii "null"
  | .bool true => ascii "true"
  | .bool false => ascii "false"
  | .int n => intText n
  | .float q => ryu q
  | .str s => serdeString s
  | .arr [] => [chOpenBracket, chCloseBracket]
  | .arr (item :: items) => chOpenBracket :: (serdeText item ++ serdeItems items)
  | .obj [] => [chOpenBrace, chCloseBrace]
  | .obj (member :: members) => chOpenBrace :: (serdeMember member ++ serdeMembers members)

def serdeItems : List Json → Text
  | [] => [chCloseBracket]
  | item :: items => chComma :: (serdeText item ++ serdeItems items)

def serdeMember : String × Json → Text
  | (key, value) => serdeString key ++ chColon :: serdeText value

def serdeMembers : List (String × Json) → Text
  | [] => [chCloseBrace]
  | member :: members => chComma :: (serdeMember member ++ serdeMembers members)

end

/-- DEL and everything above it, as UTF-16 code units. -/
def asciiEscape (c : ℕ) : Text :=
  if c < 0x7f then [c]
  else if c < 0x10000 then uEscape c
  else uEscape (0xD800 + (c - 0x10000) / 0x400) ++ uEscape (0xDC00 + (c - 0x10000) % 0x400)

def canonicalText (value : Json) : Text := (serdeText ryu value).flatMap asciiEscape

/-- `canonical_json`. -/
def canonicalJson (value : Json) : Except String Text :=
  if containsFloat value then .error "audit record must not carry floats"
  else .ok (canonicalText ryu value)

end Text

/-! ## 2. Appending -/

/-- `Map::insert`. -/
def mapInsert (key : String) (value : Json) : Map → Map
  | [] => [(key, value)]
  | (k, v) :: rest =>
    if k = key then (key, value) :: rest
    else if keyLe (pyStr k) (pyStr key) then (k, v) :: mapInsert key value rest
    else (key, value) :: (k, v) :: rest

/-- `HEAD_WINDOW`. -/
def headWindow : ℕ := 64 * 1024

/-- `ChainHead`. -/
structure ChainHead where
  prev : String
  tornTail : Bool

/-- `sha256_hex` of a text, as a string. -/
def sha256String (t : Text) : String := String.ofList ((Sha256.sha256Hex t).map Char.ofNat)

section Append

variable (ryu : ℚ → Text) (fromSlice : Text → Option Json)

/-- `read_chain_head`. -/
def readChainHead (file : Option Text) : ChainHead :=
  match file with
  | none => ⟨"", false⟩
  | some bytes =>
    let start := bytes.length - headWindow
    let start := if nl ∈ dropNewline (bytes.drop start) then start else 0
    let last := lineTail nl (dropNewline (bytes.drop start))
    { prev :=
        if last = [] then ""
        else ((fromSlice last).bind fun v => v.strAt? "chain_hash").getD ""
      tornTail := bytes ≠ [] && bytes.getLast? ≠ some nl }

/-- `append` to a regular file of a directory that can be written and synced: the file it leaves and
the record it returns. -/
def append (file : Option Text) (fields : Map) : Except String (Text × Json) :=
  if (fields.lookup "chain_prev").isSome || (fields.lookup "chain_hash").isSome then
    .error "audit record must not set its own chain fields"
  else do
    let head := readChainHead fromSlice file
    let record := mapInsert "chain_prev" (.str head.prev) fields
    let body ← canonicalJson ryu (.obj record)
    let written := Json.obj (mapInsert "chain_hash" (.str (sha256String body)) record)
    let line ← canonicalJson ryu written
    return (file.getD [] ++ ((if head.tornTail then [nl] else []) ++ line ++ [nl]), written)

end Append

/-! ## 3. Values as Python sees them -/

variable {F : Type} [PyFloat F]

mutual

/-- The value for `json.dumps`. -/
def toPy : Json → PyValue F
  | .null => .none
  | .bool b => .bool b
  | .int n => .int n
  | .float _ => .none
  | .str s => .str (pyStr s)
  | .arr items => .list (toPyItems items)
  | .obj members => .dict (toPyMembers members)

def toPyItems : List Json → List (PyValue F)
  | [] => []
  | item :: items => toPy item :: toPyItems items

def toPyMembers : List (String × Json) → List (PyKey F × PyValue F)
  | [] => []
  | member :: members => toPyMember member :: toPyMembers members

def toPyMember : String × Json → PyKey F × PyValue F
  | (key, value) => (.str (pyStr key), toPy value)

end

/-- The keys of a sorted map. -/
def KeysSorted (members : Map) : Prop :=
  (members.map Prod.fst).Pairwise fun a b => KeyLt (pyStr a) (pyStr b)

mutual

/-- A `Value` of Rust: integers of `i64` or `u64`, and maps sorted by their keys. -/
def IsValue : Json → Prop
  | .int n => -2 ^ 63 ≤ n ∧ n < 2 ^ 64
  | .arr items => AreValues items
  | .obj members => KeysSorted members ∧ AreMembers members
  | _ => True

def AreValues : List Json → Prop
  | [] => True
  | item :: items => IsValue item ∧ AreValues items

def AreMembers : List (String × Json) → Prop
  | [] => True
  | member :: members => IsMember member ∧ AreMembers members

def IsMember : String × Json → Prop
  | (_, value) => IsValue value

end

mutual

/-- How many containers are nested in one another. -/
def depth : Json → ℕ
  | .arr items => depthItems items + 1
  | .obj members => depthMembers members + 1
  | _ => 0

def depthItems : List Json → ℕ
  | [] => 0
  | item :: items => max (depth item) (depthItems items)

def depthMembers : List (String × Json) → ℕ
  | [] => 0
  | member :: members => max (depthMember member) (depthMembers members)

def depthMember : String × Json → ℕ
  | (_, value) => depth value

end

/-! ## 4. One text -/

/-- A string of Rust has no surrogates. -/
theorem not_isHigh_pyStr {s : String} : ∀ c ∈ pyStr s, isHigh c.val = false := by
  intro c hc
  have hval : c.val ∈ s.toList.map Char.toNat := pyStr_val s ▸ List.mem_map_of_mem hc
  obtain ⟨d, -, hd⟩ := List.mem_map.mp hval
  have := d.valid
  simp only [UInt32.isValidChar, Nat.isValidChar] at this
  have hnat : d.toNat = d.val.toNat := rfl
  simp only [isHigh, Bool.and_eq_false_iff, decide_eq_false_iff_not]
  omega

theorem joinPairs_pyStr (s : String) : joinPairs (pyStr s) = pyStr s :=
  joinPairs_of_not_isHigh not_isHigh_pyStr

theorem asciiEscape_small {t : Text} (h : ∀ c ∈ t, c < 0x7f) : t.flatMap asciiEscape = t := by
  induction t with
  | nil => rfl
  | cons c t ih =>
    rw [List.flatMap_cons, asciiEscape, if_pos (h c List.mem_cons_self),
      ih fun d hd => h d (List.mem_cons_of_mem _ hd)]
    rfl

theorem asciiEscape_uEscape {n : ℕ} (h : n < 65536) : (uEscape n).flatMap asciiEscape = uEscape n := by
  have hdigit : ∀ d, d < 16 → hexDigit d < 0x7f := by decide
  refine asciiEscape_small fun c hc => ?_
  simp only [uEscape, List.mem_cons, List.not_mem_nil, or_false] at hc
  rcases hc with rfl | rfl | rfl | rfl | rfl | rfl
  · decide
  · decide
  all_goals exact hdigit _ (by omega)

/-- **The two escapes of a character are Python's.** -/
theorem serdeEscape_ascii (c : CodePoint) : (serdeEscape c.val).flatMap asciiEscape = escape c := by
  unfold serdeEscape escape
  split_ifs with h₁ h₂ h₃ h₄ h₅ h₆ h₇ h₈ h₉ h₁₀ h₁₁ h₁₂ <;>
    first
      | rfl
      | omega
      | exact asciiEscape_uEscape (by omega)
      | (rw [List.flatMap_singleton, asciiEscape, if_pos (by omega)])
      | (rw [List.flatMap_singleton, asciiEscape, if_neg (by omega), if_pos (by omega)])
      | (rw [List.flatMap_singleton, asciiEscape, if_neg (by omega), if_neg (by omega)])

theorem serdeString_ascii (s : String) : (serdeString s).flatMap asciiEscape = quoted (pyStr s) := by
  have hchars : ((s.toList.map Char.toNat).flatMap serdeEscape).flatMap asciiEscape =
      (pyStr s).flatMap escape := by
    rw [← pyStr_val]
    induction pyStr s with
    | nil => rfl
    | cons c cs ih =>
      rw [List.map_cons, List.flatMap_cons, List.flatMap_append, ih, serdeEscape_ascii,
        List.flatMap_cons]
  rw [serdeString, List.flatMap_cons, List.flatMap_append, hchars, quoted]
  rfl

theorem asciiEscape_printable {t : Text} (h : Printable t) : t.flatMap asciiEscape = t :=
  asciiEscape_small fun c hc => by have := h c hc; omega

section Canonical

variable {ryu : ℚ → Text}

mutual

/-- **`canonical_json` is Python's text of the value.** -/
theorem canonicalText_eq : ∀ v : Json, containsFloat v = false →
    canonicalText ryu v = text (written (F := F) false (toPy v))
  | .null, _ => rfl
  | .bool true, _ => rfl
  | .bool false, _ => rfl
  | .int n, _ => by
    rw [canonicalText, serdeText, toPy, written, text]
    exact asciiEscape_printable (printable_intText n)
  | .float _, h => by cases h
  | .str s, _ => by
    rw [canonicalText, serdeText, toPy, written, text, serdeString_ascii]
  | .arr [], _ => rfl
  | .arr (item :: items), h => by
    simp only [containsFloat, anyFloat, Bool.or_eq_false_iff] at h
    rw [canonicalText, serdeText, List.flatMap_cons, List.flatMap_append, ← canonicalText,
      canonicalText_eq item h.1, canonicalItems_eq items h.2]
    rfl
  | .obj [], _ => rfl
  | .obj ((key, value) :: members), h => by
    simp only [containsFloat, anyMemberFloat, memberFloat, Bool.or_eq_false_iff] at h
    rw [canonicalText, serdeText, serdeMember, List.flatMap_cons, List.flatMap_append,
      List.flatMap_append, List.flatMap_cons, ← canonicalText, canonicalText_eq value h.1,
      canonicalMembers_eq members h.2, serdeString_ascii]
    rfl

theorem canonicalItems_eq : ∀ items : List Json, anyFloat items = false →
    (serdeItems ryu items).flatMap asciiEscape =
      textItems (writtenList (F := F) false (toPyItems items))
  | [], _ => rfl
  | item :: items, h => by
    simp only [anyFloat, Bool.or_eq_false_iff] at h
    rw [serdeItems, List.flatMap_cons, List.flatMap_append, ← canonicalText,
      canonicalText_eq item h.1, canonicalItems_eq items h.2]
    rfl

theorem canonicalMembers_eq : ∀ members : List (String × Json), anyMemberFloat members = false →
    (serdeMembers ryu members).flatMap asciiEscape =
      textMembers (named (writtenItems (F := F) false (toPyMembers members)))
  | [], _ => rfl
  | (key, value) :: members, h => by
    simp only [anyMemberFloat, memberFloat, Bool.or_eq_false_iff] at h
    rw [serdeMembers, serdeMember, List.flatMap_cons, List.flatMap_append, List.flatMap_append,
      List.flatMap_cons, ← canonicalText, canonicalText_eq value h.1,
      canonicalMembers_eq members h.2, serdeString_ascii]
    rfl

end

end Canonical

/-! ## 5. One order -/

omit [PyFloat F] in
theorem toPyMembers_eq (members : List (String × Json)) :
    toPyMembers (F := F) members = members.map toPyMember := by
  induction members with
  | nil => rfl
  | cons member members ih => rw [toPyMembers, ih, List.map_cons]

omit [PyFloat F] in
theorem toPyMembers_keys (members : Map) :
    (toPyMembers (F := F) members).map Prod.fst =
      (members.map Prod.fst).map fun k => PyKey.str (pyStr k) := by
  rw [toPyMembers_eq, List.map_map, List.map_map]
  exact List.map_congr_left fun ⟨_, _⟩ _ => rfl

theorem sameOrder_of_keyLt {a b : String} (h : KeyLt (pyStr a) (pyStr b)) :
    SameOrder (.str (pyStr a) : PyKey F) (.str (pyStr b)) := by
  have hname : ∀ s, keyName (.str (pyStr s) : PyKey F) = pyStr s := joinPairs_pyStr
  refine .inl ⟨by rw [hname, hname]; exact h, ?_, ?_⟩
  · rw [rawLt, h]
    rfl
  · rw [rawLt, h.le]
    rfl

/-- A sorted map is sorted for Python, too. -/
theorem sortRaw_sorted {members : Map} (h : KeysSorted members)
    {items : List (PyKey F × PyJson F)}
    (hkeys : items.map Prod.fst = (members.map Prod.fst).map fun k => PyKey.str (pyStr k)) :
    sortRaw items = items := by
  have hraw : (items.map Prod.fst).Pairwise fun a b => rawLt b a = false := by
    rw [hkeys]
    refine List.pairwise_map.mpr (h.imp fun {a b} hab => ?_)
    rw [rawLt, hab.le]
    rfl
  rw [sortRaw]
  exact (List.pairwise_map.mp hraw).insertionSort_eq

mutual

/-- Nothing moves when the members are sorted. -/
theorem written_sorted : ∀ v : Json, IsValue v →
    written (F := F) true (toPy v) = written false (toPy v)
  | .null, _ => rfl
  | .bool _, _ => rfl
  | .int _, _ => rfl
  | .float _, _ => rfl
  | .str _, _ => rfl
  | .arr items, h => by rw [toPy, written, written, writtenItems_sorted items h]
  | .obj members, h => by
    rw [toPy, written, written, if_pos rfl, if_neg (by decide),
      sortRaw_sorted h.1 (by rw [writtenItems_keys, toPyMembers_keys]),
      writtenMembers_sorted members h.2]

theorem writtenItems_sorted : ∀ items : List Json, AreValues items →
    writtenList (F := F) true (toPyItems items) = writtenList false (toPyItems items)
  | [], _ => rfl
  | item :: items, h => by
    rw [toPyItems, writtenList, writtenList, written_sorted item h.1, writtenItems_sorted items h.2]

theorem writtenMembers_sorted : ∀ members : List (String × Json), AreMembers members →
    writtenItems (F := F) true (toPyMembers members) = writtenItems false (toPyMembers members)
  | [], _ => rfl
  | (key, value) :: members, h => by
    rw [toPyMembers, toPyMember, writtenItems, writtenItems, writtenItem, writtenItem,
      written_sorted value h.1, writtenMembers_sorted members h.2]

end

mutual

theorem stable_toPy : ∀ v : Json, IsValue v → Stable (toPy (F := F) v)
  | .null, _ => trivial
  | .bool _, _ => trivial
  | .int _, _ => trivial
  | .float _, _ => trivial
  | .str _, _ => trivial
  | .arr items, h => by
    rw [toPy, Stable]
    exact stable_items items h
  | .obj members, h => by
    rw [toPy, Stable, toPyMembers_keys]
    exact ⟨List.pairwise_map.mpr (h.1.imp sameOrder_of_keyLt), stable_members members h.2⟩

theorem stable_items : ∀ items : List Json, AreValues items →
    StableList (toPyItems (F := F) items)
  | [], _ => trivial
  | item :: items, h => ⟨stable_toPy item h.1, stable_items items h.2⟩

theorem stable_members : ∀ members : List (String × Json), AreMembers members →
    StableItems (toPyMembers (F := F) members)
  | [], _ => trivial
  | (_, value) :: members, h => ⟨stable_toPy value h.1, stable_members members h.2⟩

end

/-- The value that Python parses from the text. -/
def parsed (F : Type) [PyFloat F] (v : Json) : PyJson F := settled (written false (toPy v))

/-- **What Python parses from the text, it writes as the text.** -/
theorem canonical_json_reads_back {ryu : ℚ → Text} {v : Json} {t : Text} (hvalue : IsValue v)
    (h : canonicalJson ryu v = .ok t) :
    loads t = some (parsed F v) ∧ text (sortKeys (parsed F v)) = t ∧ Printable t := by
  rw [canonicalJson] at h
  split_ifs at h with hfloat
  have hfree : containsFloat v = false := by simpa using hfloat
  cases h
  have htext := (@canonicalText_eq F _ ryu) v hfree
  refine ⟨?_, ?_, ?_⟩
  · rw [htext, loads_text, parsed]
  · rw [parsed, text_sortKeys (stable_toPy v hvalue), written_sorted v hvalue, htext]
  · rw [htext]
    exact printable_text _

end AzazelEdge.Audit
