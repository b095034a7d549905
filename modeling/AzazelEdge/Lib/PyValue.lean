/-
# What is written and what is read

`json.dumps` takes more than JSON has: a key of a dict may be a number, a bool or `None`, and is
written as a text.  A hash taken over the value with `sort_keys` is checked against the value read
back, and the two agree when in every dict the order of the keys is that of their texts as they
come back (`Stable`): `sortKeys_settled` and, for the texts, `text_sortKeys`.
-/
import AzazelEdge.Lib.PyRoundTrip

namespace AzazelEdge.Lib.Py

variable {F : Type} [PyFloat F] {α β : Type} {s : PyStr} {key : PyStr}

/-! ## 1. Values to be written -/

/-- A key that `json.dumps` accepts. -/
inductive PyKey (F : Type) where
  | str (s : PyStr)
  | int (n : ℤ)
  | float (x : F)
  | bool (b : Bool)
  | none

/-- A value that `json.dumps` accepts; a tuple is a list. -/
inductive PyValue (F : Type) where
  | none
  | bool (b : Bool)
  | int (n : ℤ)
  | float (x : F)
  | str (s : PyStr)
  | list (items : List (PyValue F))
  | dict (items : List (PyKey F × PyValue F))

def ofText (t : Text) : PyStr := t.map (Fin.ofNat 0x110000)

/-- The text of a key. -/
def keyText : PyKey F → PyStr
  | .str s => s
  | .int n => ofText (intText n)
  | .float x => ofText (PyFloat.repr x)
  | .bool true => pyStr "true"
  | .bool false => pyStr "false"
  | .none => pyStr "null"

/-- The number that a key is, for a comparison. -/
def PyKey.number? : PyKey F → Option (ℤ ⊕ F)
  | .int n => some (.inl n)
  | .bool b => some (.inl (if b then 1 else 0))
  | .float x => some (.inr x)
  | _ => Option.none

/-- `a < b` for two keys of a dict. -/
def rawLt (a b : PyKey F) : Bool :=
  match a, b with
  | .str a, .str b => !keyLe b a
  | a, b =>
    match a.number?, b.number? with
    | some a, some b => PyFloat.lt a b
    | _, _ => false

def PyKey.isStr : PyKey F → Bool
  | .str _ => true
  | _ => false

/-- `sorted` compares these keys without a `TypeError`. -/
def comparable (keys : List (PyKey F)) : Bool :=
  keys.all PyKey.isStr || keys.all (fun k => k.number?.isSome) || keys.length ≤ 1

mutual

/-- `json.dumps(..., sort_keys=True)` raises no `TypeError`. -/
def sortable : PyValue F → Bool
  | .list items => sortableList items
  | .dict items => comparable (items.map Prod.fst) && sortableItems items
  | _ => true

def sortableList : List (PyValue F) → Bool
  | [] => true
  | item :: items => sortable item && sortableList items

def sortableItems : List (PyKey F × PyValue F) → Bool
  | [] => true
  | item :: items => sortableItem item && sortableItems items

def sortableItem : PyKey F × PyValue F → Bool
  | (_, value) => sortable value

end

/-- The items of a dict in the order of their keys. -/
def sortRaw (items : List (PyKey F × α)) : List (PyKey F × α) :=
  items.insertionSort fun a b => rawLt b.1 a.1 = false

/-- The items under the texts of their keys. -/
def named (items : List (PyKey F × α)) : List (PyStr × α) :=
  items.map fun item => (keyText item.1, item.2)

mutual

/-- What `json.dumps` writes down for a value, with `sort_keys` or in the dicts' own order. -/
def written (sorted : Bool) : PyValue F → PyJson F
  | .none => .null
  | .bool b => .bool b
  | .int n => .int n
  | .float x => .float x
  | .str s => .str s
  | .list items => .arr (writtenList sorted items)
  | .dict items =>
    .obj (named (if sorted then sortRaw (writtenItems sorted items) else writtenItems sorted items))

def writtenList (sorted : Bool) : List (PyValue F) → List (PyJson F)
  | [] => []
  | item :: items => written sorted item :: writtenList sorted items

def writtenItems (sorted : Bool) : List (PyKey F × PyValue F) → List (PyKey F × PyJson F)
  | [] => []
  | item :: items => writtenItem sorted item :: writtenItems sorted items

def writtenItem (sorted : Bool) : PyKey F × PyValue F → PyKey F × PyJson F
  | (key, value) => (key, written sorted value)

end

/-- `a < b` for Python strings. -/
def KeyLt (a b : PyStr) : Prop := keyLe b a = false

/-- The text of a key as it is read back. -/
def keyName (k : PyKey F) : PyStr := joinPairs (keyText k)

/-- Two keys compare as their texts do when they are read back, and those differ. -/
def SameOrder (a b : PyKey F) : Prop :=
  KeyLt (keyName a) (keyName b) ∧ rawLt a b = true ∧ rawLt b a = false ∨
    KeyLt (keyName b) (keyName a) ∧ rawLt b a = true ∧ rawLt a b = false

mutual

/-- In every dict, any two keys compare as their texts do. -/
def Stable : PyValue F → Prop
  | .list items => StableList items
  | .dict items => (items.map Prod.fst).Pairwise SameOrder ∧ StableItems items
  | _ => True

def StableList : List (PyValue F) → Prop
  | [] => True
  | item :: items => Stable item ∧ StableList items

def StableItems : List (PyKey F × PyValue F) → Prop
  | [] => True
  | item :: items => StableItem item ∧ StableItems items

def StableItem : PyKey F × PyValue F → Prop
  | (_, value) => Stable value

end

/-! ## 2. Dicts -/

theorem setKey_of_not_mem {value : α} {d : List (PyStr × α)} (h : key ∉ d.map Prod.fst) :
    setKey key value d = d ++ [(key, value)] := by
  induction d with
  | nil => rfl
  | cons item d ih =>
    obtain ⟨k, v⟩ := item
    rw [List.map_cons, List.mem_cons, not_or] at h
    rw [setKey, if_neg (Ne.symm h.1), ih h.2]
    rfl

/-- Pairs of different keys are a dict as they stand. -/
theorem pyDict_of_nodup {pairs : List (PyStr × α)} (h : (pairs.map Prod.fst).Nodup) :
    pyDict pairs = pairs := by
  have hfold : ∀ (pairs d : List (PyStr × α)), ((d ++ pairs).map Prod.fst).Nodup →
      pairs.foldl (fun d item => setKey item.1 item.2 d) d = d ++ pairs := by
    intro pairs
    induction pairs with
    | nil => intro d _; simp
    | cons item pairs ih =>
      intro d hd
      obtain ⟨k, v⟩ := item
      have hk : k ∉ d.map Prod.fst := by
        rw [List.map_append, List.nodup_append] at hd
        exact fun hmem => hd.2.2 k hmem k (by simp) rfl
      rw [List.foldl_cons, setKey_of_not_mem hk, ih]
      · simp
      · simpa using hd
  exact hfold pairs [] h

theorem keyLe_refl (a : PyStr) : keyLe a a = true := by
  induction a with
  | nil => rfl
  | cons c a ih => simp [keyLe, ih]

theorem keyLe_total (a b : PyStr) : keyLe a b = true ∨ keyLe b a = true := by
  induction a generalizing b with
  | nil => exact .inl rfl
  | cons c a ih =>
    cases b with
    | nil => exact .inr rfl
    | cons d b =>
      simp only [keyLe]
      split_ifs <;> first | omega | simp [ih b]

theorem keyLe_trans {a b c : PyStr} (hab : keyLe a b = true) (hbc : keyLe b c = true) :
    keyLe a c = true := by
  induction a generalizing b c with
  | nil => rfl
  | cons x a ih =>
    obtain - | ⟨y, b⟩ := b
    · cases hab
    obtain - | ⟨z, c⟩ := c
    · cases hbc
    simp only [keyLe] at hab hbc ⊢
    split_ifs at hab hbc ⊢ <;> first | rfl | omega | exact ih hab hbc

theorem keyLe_antisymm {a b : PyStr} (hab : keyLe a b = true) (hba : keyLe b a = true) :
    a = b := by
  induction a generalizing b with
  | nil =>
    cases b with
    | nil => rfl
    | cons y b => cases hba
  | cons x a ih =>
    obtain - | ⟨y, b⟩ := b
    · cases hab
    simp only [keyLe] at hab hba
    have hxy : x = y := by
      refine Fin.ext ?_
      split_ifs at hab hba <;> omega
    subst hxy
    rw [if_neg (lt_irrefl _), if_neg (lt_irrefl _)] at hab hba
    rw [ih hab hba]

theorem KeyLt.le {a b : PyStr} (h : KeyLt a b) : keyLe a b = true := by
  rcases keyLe_total a b with hab | hba
  · exact hab
  · rw [KeyLt, hba] at h
    cases h

theorem KeyLt.ne {a b : PyStr} (h : KeyLt a b) : a ≠ b := by
  rintro rfl
  rw [KeyLt, keyLe_refl] at h
  cases h

/-! ## 3. The order a verifier sees -/

omit [PyFloat F] in
theorem settledItems_eq (items : List (PyJson F)) : settledItems items = items.map settled := by
  induction items with
  | nil => rfl
  | cons item items ih => rw [settledItems, ih, List.map_cons]

omit [PyFloat F] in
theorem settledMembers_eq (members : List (PyStr × PyJson F)) :
    settledMembers members = members.map settledMember := by
  induction members with
  | nil => rfl
  | cons member members ih => rw [settledMembers, ih, List.map_cons]

theorem writtenItems_keys (sorted : Bool) (items : List (PyKey F × PyValue F)) :
    (writtenItems sorted items).map Prod.fst = items.map Prod.fst := by
  induction items with
  | nil => rfl
  | cons item items ih => rw [writtenItems, List.map_cons, ih, List.map_cons, writtenItem]

/-- An item as it is read back. -/
def readItem (item : PyKey F × PyJson F) : PyStr × PyJson F := (keyName item.1, settled item.2)

theorem settledMembers_named (items : List (PyKey F × PyJson F)) :
    settledMembers (named items) = items.map readItem := by
  rw [settledMembers_eq, named, List.map_map]
  rfl

theorem readItem_keys (items : List (PyKey F × PyJson F)) :
    (items.map readItem).map Prod.fst = (items.map Prod.fst).map keyName := by
  rw [List.map_map, List.map_map]
  rfl

theorem SameOrder.symm {a b : PyKey F} (h : SameOrder a b) : SameOrder b a := Or.symm h

theorem SameOrder.name_ne {a b : PyKey F} (h : SameOrder a b) : keyName a ≠ keyName b := by
  rcases h with h | h
  · exact h.1.ne
  · exact h.1.ne.symm

theorem rawLt_irrefl (a : PyKey F) : rawLt a a = false := by
  cases a with
  | str s => simp [rawLt, keyLe_refl]
  | int n => exact PyFloat.lt_irrefl _
  | float x => exact PyFloat.lt_irrefl _
  | bool b => exact PyFloat.lt_irrefl _
  | none => rfl

theorem SameOrder.agree {a b : PyKey F} (h : SameOrder a b) :
    rawLt b a = false ↔ keyLe (keyName a) (keyName b) = true := by
  rcases h with ⟨hname, hlt, hgt⟩ | ⟨hname, hlt, hgt⟩
  · rw [hgt, hname.le]
    exact ⟨fun _ => rfl, fun _ => rfl⟩
  · rw [hlt, hname]
    exact ⟨nofun, nofun⟩

theorem names_nodup {keys : List (PyKey F)} (h : keys.Pairwise SameOrder) :
    (keys.map keyName).Nodup :=
  List.pairwise_map.mpr (h.imp SameOrder.name_ne)

/-- **Sorting by the keys and then reading gives the order of the texts.** -/
theorem sortRaw_read {items : List (PyKey F × PyJson F)}
    (h : (items.map Prod.fst).Pairwise SameOrder) :
    (sortRaw items).map readItem =
      (items.map readItem).insertionSort fun a b => keyLe a.1 b.1 = true := by
  refine List.map_insertionSort _ _ _ _ fun a ha b hb => ?_
  have hab : a = b ∨ SameOrder a.1 b.1 :=
    List.Pairwise.forall_of_forall_of_flip (R := fun a b => a = b ∨ SameOrder a.1 b.1)
      (fun _ _ => .inl rfl) ((List.pairwise_map.mp h).imp .inr)
      ((List.pairwise_map.mp h).imp fun h => .inr h.symm) ha hb
  rcases hab with rfl | hab
  · rw [rawLt_irrefl, readItem, keyLe_refl]
    exact ⟨fun _ => rfl, fun _ => rfl⟩
  · exact hab.agree

mutual

/-- **A stable value that is read back and written in the order of its keys is what was written in
the order of its keys, read back.** -/
theorem sortKeys_settled : ∀ v : PyValue F, Stable v →
    sortKeys (settled (written false v)) = settled (written true v)
  | .none, _ => rfl
  | .bool _, _ => rfl
  | .int _, _ => rfl
  | .float _, _ => rfl
  | .str _, _ => rfl
  | .list items, h => by
    rw [written, written, settled, settled, sortKeys, sortItems_settled items h]
  | .dict items, h => by
    have hkeys : ∀ sorted, ((writtenItems sorted items).map Prod.fst).Pairwise SameOrder := by
      intro sorted
      rw [writtenItems_keys]
      exact h.1
    have hnodup : ∀ sorted, (((writtenItems sorted items).map readItem).map Prod.fst).Nodup := by
      intro sorted
      rw [readItem_keys]
      exact names_nodup (hkeys sorted)
    rw [written, written, settled, settled, if_neg (by decide), if_pos rfl, settledMembers_named,
      settledMembers_named, sortRaw_read (hkeys true), pyDict_of_nodup (hnodup false),
      pyDict_of_nodup, sortKeys, sortMembers_settled items h.2]
    exact ((List.perm_insertionSort _ _).map Prod.fst).nodup_iff.mpr (hnodup true)

theorem sortItems_settled : ∀ items : List (PyValue F), StableList items →
    sortItems (settledItems (writtenList false items)) = settledItems (writtenList true items)
  | [], _ => rfl
  | item :: items, h => by
    rw [writtenList, writtenList, settledItems, settledItems, sortItems, sortKeys_settled item h.1,
      sortItems_settled items h.2]

theorem sortMembers_settled : ∀ items : List (PyKey F × PyValue F), StableItems items →
    sortMembers ((writtenItems false items).map readItem) = (writtenItems true items).map readItem
  | [], _ => rfl
  | (key, value) :: items, h => by
    rw [writtenItems, writtenItems, List.map_cons, List.map_cons, sortMembers,
      sortMembers_settled items h.2, writtenItem, writtenItem, readItem, readItem, sortMember,
      sortKeys_settled value h.1]

end

/-! ## 4. Its text -/

/-- A surrogate pair and the code point it stands for are escaped alike. -/
theorem escape_joined {high low : ℕ} (hhigh : isHigh high = true) (hlow : isLow low = true) :
    escape (joined high low) = uEscape high ++ uEscape low := by
  simp only [isHigh, isLow, Bool.and_eq_true, decide_eq_true_eq] at hhigh hlow
  have hval : (joined high low).val = 0x10000 + (high - 0xD800) * 0x400 + (low - 0xDC00) := by
    rw [joined, Fin.val_ofNat, Nat.mod_eq_of_lt]
    omega
  have hfirst : 0xD800 + ((joined high low).val - 0x10000) / 0x400 = high := by omega
  have hsecond : 0xDC00 + ((joined high low).val - 0x10000) % 0x400 = low := by omega
  have hlarge : 0x10000 ≤ (joined high low).val := by omega
  rw [escape, hfirst, hsecond]
  simp only [chQuote, chBackslash]
  rw [if_neg (by omega), if_neg (by omega), if_neg (by omega), if_neg (by omega),
    if_neg (by omega), if_neg (by omega), if_neg (by omega), if_neg (by omega), if_neg (by omega)]

theorem flatMap_joinPairs (s : PyStr) : (joinPairs s).flatMap escape = s.flatMap escape := by
  induction s using joinPairs.induct with
  | case1 high low tail hpair ih =>
    rw [joinPairs, if_pos hpair, List.flatMap_cons, ih, escape_joined hpair.1 hpair.2,
      List.flatMap_cons, List.flatMap_cons, (escape_high hpair.1).1, (escape_low hpair.2).1,
      List.append_assoc]
  | case2 high low tail hno ih =>
    rw [joinPairs, if_neg hno, List.flatMap_cons, ih]
    rfl
  | case3 s hshort => rw [joinPairs.eq_def]; split <;> [exact absurd rfl (hshort _ _ _); rfl]

theorem quoted_joinPairs (s : PyStr) : quoted (joinPairs s) = quoted s := by
  rw [quoted, flatMap_joinPairs, quoted]

theorem textItems_congr {items items' : List (PyJson F)}
    (h : items.map text = items'.map text) : textItems items = textItems items' := by
  induction items generalizing items' with
  | nil =>
    cases items' with
    | nil => rfl
    | cons => cases h
  | cons item items ih =>
    obtain - | ⟨item', items'⟩ := items'
    · cases h
    obtain ⟨hitem, hitems⟩ := List.cons_eq_cons.mp h
    rw [textItems, textItems, hitem, ih hitems]

theorem textMembers_congr {members members' : List (PyStr × PyJson F)}
    (h : members.map textMember = members'.map textMember) :
    textMembers members = textMembers members' := by
  induction members generalizing members' with
  | nil =>
    cases members' with
    | nil => rfl
    | cons => cases h
  | cons member members ih =>
    obtain - | ⟨member', members'⟩ := members'
    · cases h
    obtain ⟨hmember, hmembers⟩ := List.cons_eq_cons.mp h
    rw [textMembers, textMembers, hmember, ih hmembers]

theorem text_arr_congr {items items' : List (PyJson F)} (h : items.map text = items'.map text) :
    text (.arr items) = text (.arr items') := by
  obtain - | ⟨item, items⟩ := items <;> obtain - | ⟨item', items'⟩ := items'
  · rfl
  · cases h
  · cases h
  · obtain ⟨hitem, hitems⟩ := List.cons_eq_cons.mp h
    rw [text, text, hitem, textItems_congr hitems]

theorem text_obj_congr {members members' : List (PyStr × PyJson F)}
    (h : members.map textMember = members'.map textMember) :
    text (.obj members) = text (.obj members') := by
  obtain - | ⟨member, members⟩ := members <;> obtain - | ⟨member', members'⟩ := members'
  · rfl
  · cases h
  · cases h
  · obtain ⟨hmember, hmembers⟩ := List.cons_eq_cons.mp h
    rw [text, text, hmember, textMembers_congr hmembers]

mutual

/-- Reading a stable value back does not change its text. -/
theorem text_settled (sorted : Bool) : ∀ v : PyValue F, Stable v →
    text (settled (written sorted v)) = text (written sorted v)
  | .none, _ => rfl
  | .bool _, _ => rfl
  | .int _, _ => rfl
  | .float _, _ => rfl
  | .str s, _ => by
    rw [written, settled, text, text, quoted_joinPairs]
  | .list items, h => by
    rw [written, settled, settledItems_eq]
    exact text_arr_congr (textItems_settled sorted items h)
  | .dict items, h => by
    have hsorted : (if sorted then sortRaw (writtenItems sorted items)
        else writtenItems sorted items).Perm (writtenItems sorted items) := by
      split
      · exact List.perm_insertionSort _ _
      · exact .refl _
    have hnodup : (((writtenItems sorted items).map readItem).map Prod.fst).Nodup := by
      rw [readItem_keys, writtenItems_keys]
      exact names_nodup h.1
    rw [written, settled, settledMembers_named,
      pyDict_of_nodup ((((hsorted.map readItem).map Prod.fst).nodup_iff).mpr hnodup)]
    refine text_obj_congr ?_
    rw [named, List.map_map, List.map_map]
    exact List.map_congr_left fun item hitem =>
      textMembers_settled sorted items h.2 item (hsorted.mem_iff.mp hitem)

theorem textItems_settled (sorted : Bool) : ∀ items : List (PyValue F), StableList items →
    ((writtenList sorted items).map settled).map text = (writtenList sorted items).map text
  | [], _ => rfl
  | item :: items, h => by
    rw [writtenList, List.map_cons, List.map_cons, List.map_cons, text_settled sorted item h.1,
      textItems_settled sorted items h.2]

theorem textMembers_settled (sorted : Bool) : ∀ items : List (PyKey F × PyValue F),
    StableItems items → ∀ item ∈ writtenItems sorted items,
      textMember (readItem item) = textMember (keyText item.1, item.2)
  | [], _, _, hitem => by cases hitem
  | (key, value) :: items, h, item, hitem => by
    rw [writtenItems, List.mem_cons] at hitem
    rcases hitem with rfl | hitem
    · rw [writtenItem, readItem, textMember, textMember, keyName, quoted_joinPairs,
        text_settled sorted value h.1]
    · exact textMembers_settled sorted items h.2 item hitem

end

/-- **What is written with `sort_keys` over a stable value is what is written with `sort_keys` over
the value read back.** -/
theorem text_sortKeys {v : PyValue F} (h : Stable v) :
    text (sortKeys (settled (written false v))) = text (written true v) := by
  rw [sortKeys_settled v h, text_settled true v h]

end AzazelEdge.Lib.Py
