/-
# Reading a file of JSON lines

What stands between a file and a dict: the bytes decoded, the text cut into lines, a line loaded, a
member looked up, and a member's value taken as `str(value or '')`.

A line that `json.dumps` wrote is printable ASCII (`printable_text`), so decoding it changes nothing
and no line break of `str.splitlines` is inside it.
-/
import AzazelEdge.Lib.Lines
import AzazelEdge.Lib.PyValue

namespace AzazelEdge.Lib.Py

variable {F : Type} [PyFloat F] {α β : Type} {t rest : Text} {key k : PyStr}

/-! ## 1. Dicts -/

/-- `d.get(key)`. -/
def getKey (key : PyStr) : List (PyStr × α) → Option α
  | [] => none
  | (k, v) :: rest => if k = key then some v else getKey key rest

/-- `d.pop(key, None)`, the dict that is left. -/
def popKey (key : PyStr) (d : List (PyStr × α)) : List (PyStr × α) :=
  d.filter fun item => item.1 ≠ key

theorem getKey_setKey (k key : PyStr) (v : α) (d : List (PyStr × α)) :
    getKey key (setKey k v d) = if k = key then some v else getKey key d := by
  induction d with
  | nil => rfl
  | cons item d ih =>
    obtain ⟨k', v'⟩ := item
    rw [setKey]
    by_cases hk : k' = k
    · rw [if_pos hk, getKey, getKey, hk]
      split_ifs <;> rfl
    · rw [if_neg hk, getKey, ih, getKey]
      by_cases hkey : k = key
      · rw [if_pos hkey, if_neg (fun h => hk (h.trans hkey.symm)), if_pos hkey]
      · rw [if_neg hkey, if_neg hkey]

theorem getKey_eq_none {d : List (PyStr × α)} : getKey key d = none ↔ key ∉ d.map Prod.fst := by
  induction d with
  | nil => simp [getKey]
  | cons item d ih =>
    obtain ⟨k, v⟩ := item
    rw [getKey, List.map_cons, List.mem_cons]
    split_ifs with h
    · simp [h]
    · rw [ih]
      simp [Ne.symm h]

theorem getKey_append (d d' : List (PyStr × α)) :
    getKey key (d ++ d') = (getKey key d).or (getKey key d') := by
  induction d with
  | nil => simp [getKey]
  | cons item d ih =>
    obtain ⟨k, v⟩ := item
    rw [List.cons_append, getKey, getKey, ih]
    split_ifs <;> simp

theorem getKey_map (f : α → β) (d : List (PyStr × α)) :
    getKey key (d.map fun item => (item.1, f item.2)) = (getKey key d).map f := by
  induction d with
  | nil => rfl
  | cons item d ih =>
    obtain ⟨k, v⟩ := item
    rw [List.map_cons, getKey, getKey, ih]
    split_ifs <;> rfl

theorem getKey_mem {d : List (PyStr × α)} {v : α} (h : getKey key d = some v) : (key, v) ∈ d := by
  induction d with
  | nil => cases h
  | cons item d ih =>
    obtain ⟨k, w⟩ := item
    rw [getKey] at h
    split_ifs at h with hk
    · rw [hk, Option.some.inj h]
      exact List.mem_cons_self
    · exact List.mem_cons_of_mem _ (ih h)

theorem getKey_of_mem {d : List (PyStr × α)} {v : α} (hd : (d.map Prod.fst).Nodup)
    (h : (key, v) ∈ d) : getKey key d = some v := by
  induction d with
  | nil => cases h
  | cons item d ih =>
    obtain ⟨k, w⟩ := item
    rw [List.map_cons, List.nodup_cons] at hd
    rw [getKey]
    rcases List.mem_cons.mp h with hhead | htail
    · obtain ⟨rfl, rfl⟩ := Prod.mk.inj hhead
      exact if_pos rfl
    · have hk : k ≠ key := by
        rintro rfl
        exact hd.1 (List.mem_map.mpr ⟨_, htail, rfl⟩)
      rw [if_neg hk, ih hd.2 htail]

/-- Every value but the last of a key is lost. -/
theorem getKey_pyDict (pairs : List (PyStr × α)) :
    getKey key (pyDict pairs) = getKey key pairs.reverse := by
  have hfold : ∀ (pairs d : List (PyStr × α)),
      getKey key (pairs.foldl (fun d item => setKey item.1 item.2 d) d) =
        (getKey key pairs.reverse).or (getKey key d) := by
    intro pairs
    induction pairs with
    | nil => intro d; rfl
    | cons item pairs ih =>
      intro d
      rw [List.foldl_cons, ih, getKey_setKey, List.reverse_cons, getKey_append, getKey]
      cases getKey key pairs.reverse <;> split_ifs <;> rfl
  rw [pyDict, hfold]
  simp [getKey]

theorem setKey_keys_nodup {v : α} {d : List (PyStr × α)} (h : (d.map Prod.fst).Nodup) :
    ((setKey k v d).map Prod.fst).Nodup := by
  have hsub : ∀ (d : List (PyStr × α)) (x : PyStr),
      x ∈ (setKey k v d).map Prod.fst → x = k ∨ x ∈ d.map Prod.fst := by
    intro d x
    induction d with
    | nil => simp [setKey]
    | cons item d ih =>
      obtain ⟨k', v'⟩ := item
      rw [setKey]
      split_ifs with hk
      · rw [List.map_cons, List.mem_cons, List.map_cons, List.mem_cons]
        exact fun hx => hx.imp id .inr
      · rw [List.map_cons, List.mem_cons, List.map_cons, List.mem_cons]
        rintro (hx | hx)
        · exact .inr (.inl hx)
        · exact (ih hx).imp id .inr
  induction d with
  | nil => simp [setKey]
  | cons item d ih =>
    obtain ⟨k', v'⟩ := item
    rw [List.map_cons, List.nodup_cons] at h
    rw [setKey]
    split_ifs with hk
    · rw [List.map_cons, List.nodup_cons]
      exact ⟨hk ▸ h.1, h.2⟩
    · rw [List.map_cons, List.nodup_cons]
      exact ⟨fun hmem => (hsub d k' hmem).elim hk h.1, ih h.2⟩

theorem pyDict_keys_nodup (pairs : List (PyStr × α)) : ((pyDict pairs).map Prod.fst).Nodup := by
  have hfold : ∀ (pairs d : List (PyStr × α)), (d.map Prod.fst).Nodup →
      ((pairs.foldl (fun d item => setKey item.1 item.2 d) d).map Prod.fst).Nodup := by
    intro pairs
    induction pairs with
    | nil => exact fun d h => h
    | cons item pairs ih => exact fun d h => ih _ (setKey_keys_nodup h)
  exact hfold pairs [] List.nodup_nil

/-! ## 2. Keys read back -/

/-- The code points of a string. -/
theorem pyStr_val (s : String) : (pyStr s).map Fin.val = s.toList.map Char.toNat := by
  rw [pyStr, List.map_map]
  refine List.map_congr_left fun c _ => ?_
  show c.toNat % 0x110000 = c.toNat
  have := c.valid
  simp only [UInt32.isValidChar, Nat.isValidChar] at this
  exact Nat.mod_eq_of_lt (by show c.val.toNat < 0x110000; omega)

theorem pyStr_inj {s t : String} (h : pyStr s = pyStr t) : s = t := by
  have hcodes := congrArg (List.map Fin.val) h
  rw [pyStr_val, pyStr_val] at hcodes
  exact String.toList_injective (List.map_injective_iff.mpr (fun _ _ => Char.toNat_inj.mp) hcodes)

/-- Two names are one text only if they are one name. -/
@[simp] theorem pyStr_eq_iff {s t : String} : pyStr s = pyStr t ↔ s = t :=
  ⟨pyStr_inj, fun h => by rw [h]⟩

/-- A string has the characters it was made of. -/
theorem mem_pyStr {s : String} {c : CodePoint} :
    c ∈ pyStr s ↔ ∃ d ∈ s.toList, d.toNat = c.val := by
  have hmem : c ∈ pyStr s ↔ c.val ∈ (pyStr s).map Fin.val :=
    ⟨List.mem_map_of_mem, fun h => by
      obtain ⟨d, hd, hval⟩ := List.mem_map.mp h
      exact Fin.ext hval ▸ hd⟩
  rw [hmem, pyStr_val, List.mem_map]

/-- A string without a surrogate or anything beyond them. -/
def Plain (s : PyStr) : Prop := ∀ c ∈ s, c.val < 0xD800

instance (s : PyStr) : Decidable (Plain s) :=
  decidable_of_iff ((s.all fun c => decide (c.val < 0xD800)) = true) (by simp [Plain])

/-- Nothing is joined where there is no high surrogate. -/
theorem joinPairs_of_not_isHigh {s : PyStr} (h : ∀ c ∈ s, isHigh c.val = false) :
    joinPairs s = s := by
  induction s using joinPairs.induct with
  | case1 high low tail hpair ih =>
    have := h high (by simp)
    rw [this] at hpair
    cases hpair.1
  | case2 high low tail hno ih =>
    rw [joinPairs, if_neg hno, ih fun c hc => h c (List.mem_cons_of_mem _ hc)]
  | case3 s hshort => rw [joinPairs.eq_def]; split <;> [exact absurd rfl (hshort _ _ _); rfl]

/-- The characters of a string are no surrogates. -/
@[simp] theorem joinPairs_pyStr (s : String) : joinPairs (pyStr s) = pyStr s := by
  refine joinPairs_of_not_isHigh fun c hc => ?_
  obtain ⟨d, -, hd⟩ := mem_pyStr.mp hc
  have hvalid : d.toNat < 0xD800 ∨ 0xDFFF < d.toNat ∧ d.toNat < 0x110000 := d.valid
  simp only [isHigh, ← hd, Bool.and_eq_false_iff, decide_eq_false_iff_not]
  omega

theorem joinPairs_plain {s : PyStr} (h : Plain s) : joinPairs s = s :=
  joinPairs_of_not_isHigh fun c hc => by
    have := h c hc
    simp only [isHigh, Bool.and_eq_false_iff, decide_eq_false_iff_not]
    omega

/-- A plain text comes only from itself. -/
theorem joinPairs_eq_plain {s : PyStr} (hkey : Plain key) (h : joinPairs s = key) : s = key := by
  induction s using joinPairs.induct generalizing key with
  | case1 high low tail hpair ih =>
    rw [joinPairs, if_pos hpair] at h
    have hval := hkey (joined high low) (h ▸ List.mem_cons_self)
    obtain ⟨hhigh, hlow⟩ := hpair
    simp only [isHigh, isLow, Bool.and_eq_true, decide_eq_true_eq] at hhigh hlow
    rw [joined, Fin.val_ofNat, Nat.mod_eq_of_lt (by omega)] at hval
    omega
  | case2 high low tail hno ih =>
    rw [joinPairs, if_neg hno] at h
    obtain - | ⟨c, key⟩ := key
    · cases h
    obtain ⟨rfl, htail⟩ := List.cons_eq_cons.mp h
    rw [ih (fun c hc => hkey c (List.mem_cons_of_mem _ hc)) htail]
  | case3 s hshort =>
    rw [joinPairs.eq_def] at h
    split at h
    · exact absurd rfl (hshort _ _ _)
    · exact h

theorem joinPairs_eq_iff {s : PyStr} (hkey : Plain key) : joinPairs s = key ↔ s = key :=
  ⟨joinPairs_eq_plain hkey, fun h => h ▸ joinPairs_plain (h ▸ hkey)⟩

/-- A dict whose keys are strings, as a value. -/
def strDict (d : List (PyStr × PyValue F)) : PyValue F :=
  .dict (d.map fun item => (.str item.1, item.2))

/-- The members that come back of a dict whose keys are strings. -/
def readBack (d : List (PyStr × PyValue F)) : List (PyStr × PyJson F) :=
  d.map fun item => (joinPairs item.1, settled (written false item.2))

theorem writtenItems_eq (sorted : Bool) (items : List (PyKey F × PyValue F)) :
    writtenItems sorted items = items.map (writtenItem sorted) := by
  induction items with
  | nil => rfl
  | cons item items ih => rw [writtenItems, ih, List.map_cons]

theorem settled_strDict (d : List (PyStr × PyValue F)) :
    settled (written false (strDict d)) = .obj (pyDict (readBack d)) := by
  rw [strDict, written, if_neg (by decide), settled, settledMembers_named, writtenItems_eq,
    List.map_map, List.map_map]
  rfl

theorem getKey_readBack (hkey : Plain key) (d : List (PyStr × PyValue F)) :
    getKey key (readBack d) = (getKey key d).map fun v => settled (written false v) := by
  induction d with
  | nil => rfl
  | cons item d ih =>
    obtain ⟨k, v⟩ := item
    rw [readBack, List.map_cons, ← readBack, getKey, getKey, ih]
    simp only [joinPairs_eq_iff hkey]
    split_ifs <;> rfl

/-- **A plain key of a dict is read back with the value it had.** -/
theorem getKey_settled {d : List (PyStr × PyValue F)} (hd : (d.map Prod.fst).Nodup)
    (hkey : Plain key) :
    getKey key (pyDict (readBack d)) = (getKey key d).map fun v => settled (written false v) := by
  have hrev : getKey key d.reverse = getKey key d := by
    cases hget : getKey key d with
    | none =>
      rw [getKey_eq_none] at hget ⊢
      simpa using hget
    | some v =>
      refine getKey_of_mem ?_ (List.mem_reverse.mpr (getKey_mem hget))
      rwa [List.map_reverse, List.nodup_reverse]
  rw [getKey_pyDict, readBack, ← List.map_reverse, ← readBack, getKey_readBack hkey, hrev]

/-! ## 3. Reading twice -/

theorem joinPairs_cons_of_not_isHigh {c : CodePoint} (h : isHigh c.val = false) (s : PyStr) :
    joinPairs (c :: s) = c :: joinPairs s := by
  cases s with
  | nil => rfl
  | cons d s => rw [joinPairs, if_neg (by rw [h]; simp)]

theorem joined_large {high low : ℕ} (hhigh : isHigh high = true) (hlow : isLow low = true) :
    0x10000 ≤ (joined high low).val := by
  simp only [isHigh, isLow, Bool.and_eq_true, decide_eq_true_eq] at hhigh hlow
  rw [joined, Fin.val_ofNat, Nat.mod_eq_of_lt] <;> omega

theorem not_surrogate_of_large {n : ℕ} (h : 0x10000 ≤ n) : isHigh n = false ∧ isLow n = false := by
  simp only [isHigh, isLow, Bool.and_eq_false_iff, decide_eq_false_iff_not]
  omega

/-- No low surrogate comes first that did not before. -/
theorem joinPairs_head {c : CodePoint} {s s' : PyStr} (h : joinPairs s = c :: s')
    (hlow : isLow c.val = true) : ∃ s'', s = c :: s'' := by
  obtain - | ⟨a, s⟩ := s
  · cases h
  obtain - | ⟨b, s⟩ := s
  · obtain ⟨rfl, -⟩ := List.cons_eq_cons.mp h
    exact ⟨[], rfl⟩
  rw [joinPairs] at h
  split_ifs at h with hpair
  · obtain ⟨rfl, -⟩ := List.cons_eq_cons.mp h
    have := (not_surrogate_of_large (joined_large hpair.1 hpair.2)).2
    rw [hlow] at this
    cases this
  · obtain ⟨rfl, -⟩ := List.cons_eq_cons.mp h
    exact ⟨_, rfl⟩

/-- Pairs are joined once. -/
theorem joinPairs_joinPairs (s : PyStr) : joinPairs (joinPairs s) = joinPairs s := by
  induction s using joinPairs.induct with
  | case1 high low tail hpair ih =>
    have hlarge := not_surrogate_of_large (joined_large hpair.1 hpair.2)
    rw [joinPairs, if_pos hpair, joinPairs_cons_of_not_isHigh hlarge.1, ih]
  | case2 high low tail hno ih =>
    rw [joinPairs, if_neg hno]
    cases hjoin : joinPairs (low :: tail) with
    | nil => rfl
    | cons c s =>
      rw [hjoin] at ih
      have hno' : ¬ (isHigh high.val = true ∧ isLow c.val = true) := by
        rintro ⟨hhigh, hlow⟩
        obtain ⟨s'', heq⟩ := joinPairs_head hjoin hlow
        obtain ⟨rfl, -⟩ := List.cons_eq_cons.mp heq
        exact hno ⟨hhigh, hlow⟩
      rw [joinPairs, if_neg hno', ih]
  | case3 s hshort =>
    have hself : joinPairs s = s := by
      rw [joinPairs.eq_def]; split <;> [exact absurd rfl (hshort _ _ _); rfl]
    rw [hself, hself]

theorem mem_setKey {v : α} {d : List (PyStr × α)} {item : PyStr × α} (h : item ∈ setKey k v d) :
    item = (k, v) ∨ item ∈ d := by
  induction d with
  | nil => exact .inl (by simpa [setKey] using h)
  | cons item' d ih =>
    obtain ⟨k', v'⟩ := item'
    rw [setKey] at h
    split_ifs at h with hk
    · exact (List.mem_cons.mp h).imp id (List.mem_cons_of_mem _)
    · rcases List.mem_cons.mp h with rfl | h
      · exact .inr List.mem_cons_self
      · exact (ih h).imp id (List.mem_cons_of_mem _)

theorem mem_pyDict {pairs : List (PyStr × α)} {item : PyStr × α} (h : item ∈ pyDict pairs) :
    item ∈ pairs := by
  have hfold : ∀ (pairs d : List (PyStr × α)),
      item ∈ pairs.foldl (fun d item => setKey item.1 item.2 d) d → item ∈ pairs ∨ item ∈ d := by
    intro pairs
    induction pairs with
    | nil => exact fun d h => .inr h
    | cons pair pairs ih =>
      intro d h
      rcases ih _ h with h | h
      · exact .inl (List.mem_cons_of_mem _ h)
      · rcases mem_setKey h with rfl | h
        · exact .inl List.mem_cons_self
        · exact .inr h
  exact (hfold pairs [] h).elim id nofun

section Settled

variable {G : Type}

mutual

/-- **A value that was read back is read back as it is.** -/
theorem settled_settled : ∀ v : PyJson G, settled (settled v) = settled v
  | .null => rfl
  | .bool _ => rfl
  | .int _ => rfl
  | .float _ => rfl
  | .str s => by rw [settled, settled, joinPairs_joinPairs]
  | .arr items => by rw [settled, settled, settledItems_settled items]
  | .obj members => by
    have hsame : settledMembers (pyDict (settledMembers members)) =
        pyDict (settledMembers members) := by
      rw [settledMembers_eq]
      conv_rhs => rw [← List.map_id (pyDict (settledMembers members))]
      exact List.map_congr_left fun member hmember =>
        settledMembers_settled members member (mem_pyDict hmember)
    rw [settled, settled, hsame, pyDict_of_nodup (pyDict_keys_nodup _)]

theorem settledItems_settled : ∀ items : List (PyJson G),
    settledItems (settledItems items) = settledItems items
  | [] => rfl
  | item :: items => by
    rw [settledItems, settledItems, settled_settled item, settledItems_settled items]

theorem settledMembers_settled : ∀ members : List (PyStr × PyJson G),
    ∀ member ∈ settledMembers members, settledMember member = member
  | [] => fun _ h => by cases h
  | (key, value) :: members => fun member h => by
    rw [settledMembers, List.mem_cons] at h
    rcases h with rfl | h
    · rw [settledMember, settledMember, joinPairs_joinPairs, settled_settled value]
    · exact settledMembers_settled members member h

end

end Settled

/-! ## 4. `str(value or '')` -/

/-- `repr` of a list or a dict, which begins with its bracket. -/
class PyRepr (F : Type) where
  repr : PyJson F → PyStr
  arr : ∀ items, (repr (.arr items)).head? = some 91
  obj : ∀ members, (repr (.obj members)).head? = some 123

/-- `bool(value)`. -/
def truthy : PyJson F → Bool
  | .null => false
  | .bool b => b
  | .int n => n ≠ 0
  | .float x => PyFloat.truthy x
  | .str s => s ≠ []
  | .arr items => !items.isEmpty
  | .obj members => !members.isEmpty

/-- `str(value)`. -/
def strOf [PyRepr F] : PyJson F → PyStr
  | .null => pyStr "None"
  | .bool true => pyStr "True"
  | .bool false => pyStr "False"
  | .int n => ofText (intText n)
  | .float x => PyFloat.str x
  | .str s => s
  | value => PyRepr.repr value

/-- `str(value or '')`. -/
def strOr [PyRepr F] (value : Option (PyJson F)) : PyStr :=
  match value with
  | some value => if truthy value then strOf value else []
  | none => []

@[simp] theorem strOr_none [PyRepr F] : strOr (none : Option (PyJson F)) = [] := rfl

@[simp] theorem strOr_str [PyRepr F] (s : PyStr) : strOr (some (.str s : PyJson F)) = s := by
  unfold strOr truthy strOf
  cases s <;> rfl

/-! ## 5. Bytes -/

def isCont (b : ℕ) : Bool := decide (0x80 ≤ b) && decide (b ≤ 0xBF)

/-- Decoding as UTF-8; `surrogatepass` lets an encoded surrogate through. -/
def decodeUtf8 (surrogatepass : Bool) : Text → Option Text
  | [] => some []
  | a :: rest =>
    if a < 0x80 then (decodeUtf8 surrogatepass rest).map (a :: ·)
    else match rest with
    | [] => none
    | b :: rest =>
      if 0xC2 ≤ a ∧ a ≤ 0xDF then
        if isCont b then
          (decodeUtf8 surrogatepass rest).map (((a - 0xC0) * 64 + (b - 0x80)) :: ·)
        else none
      else match rest with
      | [] => none
      | c :: rest =>
        if 0xE0 ≤ a ∧ a ≤ 0xEF then
          if isCont b ∧ isCont c ∧ (a = 0xE0 → 0xA0 ≤ b) ∧
              (a = 0xED → b ≤ 0x9F ∨ surrogatepass = true) then
            (decodeUtf8 surrogatepass rest).map
              (((a - 0xE0) * 4096 + (b - 0x80) * 64 + (c - 0x80)) :: ·)
          else none
        else match rest with
        | [] => none
        | d :: rest =>
          if 0xF0 ≤ a ∧ a ≤ 0xF4 ∧ isCont b ∧ isCont c ∧ isCont d ∧ (a = 0xF0 → 0x90 ≤ b) ∧
              (a = 0xF4 → b ≤ 0x8F) then
            (decodeUtf8 surrogatepass rest).map
              (((a - 0xF0) * 262144 + (b - 0x80) * 4096 + (c - 0x80) * 64 + (d - 0x80)) :: ·)
          else none

/-- `json.detect_encoding` sees UTF-16 or UTF-32. -/
def isWide : Text → Bool
  | 0xFE :: 0xFF :: _ | 0xFF :: 0xFE :: _ => true
  | 0x00 :: 0x00 :: 0xFE :: 0xFF :: _ => true
  | a :: b :: _ :: _ :: _ => a = 0 || b = 0
  | [a, b] => a = 0 || b = 0
  | _ => false

/-- The decoder that `utf-8-sig` is: a byte order mark is dropped. -/
def dropMark : Text → Text
  | 0xEF :: 0xBB :: 0xBF :: rest => rest
  | t => t

/-- `json.loads` of `bytes`.  `wide` decodes UTF-16 and UTF-32. -/
def loadsBytes (wide : Text → Option Text) (bytes : Text) : Option (PyJson F) :=
  ((if isWide bytes then wide bytes else decodeUtf8 true (dropMark bytes))).bind loads

/-- The line breaks of `str.splitlines`, the carriage return before a line feed apart. -/
def isBreak (c : ℕ) : Bool :=
  c ∈ [10, 11, 12, 13, 28, 29, 30, 0x85, 0x2028, 0x2029]

def splitFrom (line : Text) : Text → List Text
  | [] => if line = [] then [] else [line]
  | 13 :: 10 :: rest => line :: splitFrom [] rest
  | c :: rest => if isBreak c then line :: splitFrom [] rest else splitFrom (line ++ [c]) rest

/-- `str.splitlines`. -/
def splitLines (t : Text) : List Text := splitFrom [] t

/-! ## 6. Lines that were written -/

/-- Printable ASCII. -/
def Printable (t : Text) : Prop := ∀ c ∈ t, 32 ≤ c ∧ c ≤ 126

theorem Printable.append {t t' : Text} (h : Printable t) (h' : Printable t') :
    Printable (t ++ t') := fun c hc => (List.mem_append.mp hc).elim (h c) (h' c)

theorem Printable.cons {c : ℕ} {t : Text} (hc : 32 ≤ c ∧ c ≤ 126) (h : Printable t) :
    Printable (c :: t) := fun d hd => (List.mem_cons.mp hd).elim (fun hd => hd ▸ hc) (h d)

theorem printable_nil : Printable [] := fun _ h => by cases h

theorem printable_digits {ds : Text} (h : ∀ c ∈ ds, isDigit c = true) : Printable ds := by
  intro c hc
  have := h c hc
  simp only [isDigit, Bool.and_eq_true, decide_eq_true_eq] at this
  omega

theorem printable_hexDigit : ∀ d, d < 16 → 32 ≤ hexDigit d ∧ hexDigit d ≤ 126 := by decide

theorem printable_uEscape {n : ℕ} (h : n < 65536) : Printable (uEscape n) :=
  .cons (by decide) (.cons (by decide) (.cons (printable_hexDigit _ (by omega))
    (.cons (printable_hexDigit _ (by omega)) (.cons (printable_hexDigit _ (by omega))
      (.cons (printable_hexDigit _ (by omega)) printable_nil)))))

theorem printable_escape (c : CodePoint) : Printable (escape c) := by
  unfold escape
  split_ifs with h₁ h₂ h₃ h₄ h₅ h₆ h₇ h₈ h₉
  iterate 7 exact .cons (by decide) (.cons (by decide) printable_nil)
  · exact .cons h₈ printable_nil
  · exact printable_uEscape h₉
  · have := c.isLt
    exact (printable_uEscape (by omega)).append (printable_uEscape (by omega))

theorem printable_quoted (s : PyStr) : Printable (quoted s) := by
  refine .cons (by decide) (.append (fun c hc => ?_) (.cons (by decide) printable_nil))
  obtain ⟨d, -, hd⟩ := List.mem_flatMap.mp hc
  exact printable_escape d c hd

theorem printable_intText (n : ℤ) : Printable (intText n) := by
  unfold intText
  split_ifs
  · exact .cons (by decide) (printable_digits (digits_natText _).2)
  · exact printable_digits (digits_natText _).2

theorem printable_intPart {t : Text} (h : IntPart t) : Printable t := by
  rcases h with rfl | h
  · exact .cons (by decide) printable_nil
  · exact printable_digits h.1.2

theorem printable_float (x : F) : Printable (PyFloat.repr x) := by
  rcases PyFloat.shape x with h | ⟨sign, whole, fraction, exponent, h, hsign, hwhole, hfraction,
    hexponent, -⟩
  · have hconst : ∀ t ∈ floatConstants, ∀ c ∈ t, 32 ≤ c ∧ c ≤ 126 := by decide
    exact hconst _ h
  · rw [h]
    refine .append (.append (.append ?_ (printable_intPart hwhole)) ?_) ?_
    · rcases hsign with rfl | rfl
      · exact printable_nil
      · exact .cons (by decide) printable_nil
    · rcases hfraction with rfl | ⟨ds, hds, rfl⟩
      · exact printable_nil
      · exact .cons (by decide) (printable_digits hds.2)
    · rcases hexponent with rfl | ⟨s, ds, hs, hds, rfl⟩
      · exact printable_nil
      · refine .cons (by decide) (.append ?_ (printable_digits hds.2))
        rcases hs with rfl | rfl | rfl
        · exact printable_nil
        · exact .cons (by decide) printable_nil
        · exact .cons (by decide) printable_nil

mutual

/-- **What `json.dumps` writes is printable ASCII.** -/
theorem printable_text : ∀ v : PyJson F, Printable (text v)
  | .null => by rw [text, ascii_null]; unfold Printable; decide
  | .bool true => by rw [text, ascii_true]; unfold Printable; decide
  | .bool false => by rw [text, ascii_false]; unfold Printable; decide
  | .int n => printable_intText n
  | .float x => printable_float x
  | .str s => printable_quoted s
  | .arr [] => .cons (by decide) (.cons (by decide) printable_nil)
  | .arr (item :: items) => by
    rw [text]
    exact .cons (by decide) ((printable_text item).append (printable_textItems items))
  | .obj [] => .cons (by decide) (.cons (by decide) printable_nil)
  | .obj ((key, value) :: members) => by
    rw [text, textMember]
    exact .cons (by decide) (((printable_quoted key).append
      (.cons (by decide) (printable_text value))).append (printable_textMembers members))

theorem printable_textItems : ∀ items : List (PyJson F), Printable (textItems items)
  | [] => .cons (by decide) printable_nil
  | item :: items => by
    rw [textItems]
    exact .cons (by decide) ((printable_text item).append (printable_textItems items))

theorem printable_textMembers : ∀ members : List (PyStr × PyJson F),
    Printable (textMembers members)
  | [] => .cons (by decide) printable_nil
  | (key, value) :: members => by
    rw [textMembers, textMember]
    exact .cons (by decide) (((printable_quoted key).append
      (.cons (by decide) (printable_text value))).append (printable_textMembers members))

end

theorem decodeUtf8_ascii (surrogatepass : Bool) (h : ∀ c ∈ t, c < 0x80) :
    decodeUtf8 surrogatepass t = some t := by
  induction t with
  | nil => rfl
  | cons c t ih =>
    rw [decodeUtf8.eq_def]
    simp only [if_pos (h c List.mem_cons_self), ih fun d hd => h d (List.mem_cons_of_mem _ hd),
      Option.map_some]

theorem Printable.no_newline (h : Printable t) : 10 ∉ t := fun hmem => by
  have := h 10 hmem
  omega

theorem splitFrom_line (h : Printable t) (line : Text) :
    splitFrom line (t ++ 10 :: rest) = (line ++ t) :: splitFrom [] rest := by
  induction t generalizing line with
  | nil => rw [List.append_nil, List.nil_append, splitFrom.eq_def]; simp [isBreak]
  | cons c t ih =>
    have hc := h c List.mem_cons_self
    have hbreak : isBreak c = false := by
      simp only [isBreak, List.mem_cons, List.not_mem_nil, or_false, decide_eq_false_iff_not]
      omega
    rw [List.cons_append, splitFrom.eq_def]
    split
    · rename_i heq
      cases heq
    · rename_i heq
      injection heq with hc13
      omega
    · rename_i heq
      obtain ⟨rfl, rfl⟩ := List.cons_eq_cons.mp heq
      rw [hbreak, if_neg (by decide), ih (fun d hd => h d (List.mem_cons_of_mem _ hd)),
        List.append_assoc]
      rfl

/-- **A file of printable lines is cut into those lines.** -/
theorem splitLines_join {lines : List Text} (h : ∀ line ∈ lines, Printable line) :
    splitLines (lines.flatMap (· ++ [10])) = lines := by
  induction lines with
  | nil => rfl
  | cons line lines ih =>
    rw [splitLines, List.flatMap_cons, List.append_assoc, List.cons_append, List.nil_append,
      splitFrom_line (h line List.mem_cons_self) []]
    have hlines := ih fun line hl => h line (List.mem_cons_of_mem _ hl)
    rw [splitLines] at hlines
    rw [hlines, List.nil_append]

/-- Bytes that are ASCII and begin with a brace are no other encoding. -/
theorem loadsBytes_ascii (wide : Text → Option Text) {d : ℕ} {tail : Text}
    (hascii : ∀ c ∈ (123 :: d :: tail : Text), c < 0x80) (hd : d ≠ 0) :
    loadsBytes wide (123 :: d :: tail) = (loads (123 :: d :: tail) : Option (PyJson F)) := by
  have hwide : isWide (123 :: d :: tail) = false := by
    have hlow := hascii d (by simp)
    rw [isWide.eq_def]
    split <;> rename_i heq <;> simp_all <;> omega
  have hmark : dropMark (123 :: d :: tail) = 123 :: d :: tail := by
    rw [dropMark.eq_def]
    split
    · rename_i heq
      injection heq with h
      omega
    · rfl
  rw [loadsBytes, hwide, if_neg (by decide), hmark, decodeUtf8_ascii true hascii, Option.bind_some]

theorem text_brace (members : List (PyStr × PyJson F)) :
    ∃ d tail, text (.obj members) = 123 :: d :: tail ∧ 32 ≤ d ∧ d ≤ 126 := by
  have hprint := printable_text (.obj members)
  obtain ⟨d, tail, htext⟩ : ∃ d tail, text (.obj members) = 123 :: d :: tail := by
    obtain - | ⟨⟨key, value⟩, members⟩ := members
    · exact ⟨_, _, rfl⟩
    · exact ⟨_, _, rfl⟩
  exact ⟨d, tail, htext, hprint d (by rw [htext]; simp)⟩

/-- **The bytes of a written dict load as the dict.** -/
theorem loadsBytes_text (wide : Text → Option Text) {members : List (PyStr × PyJson F)} :
    loadsBytes wide (text (.obj members)) = some (settled (.obj members)) := by
  have hprint := printable_text (.obj members)
  have hload := loads_text (.obj members)
  obtain ⟨d, tail, htext, hd⟩ := text_brace members
  rw [htext] at hprint hload ⊢
  rw [loadsBytes_ascii wide (fun c hc => by have := hprint c hc; omega) (by omega), hload]

theorem loads_text_newline (v : PyJson F) : loads (text v ++ [10]) = some (settled v) := by
  have hread := scanOnce_text v ((text v ++ [10]).length + 1) [10] (by simp; omega)
    (ends_cons (by decide))
  rw [loads, skipWs_starts ((starts_text v).append _), hread]
  rfl

/-- So do they with the newline after them. -/
theorem loadsBytes_text_newline (wide : Text → Option Text) {members : List (PyStr × PyJson F)} :
    loadsBytes wide (text (.obj members) ++ [10]) = some (settled (.obj members)) := by
  have hprint := printable_text (.obj members)
  have hload := loads_text_newline (.obj members)
  obtain ⟨d, tail, htext, hd⟩ := text_brace members
  rw [htext] at hprint hload ⊢
  rw [List.cons_append, List.cons_append] at hload ⊢
  refine (loadsBytes_ascii wide (fun c hc => ?_) (by omega)).trans hload
  rw [← List.cons_append, ← List.cons_append] at hc
  rcases List.mem_append.mp hc with hc | hc
  · have := hprint c hc
    omega
  · rw [List.mem_singleton.mp hc]
    decide

/-! ## 7. Values whose only float is `nan` -/

/-- The float that is not a number. -/
inductive NaN where
  | nan
  deriving DecidableEq

/-- The number that two keys are compared by. -/
def NaN.lt : ℤ ⊕ NaN → ℤ ⊕ NaN → Bool
  | .inl a, .inl b => a < b
  | _, _ => false

instance : PyFloat NaN where
  repr _ := ascii "NaN"
  ofText _ := .nan
  lt := NaN.lt
  str _ := pyStr "nan"
  truthy _ := true
  lt_irrefl
    | .inl a => by simp [NaN.lt]
    | .inr _ => rfl
  shape _ := .inl (by decide)
  ofText_repr _ := rfl

instance : PyRepr NaN where
  repr
    | .arr _ => [91]
    | _ => [123]
  arr _ := rfl
  obj _ := rfl

end AzazelEdge.Lib.Py
