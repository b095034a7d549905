/-
# JSON that is not ASCII

`json.dumps(value, ensure_ascii=False)`: characters stand as they are, but for the quote, the
backslash and the control characters; the separators are `', '` and `': '`.

What is written so is read back as it was (`loads_rawText`), surrogates and all.  Each backslash of
it begins an escape (`paired_rawText`), and none of its characters is below the blank.
-/
import AzazelEdge.Lib.PyRead

namespace AzazelEdge.Lib.Py

variable {F : Type} [PyFloat F]

/-! ## 1. Writing -/

/-- A code point inside quotes. -/
def rawEscape (c : CodePoint) : Text :=
  if c.val = chQuote then [chBackslash, chQuote]
  else if c.val = chBackslash then [chBackslash, chBackslash]
  else if c.val = 8 then [chBackslash, 98]
  else if c.val = 9 then [chBackslash, 116]
  else if c.val = 10 then [chBackslash, 110]
  else if c.val = 12 then [chBackslash, 102]
  else if c.val = 13 then [chBackslash, 114]
  else if c.val < 32 then uEscape c.val
  else [c.val]

def rawQuoted (s : PyStr) : Text := chQuote :: (s.flatMap rawEscape ++ [chQuote])

mutual

/-- `json.dumps(value, ensure_ascii=False)`. -/
def rawText : PyJson F → Text
  | .str s => rawQuoted s
  | .arr [] => [chOpenBracket, chCloseBracket]
  | .arr (item :: items) => chOpenBracket :: (rawText item ++ rawItems items)
  | .obj [] => [chOpenBrace, chCloseBrace]
  | .obj (member :: members) => chOpenBrace :: (rawMember member ++ rawMembers members)
  | .null => text (.null : PyJson F)
  | .bool b => text (.bool b : PyJson F)
  | .int n => text (.int n : PyJson F)
  | .float x => text (.float x)

/-- The items after the first, and the closing bracket. -/
def rawItems : List (PyJson F) → Text
  | [] => [chCloseBracket]
  | item :: items => chComma :: 32 :: (rawText item ++ rawItems items)

def rawMember : PyStr × PyJson F → Text
  | (key, value) => rawQuoted key ++ chColon :: 32 :: rawText value

/-- The members after the first, and the closing brace. -/
def rawMembers : List (PyStr × PyJson F) → Text
  | [] => [chCloseBrace]
  | member :: members => chComma :: 32 :: (rawMember member ++ rawMembers members)

end

/-! ## 2. Values -/

section Values

variable {G : Type}

mutual

/-- The keys of every dict in the value differ. -/
def Distinct : PyJson G → Prop
  | .arr items => DistinctItems items
  | .obj members => (members.map Prod.fst).Nodup ∧ DistinctMembers members
  | _ => True

def DistinctItems : List (PyJson G) → Prop
  | [] => True
  | item :: items => Distinct item ∧ DistinctItems items

def DistinctMembers : List (PyStr × PyJson G) → Prop
  | [] => True
  | member :: members => DistinctMember member ∧ DistinctMembers members

def DistinctMember : PyStr × PyJson G → Prop
  | (_, value) => Distinct value

end

variable (Q : PyStr → Prop)

mutual

/-- Every text in the value, key or not, is such. -/
def AllStr : PyJson G → Prop
  | .str s => Q s
  | .arr items => AllStrItems items
  | .obj members => AllStrMembers members
  | _ => True

def AllStrItems : List (PyJson G) → Prop
  | [] => True
  | item :: items => AllStr item ∧ AllStrItems items

def AllStrMembers : List (PyStr × PyJson G) → Prop
  | [] => True
  | member :: members => AllStrMember member ∧ AllStrMembers members

def AllStrMember : PyStr × PyJson G → Prop
  | (key, value) => Q key ∧ AllStr value

end

variable {Q}

theorem allStrMembers_iff {members : List (PyStr × PyJson G)} :
    AllStrMembers Q members ↔ ∀ member ∈ members, AllStrMember Q member := by
  induction members with
  | nil => simp [AllStrMembers]
  | cons member members ih => rw [AllStrMembers, ih, List.forall_mem_cons]

theorem allStrItems_iff {items : List (PyJson G)} :
    AllStrItems Q items ↔ ∀ item ∈ items, AllStr Q item := by
  induction items with
  | nil => simp [AllStrItems]
  | cons item items ih => rw [AllStrItems, ih, List.forall_mem_cons]

mutual

/-- What holds of every text holds of those in a value. -/
theorem allStr_of_forall (h : ∀ s, Q s) : ∀ v : PyJson G, AllStr Q v
  | .null | .bool _ | .int _ | .float _ => trivial
  | .str s => h s
  | .arr items => allStrItems_of_forall h items
  | .obj members => allStrMembers_of_forall h members

theorem allStrItems_of_forall (h : ∀ s, Q s) : ∀ items : List (PyJson G), AllStrItems Q items
  | [] => trivial
  | item :: items => ⟨allStr_of_forall h item, allStrItems_of_forall h items⟩

theorem allStrMembers_of_forall (h : ∀ s, Q s) :
    ∀ members : List (PyStr × PyJson G), AllStrMembers Q members
  | [] => trivial
  | (key, value) :: members =>
    ⟨⟨h key, allStr_of_forall h value⟩, allStrMembers_of_forall h members⟩

end

theorem distinctItems_str (items : List PyStr) :
    DistinctItems (items.map fun s => (.str s : PyJson G)) := by
  induction items with
  | nil => trivial
  | cons item items ih => exact ⟨trivial, ih⟩

end Values

/-! ## 3. Reading back -/

variable {rest : Text}

theorem scanString_rawEscape (c : CodePoint) (rest : Text) :
    scanString (rawEscape c ++ rest) = push c (scanString rest) := by
  unfold rawEscape
  split_ifs with h₁ h₂ h₃ h₄ h₅ h₆ h₇ h₈
  · rw [← ofNat_val c, h₁]
    exact scanString_short (by decide) (by decide) rest
  · rw [← ofNat_val c, h₂]
    exact scanString_short (by decide) (by decide) rest
  · rw [← ofNat_val c, h₃]
    exact scanString_short (by decide) (by decide) rest
  · rw [← ofNat_val c, h₄]
    exact scanString_short (by decide) (by decide) rest
  · rw [← ofNat_val c, h₅]
    exact scanString_short (by decide) (by decide) rest
  · rw [← ofNat_val c, h₆]
    exact scanString_short (by decide) (by decide) rest
  · rw [← ofNat_val c, h₇]
    exact scanString_short (by decide) (by decide) rest
  · have hhigh : isHigh c.val = false := by
      simp only [isHigh, Bool.and_eq_false_iff, decide_eq_false_iff_not]
      omega
    rw [scanString_uEscape (by omega) hhigh, ofNat_val]
  · rw [List.cons_append, List.nil_append, scanString_plain h₁ h₂ (by omega), ofNat_val]

/-- A string is read back as it was. -/
theorem scanString_raw (s : PyStr) (rest : Text) :
    scanString (s.flatMap rawEscape ++ chQuote :: rest) = some (s, rest) := by
  induction s with
  | nil => rfl
  | cons c s ih =>
    rw [List.flatMap_cons, List.append_assoc, scanString_rawEscape, ih]
    rfl

theorem starts_rawText (v : PyJson F) : Starts (rawText v) := by
  cases v with
  | str s => exact ⟨_, _, rfl, by decide⟩
  | arr items => cases items <;> rw [rawText] <;> exact ⟨_, _, rfl, by decide⟩
  | obj members => cases members <;> rw [rawText] <;> exact ⟨_, _, rfl, by decide⟩
  | null => exact starts_text _
  | bool b => exact starts_text _
  | int n => exact starts_text _
  | float x => exact starts_text _

theorem skipWs_blank (t : Text) : skipWs (32 :: t) = skipWs t := rfl

theorem ends_rawItems (items : List (PyJson F)) (rest : Text) : Ends (rawItems items ++ rest) := by
  cases items <;> rw [rawItems] <;> exact ends_cons (by decide)

mutual

/-- A written value is read back from the front of a text, given fuel for its length. -/
theorem scanOnce_rawText : ∀ (v : PyJson F) (fuel : ℕ) (rest : Text), Distinct v →
    (rawText v).length ≤ fuel → Ends rest → scanOnce fuel (rawText v ++ rest) = some (v, rest)
  | v, 0, rest, _, hfuel, _ => by
    obtain ⟨c, tail, hc, -⟩ := starts_rawText v
    rw [hc] at hfuel
    simp at hfuel
  | .null, fuel + 1, rest, _, hfuel, hrest => scanOnce_text .null (fuel + 1) rest hfuel hrest
  | .bool b, fuel + 1, rest, _, hfuel, hrest => scanOnce_text (.bool b) (fuel + 1) rest hfuel hrest
  | .int n, fuel + 1, rest, _, hfuel, hrest => scanOnce_text (.int n) (fuel + 1) rest hfuel hrest
  | .float x, fuel + 1, rest, _, hfuel, hrest =>
    scanOnce_text (.float x) (fuel + 1) rest hfuel hrest
  | .str s, fuel + 1, rest, _, _, _ => by
    rw [rawText, rawQuoted, List.cons_append, scanOnce, if_pos rfl, List.append_assoc,
      List.singleton_append, scanString_raw]
    rfl
  | .arr [], fuel + 1, rest, _, _, _ => by
    rw [rawText, List.cons_append, scanOnce, if_neg (by decide), if_neg (by decide), if_pos rfl,
      List.cons_append, List.nil_append, skipWs_cons (by decide)]
    rfl
  | .arr (item :: items), fuel + 1, rest, hdistinct, hfuel, _ => by
    have hlength : (rawText item ++ rawItems items).length ≤ fuel := by
      rw [rawText, List.length_cons] at hfuel
      omega
    have hread := scanItems_rawText item items fuel rest hdistinct hlength
    obtain ⟨c, tail, hc, hstarts⟩ := (starts_rawText item).append (rawItems items ++ rest)
    rw [rawText, List.cons_append, scanOnce, if_neg (by decide), if_neg (by decide), if_pos rfl,
      List.append_assoc]
    rw [skipWs_starts ⟨c, tail, hc, hstarts⟩, hread, hc]
    simp only [if_neg hstarts.2.2.2.2, Option.map_some]
  | .obj [], fuel + 1, rest, _, _, _ => by
    rw [rawText, List.cons_append, scanOnce, if_neg (by decide), if_pos rfl, List.cons_append,
      List.nil_append, skipWs_cons (by decide)]
    rfl
  | .obj ((key, value) :: members), fuel + 1, rest, ⟨hkeys, hdistinct⟩, hfuel, _ => by
    have hlength : (rawMember (key, value) ++ rawMembers members).length ≤ fuel := by
      rw [rawText, List.length_cons] at hfuel
      omega
    have hread := scanMembers_rawText key value members fuel rest hdistinct hlength
    rw [rawText, List.cons_append, scanOnce, if_neg (by decide), if_pos rfl, rawMember, rawQuoted,
      List.cons_append, List.cons_append, List.cons_append, skipWs_cons (by decide)]
    simp only [if_neg (show chQuote ≠ chCloseBrace by decide), if_true]
    rw [hread, Option.map_some, pyDict_of_nodup hkeys]

theorem scanItems_rawText : ∀ (item : PyJson F) (items : List (PyJson F)) (fuel : ℕ)
    (rest : Text), DistinctItems (item :: items) → (rawText item ++ rawItems items).length ≤ fuel →
    scanItems fuel (rawText item ++ (rawItems items ++ rest)) = some (item :: items, rest)
  | item, items, 0, rest, _, hfuel => by
    obtain ⟨c, tail, hc, -⟩ := starts_rawText item
    rw [hc] at hfuel
    simp at hfuel
  | item, [], fuel + 1, rest, ⟨hitem, _⟩, hfuel => by
    have hlength : (rawText item).length ≤ fuel := by
      rw [rawItems, List.length_append, List.length_singleton] at hfuel
      omega
    rw [scanItems, scanOnce_rawText item fuel _ hitem hlength (ends_rawItems [] rest)]
    rw [rawItems, List.singleton_append]
    simp only [skipWs_cons (t := rest) (show chCloseBracket ≠ 32 ∧ chCloseBracket ≠ 9 ∧
      chCloseBracket ≠ 10 ∧ chCloseBracket ≠ 13 by decide), if_true]
  | item, next :: items, fuel + 1, rest, ⟨hitem, hitems⟩, hfuel => by
    rw [rawItems, List.length_append, List.length_cons, List.length_cons] at hfuel
    have hread := scanItems_rawText next items fuel rest hitems (by omega)
    rw [scanItems, scanOnce_rawText item fuel _ hitem (by omega) (ends_rawItems _ rest)]
    rw [rawItems, List.cons_append, List.cons_append, List.append_assoc]
    simp only [skipWs_cons (t := 32 :: (rawText next ++ (rawItems items ++ rest)))
      (show chComma ≠ 32 ∧ chComma ≠ 9 ∧ chComma ≠ 10 ∧ chComma ≠ 13 by decide),
      if_neg (show chComma ≠ chCloseBracket by decide), if_true]
    rw [skipWs_blank, skipWs_starts ((starts_rawText next).append _), hread]
    rfl

theorem scanMembers_rawText : ∀ (key : PyStr) (value : PyJson F)
    (members : List (PyStr × PyJson F)) (fuel : ℕ) (rest : Text),
    DistinctMembers ((key, value) :: members) →
    (rawMember (key, value) ++ rawMembers members).length ≤ fuel →
    scanMembers fuel (key.flatMap rawEscape ++ [chQuote] ++ chColon :: 32 :: rawText value ++
        rawMembers members ++ rest) = some ((key, value) :: members, rest)
  | key, value, members, 0, rest, _, hfuel => by
    simp [rawMember, rawQuoted] at hfuel
  | key, value, [], fuel + 1, rest, ⟨hvalue, _⟩, hfuel => by
    rw [rawMember, rawMembers, rawQuoted] at hfuel
    simp only [List.length_append, List.length_cons, List.length_nil] at hfuel
    have hread := scanOnce_rawText value fuel (chCloseBrace :: rest) hvalue (by omega)
      (ends_cons (by decide))
    rw [scanMembers]
    simp only [List.append_assoc, List.cons_append, List.nil_append, scanString_raw]
    rw [skipWs_cons (by decide), rawMembers]
    simp only [if_true, List.singleton_append]
    rw [skipWs_blank, skipWs_starts ((starts_rawText value).append _), hread]
    simp only
    rw [skipWs_cons (by decide)]
    simp only [if_true]
  | key, value, (key', value') :: members, fuel + 1, rest, ⟨hvalue, hmembers⟩, hfuel => by
    rw [rawMembers, List.length_append, List.length_cons, List.length_cons] at hfuel
    have hmember : (rawText value).length + 1 ≤ (rawMember (key, value)).length := by
      simp only [rawMember, rawQuoted, List.length_append, List.length_cons]
      omega
    have hlater := scanMembers_rawText key' value' members fuel rest hmembers (by omega)
    have hread := scanOnce_rawText value fuel
      (chComma :: 32 :: (rawMember (key', value') ++ rawMembers members ++ rest)) hvalue (by omega)
      (ends_cons (by decide))
    rw [scanMembers]
    simp only [List.append_assoc, List.cons_append, List.nil_append,
      scanString_raw] at hread hlater ⊢
    rw [skipWs_cons (by decide), rawMembers]
    simp only [if_true, List.cons_append, List.append_assoc]
    rw [skipWs_blank, skipWs_starts ((starts_rawText value).append _), hread]
    simp only
    rw [skipWs_cons (by decide)]
    simp only [if_neg (show chComma ≠ chCloseBrace by decide), if_true]
    rw [skipWs_blank, rawMember, rawQuoted, List.cons_append, List.cons_append,
      skipWs_cons (by decide)]
    simp only [if_true, List.append_assoc, List.cons_append, List.nil_append]
    rw [hlater]
    rfl

end

/-- **`json.loads` of what `json.dumps` wrote without escapes.** -/
theorem loads_rawText {v : PyJson F} (h : Distinct v) : loads (rawText v) = some v := by
  have hread := scanOnce_rawText v ((rawText v).length + 1) [] h (by omega) ends_nil
  rw [List.append_nil] at hread
  rw [loads, skipWs_starts (starts_rawText v), hread]
  rfl

/-! ## 4. The characters of a text that was written -/

/-- Printable ASCII, or else from the blank on and such. -/
def Shown (R : ℕ → Prop) (t : Text) : Prop := ∀ c ∈ t, 32 ≤ c ∧ (c ≤ 126 ∨ R c)

variable {R : ℕ → Prop} {t t' : Text}

theorem Shown.append (h : Shown R t) (h' : Shown R t') : Shown R (t ++ t') :=
  fun c hc => (List.mem_append.mp hc).elim (h c) (h' c)

theorem Shown.cons {c : ℕ} (hc : 32 ≤ c ∧ c ≤ 126) (h : Shown R t) : Shown R (c :: t) :=
  List.forall_mem_cons.mpr ⟨⟨hc.1, .inl hc.2⟩, h⟩

theorem Printable.shown (h : Printable t) : Shown R t := fun c hc => ⟨(h c hc).1, .inl (h c hc).2⟩

theorem shown_rawEscape {c : CodePoint} (h : R c.val) : Shown R (rawEscape c) := by
  unfold rawEscape
  split_ifs with h₁ h₂ h₃ h₄ h₅ h₆ h₇ h₈
  iterate 7 exact .cons (by decide) (.cons (by decide) printable_nil.shown)
  · exact (printable_uEscape (by omega)).shown
  · intro d hd
    obtain rfl := List.mem_singleton.mp hd
    exact ⟨by omega, .inr h⟩

theorem shown_rawQuoted {s : PyStr} (h : ∀ c ∈ s, R c.val) : Shown R (rawQuoted s) := by
  refine .cons (by decide) (.append (fun c hc => ?_) (.cons (by decide) printable_nil.shown))
  obtain ⟨d, hd, hc⟩ := List.mem_flatMap.mp hc
  exact shown_rawEscape (h d hd) c hc

/-- The characters of a string are such. -/
def StrOf (R : ℕ → Prop) (s : PyStr) : Prop := ∀ c ∈ s, R c.val

mutual

theorem shown_rawText : ∀ v : PyJson F, AllStr (StrOf R) v → Shown R (rawText v)
  | .null, _ => (printable_text (.null : PyJson F)).shown
  | .bool b, _ => (printable_text (.bool b : PyJson F)).shown
  | .int n, _ => (printable_text (.int n : PyJson F)).shown
  | .float x, _ => (printable_text (.float x)).shown
  | .str s, h => shown_rawQuoted h
  | .arr [], _ => .cons (by decide) (.cons (by decide) printable_nil.shown)
  | .arr (item :: items), h => by
    rw [rawText]
    exact .cons (by decide) ((shown_rawText item h.1).append (shown_rawItems items h.2))
  | .obj [], _ => .cons (by decide) (.cons (by decide) printable_nil.shown)
  | .obj ((key, value) :: members), h => by
    rw [rawText, rawMember]
    exact .cons (by decide) (((shown_rawQuoted h.1.1).append (.cons (by decide) (.cons (by decide)
      (shown_rawText value h.1.2)))).append (shown_rawMembers members h.2))

theorem shown_rawItems : ∀ items : List (PyJson F), AllStrItems (StrOf R) items →
    Shown R (rawItems items)
  | [], _ => .cons (by decide) printable_nil.shown
  | item :: items, h => by
    rw [rawItems]
    exact .cons (by decide) (.cons (by decide)
      ((shown_rawText item h.1).append (shown_rawItems items h.2)))

theorem shown_rawMembers : ∀ members : List (PyStr × PyJson F), AllStrMembers (StrOf R) members →
    Shown R (rawMembers members)
  | [], _ => .cons (by decide) printable_nil.shown
  | (key, value) :: members, h => by
    rw [rawMembers, rawMember]
    exact .cons (by decide) (.cons (by decide) (((shown_rawQuoted h.1.1).append
      (.cons (by decide) (.cons (by decide) (shown_rawText value h.1.2)))).append
        (shown_rawMembers members h.2)))

end

/-! ## 5. Escapes -/

/-- A text in which each backslash begins an escape, of a control character if it has a number. -/
inductive Paired : Text → Prop
  | nil : Paired []
  | plain {c : ℕ} {t : Text} : c ≠ chBackslash → Paired t → Paired (c :: t)
  | short {c : ℕ} {d : CodePoint} {t : Text} : unescape c = some d → Paired t →
      Paired (chBackslash :: c :: t)
  | control {a b c d n : ℕ} {t : Text} : hexVal4 a b c d = some n → n < 32 → Paired t →
      Paired (chBackslash :: chU :: a :: b :: c :: d :: t)

theorem Paired.append (h : Paired t) (h' : Paired t') : Paired (t ++ t') := by
  induction h with
  | nil => exact h'
  | plain hc _ ih => exact .plain hc ih
  | short hc _ ih => exact .short hc ih
  | control hn hlt _ ih => exact .control hn hlt ih

theorem paired_of_not_mem (h : chBackslash ∉ t) : Paired t := by
  induction t with
  | nil => exact .nil
  | cons c t ih =>
    rw [List.mem_cons, not_or] at h
    exact .plain (Ne.symm h.1) (ih h.2)

theorem not_mem_digits {ds : Text} (h : ∀ c ∈ ds, isDigit c = true) : chBackslash ∉ ds :=
  fun hmem => absurd (h _ hmem) (by decide)

theorem not_mem_intText (n : ℤ) : chBackslash ∉ intText n := by
  have hdigits := not_mem_digits (digits_natText n.natAbs).2
  unfold intText
  split_ifs
  · exact List.not_mem_cons_of_ne_of_not_mem (by decide) hdigits
  · exact hdigits

theorem not_mem_float (x : F) : chBackslash ∉ PyFloat.repr x := by
  rcases PyFloat.shape x with h | ⟨sign, whole, fraction, exponent, h, hsign, hwhole, hfraction,
    hexponent, -⟩
  · have hconst : ∀ t ∈ floatConstants, chBackslash ∉ t := by decide
    exact hconst _ h
  · have hwhole' : chBackslash ∉ whole := by
      rcases hwhole with rfl | hwhole
      · decide
      · exact not_mem_digits hwhole.1.2
    have hsign' : chBackslash ∉ sign := by
      rcases hsign with rfl | rfl <;> decide
    have hfraction' : chBackslash ∉ fraction := by
      rcases hfraction with rfl | ⟨ds, hds, rfl⟩
      · decide
      · exact List.not_mem_cons_of_ne_of_not_mem (by decide) (not_mem_digits hds.2)
    have hexponent' : chBackslash ∉ exponent := by
      rcases hexponent with rfl | ⟨s, ds, hs, hds, rfl⟩
      · decide
      · have hs' : chBackslash ∉ s := by
          rcases hs with rfl | rfl | rfl <;> decide
        refine List.not_mem_cons_of_ne_of_not_mem (by decide) ?_
        simp [hs', not_mem_digits hds.2]
    rw [h]
    simp [hsign', hwhole', hfraction', hexponent']

theorem paired_rawEscape (c : CodePoint) : Paired (rawEscape c) := by
  unfold rawEscape
  split_ifs with h₁ h₂ h₃ h₄ h₅ h₆ h₇ h₈
  iterate 7 exact .short (d := _) rfl .nil
  · exact .control (hexVal4_hexDigit (by omega)) h₈ .nil
  · exact .plain h₂ .nil

theorem paired_rawQuoted (s : PyStr) : Paired (rawQuoted s) := by
  refine .plain (by decide) (.append ?_ (.plain (by decide) .nil))
  induction s with
  | nil => exact .nil
  | cons c s ih => exact (paired_rawEscape c).append ih

mutual

/-- **Each backslash that is written begins an escape.** -/
theorem paired_rawText : ∀ v : PyJson F, Paired (rawText v)
  | .null => paired_of_not_mem (by rw [rawText, text]; decide)
  | .bool true => paired_of_not_mem (by rw [rawText, text]; decide)
  | .bool false => paired_of_not_mem (by rw [rawText, text]; decide)
  | .int n => paired_of_not_mem (not_mem_intText n)
  | .float x => paired_of_not_mem (not_mem_float x)
  | .str s => paired_rawQuoted s
  | .arr [] => .plain (by decide) (.plain (by decide) .nil)
  | .arr (item :: items) => by
    rw [rawText]
    exact .plain (by decide) ((paired_rawText item).append (paired_rawItems items))
  | .obj [] => .plain (by decide) (.plain (by decide) .nil)
  | .obj ((key, value) :: members) => by
    rw [rawText, rawMember]
    exact .plain (by decide) (((paired_rawQuoted key).append (.plain (by decide)
      (.plain (by decide) (paired_rawText value)))).append (paired_rawMembers members))

theorem paired_rawItems : ∀ items : List (PyJson F), Paired (rawItems items)
  | [] => .plain (by decide) .nil
  | item :: items => by
    rw [rawItems]
    exact .plain (by decide) (.plain (by decide)
      ((paired_rawText item).append (paired_rawItems items)))

theorem paired_rawMembers : ∀ members : List (PyStr × PyJson F), Paired (rawMembers members)
  | [] => .plain (by decide) .nil
  | (key, value) :: members => by
    rw [rawMembers, rawMember]
    exact .plain (by decide) (.plain (by decide) (((paired_rawQuoted key).append (.plain (by decide)
      (.plain (by decide) (paired_rawText value)))).append (paired_rawMembers members)))

end

end AzazelEdge.Lib.Py
