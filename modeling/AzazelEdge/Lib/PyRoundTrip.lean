/-
# Reading back what `json.dumps` wrote

`json.loads` of a written value is the value, with two reservations that `settled` states: a high
surrogate followed by a low one comes back as one code point, and of several members of one name the
last stays.  Hence two written values of one text are the same up to those (`settled_of_text`).

The string case carries the weight: the character after a high surrogate decides whether the two are
joined, so the induction looks at two characters of the string at a time.
-/
import AzazelEdge.Lib.PyJson

namespace AzazelEdge.Lib.Py

variable {F : Type} [PyFloat F] {s : PyStr} {t rest : Text} {n m : ℕ} {c : CodePoint}

mutual

/-- What comes back of a value. -/
def settled : PyJson F → PyJson F
  | .str s => .str (joinPairs s)
  | .arr items => .arr (settledItems items)
  | .obj members => .obj (pyDict (settledMembers members))
  | value => value

def settledItems : List (PyJson F) → List (PyJson F)
  | [] => []
  | item :: items => settled item :: settledItems items

def settledMembers : List (PyStr × PyJson F) → List (PyStr × PyJson F)
  | [] => []
  | member :: members => settledMember member :: settledMembers members

def settledMember : PyStr × PyJson F → PyStr × PyJson F
  | (key, value) => (joinPairs key, settled value)

end

/-! ## 1. Strings -/

theorem hexVal_hexDigit : ∀ d, d < 16 → hexVal (hexDigit d) = some d := by decide

theorem hexVal4_hexDigit (h : n < 65536) :
    hexVal4 (hexDigit (n / 4096)) (hexDigit (n / 256 % 16)) (hexDigit (n / 16 % 16))
      (hexDigit (n % 16)) = some n := by
  unfold hexVal4
  rw [hexVal_hexDigit _ (by omega), hexVal_hexDigit _ (by omega), hexVal_hexDigit _ (by omega),
    hexVal_hexDigit _ (by omega)]
  simp only [Option.some.injEq]
  omega

/-- An escape that cannot begin a pair. -/
theorem scanString_uEscape (h : n < 65536) (hhigh : isHigh n = false) (rest : Text) :
    scanString (uEscape n ++ rest) = push (Fin.ofNat 0x110000 n) (scanString rest) := by
  simp only [uEscape, List.cons_append, List.nil_append]
  rw [scanString]
  simp only [hexVal4_hexDigit h, hhigh, Bool.false_eq_true, if_false]

/-- A pair. -/
theorem scanString_pair (hn : n < 65536) (hm : m < 65536) (hhigh : isHigh n = true)
    (hlow : isLow m = true) (rest : Text) :
    scanString (uEscape n ++ (uEscape m ++ rest)) = push (joined n m) (scanString rest) := by
  simp only [uEscape, List.cons_append, List.nil_append]
  rw [scanString]
  simp only [hexVal4_hexDigit hn, hexVal4_hexDigit hm, hhigh, hlow, if_true]

/-- What follows does not complete a pair. -/
inductive NoLow : Text → Prop
  | escape (m : ℕ) (rest : Text) (hm : m < 65536) (hlow : isLow m = false) :
      NoLow (uEscape m ++ rest)
  | short (c : ℕ) (rest : Text) (hc : c ≠ chU) : NoLow (chBackslash :: c :: rest)
  | plain (c : ℕ) (rest : Text) (hc : c ≠ chBackslash) : NoLow (c :: rest)

/-- A high surrogate alone. -/
theorem scanString_high (hn : n < 65536) (hhigh : isHigh n = true) (hrest : NoLow rest) :
    scanString (uEscape n ++ rest) = push (Fin.ofNat 0x110000 n) (scanString rest) := by
  cases hrest with
  | escape m rest hm hlow =>
    simp only [uEscape, List.cons_append, List.nil_append]
    rw [scanString]
    simp only [hexVal4_hexDigit hn, hexVal4_hexDigit hm, hhigh, hlow, if_true, Bool.false_eq_true,
      if_false]
  | short c rest hc =>
    simp only [uEscape, List.cons_append, List.nil_append]
    rw [scanString]
    simp only [hexVal4_hexDigit hn, hhigh, if_true]
    split
    · rename_i heq
      exact absurd (List.cons.inj (List.cons.inj heq).2).1 hc
    · rfl
  | plain c rest hc =>
    simp only [uEscape, List.cons_append, List.nil_append]
    rw [scanString]
    simp only [hexVal4_hexDigit hn, hhigh, if_true]
    split
    · rename_i heq
      exact absurd (List.cons.inj heq).1 hc
    · rfl

theorem scanString_plain (hquote : n ≠ chQuote) (hbackslash : n ≠ chBackslash) (hn : 32 ≤ n)
    (rest : Text) : scanString (n :: rest) = push (Fin.ofNat 0x110000 n) (scanString rest) := by
  rw [scanString]
  · rw [if_neg (by omega)]
  · exact hquote
  · intros
    exact absurd ‹_› hbackslash
  · intros
    exact absurd ‹_› hbackslash

theorem scanString_short {c : CodePoint} (hn : unescape n = some c) (hu : n ≠ chU) (rest : Text) :
    scanString (chBackslash :: n :: rest) = push c (scanString rest) := by
  rw [scanString]
  · simp only [hn]
  · intros
    exact absurd ‹_› hu

theorem ofNat_val (c : CodePoint) : Fin.ofNat 0x110000 c.val = c :=
  Fin.ext (Nat.mod_eq_of_lt c.isLt)

/-- The two halves of a code point beyond the first plane make it again. -/
theorem joined_split (h : ¬ c.val < 0x10000) :
    joined (0xD800 + (c.val - 0x10000) / 0x400) (0xDC00 + (c.val - 0x10000) % 0x400) = c := by
  have hc := c.isLt
  rw [joined, ← ofNat_val c]
  refine congrArg _ ?_
  rw [ofNat_val]
  omega

/-- **A character is read back**, whatever follows, unless it is a high surrogate. -/
theorem scanString_escape (hhigh : isHigh c.val = false) (rest : Text) :
    scanString (escape c ++ rest) = push c (scanString rest) := by
  have hc := c.isLt
  unfold escape
  split_ifs with h₁ h₂ h₃ h₄ h₅ h₆ h₇ h₈ h₉
  · rw [← ofNat_val c, h₁]
    exact scanString_short (by decide) (by decide) rest
  · rw [← ofNat_val c, h₂]
    exact scanString_short (by decide) (by decide) rest
  · rw [← ofNat_val c, h₃]
    exact scanString_short (by decide) (by decide) rest
  · rw [← ofNat_val c, h₄]
    exact scanString_short (by decide) (by decide) rest
  · rw [← ofNat_val c, h₅]
    exact scanString_short (by decide) (by decide) rest
  · rw [← ofNat_val c, h₆]
    exact scanString_short (by decide) (by decide) rest
  · rw [← ofNat_val c, h₇]
    exact scanString_short (by decide) (by decide) rest
  · rw [List.cons_append, List.nil_append, scanString_plain h₁ h₂ h₈.1, ofNat_val]
  · rw [scanString_uEscape h₉ hhigh, ofNat_val]
  · rw [List.append_assoc, scanString_pair (by omega) (by omega)]
    · rw [joined_split h₉]
    · simp only [isHigh, Bool.and_eq_true, decide_eq_true_eq]
      omega
    · simp only [isLow, Bool.and_eq_true, decide_eq_true_eq]
      omega

/-- A high surrogate is written as its escape. -/
theorem escape_high (hhigh : isHigh c.val = true) : escape c = uEscape c.val ∧ c.val < 65536 := by
  simp only [isHigh, Bool.and_eq_true, decide_eq_true_eq] at hhigh
  refine ⟨?_, by omega⟩
  unfold escape
  simp only [chQuote, chBackslash]
  split_ifs <;> first | rfl | omega

theorem escape_low (hlow : isLow c.val = true) : escape c = uEscape c.val ∧ c.val < 65536 := by
  simp only [isLow, Bool.and_eq_true, decide_eq_true_eq] at hlow
  refine ⟨?_, by omega⟩
  unfold escape
  simp only [chQuote, chBackslash]
  split_ifs <;> first | rfl | omega

/-- A character that is no low surrogate completes no pair. -/
theorem noLow_escape (hlow : isLow c.val = false) (rest : Text) : NoLow (escape c ++ rest) := by
  have hc := c.isLt
  unfold escape
  split_ifs with h₁ h₂ h₃ h₄ h₅ h₆ h₇ h₈ h₉
  · exact .short _ _ (by decide)
  · exact .short _ _ (by decide)
  · exact .short _ _ (by decide)
  · exact .short _ _ (by decide)
  · exact .short _ _ (by decide)
  · exact .short _ _ (by decide)
  · exact .short _ _ (by decide)
  · exact .plain _ _ h₂
  · exact .escape _ _ h₉ hlow
  · rw [List.append_assoc]
    refine .escape _ _ (by omega) ?_
    simp only [isLow, Bool.and_eq_false_iff, decide_eq_false_iff_not]
    omega

/-- **A string is read back with its surrogate pairs joined.** -/
theorem scanString_flatMap (s : PyStr) (rest : Text) :
    scanString (s.flatMap escape ++ chQuote :: rest) = some (joinPairs s, rest) := by
  induction s using joinPairs.induct with
  | case1 high low tail hpair ih =>
    rw [joinPairs, if_pos hpair, List.flatMap_cons, List.flatMap_cons, List.append_assoc,
      List.append_assoc, (escape_high hpair.1).1, (escape_low hpair.2).1,
      scanString_pair (escape_high hpair.1).2 (escape_low hpair.2).2 hpair.1 hpair.2, ih]
    rfl
  | case2 high low tail hno ih =>
    rw [joinPairs, if_neg hno, List.flatMap_cons, List.append_assoc]
    have hread : scanString (escape high ++ ((low :: tail).flatMap escape ++ chQuote :: rest)) =
        push high (scanString ((low :: tail).flatMap escape ++ chQuote :: rest)) := by
      by_cases hhigh : isHigh high.val = true
      · have hlow : isLow low.val = false := by simpa [hhigh] using hno
        rw [(escape_high hhigh).1, scanString_high (escape_high hhigh).2 hhigh, ofNat_val]
        rw [List.flatMap_cons, List.append_assoc]
        exact noLow_escape hlow _
      · exact scanString_escape (by simpa using hhigh) _
    rw [hread, ih]
    rfl
  | case3 s hshort =>
    match s, hshort with
    | [], _ =>
      rw [joinPairs.eq_def]
      rfl
    | [c], _ =>
      have hread : scanString (escape c ++ chQuote :: rest) = push c (scanString (chQuote :: rest)) := by
        by_cases hhigh : isHigh c.val = true
        · rw [(escape_high hhigh).1, scanString_high (escape_high hhigh).2 hhigh, ofNat_val]
          exact .plain _ _ (by decide)
        · exact scanString_escape (by simpa using hhigh) _
      rw [List.flatMap_cons, List.flatMap_nil, List.append_nil, hread]
      rfl
    | high :: low :: tail, hshort => exact absurd rfl (hshort high low tail)

/-! ## 2. Numbers -/

/-- What follows cannot belong to a number. -/
def Ends (rest : Text) : Prop :=
  ∀ c t, rest = c :: t → isDigit c = false ∧ c ≠ chDot ∧ c ≠ 101 ∧ c ≠ 69

theorem ends_nil : Ends [] := fun _ _ h => by cases h

theorem ends_cons {c : ℕ} {t : Text} (h : isDigit c = false ∧ c ≠ chDot ∧ c ≠ 101 ∧ c ≠ 69) :
    Ends (c :: t) := fun c' t' heq => by
  obtain ⟨rfl, -⟩ := List.cons.inj heq
  exact h

/-- The digits at the front of a text are read off whole. -/
theorem spanDigits_append {ds : Text} (hds : ∀ c ∈ ds, isDigit c = true)
    (hrest : ∀ c t, rest = c :: t → isDigit c = false) : spanDigits (ds ++ rest) = (ds, rest) := by
  unfold spanDigits
  induction ds with
  | nil =>
    cases rest with
    | nil => rfl
    | cons c t => simp [hrest c t rfl]
  | cons d ds ih =>
    have hd := hds d List.mem_cons_self
    have := ih fun c hc => hds c (List.mem_cons_of_mem _ hc)
    simp only [Prod.mk.injEq] at this
    simp [hd, this.1, this.2]

theorem isDigit_of_char {c : Char} (h : c.isDigit = true) : isDigit c.toNat = true := by
  simp only [Char.isDigit, Bool.and_eq_true, decide_eq_true_eq, UInt32.le_iff_toNat_le] at h
  simp only [isDigit, Bool.and_eq_true, decide_eq_true_eq]
  exact ⟨h.1, h.2⟩

theorem digits_natText (n : ℕ) : Digits (natText n) := by
  refine ⟨by simp [natText], fun c hc => ?_⟩
  obtain ⟨d, hd, rfl⟩ := List.mem_map.mp hc
  exact isDigit_of_char (Nat.isDigit_of_mem_toDigits (by decide) (by decide) hd)

/-- A positive number is written without a zero in front. -/
theorem head_toDigits {n : ℕ} (hn : 0 < n) : (Nat.toDigits 10 n).head? ≠ some '0' := by
  induction n using Nat.strongRecOn with
  | ind n ih =>
    by_cases hsmall : n < 10
    · have hdigit : ∀ n, n < 10 → 0 < n → [n.digitChar].head? ≠ some '0' := by decide
      rw [Nat.toDigits_of_lt_base hsmall]
      exact hdigit n hsmall hn
    · rw [Nat.toDigits_of_base_le (by decide) (by omega), List.head?_append]
      have hne : Nat.toDigits 10 (n / 10) ≠ [] := Nat.toDigits_ne_nil
      have hhead := ih (n / 10) (by omega) (by omega)
      cases hd : Nat.toDigits 10 (n / 10) with
      | nil => exact absurd hd hne
      | cons d ds =>
        rw [hd] at hhead
        exact hhead

theorem intPart_natText (n : ℕ) : IntPart (natText n) := by
  by_cases hn : n = 0
  · subst hn
    exact Or.inl rfl
  · refine Or.inr ⟨digits_natText n, fun hhead => head_toDigits (Nat.pos_of_ne_zero hn) ?_⟩
    rw [natText, List.head?_map] at hhead
    obtain ⟨c, hc, hzero⟩ := Option.map_eq_some_iff.mp hhead
    have : c = '0' := by
      rw [← Char.ofNat_toNat c, hzero]
    rw [hc, this]

theorem ofDigits_natText (n : ℕ) : ofDigits (natText n) = n := by
  have hmap : (natText n).map Char.ofNat = Nat.toDigits 10 n := by
    rw [natText, List.map_map]
    exact List.map_id'' (fun c => Char.ofNat_toNat c) _
  rw [ofDigits, hmap, Nat.ofDigitChars_toDigits (by decide) (by decide)]

theorem scanInt_append {whole : Text} (h : IntPart whole)
    (hrest : ∀ c t, rest = c :: t → isDigit c = false) :
    scanInt (whole ++ rest) = some (whole, rest) := by
  rcases h with rfl | ⟨⟨hne, hdigits⟩, hzero⟩
  · rfl
  · cases whole with
    | nil => exact absurd rfl hne
    | cons d ds =>
      have hd : d ≠ chZero := fun h => hzero (by rw [h]; rfl)
      have hspan := spanDigits_append hdigits hrest
      rw [List.cons_append] at hspan ⊢
      unfold scanInt
      split
      · rename_i heq
        exact absurd (List.cons.inj heq).1 hd
      · rw [hspan, if_neg (by simp)]

/-- Nothing of a number follows an end. -/
theorem scanFraction_ends (h : Ends rest) : scanFraction rest = ([], rest) := by
  unfold scanFraction
  split
  · rename_i t
    exact absurd rfl (h chDot t rfl).2.1
  · rfl

theorem scanExponent_ends (h : Ends rest) : scanExponent rest = ([], rest) := by
  cases rest with
  | nil => rfl
  | cons c t =>
    obtain ⟨-, -, he, hE⟩ := h c t rfl
    rw [scanExponent, if_neg (by simp [he, hE])]

/-- An integer is read back. -/
theorem scanNumber_natText (negative : Bool) (n : ℕ) (h : Ends rest) :
    scanNumber (F := F) negative (natText n ++ rest) =
      some (.int (if negative then -(n : ℤ) else n), rest) := by
  rw [scanNumber, scanInt_append (intPart_natText n) fun c t heq => (h c t heq).1]
  simp only [scanFraction_ends h, scanExponent_ends h, and_self, if_true, ofDigits_natText]

theorem scanFraction_append {ds : Text} (hds : Digits ds)
    (hrest : ∀ c t, rest = c :: t → isDigit c = false) :
    scanFraction (chDot :: (ds ++ rest)) = (chDot :: ds, rest) := by
  rw [scanFraction, spanDigits_append hds.2 hrest, if_neg hds.1]

theorem scanSign_append {sign ds : Text} (hsign : sign = [] ∨ sign = [chPlus] ∨ sign = [chMinus])
    (hds : Digits ds) : scanSign (sign ++ (ds ++ rest)) = (sign, ds ++ rest) := by
  rcases hsign with rfl | rfl | rfl
  · obtain ⟨hne, hdigits⟩ := hds
    cases ds with
    | nil => exact absurd rfl hne
    | cons d ds =>
      have hd := hdigits d List.mem_cons_self
      rw [List.nil_append, List.cons_append]
      unfold scanSign
      split
      · rename_i heq
        rw [(List.cons.inj heq).1] at hd
        exact absurd hd (by decide)
      · rename_i heq
        rw [(List.cons.inj heq).1] at hd
        exact absurd hd (by decide)
      · rfl
  · rfl
  · rfl

theorem scanExponent_append {sign ds : Text}
    (hsign : sign = [] ∨ sign = [chPlus] ∨ sign = [chMinus]) (hds : Digits ds)
    (hrest : ∀ c t, rest = c :: t → isDigit c = false) :
    scanExponent (101 :: (sign ++ (ds ++ rest))) = (101 :: (sign ++ ds), rest) := by
  rw [scanExponent, if_pos (Or.inl rfl), scanSign_append hsign hds]
  simp only [spanDigits_append hds.2 hrest, if_neg hds.1]

/-- The parts of a float are read off one after the other. -/
theorem scanNumber_float (negative : Bool) {whole fraction exponent : Text} (hwhole : IntPart whole)
    (hfraction : fraction = [] ∨ ∃ ds, Digits ds ∧ fraction = chDot :: ds)
    (hexponent : exponent = [] ∨ ∃ s ds, (s = [] ∨ s = [chPlus] ∨ s = [chMinus]) ∧ Digits ds ∧
      exponent = 101 :: (s ++ ds))
    (hfloat : fraction ≠ [] ∨ exponent ≠ []) (h : Ends rest) :
    scanNumber (F := F) negative (whole ++ (fraction ++ (exponent ++ rest))) =
      some (.float (PyFloat.ofText
        ((if negative then [chMinus] else []) ++ whole ++ fraction ++ exponent)), rest) := by
  have hE : scanExponent (exponent ++ rest) = (exponent, rest) ∧
      ∀ c t, exponent ++ rest = c :: t → isDigit c = false ∧ c ≠ chDot := by
    rcases hexponent with rfl | ⟨s, ds, hs, hds, rfl⟩
    · exact ⟨scanExponent_ends h, fun c t heq => ⟨(h c t heq).1, (h c t heq).2.1⟩⟩
    · refine ⟨?_, fun c t heq => ?_⟩
      · rw [List.cons_append, List.append_assoc]
        exact scanExponent_append hs hds fun c t heq => (h c t heq).1
      · rw [List.cons_append] at heq
        rw [← (List.cons.inj heq).1]
        decide
  have hfrac : scanFraction (fraction ++ (exponent ++ rest)) = (fraction, exponent ++ rest) ∧
      ∀ c t, fraction ++ (exponent ++ rest) = c :: t → isDigit c = false := by
    rcases hfraction with rfl | ⟨ds, hds, rfl⟩
    · refine ⟨?_, fun c t heq => (hE.2 c t heq).1⟩
      unfold scanFraction
      split
      · rename_i t heq
        exact absurd rfl (hE.2 chDot t heq).2
      · rfl
    · refine ⟨scanFraction_append hds fun c t heq => (hE.2 c t heq).1, fun c t heq => ?_⟩
      rw [List.cons_append] at heq
      rw [← (List.cons.inj heq).1]
      decide
  rw [scanNumber, scanInt_append hwhole hfrac.2]
  simp only [hfrac.1, hE.1]
  rw [if_neg]
  rintro ⟨hnone, hnone'⟩
  exact hfloat.elim (fun hf => hf hnone) (fun he => he hnone')

/-! ## 3. Values -/

/-- The first character of a value: no white space, and nothing that closes a bracket. -/
def Starts (t : Text) : Prop :=
  ∃ c tail, t = c :: tail ∧ c ≠ 32 ∧ c ≠ 9 ∧ c ≠ 10 ∧ c ≠ 13 ∧ c ≠ chCloseBracket

theorem Starts.append (h : Starts t) (rest : Text) : Starts (t ++ rest) := by
  obtain ⟨c, tail, rfl, hc⟩ := h
  exact ⟨c, tail ++ rest, rfl, hc⟩

theorem skipWs_starts (h : Starts t) : skipWs t = t := by
  obtain ⟨c, tail, rfl, h₁, h₂, h₃, h₄, -⟩ := h
  simp [skipWs, h₁, h₂, h₃, h₄]

theorem skipWs_cons {c : ℕ} {t : Text} (h : c ≠ 32 ∧ c ≠ 9 ∧ c ≠ 10 ∧ c ≠ 13) :
    skipWs (c :: t) = c :: t := by
  simp [skipWs, h]

theorem dropToken_append (token rest : Text) : dropToken token (token ++ rest) = some rest := by
  simp [dropToken]

/-- A text of another first character. -/
theorem dropToken_cons {c d : ℕ} {token t : Text} (h : c ≠ d) :
    dropToken (c :: token) (d :: t) = none := by
  simp [dropToken, List.isPrefixOf, h]

theorem ascii_null : ascii "null" = [110, 117, 108, 108] := by decide

theorem ascii_true : ascii "true" = [116, 114, 117, 101] := by decide

theorem ascii_false : ascii "false" = [102, 97, 108, 115, 101] := by decide

theorem ascii_nan : ascii "NaN" = [78, 97, 78] := by decide

theorem ascii_infinity : ascii "Infinity" = [73, 110, 102, 105, 110, 105, 116, 121] := by decide

theorem ascii_negInfinity :
    ascii "-Infinity" = [45, 73, 110, 102, 105, 110, 105, 116, 121] := by decide

theorem scanScalar_digit {c : ℕ} (hc : isDigit c = true) (t : Text) :
    scanScalar (F := F) (c :: t) = scanNumber false (c :: t) := by
  simp only [isDigit, Bool.and_eq_true, decide_eq_true_eq] at hc
  have hnull : dropToken (ascii "null") (c :: t) = none := by
    rw [ascii_null]
    exact dropToken_cons (by omega)
  have htrue : dropToken (ascii "true") (c :: t) = none := by
    rw [ascii_true]
    exact dropToken_cons (by omega)
  have hfalse : dropToken (ascii "false") (c :: t) = none := by
    rw [ascii_false]
    exact dropToken_cons (by omega)
  have hnan : dropToken (ascii "NaN") (c :: t) = none := by
    rw [ascii_nan]
    exact dropToken_cons (by omega)
  have hinf : dropToken (ascii "Infinity") (c :: t) = none := by
    rw [ascii_infinity]
    exact dropToken_cons (by omega)
  have hneg : dropToken (ascii "-Infinity") (c :: t) = none := by
    rw [ascii_negInfinity]
    exact dropToken_cons (by omega)
  unfold scanScalar
  simp only [hnull, htrue, hfalse, floatConstants, List.findSome?_cons, List.findSome?_nil, hnan,
    hinf, hneg, Option.map_none]
  split
  · rename_i heq
    rw [(List.cons.inj heq).1] at hc
    exact absurd hc (by decide)
  · rfl

theorem scanScalar_minus {c : ℕ} (hc : isDigit c = true) (t : Text) :
    scanScalar (F := F) (chMinus :: c :: t) = scanNumber true (c :: t) := by
  simp only [isDigit, Bool.and_eq_true, decide_eq_true_eq] at hc
  have hnull : dropToken (ascii "null") (chMinus :: c :: t) = none := by
    rw [ascii_null]
    exact dropToken_cons (by decide)
  have htrue : dropToken (ascii "true") (chMinus :: c :: t) = none := by
    rw [ascii_true]
    exact dropToken_cons (by decide)
  have hfalse : dropToken (ascii "false") (chMinus :: c :: t) = none := by
    rw [ascii_false]
    exact dropToken_cons (by decide)
  have hnan : dropToken (ascii "NaN") (chMinus :: c :: t) = none := by
    rw [ascii_nan]
    exact dropToken_cons (by decide)
  have hinf : dropToken (ascii "Infinity") (chMinus :: c :: t) = none := by
    rw [ascii_infinity]
    exact dropToken_cons (by decide)
  have hneg : dropToken (ascii "-Infinity") (chMinus :: c :: t) = none := by
    have hI : c ≠ 73 := by omega
    simp [ascii_negInfinity, dropToken, List.isPrefixOf, hI.symm]
  unfold scanScalar
  simp only [hnull, htrue, hfalse, floatConstants, List.findSome?_cons, List.findSome?_nil, hnan,
    hinf, hneg, Option.map_none]

theorem scanOnce_scalar {c fuel : ℕ} (hquote : c ≠ chQuote) (hbrace : c ≠ chOpenBrace)
    (hbracket : c ≠ chOpenBracket) (t : Text) :
    scanOnce (F := F) (fuel + 1) (c :: t) = scanScalar (c :: t) := by
  rw [scanOnce, if_neg hquote, if_neg hbrace, if_neg hbracket]

/-- An integer part begins with a digit. -/
theorem IntPart.cons {whole : Text} (h : IntPart whole) :
    ∃ c tail, whole = c :: tail ∧ isDigit c = true := by
  rcases h with rfl | ⟨⟨hne, hdigits⟩, -⟩
  · exact ⟨chZero, [], rfl, rfl⟩
  · cases whole with
    | nil => exact absurd rfl hne
    | cons c tail => exact ⟨c, tail, rfl, hdigits c List.mem_cons_self⟩

theorem digit_ne {c : ℕ} (hc : isDigit c = true) :
    c ≠ chQuote ∧ c ≠ chOpenBrace ∧ c ≠ chOpenBracket ∧ c ≠ 32 ∧ c ≠ 9 ∧ c ≠ 10 ∧ c ≠ 13 ∧
      c ≠ chCloseBracket := by
  simp only [isDigit, Bool.and_eq_true, decide_eq_true_eq] at hc
  simp only [chQuote, chOpenBrace, chOpenBracket, chCloseBracket]
  omega

/-- **A number with a sign is read back** from the front of a text, given that it is without. -/
theorem scanOnce_number {sign whole tail : Text} {value : PyJson F} {fuel : ℕ}
    (hsign : sign = [] ∨ sign = [chMinus]) (hwhole : IntPart whole)
    (hscan : scanNumber (decide (sign = [chMinus])) (whole ++ tail) = some (value, rest)) :
    scanOnce (fuel + 1) (sign ++ (whole ++ tail)) = some (value, rest) := by
  obtain ⟨c, ds, rfl, hc⟩ := hwhole.cons
  obtain ⟨hquote, hbrace, hbracket, -⟩ := digit_ne hc
  rcases hsign with rfl | rfl
  · rw [List.nil_append, List.cons_append, scanOnce_scalar hquote hbrace hbracket,
      scanScalar_digit hc]
    exact hscan
  · rw [List.cons_append, List.nil_append, List.cons_append, scanOnce_scalar (by decide) (by decide)
      (by decide), scanScalar_minus hc]
    exact hscan

theorem scanOnce_int (n : ℤ) (fuel : ℕ) (h : Ends rest) :
    scanOnce (F := F) (fuel + 1) (intText n ++ rest) = some (.int n, rest) := by
  unfold intText
  split
  · rename_i hn
    have hvalue : n = -(n.natAbs : ℤ) := by omega
    have hread := scanNumber_natText (F := F) true n.natAbs h
    rw [if_pos rfl, ← hvalue] at hread
    exact scanOnce_number (Or.inr rfl) (intPart_natText _) hread
  · rename_i hn
    have hvalue : n = (n.natAbs : ℤ) := by omega
    have hread := scanNumber_natText (F := F) false n.natAbs h
    rw [if_neg (by decide), ← hvalue] at hread
    exact scanOnce_number (Or.inl rfl) (intPart_natText _) hread

theorem scanOnce_constant {token : Text} {fuel : ℕ} (h : token ∈ floatConstants) :
    scanOnce (F := F) (fuel + 1) (token ++ rest) = some (.float (PyFloat.ofText token), rest) := by
  simp only [floatConstants, List.mem_cons, List.not_mem_nil, or_false] at h
  rcases h with rfl | rfl | rfl
  · rw [ascii_nan, List.cons_append, scanOnce_scalar (by decide) (by decide) (by decide)]
    simp [scanScalar, floatConstants, dropToken, ascii_null, ascii_true, ascii_false, ascii_nan,
      List.isPrefixOf]
  · rw [ascii_infinity, List.cons_append, scanOnce_scalar (by decide) (by decide) (by decide)]
    simp [scanScalar, floatConstants, dropToken, ascii_null, ascii_true, ascii_false, ascii_nan,
      ascii_infinity, List.isPrefixOf]
  · rw [ascii_negInfinity, List.cons_append, scanOnce_scalar (by decide) (by decide) (by decide)]
    simp [scanScalar, floatConstants, dropToken, ascii_null, ascii_true, ascii_false, ascii_nan,
      ascii_infinity, ascii_negInfinity, List.isPrefixOf]

theorem scanOnce_float (x : F) (fuel : ℕ) (h : Ends rest) :
    scanOnce (fuel + 1) (PyFloat.repr x ++ rest) = some (.float x, rest) := by
  rcases PyFloat.shape x with hconst | hliteral
  · rw [scanOnce_constant hconst, PyFloat.ofText_repr]
  · obtain ⟨sign, whole, fraction, exponent, heq, hsign, hwhole, hfraction, hexponent, hfloat⟩ :=
      hliteral
    have hread := scanNumber_float (F := F) (decide (sign = [chMinus])) hwhole hfraction hexponent
      hfloat h
    have hsigned : (if decide (sign = [chMinus]) = true then [chMinus] else []) = sign := by
      rcases hsign with rfl | rfl <;> rfl
    rw [hsigned, ← heq, PyFloat.ofText_repr] at hread
    rw [heq, List.append_assoc, List.append_assoc, List.append_assoc]
    exact scanOnce_number hsign hwhole hread

theorem starts_number {sign whole tail : Text} (hsign : sign = [] ∨ sign = [chMinus])
    (hwhole : IntPart whole) : Starts (sign ++ (whole ++ tail)) := by
  obtain ⟨c, ds, rfl, hc⟩ := hwhole.cons
  obtain ⟨-, -, -, h⟩ := digit_ne hc
  rcases hsign with rfl | rfl
  · exact ⟨c, ds ++ tail, rfl, h⟩
  · exact ⟨chMinus, c :: ds ++ tail, rfl, by decide⟩

theorem starts_text (v : PyJson F) : Starts (text v) := by
  cases v with
  | null =>
    rw [text, ascii_null]
    exact ⟨_, _, rfl, by decide⟩
  | bool b =>
    cases b
    · rw [text, ascii_false]
      exact ⟨_, _, rfl, by decide⟩
    · rw [text, ascii_true]
      exact ⟨_, _, rfl, by decide⟩
  | int n =>
    rw [text]
    unfold intText
    split
    · simpa using (@starts_number _ _ []) (Or.inr rfl) (intPart_natText n.natAbs)
    · simpa using (@starts_number [] _ []) (Or.inl rfl) (intPart_natText n.natAbs)
  | float x =>
    rw [text]
    rcases PyFloat.shape x with hconst | ⟨sign, whole, fraction, exponent, heq, hsign, hwhole, -⟩
    · simp only [floatConstants, List.mem_cons, List.not_mem_nil, or_false] at hconst
      rcases hconst with h | h | h <;> rw [h]
      · rw [ascii_nan]
        exact ⟨_, _, rfl, by decide⟩
      · rw [ascii_infinity]
        exact ⟨_, _, rfl, by decide⟩
      · rw [ascii_negInfinity]
        exact ⟨_, _, rfl, by decide⟩
    · rw [heq, List.append_assoc, List.append_assoc]
      exact starts_number hsign hwhole
  | str s =>
    rw [text]
    exact ⟨_, _, rfl, by decide⟩
  | arr items =>
    cases items <;> rw [text] <;> exact ⟨_, _, rfl, by decide⟩
  | obj members =>
    cases members <;> rw [text] <;> exact ⟨_, _, rfl, by decide⟩

theorem ends_textItems (items : List (PyJson F)) (rest : Text) : Ends (textItems items ++ rest) := by
  cases items <;> rw [textItems, List.cons_append] <;> exact ends_cons (by decide)

theorem ends_textMembers (members : List (PyStr × PyJson F)) (rest : Text) :
    Ends (textMembers members ++ rest) := by
  cases members <;> rw [textMembers, List.cons_append] <;> exact ends_cons (by decide)

mutual

/-- **A written value is read back** from the front of a text, given fuel for its length. -/
theorem scanOnce_text : ∀ (v : PyJson F) (fuel : ℕ) (rest : Text), (text v).length ≤ fuel →
    Ends rest → scanOnce fuel (text v ++ rest) = some (settled v, rest)
  | v, 0, rest, hfuel, _ => by
    obtain ⟨c, tail, hc, -⟩ := starts_text v
    rw [hc] at hfuel
    simp at hfuel
  | .null, fuel + 1, rest, _, _ => by
    rw [text, ascii_null, List.cons_append, scanOnce_scalar (by decide) (by decide) (by decide)]
    simp [scanScalar, dropToken, ascii_null, List.isPrefixOf, settled]
  | .bool true, fuel + 1, rest, _, _ => by
    rw [text, ascii_true, List.cons_append, scanOnce_scalar (by decide) (by decide) (by decide)]
    simp [scanScalar, dropToken, ascii_null, ascii_true, List.isPrefixOf, settled]
  | .bool false, fuel + 1, rest, _, _ => by
    rw [text, ascii_false, List.cons_append, scanOnce_scalar (by decide) (by decide) (by decide)]
    simp [scanScalar, dropToken, ascii_null, ascii_true, ascii_false, List.isPrefixOf, settled]
  | .int n, fuel + 1, rest, _, hrest => by
    rw [text, scanOnce_int n fuel hrest, settled]
    all_goals simp
  | .float x, fuel + 1, rest, _, hrest => by
    rw [text, scanOnce_float x fuel hrest, settled]
    all_goals simp
  | .str s, fuel + 1, rest, _, _ => by
    rw [text, quoted, List.cons_append, scanOnce, if_pos rfl, List.append_assoc,
      List.singleton_append, scanString_flatMap, settled]
    rfl
  | .arr [], fuel + 1, rest, _, _ => by
    rw [text, List.cons_append, scanOnce, if_neg (by decide), if_neg (by decide), if_pos rfl,
      List.cons_append, List.nil_append, skipWs_cons (by decide), settled]
    rfl
  | .arr (item :: items), fuel + 1, rest, hfuel, _ => by
    have hlength : (text item ++ textItems items).length ≤ fuel := by
      rw [text, List.length_cons] at hfuel
      omega
    have hread := scanItems_text item items fuel rest hlength
    obtain ⟨c, tail, hc, hstarts⟩ := (starts_text item).append (textItems items ++ rest)
    rw [text, List.cons_append, scanOnce, if_neg (by decide), if_neg (by decide), if_pos rfl,
      List.append_assoc, settled, settledItems]
    rw [skipWs_starts ⟨c, tail, hc, hstarts⟩, hread, hc]
    simp only [if_neg hstarts.2.2.2.2, Option.map_some]
  | .obj [], fuel + 1, rest, _, _ => by
    rw [text, List.cons_append, scanOnce, if_neg (by decide), if_pos rfl, List.cons_append,
      List.nil_append, skipWs_cons (by decide), settled]
    rfl
  | .obj ((key, value) :: members), fuel + 1, rest, hfuel, _ => by
    have hlength : (textMember (key, value) ++ textMembers members).length ≤ fuel := by
      rw [text, List.length_cons] at hfuel
      omega
    have hread := scanMembers_text key value members fuel rest hlength
    rw [text, List.cons_append, scanOnce, if_neg (by decide), if_pos rfl, textMember, quoted,
      List.cons_append, List.cons_append, List.cons_append, skipWs_cons (by decide), settled,
      settledMembers, settledMember]
    simp only [if_neg (show chQuote ≠ chCloseBrace by decide), if_true]
    rw [hread]
    rfl

theorem scanItems_text : ∀ (item : PyJson F) (items : List (PyJson F)) (fuel : ℕ) (rest : Text),
    (text item ++ textItems items).length ≤ fuel →
    scanItems fuel (text item ++ (textItems items ++ rest)) =
      some (settled item :: settledItems items, rest)
  | item, items, 0, rest, hfuel => by
    obtain ⟨c, tail, hc, -⟩ := starts_text item
    rw [hc] at hfuel
    simp at hfuel
  | item, [], fuel + 1, rest, hfuel => by
    have hlength : (text item).length ≤ fuel := by
      rw [textItems, List.length_append, List.length_singleton] at hfuel
      omega
    rw [scanItems, scanOnce_text item fuel _ hlength (ends_textItems [] rest)]
    rw [textItems, List.singleton_append, settledItems]
    simp only [skipWs_cons (t := rest) (show chCloseBracket ≠ 32 ∧ chCloseBracket ≠ 9 ∧
      chCloseBracket ≠ 10 ∧ chCloseBracket ≠ 13 by decide), if_true]
  | item, next :: items, fuel + 1, rest, hfuel => by
    rw [textItems, List.length_append, List.length_cons] at hfuel
    have hread := scanItems_text next items fuel rest (by omega)
    rw [scanItems, scanOnce_text item fuel _ (by omega) (ends_textItems _ rest)]
    rw [textItems, List.cons_append, List.append_assoc, settledItems]
    simp only [skipWs_cons (t := text next ++ (textItems items ++ rest)) (show chComma ≠ 32 ∧
      chComma ≠ 9 ∧ chComma ≠ 10 ∧ chComma ≠ 13 by decide),
      if_neg (show chComma ≠ chCloseBracket by decide), if_true]
    rw [skipWs_starts ((starts_text next).append _), hread]
    rfl

theorem scanMembers_text : ∀ (key : PyStr) (value : PyJson F) (members : List (PyStr × PyJson F))
    (fuel : ℕ) (rest : Text),
    (textMember (key, value) ++ textMembers members).length ≤ fuel →
    scanMembers fuel (key.flatMap escape ++ [chQuote] ++ chColon :: text value ++
        textMembers members ++ rest) =
      some ((joinPairs key, settled value) :: settledMembers members, rest)
  | key, value, members, 0, rest, hfuel => by
    simp [textMember, quoted] at hfuel
  | key, value, [], fuel + 1, rest, hfuel => by
    rw [textMember, textMembers, quoted] at hfuel
    simp only [List.length_append, List.length_cons, List.length_nil] at hfuel
    have hread := scanOnce_text value fuel (chCloseBrace :: rest) (by omega)
      (ends_cons (by decide))
    rw [scanMembers]
    simp only [List.append_assoc, List.cons_append, List.nil_append, scanString_flatMap]
    rw [skipWs_cons (by decide), textMembers, settledMembers]
    simp only [if_true, List.singleton_append]
    rw [skipWs_starts ((starts_text value).append _), hread]
    simp only
    rw [skipWs_cons (by decide)]
    simp only [if_true]
  | key, value, (key', value') :: members, fuel + 1, rest, hfuel => by
    rw [textMembers, List.length_append, List.length_cons] at hfuel
    have hmember : (text value).length + 1 ≤ (textMember (key, value)).length := by
      simp only [textMember, quoted, List.length_append, List.length_cons]
      omega
    have hlater := scanMembers_text key' value' members fuel rest (by omega)
    have hread := scanOnce_text value fuel
      (chComma :: (textMember (key', value') ++ textMembers members ++ rest)) (by omega)
      (ends_cons (by decide))
    rw [scanMembers]
    simp only [List.append_assoc, List.cons_append, List.nil_append,
      scanString_flatMap] at hread hlater ⊢
    rw [skipWs_cons (by decide), textMembers, settledMembers, settledMember]
    simp only [if_true, List.cons_append, List.append_assoc]
    rw [skipWs_starts ((starts_text value).append _), hread]
    simp only
    rw [skipWs_cons (by decide)]
    simp only [if_neg (show chComma ≠ chCloseBrace by decide), if_true]
    rw [textMember, quoted, List.cons_append, List.cons_append, skipWs_cons (by decide)]
    simp only [if_true, List.append_assoc, List.cons_append, List.nil_append]
    rw [hlater]
    rfl

end

/-- **`json.loads` of what `json.dumps` wrote.** -/
theorem loads_text (v : PyJson F) : loads (text v) = some (settled v) := by
  have hread := scanOnce_text v ((text v).length + 1) [] (by omega) ends_nil
  rw [List.append_nil] at hread
  rw [loads, skipWs_starts (starts_text v), hread]
  rfl

end AzazelEdge.Lib.Py
