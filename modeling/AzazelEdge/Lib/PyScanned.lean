/-
# What reading finds in a text

A rule for `json.loads`: where a property of what is left of a text is kept when a character that
is no backslash is passed, and when a string is read off, of which it gives another property, then
every string of the value that is read has that (`allStr_of_loads`).
-/
import AzazelEdge.Lib.PyRaw
import AzazelEdge.Lib.PySettled

namespace AzazelEdge.Lib.Py

variable {F : Type} [PyFloat F] {t rest : Text}

/-! ## 1. Passing characters -/

/-- The rest of a text, after some characters that are no backslash. -/
def Past (t rest : Text) : Prop := ∃ front, t = front ++ rest ∧ chBackslash ∉ front

theorem Past.refl (t : Text) : Past t t := ⟨[], rfl, by simp⟩

theorem Past.trans {mid : Text} (h : Past t mid) (h' : Past mid rest) : Past t rest := by
  obtain ⟨front, rfl, hfront⟩ := h
  obtain ⟨front', rfl, hfront'⟩ := h'
  exact ⟨front ++ front', by rw [List.append_assoc], by simp [hfront, hfront']⟩

theorem past_cons {c : ℕ} (hc : c ≠ chBackslash) (t : Text) : Past (c :: t) t :=
  ⟨[c], rfl, by simpa using hc.symm⟩

/-- Characters that are dropped while they are such. -/
theorem past_dropWhile {p : ℕ → Bool} (hp : p chBackslash = false) (t : Text) :
    Past t (t.dropWhile p) := by
  refine ⟨t.takeWhile p, List.takeWhile_append_dropWhile.symm, fun hmem => ?_⟩
  have hsuch := List.all_eq_true.mp List.all_takeWhile _ hmem
  rw [hp] at hsuch
  cases hsuch

theorem skipWs_past (t : Text) : Past t (skipWs t) := past_dropWhile (by decide) t

theorem spanDigits_past (t : Text) : Past t (spanDigits t).2 := past_dropWhile (by decide) t

theorem scanInt_past {whole : Text} (h : scanInt t = some (whole, rest)) : Past t rest := by
  unfold scanInt at h
  split at h
  · cases h
    exact past_cons (by decide) _
  · split_ifs at h
    cases h
    exact spanDigits_past t

theorem scanFraction_past (t : Text) : Past t (scanFraction t).2 := by
  unfold scanFraction
  split
  · split_ifs
    · exact Past.refl _
    · exact (past_cons (by decide) _).trans (spanDigits_past _)
  · exact Past.refl _

theorem scanSign_past (t : Text) : Past t (scanSign t).2 := by
  unfold scanSign
  split
  · exact past_cons (by decide) _
  · exact past_cons (by decide) _
  · exact Past.refl _

theorem scanExponent_past (t : Text) : Past t (scanExponent t).2 := by
  unfold scanExponent
  split
  · rename_i c rest
    split_ifs with hc
    · exact Past.refl _
    · have hbackslash : c ≠ chBackslash := by
        rintro rfl
        exact absurd hc (by decide)
      exact (past_cons hbackslash _).trans ((scanSign_past _).trans (spanDigits_past _))
    · exact Past.refl _
  · exact Past.refl _

variable {Q : PyStr → Prop}

theorem scanNumber_past {negative : Bool} {p : PyJson F × Text}
    (h : scanNumber negative t = some p) : AllStr Q p.1 ∧ Past t p.2 := by
  unfold scanNumber at h
  split at h
  · cases h
  · rename_i whole rest hwhole
    have hrest := scanInt_past hwhole
    dsimp only at h
    split at h
    · cases h
      exact ⟨trivial, hrest⟩
    · cases h
      exact ⟨trivial, hrest.trans ((scanFraction_past rest).trans (scanExponent_past _))⟩

theorem dropToken_past {token : Text} (htoken : chBackslash ∉ token)
    (h : dropToken token t = some rest) : Past t rest := by
  unfold dropToken at h
  split_ifs at h with hprefix
  cases h
  obtain ⟨tail, rfl⟩ := List.isPrefixOf_iff_prefix.mp hprefix
  exact ⟨token, by simp, htoken⟩

theorem scanScalar_past {p : PyJson F × Text} (h : scanScalar t = some p) :
    AllStr Q p.1 ∧ Past t p.2 := by
  unfold scanScalar at h
  split at h
  · rename_i hdrop
    cases h
    exact ⟨trivial, dropToken_past (by decide) hdrop⟩
  split at h
  · rename_i hdrop
    cases h
    exact ⟨trivial, dropToken_past (by decide) hdrop⟩
  split at h
  · rename_i hdrop
    cases h
    exact ⟨trivial, dropToken_past (by decide) hdrop⟩
  split at h
  · rename_i token rest hfind
    obtain ⟨token', htoken, hdrop⟩ := List.exists_of_findSome?_eq_some hfind
    obtain ⟨rest', hdrop, heq⟩ := Option.map_eq_some_iff.mp hdrop
    cases heq
    cases h
    have hclean : ∀ token ∈ floatConstants, chBackslash ∉ token := by decide
    exact ⟨trivial, dropToken_past (hclean _ htoken) hdrop⟩
  split at h
  · obtain ⟨hstr, hpast⟩ := scanNumber_past h
    exact ⟨hstr, (past_cons (by decide) _).trans hpast⟩
  · exact scanNumber_past h

/-! ## 2. The rule -/

/-- The property of a text goes over to what is left of it, and to the strings that are read off. -/
structure Carries (P : Text → Prop) (Q : PyStr → Prop) : Prop where
  drop : ∀ c t, c ≠ chBackslash → P (c :: t) → P t
  string : ∀ t s rest, P t → scanString t = some (s, rest) → Q s ∧ P rest

variable {P : Text → Prop}

theorem Carries.past (h : Carries P Q) (hpast : Past t rest) (ht : P t) : P rest := by
  obtain ⟨front, rfl, hfront⟩ := hpast
  induction front with
  | nil => exact ht
  | cons c front ih =>
    rw [List.mem_cons, not_or] at hfront
    exact ih hfront.2 (h.drop c _ (Ne.symm hfront.1) ht)

theorem Carries.skip (h : Carries P Q) {c : ℕ} (hskip : skipWs t = c :: rest) (ht : P t) :
    P (c :: rest) := hskip ▸ h.past (skipWs_past t) ht

section Scan

variable {fuel : ℕ}

/-- The reader with this fuel follows the rule. -/
def ScansCarried (F : Type) [PyFloat F] (P : Text → Prop) (Q : PyStr → Prop) (fuel : ℕ) : Prop :=
  (∀ t, P t → ∀ p, scanOnce (F := F) fuel t = some p → AllStr Q p.1 ∧ P p.2) ∧
  (∀ t, P t → ∀ p, scanItems (F := F) fuel t = some p → AllStrItems Q p.1 ∧ P p.2) ∧
  ∀ t, P t → ∀ p, scanMembers (F := F) fuel t = some p → AllStrMembers Q p.1 ∧ P p.2

omit [PyFloat F] in
theorem allStrMembers_pyDict {members : List (PyStr × PyJson F)} (h : AllStrMembers Q members) :
    AllStrMembers Q (pyDict members) :=
  allStrMembers_iff.mpr fun member hmember => allStrMembers_iff.mp h member (mem_pyDict hmember)

theorem scanOnce_carried (h : Carries P Q) (ih : ScansCarried F P Q fuel) (ht : P t)
    {p : PyJson F × Text} (hp : scanOnce (fuel + 1) t = some p) : AllStr Q p.1 ∧ P p.2 := by
  cases t with
  | nil => cases hp
  | cons c rest =>
    rw [scanOnce] at hp
    split at hp
    · rename_i hquote
      obtain ⟨⟨s, rest'⟩, hs, heq⟩ := Option.map_eq_some_iff.mp hp
      cases heq
      exact h.string _ _ _ (h.drop c _ (by rw [hquote]; decide) ht) hs
    split at hp
    · rename_i hbrace
      have hrest := h.drop c _ (by rw [hbrace]; decide) ht
      split at hp
      · cases hp
      rename_i b rest' hskip
      have hb := h.skip hskip hrest
      split at hp
      · rename_i hclose
        cases hp
        exact ⟨trivial, h.drop b _ (by rw [hclose]; decide) hb⟩
      split at hp
      · rename_i hquote
        obtain ⟨⟨members, rest''⟩, hm, heq⟩ := Option.map_eq_some_iff.mp hp
        cases heq
        obtain ⟨hmembers, hleft⟩ := ih.2.2 _ (h.drop b _ (by rw [hquote]; decide) hb) _ hm
        exact ⟨allStrMembers_pyDict hmembers, hleft⟩
      · cases hp
    split at hp
    · rename_i hbracket
      have hrest := h.drop c _ (by rw [hbracket]; decide) ht
      split at hp
      · cases hp
      rename_i b rest' hskip
      split at hp
      · rename_i hclose
        cases hp
        exact ⟨trivial, h.drop b _ (by rw [hclose]; decide) (h.skip hskip hrest)⟩
      · obtain ⟨⟨items, rest''⟩, hi, heq⟩ := Option.map_eq_some_iff.mp hp
        cases heq
        exact ih.2.1 _ (h.past (skipWs_past rest) hrest) _ hi
    · obtain ⟨hstr, hpast⟩ := scanScalar_past hp
      exact ⟨hstr, h.past hpast ht⟩

theorem scanItems_carried (h : Carries P Q) (ih : ScansCarried F P Q fuel) (ht : P t)
    {p : List (PyJson F) × Text} (hp : scanItems (fuel + 1) t = some p) :
    AllStrItems Q p.1 ∧ P p.2 := by
  rw [scanItems] at hp
  split at hp
  · cases hp
  rename_i item rest hitem
  obtain ⟨hstr, hrest⟩ := ih.1 _ ht _ hitem
  split at hp
  · cases hp
  rename_i c rest' hskip
  have hc := h.skip hskip hrest
  split at hp
  · rename_i hclose
    cases hp
    exact ⟨⟨hstr, trivial⟩, h.drop c _ (by rw [hclose]; decide) hc⟩
  split at hp
  · rename_i hcomma
    obtain ⟨⟨items, rest''⟩, hi, heq⟩ := Option.map_eq_some_iff.mp hp
    cases heq
    have hrest' := h.past (skipWs_past rest') (h.drop c _ (by rw [hcomma]; decide) hc)
    obtain ⟨hitems, hleft⟩ := ih.2.1 _ hrest' _ hi
    exact ⟨⟨hstr, hitems⟩, hleft⟩
  · cases hp

theorem scanMembers_carried (h : Carries P Q) (ih : ScansCarried F P Q fuel) (ht : P t)
    {p : List (PyStr × PyJson F) × Text} (hp : scanMembers (fuel + 1) t = some p) :
    AllStrMembers Q p.1 ∧ P p.2 := by
  rw [scanMembers] at hp
  split at hp
  · cases hp
  rename_i key rest hkey
  obtain ⟨hstr, hrest⟩ := h.string _ _ _ ht hkey
  split at hp
  · cases hp
  rename_i c rest₁ hskip
  have hc := h.skip hskip hrest
  split at hp
  swap
  · cases hp
  rename_i hcolon
  have hrest₁ := h.drop c _ (by rw [hcolon]; decide) hc
  split at hp
  · cases hp
  rename_i value rest₂ hvalue
  obtain ⟨hstr', hrest₂⟩ := ih.1 _ (h.past (skipWs_past rest₁) hrest₁) _ hvalue
  split at hp
  · cases hp
  rename_i c' rest₃ hskip'
  have hc' := h.skip hskip' hrest₂
  split at hp
  · rename_i hclose
    cases hp
    exact ⟨⟨⟨hstr, hstr'⟩, trivial⟩, h.drop c' _ (by rw [hclose]; decide) hc'⟩
  split at hp
  swap
  · cases hp
  rename_i hcomma
  have hrest₃ := h.drop c' _ (by rw [hcomma]; decide) hc'
  split at hp
  · cases hp
  rename_i c'' rest₄ hskip''
  have hc'' := h.skip hskip'' hrest₃
  split at hp
  · rename_i hquote
    obtain ⟨⟨members, rest₅⟩, hm, heq⟩ := Option.map_eq_some_iff.mp hp
    cases heq
    obtain ⟨hmembers, hleft⟩ := ih.2.2 _ (h.drop c'' _ (by rw [hquote]; decide) hc'') _ hm
    exact ⟨⟨⟨hstr, hstr'⟩, hmembers⟩, hleft⟩
  · cases hp

theorem scansCarried (h : Carries P Q) : ScansCarried F P Q fuel := by
  induction fuel with
  | zero =>
    refine ⟨fun t _ p hp => ?_, fun _ _ _ hp => ?_, fun _ _ _ hp => ?_⟩
    · cases t <;> cases hp
    · cases hp
    · cases hp
  | succ fuel ih =>
    exact ⟨fun _ ht _ => scanOnce_carried h ih ht, fun _ ht _ => scanItems_carried h ih ht,
      fun _ ht _ => scanMembers_carried h ih ht⟩

end Scan

/-- **The strings of a value that is read.** -/
theorem allStr_of_loads (h : Carries P Q) (ht : P t) {v : PyJson F} (hv : loads t = some v) :
    AllStr Q v := by
  unfold loads at hv
  split at hv
  · cases hv
  · rename_i value rest hscan
    split_ifs at hv
    cases hv
    exact ((scansCarried h).1 _ (h.past (skipWs_past t) ht) _ hscan).1

/-! ## 3. The lines of a text that was written -/

/-- The line breaks of `str.splitlines` that JSON lets stand in a string. -/
def isWideBreak (c : ℕ) : Bool := c ∈ [0x85, 0x2028, 0x2029]

/-- A string without them. -/
abbrev Unbroken (s : PyStr) : Prop := StrOf (fun c => isWideBreak c = false) s

/-- A line cut out of a text that was written: it may begin and end inside a string, but not inside
an escape. -/
structure CutLine (t : Text) : Prop where
  chars : ∀ c ∈ t, c < 0x110000 ∧ isWideBreak c = false
  paired : ∃ tail, Paired (t ++ tail)

theorem Paired.drop {c : ℕ} (hc : c ≠ chBackslash) (h : Paired (c :: t)) : Paired t := by
  cases h with
  | plain _ h => exact h
  | short | control => exact absurd rfl hc

theorem CutLine.drop {c : ℕ} (hc : c ≠ chBackslash) (h : CutLine (c :: t)) : CutLine t := by
  obtain ⟨tail, htail⟩ := h.paired
  exact ⟨fun d hd => h.chars d (List.mem_cons_of_mem _ hd), tail, htail.drop hc⟩

/-- The first characters of such a line are one. -/
theorem CutLine.front {front : Text} (h : CutLine (front ++ rest)) : CutLine front := by
  obtain ⟨tail, htail⟩ := h.paired
  exact ⟨fun d hd => h.chars d (List.mem_append_left _ hd), rest ++ tail, by
    rwa [← List.append_assoc]⟩

theorem CutLine.after (front : Text) (h : CutLine (front ++ rest)) {tail : Text}
    (hpaired : Paired (rest ++ tail)) : CutLine rest :=
  ⟨fun d hd => h.chars d (List.mem_append_right _ hd), tail, hpaired⟩

theorem unescape_u : unescape chU = none := by decide

/-- An escape with a number is of a control character. -/
theorem Paired.control_of {a b c d n : ℕ}
    (h : Paired (chBackslash :: chU :: a :: b :: c :: d :: t)) (hn : hexVal4 a b c d = some n) :
    n < 32 ∧ Paired t := by
  cases h with
  | plain hc => exact absurd rfl hc
  | short hc =>
    rw [unescape_u] at hc
    cases hc
  | control hn' hlt h =>
    rw [hn] at hn'
    obtain rfl := Option.some.inj hn'
    exact ⟨hlt, h⟩

theorem Paired.short_of {c : ℕ} {d : CodePoint} (h : Paired (chBackslash :: c :: t))
    (hc : unescape c = some d) : Paired t := by
  cases h with
  | plain hc => exact absurd rfl hc
  | short _ h => exact h
  | control =>
    rw [unescape_u] at hc
    cases hc

theorem unbroken_cons {c : CodePoint} {s : PyStr} (hc : isWideBreak c.val = false)
    (h : Unbroken s) : Unbroken (c :: s) := List.forall_mem_cons.mpr ⟨hc, h⟩

theorem isWideBreak_small {n : ℕ} (h : n < 128) : isWideBreak n = false := by
  simp only [isWideBreak, List.mem_cons, List.not_mem_nil, or_false, decide_eq_false_iff_not]
  omega

/-- A string that is read off such a line has no break. -/
theorem scanString_cutLine {s : PyStr} (ht : CutLine t) (h : scanString t = some (s, rest)) :
    Unbroken s ∧ CutLine rest := by
  fun_induction scanString t generalizing s rest
  case case1 | case3 | case4 | case10 | case11 => cases h
  case case2 rest' =>
    cases h
    exact ⟨(fun _ hc => by cases hc), ht.drop (by decide)⟩
  -- The escape of a control character begins no pair.
  case case5 hhex hhigh _ _ _ _ _ _ _ _ _ =>
    obtain ⟨tail, htail⟩ := ht.paired
    have hlt := (htail.control_of hhex).1
    simp only [isHigh, Bool.and_eq_true, decide_eq_true_eq] at hhigh
    omega
  case case6 hhex hhigh _ _ _ _ _ _ _ _ _ =>
    obtain ⟨tail, htail⟩ := ht.paired
    have hlt := (htail.control_of hhex).1
    simp only [isHigh, Bool.and_eq_true, decide_eq_true_eq] at hhigh
    omega
  case case7 hhex hhigh _ _ _ =>
    obtain ⟨tail, htail⟩ := ht.paired
    have hlt := (htail.control_of hhex).1
    simp only [isHigh, Bool.and_eq_true, decide_eq_true_eq] at hhigh
    omega
  case case8 a b d e rest' n hhex _ ih =>
    obtain ⟨s', rest'', hs, hp⟩ := push_eq_some h
    cases hp
    obtain ⟨tail, htail⟩ := ht.paired
    obtain ⟨hlt, hrest⟩ := htail.control_of hhex
    obtain ⟨hunbroken, hcut⟩ :=
      ih (CutLine.after [chBackslash, chU, a, b, d, e] ht hrest) hs
    refine ⟨unbroken_cons ?_ hunbroken, hcut⟩
    rw [ofNat_lt (by omega)]
    exact isWideBreak_small (by omega)
  case case9 n rest' _ c hc ih =>
    obtain ⟨s', rest'', hs, hp⟩ := push_eq_some h
    cases hp
    obtain ⟨tail, htail⟩ := ht.paired
    obtain ⟨hunbroken, hcut⟩ :=
      ih (CutLine.after [chBackslash, n] ht (htail.short_of hc)) hs
    exact ⟨unbroken_cons (isWideBreak_small (unescape_small hc)) hunbroken, hcut⟩
  case case12 n rest' hquote hu hbackslash hn ih =>
    obtain ⟨s', rest'', hs, hp⟩ := push_eq_some h
    cases hp
    obtain ⟨hlt, hbreak⟩ := ht.chars n List.mem_cons_self
    have hplain : n ≠ chBackslash := by
      rintro rfl
      cases rest' with
      | nil => cases hs
      | cons c rest' => exact hbackslash c rest' rfl rfl
    obtain ⟨hunbroken, hcut⟩ := ih (ht.drop hplain) hs
    refine ⟨unbroken_cons ?_ hunbroken, hcut⟩
    rwa [ofNat_lt hlt]

theorem carries_cutLine : Carries CutLine Unbroken :=
  ⟨fun _ _ hc h => h.drop hc, fun _ _ _ ht h => scanString_cutLine ht h⟩

/-- A line break is no part of an escape. -/
theorem Paired.after_break {front : Text} {c : ℕ} (hc : isBreak c = true)
    (h : Paired (front ++ c :: rest)) : Paired rest := by
  have hother : c ≠ chBackslash ∧ c ≠ chU ∧ unescape c = none ∧ hexVal c = none := by
    simp only [isBreak, List.mem_cons, List.not_mem_nil, or_false, decide_eq_true_eq] at hc
    rcases hc with rfl | rfl | rfl | rfl | rfl | rfl | rfl | rfl | rfl | rfl <;> decide
  obtain ⟨hbackslash, hu, hshort, hhex⟩ := hother
  have hhex4 : ∀ {a b d n : ℕ}, hexVal4 c a b d ≠ some n ∧ hexVal4 a c b d ≠ some n ∧
      hexVal4 a b c d ≠ some n ∧ hexVal4 a b d c ≠ some n := by
    intro a b d n
    unfold hexVal4
    rw [hhex]
    refine ⟨?_, ?_, ?_, ?_⟩ <;> split <;> simp_all
  generalize heq : front ++ c :: rest = t at h
  induction h generalizing front with
  | nil => simp at heq
  | plain _ hpaired ih =>
    cases front with
    | nil =>
      obtain ⟨-, rfl⟩ := List.cons.inj heq
      exact hpaired
    | cons _ front => exact ih (List.cons.inj heq).2
  | short hd _ ih =>
    rcases front with _ | ⟨_, _ | ⟨_, front⟩⟩
    · exact absurd (List.cons.inj heq).1 hbackslash
    · rw [← (List.cons.inj (List.cons.inj heq).2).1, hshort] at hd
      cases hd
    · exact ih (List.cons.inj (List.cons.inj heq).2).2
  | control hn _ _ ih =>
    rcases front with _ | ⟨_, _ | ⟨_, _ | ⟨_, _ | ⟨_, _ | ⟨_, _ | ⟨_, front⟩⟩⟩⟩⟩⟩
    · exact absurd (List.cons.inj heq).1 hbackslash
    · exact absurd (List.cons.inj (List.cons.inj heq).2).1 hu
    · cases heq
      exact absurd hn hhex4.1
    · cases heq
      exact absurd hn hhex4.2.1
    · cases heq
      exact absurd hn hhex4.2.2.1
    · cases heq
      exact absurd hn hhex4.2.2.2
    · simp only [List.cons_append, List.cons.injEq] at heq
      exact ih heq.2.2.2.2.2.2

/-- Each line of a text that was written is cut so. -/
theorem cutLine_of_mem_splitFrom {line cut : Text} (h : cut ∈ splitFrom line t)
    (hline : ∀ c ∈ line, c < 0x110000 ∧ isBreak c = false) (ht : ∀ c ∈ t, c < 0x110000)
    (hpaired : Paired (line ++ t)) : CutLine cut := by
  have hcut : ∀ {line tail : Text}, (∀ c ∈ line, c < 0x110000 ∧ isBreak c = false) →
      Paired (line ++ tail) → CutLine line := fun {line tail} hline hpaired => by
    refine ⟨fun c hc => ⟨(hline c hc).1, ?_⟩, tail, hpaired⟩
    have hbreak := (hline c hc).2
    simp only [isBreak, isWideBreak, List.mem_cons, List.not_mem_nil, or_false,
      decide_eq_false_iff_not, not_or] at hbreak ⊢
    omega
  fun_induction splitFrom line t with
  | case1 => cases h
  | case2 line hne =>
    obtain rfl := List.mem_singleton.mp h
    exact hcut hline hpaired
  | case3 line rest ih =>
    rcases List.mem_cons.mp h with rfl | h
    · exact hcut hline hpaired
    · have hsplit : Paired ((line ++ [13]) ++ 10 :: rest) := by simpa using hpaired
      exact ih h (fun _ hc => by cases hc) (fun c hc => ht c (by simp [hc]))
        (hsplit.after_break (by decide))
  | case4 line c rest _ hbreak ih =>
    rcases List.mem_cons.mp h with rfl | h
    · exact hcut hline hpaired
    · exact ih h (fun _ hc => by cases hc) (fun c hc => ht c (by simp [hc]))
        (hpaired.after_break hbreak)
  | case5 line c rest _ hbreak ih =>
    refine ih h (fun d hd => ?_) (fun d hd => ht d (by simp [hd])) (by simpa using hpaired)
    rcases List.mem_append.mp hd with hd | hd
    · exact hline d hd
    · obtain rfl := List.mem_singleton.mp hd
      exact ⟨ht d List.mem_cons_self, eq_false_of_ne_true hbreak⟩

/-- **Lines without breaks are cut apart again.** -/
theorem splitLines_lines {lines : List Text}
    (h : ∀ line ∈ lines, ∀ c ∈ line, isBreak c = false) :
    splitLines (lines.flatMap (· ++ [10])) = lines := by
  have hcut : ∀ (t line rest : Text), (∀ c ∈ t, isBreak c = false) →
      splitFrom line (t ++ 10 :: rest) = (line ++ t) :: splitFrom [] rest := by
    intro t
    induction t with
    | nil =>
      intro line rest _
      rw [List.append_nil, List.nil_append, splitFrom.eq_def]
      simp [isBreak]
    | cons c t ih =>
      intro line rest ht
      have hc := ht c List.mem_cons_self
      have h13 : c ≠ 13 := by
        rintro rfl
        cases hc
      rw [List.cons_append, splitFrom]
      · rw [hc, if_neg (by decide), ih _ _ fun d hd => ht d (List.mem_cons_of_mem _ hd),
          List.append_assoc]
        rfl
      · intro rest' heq
        exact absurd heq h13
  induction lines with
  | nil => rfl
  | cons line lines ih =>
    have hlines := ih fun line hl => h line (List.mem_cons_of_mem _ hl)
    rw [splitLines] at hlines ⊢
    rw [List.flatMap_cons, List.append_assoc, List.cons_append, List.nil_append,
      hcut line [] _ (h line List.mem_cons_self), hlines, List.nil_append]

end AzazelEdge.Lib.Py
