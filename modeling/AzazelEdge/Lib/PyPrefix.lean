/-
# What is cut off does not parse

The reader of `json.loads` looks no further than it reads: a string, an array or an object that it
took from the front of a text, and a number that something else follows, it takes from a longer text
as well (`scansMore`).  Of a text that is one object, no proper prefix is a JSON text, for what is
left would have to be white space (`loads_prefix`).
-/
import AzazelEdge.Lib.PyRoundTrip
import AzazelEdge.Lib.PySettled
import Mathlib.Data.List.TakeWhile

namespace AzazelEdge.Lib.Py

variable {F : Type} [PyFloat F] {t rest : Text} {s : PyStr} {fuel fuel' : ℕ} {c : ℕ}

/-! ## 1. Strings and white space -/

theorem skipWs_more (h : skipWs t = c :: rest) (more : Text) :
    skipWs (t ++ more) = c :: (rest ++ more) := by
  rw [skipWs, List.dropWhile_append, ← skipWs, h, if_neg (by simp)]
  rfl

/-- A string does not end inside an escape with a number. -/
theorem scanString_cut {more tail : Text} {a b d e : ℕ}
    (h : t ++ more = chBackslash :: chU :: a :: b :: d :: e :: tail)
    (hno : ∀ a b d e tail, t ≠ chBackslash :: chU :: a :: b :: d :: e :: tail) :
    scanString t = none := by
  have hu : unescape chU = none := by decide
  match t with
  | [] => rfl
  | [_] =>
    cases h
    rfl
  | [_, _] | [_, _, _] | [_, _, _, _] | [_, _, _, _, _] =>
    cases h
    simp [scanString, hu]
  | _ :: _ :: _ :: _ :: _ :: _ :: _ =>
    cases h
    exact absurd rfl (hno _ _ _ _ _)

/-- **A string that was read off is read off with more behind it.** -/
theorem scanString_more (h : scanString t = some (s, rest)) (more : Text) :
    scanString (t ++ more) = some (s, rest ++ more) := by
  fun_induction scanString t generalizing s rest
  case case1 | case3 | case4 | case10 | case11 => cases h
  case case2 rest' =>
    cases h
    rfl
  case case5 a b d e high hhex hhigh a' b' d' e' rest' low hhex' hlow ih =>
    obtain ⟨s', rest'', hs, hp⟩ := push_eq_some h
    cases hp
    simp only [List.cons_append]
    rw [scanString]
    simp only [hhex, hhigh, hhex', hlow, if_true, ih hs]
    rfl
  case case6 a b d e high hhex hhigh a' b' d' e' rest' low hhex' hlow ih =>
    obtain ⟨s', rest'', hs, hp⟩ := push_eq_some h
    cases hp
    have hmore := ih hs
    simp only [List.cons_append] at hmore ⊢
    rw [scanString]
    simp only [hhex, hhigh, hhex', hlow, if_true, hmore]
    rfl
  case case7 a b d e high hhex hhigh rest' hno ih =>
    obtain ⟨s', rest'', hs, hp⟩ := push_eq_some h
    cases hp
    simp only [List.cons_append]
    rw [scanString]
    simp only [hhex, hhigh, if_true]
    split
    · rename_i heq
      rw [scanString_cut heq fun _ _ _ _ _ => hno _ _ _ _ _] at hs
      cases hs
    · rw [ih hs]
      rfl
  case case8 a b d e rest' n hhex hhigh ih =>
    obtain ⟨s', rest'', hs, hp⟩ := push_eq_some h
    cases hp
    simp only [List.cons_append]
    rw [scanString]
    simp only [hhex, hhigh, ih hs]
    rfl
  case case9 n rest' hno c hc ih =>
    obtain ⟨s', rest'', hs, hp⟩ := push_eq_some h
    cases hp
    have hu : n ≠ chU := by
      rintro rfl
      cases hc
    rw [List.cons_append, List.cons_append, scanString_short hc hu, ih hs]
    rfl
  case case12 n rest' hquote hu hbackslash hn ih =>
    obtain ⟨s', rest'', hs, hp⟩ := push_eq_some h
    cases hp
    have hplain : n ≠ chBackslash := by
      rintro rfl
      cases rest' with
      | nil => cases hs
      | cons c rest' => exact hbackslash c rest' rfl rfl
    rw [List.cons_append, scanString_plain hquote hplain (by omega), ih hs]
    rfl

/-! ## 2. Numbers -/

/-- Something follows, and it cannot belong to a number. -/
def Followed (rest : Text) : Prop := rest ≠ [] ∧ Ends rest

theorem Followed.cons (h : Followed rest) : ∃ c tail, rest = c :: tail ∧
    isDigit c = false ∧ c ≠ chDot ∧ c ≠ 101 ∧ c ≠ 69 := by
  obtain ⟨hne, hends⟩ := h
  cases rest with
  | nil => exact absurd rfl hne
  | cons c tail => exact ⟨c, tail, rfl, hends c tail rfl⟩

theorem Followed.more (h : Followed rest) (more : Text) : Ends (rest ++ more) := by
  obtain ⟨c, tail, rfl, hc⟩ := h.cons
  exact ends_cons hc

theorem spanDigits_more (h : (spanDigits t).2 ≠ []) (more : Text) :
    spanDigits (t ++ more) = ((spanDigits t).1, (spanDigits t).2 ++ more) := by
  have hsplit : t ++ more = (spanDigits t).1 ++ ((spanDigits t).2 ++ more) := by
    rw [← List.append_assoc]
    exact congrArg (· ++ more) List.takeWhile_append_dropWhile.symm
  rw [hsplit]
  refine spanDigits_append (fun c hc => ?_) fun c tail heq => ?_
  · exact List.all_eq_true.mp List.all_takeWhile c hc
  · have hhead := List.head?_dropWhile_not isDigit t
    cases hrest : t.dropWhile isDigit with
    | nil => exact absurd hrest h
    | cons d rest =>
      rw [hrest] at hhead
      rw [spanDigits, hrest] at heq
      cases heq
      exact hhead

theorem scanInt_more {whole : Text} (h : scanInt t = some (whole, rest)) (hrest : rest ≠ [])
    (more : Text) : scanInt (t ++ more) = some (whole, rest ++ more) := by
  unfold scanInt at h
  split at h
  · cases h
    rfl
  · rename_i hzero
    split_ifs at h with hnone
    cases h
    have hspan := spanDigits_more hrest more
    cases t with
    | nil => exact absurd rfl hnone
    | cons d t =>
      rw [List.cons_append] at hspan ⊢
      unfold scanInt
      split
      · rename_i heq
        exact absurd (by rw [(List.cons.inj heq).1]) (hzero t)
      · rw [hspan, if_neg hnone]
        rfl

/-- Without a fraction, no point may follow. -/
theorem scanFraction_more (h : (scanFraction t).2 ≠ [])
    (hdot : (scanFraction t).1 = [] → t.head? ≠ some chDot) (more : Text) :
    scanFraction (t ++ more) = ((scanFraction t).1, (scanFraction t).2 ++ more) := by
  cases t with
  | nil => exact absurd rfl h
  | cons c t =>
    by_cases hc : c = chDot
    · subst hc
      have hne : (scanFraction (chDot :: t)).1 ≠ [] := fun hnil => hdot hnil rfl
      rw [scanFraction] at h hne ⊢
      by_cases hnone : (spanDigits t).1 = []
      · rw [if_pos hnone] at hne
        exact absurd rfl hne
      · rw [if_neg hnone] at h ⊢
        rw [List.cons_append, scanFraction, spanDigits_more h, if_neg hnone]
    · have hplain : ∀ t, scanFraction (c :: t) = ([], c :: t) := by
        intro t
        unfold scanFraction
        split
        · rename_i heq
          exact absurd (List.cons.inj heq).1 hc
        · rfl
      rw [List.cons_append, hplain, hplain]
      rfl

theorem scanSign_more (h : (scanSign t).2 ≠ []) (more : Text) :
    scanSign (t ++ more) = ((scanSign t).1, (scanSign t).2 ++ more) := by
  cases t with
  | nil => exact absurd rfl h
  | cons c t =>
    by_cases hplus : c = chPlus
    · subst hplus
      rfl
    by_cases hminus : c = chMinus
    · subst hminus
      rfl
    have hplain : ∀ t, scanSign (c :: t) = ([], c :: t) := by
      intro t
      unfold scanSign
      split
      · rename_i heq
        exact absurd (List.cons.inj heq).1 hplus
      · rename_i heq
        exact absurd (List.cons.inj heq).1 hminus
      · rfl
    rw [List.cons_append, hplain, hplain]
    rfl

/-- Without an exponent, no `e` may follow. -/
theorem scanExponent_more (h : (scanExponent t).2 ≠ [])
    (he : (scanExponent t).1 = [] → t.head? ≠ some 101 ∧ t.head? ≠ some 69) (more : Text) :
    scanExponent (t ++ more) = ((scanExponent t).1, (scanExponent t).2 ++ more) := by
  cases t with
  | nil => exact absurd rfl h
  | cons c t =>
    by_cases hc : c = 101 ∨ c = 69
    · have hne : (scanExponent (c :: t)).1 ≠ [] := by
        intro hnil
        obtain ⟨h1, h2⟩ := he hnil
        rcases hc with rfl | rfl
        · exact h1 rfl
        · exact h2 rfl
      rw [scanExponent, if_pos hc] at h hne ⊢
      by_cases hnone : (spanDigits (scanSign t).2).1 = []
      · rw [if_pos hnone] at hne
        exact absurd rfl hne
      · rw [if_neg hnone] at h ⊢
        have hsign : (scanSign t).2 ≠ [] := by
          intro hnil
          rw [hnil] at h
          exact h rfl
        rw [List.cons_append, scanExponent, if_pos hc, scanSign_more hsign]
        simp only [spanDigits_more h, if_neg hnone]
    · rw [List.cons_append, scanExponent, if_neg hc, scanExponent, if_neg hc]
      rfl

theorem scanFraction_none (h : (scanFraction t).1 = []) : (scanFraction t).2 = t := by
  unfold scanFraction at h ⊢
  split
  · rename_i rest
    simp only at h
    split_ifs at h ⊢
    rfl
  · rfl

theorem scanExponent_none (h : (scanExponent t).1 = []) : (scanExponent t).2 = t := by
  unfold scanExponent at h ⊢
  split
  · rename_i c rest
    simp only at h
    split_ifs at h ⊢ <;> rfl
  · rfl

theorem scanNumber_more {negative : Bool} {v : PyJson F} (h : scanNumber negative t = some (v, rest))
    (hrest : Followed rest) (more : Text) :
    scanNumber negative (t ++ more) = some (v, rest ++ more) := by
  unfold scanNumber at h
  split at h
  · cases h
  rename_i whole rest' hwhole
  dsimp only at h
  split at h
  · rename_i hnone
    cases h
    rw [scanNumber, scanInt_more hwhole hrest.1]
    simp only [scanFraction_ends (hrest.more more), scanExponent_ends (hrest.more more), and_self,
      if_true]
  · rename_i hfloat
    cases h
    have hexp : scanExponent ((scanFraction rest').2 ++ more) =
        ((scanExponent (scanFraction rest').2).1, (scanExponent (scanFraction rest').2).2 ++ more) := by
      refine scanExponent_more hrest.1 (fun hnil => ?_) more
      obtain ⟨c, tail, heq, -, -, he, hE⟩ := hrest.cons
      rw [scanExponent_none hnil] at heq
      rw [heq]
      exact ⟨fun h => he (Option.some.inj h), fun h => hE (Option.some.inj h)⟩
    have hfraction : scanFraction (rest' ++ more) =
        ((scanFraction rest').1, (scanFraction rest').2 ++ more) := by
      refine scanFraction_more (fun hnil => ?_) (fun hnil hdot => ?_) more
      · rw [hnil] at hrest
        exact hrest.1 rfl
      · -- no exponent begins with a point
        refine hfloat ⟨hnil, ?_⟩
        rw [scanFraction_none hnil]
        cases rest' with
        | nil => rfl
        | cons c tail =>
          cases hdot
          rfl
    have hne : rest' ≠ [] := by
      rintro rfl
      exact hrest.1 rfl
    rw [scanNumber, scanInt_more hwhole hne]
    simp only [hfraction, hexp, if_neg hfloat]

theorem dropToken_eq {token : Text} (h : dropToken token t = some rest) : t = token ++ rest := by
  unfold dropToken at h
  split_ifs at h with hprefix
  cases h
  obtain ⟨tail, rfl⟩ := List.isPrefixOf_iff_prefix.mp hprefix
  rw [List.drop_left]

/-- A number begins with a digit. -/
theorem scanNumber_digit {negative : Bool} {v : PyJson F}
    (h : scanNumber negative t = some (v, rest)) : ∃ c tail, t = c :: tail ∧ isDigit c = true := by
  unfold scanNumber scanInt at h
  split at h
  · cases h
  rename_i whole rest' hwhole
  split at hwhole
  · exact ⟨_, _, rfl, rfl⟩
  · split_ifs at hwhole with hnone
    cases t with
    | nil => exact absurd rfl hnone
    | cons c tail =>
      refine ⟨c, tail, rfl, ?_⟩
      by_contra hc
      exact hnone (by simp [spanDigits, hc])

theorem scanScalar_more {v : PyJson F} (h : scanScalar t = some (v, rest)) (hrest : Followed rest)
    (more : Text) : scanScalar (t ++ more) = some (v, rest ++ more) := by
  unfold scanScalar at h
  split at h
  · rename_i hdrop
    cases h
    rw [dropToken_eq hdrop, List.append_assoc]
    simp [scanScalar, dropToken, ascii_null, List.isPrefixOf]
  split at h
  · rename_i hdrop
    cases h
    rw [dropToken_eq hdrop, List.append_assoc]
    simp [scanScalar, dropToken, ascii_null, ascii_true, List.isPrefixOf]
  split at h
  · rename_i hdrop
    cases h
    rw [dropToken_eq hdrop, List.append_assoc]
    simp [scanScalar, dropToken, ascii_null, ascii_true, ascii_false, List.isPrefixOf]
  split at h
  · rename_i token rest' hfind
    cases h
    obtain ⟨token', htoken, hdrop⟩ := List.exists_of_findSome?_eq_some hfind
    obtain ⟨rest'', hdrop, heq⟩ := Option.map_eq_some_iff.mp hdrop
    cases heq
    have hconst : scanOnce (F := F) 1 (token ++ (rest ++ more)) =
        some (.float (PyFloat.ofText token), rest ++ more) := scanOnce_constant htoken
    rw [dropToken_eq hdrop, List.append_assoc]
    simp only [floatConstants, List.mem_cons, List.not_mem_nil, or_false] at htoken
    rcases htoken with rfl | rfl | rfl <;> exact hconst
  split at h
  · obtain ⟨c, tail, rfl, hc⟩ := scanNumber_digit h
    have hmore := scanNumber_more h hrest more
    rw [List.cons_append] at hmore
    rw [List.cons_append, List.cons_append, scanScalar_minus hc, hmore]
  · obtain ⟨c, tail, rfl, hc⟩ := scanNumber_digit h
    have hmore := scanNumber_more h hrest more
    rw [List.cons_append] at hmore
    rw [List.cons_append, scanScalar_digit hc, hmore]

/-! ## 3. Values -/

/-- A character that stands between values, behind white space. -/
theorem followed_of_skip (h : skipWs t = c :: rest)
    (hc : isDigit c = false ∧ c ≠ chDot ∧ c ≠ 101 ∧ c ≠ 69) : Followed t := by
  cases t with
  | nil => cases h
  | cons d t =>
    refine ⟨by simp, ends_cons ?_⟩
    by_cases hws : d = 32 ∨ d = 9 ∨ d = 10 ∨ d = 13
    · rcases hws with rfl | rfl | rfl | rfl <;> decide
    · simp only [not_or] at hws
      rw [skipWs_cons hws] at h
      cases h
      exact hc

/-- What is taken with some fuel is taken with more fuel and with more text behind it: a value that
is a string, an array or an object by its first character, or that something else follows. -/
def ScansMore (F : Type) [PyFloat F] (fuel : ℕ) : Prop :=
  ∀ fuel', fuel ≤ fuel' → ∀ more : Text,
    (∀ t (v : PyJson F) rest, scanOnce fuel t = some (v, rest) →
      t.head? = some chOpenBrace ∨ Followed rest →
        scanOnce fuel' (t ++ more) = some (v, rest ++ more)) ∧
    (∀ t (items : List (PyJson F)) rest, scanItems fuel t = some (items, rest) →
      scanItems fuel' (t ++ more) = some (items, rest ++ more)) ∧
    ∀ t (members : List (PyStr × PyJson F)) rest, scanMembers fuel t = some (members, rest) →
      scanMembers fuel' (t ++ more) = some (members, rest ++ more)

theorem scanOnce_nil (fuel : ℕ) : scanOnce (F := F) fuel [] = none := by
  cases fuel <;> rfl

theorem scanItems_nil (fuel : ℕ) : scanItems (F := F) fuel [] = none := by
  cases fuel with
  | zero => rfl
  | succ fuel => rw [scanItems, scanOnce_nil]

/-- Behind the white space stands what is read. -/
theorem skipWs_more_of_ne (h : skipWs t ≠ []) (more : Text) : skipWs (t ++ more) = skipWs t ++ more := by
  cases hskip : skipWs t with
  | nil => exact absurd hskip h
  | cons c rest => rw [skipWs_more hskip, List.cons_append]

theorem scanOnce_more (ih : ScansMore F fuel) (hle : fuel ≤ fuel') {v : PyJson F}
    (h : scanOnce (fuel + 1) t = some (v, rest))
    (hrest : t.head? = some chOpenBrace ∨ Followed rest) (more : Text) :
    scanOnce (fuel' + 1) (t ++ more) = some (v, rest ++ more) := by
  cases t with
  | nil => cases h
  | cons c t =>
    rw [scanOnce] at h
    rw [List.cons_append, scanOnce]
    split_ifs at h ⊢ with hquote hbrace hbracket
    · obtain ⟨⟨s, rest'⟩, hs, heq⟩ := Option.map_eq_some_iff.mp h
      cases heq
      rw [scanString_more hs]
      rfl
    · split at h
      · cases h
      rename_i d rest' hskip
      rw [skipWs_more hskip]
      simp only
      split_ifs at h ⊢ with hclose hkey
      · cases h
        rfl
      · obtain ⟨⟨members, rest''⟩, hm, heq⟩ := Option.map_eq_some_iff.mp h
        cases heq
        rw [(ih fuel' hle more).2.2 _ _ _ hm]
        rfl
    · split at h
      · cases h
      rename_i d rest' hskip
      rw [skipWs_more hskip]
      simp only
      split_ifs at h ⊢ with hclose
      · cases h
        rfl
      · obtain ⟨⟨items, rest''⟩, hi, heq⟩ := Option.map_eq_some_iff.mp h
        cases heq
        rw [hskip] at hi
        have hmore := (ih fuel' hle more).2.1 _ _ _ hi
        rw [List.cons_append] at hmore
        rw [hmore]
        rfl
    · have hfollowed : Followed rest := by
        rcases hrest with hhead | hfollowed
        · exact absurd (Option.some.inj hhead) hbrace
        · exact hfollowed
      exact scanScalar_more h hfollowed more

theorem scanItems_more (ih : ScansMore F fuel) (hle : fuel ≤ fuel') {items : List (PyJson F)}
    (h : scanItems (fuel + 1) t = some (items, rest)) (more : Text) :
    scanItems (fuel' + 1) (t ++ more) = some (items, rest ++ more) := by
  obtain ⟨honce, hitems, -⟩ := ih fuel' hle more
  rw [scanItems] at h ⊢
  split at h
  · cases h
  rename_i item rest' hitem
  split at h
  · cases h
  rename_i c rest'' hskip
  have hfollowed : c = chCloseBracket ∨ c = chComma → Followed rest' := fun hc =>
    followed_of_skip hskip (by rcases hc with rfl | rfl <;> decide)
  split_ifs at h with hclose hcomma
  · cases h
    rw [honce _ _ _ hitem (.inr (hfollowed (.inl hclose)))]
    simp only [skipWs_more hskip, if_pos hclose]
  · obtain ⟨⟨items', rest₃⟩, hi, heq⟩ := Option.map_eq_some_iff.mp h
    cases heq
    rw [honce _ _ _ hitem (.inr (hfollowed (.inr hcomma)))]
    have hne : skipWs rest'' ≠ [] := by
      intro hnil
      rw [hnil, scanItems_nil] at hi
      cases hi
    simp only [skipWs_more hskip, if_neg hclose, if_pos hcomma, skipWs_more_of_ne hne,
      hitems _ _ _ hi, Option.map_some]

theorem scanMembers_more (ih : ScansMore F fuel) (hle : fuel ≤ fuel')
    {members : List (PyStr × PyJson F)} (h : scanMembers (fuel + 1) t = some (members, rest))
    (more : Text) : scanMembers (fuel' + 1) (t ++ more) = some (members, rest ++ more) := by
  obtain ⟨honce, -, hmembers⟩ := ih fuel' hle more
  rw [scanMembers] at h ⊢
  split at h
  · cases h
  rename_i key rest₁ hkey
  simp only [scanString_more hkey]
  split at h
  · cases h
  rename_i c rest₂ hskip
  simp only [skipWs_more hskip]
  split_ifs at h ⊢ with hcolon
  split at h
  · cases h
  rename_i value rest₃ hvalue
  have hne : skipWs rest₂ ≠ [] := by
    intro hnil
    rw [hnil, scanOnce_nil] at hvalue
    cases hvalue
  rw [skipWs_more_of_ne hne]
  split at h
  · cases h
  rename_i d rest₄ hskip'
  have hfollowed : d = chCloseBrace ∨ d = chComma → Followed rest₃ := fun hd =>
    followed_of_skip hskip' (by rcases hd with rfl | rfl <;> decide)
  split_ifs at h with hclose hcomma
  · cases h
    rw [honce _ _ _ hvalue (.inr (hfollowed (.inl hclose)))]
    simp only [skipWs_more hskip', if_pos hclose]
  · rw [honce _ _ _ hvalue (.inr (hfollowed (.inr hcomma)))]
    split at h
    · cases h
    rename_i e rest₅ hskip''
    simp only [skipWs_more hskip', skipWs_more hskip'', if_neg hclose, if_pos hcomma]
    split_ifs at h ⊢ with hquote
    obtain ⟨⟨members', rest₆⟩, hm, heq⟩ := Option.map_eq_some_iff.mp h
    cases heq
    rw [hmembers _ _ _ hm]
    rfl

/-- **The reader looks no further than it reads.** -/
theorem scansMore : ScansMore F fuel := by
  induction fuel with
  | zero =>
    intro fuel' _ more
    refine ⟨fun t _ _ h => ?_, fun _ _ _ h => ?_, fun _ _ _ h => ?_⟩
    · cases t <;> cases h
    · cases h
    · cases h
  | succ fuel ih =>
    intro fuel' hle more
    obtain ⟨fuel', rfl⟩ : ∃ n, fuel' = n + 1 := ⟨fuel' - 1, by omega⟩
    have hle' : fuel ≤ fuel' := by omega
    exact ⟨fun _ _ _ h hrest => scanOnce_more ih hle' h hrest more,
      fun _ _ _ h => scanItems_more ih hle' h more, fun _ _ _ h => scanMembers_more ih hle' h more⟩

/-! ## 4. Prefixes -/

/-- **A proper prefix of an object's text does not parse.** -/
theorem loads_prefix {v : PyJson F} {front : Text} (hloads : loads t = some v)
    (hhead : t.head? = some chOpenBrace) (hlast : t.getLast? = some chCloseBrace)
    (hfront : front <+: t) (hne : front ≠ t) : loads (F := F) front = none := by
  obtain ⟨more, rfl⟩ := hfront
  have hmore : more ≠ [] := fun h => hne (by rw [h, List.append_nil])
  by_contra hsome
  obtain ⟨v', hv'⟩ := Option.ne_none_iff_exists'.mp hsome
  cases front with
  | nil => cases hv'
  | cons c front =>
    obtain rfl : c = chOpenBrace := Option.some.inj hhead
    have hskip : ∀ rest, skipWs (chOpenBrace :: rest) = chOpenBrace :: rest := fun rest =>
      skipWs_cons (by decide)
    rw [loads, hskip] at hv'
    rw [List.cons_append, loads, hskip] at hloads
    split at hv'
    · cases hv'
    rename_i value rest hscan
    split_ifs at hv' with hws
    have hlong := (scansMore ((chOpenBrace :: (front ++ more)).length + 1)
      (by simp only [List.length_cons, List.length_append]; omega) more).1 _ _ _ hscan (.inl rfl)
    rw [List.cons_append] at hlong
    rw [hlong] at hloads
    simp only at hloads
    split_ifs at hloads with hend
    -- the closing brace is no white space
    have hbrace : chCloseBrace ∈ rest ++ more := by
      refine List.mem_append_right _ (List.mem_of_getLast? ?_)
      rwa [List.getLast?_append_of_ne_nil _ hmore] at hlast
    have hall := List.dropWhile_eq_nil_iff.mp hend chCloseBrace hbrace
    exact absurd hall (by decide)

end AzazelEdge.Lib.Py
