/-
# What is read is settled

A value that `json.loads` makes of a decoded text is read back as it is: no surrogate pair is left
in its strings, since a pair of escapes was joined and a decoded text has no surrogates of its own,
and the names of an object's members are pairwise different.  A file that is read, changed and
written over again therefore keeps the entries that the change left alone.
-/
import AzazelEdge.Lib.PyRead

namespace AzazelEdge.Lib.Py

variable {F : Type} [PyFloat F] {t rest : Text} {s : PyStr} {c : CodePoint}

/-! ## 1. Strings -/

/-- A decoded text: code points, none of them a surrogate. -/
def Decoded (t : Text) : Prop := ∀ c ∈ t, c < 0x110000 ∧ isHigh c = false ∧ isLow c = false

theorem Decoded.of_suffix (h : Decoded t) (hsuffix : rest <:+ t) : Decoded rest :=
  fun c hc => h c (hsuffix.subset hc)

theorem Decoded.tail {a : ℕ} (h : Decoded (a :: t)) : Decoded t :=
  fun c hc => h c (List.mem_cons_of_mem _ hc)

theorem hexVal_lt {c n : ℕ} (h : hexVal c = some n) : n < 16 := by
  unfold hexVal at h
  split_ifs at h <;> injection h with h <;> omega

theorem hexVal4_lt {a b c d n : ℕ} (h : hexVal4 a b c d = some n) : n < 65536 := by
  unfold hexVal4 at h
  split at h
  · rename_i ha hb hc hd
    have := hexVal_lt ha
    have := hexVal_lt hb
    have := hexVal_lt hc
    have := hexVal_lt hd
    injection h with h
    omega
  · cases h

theorem ofNat_lt {n : ℕ} (h : n < 0x110000) : (Fin.ofNat 0x110000 n).val = n := by
  rw [Fin.val_ofNat, Nat.mod_eq_of_lt h]

theorem unescape_small {n : ℕ} (h : unescape n = some c) : c.val < 128 := by
  unfold unescape at h
  split_ifs at h with h₁ h₂ h₃ h₄ h₅ h₆
  · injection h with h
    rw [← h, ofNat_lt] <;> rcases h₁ with rfl | rfl | rfl <;> decide
  all_goals
    injection h with h
    rw [← h]
    decide

theorem not_isHigh_of_small {n : ℕ} (h : n < 128) : isHigh n = false ∧ isLow n = false := by
  simp only [isHigh, isLow, Bool.and_eq_false_iff, decide_eq_false_iff_not]
  omega

/-- A low surrogate in front of a string that was read came of an escape. -/
def LowEscaped (t : Text) (s : PyStr) : Prop :=
  ∀ c s', s = c :: s' → isLow c.val = true → ∃ a b d e low tail,
    t = chBackslash :: chU :: a :: b :: d :: e :: tail ∧ hexVal4 a b d e = some low ∧
      isLow low = true

/-- A string as `scanString` leaves it. -/
structure ReadStr (t : Text) (s : PyStr) (rest : Text) : Prop where
  joined : joinPairs s = s
  suffix : rest <:+ t
  low : LowEscaped t s

theorem push_eq_some {r : Option (PyStr × Text)} {p : PyStr × Text} (h : push c r = some p) :
    ∃ s rest, r = some (s, rest) ∧ p = (c :: s, rest) := by
  obtain ⟨⟨s, rest⟩, hr, hp⟩ := Option.map_eq_some_iff.mp h
  exact ⟨s, rest, hr, hp.symm⟩

/-- A high surrogate stays alone where no low one follows. -/
theorem joinPairs_cons (h : isHigh c.val = false ∨ ∀ d s', s = d :: s' → isLow d.val = false) :
    joinPairs (c :: s) = c :: joinPairs s := by
  rcases h with h | h
  · exact joinPairs_cons_of_not_isHigh h s
  · cases s with
    | nil => rfl
    | cons d s => rw [joinPairs, if_neg (by rw [h d s rfl]; simp)]

/-- One more character in front of a string that was read. -/
theorem ReadStr.push {mid : Text} (h : ReadStr mid s rest) (hmid : mid <:+ t)
    (hhigh : isHigh c.val = false ∨ ∀ d s', s = d :: s' → isLow d.val = false)
    (hlow : isLow c.val = true → ∃ a b d e low tail,
      t = chBackslash :: chU :: a :: b :: d :: e :: tail ∧ hexVal4 a b d e = some low ∧
        isLow low = true) : ReadStr t (c :: s) rest where
  joined := by rw [joinPairs_cons hhigh, h.joined]
  suffix := h.suffix.trans hmid
  low := by
    rintro d s' heq hd
    obtain ⟨rfl, -⟩ := List.cons.inj heq
    exact hlow hd

/-- **No surrogate pair is left in a string that was read.** -/
theorem scanString_read (hd : Decoded t) (h : scanString t = some (s, rest)) :
    ReadStr t s rest := by
  fun_induction scanString t generalizing s rest
  case case1 | case3 | case4 | case10 | case11 => cases h
  case case2 rest' =>
    cases h
    exact ⟨rfl, List.suffix_cons _ _, nofun⟩
  case case5 a b d e high hhex hhigh a' b' d' e' rest' low hhex' hlow ih =>
    obtain ⟨s', rest'', hs, hp⟩ := push_eq_some h
    cases hp
    have hlarge := not_surrogate_of_large (joined_large hhigh hlow)
    have hmid : rest' <:+ chBackslash :: chU :: a :: b :: d :: e :: chBackslash :: chU ::
        a' :: b' :: d' :: e' :: rest' := ⟨[_, _, _, _, _, _, _, _, _, _, _, _], rfl⟩
    refine (ih (hd.of_suffix hmid) hs).push hmid (.inl hlarge.1) fun hlow' => ?_
    rw [hlarge.2] at hlow'
    cases hlow'
  case case6 a b d e high hhex hhigh a' b' d' e' rest' low hhex' hlow ih =>
    obtain ⟨s', rest'', hs, hp⟩ := push_eq_some h
    cases hp
    have hval := ofNat_lt (n := high) (by have := hexVal4_lt hhex; omega)
    have hmid : chBackslash :: chU :: a' :: b' :: d' :: e' :: rest' <:+ chBackslash :: chU :: a ::
        b :: d :: e :: chBackslash :: chU :: a' :: b' :: d' :: e' :: rest' :=
      ⟨[_, _, _, _, _, _], rfl⟩
    have hread := ih (hd.of_suffix hmid) hs
    -- The escape that follows is no low surrogate, and no other character can be one.
    refine hread.push hmid (.inr fun c s'' heq => ?_) fun hlow' => ⟨a, b, d, e, high, _, rfl, hhex, ?_⟩
    · refine eq_false_of_ne_true fun hc => hlow ?_
      obtain ⟨_, _, _, _, low', _, ht, hlowhex, hlow'⟩ := hread.low c s'' heq hc
      cases ht
      rw [hhex'] at hlowhex
      cases hlowhex
      exact hlow'
    · rwa [hval] at hlow'
  case case7 a b d e high hhex hhigh rest' hno ih =>
    obtain ⟨s', rest'', hs, hp⟩ := push_eq_some h
    cases hp
    have hval := ofNat_lt (n := high) (by have := hexVal4_lt hhex; omega)
    have hmid : rest' <:+ chBackslash :: chU :: a :: b :: d :: e :: rest' :=
      ⟨[_, _, _, _, _, _], rfl⟩
    have hread := ih (hd.of_suffix hmid) hs
    refine hread.push hmid (.inr fun c s'' heq => ?_) fun hlow' => ⟨a, b, d, e, high, _, rfl, hhex, ?_⟩
    · refine eq_false_of_ne_true fun hc => ?_
      obtain ⟨_, _, _, _, _, _, ht, -⟩ := hread.low c s'' heq hc
      exact hno _ _ _ _ _ ht
    · rwa [hval] at hlow'
  case case8 a b d e rest' n hhex hhigh ih =>
    obtain ⟨s', rest'', hs, hp⟩ := push_eq_some h
    cases hp
    have hval := ofNat_lt (n := n) (by have := hexVal4_lt hhex; omega)
    have hmid : rest' <:+ chBackslash :: chU :: a :: b :: d :: e :: rest' :=
      ⟨[_, _, _, _, _, _], rfl⟩
    refine (ih (hd.of_suffix hmid) hs).push hmid (.inl ?_) fun hlow' =>
      ⟨a, b, d, e, n, _, rfl, hhex, ?_⟩
    · rw [hval]
      exact eq_false_of_ne_true hhigh
    · rwa [hval] at hlow'
  case case9 n rest' hno c hc ih =>
    obtain ⟨s', rest'', hs, hp⟩ := push_eq_some h
    cases hp
    have hsmall := not_isHigh_of_small (unescape_small hc)
    have hmid : rest' <:+ chBackslash :: n :: rest' := ⟨[_, _], rfl⟩
    refine (ih (hd.of_suffix hmid) hs).push hmid (.inl hsmall.1) fun hlow' => ?_
    rw [hsmall.2] at hlow'
    cases hlow'
  case case12 n rest' hquote hu hbackslash hn ih =>
    obtain ⟨s', rest'', hs, hp⟩ := push_eq_some h
    cases hp
    obtain ⟨hlt, hhigh, hlow⟩ := hd n List.mem_cons_self
    have hval := ofNat_lt hlt
    refine (ih hd.tail hs).push (List.suffix_cons _ _) (.inl ?_) fun hlow' => ?_
    · rwa [hval]
    rw [hval, hlow] at hlow'
    cases hlow'

/-! ## 2. Scalars -/

theorem skipWs_suffix (t : Text) : skipWs t <:+ t := List.dropWhile_suffix _

theorem spanDigits_suffix (t : Text) : (spanDigits t).2 <:+ t := List.dropWhile_suffix _

theorem scanInt_suffix {whole : Text} (h : scanInt t = some (whole, rest)) : rest <:+ t := by
  unfold scanInt at h
  split at h
  · cases h
    exact List.suffix_cons _ _
  · split_ifs at h
    cases h
    exact spanDigits_suffix t

theorem scanFraction_suffix (t : Text) : (scanFraction t).2 <:+ t := by
  unfold scanFraction
  split
  · split_ifs
    · exact List.suffix_refl _
    · exact (spanDigits_suffix _).trans (List.suffix_cons _ _)
  · exact List.suffix_refl _

theorem scanSign_suffix (t : Text) : (scanSign t).2 <:+ t := by
  unfold scanSign
  split
  · exact List.suffix_cons _ _
  · exact List.suffix_cons _ _
  · exact List.suffix_refl _

theorem scanExponent_suffix (t : Text) : (scanExponent t).2 <:+ t := by
  unfold scanExponent
  split
  · split_ifs
    · exact List.suffix_refl _
    · exact ((spanDigits_suffix _).trans (scanSign_suffix _)).trans (List.suffix_cons _ _)
    · exact List.suffix_refl _
  · exact List.suffix_refl _

/-- A value that is read back as it is, and a rest of the text. -/
def Read (t : Text) (p : PyJson F × Text) : Prop := settled p.1 = p.1 ∧ p.2 <:+ t

theorem scanNumber_read {negative : Bool} {p : PyJson F × Text}
    (h : scanNumber negative t = some p) : Read t p := by
  unfold scanNumber at h
  split at h
  · cases h
  · rename_i whole rest hwhole
    have hsuffix := scanInt_suffix hwhole
    have hend := ((scanExponent_suffix (scanFraction rest).2).trans
      (scanFraction_suffix rest)).trans hsuffix
    dsimp only at h
    split at h
    · cases h
      exact ⟨rfl, hsuffix⟩
    · cases h
      exact ⟨rfl, hend⟩

theorem dropToken_suffix {token : Text} (h : dropToken token t = some rest) : rest <:+ t := by
  unfold dropToken at h
  split_ifs at h
  cases h
  exact List.drop_suffix _ _

theorem scanScalar_read {p : PyJson F × Text} (h : scanScalar t = some p) : Read t p := by
  unfold scanScalar at h
  split at h
  · rename_i hdrop
    cases h
    exact ⟨rfl, dropToken_suffix hdrop⟩
  split at h
  · rename_i hdrop
    cases h
    exact ⟨rfl, dropToken_suffix hdrop⟩
  split at h
  · rename_i hdrop
    cases h
    exact ⟨rfl, dropToken_suffix hdrop⟩
  split at h
  · rename_i token rest hfind
    obtain ⟨token', -, hdrop⟩ := List.exists_of_findSome?_eq_some hfind
    obtain ⟨rest', hdrop, heq⟩ := Option.map_eq_some_iff.mp hdrop
    cases heq
    cases h
    exact ⟨rfl, dropToken_suffix hdrop⟩
  split at h
  · obtain ⟨hsettled, hsuffix⟩ := scanNumber_read h
    exact ⟨hsettled, hsuffix.trans (List.suffix_cons _ _)⟩
  · exact scanNumber_read h

/-! ## 3. Values -/

/-- The members that were read, and a rest of the text. -/
def ReadMembers (t : Text) (p : List (PyStr × PyJson F) × Text) : Prop :=
  (∀ member ∈ p.1, settledMember member = member) ∧ p.2 <:+ t

/-- The items that were read, and a rest of the text. -/
def ReadItems (t : Text) (p : List (PyJson F) × Text) : Prop :=
  settledItems p.1 = p.1 ∧ p.2 <:+ t

omit [PyFloat F] in
/-- What was made into a dict is one. -/
theorem settled_pyDict {members : List (PyStr × PyJson F)}
    (h : ∀ member ∈ members, settledMember member = member) :
    settled (.obj (pyDict members)) = .obj (pyDict members) := by
  have hsame : settledMembers (pyDict members) = pyDict members := by
    rw [settledMembers_eq]
    conv_rhs => rw [← List.map_id (pyDict members)]
    exact List.map_congr_left fun member hmember => h member (mem_pyDict hmember)
  rw [settled, hsame, pyDict_of_nodup (pyDict_keys_nodup _)]

theorem skipWs_cons_suffix {a : ℕ} (h : skipWs t = a :: rest) : rest <:+ t :=
  (List.suffix_cons a rest).trans (h ▸ skipWs_suffix t)

section Scan

variable {fuel : ℕ}

/-- The reader with this fuel leaves nothing to settle. -/
def ReadsSettled (F : Type) [PyFloat F] (fuel : ℕ) : Prop :=
  (∀ t, Decoded t → ∀ p, scanOnce (F := F) fuel t = some p → Read t p) ∧
  (∀ t, Decoded t → ∀ p, scanItems (F := F) fuel t = some p → ReadItems t p) ∧
  ∀ t, Decoded t → ∀ p, scanMembers (F := F) fuel t = some p → ReadMembers t p

theorem scanOnce_read (ih : ReadsSettled F fuel) (hd : Decoded t) {p : PyJson F × Text}
    (h : scanOnce (fuel + 1) t = some p) : Read t p := by
  cases t with
  | nil => cases h
  | cons c rest =>
    rw [scanOnce] at h
    split at h
    · obtain ⟨⟨s, rest'⟩, hs, hp⟩ := Option.map_eq_some_iff.mp h
      cases hp
      have hread := scanString_read hd.tail hs
      exact ⟨by rw [settled, hread.joined], hread.suffix.trans (List.suffix_cons _ _)⟩
    split at h
    · split at h
      · cases h
      rename_i b rest' hskip
      have hrest := (skipWs_cons_suffix hskip).trans (List.suffix_cons c rest)
      split at h
      · cases h
        exact ⟨rfl, hrest⟩
      split at h
      · obtain ⟨⟨members, rest''⟩, hm, hp⟩ := Option.map_eq_some_iff.mp h
        cases hp
        obtain ⟨hmembers, hsuffix⟩ := ih.2.2 _ (hd.of_suffix hrest) _ hm
        exact ⟨settled_pyDict hmembers, hsuffix.trans hrest⟩
      · cases h
    split at h
    · split at h
      · cases h
      rename_i b rest' hskip
      have hrest := (skipWs_cons_suffix hskip).trans (List.suffix_cons c rest)
      have hskipped := (skipWs_suffix rest).trans (List.suffix_cons c rest)
      split at h
      · cases h
        exact ⟨rfl, hrest⟩
      · obtain ⟨⟨items, rest''⟩, hi, hp⟩ := Option.map_eq_some_iff.mp h
        cases hp
        obtain ⟨hitems, hsuffix⟩ := ih.2.1 _ (hd.of_suffix hskipped) _ hi
        exact ⟨by rw [settled]; exact congrArg _ hitems, hsuffix.trans hskipped⟩
    · exact scanScalar_read h

theorem scanItems_read (ih : ReadsSettled F fuel) (hd : Decoded t) {p : List (PyJson F) × Text}
    (h : scanItems (fuel + 1) t = some p) : ReadItems t p := by
  rw [scanItems] at h
  split at h
  · cases h
  rename_i item rest hitem
  obtain ⟨hsettled, hsuffix⟩ := ih.1 _ hd _ hitem
  split at h
  · cases h
  rename_i c rest' hskip
  have hrest := (skipWs_cons_suffix hskip).trans hsuffix
  split at h
  · cases h
    exact ⟨by rw [settledItems, settledItems, hsettled], hrest⟩
  split at h
  · obtain ⟨⟨items, rest''⟩, hi, hp⟩ := Option.map_eq_some_iff.mp h
    cases hp
    have hskipped := (skipWs_suffix rest').trans hrest
    obtain ⟨hitems, hsuffix'⟩ := ih.2.1 _ (hd.of_suffix hskipped) _ hi
    exact ⟨by rw [settledItems, hsettled]; exact congrArg _ hitems, hsuffix'.trans hskipped⟩
  · cases h

theorem scanMembers_read (ih : ReadsSettled F fuel) (hd : Decoded t)
    {p : List (PyStr × PyJson F) × Text} (h : scanMembers (fuel + 1) t = some p) :
    ReadMembers t p := by
  rw [scanMembers] at h
  split at h
  · cases h
  rename_i key rest hkey
  have hread := scanString_read hd hkey
  split at h
  · cases h
  rename_i c rest₁ hskip
  have hrest₁ := (skipWs_cons_suffix hskip).trans hread.suffix
  split at h
  swap
  · cases h
  split at h
  · cases h
  rename_i value rest₂ hvalue
  have hskipped := (skipWs_suffix rest₁).trans hrest₁
  obtain ⟨hsettled, hsuffix⟩ := ih.1 _ (hd.of_suffix hskipped) _ hvalue
  have hmember : settledMember (key, value) = (key, value) := by
    rw [settledMember, hread.joined, hsettled]
  split at h
  · cases h
  rename_i c' rest₃ hskip₃
  have hrest₃ := ((skipWs_cons_suffix hskip₃).trans hsuffix).trans hskipped
  split at h
  · cases h
    exact ⟨by simpa using hmember, hrest₃⟩
  split at h
  swap
  · cases h
  split at h
  · cases h
  rename_i c'' rest₄ hskip₄
  have hrest₄ := (skipWs_cons_suffix hskip₄).trans hrest₃
  split at h
  · obtain ⟨⟨members, rest₅⟩, hm, hp⟩ := Option.map_eq_some_iff.mp h
    cases hp
    obtain ⟨hmembers, hsuffix'⟩ := ih.2.2 _ (hd.of_suffix hrest₄) _ hm
    refine ⟨fun member hin => ?_, hsuffix'.trans hrest₄⟩
    rcases List.mem_cons.mp hin with rfl | hin
    · exact hmember
    · exact hmembers member hin
  · cases h

theorem readsSettled : ReadsSettled F fuel := by
  induction fuel with
  | zero =>
    refine ⟨fun t _ p h => ?_, fun _ _ _ h => ?_, fun _ _ _ h => ?_⟩
    · cases t <;> cases h
    · cases h
    · cases h
  | succ fuel ih =>
    exact ⟨fun _ hd _ h => scanOnce_read ih hd h, fun _ hd _ h => scanItems_read ih hd h,
      fun _ hd _ h => scanMembers_read ih hd h⟩

end Scan

/-- **A value that was read of a decoded text is read back as it is.** -/
theorem settled_of_loads (hd : Decoded t) {v : PyJson F} (h : loads t = some v) : settled v = v := by
  unfold loads at h
  split at h
  · cases h
  rename_i value rest hscan
  split at h
  · cases h
    exact (readsSettled.1 _ (hd.of_suffix (skipWs_suffix t)) _ hscan).1
  · cases h

/-! ## 4. Files -/

theorem Decoded.cons {a : ℕ} (ha : a < 0x110000 ∧ isHigh a = false ∧ isLow a = false)
    (h : Decoded t) : Decoded (a :: t) := fun c hc => (List.mem_cons.mp hc).elim (· ▸ ha) (h c)

theorem isCont_range {b : ℕ} (h : isCont b = true) : 0x80 ≤ b ∧ b ≤ 0xBF := by
  simpa [isCont] using h

/-- A decoded character that is below the surrogates, or above them. -/
theorem decoded_char {n : ℕ} (h : n < 0xD800 ∨ (0xE000 ≤ n ∧ n < 0x110000)) :
    n < 0x110000 ∧ isHigh n = false ∧ isLow n = false := by
  simp only [isHigh, isLow, Bool.and_eq_false_iff, decide_eq_false_iff_not]
  omega

/-- **A text that was decoded strictly has no surrogates.** -/
theorem decodeUtf8_decoded {bytes : Text} (h : decodeUtf8 false bytes = some t) : Decoded t := by
  fun_induction decodeUtf8 false bytes generalizing t
  case case1 =>
    cases h
    exact fun _ hc => by cases hc
  case case3 | case5 | case6 | case8 | case9 | case11 => cases h
  case case2 a rest ha ih =>
    obtain ⟨t', ht, rfl⟩ := Option.map_eq_some_iff.mp h
    exact (ih ht).cons (decoded_char (.inl (by omega)))
  case case4 a ha b rest hlead hb ih =>
    obtain ⟨t', ht, rfl⟩ := Option.map_eq_some_iff.mp h
    have := isCont_range hb
    exact (ih ht).cons (decoded_char (.inl (by omega)))
  case case7 a ha b hlead₂ c rest hlead hcont ih =>
    obtain ⟨t', ht, rfl⟩ := Option.map_eq_some_iff.mp h
    obtain ⟨hb, hc, hlow, hsurrogate⟩ := hcont
    have := isCont_range hb
    have := isCont_range hc
    -- Only the lead byte 0xED could make a surrogate.
    have hsmall : a = 0xED → b ≤ 0x9F := fun ha => (hsurrogate ha).resolve_right (by decide)
    exact (ih ht).cons (decoded_char (by omega))
  case case10 a ha b hlead₂ c hlead₃ d rest hcont ih =>
    obtain ⟨t', ht, rfl⟩ := Option.map_eq_some_iff.mp h
    obtain ⟨hlo, hhi, hb, hc, hd, hmin, hmax⟩ := hcont
    have := isCont_range hb
    have := isCont_range hc
    have := isCont_range hd
    exact (ih ht).cons (decoded_char (.inr (by omega)))

theorem mem_splitFrom {line : Text} (h : line ∈ splitFrom rest t) {c : ℕ} (hc : c ∈ line) :
    c ∈ rest ∨ c ∈ t := by
  fun_induction splitFrom rest t
  case case1 => cases h
  case case2 line' hne =>
    rw [List.mem_singleton.mp h] at hc
    exact .inl hc
  case case3 line' rest' ih =>
    rcases List.mem_cons.mp h with rfl | h
    · exact .inl hc
    · exact .inr (by simp [(ih h).resolve_left (List.not_mem_nil)])
  case case4 line' c' rest' _ hbreak ih =>
    rcases List.mem_cons.mp h with rfl | h
    · exact .inl hc
    · exact .inr (List.mem_cons_of_mem _ ((ih h).resolve_left List.not_mem_nil))
  case case5 line' c' rest' _ hbreak ih =>
    rcases ih h with hin | hin
    · rcases List.mem_append.mp hin with hin | hin
      · exact .inl hin
      · exact .inr (List.mem_cons.mpr (.inl (List.mem_singleton.mp hin)))
    · exact .inr (List.mem_cons_of_mem _ hin)

/-- **So is every value on a line of a file.** -/
theorem settled_of_line {bytes line : Text} (h : decodeUtf8 false bytes = some t)
    (hline : line ∈ splitLines t) {v : PyJson F} (hv : loads line = some v) : settled v = v :=
  settled_of_loads (fun c hc => decodeUtf8_decoded h c
    ((mem_splitFrom hline hc).resolve_left List.not_mem_nil)) hv

end AzazelEdge.Lib.Py
