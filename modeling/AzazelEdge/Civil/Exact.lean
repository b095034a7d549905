/-
# Exact and inverse

The time of an alert is read for every existing date, time of day and zone: the seconds since 1970 by
the summed calendar, less the offset, with the fraction as it is written (`parseEveEpoch_text`).
What lies before 1970 is not read; the guard at the end of `parse_eve_epoch` refuses it.

`iso_utc_millis` writes such a text (`isoUtcMillis_text`), of the same instant, so reading it gives
that instant back to the millisecond.
-/
import AzazelEdge.Civil.EveEpoch
import Mathlib.Data.List.Induction
import Mathlib.Tactic.Ring

namespace AzazelEdge.Civil

open AzazelEdge.Lib AzazelEdge.Lib.Py AzazelEdge.Lib.Calendar

/-! ## 1. Times of alerts -/

/-- The offset of a zone from UTC: `±hhmm`, or `±hh:mm` with a colon. -/
structure Offset where
  negative : Bool
  hours : ℕ
  minutes : ℕ
  colon : Bool
  hours_le : hours ≤ 23
  minutes_le : minutes ≤ 59

def Offset.seconds (o : Offset) : ℤ :=
  (if o.negative then -1 else 1) * (o.hours * 3600 + o.minutes * 60)

/-- An existing date of a year of four digits, a time of day, which may be a leap second, the digits
of a fraction, and a zone, which is `Z` without an offset. -/
structure Stamp where
  date : Date
  hour : ℕ
  minute : ℕ
  second : ℕ
  digits : Text
  zone : Option Offset
  year_le : date.year ≤ 9999
  hour_le : hour ≤ 23
  minute_le : minute ≤ 59
  second_le : second ≤ 60
  digits_isDigit : ∀ c ∈ digits, isDigit c = true
  digits_le : digits.length ≤ 9

/-- The first day of 1970. -/
def epochDay : Date := ⟨1970, 1, 1, by decide, by decide, by decide, by decide⟩

def zoneText : Option Offset → Text
  | none => [chZ]
  | some o =>
    (if o.negative then chMinus else chPlus) ::
      (padded 2 o.hours ++ ((if o.colon then [chColon] else []) ++ padded 2 o.minutes))

def zoneSeconds : Option Offset → ℤ
  | none => 0
  | some o => o.seconds

namespace Stamp

def fractionText (s : Stamp) : Text := if s.digits = [] then [] else chDot :: s.digits

/-- The time as an EVE record has it. -/
def text (s : Stamp) : Text :=
  dateTime s.date.year s.date.month s.date.day s.hour s.minute s.second ++
    (s.fractionText ++ zoneText s.zone)

/-- The whole seconds since 1970: days by the summed lengths of years and months, the time of day, and
the offset of the zone taken off. -/
def seconds (s : Stamp) : ℤ :=
  ((s.date.days : ℤ) - epochDay.days) * 86400 + s.hour * 3600 + s.minute * 60 + s.second -
    zoneSeconds s.zone

/-- The instant, with its fraction. -/
def instant (s : Stamp) : ℚ := s.seconds + ofDigits s.digits / 10 ^ s.digits.length

end Stamp

theorem epochDay_days : epochDay.days = 719528 := by
  have h := Date.days_eq epochDay
  have hmarch : marchDays (marchYear (1970 : ℕ) (1 : ℕ)) + marchMonth (((1 : ℕ) + 9) % 12) +
      (((1 : ℕ) : ℤ) - 1) + 60 = 719528 := by decide
  rw [show epochDay.year = 1970 from rfl, show epochDay.month = 1 from rfl,
    show epochDay.day = 1 from rfl, hmarch] at h
  exact_mod_cast h

/-! ## 2. Digits -/

/-- **A number of at most `k` digits, padded to `k`.** -/
theorem padded_spec {k n : ℕ} (hk : 0 < k) (h : n < 10 ^ k) :
    (padded k n).length = k ∧ (∀ c ∈ padded k n, isDigit c = true) ∧ ofDigits (padded k n) = n := by
  have hlength : (natText n).length ≤ k := by
    rw [natText, List.length_map]
    exact (Nat.length_toDigits_le_iff (by decide) hk).mpr h
  have hpadded : padded k n = List.replicate (k - (natText n).length) chZero ++ natText n := by
    rw [padded, if_neg (by omega)]
    rfl
  rw [hpadded]
  refine ⟨by rw [List.length_append, List.length_replicate]; omega, fun c hc => ?_, ?_⟩
  · rcases List.mem_append.mp hc with hc | hc
    · rw [List.eq_of_mem_replicate hc]
      rfl
    · exact (digits_natText n).2 c hc
  · have hzero : (List.replicate (k - (natText n).length) chZero).map Char.ofNat =
        List.replicate (k - (natText n).length) '0' := List.map_replicate
    rw [ofDigits, List.map_append, hzero, Nat.ofDigitChars_append, Nat.ofDigitChars_replicate_zero,
      Nat.mul_zero]
    exact ofDigits_natText n

theorem ofDigits_concat (ds : Text) (d : ℕ) :
    ofDigits (ds ++ [d]) = 10 * ofDigits ds + ((Char.ofNat d).toNat - 48) := by
  simp [ofDigits, Nat.ofDigitChars_append, Nat.ofDigitChars_cons]

/-- A run of digits is a fraction of one. -/
theorem ofDigits_lt {ds : Text} (h : ∀ c ∈ ds, isDigit c = true) : ofDigits ds < 10 ^ ds.length := by
  induction ds using List.reverseRecOn with
  | nil => decide
  | append_singleton ds d ih =>
    have hd := h d (by simp)
    have hlt := ih fun c hc => h c (by simp [hc])
    have hdigit : (Char.ofNat d).toNat - 48 ≤ 9 := by
      simp only [isDigit, Bool.and_eq_true, decide_eq_true_eq] at hd
      obtain ⟨e, rfl⟩ : ∃ e, d = 48 + e := ⟨d - 48, by omega⟩
      have : ∀ e ≤ 9, (Char.ofNat (48 + e)).toNat - 48 ≤ 9 := by decide
      exact this e (by omega)
    rw [ofDigits_concat, List.length_append, List.length_singleton, pow_succ]
    omega

/-! ## 3. Reading the parts -/

theorem num_eq {ts field : Text} {i j n : ℕ} (hs : (ts.drop i).take (j - i) = field)
    (hlength : field.length = j - i) (hdigits : ∀ c ∈ field, isDigit c = true)
    (hvalue : ofDigits field = n) : num ts i j = some (n : ℤ) := by
  rw [num, hs, ← hvalue]
  exact if_pos ⟨hlength, List.all_eq_true.mpr hdigits⟩

/-- What follows the digits of a fraction is no digit. -/
theorem fraction_digits {ds rest : Text} {c : ℕ} (hds : ∀ d ∈ ds, isDigit d = true) (hne : ds ≠ [])
    (hle : ds.length ≤ 9) (hc : isDigit c = false) :
    fraction (chDot :: (ds ++ c :: rest)) = some ((ofDigits ds : ℚ) / 10 ^ ds.length, c :: rest) := by
  have hspan : spanDigits (ds ++ c :: rest) = (ds, c :: rest) :=
    spanDigits_append hds fun _ _ h => by
      cases h
      exact hc
  have htake : (ds ++ c :: rest).takeWhile isDigit = ds := congrArg Prod.fst hspan
  have hpos := List.length_pos_iff.mpr hne
  rw [fraction, htake, if_neg (by omega), List.take_left, List.drop_left]

theorem fraction_none {rest : Text} {c : ℕ} (hc : c ≠ chDot) :
    fraction (c :: rest) = some (0, c :: rest) := by
  rw [fraction.eq_def]
  split
  · rename_i h
    exact absurd (List.cons.inj h).1 hc
  · rfl

theorem zoneText_cons (zone : Option Offset) :
    ∃ c rest, zoneText zone = c :: rest ∧ isDigit c = false ∧ c ≠ chDot := by
  cases zone with
  | none => exact ⟨_, _, rfl, rfl, by decide⟩
  | some o =>
    refine ⟨_, _, rfl, ?_, ?_⟩
    · split_ifs <;> rfl
    · split_ifs <;> decide

theorem fraction_text (s : Stamp) : fraction (s.fractionText ++ zoneText s.zone) =
    some ((ofDigits s.digits : ℚ) / 10 ^ s.digits.length, zoneText s.zone) := by
  obtain ⟨c, rest, hzone, hdigit, hdot⟩ := zoneText_cons s.zone
  rw [hzone, Stamp.fractionText]
  by_cases hempty : s.digits = []
  · have hzero : ofDigits [] = 0 := rfl
    rw [if_pos hempty, hempty, hzero, List.nil_append, fraction_none hdot]
    simp
  · rw [if_neg hempty]
    exact fraction_digits s.digits_isDigit hempty s.digits_le hdigit

theorem filter_colon {ds : Text} (h : ∀ c ∈ ds, isDigit c = true) :
    ds.filter (· ≠ chColon) = ds := by
  refine List.filter_eq_self.mpr fun c hc => ?_
  have := h c hc
  simp only [isDigit, Bool.and_eq_true, decide_eq_true_eq] at this
  simp only [chColon, decide_eq_true_eq]
  omega

/-- Four digits after the sign, without the colons. -/
theorem zoneOffset_signed (negative : Bool) {cs body : Text}
    (hbody : cs.filter (· ≠ chColon) = body) (hlength : body.length = 4)
    (hdigits : body.all isDigit = true) (hh : ofDigits (body.take 2) ≤ 23)
    (hm : ofDigits (body.drop 2) ≤ 59) :
    zoneOffset ((if negative then chMinus else chPlus) :: cs) =
      some ((if negative then -1 else 1) *
        ((ofDigits (body.take 2) : ℤ) * 3600 + (ofDigits (body.drop 2) : ℤ) * 60)) := by
  have hlengths : ¬ (body.length ≠ 4 ∨ ¬ body.all isDigit = true) := by simp [hlength, hdigits]
  have hbounds : ¬ (ofDigits (body.take 2) > 23 ∨ ofDigits (body.drop 2) > 59) := by omega
  cases negative with
  | false =>
    have hnotZ : chPlus :: cs ≠ [chZ] := fun h => absurd (List.cons.inj h).1 (by decide)
    simp only [Bool.false_eq_true, if_false]
    rw [zoneOffset, if_neg hnotZ]
    simp only [hbody, if_true, Option.bind_eq_bind, Option.bind_some, if_neg hlengths,
      if_neg hbounds]
  | true =>
    have hnotZ : chMinus :: cs ≠ [chZ] := fun h => absurd (List.cons.inj h).1 (by decide)
    have hsign : ¬ chMinus = chPlus := by decide
    simp only [if_true]
    rw [zoneOffset, if_neg hnotZ]
    simp only [hbody, if_true, if_neg hsign, Option.bind_eq_bind, Option.bind_some,
      if_neg hlengths, if_neg hbounds]

/-- **The offset of a zone is read back.** -/
theorem zoneOffset_text (zone : Option Offset) : zoneOffset (zoneText zone) = some (zoneSeconds zone) := by
  cases zone with
  | none => rfl
  | some o =>
    have hhours := o.hours_le
    have hminutes := o.minutes_le
    obtain ⟨hlenh, hdigh, hvalh⟩ := padded_spec (k := 2) (n := o.hours) (by decide) (by omega)
    obtain ⟨hlenm, hdigm, hvalm⟩ := padded_spec (k := 2) (n := o.minutes) (by decide) (by omega)
    have hcolon : (if o.colon then [chColon] else []).filter (· ≠ chColon) = [] := by
      split_ifs <;> rfl
    have hbody : (padded 2 o.hours ++ ((if o.colon then [chColon] else []) ++
        padded 2 o.minutes)).filter (· ≠ chColon) = padded 2 o.hours ++ padded 2 o.minutes := by
      rw [List.filter_append, List.filter_append, filter_colon hdigh, filter_colon hdigm, hcolon,
        List.nil_append]
    have hdigits : (padded 2 o.hours ++ padded 2 o.minutes).all isDigit = true := by
      rw [List.all_append, List.all_eq_true.mpr hdigh, List.all_eq_true.mpr hdigm, Bool.and_self]
    have htake : (padded 2 o.hours ++ padded 2 o.minutes).take 2 = padded 2 o.hours := by
      rw [List.take_append_of_le_length (by omega), List.take_of_length_le (by omega)]
    have hdrop : (padded 2 o.hours ++ padded 2 o.minutes).drop 2 = padded 2 o.minutes := by
      rw [List.drop_append, List.drop_of_length_le (by omega), hlenh]
      rfl
    rw [zoneText, zoneOffset_signed o.negative hbody (by rw [List.length_append]; omega) hdigits
      (by rw [htake]; omega) (by rw [hdrop]; omega), htake, hdrop, hvalh, hvalm]
    rfl

/-! ## 4. Reading a time -/

theorem length_eq_four {ds : Text} (h : ds.length = 4) : ∃ a b c d, ds = [a, b, c, d] := by
  match ds, h with
  | [a, b, c, d], _ => exact ⟨a, b, c, d, rfl⟩

/-- **The date and the time of day are read where they stand.** -/
theorem parseEveEpoch_dateTime {year month day hour minute second : ℕ} {rest : Text} {f : ℚ}
    {zone : Text} {offset : ℤ} (hyear : year ≤ 9999) (hmonth : 1 ≤ month ∧ month ≤ 12)
    (hday : 1 ≤ day ∧ day ≤ 31) (hhour : hour ≤ 23) (hminute : minute ≤ 59) (hsecond : second ≤ 60)
    (hfraction : fraction rest = some (f, zone)) (hzone : zoneOffset zone = some offset) :
    parseEveEpoch (dateTime year month day hour minute second ++ rest) =
      if daysFromCivil year month day * 86400 + hour * 3600 + minute * 60 + second - offset < 0
      then none
      else some (((daysFromCivil year month day * 86400 + hour * 3600 + minute * 60 + second -
        offset : ℤ) : ℚ) + f) := by
  obtain ⟨hly, hdy, hvy⟩ := padded_spec (k := 4) (n := year) (by decide) (by omega)
  obtain ⟨hlmo, hdmo, hvmo⟩ := padded_spec (k := 2) (n := month) (by decide) (by omega)
  obtain ⟨hld, hdd, hvd⟩ := padded_spec (k := 2) (n := day) (by decide) (by omega)
  obtain ⟨hlh, hdh, hvh⟩ := padded_spec (k := 2) (n := hour) (by decide) (by omega)
  obtain ⟨hlmi, hdmi, hvmi⟩ := padded_spec (k := 2) (n := minute) (by decide) (by omega)
  obtain ⟨hls, hds, hvs⟩ := padded_spec (k := 2) (n := second) (by decide) (by omega)
  have hrest : rest ≠ [] := by
    rintro rfl
    have hnil : fraction [] = some (0, []) := rfl
    rw [hnil] at hfraction
    cases hfraction
    cases hzone
  have hrestPos := List.length_pos_iff.mpr hrest
  rw [dateTime]
  generalize padded 4 (year : ℤ) = y at *
  generalize padded 2 (month : ℤ) = mo at *
  generalize padded 2 (day : ℤ) = d at *
  generalize padded 2 (hour : ℤ) = h at *
  generalize padded 2 (minute : ℤ) = mi at *
  generalize padded 2 (second : ℤ) = s at *
  -- the fields have their lengths, so every position can be computed
  obtain ⟨y₁, y₂, y₃, y₄, rfl⟩ := length_eq_four hly
  obtain ⟨mo₁, mo₂, rfl⟩ := List.length_eq_two.mp hlmo
  obtain ⟨d₁, d₂, rfl⟩ := List.length_eq_two.mp hld
  obtain ⟨h₁, h₂, rfl⟩ := List.length_eq_two.mp hlh
  obtain ⟨mi₁, mi₂, rfl⟩ := List.length_eq_two.mp hlmi
  obtain ⟨s₁, s₂, rfl⟩ := List.length_eq_two.mp hls
  generalize hts : ([y₁, y₂, y₃, y₄] ++ chMinus :: ([mo₁, mo₂] ++ chMinus :: ([d₁, d₂] ++ chT ::
    ([h₁, h₂] ++ chColon :: ([mi₁, mi₂] ++ chColon :: [s₁, s₂]))))) ++ rest = ts
  have hny : num ts 0 4 = some (year : ℤ) := num_eq (by rw [← hts]; rfl) hly hdy hvy
  have hnmo : num ts 5 7 = some (month : ℤ) := num_eq (by rw [← hts]; rfl) hlmo hdmo hvmo
  have hnd : num ts 8 10 = some (day : ℤ) := num_eq (by rw [← hts]; rfl) hld hdd hvd
  have hnh : num ts 11 13 = some (hour : ℤ) := num_eq (by rw [← hts]; rfl) hlh hdh hvh
  have hnmi : num ts 14 16 = some (minute : ℤ) := num_eq (by rw [← hts]; rfl) hlmi hdmi hvmi
  have hns : num ts 17 19 = some (second : ℤ) := num_eq (by rw [← hts]; rfl) hls hds hvs
  have hdrop : ts.drop 19 = rest := by rw [← hts]; rfl
  have hshape : ¬ (ts.length < 20 ∨ ts[4]? ≠ some chMinus ∨ ts[7]? ≠ some chMinus ∨
      ts[10]? ≠ some chT ∨ ts[13]? ≠ some chColon ∨ ts[16]? ≠ some chColon) := by
    have hlength : ts.length = rest.length + 19 := by rw [← hts]; rfl
    have h4 : ts[4]? = some chMinus := by rw [← hts]; rfl
    have h7 : ts[7]? = some chMinus := by rw [← hts]; rfl
    have h10 : ts[10]? = some chT := by rw [← hts]; rfl
    have h13 : ts[13]? = some chColon := by rw [← hts]; rfl
    have h16 : ts[16]? = some chColon := by rw [← hts]; rfl
    simp only [h4, h7, h10, h13, h16, ne_eq, not_true_eq_false, or_false]
    omega
  have hranges : ¬ (¬ (1 ≤ (month : ℤ) ∧ (month : ℤ) ≤ 12) ∨ ¬ (1 ≤ (day : ℤ) ∧ (day : ℤ) ≤ 31) ∨
      (hour : ℤ) > 23 ∨ (minute : ℤ) > 59 ∨ (second : ℤ) > 60) := by omega
  rw [parseEveEpoch, if_neg hshape]
  simp only [hny, hnmo, hnd, hnh, hnmi, hns, Option.bind_eq_bind, Option.bind_some, if_neg hranges,
    hdrop, hfraction, hzone]

theorem daysFromCivil_days (date : Date) :
    daysFromCivil date.year date.month date.day = (date.days : ℤ) - epochDay.days := by
  have hm := date.month_pos
  rw [daysFromCivil_eq (by omega), epochDay_days, Date.days_eq]
  omega

/-- **The time of an alert.**  It is read for what it is from 1970 on and not read before. -/
theorem parseEveEpoch_text (s : Stamp) :
    parseEveEpoch s.text = if s.seconds < 0 then none else some s.instant := by
  rw [Stamp.text, parseEveEpoch_dateTime s.year_le ⟨s.date.month_pos, s.date.month_le⟩
    ⟨s.date.day_pos, s.date.day_le_31⟩ s.hour_le s.minute_le s.second_le (fraction_text s)
    (zoneOffset_text s.zone), daysFromCivil_days]
  rfl

/-! ## 5. Writing a time -/

variable {ns : ℤ}

/-- The seconds from 1970 to the end of year 9999. -/
def endOf9999 : ℤ := ((daysBeforeYear 10000 : ℤ) - epochDay.days) * 86400

/-- `+00:00`. -/
def utcOffset : Offset := ⟨false, 0, 0, true, by decide, by decide⟩

/-- **`iso_utc_millis` writes the time of an alert**, to the millisecond. -/
theorem isoUtcMillis_text (h0 : 0 ≤ ns) (h : ns / 1000000 / 1000 < endOf9999) :
    ∃ s : Stamp, isoUtcMillis ns = s.text ∧ s.seconds = ns / 1000000 / 1000 ∧
      s.instant = ((ns / 1000000 : ℤ) : ℚ) / 1000 := by
  obtain ⟨date, hdate, hdays⟩ := civilFromDays_date
    (show -719468 ≤ ns / 1000000 / 1000 / 86400 by omega)
  have hyear : date.year ≤ 9999 := by
    by_contra hlt
    have hmono := daysBeforeYear_mono (show 10000 ≤ date.year by omega)
    have hle := date.daysBeforeYear_le
    rw [endOf9999, epochDay_days] at h
    omega
  obtain ⟨sod, hsod⟩ := Int.eq_ofNat_of_zero_le
    (show 0 ≤ ns / 1000000 / 1000 % 86400 by omega)
  obtain ⟨ms, hms⟩ := Int.eq_ofNat_of_zero_le (show 0 ≤ ns / 1000000 % 1000 by omega)
  obtain ⟨hlength, hdigits, hvalue⟩ := padded_spec (k := 3) (n := ms) (by decide) (by omega)
  let s : Stamp := ⟨date, sod / 3600, sod % 3600 / 60, sod % 60, padded 3 ms, some utcOffset, hyear,
    by omega, by omega, by omega, hdigits, by omega⟩
  have hseconds : s.seconds = ns / 1000000 / 1000 := by
    have hutc : utcOffset.seconds = 0 := by decide
    simp only [s, Stamp.seconds, zoneSeconds, epochDay_days, hdays, hutc]
    push_cast
    omega
  refine ⟨s, ?_, hseconds, ?_⟩
  · have hzone : zoneText (some utcOffset) = ascii "+00:00" := by decide
    have hne : padded 3 (ms : ℤ) ≠ [] := List.ne_nil_of_length_pos (by omega)
    have hsecs : ((sod : ℤ).tdiv 3600, ((sod : ℤ).tmod 3600).tdiv 60, (sod : ℤ).tmod 60) =
        (((sod / 3600 : ℕ) : ℤ), ((sod % 3600 / 60 : ℕ) : ℤ), ((sod % 60 : ℕ) : ℤ)) := rfl
    simp only [Prod.mk.injEq] at hsecs
    rw [isoUtcMillis]
    simp only [hdate, hsod, hms, hsecs]
    rw [Stamp.text, Stamp.fractionText, if_neg hne, hzone]
    rfl
  · have hsplit : ns / 1000000 = ns / 1000000 / 1000 * 1000 + ms := by omega
    have hmillis : ((ns / 1000000 : ℤ) : ℚ) = ((ns / 1000000 / 1000 : ℤ) : ℚ) * 1000 + ms := by
      exact_mod_cast hsplit
    have hfraction : s.digits = padded 3 (ms : ℤ) := rfl
    rw [Stamp.instant, hseconds, hfraction, hvalue, hlength, hmillis]
    ring

/-- **Reading what was written.** -/
theorem parseEveEpoch_isoUtcMillis (h0 : 0 ≤ ns) (h : ns / 1000000 / 1000 < endOf9999) :
    parseEveEpoch (isoUtcMillis ns) = some (((ns / 1000000 : ℤ) : ℚ) / 1000) := by
  obtain ⟨s, htext, hseconds, hinstant⟩ := isoUtcMillis_text h0 h
  rw [htext, parseEveEpoch_text, if_neg (by omega), hinstant]

/-- **Civil time is exact and inverse.**  What `iso_utc_millis` writes of a millisecond is read back
as that instant; an existing date, time of day and zone is read as the summed calendar has it, or
not at all when it lies before 1970; and so the times that are read are in the order of the
instants. -/
theorem civil_time_exact :
    (∀ ms : ℤ, 0 ≤ ms → ms < endOf9999 * 1000 →
      parseEveEpoch (isoUtcMillis (ms * 1000000)) = some ((ms : ℚ) / 1000)) ∧
    (∀ s : Stamp, parseEveEpoch s.text = if s.seconds < 0 then none else some s.instant) ∧
    ∀ (s t : Stamp) (a b : ℚ), parseEveEpoch s.text = some a → parseEveEpoch t.text = some b →
      (a < b ↔ s.instant < t.instant) := by
  have hread : ∀ {s : Stamp} {a : ℚ}, parseEveEpoch s.text = some a → a = s.instant := by
    intro s a h
    rw [parseEveEpoch_text] at h
    split_ifs at h
    exact (Option.some.inj h).symm
  refine ⟨fun ms h0 h => ?_, parseEveEpoch_text, fun s t a b hs ht => ?_⟩
  · have hwhole : ms * 1000000 / 1000000 = ms := Int.mul_ediv_cancel ms (by decide)
    rw [parseEveEpoch_isoUtcMillis (by omega) (by rw [hwhole]; omega), hwhole]
  · rw [hread hs, hread ht]

theorem endOf9999_eq : endOf9999 = 253402300800 := by
  rw [endOf9999, daysBeforeYear_eq, epochDay_days]
  decide

theorem civil_time_exact_2000 : (0 : ℤ) ≤ 951782400999 ∧ 951782400999 < endOf9999 * 1000 ∧
    parseEveEpoch (isoUtcMillis (951782400999 * 1000000)) = some ((951782400999 : ℤ) / 1000 : ℚ) :=
  ⟨by decide, by rw [endOf9999_eq]; decide,
    civil_time_exact.1 951782400999 (by decide) (by rw [endOf9999_eq]; decide)⟩

/-- The last second before 1970. -/
def lastSecond : Stamp :=
  ⟨⟨1969, 12, 31, by decide, by decide, by decide, by decide⟩, 23, 59, 59, [], none, by decide,
    by decide, by decide, by decide, by decide, by decide⟩

theorem lastSecond_seconds : lastSecond.seconds = -1 := by
  have hmarch : marchDays (marchYear (1969 : ℕ) (12 : ℕ)) + marchMonth (((12 : ℕ) + 9) % 12) +
      (((31 : ℕ) : ℤ) - 1) + 60 = 719527 := by decide
  have hdays : (lastSecond.date.days : ℤ) = 719527 := (Date.days_eq _).trans hmarch
  rw [Stamp.seconds, hdays, epochDay_days]
  simp [lastSecond, zoneSeconds]

/-- An existing time that the calendar dates is refused. -/
theorem parseEveEpoch_before_1970 :
    lastSecond.text = ascii "1969-12-31T23:59:59Z" ∧ lastSecond.seconds = -1 ∧
      parseEveEpoch lastSecond.text = none := by
  refine ⟨by decide, lastSecond_seconds, ?_⟩
  rw [parseEveEpoch_text, lastSecond_seconds, if_pos (by decide)]

end AzazelEdge.Civil
