/-
# Civil time

`parse_eve_epoch` of `safety.rs` reads the time of an alert, `iso_utc_millis` of `audit_chain.rs`
writes the time of an audit record.  Each has its own closed form of the Gregorian calendar, one
from a date to its day and one back.

Both are over the bytes of the string.  The epoch is the exact rational that the source rounds to a
float, and the division of Rust, which truncates, is `tdiv`.
-/
import AzazelEdge.Lib.Calendar
import AzazelEdge.Lib.PyRoundTrip
import Mathlib.Algebra.Order.Field.Rat

namespace AzazelEdge.Civil

open AzazelEdge.Lib AzazelEdge.Lib.Py AzazelEdge.Lib.Calendar

abbrev chT : ℕ := 84

abbrev chZ : ℕ := 90

/-! ## 1. From a text -/

/-- `num` of the bytes from `i` to `j`.  A range that is not on character boundaries is no run of
digits either: a boundary is missing where the byte continues a character. -/
def num (ts : Text) (i j : ℕ) : Option ℤ :=
  let s := (ts.drop i).take (j - i)
  if s.length = j - i ∧ s.all isDigit then some (ofDigits s) else none

/-- The fraction, if there is one, and what follows it. -/
def fraction (rest : Text) : Option (ℚ × Text) :=
  match rest with
  | chDot :: after =>
    let digits := (after.takeWhile isDigit).length
    if digits = 0 ∨ 9 < digits then none
    else some (ofDigits (after.take digits) / 10 ^ digits, after.drop digits)
  | _ => some (0, rest)

/-- The offset of the zone from UTC, in seconds. -/
def zoneOffset (rest : Text) : Option ℤ :=
  if rest = [chZ] then some 0
  else
    match rest with
    | [] => none
    | c :: cs => do
      let sign : ℤ ← if c = chPlus then some 1 else if c = chMinus then some (-1) else none
      let body := cs.filter (· ≠ chColon)
      if body.length ≠ 4 ∨ ¬ body.all isDigit then none
      else
        let h := ofDigits (body.take 2)
        let m := ofDigits (body.drop 2)
        if h > 23 ∨ m > 59 then none else some (sign * (h * 3600 + m * 60))

/-- The days since 1970 of a date, as `parse_eve_epoch` counts them. -/
def daysFromCivil (year month day : ℤ) : ℤ :=
  let y := if month ≤ 2 then year - 1 else year
  let era := (if 0 ≤ y then y else y - 399).tdiv 400
  let yoe := y - era * 400
  let mp := (month + 9).tmod 12
  let doy := (153 * mp + 2).tdiv 5 + day - 1
  let doe := yoe * 365 + yoe.tdiv 4 - yoe.tdiv 100 + doy
  era * 146097 + doe - 719468

/-- `parse_eve_epoch`. -/
def parseEveEpoch (ts : Text) : Option ℚ :=
  if ts.length < 20 ∨ ts[4]? ≠ some chMinus ∨ ts[7]? ≠ some chMinus ∨ ts[10]? ≠ some chT ∨
      ts[13]? ≠ some chColon ∨ ts[16]? ≠ some chColon then none
  else do
    let year ← num ts 0 4
    let month ← num ts 5 7
    let day ← num ts 8 10
    let hour ← num ts 11 13
    let minute ← num ts 14 16
    let second ← num ts 17 19
    if ¬ (1 ≤ month ∧ month ≤ 12) ∨ ¬ (1 ≤ day ∧ day ≤ 31) ∨ hour > 23 ∨ minute > 59 ∨
        second > 60 then none
    else do
      let (fraction, rest) ← fraction (ts.drop 19)
      let offset ← zoneOffset rest
      let days := daysFromCivil year month day
      let secs := days * 86400 + hour * 3600 + minute * 60 + second - offset
      if secs < 0 then none else some (secs + fraction)

/-! ## 2. To a text -/

/-- `{:0width}`: the sign counts, the zeros follow it. -/
def padded (width : ℕ) (n : ℤ) : Text :=
  let sign := if n < 0 then [chMinus] else []
  let digits := natText n.natAbs
  sign ++ (List.replicate (width - sign.length - digits.length) chZero ++ digits)

/-- `{:04}-{:02}-{:02}T{:02}:{:02}:{:02}`. -/
def dateTime (y m d hour minute second : ℤ) : Text :=
  padded 4 y ++ chMinus :: (padded 2 m ++ chMinus :: (padded 2 d ++ chT ::
    (padded 2 hour ++ chColon :: (padded 2 minute ++ chColon :: padded 2 second))))

/-- `civil_from_days`. -/
def civilFromDays (z : ℤ) : ℤ × ℤ × ℤ :=
  let z := z + 719468
  let era := z / 146097
  let doe := z % 146097
  let yoe := (doe - doe.tdiv 1460 + doe.tdiv 36524 - doe.tdiv 146096).tdiv 365
  let y := yoe + era * 400
  let doy := doe - (365 * yoe + yoe.tdiv 4 - yoe.tdiv 100)
  let mp := (5 * doy + 2).tdiv 153
  let d := doy - (153 * mp + 2).tdiv 5 + 1
  let m := if mp < 10 then mp + 3 else mp - 9
  (if m ≤ 2 then y + 1 else y, m, d)

/-- `iso_utc_millis`. -/
def isoUtcMillis (epochNs : ℤ) : Text :=
  let msTotal := epochNs / 1000000
  let secs := msTotal / 1000
  let ms := msTotal % 1000
  let days := secs / 86400
  let sod := secs % 86400
  let (y, m, d) := civilFromDays days
  dateTime y m d (sod.tdiv 3600) ((sod.tmod 3600).tdiv 60) (sod.tmod 60) ++
    chDot :: (padded 3 ms ++ ascii "+00:00")

example : isoUtcMillis 951782400999000000 = ascii "2000-02-29T00:00:00.999+00:00" := by
  decide +kernel

/-! ## 3. The two calendars -/

variable {y m d z : ℤ}

/-- Truncating, a year before the first era needs the 399. -/
theorem era_eq (y : ℤ) : (if 0 ≤ y then y else y - 399).tdiv 400 = y / 400 := by
  split_ifs with h
  · exact Int.tdiv_eq_ediv_of_nonneg h
  · have hneg : y - 399 = -(399 - y) := by omega
    rw [hneg, Int.neg_tdiv, Int.tdiv_eq_ediv_of_nonneg (by omega)]
    omega

/-- **The day of a date**, whatever the sign of its year. -/
theorem daysFromCivil_eq (hm : 1 ≤ m) :
    daysFromCivil y m d = marchDays (marchYear y m) + marchMonth ((m + 9) % 12) + (d - 1) - 719468 := by
  have hyear : (if m ≤ 2 then y - 1 else y) = marchYear y m := rfl
  simp only [daysFromCivil]
  rw [hyear, era_eq, Int.tmod_eq_emod_of_nonneg (by omega)]
  generalize marchYear y m = year
  rw [Int.tdiv_eq_ediv_of_nonneg (by omega), Int.tdiv_eq_ediv_of_nonneg (by omega),
    Int.tdiv_eq_ediv_of_nonneg (by omega)]
  unfold marchDays marchMonth
  omega

/-- `civil_from_days` by eras, years of an era and months from March. -/
theorem civilFromDays_eq {doe era yoe mp : ℤ} (hdoe : (z + 719468) % 146097 = doe)
    (hera : (z + 719468) / 146097 = era) (hyoe : yearOfEra doe = yoe)
    (hmp : (5 * (doe - yearStart yoe) + 2) / 153 = mp) :
    civilFromDays z =
      (if (if mp < 10 then mp + 3 else mp - 9) ≤ 2 then yoe + era * 400 + 1 else yoe + era * 400,
        if mp < 10 then mp + 3 else mp - 9, doe - yearStart yoe - marchMonth mp + 1) := by
  have h0 : 0 ≤ doe := by omega
  have h1 : doe < 146097 := by omega
  have hyear : (doe - doe.tdiv 1460 + doe.tdiv 36524 - doe.tdiv 146096).tdiv 365 = yoe := by
    have hnonneg : 0 ≤ withoutLeaps doe := by unfold withoutLeaps; omega
    rw [Int.tdiv_eq_ediv_of_nonneg h0, Int.tdiv_eq_ediv_of_nonneg h0, Int.tdiv_eq_ediv_of_nonneg h0,
      ← hyoe]
    exact Int.tdiv_eq_ediv_of_nonneg hnonneg
  have hlow := (doy_bounds h0 h1).1
  have hpos := (yearOfEra_bounds h0 h1).1
  rw [hyoe] at hlow hpos
  simp only [civilFromDays, hdoe, hera, hyear]
  rw [Int.tdiv_eq_ediv_of_nonneg hpos, Int.tdiv_eq_ediv_of_nonneg hpos, ← yearStart,
    Int.tdiv_eq_ediv_of_nonneg (by omega), hmp, Int.tdiv_eq_ediv_of_nonneg (by omega), ← marchMonth]

/-- A day of month `mp` from March is one of that month. -/
theorem day_le_monthLength {yoe mp doe era : ℤ} {year month day : ℕ} (h0 : 0 ≤ doe)
    (h1 : doe < 146097) (hyoe : yearOfEra doe = yoe)
    (hmp : (5 * (doe - yearStart yoe) + 2) / 153 = mp) (hle : mp ≤ 11)
    (hyear : month = 2 → (year : ℤ) = yoe + era * 400 + 1)
    (hmonth : (month : ℤ) = if mp < 10 then mp + 3 else mp - 9)
    (hday : (day : ℤ) = doe - yearStart yoe - marchMonth mp + 1) : day ≤ monthLength year month := by
  have hlow := (doy_bounds h0 h1).1
  rw [hyoe] at hlow
  have hpos : 0 ≤ mp := by omega
  rw [marchMonth] at hday
  by_cases hfeb : mp = 11
  · subst hfeb
    obtain rfl : month = 2 := by
      rw [if_neg (by decide)] at hmonth
      omega
    by_cases hlast : yearStart yoe + 365 ≤ doe
    · have hleap : isLeap year = true :=
        isLeap_of_last h0 h1 (by rw [hyoe]; exact hlast) (by rw [hyoe]; exact hyear rfl)
      simp only [monthLength, hleap, if_true]
      have hhigh := doe_le h0 h1
      rw [hyoe] at hhigh
      omega
    · simp only [monthLength]
      split_ifs <;> omega
  · interval_cases mp <;> norm_num at hmonth <;>
      first
        | omega
        | (obtain rfl : month = _ := by exact_mod_cast hmonth
           simp only [monthLength]
           omega)

/-- **A day from year 0 on and its date.** -/
theorem civilFromDays_date (hz : -719468 ≤ z) : ∃ date : Date,
    civilFromDays z = ((date.year : ℤ), (date.month : ℤ), (date.day : ℤ)) ∧
      (date.days : ℤ) = z + 719528 := by
  obtain ⟨doe, hdoe⟩ : ∃ doe, (z + 719468) % 146097 = doe := ⟨_, rfl⟩
  obtain ⟨era, hera⟩ : ∃ era, (z + 719468) / 146097 = era := ⟨_, rfl⟩
  obtain ⟨yoe, hyoe⟩ : ∃ yoe, yearOfEra doe = yoe := ⟨_, rfl⟩
  obtain ⟨mp, hmp⟩ : ∃ mp, (5 * (doe - yearStart yoe) + 2) / 153 = mp := ⟨_, rfl⟩
  have h0 : 0 ≤ doe := by omega
  have h1 : doe < 146097 := by omega
  have hlow := (doy_bounds h0 h1).1
  have hhigh := doe_le h0 h1
  have hbounds := yearOfEra_bounds h0 h1
  rw [hyoe] at hlow hhigh hbounds
  have hmarch := marchDays_era era yoe hbounds.1 (by omega)
  have hmp0 : 0 ≤ mp ∧ mp ≤ 11 := by omega
  obtain ⟨year, hyear⟩ := Int.eq_ofNat_of_zero_le
    (show 0 ≤ (if (if mp < 10 then mp + 3 else mp - 9) ≤ 2 then yoe + era * 400 + 1
      else yoe + era * 400) by split_ifs <;> omega)
  obtain ⟨month, hmonth⟩ := Int.eq_ofNat_of_zero_le
    (show 0 ≤ (if mp < 10 then mp + 3 else mp - 9) by split_ifs <;> omega)
  obtain ⟨day, hday⟩ := Int.eq_ofNat_of_zero_le
    (show 0 ≤ doe - yearStart yoe - marchMonth mp + 1 by unfold marchMonth; omega)
  have hfeb : month = 2 → (year : ℤ) = yoe + era * 400 + 1 := by
    rintro rfl
    rw [← hyear, if_pos (by rw [hmonth]; decide)]
  have hin := day_le_monthLength h0 h1 hyoe hmp hmp0.2 hfeb hmonth.symm hday.symm
  refine ⟨⟨year, month, day, ?_, ?_, ?_, hin⟩, ?_, ?_⟩
  · split_ifs at hmonth <;> omega
  · split_ifs at hmonth <;> omega
  · unfold marchMonth at hday
    omega
  · rw [civilFromDays_eq hdoe hera hyoe hmp]
    exact Prod.ext hyear (Prod.ext hmonth hday)
  · rw [Date.days_eq]
    have hback : marchYear (year : ℤ) (month : ℤ) = yoe + era * 400 := by
      rw [← hyear, ← hmonth, marchYear]
      split_ifs <;> omega
    have hmod : ((month : ℤ) + 9) % 12 = mp := by
      rw [← hmonth]
      split_ifs <;> omega
    simp only [hback, hmod, hmarch]
    rw [← hday]
    omega

end AzazelEdge.Civil
