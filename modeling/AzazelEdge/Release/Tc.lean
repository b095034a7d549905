/-
# The legacy root-qdisc throttle

`release.rs`: the readback of a `tc` TBF qdisc.  The core no longer runs `tc` to restrict, but a
ledger of an older core may still hold such a lease, and it is released by its handle after this
readback.  Rates, sizes and times come back as numbers or as texts with a unit.
-/
import Mathlib.Algebra.Order.Field.Rat
import AzazelEdge.Lib.Json
import AzazelEdge.Lib.Utf8
import AzazelEdge.Release.Task

namespace AzazelEdge.Release

open AzazelEdge.Lib

/-! ## 1. Numbers in texts -/

/-- A run of decimal digits as a number. -/
def decimal (ds : List ℕ) : ℕ := ds.foldl (fun acc d => acc * 10 + d) 0

/-- An optional sign. -/
def readSign : List Char → ℤ × List Char
  | '-' :: rest => (-1, rest)
  | '+' :: rest => (1, rest)
  | cs => (1, cs)

/-- The exponent part of a decimal text, read to its end. -/
def readExponent : List Char → Option ℤ
  | [] => some 0
  | c :: rest =>
    if c = 'e' ∨ c = 'E' then
      let (sign, rest) := readSign rest
      match IpAddr.readDigits 10 rest with
      | (d :: ds, []) => some (sign * decimal (d :: ds))
      | _ => none
    else none

/-- `str::parse::<f64>`, as far as a finite result goes. -/
def parseF64 (cs : List Char) : Option ℚ :=
  let (sign, rest) := readSign cs
  let (whole, rest) := IpAddr.readDigits 10 rest
  let (frac, rest) :=
    match rest with
    | '.' :: rest => IpAddr.readDigits 10 rest
    | rest => ([], rest)
  if whole = [] ∧ frac = [] then none
  else (readExponent rest).map fun (e : ℤ) =>
    sign * ((decimal (whole ++ frac) : ℚ) * (10 : ℚ) ^ (e - (frac.length : ℤ)))

/-- `str::parse::<u64>`. -/
def parseU64 (cs : List Char) : Option ℕ :=
  let digits := match cs with
    | '+' :: rest => rest
    | cs => cs
  match IpAddr.readDigits 10 digits with
  | (d :: ds, []) => if decimal (d :: ds) ≤ u64Max then some (decimal (d :: ds)) else none
  | _ => none

/-- `str::strip_suffix`. -/
def stripSuffix (suffix cs : List Char) : Option (List Char) :=
  if suffix.isSuffixOf cs then some (cs.take (cs.length - suffix.length)) else none

/-- `f64::round` of a non-negative value. -/
def roundNat (q : ℚ) : ℕ := ⌊q + 1 / 2⌋₊

/-- `parse_scaled`: the first suffix that fits decides. -/
def parseScaled (raw : List Char) : List (String × ℕ) → Option ℕ
  | [] => parseU64 raw
  | (suffix, factor) :: suffixes =>
    match stripSuffix suffix.toList raw with
    | none => parseScaled raw suffixes
    | some number =>
      match parseF64 number with
      | none => none
      | some parsed =>
        if parsed < 0 ∨ (u64Max : ℚ) < parsed * factor then none
        else some (roundNat (parsed * factor))

/-- `value.as_str()?.trim().to_ascii_lowercase()`. -/
def loweredText (value : Json) : Option (List Char) :=
  value.asStr?.map fun s => (trim s.toList).map Char.toLower

/-- `parse_readback_rate_bps`: a bare number is bytes per second. -/
def parseReadbackRateBps (value : Json) : Option ℕ :=
  match value.asU64? with
  | some raw => if raw * 8 ≤ u64Max then some (raw * 8) else none
  | none => (loweredText value).bind fun raw =>
    parseScaled raw [("gbit", 1000000000), ("mbit", 1000000), ("kbit", 1000), ("bit", 1)]

/-- `parse_readback_size_bytes`. -/
def parseReadbackSizeBytes (value : Json) : Option ℕ :=
  match value.asU64? with
  | some raw => some raw
  | none => (loweredText value).bind fun raw =>
    parseScaled raw
      [("gbit", 1024 * 1024 * 1024 / 8), ("mbit", 1024 * 1024 / 8), ("kbit", 1024 / 8),
        ("gb", 1024 * 1024 * 1024), ("mb", 1024 * 1024), ("kb", 1024), ("b", 1)]

/-- `parse_readback_time_us`. -/
def parseReadbackTimeUs (value : Json) : Option ℕ :=
  match value.asU64? with
  | some raw => some raw
  | none => (loweredText value).bind fun raw =>
    parseScaled raw
      [("msec", 1000), ("usec", 1), ("ms", 1000), ("us", 1), ("sec", 1000000), ("s", 1000000)]

/-! ## 2. The TBF readback -/

/-- `abs_diff`. -/
def absDiff (left right : ℕ) : ℕ := max left right - min left right

/-- `within_relative`. -/
def withinRelative (expected observed : ℕ) (tolerance : ℚ) : Bool :=
  if expected = 0 then observed = 0
  else absDiff expected observed ≤ max (roundNat (expected * tolerance)) 1

/-- One field of `tbf_readback_fields`: from `options` when that object has any of the fields,
and then never in conflict with the same field at the top. -/
def tbfField (item : Json) (options : Option Json) (nestedAny : Bool) (key : String) : Option Json :=
  if nestedAny then
    match options.bind (·.get? key), item.get? key with
    | some (.str nested), some (.str top) => if top = nested then some (.str nested) else none
    | some (.int nested), some (.int top) => if top = nested then some (.int nested) else none
    | some _, some _ => none
    | nested, none => nested
    | none, _ => none
  else item.get? key

/-- `tbf_readback_fields`: `rate`, `burst` and `lat`, or nothing when their place is ambiguous. -/
def tbfReadbackFields (item : Json) : Option (Json × Json × Json) :=
  let fields (options : Option Json) : Option (Json × Json × Json) :=
    let nestedAny := ["rate", "burst", "lat"].any fun key => (options.bind (·.get? key)).isSome
    match tbfField item options nestedAny "rate", tbfField item options nestedAny "burst",
        tbfField item options nestedAny "lat" with
    | some rate, some burst, some lat => some (rate, burst, lat)
    | _, _, _ => none
  match item.get? "options" with
  | none => fields none
  | some (.obj members) => fields (some (.obj members))
  | some _ => none

/-- `tbf_parameters_match`. -/
def tbfParametersMatch (task : ReleaseTask) (item : Json) : Bool :=
  match tbfReadbackFields item with
  | none => false
  | some (rate, burst, lat) =>
    match parseReadbackRateBps rate, parseReadbackSizeBytes burst, parseReadbackTimeUs lat with
    | some rate, some burst, some latency =>
      withinRelative task.expectedRateBps rate (1 / 100) &&
        withinRelative task.expectedBurstBytes burst (2 / 100) &&
        absDiff task.expectedLatencyUs latency ≤ max 1000 (task.expectedLatencyUs / 50)
    | _, _, _ => false

/-- The qdiscs of a `tc -j qdisc show` that carry the task's handle at the root: present as
planned, absent, or an error that stops the release. -/
def tcOwnedIn (task : ReleaseTask) : List Json → Except String Bool
  | [] => .ok false
  | item :: items =>
    if (item.get? "root").bind Json.asBool? ≠ some true then tcOwnedIn task items
    else if item.strAt? "handle" ≠ some task.tcHandle then tcOwnedIn task items
    else if item.strAt? "kind" ≠ some "tbf" then
      .error "tc ownership handle exists with unexpected qdisc kind"
    else if tbfParametersMatch task item = false then
      .error "tc ownership handle exists with unexpected TBF parameters"
    else .ok true

end AzazelEdge.Release
