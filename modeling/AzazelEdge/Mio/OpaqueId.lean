/-
# Opaque identifiers

`opaque_id` of `id_grammar.py`: a short identifier of ASCII which is no address and has nothing
in it that looks like one.
-/
import AzazelEdge.Lib.PyNumber

namespace AzazelEdge.Mio

open AzazelEdge.Lib.Py

/-! ## 1. Patterns -/

/-- `[0-9a-f]` in either case. -/
def isHexChar (c : ℕ) : Bool :=
  isDigit c || decide (97 ≤ c ∧ c ≤ 102) || decide (65 ≤ c ∧ c ≤ 70)

/-- `[.\-_]`. -/
def isQuadSep (c : ℕ) : Bool := decide (c = 46 ∨ c = 45 ∨ c = 95)

/-- `[:.\-_]`. -/
def isMacSep (c : ℕ) : Bool := decide (c = 58) || isQuadSep c

/-- `[A-Za-z0-9][A-Za-z0-9._:-]{0,127}\Z`. -/
def isOpaqueShape : Text → Bool
  | [] => false
  | c :: rest => isAsciiAlnum c && decide (rest.length ≤ 127) &&
      rest.all fun c => isAsciiAlnum c || isMacSep c

/-- `\d{1,3}` where no digit follows, and what follows. -/
def shortDigits (t : Text) : Option Text :=
  let (run, rest) := spanDigits t
  if 1 ≤ run.length ∧ run.length ≤ 3 then some rest else none

/-- `\d{1,3}`, and `[.\-_]\d{1,3}` so many times more. -/
def quadAt : ℕ → Text → Bool
  | 0, t => (shortDigits t).isSome
  | n + 1, t =>
    match shortDigits t with
    | some (c :: rest) => isQuadSep c && quadAt n rest
    | _ => false

/-- `[0-9a-f]{2}`, and `[:.\-_][0-9a-f]{2}` so many times more; no digit follows. -/
def macAt : ℕ → Text → Bool
  | 0, a :: b :: rest => isHexChar a && isHexChar b && !(rest.head?.any isHexChar)
  | n + 1, a :: b :: c :: rest => isHexChar a && isHexChar b && isMacSep c && macAt n rest
  | _, _ => false

/-- `[0-9a-f]{4}\.[0-9a-f]{4}\.[0-9a-f]{4}`. -/
def dottedMacAt (t : Text) : Bool :=
  let hex4 (from_ : ℕ) := decide (from_ + 4 ≤ t.length) && ((t.drop from_).take 4).all isHexChar
  hex4 0 && t[4]? == some 46 && hex4 5 && t[9]? == some 46 && hex4 10

/-- `pattern.search`, where the pattern is told what stands before. -/
def searchFrom (pattern : Option ℕ → Text → Bool) : Option ℕ → Text → Bool
  | before, [] => pattern before []
  | before, c :: rest => pattern before (c :: rest) || searchFrom pattern (some c) rest

/-- Some pattern of `_ADDRESS_LIKE_RES` is found. -/
def isAddressLike (t : Text) : Bool :=
  searchFrom (fun before t => !(before.any isDigit) && quadAt 3 t) none t ||
    searchFrom (fun before t => !(before.any isHexChar) && macAt 5 t) none t ||
    searchFrom (fun _ t => dottedMacAt t) none t

/-! ## 2. `ipaddress` -/

/-- An octet of an IPv4 address. -/
def isOctet (t : Text) : Bool :=
  decide (t ≠ []) && t.all isDigit && decide (t.length ≤ 3) &&
    (decide (t = [chZero]) || decide (t.head? ≠ some chZero)) && decide (ofDigits t ≤ 255)

/-- `IPv4Address(text)` does not raise. -/
def isIpv4 (t : Text) : Bool :=
  let octets := t.splitOn chDot
  decide (octets.length = 4) && octets.all isOctet

/-- A group of an IPv6 address. -/
def isHextet (t : Text) : Bool := decide (t ≠ []) && decide (t.length ≤ 4) && t.all isHexChar

/-- The positions between the first part and the last where a part is empty. -/
def emptyInner (parts : List Text) : List ℕ :=
  ((List.range parts.length).drop 1).dropLast.filter fun i => decide (parts[i]? = some [])

/-- `_ip_int_from_string` over the parts between the colons. -/
def hextetsOk (parts : List Text) : Bool :=
  let first := parts.head?.getD []
  let last := parts.getLast?.getD []
  match emptyInner parts with
  | [] => decide (parts.length = 8) && parts.all isHextet
  | [skip] =>
    let hi := if first = [] then skip - 1 else skip
    let lo := if last = [] then parts.length - skip - 2 else parts.length - skip - 1
    decide (first = [] → hi = 0) && decide (last = [] → lo = 0) && decide (hi + lo ≤ 7) &&
      (parts.take hi).all isHextet && (parts.drop (parts.length - lo)).all isHextet
  | _ => false

/-- `IPv6Address(text)` does not raise. -/
def isIpv6 (t : Text) : Bool :=
  let parts := t.splitOn chColon
  let last := parts.getLast?.getD []
  decide (3 ≤ parts.length) &&
    if last.contains chDot then
      -- The IPv4 address at the end is two groups.
      isIpv4 last && decide (parts.length ≤ 8) && hextetsOk (parts.dropLast ++ [[chZero], [chZero]])
    else decide (parts.length ≤ 9) && hextetsOk parts

/-! ## 3. `opaque_id` -/

/-- `run.strip(":")`. -/
def stripColons (t : Text) : Text :=
  ((t.dropWhile (· = chColon)).reverse.dropWhile (· = chColon)).reverse

/-- `"::" in text`. -/
def hasDoubleColon : Text → Bool
  | a :: b :: rest => decide (a = chColon ∧ b = chColon) || hasDoubleColon (b :: rest)
  | _ => false

/-- `_has_ipv6_like_run`: the runs are the longest stretches of hexadecimal digits and colons that
have a colon in them. -/
def hasIpv6LikeRun (t : Text) : Bool :=
  let runs := (t.splitOnP fun c => !(isHexChar c || decide (c = chColon))).filter (·.contains chColon)
  runs.any fun run =>
    decide (4 ≤ (stripColons run).count chColon) ||
      [run, stripColons run].any fun candidate =>
        (hasDoubleColon candidate || decide (candidate.count chColon = 7)) && isIpv6 candidate

/-- A string that `opaque_id` gives back. -/
def isOpaqueId (s : PyStr) : Bool :=
  let t := s.map Fin.val
  isOpaqueShape t && !isAddressLike t && !hasIpv6LikeRun t && !isIpv4 t && !isIpv6 t

variable {F : Type}

/-- `opaque_id`. -/
def opaqueId : Option (PyJson F) → PyStr
  | some (.str s) => if isOpaqueId s then s else []
  | _ => []

/-- **An identifier is the string it was read from.** -/
theorem opaqueId_eq {value : Option (PyJson F)} (h : opaqueId value ≠ []) :
    value = some (.str (opaqueId value)) ∧ isOpaqueId (opaqueId value) = true := by
  unfold opaqueId at h ⊢
  split at h
  · rename_i s
    by_cases hs : isOpaqueId s = true
    · rw [if_pos hs]
      exact ⟨rfl, hs⟩
    · rw [if_neg hs] at h
      exact absurd rfl h
  · exact absurd rfl h

@[simp] theorem opaqueId_str {s : PyStr} (h : isOpaqueId s = true) :
    opaqueId (some (.str s : PyJson F)) = s := if_pos h

/-- What is no identifier is nothing. -/
@[simp] theorem opaqueId_nil : opaqueId (some (.str [] : PyJson F)) = [] := rfl

example : isOpaqueId (pyStr "ev:12:34:56") = true ∧ isOpaqueId (pyStr "ev-10-0-0-5") = false ∧
    isOpaqueId (pyStr "fe80::1") = false ∧ isOpaqueId (pyStr "aabb.ccdd.eeff") = false := by
  decide +kernel

end AzazelEdge.Mio
