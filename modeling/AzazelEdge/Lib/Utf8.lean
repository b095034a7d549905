/-
# Reading bytes as text

`String::from_utf8_lossy` and `str::trim` of the Rust standard library.  The decoder takes the
longest prefix of a well-formed sequence at each position; what cannot be the start of one, or
breaks off, becomes one U+FFFD.
-/
import Mathlib.Data.Nat.Notation

namespace AzazelEdge.Lib

/-- A continuation byte within a narrower range. -/
def isCont (lo hi : ℕ) (b : UInt8) : Bool := decide (lo ≤ b.toNat) && decide (b.toNat ≤ hi)

/-- The range of the second byte after a lead byte of three or four. -/
def secondRange (lead : ℕ) : ℕ × ℕ :=
  if lead = 0xE0 then (0xA0, 0xBF)
  else if lead = 0xED then (0x80, 0x9F)
  else if lead = 0xF0 then (0x90, 0xBF)
  else if lead = 0xF4 then (0x80, 0x8F)
  else (0x80, 0xBF)

/-- The six bits of a continuation byte. -/
def contBits (b : UInt8) : ℕ := b.toNat % 64

def replacementChar : Char := Char.ofNat 0xFFFD

/-- `String::from_utf8_lossy`. -/
def fromUtf8Lossy : List UInt8 → List Char
  | [] => []
  | b :: rest =>
    let lead := b.toNat
    if lead < 0x80 then Char.ofNat lead :: fromUtf8Lossy rest
    else if 0xC2 ≤ lead ∧ lead ≤ 0xDF then
      match rest with
      | c :: rest' =>
        if isCont 0x80 0xBF c then
          Char.ofNat ((lead - 0xC0) * 64 + contBits c) :: fromUtf8Lossy rest'
        else replacementChar :: fromUtf8Lossy (c :: rest')
      | [] => [replacementChar]
    else if 0xE0 ≤ lead ∧ lead ≤ 0xF4 then
      match rest with
      | c :: rest' =>
        if isCont (secondRange lead).1 (secondRange lead).2 c then
          match rest' with
          | d :: rest'' =>
            if isCont 0x80 0xBF d then
              if lead < 0xF0 then
                Char.ofNat ((lead - 0xE0) * 4096 + contBits c * 64 + contBits d) ::
                  fromUtf8Lossy rest''
              else match rest'' with
              | e :: rest''' =>
                if isCont 0x80 0xBF e then
                  Char.ofNat ((lead - 0xF0) * 262144 + contBits c * 4096 + contBits d * 64 +
                    contBits e) :: fromUtf8Lossy rest'''
                else replacementChar :: fromUtf8Lossy (e :: rest''')
              | [] => [replacementChar]
            else replacementChar :: fromUtf8Lossy (d :: rest'')
          | [] => [replacementChar]
        else replacementChar :: fromUtf8Lossy (c :: rest')
      | [] => [replacementChar]
    else replacementChar :: fromUtf8Lossy rest

/-- The characters `str::trim` removes (Unicode `White_Space`). -/
def isSpace (c : Char) : Bool :=
  let n := c.toNat
  (9 ≤ n && n ≤ 13) || n = 0x20 || n = 0x85 || n = 0xA0 || n = 0x1680 ||
    (0x2000 ≤ n && n ≤ 0x200A) || n = 0x2028 || n = 0x2029 || n = 0x202F || n = 0x205F || n = 0x3000

/-- `str::trim`. -/
def trim (cs : List Char) : List Char :=
  ((cs.dropWhile isSpace).reverse.dropWhile isSpace).reverse

end AzazelEdge.Lib
