/-
# SHA-256

FIPS 180-4 as `sha256_hex` of `audit_chain.rs` computes it, over bytes as natural numbers: every
word is below `2 ^ 32` and `wrapping_add` is the sum taken modulo that.  Of the digest only its
form is used: sixty-four lower-case hexadecimal digits (`hexDigest_sha256Hex`).
-/
import AzazelEdge.Lib.PyJson
import Mathlib.Algebra.Group.Nat.Defs

namespace AzazelEdge.Lib.Sha256

open AzazelEdge.Lib.Py

/-- `wrapping_add`. -/
def add (a b : ℕ) : ℕ := (a + b) % 2 ^ 32

/-- `rotate_right`. -/
def rotr (x n : ℕ) : ℕ := (x >>> n) ||| ((x <<< (32 - n)) % 2 ^ 32)

/-- `!x`. -/
def not32 (x : ℕ) : ℕ := 2 ^ 32 - 1 - x

def constants : List ℕ :=
  [0x428a2f98, 0x71374491, 0xb5c0fbcf, 0xe9b5dba5, 0x3956c25b, 0x59f111f1, 0x923f82a4, 0xab1c5ed5,
    0xd807aa98, 0x12835b01, 0x243185be, 0x550c7dc3, 0x72be5d74, 0x80deb1fe, 0x9bdc06a7, 0xc19bf174,
    0xe49b69c1, 0xefbe4786, 0x0fc19dc6, 0x240ca1cc, 0x2de92c6f, 0x4a7484aa, 0x5cb0a9dc, 0x76f988da,
    0x983e5152, 0xa831c66d, 0xb00327c8, 0xbf597fc7, 0xc6e00bf3, 0xd5a79147, 0x06ca6351, 0x14292967,
    0x27b70a85, 0x2e1b2138, 0x4d2c6dfc, 0x53380d13, 0x650a7354, 0x766a0abb, 0x81c2c92e, 0x92722c85,
    0xa2bfe8a1, 0xa81a664b, 0xc24b8b70, 0xc76c51a3, 0xd192e819, 0xd6990624, 0xf40e3585, 0x106aa070,
    0x19a4c116, 0x1e376c08, 0x2748774c, 0x34b0bcb5, 0x391c0cb3, 0x4ed8aa4a, 0x5b9cca4f, 0x682e6ff3,
    0x748f82ee, 0x78a5636f, 0x84c87814, 0x8cc70208, 0x90befffa, 0xa4506ceb, 0xbef9a3f7, 0xc67178f2]

def initial : List ℕ :=
  [0x6a09e667, 0xbb67ae85, 0x3c6ef372, 0xa54ff53a, 0x510e527f, 0x9b05688c, 0x1f83d9ab, 0x5be0cd19]

/-- The message with its padding and its length in bits. -/
def padded (data : Text) : Text :=
  data ++ 0x80 :: List.replicate ((119 - data.length % 64) % 64) 0 ++
    (List.range 8).map fun i => ((data.length * 8) % 2 ^ 64) >>> (56 - 8 * i) % 256

/-- The sixteen words of a chunk, the last one first. -/
def chunkWords (chunk : Text) : List ℕ :=
  ((List.range 16).map fun i =>
    chunk.getD (4 * i) 0 * 2 ^ 24 + chunk.getD (4 * i + 1) 0 * 2 ^ 16 +
      chunk.getD (4 * i + 2) 0 * 2 ^ 8 + chunk.getD (4 * i + 3) 0).reverse

/-- The words from the seventeenth on, each in front of the ones before. -/
def extend : ℕ → List ℕ → List ℕ
  | 0, w => w
  | n + 1, w =>
    let w15 := w.getD 14 0
    let w2 := w.getD 1 0
    let s0 := rotr w15 7 ^^^ rotr w15 18 ^^^ (w15 >>> 3)
    let s1 := rotr w2 17 ^^^ rotr w2 19 ^^^ (w2 >>> 10)
    extend n (add (add (add (w.getD 15 0) s0) (w.getD 6 0)) s1 :: w)

/-- One round. -/
def round : List ℕ → ℕ × ℕ → List ℕ
  | [a, b, c, d, e, f, g, h], (k, w) =>
    let s1 := rotr e 6 ^^^ rotr e 11 ^^^ rotr e 25
    let ch := (e &&& f) ^^^ (not32 e &&& g)
    let t1 := add (add (add (add h s1) ch) k) w
    let s0 := rotr a 2 ^^^ rotr a 13 ^^^ rotr a 22
    let maj := (a &&& b) ^^^ (a &&& c) ^^^ (b &&& c)
    [add t1 (add s0 maj), a, b, c, add d t1, e, f, g]
  | v, _ => v

def chunkHash (h : List ℕ) (chunk : Text) : List ℕ :=
  List.zipWith add h (List.foldl round h (constants.zip (extend 48 (chunkWords chunk)).reverse))

/-- The chunks of a padded message, `n` of them. -/
def hashChunks : ℕ → List ℕ → Text → List ℕ
  | 0, h, _ => h
  | n + 1, h, data => hashChunks n (chunkHash h (data.take 64)) (data.drop 64)

/-- `{x:08x}`. -/
def hex8 (x : ℕ) : Text :=
  (List.range 8).map fun i => hexDigit (x >>> (28 - 4 * i) % 16)

/-- `sha256_hex`. -/
def sha256Hex (data : Text) : Text :=
  (hashChunks ((padded data).length / 64) initial (padded data)).flatMap hex8

/-- `hashlib.sha256(data).hexdigest()`. -/
def hexdigest (data : Text) : PyStr := (sha256Hex data).map (Fin.ofNat 0x110000)

/-! The form of a digest. -/

theorem length_round {v : List ℕ} (h : v.length = 8) (kw : ℕ × ℕ) : (round v kw).length = 8 := by
  unfold round
  split
  · rfl
  · exact h

theorem length_chunkHash {h : List ℕ} (hlength : h.length = 8) (chunk : Text) :
    (chunkHash h chunk).length = 8 := by
  have hfold : ∀ (kws : List (ℕ × ℕ)) (v : List ℕ), v.length = 8 →
      (List.foldl round v kws).length = 8 := by
    intro kws
    induction kws with
    | nil => exact fun v hv => hv
    | cons kw kws ih => exact fun v hv => ih _ (length_round hv kw)
  rw [chunkHash, List.length_zipWith, hlength, hfold _ h hlength]
  rfl

theorem length_hashChunks (n : ℕ) {h : List ℕ} (hlength : h.length = 8) (data : Text) :
    (hashChunks n h data).length = 8 := by
  induction n generalizing h data with
  | zero => exact hlength
  | succ n ih => exact ih (length_chunkHash hlength _) _

theorem hexDigit_range : ∀ d, d < 16 →
    (48 ≤ hexDigit d ∧ hexDigit d ≤ 57) ∨ (97 ≤ hexDigit d ∧ hexDigit d ≤ 102) := by decide

/-- **A digest is sixty-four lower-case hexadecimal digits.** -/
theorem hexDigest_sha256Hex (data : Text) :
    (sha256Hex data).length = 64 ∧
      ∀ c ∈ sha256Hex data, (48 ≤ c ∧ c ≤ 57) ∨ (97 ≤ c ∧ c ≤ 102) := by
  refine ⟨?_, fun c hc => ?_⟩
  · have hwords : ∀ words : List ℕ, (words.flatMap hex8).length = words.length * 8 := by
      intro words
      induction words with
      | nil => rfl
      | cons word words ih =>
        rw [List.flatMap_cons, List.length_append, ih, hex8, List.length_map, List.length_range,
          List.length_cons]
        omega
    rw [sha256Hex, hwords, length_hashChunks _ rfl]
  · obtain ⟨word, -, hc⟩ := List.mem_flatMap.mp hc
    obtain ⟨i, -, rfl⟩ := List.mem_map.mp hc
    exact hexDigit_range _ (Nat.mod_lt _ (by decide))

end AzazelEdge.Lib.Sha256
