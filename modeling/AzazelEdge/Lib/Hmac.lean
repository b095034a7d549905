/-
# HMAC-SHA256

`hmac.new(secret, message, hashlib.sha256).hexdigest()`, over bytes.
-/
import AzazelEdge.Lib.Sha256

namespace AzazelEdge.Lib.Sha256

open AzazelEdge.Lib.Py

/-- The four bytes of a word. -/
def bytes4 (x : ℕ) : Text := (List.range 4).map fun i => (x >>> (24 - 8 * i)) % 256

/-- The digest as bytes. -/
def sha256Bytes (data : Text) : Text :=
  (hashChunks ((padded data).length / 64) initial (padded data)).flatMap bytes4

/-- The secret in one block: hashed when it is longer than one, filled up with zeros. -/
def blockKey (secret : Text) : Text :=
  let key := if 64 < secret.length then sha256Bytes secret else secret
  key ++ List.replicate (64 - key.length) 0

/-- `hmac.new(secret, message, hashlib.sha256).hexdigest()`. -/
def hmacHex (secret message : Text) : PyStr :=
  let key := blockKey secret
  hexdigest (key.map (· ^^^ 0x5C) ++ sha256Bytes (key.map (· ^^^ 0x36) ++ message))

example : hmacHex (ascii "Jefe") (ascii "what do ya want for nothing?") =
    pyStr "5bdcc146bf60754e6a042426089575c75a003f089d2739839dec58b964ec3843" := by
  decide +kernel

end AzazelEdge.Lib.Sha256
