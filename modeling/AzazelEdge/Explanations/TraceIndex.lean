/-
# The index of the retained explanations

`explanations/trace.py`: the index of one explanation file that grows with it, and the explanations
that `trace_report` finds through two of them, one for each name.  The writer moves the files between
the names (`rotate_file` of `decision.py`, which keeps one rotated file).

A file is opened for each refresh and for each lookup and read through its descriptor, so what counts
is the file that has the name at the open.  Beside its device and inode number, which a later file may
get again, a file here has an `id` of its own that the code does not see.  An open fails only where
there is no file.
-/
import AzazelEdge.Audit.Segments
import AzazelEdge.Lib.Dict
import AzazelEdge.Lib.PyNumber
import AzazelEdge.Lib.Run

namespace AzazelEdge.Explanations

open AzazelEdge.Lib AzazelEdge.Lib.Py AzazelEdge.Audit

/-! ## 1. Files -/

/-- `(st_dev, st_ino)`. -/
abbrev Key := ℕ × ℕ

structure File where
  id : ℕ
  key : Key
  bytes : Text
deriving DecidableEq

/-- The two names, which are also the segments of a report. -/
inductive Name where
  | active
  | rotated
deriving DecidableEq

/-! ## 2. `_ExplanationFile` -/

/-- `MAX_INDEX_BYTES`. -/
def maxIndexBytes : ℕ := 32 * 1024 * 1024

/-- `TRACE_ID_RE`, at a character after the first. -/
def isTraceChar (c : CodePoint) : Bool := isAsciiAlnum c.val || [46, 95, 58, 45].contains c.val

/-- `valid_trace_id` of a string. -/
def validTraceId : PyStr → Bool
  | [] => false
  | c :: cs => isAsciiAlnum c.val && decide (cs.length ≤ 127) && cs.all isTraceChar

def kTraceId : PyStr := pyStr "trace_id"

/-- How many lines have a trace id, and where the newest of them is. -/
structure Entry where
  count : ℕ
  offset : ℕ
  length : ℕ
deriving DecidableEq

/-- `_ExplanationFile`, apart from the path. -/
structure Index where
  key : Option Key
  offset : ℕ
  entries : List (PyStr × Entry)
  unparsed : ℕ
  truncated : Bool
  skipPartial : Bool
deriving DecidableEq

/-- `_reset`. -/
def reset (key : Option Key) : Index := ⟨key, 0, [], 0, false, false⟩

/-- `self.offset = offset`. -/
def Index.upTo (idx : Index) (offset : ℕ) : Index := { idx with offset := offset }

/-- `not raw.strip()`. -/
def isBlank (raw : Text) : Bool := raw.all fun c => [9, 10, 11, 12, 13, 32].contains c

section Read

variable (F : Type) [PyFloat F] (wide : Text → Option Text)

variable {F} in
/-- `row.get("trace_id")`, when `valid_trace_id` holds of it. -/
def traceIdOf (row : Row F) : Option PyStr :=
  match getKey kTraceId row with
  | some (.str tid) => if validTraceId tid then some tid else none
  | _ => none

/-- `_add`. -/
def add (raw : Text) (pos : ℕ) (idx : Index) : Index :=
  if isBlank raw then idx
  else
    match (loadsDict wide raw : Option (Row F)) with
    | none => { idx with unparsed := idx.unparsed + 1 }
    | some row =>
      match traceIdOf row with
      | none => idx
      | some tid =>
        let count := (getItem tid idx.entries).elim 0 Entry.count
        { idx with entries := setItem tid ⟨count + 1, pos, raw.length⟩ idx.entries }

/-- The loop over the new lines. -/
def addLines (pos : ℕ) : List Text → Index → Index
  | [], idx => idx
  | raw :: lines, idx => addLines (pos + raw.length + 1) lines (add F wide raw pos idx)

/-- The first half of `refresh`: another file than the one indexed, or one that has become shorter,
is indexed from its start, or from its newest bytes only. -/
def follow (file : File) (idx : Index) : Index :=
  let size := file.bytes.length
  if idx.key ≠ some file.key ∨ size < idx.offset then
    if maxIndexBytes < size then
      { reset (some file.key) with
        offset := size - maxIndexBytes, truncated := true, skipPartial := true }
    else reset (some file.key)
  else idx

/-- The second half: what is new of the file, as far as its lines are complete. -/
def readNew (file : File) (idx : Index) : Index :=
  if file.bytes.length ≤ idx.offset then idx
  else
    let data := file.bytes.drop idx.offset
    if nl ∉ data then idx
    else
      let offset := idx.offset + (upToNewline data).length
      match idx.skipPartial, completeLines nl data with
      | true, first :: lines =>
        -- the window started inside a line
        (addLines F wide (idx.offset + first.length + 1) lines
          { idx with skipPartial := false }).upTo offset
      | _, lines => (addLines F wide idx.offset lines idx).upTo offset

/-- `refresh`, of the file that the path is opened to. -/
def refresh (file : Option File) (idx : Index) : Index :=
  match file with
  | none => reset none
  | some file => readNew F wide file (follow file idx)

/-- `_read_line`, of the file that the path is opened to. -/
def readLine (file : Option File) (key : Key) (offset length : ℕ) : Option (Row F) :=
  match file with
  | none => none
  | some file =>
    if file.key ≠ key ∨ file.bytes.length < offset + length then none
    else loadsDict wide ((file.bytes.drop offset).take length)

variable {F} in
/-- `row.get("trace_id") == trace_id`. -/
def hasTraceId (tid : PyStr) (row : Row F) : Bool :=
  match getKey kTraceId row with
  | some (.str found) => decide (found = tid)
  | _ => false

/-- `lookup`. -/
def lookup (idx : Index) (file : Option File) (tid : PyStr) : ℕ × Option (Row F) :=
  match getItem tid idx.entries, idx.key with
  | some entry, some key =>
    (entry.count, (readLine F wide file key entry.offset entry.length).filter (hasTraceId tid))
  | _, _ => (0, none)

/-! ## 3. `trace_report` -/

/-- What is said of the explanation of a trace id; `_explanation_view` shows the record. -/
inductive Explanation (F : Type) where
  | found (record : Row F) (count : ℕ) (segment : Name)
  | notFound (rotatedFilePresent : Bool)

/-- The explanation of a trace id, of the files that the two lookups open. -/
def explain (reader : Name → Index) (active rotated : Option File) (tid : PyStr) : Explanation F :=
  let (nActive, rec) := lookup F wide (reader .active) active tid
  let (nRotated, recRotated) := lookup F wide (reader .rotated) rotated tid
  match rec, recRotated with
  | some record, _ => .found record (nActive + nRotated) .active
  | none, some record => .found record (nActive + nRotated) .rotated
  | none, none => .notFound (reader .rotated).key.isSome

end Read

/-! ## 4. The writer -/

/-- What the names stand for, and how many files there have been. -/
structure Disk where
  files : Name → Option File
  created : ℕ

/-- What the writer does: it appends to the active file, which it creates where there is none, or
renames that file to the rotated one. -/
inductive Write where
  | append (data : Text)
  | rotate
deriving DecidableEq

/-- A step of the writer.  A file that is created gets a number that no file with a name has. -/
inductive Written : Disk → Write → Disk → Prop
  | append (d : Disk) (f : File) (data : Text) : d.files .active = some f →
      Written d (.append data)
        { d with files := Function.update d.files .active (some { f with bytes := f.bytes ++ data }) }
  | create (d : Disk) (key : Key) (data : Text) : d.files .active = none →
      (∀ g, d.files .rotated = some g → g.key ≠ key) →
      Written d (.append data)
        ⟨Function.update d.files .active (some ⟨d.created, key, data⟩), d.created + 1⟩
  | rotate (d : Disk) (f : File) : d.files .active = some f →
      Written d .rotate
        { d with files := fun name => match name with
          | .active => none
          | .rotated => some f }

/-! ## 5. Histories -/

/-- A step of the writer, or a refresh and the file it opened. -/
inductive Event where
  | write (w : Write)
  | refresh (name : Name) (found : Option File)

structure World where
  disk : Disk
  reader : Name → Index

inductive Step (F : Type) [PyFloat F] (wide : Text → Option Text) :
    World → Event → World → Prop
  | write (w : World) (e : Write) (d : Disk) : Written w.disk e d →
      Step F wide w (.write e) ⟨d, w.reader⟩
  | refresh (w : World) (name : Name) :
      Step F wide w (.refresh name (w.disk.files name))
        ⟨w.disk, Function.update w.reader name
          (Explanations.refresh F wide (w.disk.files name) (w.reader name))⟩

/-- No index has been made yet. -/
def newWorld (disk : Disk) : World := ⟨disk, fun _ => reset none⟩

end AzazelEdge.Explanations
