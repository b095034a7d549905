/-
# The retained files of a chain, and their review

A directory holds the active file and the rotated ones, `<name>.1` and on.  `readChain` reads them as
one chain (`audit/segments.py`) and `verifyAuditChain` says what is verified (`audit_review.py`).

Both look at a directory that no writer moves meanwhile, so one attempt at a snapshot is enough.  A
file's bytes are read in windows, the first line from the front and the last one from the end; the
windows of `_head` and `_last_hash` are bounded, the one of a logger that starts is not.
-/
import AzazelEdge.Audit.Record
import Mathlib.Algebra.Group.Nat.Defs

namespace AzazelEdge.Audit

open AzazelEdge.Lib AzazelEdge.Lib.Py

/-! ## 1. Files -/

/-- The active file and the rotated ones. -/
structure Dir where
  name : String
  active : Option Text
  segment : ℕ → Option Text

/-- `MAX_SEGMENTS`. -/
def maxSegments : ℕ := 16

/-- `_HEAD_MAX`. -/
def headMax : ℕ := 2 ^ 20

/-- The first window. -/
def firstStep : ℕ := 2 ^ 16

/-- A line feed. -/
abbrev nl : ℕ := 10

/-- `data[:-1] if data.endswith(b'\n') else data`. -/
def dropNewline (data : Text) : Text := if data.getLast? = some nl then data.dropLast else data

/-- The first line, of the windows read from the front. -/
def headLine (file : Text) : ℕ → ℕ → Option Text
  | 0, _ => none
  | fuel + 1, read =>
    if headMax ≤ read then none
    else if file.drop read = [] then none
    else if nl ∈ file.take (read + firstStep) then
      some ((file.take (read + firstStep)).takeWhile fun c => c ≠ nl)
    else headLine file fuel (read + firstStep)

/-- Where the window read from the end begins.  Each window is twice the one before; `bounded` stops
at `_HEAD_MAX` bytes. -/
def windowStart (bounded : Bool) (file : Text) : ℕ → ℕ → ℕ → ℕ
  | 0, _, pos => pos
  | fuel + 1, step, pos =>
    if pos = 0 ∨ (bounded = true ∧ headMax ≤ file.length - pos) then pos
    else if nl ∈ dropNewline (file.drop (pos - step)) ∨ pos - step = 0 then pos - step
    else windowStart bounded file fuel (2 * step) (pos - step)

/-- The bytes read from the end. -/
def window (bounded : Bool) (file : Text) : Text :=
  file.drop (windowStart bounded file (file.length + 1) firstStep file.length)

/-- `data[:data.rfind(b'\n') + 1] if b'\n' in data else b''`. -/
def upToNewline (data : Text) : Text := data.take (data.length - (lineTail nl data).length)

section Read

variable {F : Type} [PyFloat F] [PyRepr F] (wide : Text → Option Text)

/-- `json.loads` of a line, when it is a dict. -/
def loadsDict (bytes : Text) : Option (Row F) :=
  match loadsBytes wide bytes with
  | some (.obj row) => some row
  | _ => none

/-- `_head`. -/
def head (file : Text) : Option (Row F) := (headLine file 17 0).bind (loadsDict wide)

variable (F)

/-- `_last_hash`. -/
def lastHash (file : Text) : PyStr :=
  let data := window true file
  let data := if data.getLast? = some nl then data else upToNewline data
  match (loadsDict wide (lineTail nl data.dropLast) : Option (Row F)) with
  | some row => chainHash row
  | none => []

variable {F}

/-- `head.get('chain_id')` when it is a string with something in it. -/
def namedChain (row : Row F) : Option PyStr :=
  match getKey kChainId row with
  | some (.str (c :: cs)) => some (c :: cs)
  | _ => none

/-- `chain_id_of`. -/
def chainIdOf (row : Row F) : PyStr :=
  match namedChain row with
  | some cid => cid
  | none => if chainPrev row ≠ [] then chainPrev row else chainHash row

variable (F)

/-- The older files that continue `newest`. -/
def linkedFrom (newest : Text) : List Text → List Text
  | [] => []
  | older :: rest =>
    match (head wide newest : Option (Row F)) with
    | none => []
    | some row =>
      if chainPrev row ≠ lastHash F wide older then [] else older :: linkedFrom older rest

/-- `_linked`, newest first. -/
def linked : List Text → List Text
  | [] => []
  | [newest] => [newest]
  | newest :: older :: rest =>
    -- an active file without a complete record cuts nothing off
    if (head wide newest : Option (Row F)).isNone then
      newest :: older :: linkedFrom F wide older rest
    else newest :: linkedFrom F wide newest (older :: rest)

/-! ## 2. `read_chain` -/

/-- The rotated files from the `n`-th on, and the first number without one. -/
def openSegments (dir : Dir) : ℕ → ℕ → List Text × ℕ
  | 0, n => ([], n)
  | fuel + 1, n =>
    match dir.segment n with
    | some file => (file :: (openSegments dir fuel (n + 1)).1, (openSegments dir fuel (n + 1)).2)
    | none => ([], n)

/-- The files, newest first. -/
def openFiles (dir : Dir) : List Text := dir.active.toList ++ (openSegments dir maxSegments 1).1

/-- No file stands beyond the first gap. -/
def consistent (dir : Dir) : Bool :=
  !(decide ((openSegments dir maxSegments 1).2 ≤ maxSegments) &&
    (dir.segment ((openSegments dir maxSegments 1).2 + 1)).isSome)

/-- The lines of each file, newest first, within the byte budget, and whether it cut any off. -/
def takeLines : Option ℕ → List Text → List (List Text) × Bool
  | _, [] => ([], false)
  | budget, file :: files =>
    if budget = some 0 then ([], true)
    else
      let take := match budget with
        | none => file.length
        | some b => min file.length b
      let lines := completeLines nl (file.drop (file.length - take))
      let rest := takeLines (budget.map (· - take)) files
      if 0 < file.length - take then (lines.drop 1 :: rest.1, true) else (lines :: rest.1, rest.2)

structure Snapshot where
  lines : List Text
  truncated : Bool
  anchored : Bool
  chainId : PyStr
  /-- The files read, oldest first. -/
  files : List Text
  unlinkedSegments : ℕ
  consistent : Bool

/-- `read_chain`. -/
def readChain (dir : Dir) (maxBytes : Option ℕ) : Snapshot :=
  let kept := linked F wide (openFiles dir)
  let first : Option (Row F) := kept.getLast?.bind (head wide)
  let parts := takeLines maxBytes kept
  { lines := parts.1.reverse.flatten
    truncated := parts.2
    anchored := match first with
      | some row => !row.isEmpty && chainPrev row ≠ []
      | none => false
    chainId := match first with
      | some row => if row.isEmpty then [] else chainIdOf row
      | none => []
    files := kept.reverse
    unlinkedSegments := (openFiles dir).length - kept.length
    consistent := consistent dir }

end Read

/-! ## 3. `verify_audit_chain` -/

inductive Scope where
  | fromGenesis
  | fromRotationBoundary
  | empty
  | notVerified
  deriving DecidableEq, Repr

structure Verdict where
  ok : Bool
  verified : Bool
  entries : ℕ
  error : String
  scope : Scope
  genesisRetained : Bool
  files : List String
  chainId : PyStr
  deriving DecidableEq

/-- The name of the `n`-th rotated file. -/
def segmentName (name : String) (n : ℕ) : String := s!"{name}.{n}"

/-- `_retained_files`, oldest first. -/
def retainedFiles (dir : Dir) (segments : ℕ) : List String :=
  (((if dir.active.isSome then [dir.name] else []) ++
    (List.range segments).map fun n => segmentName dir.name (n + 1)).take segments).reverse

/-- The verdict of `fail`. -/
def failed (files : List String) (chainId : PyStr) (entries : ℕ) (error : String) : Verdict :=
  { ok := false, verified := false, entries := entries, error := error, scope := .notVerified,
    genesisRetained := false, files := files, chainId := chainId }

def emptyChain (files : List String) (chainId : PyStr) : Verdict :=
  { ok := true, verified := false, entries := 0, error := "", scope := .empty,
    genesisRetained := false, files := files, chainId := chainId }

/-- The file does not end in a newline. -/
def isTorn (file : Text) : Bool := file ≠ [] && file.getLast? ≠ some nl

section Verify

variable {F : Type} [PyFloat F] [PyRepr F] (sha : Text → PyStr) (wide : Text → Option Text)

/-- `"chain_id" in row and row.get("chain_id") != chain_id`. -/
def otherChain (chainId : PyStr) (row : Row F) : Bool :=
  match getKey kChainId row with
  | none => false
  | some (.str cid) => cid ≠ chainId
  | some _ => true

/-- The check of the rows: how many passed, and the error that stopped it. -/
def checkRows (chainId : PyStr) : ℕ → List (Row F) → PyStr → Except (ℕ × String) ℕ
  | done, [], _ => .ok done
  | done, row :: rows, prev =>
    if chainPrev row ≠ prev then .error (done, s!"chain_prev_mismatch_at:{done + 1}")
    else if otherChain chainId row then .error (done, s!"chain_id_mismatch_at:{done + 1}")
    else if chainHash row ≠ bodyHash sha row then
      .error (done, s!"chain_hash_mismatch_at:{done + 1}")
    else checkRows chainId (done + 1) rows (chainHash row)

/-- The rows of the retained lines, or the place of the first line that is not a dict. -/
def loadRows : ℕ → List Text → Except ℕ (List (Row F))
  | _, [] => .ok []
  | done, line :: lines =>
    match loadsDict wide line with
    | none => .error (done + 1)
    | some row =>
      match loadRows (done + 1) lines with
      | .ok rows => .ok (row :: rows)
      | .error at_ => .error at_

/-- The verdict over the rows. -/
def reviewRows (files : List String) (chainId : PyStr) : List (Row F) → Verdict
  | [] => emptyChain files chainId
  | row :: rows =>
    if chainPrev row ≠ [] ∧ namedChain row = none then
      failed files chainId 0 "start_cut:oldest_record_is_not_a_rotation_boundary"
    else
      match checkRows sha (chainIdOf row) 0 (row :: rows) (chainPrev row) with
      | .error (done, error) => failed files chainId done error
      | .ok done =>
        { ok := true, verified := true, entries := done, error := ""
          scope := if chainPrev row ≠ [] then .fromRotationBoundary else .fromGenesis
          genesisRetained := chainPrev row = [], files := files, chainId := chainId }

variable (F)

/-- `verify_audit_chain`. -/
def verifyAuditChain (dir : Dir) : Verdict :=
  if dir.active.isNone ∧ (dir.segment 1).isNone then emptyChain [] []
  else
    let snapshot := readChain F wide dir none
    let files := retainedFiles dir snapshot.files.length
    if !snapshot.consistent then
      failed files snapshot.chainId 0 "snapshot_inconsistent:rotation_kept_moving_files"
    else if snapshot.unlinkedSegments ≠ 0 then
      failed files snapshot.chainId 0 s!"rotated_file_not_continued:{snapshot.unlinkedSegments}"
    else
      match snapshot.files.findIdx? isTorn with
      | some idx =>
        failed files snapshot.chainId 0
          s!"incomplete_last_line:{files.getD idx (toString (idx + 1))}"
      | none =>
        match (loadRows wide 0 snapshot.lines : Except ℕ (List (Row F))) with
        | .error at_ => failed files snapshot.chainId 0 s!"parse_error_at:{at_}"
        | .ok rows => reviewRows sha files snapshot.chainId rows

end Verify

end AzazelEdge.Audit
