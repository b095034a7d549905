/-
# The sink of the trace audit

`TraceAuditSink` of `trace_audit.py` over the segments of one path: the active file, and the
rotated `.1` to `.{max_files - 1}` behind it.  Every operation of the file system may fail; an
append stops at the first one that does, except for the truncation that follows a failed write.

A file is its bytes.  `os.write` may take less than it is given, and is called again.
-/
import AzazelEdge.Lib.PyValue
import AzazelEdge.Lib.PyRead

namespace AzazelEdge.TraceAudit

open AzazelEdge.Lib AzazelEdge.Lib.Py

/-! ## 1. Failures -/

/-- The `errno` of an `OSError`, as far as `_os_reason` tells them apart. -/
inductive Errno where
  | enospc
  | edquot
  | erofs
  | eacces
  | eloop
  | einval
  | eperm
  | enxio
  | other
deriving DecidableEq

/-- What a step raised. -/
inductive Fault where
  | os (errno : Errno)
  /-- An exception that is no `OSError`. -/
  | exception
deriving DecidableEq

/-- The name of an `errno` in `_os_reason`. -/
def Errno.reason : Errno → String
  | .enospc => "enospc"
  | .edquot => "edquot"
  | .erofs => "erofs"
  | .eacces => "eacces"
  | .eloop => "eloop"
  | .einval => "not_regular"
  | .eperm => "eperm"
  | .enxio => "enxio"
  | .other => "oserror"

/-- `_os_reason`, and the reason of any other exception. -/
def Fault.reason (pre : String) : Fault → String
  | .os errno => pre ++ ":" ++ errno.reason
  | .exception => pre ++ ":exception"

/-- The steps of an append that may fail. -/
inductive FsStep where
  | size
  | lexists (i : ℕ)
  | remove (i : ℕ)
  | rename (i : ℕ)
  /-- `sync_dir` at the end of a rotation. -/
  | rotatedSync
  | openFile
  /-- What `append_fsync` does between the open and the write. -/
  | prepare
  | fsync
  | closeFile
  /-- `sync_dir` for a file that the append created. -/
  | createdSync
deriving DecidableEq

/-- What the file system does for one append. -/
structure AppendIo where
  /-- The step that fails, if one does. -/
  fault : Option (FsStep × Fault)
  /-- What the first calls of `os.write` do; any later one takes all it is given. -/
  writes : List (Except Fault ℕ)
  /-- The failure of `os.ftruncate`, should it be called. -/
  truncate : Option Fault

def AppendIo.fine : AppendIo := ⟨none, [], none⟩

/-- This step's failure. -/
def AppendIo.fails (io : AppendIo) (step : FsStep) : Option Fault :=
  match io.fault with
  | some (failing, fault) => if failing = step then some fault else none
  | none => none

/-! ## 2. Files -/

/-- `MAX_RECORD_BYTES`. -/
def maxRecordBytes : ℕ := 4096

/-- The retention that `__post_init__` lets pass. -/
structure Retention where
  maxFileBytes : ℕ
  maxFiles : ℕ
  bytes_ok : maxRecordBytes ≤ maxFileBytes
  files_ok : 1 ≤ maxFiles

/-- The segments of the path: `0` is the active file, `i` is `{path}.{i}`. -/
abbrev Segments := ℕ → Option Text

/-- The segments with this one set. -/
def Segments.put (files : Segments) (i : ℕ) (content : Option Text) : Segments :=
  fun k => if k = i then content else files k

/-- `os.replace` of a segment by the one before it. -/
def Segments.shift (files : Segments) (i : ℕ) : Segments :=
  (files.put (i + 1) (files i)).put i none

/-- The renames of `_rotate`, from the older segments to the active file. -/
def moveUp (io : AppendIo) : List ℕ → Segments → Segments × Option Fault
  | [], files => (files, none)
  | i :: rest, files =>
    match io.fails (.lexists i) with
    | some fault => (files, some fault)
    | none =>
      if (files i).isNone then moveUp io rest files
      else match io.fails (.rename i) with
        | some fault => (files, some fault)
        | none => moveUp io rest (files.shift i)

/-- `_rotate`. -/
def rotate (cfg : Retention) (io : AppendIo) (files : Segments) : Segments × Option Fault :=
  let oldest := cfg.maxFiles - 1
  match io.fails (.lexists oldest) with
  | some fault => (files, some fault)
  | none =>
    match (if (files oldest).isSome then io.fails (.remove oldest) else none) with
    | some fault => (files, some fault)
    | none =>
      -- The loop goes down to `.1`, and the active file follows when there are several.
      match moveUp io (List.range (cfg.maxFiles - 1)).reverse (files.put oldest none) with
      | (moved, some fault) => (moved, some fault)
      | (moved, none) => (moved, io.fails .rotatedSync)

/-- The write loop: what it wrote, and what stopped it. -/
def writeLoop : List (Except Fault ℕ) → Text → Text × Option Fault
  | _, [] => ([], none)
  | [], view => (view, none)
  | .error fault :: _, _ => ([], some fault)
  | .ok 0 :: _, _ => ([], some (.os .other))
  | .ok (n + 1) :: rest, view =>
    let (taken, fault) := writeLoop rest (view.drop (n + 1))
    (view.take (n + 1) ++ taken, fault)

/-- The file ends in the middle of a line. -/
def tornTail (content : Text) : Bool := content.getLast?.any (· ≠ 10)

/-- `OsAuditFS.append_fsync`. -/
def appendFsync (io : AppendIo) (data : Text) (files : Segments) : Segments × Option Fault :=
  let created := (files 0).isNone
  match io.fails .openFile with
  | some fault => (files, some fault)
  | none =>
    let content := (files 0).getD []
    let opened := files.put 0 (some content)
    match io.fails .prepare with
    | some fault => (opened, some fault)
    | none =>
      -- A torn tail from an earlier crash gets its own line terminated first.
      let data := if tornTail content then 10 :: data else data
      match writeLoop io.writes data with
      | (taken, some fault) =>
        match io.truncate with
        | none => (opened, some fault)
        | some failed => (files.put 0 (some (content ++ taken)), some failed)
      | (taken, none) =>
        (files.put 0 (some (content ++ taken)),
          (io.fails .fsync).or ((io.fails .closeFile).or
            (if created then io.fails .createdSync else none)))

/-! ## 3. Records -/

section Finite

variable {F : Type} [PyFloat F]

/-- `allow_nan=False` lets this float pass. -/
def finiteFloat (x : F) : Bool := !(floatConstants.contains (PyFloat.repr x))

def finiteKey : PyKey F → Bool
  | .float x => finiteFloat x
  | _ => true

mutual

/-- `allow_nan=False` lets every float of the value pass. -/
def finiteValue : PyValue F → Bool
  | .float x => finiteFloat x
  | .list items => finiteList items
  | .dict items => finiteItems items
  | _ => true

def finiteList : List (PyValue F) → Bool
  | [] => true
  | item :: items => finiteValue item && finiteList items

def finiteItems : List (PyKey F × PyValue F) → Bool
  | [] => true
  | item :: items => finiteItem item && finiteItems items

def finiteItem : PyKey F × PyValue F → Bool
  | (key, value) => finiteKey key && finiteValue value

end

end Finite

/-- What is handed to `append`. -/
inductive AuditRecord (F : Type) where
  | nonMapping
  | mapping (items : List (PyKey F × PyValue F))
  /-- A mapping with something in it that `json` does not know, or that is nested too deep. -/
  | unencodable

variable {F : Type} [PyFloat F]

/-- `encode_record`; none when it raises. -/
def encodeRecord (items : List (PyKey F × PyValue F)) : Option Text :=
  if sortable (.dict items) && finiteValue (.dict items) then
    some (text (written true (.dict items)) ++ [10])
  else none

/-! ## 4. The sink -/

/-- `TraceAuditSink`, and its files. -/
structure Sink where
  files : Segments
  dropped : ℕ
  written : ℕ
  degradedReason : String
  dropReasons : List (String × ℕ)

/-- `AppendResult`. -/
structure AppendResult where
  written : Bool
  reason : String

/-- One more drop for this reason. -/
def countDrop (reason : String) : List (String × ℕ) → List (String × ℕ)
  | [] => [(reason, 1)]
  | (r, n) :: rest => if r = reason then (r, n + 1) :: rest else (r, n) :: countDrop reason rest

/-- `_drop`. -/
def Sink.drop (sink : Sink) (reason : String) : Sink × AppendResult :=
  ({ sink with
      dropped := sink.dropped + 1
      dropReasons := countDrop reason sink.dropReasons
      degradedReason := if sink.degradedReason = "" then reason else sink.degradedReason },
    ⟨false, reason⟩)

/-- `advisory_allowed`. -/
def Sink.advisoryAllowed (sink : Sink) : Bool := sink.degradedReason = ""

/-- `reset_degraded`. -/
def Sink.resetDegraded (sink : Sink) : Sink := { sink with degradedReason := "" }

/-- The active file has no room for the data and a newline before it. -/
def needsRotation (cfg : Retention) (files : Segments) (data : Text) : Bool :=
  cfg.maxFileBytes < ((files 0).getD []).length + data.length + 1

/-- The first part of `append`: a rotation, where there has to be one. -/
def makeRoom (cfg : Retention) (io : AppendIo) (data : Text) (files : Segments) :
    Segments × Option Fault :=
  match io.fails .size with
  | some fault => (files, some fault)
  | none => if needsRotation cfg files data then rotate cfg io files else (files, none)

/-- `append` of the encoded record. -/
def Sink.appendData (cfg : Retention) (sink : Sink) (data : Text) (io : AppendIo) :
    Sink × AppendResult :=
  if maxRecordBytes < data.length + 1 then sink.drop "record_too_large"
  else match makeRoom cfg io data sink.files with
    | (files, some fault) => { sink with files }.drop (fault.reason "rotation_failed")
    | (files, none) =>
      match appendFsync io data files with
      | (files, some fault) => { sink with files }.drop (fault.reason "append_failed")
      | (files, none) => ({ sink with files, written := sink.written + 1 }, ⟨true, "written"⟩)

/-- `append`. -/
def Sink.append (cfg : Retention) (sink : Sink) (record : AuditRecord F) (io : AppendIo) :
    Sink × AppendResult :=
  match record with
  | .nonMapping => sink.drop "non_mapping_record"
  | .unencodable => sink.drop "unencodable_record"
  | .mapping items =>
    match encodeRecord items with
    | none => sink.drop "unencodable_record"
    | some data => sink.appendData cfg data io

/-- `record_cycle`, of what the projection came to. -/
def Sink.recordCycle (cfg : Retention) (sink : Sink) (projection : Option (AuditRecord F))
    (io : AppendIo) : Sink × Bool :=
  match projection with
  | none => ((sink.drop "projection_failed").1, false)
  | some record =>
    let (sink', result) := sink.append cfg record io
    (sink', result.written && sink'.advisoryAllowed)

end AzazelEdge.TraceAudit
