/-
# The logger

`P0AuditLogger` over a directory: what it knows after it was opened, a call of `log` with whatever
the file system answers, and a crash between any two of a call's file-system operations.

A crash inside the append leaves any number of the line's bytes.  The process that comes next opens
a logger on what is left, so a crash and the restart are one step here.
-/
import AzazelEdge.Audit.Segments
import AzazelEdge.Lib.Run
import Mathlib.Data.PNat.Notation

namespace AzazelEdge.Audit

open AzazelEdge.Lib AzazelEdge.Lib.Py

/-! ## 1. Opening -/

/-- `P0AuditLogger`; `max_bytes` is refused unless it is positive. -/
structure Logger where
  maxBytes : Option ℕ+
  lastChainHash : PyStr
  chainId : PyStr

section Open

variable (F : Type) [PyFloat F] [PyRepr F] (wide : Text → Option Text)

/-- The file that holds the chain's last line, if one does. -/
def lastFile (maxBytes : Option ℕ+) (dir : Dir) : Option Text :=
  match dir.active with
  | some (c :: cs) => some (c :: cs)
  | _ => if maxBytes.isNone then none else dir.segment 1

/-- `_read_last_chain_hash`. -/
def readLastChainHash (maxBytes : Option ℕ+) (dir : Dir) : PyStr :=
  match lastFile maxBytes dir with
  | none => []
  | some file =>
    match (loadsDict wide (lineTail nl (dropNewline (window false file))) : Option (Row F)) with
    | some row => chainHash row
    | none => []

/-- `_read_chain_id`. -/
def readChainId (dir : Dir) : PyStr := (readChain F wide dir (some 0)).chainId

/-- `P0AuditLogger(path, max_bytes=...)`. -/
def openLogger (maxBytes : Option ℕ+) (dir : Dir) : Logger :=
  { maxBytes := maxBytes
    lastChainHash := readLastChainHash F wide maxBytes dir
    chainId := if readLastChainHash F wide maxBytes dir = [] then [] else readChainId F wide dir }

end Open

/-! ## 2. Logging -/

/-- What becomes of the append: done, or an error, with the file opened or not and so many of the
line's bytes in it. -/
inductive Append where
  | done
  | notOpened
  | failed (bytes : ℕ)
  deriving DecidableEq

/-- What `fsync_path` does: it syncs, the file system cannot sync, or an error. -/
inductive Sync where
  | synced
  | unsupported
  | failed
  deriving DecidableEq

/-- What the file system answers during a call. -/
structure Answers where
  unlink : Bool
  replace : Bool
  append : Append
  sync : Sync

inductive Durability where
  | fsynced
  | unsupported
  | notRequired
  deriving DecidableEq

/-- What a call of `log` comes to. -/
inductive Outcome (F : Type) where
  | invalidKind
  | notSortable
  | notAppended
  | notDurable (record : Record F)
  | returned (record : Record F) (durability : Durability)

/-- The record that was appended, if one was. -/
def Outcome.record? {F : Type} : Outcome F → Option (Record F)
  | .notDurable record => some record
  | .returned record _ => some record
  | _ => none

/-- The call returns. -/
def Outcome.isReturned {F : Type} : Outcome F → Bool
  | .returned _ _ => true
  | _ => false

/-- The file is at `max_bytes`. -/
def full (logger : Logger) (dir : Dir) : Bool :=
  match logger.maxBytes, dir.active with
  | some maxBytes, some file => (maxBytes : ℕ) ≤ file.length
  | _, _ => false

/-- The rotated file after the first one was removed or replaced. -/
def setFirst (segment : ℕ → Option Text) (file : Option Text) : ℕ → Option Text :=
  fun n => if n = 1 then file else segment n

/-- `_rotate`. -/
def rotate (a : Answers) (dir : Dir) : Dir :=
  if a.unlink = false then dir
  else if a.replace = false then { dir with segment := setFirst dir.segment none }
  else { dir with active := none, segment := setFirst dir.segment dir.active }

/-- The directory a record is appended to. -/
def makeRoom (logger : Logger) (a : Answers) (dir : Dir) : Dir :=
  if full logger dir then rotate a dir else dir

/-- `chain_id` for a record, which only the first one of a rotated chain's new file has. -/
def newFileId (logger : Logger) (dir : Dir) : Option PyStr :=
  if logger.maxBytes.isSome ∧ dir.active.isNone ∧ logger.lastChainHash ≠ [] ∧ logger.chainId ≠ [] then
    some logger.chainId
  else none

/-- Some bytes at the end of the active file, which is created when it is missing. -/
def appendBytes (bytes : Text) (dir : Dir) : Dir :=
  { dir with active := some (dir.active.getD [] ++ bytes) }

section Log

variable {F : Type} [PyFloat F] (reprOf : PyValue F → PyStr) (sha : Text → PyStr)

/-- `str(value or '')` of a value in memory; `reprOf` is `repr` of a list or a dict. -/
def valueStrOr : Option (PyValue F) → PyStr
  | none => []
  | some .none => []
  | some (.bool b) => if b then pyStr "True" else []
  | some (.int n) => if n = 0 then [] else ofText (intText n)
  | some (.float x) => if PyFloat.truthy x then PyFloat.str x else []
  | some (.str s) => s
  | some (.list items) => if items.isEmpty then [] else reprOf (.list items)
  | some (.dict items) => if items.isEmpty then [] else reprOf (.dict items)

/-- `chain_id_of` a record in memory. -/
def recordChainId (record : Record F) : PyStr :=
  match getKey kChainId record with
  | some (.str (c :: cs)) => c :: cs
  | _ =>
    if valueStrOr reprOf (getKey kChainPrev record) ≠ [] then
      valueStrOr reprOf (getKey kChainPrev record)
    else valueStrOr reprOf (getKey kChainHash record)

/-- What the logger knows after it appended a record. -/
def afterAppend (logger : Logger) (record : Record F) : Logger :=
  { logger with
    lastChainHash := valueStrOr reprOf (getKey kChainHash record)
    chainId := if logger.chainId = [] then recordChainId reprOf record else logger.chainId }

/-- The record of a call, in the directory it is appended to. -/
def nextRecord (logger : Logger) (dir : Dir) (call : Call F) : Option (Record F) :=
  chained sha (call.record logger.lastChainHash (newFileId logger dir))

/-- How the durability of an appended record comes out. -/
def durability (a : Answers) (call : Call F) (record : Record F) : Outcome F :=
  if call.kind ∈ durableKinds then
    match a.sync with
    | .synced => .returned record .fsynced
    | .unsupported => .returned record .unsupported
    | .failed => .notDurable record
  else .returned record .notRequired

/-- `log_reporting_durability`. -/
def log (logger : Logger) (dir : Dir) (call : Call F) (a : Answers) : Dir × Logger × Outcome F :=
  if call.kind ∉ validKinds then (dir, logger, .invalidKind)
  else
    let dir := makeRoom logger a dir
    match nextRecord sha logger dir call with
    | none => (dir, logger, .notSortable)
    | some record =>
      match a.append with
      | .notOpened => (dir, logger, .notAppended)
      | .failed bytes =>
        (appendBytes ((lineOf record ++ [nl]).take bytes) dir, logger, .notAppended)
      | .done =>
        (appendBytes (lineOf record ++ [nl]) dir, afterAppend reprOf logger record,
          durability a call record)

/-! ## 3. Crashes -/

/-- Where in a call the process dies: after `.1` was removed, before the active file is opened, or
with so many of the line's bytes written. -/
inductive CrashPoint where
  | unlinked
  | madeRoom
  | appended (bytes : ℕ)
  deriving DecidableEq

/-- What a call leaves that dies at a point. -/
def crashDir (logger : Logger) (dir : Dir) (call : Call F) (a : Answers) : CrashPoint → Dir
  | .unlinked =>
    if call.kind ∈ validKinds ∧ full logger dir then
      { dir with segment := setFirst dir.segment none }
    else dir
  | .madeRoom => if call.kind ∈ validKinds then makeRoom logger a dir else dir
  | .appended bytes =>
    if call.kind ∈ validKinds then
      match nextRecord sha logger (makeRoom logger a dir) call with
      | none => makeRoom logger a dir
      | some record => appendBytes ((lineOf record ++ [nl]).take bytes) (makeRoom logger a dir)
    else dir

/-- A process and its directory. -/
structure Host where
  logger : Logger
  dir : Dir

/-- What happens to a process. -/
inductive Event (F : Type) where
  | log (call : Call F) (a : Answers)
  | reopen (maxBytes : Option ℕ+)
  | crash (call : Call F) (a : Answers) (point : CrashPoint) (maxBytes : Option ℕ+)

variable [PyRepr F] (wide : Text → Option Text)

/-- A process opened on a directory. -/
def start (maxBytes : Option ℕ+) (dir : Dir) : Host := ⟨openLogger F wide maxBytes dir, dir⟩

def step (s : Host) : Event F → Host
  | .log call a => ⟨(log reprOf sha s.logger s.dir call a).2.1, (log reprOf sha s.logger s.dir call a).1⟩
  | .reopen maxBytes => start (F := F) wide maxBytes s.dir
  | .crash call a point maxBytes =>
    start (F := F) wide maxBytes (crashDir sha s.logger s.dir call a point)

end Log

/-- A directory without a file of the chain. -/
def fresh (name : String) : Dir := ⟨name, none, fun _ => none⟩

/-! ## 4. What a call can do -/

section Cases

variable {F : Type} [PyFloat F] {reprOf : PyValue F → PyStr} {sha : Text → PyStr} {logger : Logger}
  {dir : Dir} {call : Call F} {a : Answers} {record : Record F}

/-- What a call leaves that appended a record. -/
structure Appended (reprOf : PyValue F → PyStr) (sha : Text → PyStr) (logger : Logger) (dir : Dir)
    (call : Call F) (a : Answers) (record : Record F) : Prop where
  kind : call.kind ∈ validKinds
  done : a.append = .done
  record_eq : nextRecord sha logger (makeRoom logger a dir) call = some record
  dir_eq : (log reprOf sha logger dir call a).1 =
    appendBytes (lineOf record ++ [nl]) (makeRoom logger a dir)
  logger_eq : (log reprOf sha logger dir call a).2.1 = afterAppend reprOf logger record

omit [PyFloat F] in
theorem durability_record (a : Answers) (call : Call F) (record : Record F) :
    (durability a call record).record? = some record := by
  unfold durability
  split
  · cases a.sync <;> rfl
  · rfl

theorem log_done (hkind : call.kind ∈ validKinds)
    (hnext : nextRecord sha logger (makeRoom logger a dir) call = some record)
    (happend : a.append = .done) :
    log reprOf sha logger dir call a =
      (appendBytes (lineOf record ++ [nl]) (makeRoom logger a dir), afterAppend reprOf logger record,
        durability a call record) := by
  simp [log, hkind, hnext, happend]

/-- **A call appends its record, or makes room at most and leaves some bytes of it.** -/
theorem log_cases (reprOf : PyValue F → PyStr) (sha : Text → PyStr) (logger : Logger) (dir : Dir)
    (call : Call F) (a : Answers) :
    (∃ record, (log reprOf sha logger dir call a).2.2.record? = some record ∧
      Appended reprOf sha logger dir call a record) ∨
    ((log reprOf sha logger dir call a).2.2.record? = none ∧
      (log reprOf sha logger dir call a).2.1 = logger ∧
      ((log reprOf sha logger dir call a).1 = dir ∨
        (log reprOf sha logger dir call a).1 = makeRoom logger a dir ∨
        ∃ record bytes, nextRecord sha logger (makeRoom logger a dir) call = some record ∧
          a.append = .failed bytes ∧ (log reprOf sha logger dir call a).1 =
            appendBytes ((lineOf record ++ [nl]).take bytes) (makeRoom logger a dir))) := by
  by_cases hkind : call.kind ∈ validKinds
  · cases hnext : nextRecord sha logger (makeRoom logger a dir) call with
    | none =>
      refine .inr ⟨?_, ?_, .inr (.inl ?_)⟩ <;>
        simp [log, hkind, hnext, Outcome.record?]
    | some record =>
      cases happend : a.append with
      | done =>
        have hlog := @log_done F _ reprOf sha logger dir call a record hkind hnext happend
        refine .inl ⟨record, ?_, hkind, happend, hnext, ?_, ?_⟩
        · rw [hlog]
          exact durability_record a call record
        · rw [hlog]
        · rw [hlog]
      | notOpened =>
        refine .inr ⟨?_, ?_, .inr (.inl ?_)⟩ <;>
          simp [log, hkind, hnext, happend, Outcome.record?]
      | failed bytes =>
        refine .inr ⟨?_, ?_, .inr (.inr ⟨record, bytes, rfl, rfl, ?_⟩)⟩ <;>
          simp [log, hkind, hnext, happend, Outcome.record?]
  · refine .inr ⟨?_, ?_, .inl ?_⟩ <;> simp [log, hkind, Outcome.record?]

theorem log_appended (h : (log reprOf sha logger dir call a).2.2.record? = some record) :
    Appended reprOf sha logger dir call a record := by
  rcases log_cases reprOf sha logger dir call a with ⟨record', hrecord', happended⟩ | ⟨hnone, -⟩
  · rw [h] at hrecord'
    exact Option.some.inj hrecord' ▸ happended
  · rw [h] at hnone
    cases hnone

/-- What a crash leaves: what was there, what `.1` was removed from, the directory with room made,
or that with some of a line's bytes. -/
theorem crashDir_cases (sha : Text → PyStr) (logger : Logger) (dir : Dir) (call : Call F)
    (a : Answers) (point : CrashPoint) :
    crashDir sha logger dir call a point = dir ∨
    (full logger dir = true ∧
      crashDir sha logger dir call a point = { dir with segment := setFirst dir.segment none }) ∨
    crashDir sha logger dir call a point = makeRoom logger a dir ∨
    ∃ record bytes, nextRecord sha logger (makeRoom logger a dir) call = some record ∧
      point = .appended bytes ∧ crashDir sha logger dir call a point =
        appendBytes ((lineOf record ++ [nl]).take bytes) (makeRoom logger a dir) := by
  by_cases hkind : call.kind ∈ validKinds
  · cases point with
    | unlinked =>
      by_cases hfull : full logger dir = true
      · exact .inr (.inl ⟨hfull, by simp [crashDir, hkind, hfull]⟩)
      · exact .inl (by simp [crashDir, hfull])
    | madeRoom => exact .inr (.inr (.inl (by simp [crashDir, hkind])))
    | appended bytes =>
      cases hnext : nextRecord sha logger (makeRoom logger a dir) call with
      | none => exact .inr (.inr (.inl (by simp [crashDir, hkind, hnext])))
      | some record =>
        exact .inr (.inr (.inr ⟨record, bytes, rfl, rfl, by simp [crashDir, hkind, hnext]⟩))
  · refine .inl ?_
    cases point <;> simp [crashDir, hkind]

/-- **Making room leaves the directory, removes `.1`, or moves the active file there.** -/
theorem makeRoom_cases (logger : Logger) (a : Answers) (dir : Dir) :
    makeRoom logger a dir = dir ∨
    (full logger dir = true ∧
      makeRoom logger a dir = { dir with segment := setFirst dir.segment none }) ∨
    (full logger dir = true ∧ makeRoom logger a dir =
      { dir with active := none, segment := setFirst dir.segment dir.active }) := by
  unfold makeRoom rotate
  split_ifs with hfull
  · exact .inl rfl
  · exact .inr (.inl ⟨hfull, rfl⟩)
  · exact .inr (.inr ⟨hfull, rfl⟩)
  · exact .inl rfl

end Cases

end AzazelEdge.Audit
