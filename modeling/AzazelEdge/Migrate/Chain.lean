/-
# The move of the audit chain

`notify/migrate_audit_path.py`: the chain, its rotated file, its sidecar and the queue of alerts go
from one directory to another, by a link and an unlink each, and then the relay's cursor is carried
over in the queue.

The agent is stopped, so nothing else changes the directories, and a run is the changes it makes, one
after the other.  The two directories are on one file system.  A file is known by its name and a
number, so its two names during a move are told from two files.
-/
import AzazelEdge.Alert.Queue
import AzazelEdge.Decision.Payload

namespace AzazelEdge.Migrate

open AzazelEdge.Lib AzazelEdge.Lib.Py AzazelEdge.Audit AzazelEdge.Alert

/-! ## 1. The two directories -/

/-- `CHAIN_FILES`. -/
inductive ChainFile where
  | chain
  | rotated
  | fabric
  | queue
deriving DecidableEq, Repr

def chainFiles : List ChainFile := [.chain, .rotated, .fabric, .queue]

inductive Side where
  | old
  | new
deriving DecidableEq

/-- The two directories. -/
structure Disk where
  names : Side → ChainFile → Option ℕ
  /-- The bytes of a regular file; nothing for any other. -/
  nodes : ChainFile → ℕ → Option Text
  /-- The lock of the queue in the old directory. -/
  lock : Bool
  /-- The rotated files of the new directory from `.2` on. -/
  segments : ℕ → Option Text

variable (d : Disk)

/-- `_present`. -/
def Disk.present (side : Side) (name : ChainFile) : Bool := (d.names side name).isSome

/-- The bytes of a name that is a regular file. -/
def Disk.content (side : Side) (name : ChainFile) : Option Text :=
  (d.names side name).bind (d.nodes name)

/-- `_regular`. -/
def Disk.regular (side : Side) (name : ChainFile) : Bool := (d.content side name).isSome

/-- `os.path.samefile` of the two names. -/
def Disk.sameFile (name : ChainFile) : Bool := d.names .old name = d.names .new name

def Disk.setName (side : Side) (name : ChainFile) (file : Option ℕ) : Disk :=
  { d with names := Function.update d.names side (Function.update (d.names side) name file) }

/-! ## 2. `migrate_chain` -/

/-- A change of the directories. -/
inductive Move where
  | unlink (name : ChainFile)
  | link (name : ChainFile)
  | unlinkLock

/-- The change; a link never replaces a name. -/
def Disk.exec : Move → Disk
  | .unlink name => d.setName .old name none
  | .link name => if d.present .new name then d else d.setName .new name (d.names .old name)
  | .unlinkLock => { d with lock := false }

def Disk.execAll (moves : List Move) : Disk := moves.foldl Disk.exec d

/-- `OLD_DEFAULT_AUDIT_LOG` and `NEW_DEFAULT_AUDIT_LOG`. -/
def defaultAuditLogs : List PyStr :=
  [pyStr "/var/log/azazel-edge/ai-audit.jsonl", pyStr "/var/log/azazel-edge/ai/ai-audit.jsonl"]

/-- `str.strip` of quotes. -/
def stripQuotes (s : PyStr) : PyStr :=
  let isQuote : CodePoint → Bool := fun c => c.val = 34 ∨ c.val = 39
  ((s.dropWhile isQuote).reverse.dropWhile isQuote).reverse

/-- The agent keeps its chain beside another file. -/
def customAuditLog (setting : PyStr) : Bool :=
  let setting := stripQuotes (Decision.strip setting)
  setting ≠ [] ∧ setting ∉ defaultAuditLogs

/-- Files under both names, left by a crash between link and unlink. -/
def finishMoves : List ChainFile → Disk → List Move
  | [], _ => []
  | name :: names, d =>
    if d.regular .old name && d.regular .new name && d.sameFile name then
      .unlink name :: finishMoves names (d.exec (.unlink name))
    else finishMoves names d

/-- `out["state"]`. -/
inductive State where
  | customAuditLog
  | clash
  | notRegular
  | moved
  | resumed
  | alreadyMoved
  | nothingToMove
deriving DecidableEq, Repr

/-- What a run does before the cursor is carried, and whether it goes on to that. -/
structure Course where
  moves : List Move
  state : State
  carries : Bool

/-- `migrate_chain`, up to the carrying. -/
def migrateChain (setting : PyStr) (d : Disk) : Course :=
  if customAuditLog setting then ⟨[], .customAuditLog, false⟩
  else
    let finishing := finishMoves chainFiles d
    let d := d.execAll finishing
    let inOld := chainFiles.filter (d.present .old)
    let inNew := chainFiles.filter (d.present .new)
    let clash := inOld.filter (· ∈ inNew)
    let bad := inOld.filter (fun name => !d.regular .old name) ++
      inNew.filter fun name => !d.regular .new name
    if clash ≠ [] then ⟨finishing, .clash, false⟩
    else if bad ≠ [] then ⟨finishing, .notRegular, false⟩
    else
      { moves := finishing ++ inOld.flatMap (fun name => [.link name, .unlink name]) ++ [.unlinkLock]
        state :=
          if inOld ≠ [] then (if inNew ≠ [] then .resumed else .moved)
          else if inNew ≠ [] then .alreadyMoved else .nothingToMove
        carries := true }

/-! ## 3. `carry_cursor` -/

abbrev kEvent : PyStr := pyStr "event"
abbrev kCursor : PyStr := pyStr "audit_cursor_chain_hash"
abbrev kAuditChainId : PyStr := pyStr "audit_chain_id"
abbrev kAuditPath : PyStr := pyStr "audit_path"
abbrev kMigratedFrom : PyStr := pyStr "migrated_from_audit_path"

/-- `EVENT`. -/
def event : PyStr := pyStr "audit_path_migrated"

/-- A cursor and the chain it is of. -/
structure Scoped where
  cursor : PyStr
  chainId : PyStr
deriving DecidableEq

section Carry

variable {F : Type} [PyFloat F] [PyRepr F] (wide : Text → Option Text)

/-- The cursor that a row has for this path. -/
def scopedAt (pathId : PyStr) (row : Row F) : Option Scoped :=
  match getKey kCursor row, getKey kAuditChainId row, getKey kAuditPath row with
  | some (.str (c :: cursor)), some (.str (i :: chainId)), some (.str path) =>
    if path = pathId then some ⟨c :: cursor, i :: chainId⟩ else none
  | _, _, _ => none

/-- `_last_scoped_cursor`. -/
def lastScopedCursor (pathId : PyStr) (entries : List (Row F)) : Option Scoped :=
  entries.foldl (fun found row => (scopedAt pathId row).or found) none

/-- `read_entries`. -/
def readEntries (bytes : Text) : List (Row F) :=
  ((completeLines nl bytes).filter (· ≠ [])).filterMap (loadsDict wide)

variable (F) in
/-- The chain hashes of the lines. -/
def chainHashes (lines : List Text) : List PyStr :=
  lines.filterMap fun line =>
    match (loadsDict wide line : Option (Row F)) with
    | some row =>
      match getKey kChainHash row with
      | some (.str hash) => some hash
      | _ => none
    | none => none

/-- The chain in the new directory. -/
def Disk.chainDir : Dir where
  name := "core-decision-audit.jsonl"
  active := d.content .new .chain
  segment n := if n = 1 then d.content .new .rotated else d.segments n

/-- What `carry_cursor` returns. -/
inductive Carry where
  | samePath
  | newPathAlreadyHasACursor
  | noCursorForOldPath
  | chainIdDiffers
  | cursorNotInMovedChain
  | carried (cursor : Scoped)
deriving DecidableEq

variable (F) in
/-- `carry_cursor`, up to the row it appends. -/
def carryCursor (queue : Text) (dir : Dir) (oldId newId : PyStr) : Carry :=
  if oldId = newId then .samePath
  else
    let entries : List (Row F) := readEntries wide queue
    if (lastScopedCursor newId entries).isSome then .newPathAlreadyHasACursor
    else
      match lastScopedCursor oldId entries with
      | none => .noCursorForOldPath
      | some old =>
        let snapshot := readChain F wide dir none
        if snapshot.chainId ≠ old.chainId then .chainIdDiffers
        else if old.cursor ∉ chainHashes F wide snapshot.lines then .cursorNotInMovedChain
        else .carried old

/-- The status that is appended. -/
def carriedStatus (oldId newId : PyStr) (old : Scoped) : Dict F where
  items := [(kEvent, .str event), (kCursor, .str old.cursor), (kAuditChainId, .str old.chainId),
    (kAuditPath, .str newId), (kMigratedFrom, .str oldId)]
  nodup := by
    show [kEvent, kCursor, kAuditChainId, kAuditPath, kMigratedFrom].Nodup
    simp

/-- `P0AlertQueue(queue_path)`. -/
def defaultQueue : Queue := ⟨1000, by decide⟩

/-! ## 4. Runs -/

/-- The setting and the two paths of the chain, which are the same in every run. -/
structure Job where
  setting : PyStr
  oldId : PyStr
  newId : PyStr
  /-- The operating system names no file with a pair of surrogates. -/
  joined : joinPairs newId = newId

/-- How a run ends: it dies after so many changes, or in the append of the queue, or it completes. -/
inductive Ending where
  | crashedMoving (moves : ℕ)
  | crashedAppending (a : Alert.Answers) (bytes : ℕ) (replaced : Bool)
  | completed (a : Alert.Answers)

variable (F) in
/-- The queue's file and the status that a run is going to append to it. -/
def pending (job : Job) (course : Course) (d : Disk) : Option (File × Dict F) :=
  match d.names .new .queue, d.content .new .queue, d.content .new .chain with
  | some ino, some queue, some _ =>
    if course.carries then
      match carryCursor F wide queue d.chainDir job.oldId job.newId with
      | .carried old => some (⟨ino, queue⟩, carriedStatus job.oldId job.newId old)
      | _ => none
    else none
  | _, _, _ => none

/-- The queue's file is as the append left it. -/
def Disk.writeQueue (file : File) : Disk :=
  { d.setName .new .queue (some file.ino) with
    nodes := Function.update d.nodes .queue
      (Function.update (d.nodes .queue) file.ino (some file.bytes)) }

variable (F) in
/-- `migrate_chain`, as far as it gets. -/
def run (job : Job) (d : Disk) (ending : Ending) : Disk :=
  let course := migrateChain job.setting d
  let moved := d.execAll course.moves
  let append : Alert.Answers → (Alert.Plan F → File) → Disk := fun a left =>
    match pending F wide job course moved with
    | some (file, status) =>
      moved.writeQueue (left (plan wide defaultQueue none file (.appendStatus status) a))
    | none => moved
  match ending with
  | .crashedMoving moves => d.execAll (course.moves.take moves)
  | .crashedAppending a bytes replaced => append a fun p => p.cut a bytes replaced
  | .completed a => append a fun p => p.after a

variable (F) in
/-- Runs one after the other. -/
def runs (job : Job) (d : Disk) (endings : List Ending) : Disk :=
  endings.foldl (run F wide job) d

end Carry

end AzazelEdge.Migrate
