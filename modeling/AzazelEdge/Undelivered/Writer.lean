/-
# The spool of undelivered decisions

`undelivered.rs`: the state that the spool keeps, and the `Writer` of its segments.  A line that could
not be delivered is appended to the current segment; at the cap that segment takes the place of the
previous one.

Opening, renaming, writing and repairing a segment may each fail, as the answers that go with a line
say; `metadata` answers.  Sizes are added exactly, and the counters are natural numbers, where the
source's are `u64`.  An instant is a value of `T`.
-/
import Mathlib.Data.List.DropRight

namespace AzazelEdge.Undelivered

/-! ## 1. The state -/

/-- `SpoolState`. -/
structure SpoolState (T : Type) where
  schema : String
  firstRunEpoch : T
  runs : ℕ
  uncleanStops : ℕ
  cleanShutdown : Bool
  spooledTotal : ℕ
  lostTotal : ℕ
  rotatedOutTotal : ℕ
  segmentRecords : ℕ
  previousSegmentRecords : ℕ
  syncFailures : ℕ
  pendingAtLastWrite : ℕ
  lastWriteEpoch : T
  pendingSinceAtLastWrite : Option T
  unconfirmedAtStopTotal : ℕ
  uncleanUnconfirmedTotal : ℕ
  lastUncleanGap : Option (T × T)
  oversizeTotal : ℕ
  repairedTails : ℕ
  migratedFrom : String
  v2LostTotalAtMigration : Option ℕ
  firstUndeliveredEpoch : Option T
  lastUndeliveredEpoch : Option T
  deriving DecidableEq

/-- `STATE_SCHEMA`. -/
def stateSchema : String := "azazel-edge/undelivered-spool/v3"

/-- `SpoolState::new`. -/
def SpoolState.new {T : Type} (now : T) : SpoolState T where
  schema := stateSchema
  firstRunEpoch := now
  runs := 0
  uncleanStops := 0
  cleanShutdown := true
  spooledTotal := 0
  lostTotal := 0
  rotatedOutTotal := 0
  segmentRecords := 0
  previousSegmentRecords := 0
  syncFailures := 0
  pendingAtLastWrite := 0
  lastWriteEpoch := now
  pendingSinceAtLastWrite := none
  unconfirmedAtStopTotal := 0
  uncleanUnconfirmedTotal := 0
  lastUncleanGap := none
  oversizeTotal := 0
  repairedTails := 0
  migratedFrom := ""
  v2LostTotalAtMigration := none
  firstUndeliveredEpoch := none
  lastUndeliveredEpoch := none

/-- The bytes of a line or of a segment. -/
abbrev Bytes := List UInt8

def newline : UInt8 := 10

/-- The two segments, where they exist. -/
structure Segments where
  current : Option Bytes
  previous : Option Bytes

def size (segment : Option Bytes) : ℕ := (segment.getD []).length

/-! ## 2. The tail -/

/-- How a repair of the tail goes: it fails without or with its cut made, or it does not fail. -/
inductive RepairAnswer where
  | fine
  | failed (cut : Bool)

/-- The bytes up to the last newline, and with it. -/
def keep (bytes : Bytes) : Bytes := bytes.rdropWhile (· != newline)

/-- `repair_tail`: the segment after it, and whether it was cut; none when it fails. -/
def repairTail (answer : RepairAnswer) (segment : Option Bytes) : Option Bytes × Option Bool :=
  match answer with
  | .failed false => (segment, none)
  | .failed true => (segment.map keep, none)
  | .fine => (segment.map keep, some (segment.map keep ≠ segment))

/-- `open_segment` creates the segment if there is none. -/
def openSegment (segment : Option Bytes) : Option Bytes := some (segment.getD [])

/-! ## 3. The writer -/

/-- `Writer`; `isOpen` says whether it has the current segment open. -/
structure Writer (T : Type) where
  cap : ℕ
  isOpen : Bool
  state : SpoolState T
  failed : Bool
  tailOk : Bool

/-- What the file system does for one line, and the clock. -/
structure Answers (T : Type) where
  now : T
  /-- The repair before the line, when it comes to one. -/
  before : RepairAnswer
  renamed : Bool
  opened : Bool
  /-- `write_all`: some when it fails after so many bytes. -/
  written : Option ℕ
  /-- The repair after a write that failed. -/
  after : RepairAnswer

variable {T : Type}

namespace Writer

/-- `check_tail`. -/
def checkTail (w : Writer T) (segments : Segments) (answer : RepairAnswer) : Writer T × Segments :=
  match repairTail answer segments.current with
  | (current, some cut) =>
    ({ w with
        state := { w.state with repairedTails := w.state.repairedTails + (if cut then 1 else 0) }
        tailOk := true },
      { segments with current })
  | (current, none) =>
    ({ w with tailOk := false, failed := true, isOpen := false }, { segments with current })

/-- `Writer::new`. -/
def new (cap : ℕ) (state : SpoolState T) (segments : Segments) (opened : Bool)
    (answer : RepairAnswer) : Writer T × Segments :=
  let w : Writer T := { cap, isOpen := opened, state, failed := !opened, tailOk := false }
  w.checkTail
    (if opened then { segments with current := openSegment segments.current } else segments) answer

/-- The segment is opened, or the run has failed. -/
def reopen (w : Writer T) (segments : Segments) (opened : Bool) : Writer T × Segments :=
  if opened then
    ({ w with isOpen := true }, { segments with current := openSegment segments.current })
  else ({ w with failed := true }, segments)

/-- The current segment takes the place of the previous one. -/
def rotate (w : Writer T) (segments : Segments) : Writer T × Segments :=
  ({ w with
      isOpen := false
      state := { w.state with
        rotatedOutTotal := w.state.rotatedOutTotal + w.state.previousSegmentRecords
        previousSegmentRecords := w.state.segmentRecords
        segmentRecords := 0 } },
    { current := none, previous := segments.current })

/-- `ensure_room`. -/
def ensureRoom (w : Writer T) (segments : Segments) (incoming : ℕ) (a : Answers T) :
    Writer T × Segments :=
  if size segments.current + incoming ≤ w.cap then
    if w.isOpen then (w, segments) else w.reopen segments a.opened
  else if a.renamed && segments.current.isSome then
    let (w, segments) := w.rotate segments
    w.reopen segments a.opened
  else ({ w with isOpen := false, failed := true }, segments)

/-- `note_time`. -/
def noteTime (w : Writer T) (now : T) : Writer T :=
  { w with
    state := { w.state with
      firstUndeliveredEpoch := some (w.state.firstUndeliveredEpoch.getD now)
      lastUndeliveredEpoch := some now } }

/-- A line is lost. -/
def lose (w : Writer T) : Writer T :=
  { w with state := { w.state with lostTotal := w.state.lostTotal + 1 } }

/-- The write of a line, the segment being open or not. -/
def append (w : Writer T) (segments : Segments) (line : Bytes) (a : Answers T) :
    Writer T × Segments :=
  let lost (segments : Segments) : Writer T × Segments :=
    checkTail { w.lose with failed := true, isOpen := false } segments a.after
  let extended (bytes : Bytes) : Segments :=
    { segments with current := some (segments.current.getD [] ++ bytes) }
  if w.isOpen then
    match a.written with
    | none =>
      ({ w with
          state := { w.state with
            spooledTotal := w.state.spooledTotal + 1
            segmentRecords := w.state.segmentRecords + 1 } }, extended line)
    | some n => lost (extended (line.take (min n (line.length - 1))))
  else lost segments

/-- `write_line`. -/
def writeLine (w : Writer T) (segments : Segments) (line : Bytes) (a : Answers T) :
    Writer T × Segments :=
  let w := w.noteTime a.now
  if w.cap < line.length then
    ({ w.lose with
        state := { w.lose.state with oversizeTotal := w.state.oversizeTotal + 1 } }, segments)
  else
    let (w, segments) := if w.tailOk then (w, segments) else w.checkTail segments a.before
    if w.tailOk then
      let (w, segments) := w.ensureRoom segments line.length a
      w.append segments line a
    else (w.lose, segments)

end Writer

end AzazelEdge.Undelivered
