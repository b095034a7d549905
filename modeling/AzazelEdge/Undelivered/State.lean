/-
# The spool's state file

The writer's thread of `undelivered.rs`: it takes lines from its queue, folds in what was lost at the
hand-off, syncs, and at every state tick writes the state to its file, unless the state is what it
last wrote.  A write may fail before or after its rename.

A tick that writes nothing is right when the file has what the writer has, but for the time of the
write.  That holds from the first write on (`InStep.turn`).  Before it, the thread compares with the
state after `Writer::new`, while the file has the state before: a tail that was cut at the start is
counted in the one and not in the other, until something else is written (`skips_agree_iff`).
-/
import AzazelEdge.Undelivered.Writer
import Mathlib.Data.List.Basic

namespace AzazelEdge.Undelivered

/-! ## 1. The state file -/

section Load

variable {T : Type} [Min T]

/-- `STATE_SCHEMA_V2`. -/
def stateSchemaV2 : String := "azazel-edge/undelivered-spool/v2"

/-- A state of this version, or of the one before it, carried over. -/
def carryOver (s : SpoolState T) : Option (SpoolState T) :=
  if s.schema = stateSchema then some s
  else if s.schema = stateSchemaV2 then
    some { s with
      schema := stateSchema
      migratedFrom := "v2"
      v2LostTotalAtMigration := some s.lostTotal }
  else none

/-- `load_state`, of what the file parses to. -/
def loadState (parsed : Option (SpoolState T)) (now : T) : SpoolState T :=
  match parsed.bind carryOver with
  | some s =>
    let s := if s.cleanShutdown then s else
      { s with
        uncleanStops := s.uncleanStops + 1
        uncleanUnconfirmedTotal := s.uncleanUnconfirmedTotal + s.pendingAtLastWrite
        lastUncleanGap := some (match s.pendingSinceAtLastWrite with
          | some since => min since s.lastWriteEpoch
          | none => s.lastWriteEpoch, now) }
    { s with pendingAtLastWrite := 0, pendingSinceAtLastWrite := none }
  | none => .new now

/-- The state that `start` writes before there is a writer. -/
def startState (parsed : Option (SpoolState T)) (loadedAt writtenAt : T) : SpoolState T :=
  let s := loadState parsed loadedAt
  { s with runs := s.runs + 1, cleanShutdown := false, lastWriteEpoch := writtenAt }

end Load

/-! ## 2. The thread -/

variable {T : Type}

/-- What comes of a `write_state`: it fails before or after the rename, or it does not fail. -/
inductive StateWrite where
  | written
  | failed (renamed : Bool)

/-- The state file after a write. -/
def StateWrite.file (outcome : StateWrite) (disk new : SpoolState T) : SpoolState T :=
  match outcome with
  | .written | .failed true => new
  | .failed false => disk

/-- The writer, its segments, the state it last wrote, and the one that is in the file. -/
structure Thread (T : Type) where
  writer : Writer T
  segments : Segments
  lastWritten : SpoolState T
  disk : SpoolState T
  ended : Bool

/-- What a turn of the loop receives: a line, the stop, or nothing in time. -/
inductive Message (T : Type) where
  | line (line : Bytes) (answers : Answers T)
  /-- The stop, with what is lost and unconfirmed by then, and how its sync and its write go. -/
  | stop (lost unconfirmed : ℕ) (now : T) (synced : Bool) (write : StateWrite)
  | timeout
  | disconnected

/-- A state tick: what is on its way, the clock, and how the write goes if there is one. -/
structure Tick (T : Type) where
  pending : ℕ
  since : Option T
  now : T
  write : StateWrite

/-- One turn of the loop. -/
structure Turn (T : Type) where
  /-- `take_lost_handoff`, and the clock. -/
  lost : ℕ
  lostAt : T
  message : Message T
  /-- Whether a sync is due, and then whether `sync_data` succeeds. -/
  sync : Option Bool
  /-- Whether a state tick is due. -/
  tick : Option (Tick T)

/-- `Writer::sync`. -/
def Writer.sync (w : Writer T) (synced : Bool) : Writer T :=
  if w.isOpen && !synced then
    { w with state := { w.state with syncFailures := w.state.syncFailures + 1 }, failed := true }
  else w

namespace Thread

/-- The thread of `start`, whose state is in the file. -/
def start (cap : ℕ) (state : SpoolState T) (segments : Segments) (opened : Bool)
    (answer : RepairAnswer) : Thread T :=
  let (writer, segments) := Writer.new cap state segments opened answer
  { writer, segments, lastWritten := writer.state, disk := state, ended := false }

/-- What was lost at the hand-off is folded in. -/
def fold (t : Thread T) (lost : ℕ) (now : T) : Thread T :=
  if lost = 0 then t
  else
    { t with
      writer := ({ t.writer with
        state := { t.writer.state with lostTotal := t.writer.state.lostTotal + lost } }).noteTime
          now }

/-- A line is written. -/
def line (t : Thread T) (line : Bytes) (a : Answers T) : Thread T :=
  { t with
    writer := (t.writer.writeLine t.segments line a).1
    segments := (t.writer.writeLine t.segments line a).2 }

def sync (t : Thread T) (synced : Option Bool) : Thread T :=
  match synced with
  | some synced => { t with writer := t.writer.sync synced }
  | none => t

/-- The stop. -/
def stop (t : Thread T) (lost unconfirmed : ℕ) (now : T) (synced : Bool) (write : StateWrite) :
    Thread T :=
  let w : Writer T := { t.writer with
    state := { t.writer.state with
      lostTotal := t.writer.state.lostTotal + lost
      unconfirmedAtStopTotal := t.writer.state.unconfirmedAtStopTotal + unconfirmed } }
  let w := (if 0 < unconfirmed then w.noteTime now else w).sync synced
  let w : Writer T := { w with
    state := { w.state with
      pendingAtLastWrite := 0
      pendingSinceAtLastWrite := none
      lastWriteEpoch := now
      cleanShutdown := !w.failed } }
  { t with writer := w, disk := write.file t.disk w.state, ended := true }

/-- A state tick, up to the comparison. -/
def note (t : Thread T) (tick : Tick T) : Thread T :=
  { t with
    writer := { t.writer with
      state := { t.writer.state with
        pendingAtLastWrite := tick.pending
        pendingSinceAtLastWrite := tick.since } } }

end Thread

section Tick

variable [DecidableEq T]

/-- `state_changed`. -/
def stateChanged (a b : SpoolState T) : Bool := a ≠ { b with lastWriteEpoch := a.lastWriteEpoch }

namespace Thread

/-- The write of a state that has changed. -/
def write (t : Thread T) (tick : Tick T) : Thread T :=
  let state := { t.writer.state with lastWriteEpoch := tick.now }
  let t := { t with
    writer := { t.writer with state }
    disk := tick.write.file t.disk state }
  match tick.write with
  | .written => { t with lastWritten := state }
  | .failed _ =>
    { t with
      writer := { t.writer with
        state := { state with syncFailures := state.syncFailures + 1 }
        failed := true } }

/-- A state tick. -/
def tick (t : Thread T) (tick : Tick T) : Thread T :=
  let t := t.note tick
  if stateChanged t.lastWritten t.writer.state then t.write tick else t

/-- The turn goes on to its sync and its tick. -/
def serve (t : Thread T) (u : Turn T) : Thread T :=
  let t := t.sync u.sync
  match u.tick with
  | some tick => t.tick tick
  | none => t

/-- One turn. -/
def turn (t : Thread T) (u : Turn T) : Thread T :=
  if t.ended then t
  else
    let t := t.fold u.lost u.lostAt
    match u.message with
    | .line bytes a => (t.line bytes a).serve u
    | .timeout => t.serve u
    | .stop lost unconfirmed now synced write => t.stop lost unconfirmed now synced write
    | .disconnected => { t with ended := true }

/-- The thread after these turns. -/
def run (t : Thread T) (us : List (Turn T)) : Thread T := us.foldl turn t

end Thread

end Tick

end AzazelEdge.Undelivered
