/-
# The enforcement evidence spool

`append_evidence` of the core: a line of JSON is appended to a file that is kept under a cap with one
rotation.  Every call numbers its record, also one that fails afterwards; a process numbers from one.

Where a call can stop is part of its label (`Answers`).  A write that stops short leaves the bytes
that it has written, and a process that dies at a call leaves what that call did so far.
-/
import AzazelEdge.Audit.RustChain

namespace AzazelEdge.Evidence

open AzazelEdge.Lib AzazelEdge.Lib.Py AzazelEdge.Audit

/-! ## 1. A record and its line -/

/-- `IndexMut` of a `Value`: what a member is set in.  It panics on a value that is neither an object
nor null. -/
def indexMut : Json → Option Map
  | .obj members => some members
  | .null => some []
  | _ => none

/-- What a call is numbered from: `process_start` and `EVIDENCE_SEQ`. -/
structure Process where
  since : ℕ
  seq : ℕ

/-- The event with its `evidence_spool` member. -/
def spoolRecord (event : Map) (seq since capBytes : ℕ) : Json :=
  .obj (mapInsert "evidence_spool"
    (.obj [("cap_bytes", .int capBytes), ("seq", .int seq), ("since", .int since)]) event)

/-- The bytes of a character in UTF-8. -/
def utf8Char (c : ℕ) : Text :=
  if c < 0x80 then [c]
  else if c < 0x800 then [0xC0 + c / 64, 0x80 + c % 64]
  else if c < 0x10000 then [0xE0 + c / 4096, 0x80 + c / 64 % 64, 0x80 + c % 64]
  else [0xF0 + c / 262144, 0x80 + c / 4096 % 64, 0x80 + c / 64 % 64, 0x80 + c % 64]

/-- `serde_json::to_vec`; `ryu` writes a float. -/
def toVec (ryu : ℚ → Text) (v : Json) : Text := (serdeText ryu v).flatMap utf8Char

/-! ## 2. The files -/

/-- The spool file and the one it was rotated to. -/
structure Spool where
  current : Option Text
  rotated : Option Text

/-- What `symlink_metadata` says of a spool file that is there. -/
inductive Stat where
  | unreadable
  | symlink
  | regular
  deriving DecidableEq

/-- How the rename and the sync of the directory come out. -/
inductive Rename where
  | failed
  | unsynced
  | done
  deriving DecidableEq

/-- How the write comes out: it stops after so many bytes, or only after them all, or the call
returns Ok. -/
inductive Written where
  | stopped (n : ℕ)
  | done
  deriving DecidableEq

/-- The answers of the file system to one call. -/
structure Answers where
  dirs : Bool
  stat : Stat
  rename : Rename
  opened : Bool
  written : Written
  deriving DecidableEq

/-- Nothing fails. -/
def allOk : Answers := ⟨true, .regular, .done, true, .done⟩

/-- The call renames the spool file. -/
def rotates (capBytes : ℕ) (a : Answers) (s : Spool) : Bool :=
  a.dirs && decide (a.stat = .regular) && decide (a.rename ≠ .failed) &&
    s.current.any fun bytes => decide (capBytes ≤ bytes.length)

/-- The part of a call before the record is numbered: the files, and whether the call goes on. -/
def prepare (capBytes : ℕ) (a : Answers) (s : Spool) : Spool × Bool :=
  if a.dirs = false then (s, false)
  else match s.current with
  | none => (s, true)
  | some bytes =>
    match a.stat with
    | .unreadable => (s, true)
    | .symlink => (s, false)
    | .regular =>
      if capBytes ≤ bytes.length then
        match a.rename with
        | .failed => (s, false)
        | .unsynced => (⟨none, some bytes⟩, false)
        | .done => (⟨none, some bytes⟩, true)
      else (s, true)

/-- So many bytes of the line are appended. -/
def Spool.append (s : Spool) (bytes : Text) : Spool :=
  { s with current := some (s.current.getD [] ++ bytes) }

/-- `append_evidence`: the files, the counter, and the number when it returns Ok. -/
def appendEvidence (ryu : ℚ → Text) (event : Json) (capBytes : ℕ) (a : Answers) (p : Process)
    (s : Spool) : Spool × Process × Option ℕ :=
  let (s, goesOn) := prepare capBytes a s
  if goesOn = false then (s, p, none)
  else
    let p := { p with seq := p.seq + 1 }
    match indexMut event with
    | none => (s, p, none)
    | some members =>
      let line := toVec ryu (spoolRecord members p.seq p.since capBytes) ++ [nl]
      if a.opened = false then (s, p, none)
      else match a.written with
      | .stopped n => (s.append (line.take n), p, none)
      | .done => (s.append line, p, some p.seq)

/-! ## 3. Runs -/

/-- What happens to a spool: a call, or a process that starts. -/
inductive Event where
  | append (event : Json) (capBytes : ℕ) (a : Answers)
  | restart (since : ℕ)

/-- A record of which bytes were written.  `run` tells the processes apart and `segment` the files;
`ended` is false where the newline is missing. -/
structure Entry where
  run : ℕ
  segment : ℕ
  seq : ℕ
  since : ℕ
  capBytes : ℕ
  event : Map
  ended : Bool

def Entry.record (e : Entry) : Json := spoolRecord e.event e.seq e.since e.capBytes

/-- A call that returned Ok. -/
structure Ack where
  segment : ℕ
  seq : ℕ
  since : ℕ
  capBytes : ℕ
  event : Json

/-- A spool, its process, how many processes and how many rotations there were before, every record
of which bytes were written, and every call that returned Ok. -/
structure Watch where
  spool : Spool
  process : Process
  run : ℕ
  rotations : ℕ
  entries : List Entry
  acks : List Ack

section Steps

variable (ryu : ℚ → Text)

/-- The segment that a call writes to. -/
def Watch.segmentOf (w : Watch) (capBytes : ℕ) (a : Answers) : ℕ :=
  if rotates capBytes a w.spool then w.rotations + 1 else w.rotations

/-- The record of which a call writes bytes. -/
def Watch.entry (w : Watch) (event : Json) (capBytes : ℕ) (a : Answers) : Option Entry :=
  if (prepare capBytes a w.spool).2 = false ∨ a.opened = false ∨ a.written = .stopped 0 then none
  else (indexMut event).map fun members =>
    { run := w.run
      segment := w.segmentOf capBytes a
      seq := w.process.seq + 1
      since := w.process.since
      capBytes := capBytes
      event := members
      ended := match a.written with
        | .stopped n => decide ((toVec ryu (spoolRecord members (w.process.seq + 1) w.process.since
            capBytes)).length < n)
        | .done => true }

def Watch.step (w : Watch) : Event → Watch
  | .append event capBytes a =>
    let (spool, process, answer) := appendEvidence ryu event capBytes a w.process w.spool
    { w with
      spool := spool
      process := process
      rotations := w.segmentOf capBytes a
      entries := w.entries ++ (w.entry ryu event capBytes a).toList
      acks := w.acks ++ (answer.map fun seq =>
        ⟨w.segmentOf capBytes a, seq, w.process.since, capBytes, event⟩).toList }
  | .restart since => { w with process := ⟨since, 0⟩, run := w.run + 1 }

/-- A process that finds these files. -/
def Watch.start (since : ℕ) (s : Spool) : Watch := ⟨s, ⟨since, 0⟩, 0, 0, [], []⟩

/-- A step of the watched spool. -/
def stepping (w : Watch) (e : Event) (w' : Watch) : Prop := w' = w.step ryu e

/-- A file that is empty or ends in a newline. -/
def Clean (file : Option Text) : Prop := lineTail nl (file.getD []) = []

instance (file : Option Text) : Decidable (Clean file) := by unfold Clean; infer_instance

/-- A call writes to a file that is empty or ends in a newline, if it writes anything. -/
def Untorn (w : Watch) : Event → Prop
  | .append event capBytes a => (w.entry ryu event capBytes a).isSome →
      Clean (prepare capBytes a w.spool).1.current
  | .restart _ => True

/-- A step that meets this condition. -/
def untorn (w : Watch) (e : Event) (w' : Watch) : Prop := Untorn ryu w e ∧ stepping ryu w e w'

end Steps

end AzazelEdge.Evidence
