/-
# The offline notification queue

`OfflineQueueNotifier` (`notify/delivery.py`): entries wait as lines of a file, `send` appends one
under a cap and `flush` hands a snapshot to the delegate and then removes what was delivered.

Any number of notifiers share the file, each with a cap of its own.  What runs under the queue's lock
is one step: `send`, the snapshot with which `flush` begins, and the removal with which it ends.
Between those two each call of the delegate is a step.  A flush whose process dies never ends.
-/
import AzazelEdge.Audit.Logger
import AzazelEdge.Lib.PySettled

namespace AzazelEdge.Notify

open AzazelEdge.Lib AzazelEdge.Lib.Py AzazelEdge.Audit

variable {F : Type} [PyFloat F]

/-! ## 1. The queue file -/

/-- The entries of a file's bytes, without the lines that are no JSON; none when they are not
UTF-8. -/
def parseEntries (bytes : Text) : Option (List (PyJson F)) :=
  (decodeUtf8 false bytes).map fun t => (splitLines t).filterMap loads

/-- `_read_entries`; none when it raises. -/
def readEntries (file : Option Text) : Option (List (PyJson F)) :=
  match file with
  | none => some []
  | some bytes => parseEntries bytes

/-- The bytes that `_write_entries` writes. -/
def entryLines (entries : List (PyJson F)) : Text := entries.flatMap fun entry => text entry ++ [10]

/-- What became of a replacement of the file: it failed and the file is as it was, it is done, or it
is done but `_write_entries` raises after it. -/
inductive Replacement where
  | failed
  | done
  | unsynced
  deriving DecidableEq

/-- The file after it was replaced, or unlinked, with this outcome. -/
def Replacement.replace (outcome : Replacement) (file new : Option Text) : Option Text :=
  match outcome with
  | .failed => file
  | _ => new

/-- `_summary_payload`, with the clocks and the boot it is stamped with. -/
structure Stamp where
  queuedAt : PyStr
  enqueuedMonotonicNs : ℕ
  bootId : PyStr

section Send

variable (reprOf : PyValue F → PyStr)

/-- `str(payload.get(key) or '')`. -/
def field (payload : List (PyStr × PyValue F)) (key : PyStr) : PyStr :=
  valueStrOr reprOf (getKey key payload)

/-- `_summary_payload`. -/
def summaryPayload (payload : List (PyStr × PyValue F)) (stamp : Stamp) : PyJson F :=
  let field := field reprOf payload
  let level := field (pyStr "level")
  .obj
    [(pyStr "action", .str (field (pyStr "action"))),
      (pyStr "reason", .str (field (pyStr "reason"))),
      (pyStr "target", .str (field (pyStr "target"))),
      (pyStr "level", .str (if level = [] then pyStr "info" else level)),
      (pyStr "incident_id", .str (field (pyStr "incident_id"))),
      (pyStr "operator_wording", .str (field (pyStr "operator_wording"))),
      (pyStr "decision_id", .str (field (pyStr "decision_id"))),
      (pyStr "alert_class", .str (field (pyStr "alert_class"))),
      (pyStr "queued_at", .str stamp.queuedAt),
      (pyStr "enqueued_monotonic_ns", .int stamp.enqueuedMonotonicNs),
      (pyStr "boot_id", .str stamp.bootId)]

end Send

/-- `entries[start:]` of a Python list. -/
def sliceFrom {α : Type} (start : ℤ) (entries : List α) : List α :=
  entries.drop (if start < 0 then entries.length + start else start).toNat

/-- The entries that `send` keeps. -/
def capped {α : Type} (maxQueueEntries : ℤ) (entries : List α) : List α :=
  if (entries.length : ℤ) > maxQueueEntries then sliceFrom (-maxQueueEntries) entries else entries

/-- The answer of `send`: the length of the queue, or not ok. -/
abbrev Sent := Option ℕ

/-- `send` of a summary. -/
def send (maxQueueEntries : ℤ) (summary : PyJson F) (outcome : Replacement) (file : Option Text) :
    Option Text × Sent :=
  match readEntries file with
  | none => (file, none)
  | some existing =>
    let existing := capped maxQueueEntries (existing ++ [summary])
    (outcome.replace file (some (entryLines existing)),
      if outcome = .done then some existing.length else none)

/-- `json.dumps(entry, sort_keys=True)`.  It is only compared, so the separators do not matter. -/
def key (entry : PyJson F) : Text := text (sortKeys entry)

/-- `remaining` without the first entry of this key. -/
def removeFirst (remaining : List (PyJson F)) (delivered : Text) : List (PyJson F) :=
  remaining.eraseP fun entry => key entry = delivered

/-- A flush between its two locked sections. -/
structure Flush (F : Type) where
  entries : List (PyJson F)
  delivered : List Text
  failed : ℕ

/-- The first locked section of `flush`; none when it returns or raises there. -/
def beginFlush (file : Option Text) : Option (Flush F) :=
  match file with
  | none => none
  | some bytes => (parseEntries bytes).map fun entries => ⟨entries, [], 0⟩

/-- The delegate's answer for the next entry: `result.get('ok')`, false when it raises. -/
def Flush.deliver (flush : Flush F) (ok : Bool) : Flush F :=
  match flush.entries with
  | [] => flush
  | entry :: entries =>
    if ok then { flush with entries := entries, delivered := flush.delivered ++ [key entry] }
    else { flush with entries := entries, failed := flush.failed + 1 }

/-- What `flush` returns. -/
structure Flushed where
  flushed : ℕ
  failed : ℕ
  remaining : ℕ
  deriving DecidableEq

/-- The second locked section of `flush`; it returns nothing when it raises. -/
def endFlush (flush : Flush F) (outcome : Replacement) (file : Option Text) :
    Option Text × Option Flushed :=
  match (readEntries file : Option (List (PyJson F))) with
  | none => (file, none)
  | some existing =>
    let remaining := flush.delivered.foldl removeFirst existing
    (outcome.replace file (if remaining = [] then none else some (entryLines remaining)),
      if outcome = .done then
        some ⟨flush.delivered.length, flush.failed, remaining.length⟩
      else none)

/-! ## 2. The queue and its notifiers -/

/-- The queue file, and the flushes that are under way. -/
structure Queue (F : Type) where
  file : Option Text
  flushes : List (Flush F)

/-- What the notifiers do.  A flush under way goes by its place. -/
inductive Event (F : Type) where
  | send (maxQueueEntries : ℤ) (payload : List (PyStr × PyValue F)) (stamp : Stamp)
      (outcome : Replacement)
  | beginFlush
  | deliver (i : ℕ) (ok : Bool)
  | endFlush (i : ℕ) (outcome : Replacement)

/-- One step. -/
def step (reprOf : PyValue F → PyStr) (q : Queue F) : Event F → Queue F
  | .send maxQueueEntries payload stamp outcome =>
    { q with file := (send maxQueueEntries (summaryPayload reprOf payload stamp) outcome q.file).1 }
  | .beginFlush => { q with flushes := q.flushes ++ (beginFlush q.file).toList }
  | .deliver i ok => { q with flushes := q.flushes.modify i fun flush => flush.deliver ok }
  | .endFlush i outcome =>
    match q.flushes[i]? with
    | none => q
    | some flush =>
      if flush.entries = [] then
        ⟨(endFlush flush outcome q.file).1, q.flushes.eraseIdx i⟩
      else q

end AzazelEdge.Notify
