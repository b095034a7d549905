/-
# The queue of P0 alerts

`P0AlertQueue` (`notify/p0_alert.py`): what a write finds in the file, the entries it builds, the
compaction, and the file it leaves.

An instance remembers the inode number and the size of the file as it last left it, and does not read
a file that has both.  What the file system answers is an argument, the inode number of a new file
among it, and so is how far a write gets (`Outcome`).
-/
import AzazelEdge.Audit.Verified
import AzazelEdge.Lib.Groups

namespace AzazelEdge.Alert

open AzazelEdge.Lib AzazelEdge.Lib.Py AzazelEdge.Audit

variable {F : Type} [PyFloat F]

/-! ## 1. Entries -/

abbrev kSchema : PyStr := pyStr "schema"
abbrev kRecordType : PyStr := pyStr "record_type"
abbrev kSeq : PyStr := pyStr "seq"
abbrev kStamp : PyStr := pyStr "enqueued_monotonic_ns"
abbrev kBootId : PyStr := pyStr "boot_id"
abbrev kQueuedAt : PyStr := pyStr "queued_at"
abbrev kPolicy : PyStr := pyStr "overflow_policy"
abbrev kEvicted : PyStr := pyStr "overflow_evicted"
abbrev kTotal : PyStr := pyStr "overflow_evicted_total"
abbrev kRepaired : PyStr := pyStr "torn_tail_repaired_bytes"
abbrev kDecisionId : PyStr := pyStr "decision_id"
abbrev kDecisionHash : PyStr := pyStr "decision_chain_hash"

/-- `QUEUE_SCHEMA`. -/
def queueSchema : PyStr := pyStr "azazel-edge/p0-alert-queue/v1"

/-- `OVERFLOW_POLICY`. -/
def overflowPolicy : PyStr := pyStr "evict_oldest_whole_decisions_compact_at_2x"

def recordAlert : PyStr := pyStr "alert"
def recordOverflowAlarm : PyStr := pyStr "overflow_alarm"
def recordRelayStatus : PyStr := pyStr "relay_status"

/-- A dict whose keys are strings. -/
structure Dict (F : Type) where
  items : Record F
  nodup : (items.map Prod.fst).Nodup

/-- What a caller asks for. -/
inductive Request (F : Type) where
  | enqueue (alerts : List (Dict F)) (extra : Dict F)
  | appendStatus (status : Dict F)

/-- `incoming_alerts`. -/
def Request.incoming : Request F → ℕ
  | .enqueue alerts _ => alerts.length
  | .appendStatus _ => 0

/-- What a write is told: the inode number of a file it creates and of one it puts in its place, the
clocks, the boot, and whether the file can be looked at afterwards. -/
structure Answers where
  createIno : ℕ
  rewriteIno : ℕ
  stamp : ℤ
  bootId : PyStr
  queuedAt : PyStr
  statOk : Bool

section Build

variable (a : Answers)

/-- The queue's own fields of an alert. -/
def alertFields (seq : ℤ) (evicted : ℕ) (evictedTotal : ℤ) : Record F :=
  [(kSchema, .str queueSchema), (kRecordType, .str recordAlert), (kSeq, .int seq),
    (kStamp, .int a.stamp), (kBootId, .str a.bootId), (kQueuedAt, .str a.queuedAt),
    (kPolicy, .str overflowPolicy), (kEvicted, .int evicted), (kTotal, .int evictedTotal)]

/-- Those of a status. -/
def statusFields (seq : ℤ) (evictedTotal : ℤ) : Record F :=
  [(kSchema, .str queueSchema), (kRecordType, .str recordRelayStatus), (kSeq, .int seq),
    (kStamp, .int a.stamp), (kBootId, .str a.bootId), (kQueuedAt, .str a.queuedAt),
    (kTotal, .int evictedTotal)]

def alertEntries (extra : Dict F) (evicted : ℕ) (evictedTotal : ℤ) :
    ℤ → List (Dict F) → List (Record F)
  | _, [] => []
  | seq, alert :: alerts =>
    update (update alert.items extra.items) (alertFields a seq evicted evictedTotal) ::
      alertEntries extra evicted evictedTotal (seq + 1) alerts

/-- `build`. -/
def build (r : Request F) (firstSeq : ℤ) (evicted : ℕ) (evictedTotal : ℤ) : List (Record F) :=
  match r with
  | .enqueue alerts extra => alertEntries a extra evicted evictedTotal firstSeq alerts
  | .appendStatus status => [update status.items (statusFields a firstSeq evictedTotal)]

end Build

/-! ## 2. Reading the file -/

section Read

variable [PyRepr F] (wide : Text → Option Text)

/-- The value of a key, when `_int` takes it. -/
def intAt (key : PyStr) (row : Row F) : Option ℤ :=
  match getKey key row with
  | some (.int n) => some n
  | _ => none

/-- `_parse`. -/
def parse (lines : List Text) : List (Row F) := lines.filterMap (loadsDict wide)

/-- The `seq` and the eviction total of the last row that has a `seq`; the rows come last first. -/
def lastNumbers : List (Row F) → ℤ × ℤ
  | [] => (0, 0)
  | row :: rows =>
    match intAt kSeq row with
    | some seq => (seq, (intAt kTotal row).getD 0)
    | none => lastNumbers rows

/-- What `_scan` returns, and the file's bytes after it. -/
structure Scan where
  data : Text
  lines : List Text
  seq : ℤ
  evictedTotal : ℤ
  repaired : ℕ

variable (F) in
/-- `_scan`. -/
def scan (bytes : Text) : Scan :=
  let data := if bytes ≠ [] ∧ bytes.getLast? ≠ some nl then upToNewline bytes else bytes
  let lines := (completeLines nl data).map (· ++ [nl])
  let numbers := lastNumbers (parse (F := F) wide lines).reverse
  { data, lines, seq := numbers.1, evictedTotal := numbers.2
    repaired := bytes.length - data.length }

/-- `line_count`. -/
def Scan.lineCount (s : Scan) : ℕ := s.lines.length

/-! ## 3. Compaction -/

def isAlert (row : Row F) : Bool :=
  match getKey kRecordType row with
  | some (.str s) => s = recordAlert
  | _ => false

/-- The key of a decision. -/
def decisionKey (row : Row F) : PyStr :=
  strOr (getKey kDecisionId row) ++ 0 :: strOr (getKey kDecisionHash row)

/-- `_encode` of a row. -/
def encodeRow (row : Row F) : Text := text (.obj row) ++ [nl]

/-- `_encode` of an entry. -/
def encode (entry : Record F) : Text := lineOf entry ++ [nl]

variable (F) in
/-- `json.loads(b).get('seq') or 0`. -/
def lineSeq (line : Text) : ℤ :=
  match (loadsDict wide line : Option (Row F)) with
  | some row => (intAt kSeq row).getD 0
  | none => 0

structure Compaction (F : Type) where
  kept : List Text
  alarm : Record F
  evicted : ℕ

/-- `_compact`. -/
def compact (maxEntries : ℕ) (lines : List Text) (incoming : ℕ) (seq evictedTotal : ℤ)
    (a : Answers) : Compaction F :=
  let rows : List (Row F) := parse wide lines
  let alerts := rows.filter isAlert
  let cut := evict maxEntries incoming alerts.length (groups decisionKey alerts)
  let evicted := (cut.1.flatMap Prod.snd).length
  let ids := cut.1.map fun group => strOr (group.2.head?.bind fun row => getKey kDecisionId row)
  { kept := ((cut.2.flatMap Prod.snd).map encodeRow).insertionSort
      fun a b => lineSeq F wide a ≤ lineSeq F wide b
    alarm :=
      [(kSchema, .str queueSchema), (kRecordType, .str recordOverflowAlarm), (kSeq, .int (seq + 1)),
        (kStamp, .int a.stamp), (kBootId, .str a.bootId), (kQueuedAt, .str a.queuedAt),
        (kPolicy, .str overflowPolicy), (pyStr "max_entries", .int maxEntries),
        (pyStr "evicted_alerts", .int evicted), (pyStr "evicted_decisions", .int ids.length),
        (pyStr "evicted_decision_ids", .list ((ids.take 50).map .str)),
        (pyStr "dropped_status_records", .int (rows.length - alerts.length : ℕ)),
        (kTotal, .int (evictedTotal + evicted))]
    evicted }

/-! ## 4. A write -/

/-- The file, by its inode number. -/
structure File where
  ino : ℕ
  bytes : Text

/-- `_cache`: the file as the instance last left it. -/
structure Cache where
  ino : ℕ
  size : ℕ
  lineCount : ℕ
  seq : ℤ
  evictedTotal : ℤ

/-- The parameters of an instance that can be constructed. -/
structure Queue where
  maxEntries : ℕ
  enough : 2 ≤ maxEntries

/-- `max_lines`. -/
def Queue.maxLines (q : Queue) : ℕ := 2 * q.maxEntries

/-- The file that `os.open` opens. -/
def openFile (file : Option File) (a : Answers) : File := file.getD ⟨a.createIno, []⟩

/-- What a write knows of the file: the line count, the last `seq`, the total, the bytes cut off. -/
structure Found where
  data : Text
  lineCount : ℕ
  seq : ℤ
  evictedTotal : ℤ
  repaired : ℕ

variable (F) in
/-- The file is scanned. -/
def scanned (file : File) : Found :=
  let s := scan F wide file.bytes
  ⟨s.data, s.lineCount, s.seq, s.evictedTotal, s.repaired⟩

variable (F) in
/-- The file is looked at, by the cache or by `_scan`. -/
def find (cache : Option Cache) (file : File) : Found :=
  match cache with
  | some c =>
    if c.ino = file.ino ∧ c.size = file.bytes.length then
      ⟨file.bytes, c.lineCount, c.seq, c.evictedTotal, 0⟩
    else scanned F wide file
  | none => scanned F wide file

/-- What a write is going to do: with the file as it is then, append the lines or put a file of them
in its place. -/
structure Plan (F : Type) where
  base : File
  replaces : Bool
  lines : List Text
  entries : List (Record F)
  totalLines : ℕ
  /-- The total that the cache falls back on. -/
  evictedTotal : ℤ

def withRepaired (repaired : ℕ) (entries : List (Record F)) : List (Record F) :=
  entries.map (setKey kRepaired (.int repaired))

/-- `_write`, up to the bytes that it writes. -/
def plan (q : Queue) (cache : Option Cache) (file : File) (r : Request F) (a : Answers) : Plan F :=
  let found := find F wide cache file
  let provisional := build a r (found.seq + 1) 0 found.evictedTotal
  if q.maxLines < found.lineCount + provisional.length then
    let s := scan F wide file.bytes
    let c := compact (F := F) wide q.maxEntries s.lines r.incoming found.seq found.evictedTotal a
    let entries := withRepaired found.repaired
      (build a r (found.seq + 1 + 1) c.evicted (found.evictedTotal + c.evicted))
    let lines := c.kept ++ [encode c.alarm] ++ entries.map encode
    ⟨⟨file.ino, s.data⟩, true, lines, entries, lines.length, found.evictedTotal⟩
  else
    let entries := withRepaired found.repaired provisional
    ⟨⟨file.ino, found.data⟩, false, entries.map encode, entries, found.lineCount + entries.length,
      found.evictedTotal⟩

/-- The file after a write. -/
def Plan.after (p : Plan F) (a : Answers) : File :=
  if p.replaces then ⟨a.rewriteIno, p.lines.flatten⟩ else ⟨p.base.ino, p.base.bytes ++ p.lines.flatten⟩

/-- The file after a write that gets so far. -/
def Plan.cut (p : Plan F) (a : Answers) (bytes : ℕ) (replaced : Bool) : File :=
  if p.replaces then (if replaced then p.after a else p.base)
  else ⟨p.base.ino, p.base.bytes ++ p.lines.flatten.take bytes⟩

/-- `last['seq']`. -/
def entryInt (key : PyStr) (entry : Record F) : Option ℤ :=
  match getKey key entry with
  | some (.int n) => some n
  | _ => none

/-- The cache after a write. -/
def Plan.cache (p : Plan F) (a : Answers) : Option Cache :=
  if a.statOk then
    p.entries.getLast?.map fun last =>
      { ino := (p.after a).ino, size := (p.after a).bytes.length, lineCount := p.totalLines
        seq := (entryInt kSeq last).getD 0
        evictedTotal := (entryInt kTotal last).getD p.evictedTotal }
  else none

/-! ## 5. Instances -/

/-- How far a call gets: it returns; or it raises, or its process dies, before the file is opened,
once it is, or after the torn tail was cut with so many bytes appended, or the file replaced. -/
inductive Outcome where
  | returned
  | unopened
  | opened
  | cut (bytes : ℕ) (replaced : Bool)

/-- The file and what each instance remembers of it. -/
structure World (I : Type) where
  file : Option File
  cache : I → Option Cache

/-- A `ValueError` before anything is done. -/
def refused (q : Queue) : Request F → Bool
  | .enqueue alerts _ => alerts.isEmpty || q.maxEntries < alerts.length
  | .appendStatus _ => false

variable {I : Type} [DecidableEq I]

/-- An instance's call, or a new instance. -/
inductive Event (I F : Type) where
  | write (i : I) (r : Request F) (a : Answers) (o : Outcome)
  | reopen (i : I)

/-- `enqueue` and `append_status`. -/
def step (q : Queue) (w : World I) : Event I F → World I
  | .reopen i => { w with cache := Function.update w.cache i none }
  | .write i r a o =>
    if refused q r then w
    else
      let file := openFile w.file a
      let p := plan wide q (w.cache i) file r a
      match o with
      | .unopened => w
      | .opened => { w with file := some file }
      | .cut bytes replaced => { w with file := some (p.cut a bytes replaced) }
      | .returned => ⟨some (p.after a), Function.update w.cache i (p.cache a)⟩

end Read

end AzazelEdge.Alert
