/-
# The EVE ingress reader

`ingress.rs`: `IngressReader` with `poll`, `audit_records` and `shutdown_records`.  A poll reads an
open file through a buffered reader whose position is always `offset`; a turn of its loop is given
what that turn observes, namely whether the work limit is spent and what the read it issues
answers.  What the file holds and how it changes is left to the statements about it.

`serde_json::from_str` is a parameter.  So is the arithmetic of `f64`, in which the token bucket
counts (`F64`): only lines that are no alerts depend on it.  The counters are natural numbers; the
source's are `u64`.
-/
import Mathlib.Algebra.Order.Field.Rat
import AzazelEdge.Lib.Json
import AzazelEdge.Lib.Utf8

namespace AzazelEdge.Ingress

open AzazelEdge.Lib

/-! ## 1. Limits, classes, reports -/

/-- `IngressLimits`; durations in nanoseconds. -/
structure IngressLimits where
  nonAlertPerSec : ℕ
  nonAlertBurst : ℕ
  alertsPerPoll : ℕ
  examinePerPoll : ℕ
  pollWorkLimit : ℕ
  maxLineBytes : ℕ
  backlogBoundBytes : ℕ
  alertBacklogBoundBytes : ℕ
  auditInterval : ℕ

inductive ShedClass where
  | flow
  | dns
  | stats
  | other
  | unparseable
  deriving DecidableEq

/-- `SHED_CLASSES`. -/
def shedClasses : List ShedClass := [.flow, .dns, .stats, .other, .unparseable]

def maxShedLevel : ℕ := 4

/-- `ShedClass::rank`: lower is shed first. -/
def ShedClass.rank : ShedClass → ℕ
  | .flow => 0
  | .dns => 1
  | .stats => 2
  | .other | .unparseable => 3

/-- A count for each class: the source's `[u64; 5]` under `ShedClass::index`. -/
abbrev PerClass := ShedClass → ℕ

/-- `.iter().sum()`. -/
def PerClass.sum (counts : PerClass) : ℕ := (shedClasses.map counts).sum

/-- `classify`; `none` is an alert. -/
def classify (parsed : Option Json) : Option ShedClass :=
  match parsed with
  | none => some .unparseable
  | some value =>
    match value.strAt? "event_type" with
    | some "alert" => none
    | some "flow" | some "netflow" => some .flow
    | some "dns" => some .dns
    | some "stats" => some .stats
    | _ => some .other

/-- `shed_level`. -/
def shedLevel (backlogBytes boundBytes : ℕ) : ℕ :=
  if boundBytes = 0 ∨ backlogBytes ≤ boundBytes then 0
  else min ((backlogBytes - 1) / boundBytes) maxShedLevel

/-- `is_shed`. -/
def isShed (cls : ShedClass) (level : ℕ) : Bool := cls.rank < level

inductive PollStop where
  | noFile
  | caughtUp
  | partialLine
  | alertBudget
  | examineBudget
  | workTime
  deriving DecidableEq

structure PollReport where
  admitted : ℕ
  alertsAdmitted : ℕ
  examined : ℕ
  shed : PerClass
  shedRate : ℕ
  shedBacklog : ℕ
  oversized : ℕ
  backlogBefore : ℕ
  backlogAfter : ℕ
  level : ℕ
  stop : Option PollStop

/-- `PollReport::default`. -/
def PollReport.empty : PollReport := ⟨0, 0, 0, fun _ => 0, 0, 0, 0, 0, 0, 0, none⟩

/-- `Pending`: what no summary has reported yet. -/
structure Pending where
  polls : ℕ
  shed : PerClass
  shedRate : ℕ
  shedBacklog : ℕ
  admitted : ℕ
  alertsAdmitted : ℕ
  examined : ℕ
  maxBacklog : ℕ
  maxLevel : ℕ
  oversized : ℕ
  oversizedPossibleAlerts : ℕ
  truncationResets : ℕ
  fileReplacements : ℕ
  unreadBytesLost : ℕ
  alertBacklogPolls : ℕ
  alertBacklogMax : ℕ
  alertBacklogAlertsAdmitted : ℕ

/-- `Pending::default`. -/
def Pending.empty : Pending := ⟨0, fun _ => 0, 0, 0, 0, 0, 0, 0, 0, 0, 0, 0, 0, 0, 0, 0, 0⟩

/-- `Pending::shed_side_nonzero`. -/
def Pending.shedSideNonzero (p : Pending) : Bool :=
  p.shed.sum > 0 || p.oversized > 0 || p.truncationResets > 0 || p.fileReplacements > 0

/-! ## 2. The reader -/

/-- The operations of `f64` that the token bucket uses. -/
class F64 (F : Type) where
  ofNat : ℕ → F
  add : F → F → F
  sub : F → F → F
  mul : F → F → F
  div : F → F → F
  min : F → F → F
  le : F → F → Bool

instance : F64 ℚ := ⟨Nat.cast, (· + ·), (· - ·), (· * ·), (· / ·), min, fun a b => decide (a ≤ b)⟩

variable {F : Type} [F64 F]

/-- `ShedClass::reserve`. -/
def ShedClass.reserve (cls : ShedClass) (burst : ℕ) : F :=
  F64.div (F64.mul (F64.ofNat (3 - min cls.rank 3)) (F64.ofNat burst)) (F64.ofNat 8)

/-- `IngressReader`; an instant is a reading of the monotonic clock in nanoseconds. -/
structure IngressReader (F : Type) where
  offset : ℕ
  limits : IngressLimits
  lastLen : ℕ
  inode : Option (ℕ × ℕ)
  skipping : Bool
  tokens : F
  lastRefill : Option ℕ
  pending : Pending
  lastShedEmit : Option ℕ
  lastAlertEmit : Option ℕ
  cumulativeShed : PerClass
  cumulativeOversized : ℕ
  cumulativeAlertBacklogPolls : ℕ
  cumulativeResets : ℕ
  shutdownFlushed : Bool

namespace IngressReader

/-- `IngressReader::new`. -/
def new (offset : ℕ) (limits : IngressLimits) : IngressReader F where
  offset
  limits
  lastLen := offset
  inode := none
  skipping := false
  tokens := F64.ofNat limits.nonAlertBurst
  lastRefill := none
  pending := .empty
  lastShedEmit := none
  lastAlertEmit := none
  cumulativeShed := fun _ => 0
  cumulativeOversized := 0
  cumulativeAlertBacklogPolls := 0
  cumulativeResets := 0
  shutdownFlushed := false

/-- `Duration::as_secs_f64`. -/
def asSecsF64 (ns : ℕ) : F :=
  F64.add (F64.ofNat (ns / 1000000000)) (F64.div (F64.ofNat (ns % 1000000000)) (F64.ofNat 1000000000))

/-- `refill`. -/
def refill (r : IngressReader F) (now : ℕ) : IngressReader F :=
  let cap := F64.ofNat r.limits.nonAlertBurst
  { r with
    tokens := match r.lastRefill with
      | some last =>
        F64.min (F64.add r.tokens (F64.mul (asSecsF64 (now - last))
          (F64.ofNat r.limits.nonAlertPerSec))) cap
      | none => cap
    lastRefill := some now }

/-- `restart`: whatever was unread in the old file is gone, and counted. -/
def restart (r : IngressReader F) (replaced : Bool) : IngressReader F :=
  { r with
    pending := { r.pending with
      fileReplacements := r.pending.fileReplacements + (if replaced then 1 else 0)
      truncationResets := r.pending.truncationResets + (if replaced then 0 else 1)
      unreadBytesLost := r.pending.unreadBytesLost + (r.lastLen - r.offset) }
    cumulativeResets := r.cumulativeResets + 1
    offset := 0
    skipping := false }

end IngressReader

/-! ## 3. One poll -/

/-- What `poll` finds when it opens the file: `id` is device and inode. -/
structure Opened where
  id : ℕ × ℕ
  len : ℕ
  seekOk : Bool

/-- What one turn of the loop observes.  `read` is the answer to the read it issues: `fill_buf`
inside an oversized line, `read_until` otherwise; `none` is an error. -/
structure Turn where
  overtime : Bool
  read : Option (List UInt8)

/-- One call of `poll`. -/
structure PollCall where
  now : ℕ
  opened : Option Opened
  turns : List Turn

def newline : UInt8 := 10

/-- `ALERT_MARKER`. -/
def alertMarker : List UInt8 := "\"event_type\":\"alert\"".toUTF8.toList

/-- `contains`. -/
def contains (hay needle : List UInt8) : Bool := hay.tails.any needle.isPrefixOf

/-- `max_line + 1`, the bytes that `read_until` may take. -/
def IngressLimits.takeBytes (limits : IngressLimits) : ℕ := (limits.maxLineBytes + 1) % 2 ^ 64

/-- The loop of `poll` between two turns.  `decided` are the values handed to `decide`. -/
structure Loop (F : Type) where
  reader : IngressReader F
  report : PollReport
  skippedBytes : ℕ
  decided : List Json

/-- How a turn ends. -/
inductive Turned (F : Type) where
  | stop (stop : PollStop)
  | next (loop : Loop F)

section

variable (fromStr : List Char → Option Json)

/-- What a line is decided by: `none` when it is blank, else what its text parses to. -/
def readLine (line : List UInt8) : Option (Option Json) :=
  let text := trim (fromUtf8Lossy line)
  if text = [] then none else some (fromStr text)

namespace Loop

/-- A line is admitted; only a parsed one is handed over. -/
def admitLine (s : Loop F) (parsed : Option Json) : Loop F :=
  { s with
    report := { s.report with admitted := s.report.admitted + 1 }
    decided := s.decided ++ parsed.toList }

/-- `shed`. -/
def shed (s : Loop F) (cls : ShedClass) (byBacklog : Bool) : Loop F :=
  { s with
    report := { s.report with
      shed := fun c => s.report.shed c + (if c = cls then 1 else 0)
      shedBacklog := s.report.shedBacklog + (if byBacklog then 1 else 0)
      shedRate := s.report.shedRate + (if byBacklog then 0 else 1) } }

/-- An alert: admitted whenever it is reached. -/
def admitAlert (s : Loop F) (parsed : Option Json) : Loop F :=
  let s := { s with report := { s.report with alertsAdmitted := s.report.alertsAdmitted + 1 } }
  s.admitLine parsed

/-- A line that is no alert: shed by the backlog, or admitted against a token, or shed. -/
def offer (s : Loop F) (cls : ShedClass) (parsed : Option Json) : Loop F :=
  if isShed cls s.report.level then s.shed cls true
  else if F64.le (F64.add (cls.reserve s.reader.limits.nonAlertBurst) (F64.ofNat 1))
      s.reader.tokens then
    let s := { s with reader := { s.reader with tokens := F64.sub s.reader.tokens (F64.ofNat 1) } }
    s.admitLine parsed
  else s.shed cls false

/-- The offset moves past a line, which counts as looked at. -/
def advance (s : Loop F) (line : List UInt8) : Loop F :=
  { s with
    reader := { s.reader with offset := s.reader.offset + line.length }
    report := { s.report with examined := s.report.examined + 1 } }

/-- What a complete line comes to. -/
def examine (s : Loop F) (line : List UInt8) : Loop F :=
  match readLine fromStr line with
  | none => s.advance line
  | some parsed =>
    match classify parsed with
    | none => (s.advance line).admitAlert parsed
    | some cls => (s.advance line).offer cls parsed

/-- A line longer than any that is read: skipped and counted. -/
def oversize (s : Loop F) (bytes : List UInt8) : Loop F :=
  { s with
    reader := { s.reader with
      offset := s.reader.offset + bytes.length
      skipping := true
      pending := { s.reader.pending with
        oversizedPossibleAlerts := s.reader.pending.oversizedPossibleAlerts +
          (if contains bytes alertMarker then 1 else 0) } }
    report := { s.report with
      examined := s.report.examined + 1
      oversized := s.report.oversized + 1 } }

/-- The rest of an oversized line is discarded up to its newline. -/
def skip (s : Loop F) (avail : List UInt8) : Loop F :=
  let line := avail.takeWhile (· != newline)
  let found := decide (line.length < avail.length)
  let used := line.length + (if found then 1 else 0)
  { s with
    reader := { s.reader with
      offset := s.reader.offset + used
      skipping := !found }
    skippedBytes := s.skippedBytes + used }

/-- One turn of the loop. -/
def turn (s : Loop F) (t : Turn) : Turned F :=
  if s.reader.limits.examinePerPoll ≤ s.report.examined then .stop .examineBudget
  else if s.reader.limits.alertsPerPoll ≤ s.report.alertsAdmitted then .stop .alertBudget
  else if (0 < s.report.examined ∨ 0 < s.skippedBytes) ∧ t.overtime then .stop .workTime
  else match t.read with
    | none => .stop .noFile
    | some [] => .stop .caughtUp
    | some bytes =>
      if s.reader.skipping then .next (s.skip bytes)
      else if bytes.getLast? = some newline then .next (s.examine fromStr bytes)
      -- Still being written: it is left, and the offset with it.
      else if bytes.length ≤ s.reader.limits.maxLineBytes then .stop .partialLine
      else .next (s.oversize bytes)

/-- The loop on these turns, once it breaks. -/
def run (s : Loop F) : List Turn → Option (Loop F × PollStop)
  | [] => none
  | t :: rest =>
    match s.turn fromStr t with
    | .stop stop => some (s, stop)
    | .next s' => s'.run rest

end Loop

/-- **Everything a turn can do that does not end the loop.** -/
theorem Loop.turn_next {s s' : Loop F} {t : Turn} (h : s.turn fromStr t = .next s') :
    ∃ bytes, t.read = some bytes ∧
      ((s.reader.skipping = true ∧ s' = s.skip bytes) ∨
        (s.reader.skipping = false ∧ bytes.getLast? = some newline ∧
          s' = s.examine fromStr bytes) ∨
        (s.reader.skipping = false ∧ bytes.getLast? ≠ some newline ∧
          s.reader.limits.maxLineBytes < bytes.length ∧ s' = s.oversize bytes)) := by
  unfold Loop.turn at h
  split at h
  · cases h
  · split at h
    · cases h
    · split at h
      · cases h
      · split at h
        · cases h
        · cases h
        · rename_i bytes _ hread
          refine ⟨bytes, hread, ?_⟩
          split at h
          · rename_i hskipping
            exact Or.inl ⟨hskipping, (Turned.next.inj h).symm⟩
          · rename_i hskipping
            have hskipping : s.reader.skipping = false := by simpa using hskipping
            split at h
            · rename_i hended
              exact Or.inr (Or.inl ⟨hskipping, hended, (Turned.next.inj h).symm⟩)
            · rename_i hended
              split at h
              · cases h
              · rename_i hlong
                exact Or.inr (Or.inr ⟨hskipping, hended, by omega, (Turned.next.inj h).symm⟩)

/-- **Everything an examined line can come to.**  Only the counts, the token bucket and the values
handed over change. -/
theorem Loop.examine_cases (s : Loop F) (line : List UInt8) :
    (readLine fromStr line = none ∧ s.examine fromStr line = s.advance line) ∨
    (∃ parsed, readLine fromStr line = some parsed ∧ classify parsed = none ∧
      s.examine fromStr line = (s.advance line).admitAlert parsed) ∨
    (∃ parsed cls tokens, readLine fromStr line = some parsed ∧ classify parsed = some cls ∧
      s.examine fromStr line =
        { s.advance line with reader := { (s.advance line).reader with tokens } }.admitLine parsed) ∨
    (∃ parsed cls byBacklog, readLine fromStr line = some parsed ∧ classify parsed = some cls ∧
      s.examine fromStr line = (s.advance line).shed cls byBacklog) := by
  unfold Loop.examine
  cases hread : readLine fromStr line with
  | none => exact Or.inl ⟨rfl, rfl⟩
  | some parsed =>
    cases hclass : classify parsed with
    | none => exact Or.inr (Or.inl ⟨parsed, rfl, hclass, by simp only [hclass]⟩)
    | some cls =>
      simp only [hclass, Loop.offer]
      by_cases hlevel : isShed cls (s.advance line).report.level = true
      · rw [if_pos hlevel]
        exact Or.inr (Or.inr (Or.inr ⟨parsed, cls, true, rfl, hclass, rfl⟩))
      · rw [if_neg hlevel]
        split
        · exact Or.inr (Or.inr (Or.inl ⟨parsed, cls, _, rfl, hclass, rfl⟩))
        · exact Or.inr (Or.inr (Or.inr ⟨parsed, cls, false, rfl, hclass, rfl⟩))

namespace IngressReader

/-- Whether this file is another than the last one (`true`) or shorter than what was read
(`false`). -/
def restarts (r : IngressReader F) (file : Opened) : Option Bool :=
  match r.inode with
  | some old =>
    if old ≠ file.id then some true else if file.len < r.offset then some false else none
  | none => if file.len < r.offset then some false else none

/-- `poll` up to its loop: the file is open, and its length is known. -/
def begin (r : IngressReader F) (file : Opened) : IngressReader F :=
  { (match r.restarts file with
      | some replaced => r.restart replaced
      | none => r) with
    inode := some file.id
    lastLen := file.len }

/-- What a poll whose loop ended adds to the pending and to the cumulative counts. -/
def account (r : IngressReader F) (report : PollReport) (backlog : ℕ) : IngressReader F :=
  let alertBacklog := decide (r.limits.alertBacklogBoundBytes < backlog)
  let p := r.pending
  { r with
    pending := { p with
      polls := p.polls + 1
      admitted := p.admitted + report.admitted
      alertsAdmitted := p.alertsAdmitted + report.alertsAdmitted
      examined := p.examined + report.examined
      shedRate := p.shedRate + report.shedRate
      shedBacklog := p.shedBacklog + report.shedBacklog
      oversized := p.oversized + report.oversized
      maxBacklog := max p.maxBacklog backlog
      maxLevel := max p.maxLevel report.level
      shed := fun c => p.shed c + report.shed c
      alertBacklogPolls := p.alertBacklogPolls + (if alertBacklog then 1 else 0)
      alertBacklogMax := if alertBacklog then max p.alertBacklogMax backlog else p.alertBacklogMax
      alertBacklogAlertsAdmitted := p.alertBacklogAlertsAdmitted +
        (if alertBacklog then report.alertsAdmitted else 0) }
    cumulativeOversized := r.cumulativeOversized + report.oversized
    cumulativeShed := fun c => r.cumulativeShed c + report.shed c
    cumulativeAlertBacklogPolls := r.cumulativeAlertBacklogPolls + (if alertBacklog then 1 else 0) }

/-- The start of the loop of `poll`. -/
def loopStart (r : IngressReader F) (file : Opened) : Loop F :=
  let backlog := file.len - r.offset
  { reader := r
    report := { PollReport.empty with
      backlogBefore := backlog
      level := shedLevel backlog r.limits.backlogBoundBytes }
    skippedBytes := 0
    decided := [] }

/-- `poll`: the reader it leaves, its report, and what it handed to `decide`.  `none` when the turns
do not reach the end of the loop. -/
def poll (r : IngressReader F) (call : PollCall) :
    Option (IngressReader F × PollReport × List Json) :=
  let r := r.refill call.now
  match call.opened with
  | none => some (r, { PollReport.empty with stop := some .noFile }, [])
  | some file =>
    let r := r.begin file
    let start := r.loopStart file
    if file.seekOk = false then
      some (r, { start.report with stop := some .noFile }, [])
    else
      (start.run fromStr call.turns).map fun (s, stop) =>
        let report := { s.report with
          stop := some stop
          backlogAfter := file.len - s.reader.offset }
        (s.reader.account report report.backlogBefore, report, s.decided)

end IngressReader

end

/-! ## 4. Summaries -/

/-- `interval_end`. -/
inductive IntervalEnd where
  | auditInterval
  | shutdown

/-- An `ingress_shed` record.  `alerts_shed` is the constant 0. -/
structure IngressShed (F : Type) where
  emittedEpoch : F
  intervalEnd : IntervalEnd
  polls : ℕ
  shedByType : PerClass
  shedTotal : ℕ
  nonAlertRate : ℕ
  backlog : ℕ
  admitted : ℕ
  alertsAdmitted : ℕ
  examined : ℕ
  maxBacklogBytes : ℕ
  maxShedLevel : ℕ
  oversizedLinesSkipped : ℕ
  oversizedPossibleAlerts : ℕ
  truncationResets : ℕ
  fileReplacements : ℕ
  unreadBytesLost : ℕ
  cumulativeShedByType : PerClass
  cumulativeShedTotal : ℕ
  cumulativeOversizedLinesSkipped : ℕ
  cumulativeResets : ℕ
  quota : IngressLimits

/-- An `ingress_alert_backlog` record. -/
structure IngressAlertBacklog (F : Type) where
  emittedEpoch : F
  intervalEnd : IntervalEnd
  pollsOverBound : ℕ
  maxBacklogBytes : ℕ
  alertBacklogBoundBytes : ℕ
  alertsAdmitted : ℕ
  cumulativePollsOverBound : ℕ
  quota : IngressLimits

inductive Summary (F : Type) where
  | ingressShed (record : IngressShed F)
  | ingressAlertBacklog (record : IngressAlertBacklog F)

namespace IngressReader

omit [F64 F]

/-- `interval_elapsed`. -/
def intervalElapsed (r : IngressReader F) (last : Option ℕ) (now : ℕ) : Bool :=
  match last with
  | none => true
  | some t => r.limits.auditInterval ≤ now - t

/-- The `ingress_shed` record of what is pending. -/
def shedRecord (r : IngressReader F) (emittedEpoch : F) (intervalEnd : IntervalEnd) :
    IngressShed F where
  emittedEpoch
  intervalEnd
  polls := r.pending.polls
  shedByType := r.pending.shed
  shedTotal := r.pending.shed.sum
  nonAlertRate := r.pending.shedRate
  backlog := r.pending.shedBacklog
  admitted := r.pending.admitted
  alertsAdmitted := r.pending.alertsAdmitted
  examined := r.pending.examined
  maxBacklogBytes := r.pending.maxBacklog
  maxShedLevel := r.pending.maxLevel
  oversizedLinesSkipped := r.pending.oversized
  oversizedPossibleAlerts := r.pending.oversizedPossibleAlerts
  truncationResets := r.pending.truncationResets
  fileReplacements := r.pending.fileReplacements
  unreadBytesLost := r.pending.unreadBytesLost
  cumulativeShedByType := r.cumulativeShed
  cumulativeShedTotal := r.cumulativeShed.sum
  cumulativeOversizedLinesSkipped := r.cumulativeOversized
  cumulativeResets := r.cumulativeResets
  quota := r.limits

/-- The `ingress_alert_backlog` record of what is pending. -/
def alertBacklogRecord (r : IngressReader F) (emittedEpoch : F) (intervalEnd : IntervalEnd) :
    IngressAlertBacklog F where
  emittedEpoch
  intervalEnd
  pollsOverBound := r.pending.alertBacklogPolls
  maxBacklogBytes := r.pending.alertBacklogMax
  alertBacklogBoundBytes := r.limits.alertBacklogBoundBytes
  alertsAdmitted := r.pending.alertBacklogAlertsAdmitted
  cumulativePollsOverBound := r.cumulativeAlertBacklogPolls
  quota := r.limits

/-- The first half of `summaries`. -/
def summariseShed (r : IngressReader F) (now : ℕ) (nowEpoch : F) (atShutdown : Bool) :
    IngressReader F × List (Summary F) :=
  if r.pending.shedSideNonzero && (atShutdown || r.intervalElapsed r.lastShedEmit now) then
    ({ r with
        lastShedEmit := some now
        -- The alert backlog has a record of its own and is kept for it.
        pending := { Pending.empty with
          alertBacklogPolls := r.pending.alertBacklogPolls
          alertBacklogMax := r.pending.alertBacklogMax
          alertBacklogAlertsAdmitted := r.pending.alertBacklogAlertsAdmitted } },
      [.ingressShed (r.shedRecord nowEpoch (if atShutdown then .shutdown else .auditInterval))])
  else (r, [])

/-- The second half. -/
def summariseAlerts (r : IngressReader F) (now : ℕ) (nowEpoch : F) (atShutdown : Bool) :
    IngressReader F × List (Summary F) :=
  if 0 < r.pending.alertBacklogPolls && (atShutdown || r.intervalElapsed r.lastAlertEmit now) then
    ({ r with
        lastAlertEmit := some now
        pending := { r.pending with
          alertBacklogPolls := 0
          alertBacklogMax := 0
          alertBacklogAlertsAdmitted := 0 } },
      [.ingressAlertBacklog
        (r.alertBacklogRecord nowEpoch (if atShutdown then .shutdown else .auditInterval))])
  else (r, [])

/-- `summaries`. -/
def summaries (r : IngressReader F) (now : ℕ) (nowEpoch : F) (atShutdown : Bool) :
    IngressReader F × List (Summary F) :=
  let first := r.summariseShed now nowEpoch atShutdown
  let second := first.1.summariseAlerts now nowEpoch atShutdown
  (second.1, first.2 ++ second.2)

/-- `audit_records`. -/
def auditRecords (r : IngressReader F) (now : ℕ) (nowEpoch : F) :
    IngressReader F × List (Summary F) :=
  if r.shutdownFlushed then (r, []) else r.summaries now nowEpoch false

/-- `shutdown_records`. -/
def shutdownRecords (r : IngressReader F) (now : ℕ) (nowEpoch : F) :
    IngressReader F × List (Summary F) :=
  if r.shutdownFlushed then (r, [])
  else { r with shutdownFlushed := true }.summaries now nowEpoch true

end IngressReader

end AzazelEdge.Ingress
