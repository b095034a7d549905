/-
# The ingress audit conserves its counts

A count lives in three places: in the report of a poll, in `pending`, and in the record that takes
it out of `pending`.  Each poll puts what it counted into `pending` and into the cumulative totals,
and a record moves all of the shed side of `pending` at once, so at every moment what was emitted
and what is pending make up what was counted (`Books`).  The shutdown flush empties the shed side
whenever anything of it is left, and closes the reader's mouth.

A poll may return before its loop, with a restart already counted; the books hold there too, since a
restart is counted when it happens and not with the rest of the poll.
-/
import Mathlib.Algebra.BigOperators.Group.List.Basic
import AzazelEdge.Lib.Run
import AzazelEdge.Ingress.Reader

namespace AzazelEdge.Ingress

open AzazelEdge.Lib

variable {F : Type} [F64 F] {fromStr : List Char → Option Json}

/-! ## 1. What is counted -/

/-- The counts of the shed side. -/
inductive Counter where
  | shed (cls : ShedClass)
  | nonAlertRate
  | backlog
  | oversized
  | truncation
  | replacement
  | unreadLost

def PollReport.count (report : PollReport) : Counter → ℕ
  | .shed cls => report.shed cls
  | .nonAlertRate => report.shedRate
  | .backlog => report.shedBacklog
  | .oversized => report.oversized
  | _ => 0

def Pending.count (p : Pending) : Counter → ℕ
  | .shed cls => p.shed cls
  | .nonAlertRate => p.shedRate
  | .backlog => p.shedBacklog
  | .oversized => p.oversized
  | .truncation => p.truncationResets
  | .replacement => p.fileReplacements
  | .unreadLost => p.unreadBytesLost

def IngressShed.count (record : IngressShed F) : Counter → ℕ
  | .shed cls => record.shedByType cls
  | .nonAlertRate => record.nonAlertRate
  | .backlog => record.backlog
  | .oversized => record.oversizedLinesSkipped
  | .truncation => record.truncationResets
  | .replacement => record.fileReplacements
  | .unreadLost => record.unreadBytesLost

/-- What a restart counts, of a file of which `lost` bytes were unread. -/
def restartCount (replaced : Bool) (lost : ℕ) : Counter → ℕ
  | .truncation => if replaced then 0 else 1
  | .replacement => if replaced then 1 else 0
  | .unreadLost => lost
  | _ => 0

/-- Whether a call of `poll` restarts the file. -/
def IngressReader.restartOf (r : IngressReader F) (call : PollCall) : Option Bool :=
  call.opened.bind r.restarts

/-- What a call of `poll` counts: its report, and the restart if there was one. -/
def IngressReader.counted (r : IngressReader F) (call : PollCall) (report : PollReport)
    (k : Counter) : ℕ :=
  report.count k + match r.restartOf call with
    | some replaced => restartCount replaced (r.lastLen - r.offset) k
    | none => 0

/-- Whether a call of `poll` counts as one with an alert backlog. -/
def IngressReader.overBound (r : IngressReader F) (call : PollCall) (report : PollReport) : ℕ :=
  match call.opened with
  | some file =>
    if file.seekOk ∧ r.limits.alertBacklogBoundBytes < report.backlogBefore then 1 else 0
  | none => 0

/-- How many of the lines the loop looks at are blank. -/
def Loop.blankLines (fromStr : List Char → Option Json) (s : Loop F) : List Turn → ℕ
  | [] => 0
  | t :: rest =>
    match s.turn fromStr t with
    | .stop _ => 0
    | .next s' =>
      (if s.reader.skipping = false ∧ (t.read.getD []).getLast? = some newline ∧
          readLine fromStr (t.read.getD []) = none then 1 else 0) +
        s'.blankLines fromStr rest

/-- The blank lines of a poll. -/
def IngressReader.blankLines (fromStr : List Char → Option Json) (r : IngressReader F)
    (call : PollCall) : ℕ :=
  match call.opened with
  | some file =>
    if file.seekOk then
      (((r.refill call.now).begin file).loopStart file).blankLines fromStr call.turns
    else 0
  | none => 0

/-! ## 2. The reader under its caller -/

/-- A call, with what came of it. -/
inductive Act (F : Type) where
  | polled (counted : Counter → ℕ) (overBound : ℕ) (report : PollReport) (blankLines : ℕ)
  | audited (records : List (Summary F))
  | flushed (records : List (Summary F))

/-- One call of the reader. -/
inductive Step (fromStr : List Char → Option Json) :
    IngressReader F → Act F → IngressReader F → Prop
  | poll (r r' : IngressReader F) (call : PollCall) (report : PollReport) (decided : List Json)
      (hpoll : r.poll fromStr call = some (r', report, decided)) :
      Step fromStr r (.polled (r.counted call report) (r.overBound call report) report
        (r.blankLines fromStr call)) r'
  | auditRecords (r : IngressReader F) (now : ℕ) (nowEpoch : F) :
      Step fromStr r (.audited (r.auditRecords now nowEpoch).2) (r.auditRecords now nowEpoch).1
  | shutdownRecords (r : IngressReader F) (now : ℕ) (nowEpoch : F) :
      Step fromStr r (.flushed (r.shutdownRecords now nowEpoch).2)
        (r.shutdownRecords now nowEpoch).1

def Act.records : Act F → List (Summary F)
  | .polled _ _ _ _ => []
  | .audited records => records
  | .flushed records => records

def Act.counted : Act F → Counter → ℕ
  | .polled counted _ _ _ => counted
  | _ => fun _ => 0

def Act.overBound : Act F → ℕ
  | .polled _ overBound _ _ => overBound
  | _ => 0

def Act.isFlush : Act F → Bool
  | .flushed _ => true
  | _ => false

/-- The total of everything the polls counted. -/
def total (acts : List (Act F)) (k : Counter) : ℕ := (acts.map (·.counted k)).sum

/-- How many polls had an alert backlog. -/
def overBoundTotal (acts : List (Act F)) : ℕ := (acts.map (·.overBound)).sum

/-- What a summary reports of a count. -/
def Summary.count (s : Summary F) (k : Counter) : ℕ :=
  match s with
  | .ingressShed record => record.count k
  | .ingressAlertBacklog _ => 0

def emitted (acts : List (Act F)) (k : Counter) : ℕ :=
  ((acts.flatMap (·.records)).map (·.count k)).sum

/-- The cumulative fields of a summary are the totals of these calls. -/
def Summary.Cumulates (acts : List (Act F)) : Summary F → Prop
  | .ingressShed record =>
    (∀ cls, record.cumulativeShedByType cls = total acts (.shed cls)) ∧
      record.cumulativeShedTotal = PerClass.sum (fun cls => total acts (.shed cls)) ∧
      record.cumulativeOversizedLinesSkipped = total acts .oversized ∧
      record.cumulativeResets = total acts .truncation + total acts .replacement
  | .ingressAlertBacklog record => record.cumulativePollsOverBound = overBoundTotal acts

/-! ## 3. One poll -/

theorem PerClass.sum_add (f g : PerClass) :
    PerClass.sum (fun c => f c + g c) = f.sum + g.sum := by
  simp only [PerClass.sum, shedClasses, List.map_cons, List.map_nil, List.sum_cons, List.sum_nil]
  omega

theorem PerClass.sum_single (cls : ShedClass) :
    PerClass.sum (fun c => if c = cls then 1 else 0) = 1 := by
  cases cls <;> rfl

/-- The counts of a report fit together. -/
structure Balanced (report : PollReport) (blank : ℕ) : Prop where
  examined : report.examined = report.admitted + report.shed.sum + report.oversized + blank
  reasons : report.shedRate + report.shedBacklog = report.shed.sum

omit [F64 F] in
/-- One line shed. -/
theorem Balanced.shed {s : Loop F} {blank : ℕ} (h : Balanced s.report blank) (line : List UInt8)
    (cls : ShedClass) (byBacklog : Bool) :
    Balanced ((s.advance line).shed cls byBacklog).report blank := by
  obtain ⟨hexamined, hreasons⟩ := h
  have hsum := PerClass.sum_add s.report.shed (fun c => if c = cls then 1 else 0)
  rw [PerClass.sum_single] at hsum
  refine ⟨?_, ?_⟩
  · simp only [Loop.shed, Loop.advance, hsum]
    omega
  · simp only [Loop.shed, Loop.advance, hsum]
    cases byBacklog <;> simp only [if_true, Bool.false_eq_true, if_false] <;> omega

/-- **One turn keeps the counts of the report together.** -/
theorem Balanced.turn {s s' : Loop F} {t : Turn} {blank : ℕ} (h : Balanced s.report blank)
    (hturn : s.turn fromStr t = .next s') :
    Balanced s'.report (blank + if s.reader.skipping = false ∧
      (t.read.getD []).getLast? = some newline ∧ readLine fromStr (t.read.getD []) = none
      then 1 else 0) := by
  obtain ⟨bytes, hread, ⟨hskipping, rfl⟩ | ⟨hskipping, hended, rfl⟩ | ⟨hskipping, hopen, -, rfl⟩⟩ :=
    Loop.turn_next fromStr hturn
  · rw [if_neg (by simp [hskipping])]
    exact ⟨h.examined, h.reasons⟩
  · rw [hread, Option.getD_some]
    obtain ⟨hexamined, hreasons⟩ := h
    rcases Loop.examine_cases fromStr s bytes with ⟨hnone, heq⟩ | ⟨parsed, hsome, -, heq⟩ |
      ⟨parsed, cls, tokens, hsome, -, heq⟩ | ⟨parsed, cls, byBacklog, hsome, -, heq⟩
    · rw [heq, if_pos ⟨hskipping, hended, hnone⟩]
      exact ⟨by simp only [Loop.advance]; omega, hreasons⟩
    · rw [heq, if_neg (by simp [hsome])]
      exact ⟨by simp only [Loop.admitAlert, Loop.admitLine, Loop.advance]; omega, hreasons⟩
    · rw [heq, if_neg (by simp [hsome])]
      exact ⟨by simp only [Loop.admitLine, Loop.advance]; omega, hreasons⟩
    · rw [heq, if_neg (by simp [hsome])]
      exact Balanced.shed ⟨hexamined, hreasons⟩ bytes cls byBacklog
  · rw [if_neg (by simp [hread, hopen])]
    exact ⟨by have := h.examined; simp only [Loop.oversize]; omega, h.reasons⟩

theorem Balanced.run {stop : PollStop} : ∀ {turns : List Turn} {s s' : Loop F} {blank : ℕ},
    Balanced s.report blank → s.run fromStr turns = some (s', stop) →
    Balanced s'.report (blank + s.blankLines fromStr turns)
  | [], _, _, _, _, hrun => by cases hrun
  | t :: rest, s, s', blank, h, hrun => by
    rw [Loop.run] at hrun
    split at hrun
    · rename_i stopped hturn
      obtain ⟨rfl, -⟩ := Prod.ext_iff.mp (Option.some.inj hrun)
      rw [Loop.blankLines, hturn]
      exact h
    · rename_i next hturn
      rw [Loop.blankLines, hturn, ← Nat.add_assoc]
      exact (h.turn hturn).run hrun

/-- What the loop leaves alone: everything the audit looks at. -/
structure SameBooks (r r' : IngressReader F) : Prop where
  limits : r'.limits = r.limits
  pending : ∀ k, r'.pending.count k = r.pending.count k
  alertPolls : r'.pending.alertBacklogPolls = r.pending.alertBacklogPolls
  cumulativeShed : r'.cumulativeShed = r.cumulativeShed
  cumulativeOversized : r'.cumulativeOversized = r.cumulativeOversized
  cumulativePolls : r'.cumulativeAlertBacklogPolls = r.cumulativeAlertBacklogPolls
  cumulativeResets : r'.cumulativeResets = r.cumulativeResets
  flushed : r'.shutdownFlushed = r.shutdownFlushed

omit [F64 F] in
theorem SameBooks.refl (r : IngressReader F) : SameBooks r r :=
  ⟨rfl, fun _ => rfl, rfl, rfl, rfl, rfl, rfl, rfl⟩

omit [F64 F] in
theorem SameBooks.trans {r r' r'' : IngressReader F} (h : SameBooks r r') (h' : SameBooks r' r'') :
    SameBooks r r'' :=
  ⟨h'.limits.trans h.limits, fun k => (h'.pending k).trans (h.pending k),
    h'.alertPolls.trans h.alertPolls, h'.cumulativeShed.trans h.cumulativeShed,
    h'.cumulativeOversized.trans h.cumulativeOversized, h'.cumulativePolls.trans h.cumulativePolls,
    h'.cumulativeResets.trans h.cumulativeResets, h'.flushed.trans h.flushed⟩

theorem SameBooks.turn {s s' : Loop F} {t : Turn} (hturn : s.turn fromStr t = .next s') :
    SameBooks s.reader s'.reader := by
  obtain ⟨bytes, -, ⟨-, rfl⟩ | ⟨-, -, rfl⟩ | ⟨-, -, -, rfl⟩⟩ := Loop.turn_next fromStr hturn
  · exact ⟨rfl, fun _ => rfl, rfl, rfl, rfl, rfl, rfl, rfl⟩
  · rcases Loop.examine_cases fromStr s bytes with ⟨-, heq⟩ | ⟨_, -, -, heq⟩ |
      ⟨_, _, _, -, -, heq⟩ | ⟨_, _, _, -, -, heq⟩ <;> rw [heq] <;>
      exact ⟨rfl, fun _ => rfl, rfl, rfl, rfl, rfl, rfl, rfl⟩
  · exact ⟨rfl, fun k => by cases k <;> rfl, rfl, rfl, rfl, rfl, rfl, rfl⟩

theorem SameBooks.run {stop : PollStop} : ∀ {turns : List Turn} {s s' : Loop F},
    s.run fromStr turns = some (s', stop) → SameBooks s.reader s'.reader
  | [], _, _, hrun => by cases hrun
  | t :: rest, s, s', hrun => by
    rw [Loop.run] at hrun
    split at hrun
    · obtain ⟨rfl, -⟩ := Prod.ext_iff.mp (Option.some.inj hrun)
      exact .refl _
    · rename_i next hturn
      exact (SameBooks.turn hturn).trans (SameBooks.run hrun)

/-- The backlog a poll found does not change in its loop. -/
theorem Loop.run_backlogBefore {stop : PollStop} : ∀ {turns : List Turn} {s s' : Loop F},
    s.run fromStr turns = some (s', stop) → s'.report.backlogBefore = s.report.backlogBefore
  | [], _, _, hrun => by cases hrun
  | t :: rest, s, s', hrun => by
    rw [Loop.run] at hrun
    split at hrun
    · obtain ⟨rfl, -⟩ := Prod.ext_iff.mp (Option.some.inj hrun)
      rfl
    · rename_i next hturn
      rw [Loop.run_backlogBefore hrun]
      obtain ⟨bytes, -, ⟨-, rfl⟩ | ⟨-, -, rfl⟩ | ⟨-, -, -, rfl⟩⟩ := Loop.turn_next fromStr hturn
      · rfl
      · rcases Loop.examine_cases fromStr s bytes with ⟨-, heq⟩ | ⟨_, -, -, heq⟩ |
          ⟨_, _, _, -, -, heq⟩ | ⟨_, _, _, -, -, heq⟩ <;> rw [heq] <;> rfl
      · rfl

/-! ## 4. The books -/

/-- **The books of the reader**, against the calls so far. -/
structure Books (acts : List (Act F)) (r : IngressReader F) : Prop where
  /-- What was emitted and what is pending make up what was counted. -/
  balance : ∀ k, emitted acts k + r.pending.count k = total acts k
  cumulativeShed : ∀ cls, r.cumulativeShed cls = total acts (.shed cls)
  cumulativeOversized : r.cumulativeOversized = total acts .oversized
  cumulativeResets : r.cumulativeResets = total acts .truncation + total acts .replacement
  cumulativePolls : r.cumulativeAlertBacklogPolls = overBoundTotal acts
  reasons : r.pending.shedRate + r.pending.shedBacklog = r.pending.shed.sum
  /-- Unread bytes are lost at a restart only. -/
  lost : r.pending.truncationResets = 0 → r.pending.fileReplacements = 0 →
    r.pending.unreadBytesLost = 0

section Totals

omit [F64 F]

variable {acts acts' : List (Act F)} {a : Act F} {k : Counter}

@[simp] theorem total_snoc : total (acts ++ [a]) k = total acts k + a.counted k := by
  simp [total]

@[simp] theorem overBoundTotal_snoc :
    overBoundTotal (acts ++ [a]) = overBoundTotal acts + a.overBound := by
  simp [overBoundTotal]

@[simp] theorem emitted_snoc :
    emitted (acts ++ [a]) k = emitted acts k + (a.records.map (·.count k)).sum := by
  simp [emitted]

end Totals

/-- What a poll adds to the books. -/
structure Counts (r r' : IngressReader F) (counted : Counter → ℕ) (overBound : ℕ) : Prop where
  pending : ∀ k, r'.pending.count k = r.pending.count k + counted k
  cumulativeShed : ∀ cls, r'.cumulativeShed cls = r.cumulativeShed cls + counted (.shed cls)
  cumulativeOversized : r'.cumulativeOversized = r.cumulativeOversized + counted .oversized
  cumulativeResets :
    r'.cumulativeResets = r.cumulativeResets + counted .truncation + counted .replacement
  cumulativePolls :
    r'.cumulativeAlertBacklogPolls = r.cumulativeAlertBacklogPolls + overBound
  flushed : r'.shutdownFlushed = r.shutdownFlushed
  reasons : counted .nonAlertRate + counted .backlog = PerClass.sum fun cls => counted (.shed cls)
  lost : counted .truncation = 0 → counted .replacement = 0 → counted .unreadLost = 0

/-- What a restart counts. -/
def restartCounts (r : IngressReader F) : Option Bool → Counter → ℕ
  | some replaced => restartCount replaced (r.lastLen - r.offset)
  | none => fun _ => 0

omit [F64 F] in
theorem Counts.begin (r : IngressReader F) (file : Opened) :
    Counts r (r.begin file) (restartCounts r (r.restarts file)) 0 := by
  unfold IngressReader.begin
  cases r.restarts file with
  | none => exact ⟨fun _ => rfl, fun _ => rfl, rfl, rfl, rfl, rfl, rfl, fun _ _ => rfl⟩
  | some replaced =>
    refine ⟨fun k => ?_, fun _ => rfl, rfl, ?_, rfl, rfl, rfl, fun htruncated hreplaced => ?_⟩
    · cases k <;> rfl
    · cases replaced <;> rfl
    · cases replaced <;> simp [restartCounts, restartCount] at htruncated hreplaced

theorem SameBooks.refill (r : IngressReader F) (now : ℕ) : SameBooks r (r.refill now) :=
  ⟨rfl, fun _ => rfl, rfl, rfl, rfl, rfl, rfl, rfl⟩

omit [F64 F] in
/-- What the loop leaves alone does not matter to the books, before or after. -/
theorem Counts.same {r₀ r r' r'' : IngressReader F} {counted : Counter → ℕ} {n : ℕ}
    (hleft : SameBooks r₀ r) (h : Counts r r' counted n) (hright : SameBooks r' r'') :
    Counts r₀ r'' counted n where
  pending k := by rw [hright.pending, h.pending, hleft.pending]
  cumulativeShed cls := by rw [hright.cumulativeShed, h.cumulativeShed, hleft.cumulativeShed]
  cumulativeOversized := by
    rw [hright.cumulativeOversized, h.cumulativeOversized, hleft.cumulativeOversized]
  cumulativeResets := by rw [hright.cumulativeResets, h.cumulativeResets, hleft.cumulativeResets]
  cumulativePolls := by rw [hright.cumulativePolls, h.cumulativePolls, hleft.cumulativePolls]
  flushed := by rw [hright.flushed, h.flushed, hleft.flushed]
  reasons := h.reasons
  lost := h.lost

omit [F64 F] in
/-- The end of the loop puts its report on top of the restart. -/
theorem Counts.account {r r' : IngressReader F} {restart : Counter → ℕ} {report : PollReport}
    {blank : ℕ} (h : Counts r r' restart 0) (hbalanced : Balanced report blank) :
    Counts r (r'.account report report.backlogBefore) (fun k => report.count k + restart k)
      (if r'.limits.alertBacklogBoundBytes < report.backlogBefore then 1 else 0) where
  pending k := by
    have hk := h.pending k
    cases k <;> simp only [IngressReader.account, Pending.count, PollReport.count] at hk ⊢ <;> omega
  cumulativeShed cls := by
    have := h.cumulativeShed cls
    simp only [IngressReader.account, PollReport.count]
    omega
  cumulativeOversized := by
    have := h.cumulativeOversized
    simp only [IngressReader.account, PollReport.count]
    omega
  cumulativeResets := by
    have := h.cumulativeResets
    simp only [IngressReader.account, PollReport.count]
    omega
  cumulativePolls := by
    have := h.cumulativePolls
    simp only [IngressReader.account, decide_eq_true_eq]
    omega
  flushed := h.flushed
  reasons := by
    have hreport := hbalanced.reasons
    have hrestart := h.reasons
    simp only [PollReport.count, PerClass.sum_add]
    omega
  lost htruncated hreplaced := by
    simp only [PollReport.count, Nat.zero_add] at htruncated hreplaced ⊢
    exact h.lost htruncated hreplaced

/-- **What one poll counts, it puts into the books.** -/
theorem Counts.poll {r r' : IngressReader F} {call : PollCall} {report : PollReport}
    {decided : List Json} (hpoll : r.poll fromStr call = some (r', report, decided)) :
    Counts r r' (r.counted call report) (r.overBound call report) ∧
      Balanced report (r.blankLines fromStr call) := by
  have hempty : ∀ stop n level, Balanced
      { PollReport.empty with stop := stop, backlogBefore := n, level := level } 0 :=
    fun _ _ _ => ⟨rfl, rfl⟩
  unfold IngressReader.poll at hpoll
  unfold IngressReader.counted IngressReader.restartOf IngressReader.overBound
    IngressReader.blankLines
  cases hopened : call.opened with
  | none =>
    simp only [hopened, Option.some.injEq, Prod.mk.injEq] at hpoll
    obtain ⟨rfl, rfl, -⟩ := hpoll
    refine ⟨?_, hempty _ 0 0⟩
    have hsame : Counts r (r.refill call.now) (fun _ => 0) 0 :=
      ⟨fun _ => rfl, fun _ => rfl, rfl, rfl, rfl, rfl, rfl, fun _ _ => rfl⟩
    refine cast (congrArg (fun f => Counts r _ f 0) (funext fun k => ?_)) hsame
    cases k <;> rfl
  | some file =>
    have hbegin := (Counts.begin (r.refill call.now) file).same (.refill r call.now) (.refl _)
    have hrestarts : (r.refill call.now).restarts file = r.restarts file := rfl
    have hcount : ∀ k, restartCounts (r.refill call.now) (r.restarts file) k =
        match r.restarts file with
        | some replaced => restartCount replaced (r.lastLen - r.offset) k
        | none => 0 := by
      intro k
      cases r.restarts file <;> rfl
    have hlimits : ((r.refill call.now).begin file).limits = r.limits := by
      unfold IngressReader.begin
      cases (r.refill call.now).restarts file <;> rfl
    rw [hrestarts] at hbegin
    simp only [hopened] at hpoll
    simp only [Option.bind_some]
    split at hpoll
    · rename_i hseek
      simp only [Option.some.injEq, Prod.mk.injEq] at hpoll
      obtain ⟨rfl, rfl, -⟩ := hpoll
      rw [if_neg (by simp [hseek]), if_neg (by simp [hseek])]
      refine ⟨?_, hempty _ _ _⟩
      refine cast (congrArg (fun f => Counts r _ f 0) (funext fun k => ?_)) hbegin
      rw [hcount]
      cases k <;> simp [PollReport.count, IngressReader.loopStart, PollReport.empty]
    · rename_i hseek
      have hseek : file.seekOk = true := by simpa using hseek
      cases hrun : (((r.refill call.now).begin file).loopStart file).run fromStr call.turns with
      | none => rw [hrun] at hpoll; cases hpoll
      | some ended =>
        obtain ⟨s, stop⟩ := ended
        rw [hrun] at hpoll
        simp only [Option.map_some, Option.some.injEq, Prod.mk.injEq] at hpoll
        obtain ⟨rfl, rfl, -⟩ := hpoll
        have hsame : SameBooks ((r.refill call.now).begin file) s.reader := SameBooks.run hrun
        have hbalanced : Balanced s.report
            ((((r.refill call.now).begin file).loopStart file).blankLines fromStr call.turns) := by
          have := Balanced.run (hempty _ _ _) hrun
          rwa [Nat.zero_add] at this
        have hreport : Balanced
            { s.report with stop := some stop, backlogAfter := file.len - s.reader.offset }
            ((((r.refill call.now).begin file).loopStart file).blankLines fromStr call.turns) :=
          ⟨hbalanced.examined, hbalanced.reasons⟩
        rw [if_pos hseek]
        refine ⟨?_, hreport⟩
        have hcounts := (hbegin.same (.refl _) hsame).account hreport
        rw [hsame.limits, hlimits] at hcounts
        have hover : (if file.seekOk = true ∧ r.limits.alertBacklogBoundBytes <
            s.report.backlogBefore then 1 else 0) =
            (if r.limits.alertBacklogBoundBytes < s.report.backlogBefore then 1 else 0) := by
          simp [hseek]
        rw [hover]
        refine cast (congrArg (fun f => Counts r _ f _) (funext fun k => ?_)) hcounts
        rw [hcount]

/-! ## 5. The summaries -/

section Summaries

omit [F64 F]

variable {acts : List (Act F)} {r r' : IngressReader F} {k : Counter}

/-- The books after a poll. -/
theorem Books.polled (h : Books acts r) {counted : Counter → ℕ} {n : ℕ}
    (hcounts : Counts r r' counted n) (report : PollReport) (blank : ℕ) :
    Books (acts ++ [.polled counted n report blank]) r' where
  balance k := by
    have hk := h.balance k
    have hp := hcounts.pending k
    simp only [emitted_snoc, total_snoc, Act.records, Act.counted, List.map_nil, List.sum_nil]
    omega
  cumulativeShed cls := by
    rw [hcounts.cumulativeShed, h.cumulativeShed, total_snoc]
    rfl
  cumulativeOversized := by
    rw [hcounts.cumulativeOversized, h.cumulativeOversized, total_snoc]
    rfl
  cumulativeResets := by
    have hold := h.cumulativeResets
    have hnew := hcounts.cumulativeResets
    simp only [total_snoc, Act.counted]
    omega
  cumulativePolls := by
    rw [hcounts.cumulativePolls, h.cumulativePolls, overBoundTotal_snoc]
    rfl
  reasons := by
    have hold := h.reasons
    have hnew := hcounts.reasons
    have hrate := hcounts.pending .nonAlertRate
    have hbacklog := hcounts.pending .backlog
    have hshed : r'.pending.shed = fun cls => r.pending.shed cls + counted (.shed cls) :=
      funext fun cls => hcounts.pending (.shed cls)
    rw [hshed, PerClass.sum_add]
    simp only [Pending.count] at hrate hbacklog
    omega
  lost htruncated hreplaced := by
    have ht := hcounts.pending .truncation
    have hr := hcounts.pending .replacement
    have hl := hcounts.pending .unreadLost
    simp only [Pending.count] at ht hr hl
    have hold := h.lost (by omega) (by omega)
    have hnew := hcounts.lost (by omega) (by omega)
    omega

/-- Nothing is pending on the shed side. -/
theorem Books.nothing_pending (h : Books acts r) (hzero : r.pending.shedSideNonzero = false) :
    r.pending.count k = 0 := by
  simp only [Pending.shedSideNonzero, Bool.or_eq_false_iff, decide_eq_false_iff_not, not_lt,
    Nat.le_zero] at hzero
  obtain ⟨⟨⟨hshed, hoversized⟩, htruncated⟩, hreplaced⟩ := hzero
  have hreasons := h.reasons
  have hlost := h.lost htruncated hreplaced
  have hclass : ∀ cls, r.pending.shed cls = 0 := by
    intro cls
    simp only [PerClass.sum, shedClasses, List.map_cons, List.map_nil, List.sum_cons,
      List.sum_nil] at hshed
    cases cls <;> omega
  cases k <;> simp only [Pending.count] <;> first | exact hclass _ | omega

/-- The first half of the summaries takes the shed side out of `pending`, all of it or nothing. -/
theorem summariseShed_moves (r : IngressReader F) (now : ℕ) (nowEpoch : F) (atShutdown : Bool)
    (k : Counter) :
    ((r.summariseShed now nowEpoch atShutdown).2.map (·.count k)).sum +
      (r.summariseShed now nowEpoch atShutdown).1.pending.count k = r.pending.count k := by
  unfold IngressReader.summariseShed
  split
  · cases k <;> simp [Summary.count, IngressShed.count, IngressReader.shedRecord, Pending.count,
      Pending.empty]
  · simp

/-- The second half takes nothing of it. -/
theorem summariseAlerts_moves (r : IngressReader F) (now : ℕ) (nowEpoch : F) (atShutdown : Bool)
    (k : Counter) :
    ((r.summariseAlerts now nowEpoch atShutdown).2.map (·.count k)).sum = 0 ∧
      (r.summariseAlerts now nowEpoch atShutdown).1.pending.count k = r.pending.count k := by
  unfold IngressReader.summariseAlerts
  split
  · exact ⟨rfl, by cases k <;> rfl⟩
  · exact ⟨rfl, rfl⟩

theorem summaries_moves (r : IngressReader F) (now : ℕ) (nowEpoch : F) (atShutdown : Bool)
    (k : Counter) :
    ((r.summaries now nowEpoch atShutdown).2.map (·.count k)).sum +
      (r.summaries now nowEpoch atShutdown).1.pending.count k = r.pending.count k := by
  have hfirst := summariseShed_moves r now nowEpoch atShutdown k
  have hsecond := summariseAlerts_moves (r.summariseShed now nowEpoch atShutdown).1 now nowEpoch
    atShutdown k
  simp only [IngressReader.summaries, List.map_append, List.sum_append]
  omega

/-- What the summaries leave alone. -/
theorem summaries_leaves {β : Type} {g : IngressReader F → β}
    (hg : ∀ (x : IngressReader F) pending shedEmit alertEmit, g { x with
      pending := pending, lastShedEmit := shedEmit, lastAlertEmit := alertEmit } = g x)
    (r : IngressReader F) (now : ℕ) (nowEpoch : F) (atShutdown : Bool) :
    g (r.summaries now nowEpoch atShutdown).1 = g r := by
  have hfirst : g (r.summariseShed now nowEpoch atShutdown).1 = g r := by
    unfold IngressReader.summariseShed
    split
    · exact hg r _ _ r.lastAlertEmit
    · rfl
  rw [← hfirst, IngressReader.summaries]
  generalize (r.summariseShed now nowEpoch atShutdown).1 = x
  unfold IngressReader.summariseAlerts
  split
  · exact hg x _ x.lastShedEmit _
  · rfl

/-- What stays pending is what was, or nothing of the shed side. -/
theorem summaries_pending (r : IngressReader F) (now : ℕ) (nowEpoch : F) (atShutdown : Bool) :
    (∀ k, (r.summaries now nowEpoch atShutdown).1.pending.count k = r.pending.count k) ∨
      ∀ k, (r.summaries now nowEpoch atShutdown).1.pending.count k = 0 := by
  have hsecond := summariseAlerts_moves (r.summariseShed now nowEpoch atShutdown).1 now nowEpoch
    atShutdown
  have hfirst : (r.summariseShed now nowEpoch atShutdown).1 = r ∨
      ∀ k, (r.summariseShed now nowEpoch atShutdown).1.pending.count k = 0 := by
    unfold IngressReader.summariseShed
    split
    · exact Or.inr fun k => by cases k <;> rfl
    · exact Or.inl rfl
  rcases hfirst with hsame | hnone
  · refine Or.inl fun k => ?_
    rw [IngressReader.summaries, (hsecond k).2, hsame]
  · refine Or.inr fun k => ?_
    rw [IngressReader.summaries, (hsecond k).2, hnone]

/-- **The cumulative fields of every record are the totals of its moment.** -/
theorem Books.cumulates (h : Books acts r) (now : ℕ) (nowEpoch : F) (atShutdown : Bool) :
    ∀ s ∈ (r.summaries now nowEpoch atShutdown).2, s.Cumulates acts := by
  intro s hs
  have hpolls : (r.summariseShed now nowEpoch atShutdown).1.cumulativeAlertBacklogPolls =
      overBoundTotal acts := by
    rw [← h.cumulativePolls]
    unfold IngressReader.summariseShed
    split <;> rfl
  rcases List.mem_append.mp hs with hs | hs
  · unfold IngressReader.summariseShed at hs
    split at hs
    · obtain rfl := List.mem_singleton.mp hs
      refine ⟨h.cumulativeShed, ?_, h.cumulativeOversized, h.cumulativeResets⟩
      exact congrArg PerClass.sum (funext h.cumulativeShed)
    · cases hs
  · unfold IngressReader.summariseAlerts at hs
    split at hs
    · obtain rfl := List.mem_singleton.mp hs
      exact hpolls
    · cases hs

/-- The books after a call that counts nothing. -/
theorem Books.after (h : Books acts r) {a : Act F} (hcounted : a.counted = fun _ => 0)
    (hover : a.overBound = 0)
    (hbalance : ∀ k, (a.records.map (·.count k)).sum + r'.pending.count k = r.pending.count k)
    (htotals : ∀ {β : Type} {g : IngressReader F → β},
      (∀ (x : IngressReader F) pending shedEmit alertEmit flushed, g { x with
        pending := pending, lastShedEmit := shedEmit, lastAlertEmit := alertEmit,
        shutdownFlushed := flushed } = g x) → g r' = g r)
    (hpending : (∀ k, r'.pending.count k = r.pending.count k) ∨ ∀ k, r'.pending.count k = 0) :
    Books (acts ++ [a]) r' := by
  have htotal : ∀ k, total (acts ++ [a]) k = total acts k := fun k => by
    rw [total_snoc, hcounted, Nat.add_zero]
  have hp : r'.pending.shedRate + r'.pending.shedBacklog = r'.pending.shed.sum ∧
      (r'.pending.truncationResets = 0 → r'.pending.fileReplacements = 0 →
        r'.pending.unreadBytesLost = 0) := by
    rcases hpending with hsame | hnone
    · have hclass : r'.pending.shed = r.pending.shed := funext fun cls => hsame (.shed cls)
      have hrate : r'.pending.shedRate = r.pending.shedRate := hsame .nonAlertRate
      have hbacklog : r'.pending.shedBacklog = r.pending.shedBacklog := hsame .backlog
      have htruncated : r'.pending.truncationResets = r.pending.truncationResets :=
        hsame .truncation
      have hreplaced : r'.pending.fileReplacements = r.pending.fileReplacements :=
        hsame .replacement
      have hlost : r'.pending.unreadBytesLost = r.pending.unreadBytesLost := hsame .unreadLost
      rw [hclass, hrate, hbacklog, htruncated, hreplaced, hlost]
      exact ⟨h.reasons, h.lost⟩
    · have hclass : r'.pending.shed = fun _ => 0 := funext fun cls => hnone (.shed cls)
      have hrate : r'.pending.shedRate = 0 := hnone .nonAlertRate
      have hbacklog : r'.pending.shedBacklog = 0 := hnone .backlog
      rw [hclass, hrate, hbacklog]
      exact ⟨rfl, fun _ _ => hnone .unreadLost⟩
  refine ⟨fun k => ?_, fun cls => ?_, ?_, ?_, ?_, hp.1, hp.2⟩
  · have hmoves := hbalance k
    have hk := h.balance k
    rw [htotal, emitted_snoc]
    omega
  · rw [htotal, ← h.cumulativeShed]
    exact congrFun (htotals (g := (·.cumulativeShed)) fun _ _ _ _ _ => rfl) cls
  · rw [htotal, ← h.cumulativeOversized]
    exact htotals (g := (·.cumulativeOversized)) fun _ _ _ _ _ => rfl
  · rw [htotal, htotal, ← h.cumulativeResets]
    exact htotals (g := (·.cumulativeResets)) fun _ _ _ _ _ => rfl
  · rw [overBoundTotal_snoc, hover, Nat.add_zero, ← h.cumulativePolls]
    exact htotals (g := (·.cumulativeAlertBacklogPolls)) fun _ _ _ _ _ => rfl

end Summaries

/-! ## 6. Whole runs -/

variable {acts before after : List (Act F)} {records : List (Summary F)} {r r' : IngressReader F}
  {a : Act F}

/-- A reader that has been flushed says nothing more, whatever it is called for. -/
theorem Step.silent (hstep : Step fromStr r a r') (hflushed : r.shutdownFlushed = true) :
    a.records = [] ∧ r'.shutdownFlushed = true := by
  cases hstep with
  | poll _ call report decided hpoll =>
    exact ⟨rfl, (Counts.poll hpoll).1.flushed.trans hflushed⟩
  | auditRecords now nowEpoch =>
    simp only [Act.records, IngressReader.auditRecords, if_pos hflushed]
    exact ⟨trivial, hflushed⟩
  | shutdownRecords now nowEpoch =>
    simp only [Act.records, IngressReader.shutdownRecords, if_pos hflushed]
    exact ⟨trivial, hflushed⟩

/-- **Every call keeps the books**, and its records show the totals of the calls before it. -/
theorem Books.step (h : Books acts r) (hstep : Step fromStr r a r') :
    Books (acts ++ [a]) r' ∧ ∀ s ∈ a.records, s.Cumulates acts := by
  have silent : ∀ {a : Act F}, a.records = [] → a.counted = (fun _ => 0) → a.overBound = 0 →
      Books (acts ++ [a]) r ∧ ∀ s ∈ a.records, s.Cumulates acts := by
    intro a hrecords hcounted hover
    refine ⟨h.after hcounted hover (fun k => ?_) (fun _ => rfl) (Or.inl fun _ => rfl), ?_⟩
    · simp [hrecords]
    · simp [hrecords]
  cases hstep with
  | poll _ call report decided hpoll =>
    exact ⟨h.polled (Counts.poll hpoll).1 report _, fun s hs => by cases hs⟩
  | auditRecords now nowEpoch =>
    unfold IngressReader.auditRecords
    split
    · exact silent rfl rfl rfl
    · exact ⟨h.after rfl rfl (summaries_moves r now nowEpoch false)
        (fun hg => summaries_leaves (fun x p s a => hg x p s a x.shutdownFlushed) r now nowEpoch false)
        (summaries_pending r now nowEpoch false), h.cumulates now nowEpoch false⟩
  | shutdownRecords now nowEpoch =>
    unfold IngressReader.shutdownRecords
    split
    · exact silent rfl rfl rfl
    · have hmarked : Books acts { r with shutdownFlushed := true } :=
        ⟨h.balance, h.cumulativeShed, h.cumulativeOversized, h.cumulativeResets,
          h.cumulativePolls, h.reasons, h.lost⟩
      refine ⟨h.after rfl rfl (summaries_moves { r with shutdownFlushed := true } now nowEpoch true)
        (fun hg => ?_) (summaries_pending { r with shutdownFlushed := true } now nowEpoch true),
        hmarked.cumulates now nowEpoch true⟩
      exact (summaries_leaves (fun x p s a => hg x p s a x.shutdownFlushed)
        { r with shutdownFlushed := true } now nowEpoch true).trans
        (hg r r.pending r.lastShedEmit r.lastAlertEmit true)

theorem Books.new (offset : ℕ) (limits : IngressLimits) :
    Books [] (IngressReader.new offset limits : IngressReader F) :=
  ⟨fun k => by cases k <;> rfl, fun _ => rfl, rfl, rfl, rfl, rfl, fun _ _ => rfl⟩

/-- The books of every run. -/
theorem books_run {offset : ℕ} {limits : IngressLimits}
    (h : Run (Step fromStr) (IngressReader.new offset limits) acts r) : Books acts r :=
  h.history (fun _ _ _ _ hbooks hstep => (hbooks.step hstep).1) (Books.new offset limits)

/-- Until the flush the reader is not flushed. -/
theorem Step.unflushed (hstep : Step fromStr r a r') (ha : a.isFlush = false)
    (h : r.shutdownFlushed = false) : r'.shutdownFlushed = false := by
  cases hstep with
  | poll _ call report decided hpoll => exact (Counts.poll hpoll).1.flushed.trans h
  | auditRecords now nowEpoch =>
    unfold IngressReader.auditRecords
    split
    · exact h
    · exact (summaries_leaves (g := (·.shutdownFlushed)) (fun _ _ _ _ => rfl) r now nowEpoch
        false).trans h
  | shutdownRecords => cases ha

omit [F64 F] in
/-- **The flush leaves nothing of the shed side pending.** -/
theorem Books.flush (h : Books acts r) (hopen : r.shutdownFlushed = false) (now : ℕ) (nowEpoch : F)
    (k : Counter) :
    emitted (acts ++ [.flushed (r.shutdownRecords now nowEpoch).2]) k = total acts k := by
  have hk := h.balance k
  have hmoves := summaries_moves { r with shutdownFlushed := true } now nowEpoch true k
  have hzero : ({ r with shutdownFlushed := true }.summaries now nowEpoch true).1.pending.count k
      = 0 := by
    rw [IngressReader.summaries, (summariseAlerts_moves _ now nowEpoch true k).2]
    unfold IngressReader.summariseShed
    split
    · cases k <;> rfl
    · rename_i hnothing
      have hnone : r.pending.shedSideNonzero = false := by simpa using hnothing
      exact h.nothing_pending hnone
  have hsame : { r with shutdownFlushed := true }.pending.count k = r.pending.count k := rfl
  rw [emitted_snoc, Act.records, IngressReader.shutdownRecords, if_neg (by simp [hopen])]
  omega

/-- Nothing is emitted after a flush. -/
theorem silent_run (h : Run (Step fromStr) r acts r') (hflushed : r.shutdownFlushed = true) :
    ∀ a ∈ acts, a.records = [] := by
  induction h with
  | refl => exact fun _ ha => by cases ha
  | head hstep _ ih =>
    obtain ⟨hnone, hstill⟩ := hstep.silent hflushed
    intro a ha
    rcases List.mem_cons.mp ha with rfl | ha
    · exact hnone
    · exact ih hstill a ha

omit [F64 F] in
theorem emitted_silent (h : ∀ a ∈ after, a.records = []) (k : Counter) :
    emitted (acts ++ after) k = emitted acts k := by
  have hnone : after.flatMap (·.records) = [] := List.flatMap_eq_nil_iff.mpr h
  rw [emitted, List.flatMap_append, hnone, List.append_nil, emitted]

/-- **The ingress audit conserves its counts.**  For every run of a new reader up to its first
shutdown flush and beyond it: the records emitted report, of every count, exactly what the polls
before the flush counted; the cumulative fields of every record are the totals at its emission;
of every poll the lines examined are those admitted, shed, oversized and blank; and nothing is
emitted after the flush. -/
theorem ingress_counts_conserved (fromStr : List Char → Option Json) (offset : ℕ)
    (limits : IngressLimits)
    (h : Run (Step fromStr) (IngressReader.new offset limits) (before ++ .flushed records :: after) r)
    (hfirst : ∀ a ∈ before, a.isFlush = false) :
    (∀ k, emitted (before ++ .flushed records :: after) k = total before k) ∧
    (∀ acts a acts', before ++ .flushed records :: after = acts ++ a :: acts' →
      ∀ s ∈ a.records, s.Cumulates acts) ∧
    (∀ counted overBound report blankLines,
      .polled counted overBound report blankLines ∈ before ++ .flushed records :: after →
      report.examined = report.admitted + report.shed.sum + report.oversized + blankLines) ∧
    ∀ a ∈ after, a.records = [] := by
  have hstep : ∀ {acts a acts'}, before ++ .flushed records :: after = acts ++ a :: acts' →
      ∃ u v, Run (Step fromStr) (IngressReader.new offset limits) acts u ∧ Step fromStr u a v ∧
        Run (Step fromStr) v acts' r := by
    intro acts a acts' heq
    obtain ⟨u, hleft, hright⟩ := (heq ▸ h).split
    cases hright with
    | head hone hrest => exact ⟨u, _, hleft, hone, hrest⟩
  obtain ⟨r₁, r₂, hbefore, hflush, hafter⟩ := hstep rfl
  have hopen : r₁.shutdownFlushed = false :=
    hbefore.history
      (P := fun acts r => (∀ a ∈ acts, a.isFlush = false) → r.shutdownFlushed = false)
      (fun acts _ a _ hP hone hno => hone.unflushed (hno a (by simp))
        (hP fun b hb => hno b (by simp [hb])))
      (fun _ => rfl) hfirst
  have hsilent : ∀ a ∈ after, a.records = [] := by
    refine silent_run hafter ?_
    cases hflush with
    | shutdownRecords now nowEpoch =>
      rw [IngressReader.shutdownRecords, if_neg (by simp [hopen])]
      exact summaries_leaves (g := (·.shutdownFlushed)) (fun _ _ _ _ => rfl) _ now nowEpoch true
  refine ⟨fun k => ?_, fun acts a acts' heq s hs => ?_, fun counted overBound report blank hmem => ?_,
    hsilent⟩
  · have hcut : before ++ Act.flushed records :: after = (before ++ [.flushed records]) ++ after := by
      simp
    rw [hcut, emitted_silent hsilent]
    cases hflush with
    | shutdownRecords now nowEpoch => exact (books_run hbefore).flush hopen now nowEpoch k
  · obtain ⟨u, v, hleft, hone, -⟩ := hstep heq
    exact ((books_run hleft).step hone).2 s hs
  · obtain ⟨acts, acts', heq⟩ := List.append_of_mem hmem
    obtain ⟨u, v, -, hone, -⟩ := hstep heq
    cases hone with
    | poll _ call _ decided hpoll => exact (Counts.poll hpoll).2.examined

/-! ### One line shed -/

def sampleFlowText : String := "\x7b\"event_type\":\"flow\"\x7d"

/-- The parser on the one text of the sample. -/
def sampleParse (text : List Char) : Option Json :=
  if text = sampleFlowText.toList then some (.obj [("event_type", .str "flow")]) else none

/-- Limits without a token to give. -/
def sampleLimits : IngressLimits := ⟨0, 0, 10, 10, 500000000, 1048576, 8388608, 268435456, 1000000000⟩

/-- A poll of a file that holds one flow line. -/
def sampleCall : PollCall where
  now := 0
  opened := some ⟨(1, 1), 22, true⟩
  turns := [⟨false, some ((sampleFlowText ++ "\n").toUTF8.toList)⟩, ⟨false, some []⟩]

def samplePolled : IngressReader ℚ × PollReport × List Json :=
  ((IngressReader.new 0 sampleLimits).poll sampleParse sampleCall).get (by decide +kernel)

/-- The poll as its caller sees it. -/
def samplePoll : Act ℚ :=
  .polled ((IngressReader.new 0 sampleLimits : IngressReader ℚ).counted sampleCall samplePolled.2.1)
    ((IngressReader.new 0 sampleLimits : IngressReader ℚ).overBound sampleCall samplePolled.2.1)
    samplePolled.2.1
    ((IngressReader.new 0 sampleLimits : IngressReader ℚ).blankLines sampleParse sampleCall)

theorem ingress_counts_conserved_sample :
    emitted [samplePoll, .flushed (samplePolled.1.shutdownRecords 0 0).2] (.shed .flow) = 1 := by
  have hpoll : Step sampleParse (IngressReader.new 0 sampleLimits) samplePoll samplePolled.1 :=
    Step.poll _ _ sampleCall _ samplePolled.2.2 (Option.some_get _).symm
  have hrun := (Run.single hpoll).snoc (Step.shutdownRecords samplePolled.1 0 0)
  have hconserved := (ingress_counts_conserved sampleParse 0
    sampleLimits hrun (by intro a ha; obtain rfl := List.mem_singleton.mp ha; rfl)).1 (.shed .flow)
  exact hconserved.trans (by decide +kernel)

end AzazelEdge.Ingress
