/-
# The quota of the lines that are no alerts

The reader's tokens are a token bucket: a poll refills it and its loop draws from it, one token for
each line that is no alert and is admitted.  Counted in exact rationals, the level stays between 0
and the burst, and what the polls of a window admit is at most the burst and what flows in between
the first of them and the last.  A class of a higher rank is admitted wherever a lower one is.
-/
import AzazelEdge.Ingress.Audit
import AzazelEdge.Lib.TokenBucket
import Mathlib.Tactic.FieldSimp
import Mathlib.Tactic.GCongr
import Mathlib.Tactic.Positivity
import Mathlib.Tactic.Ring

namespace AzazelEdge.Ingress

open AzazelEdge.Lib

variable {fromStr : List Char → Option Json}

/-! ## 1. The classes -/

/-- A line of the class is admitted. -/
def Loop.Admits (s : Loop ℚ) (cls : ShedClass) : Prop :=
  ∀ parsed, (s.offer cls parsed).report.admitted = s.report.admitted + 1

theorem ShedClass.reserve_eq (cls : ShedClass) (burst : ℕ) :
    (cls.reserve burst : ℚ) = ((3 - min cls.rank 3 : ℕ) : ℚ) * burst / 8 := by
  simp only [ShedClass.reserve, F64.div, F64.mul, F64.ofNat]
  norm_num

theorem ShedClass.reserve_nonneg (cls : ShedClass) (burst : ℕ) :
    (0 : ℚ) ≤ cls.reserve burst := by
  rw [ShedClass.reserve_eq]
  positivity

/-- The reserve of a class falls with its rank. -/
theorem ShedClass.reserve_anti {cls cls' : ShedClass} (h : cls.rank ≤ cls'.rank) (burst : ℕ) :
    (cls'.reserve burst : ℚ) ≤ cls.reserve burst := by
  rw [ShedClass.reserve_eq, ShedClass.reserve_eq]
  have hrank : 3 - min cls'.rank 3 ≤ 3 - min cls.rank 3 := by omega
  gcongr

/-- **Everything an offered line can come to.** -/
theorem Loop.offer_cases (s : Loop ℚ) (cls : ShedClass) (parsed : Option Json) :
    (isShed cls s.report.level = false ∧
      cls.reserve s.reader.limits.nonAlertBurst + 1 ≤ s.reader.tokens ∧
      s.offer cls parsed =
        { s with reader := { s.reader with tokens := s.reader.tokens - 1 } }.admitLine parsed) ∨
    (¬ (isShed cls s.report.level = false ∧
      cls.reserve s.reader.limits.nonAlertBurst + 1 ≤ s.reader.tokens) ∧
      ∃ byBacklog, s.offer cls parsed = s.shed cls byBacklog) := by
  have hle : (F64.le (F64.add (cls.reserve s.reader.limits.nonAlertBurst) (F64.ofNat 1))
      s.reader.tokens = true) ↔
        cls.reserve s.reader.limits.nonAlertBurst + 1 ≤ s.reader.tokens := by
    simp only [F64.le, F64.add, F64.ofNat, decide_eq_true_eq, Nat.cast_one]
  unfold Loop.offer
  cases hlevel : isShed cls s.report.level with
  | true =>
    rw [if_pos rfl]
    exact .inr ⟨fun h => Bool.noConfusion h.1, true, rfl⟩
  | false =>
    rw [if_neg (by decide)]
    by_cases htokens : cls.reserve s.reader.limits.nonAlertBurst + 1 ≤ s.reader.tokens
    · rw [if_pos (hle.mpr htokens)]
      refine .inl ⟨rfl, htokens, ?_⟩
      simp only [F64.sub, F64.ofNat, Nat.cast_one]
    · rw [if_neg (hle.not.mpr htokens)]
      exact .inr ⟨fun h => htokens h.2, false, rfl⟩

theorem Loop.admits_iff (s : Loop ℚ) (cls : ShedClass) :
    s.Admits cls ↔ isShed cls s.report.level = false ∧
      cls.reserve s.reader.limits.nonAlertBurst + 1 ≤ s.reader.tokens := by
  constructor
  · intro h
    rcases s.offer_cases cls none with ⟨hlevel, htokens, -⟩ | ⟨-, byBacklog, hshed⟩
    · exact ⟨hlevel, htokens⟩
    · have := h none
      rw [hshed] at this
      simp [Loop.shed] at this
  · intro h parsed
    rcases s.offer_cases cls parsed with ⟨-, -, hadmitted⟩ | ⟨hnot, -⟩
    · rw [hadmitted]
      rfl
    · exact absurd h hnot

/-- **A class of a higher rank is admitted wherever a lower one is.** -/
theorem Loop.Admits.mono {s : Loop ℚ} {cls cls' : ShedClass} (h : s.Admits cls)
    (hrank : cls.rank ≤ cls'.rank) : s.Admits cls' := by
  rw [Loop.admits_iff] at h ⊢
  have hreserve := ShedClass.reserve_anti hrank s.reader.limits.nonAlertBurst
  refine ⟨?_, by linarith [h.2]⟩
  have hlevel := h.1
  simp only [isShed, decide_eq_false_iff_not, not_lt] at hlevel ⊢
  omega

/-! ## 2. What a loop draws -/

/-- The lines that are no alerts and were admitted. -/
def PollReport.nonAlerts (report : PollReport) : ℚ := report.admitted - report.alertsAdmitted

theorem nonAlerts_zero {report : PollReport} (hadmitted : report.admitted = 0)
    (halerts : report.alertsAdmitted = 0) : report.nonAlerts = 0 := by
  rw [PollReport.nonAlerts, hadmitted, halerts, sub_self]

/-- What the loop did to the bucket: every token drawn is a line admitted. -/
structure Draws (s s' : Loop ℚ) : Prop where
  limits : s'.reader.limits = s.reader.limits
  lastRefill : s'.reader.lastRefill = s.reader.lastRefill
  sum : s'.report.nonAlerts + s'.reader.tokens = s.report.nonAlerts + s.reader.tokens
  drawn : s'.reader.tokens ≤ s.reader.tokens
  nonneg : 0 ≤ s.reader.tokens → 0 ≤ s'.reader.tokens

theorem Draws.refl (s : Loop ℚ) : Draws s s := ⟨rfl, rfl, rfl, le_refl _, id⟩

theorem Draws.trans {s s' s'' : Loop ℚ} (h : Draws s s') (h' : Draws s' s'') : Draws s s'' :=
  ⟨h'.limits.trans h.limits, h'.lastRefill.trans h.lastRefill, h'.sum.trans h.sum,
    h'.drawn.trans h.drawn, fun hs => h'.nonneg (h.nonneg hs)⟩

/-- A loop that leaves the bucket and the admitted lines alone. -/
theorem Draws.of_same {s s' : Loop ℚ} (hlimits : s'.reader.limits = s.reader.limits)
    (hlast : s'.reader.lastRefill = s.reader.lastRefill)
    (hreport : s'.report.nonAlerts = s.report.nonAlerts)
    (htokens : s'.reader.tokens = s.reader.tokens) : Draws s s' :=
  ⟨hlimits, hlast, by rw [hreport, htokens], htokens.le, fun h => htokens ▸ h⟩

/-- An offered line draws one token or none. -/
theorem Draws.offer (s : Loop ℚ) (cls : ShedClass) (parsed : Option Json) :
    Draws s (s.offer cls parsed) := by
  rcases s.offer_cases cls parsed with ⟨-, htokens, heq⟩ | ⟨-, byBacklog, heq⟩
  · have hreserve := cls.reserve_nonneg s.reader.limits.nonAlertBurst
    rw [heq]
    refine ⟨rfl, rfl, ?_, ?_, fun _ => ?_⟩
    · simp only [Loop.admitLine, PollReport.nonAlerts]
      push_cast
      ring
    · simp only [Loop.admitLine]
      linarith
    · simp only [Loop.admitLine]
      linarith
  · rw [heq]
    exact .of_same rfl rfl rfl rfl

/-- **One turn.** -/
theorem Draws.turn {s s' : Loop ℚ} {t : Turn} (h : s.turn fromStr t = .next s') : Draws s s' := by
  obtain ⟨bytes, -, ⟨-, rfl⟩ | ⟨-, -, rfl⟩ | ⟨-, -, -, rfl⟩⟩ := Loop.turn_next fromStr h
  · exact .of_same rfl rfl rfl rfl
  · unfold Loop.examine
    split
    · exact .of_same rfl rfl rfl rfl
    · rename_i parsed _
      split
      · refine .of_same rfl rfl ?_ rfl
        simp only [Loop.admitAlert, Loop.admitLine, Loop.advance, PollReport.nonAlerts]
        push_cast
        ring
      · rename_i cls _
        have hadvance : Draws s (s.advance bytes) := .of_same rfl rfl rfl rfl
        exact hadvance.trans (.offer _ cls parsed)
  · exact .of_same rfl rfl rfl rfl

/-- The turns that do not end the loop. -/
def turning (fromStr : List Char → Option Json) (s : Loop ℚ) (t : Turn) (s' : Loop ℚ) : Prop :=
  s.turn fromStr t = .next s'

/-- **Any number of turns.** -/
theorem Draws.turns {s s' : Loop ℚ} {turns : List Turn} (h : Run (turning fromStr) s turns s') :
    Draws s s' :=
  h.relates (I := fun _ => True) (fun _ _ _ _ _ => trivial) Draws.refl (fun _ _ _ => Draws.trans)
    (fun _ _ _ _ => Draws.turn) trivial

/-- The loop that breaks has turned. -/
theorem Loop.run_turns {stop : PollStop} : ∀ {turns : List Turn} {s s' : Loop ℚ},
    s.run fromStr turns = some (s', stop) → ∃ before, Run (turning fromStr) s before s'
  | [], _, _, hrun => by cases hrun
  | t :: rest, s, s', hrun => by
    rw [Loop.run] at hrun
    split at hrun
    · cases hrun
      exact ⟨[], Run.refl s⟩
    · rename_i next hturn
      obtain ⟨before, hbefore⟩ := Loop.run_turns hrun
      exact ⟨t :: before, Run.head hturn hbefore⟩

/-! ## 3. What a poll draws -/

/-- An instant in seconds. -/
def seconds (ns : ℕ) : ℚ := ns / 1000000000

theorem asSecsF64_eq (ns : ℕ) : (IngressReader.asSecsF64 ns : ℚ) = seconds ns := by
  have hsplit : (ns : ℚ) = 1000000000 * ((ns / 1000000000 : ℕ) : ℚ) + ((ns % 1000000000 : ℕ) : ℚ) := by
    exact_mod_cast (Nat.div_add_mod ns 1000000000).symm
  simp only [IngressReader.asSecsF64, F64.add, F64.div, F64.ofNat, seconds]
  rw [hsplit]
  push_cast
  ring

/-- The tokens are between 0 and the burst. -/
def InBounds (r : IngressReader ℚ) : Prop :=
  0 ≤ r.tokens ∧ r.tokens ≤ r.limits.nonAlertBurst

/-- The reader's bucket.  It is full before the first poll, so it does not matter when it counts as
filled. -/
def bucket (r : IngressReader ℚ) : TokenBucket ℚ := ⟨r.tokens, seconds (r.lastRefill.getD 0)⟩

theorem InBounds.refill {r : IngressReader ℚ} (h : InBounds r) (now : ℕ) :
    InBounds (r.refill now) := by
  obtain ⟨hnonneg, -⟩ := h
  have hburst : (0 : ℚ) ≤ r.limits.nonAlertBurst := Nat.cast_nonneg _
  unfold InBounds IngressReader.refill
  cases r.lastRefill with
  | none => exact ⟨hburst, le_refl _⟩
  | some last =>
    simp only [F64.min, F64.add, F64.mul, F64.ofNat, asSecsF64_eq, seconds]
    exact ⟨le_min (by positivity) hburst, min_le_right _ _⟩

/-- A state in the loop of a poll. -/
def Visited (fromStr : List Char → Option Json) (r : IngressReader ℚ) (now : ℕ) (s : Loop ℚ) : Prop :=
  ∃ file turns, Run (turning fromStr) (((r.refill now).begin file).loopStart file) turns s

theorem begin_bucket (r : IngressReader ℚ) (file : Opened) :
    (r.begin file).limits = r.limits ∧ (r.begin file).lastRefill = r.lastRefill ∧
      (r.begin file).tokens = r.tokens := by
  unfold IngressReader.begin
  cases r.restarts file with
  | none => exact ⟨rfl, rfl, rfl⟩
  | some replaced => exact ⟨rfl, rfl, rfl⟩

/-- What a poll, or the part of one so far, did to the bucket since the refill. -/
theorem Visited.draws {r : IngressReader ℚ} {now : ℕ} {s : Loop ℚ} (h : Visited fromStr r now s) :
    s.reader.limits = r.limits ∧ s.reader.lastRefill = some now ∧
      s.report.nonAlerts + s.reader.tokens = (r.refill now).tokens ∧
      s.reader.tokens ≤ (r.refill now).tokens ∧
      (0 ≤ (r.refill now).tokens → 0 ≤ s.reader.tokens) := by
  obtain ⟨file, turns, hrun⟩ := h
  obtain ⟨hlimits, hlast, htokens⟩ := begin_bucket (r.refill now) file
  have hdraws := Draws.turns hrun
  have hsum := hdraws.sum
  have hdrawn := hdraws.drawn
  have hnonneg := hdraws.nonneg
  have hstart : (((r.refill now).begin file).loopStart file).report.nonAlerts = 0 :=
    nonAlerts_zero rfl rfl
  have htokens' : (((r.refill now).begin file).loopStart file).reader.tokens =
      (r.refill now).tokens := htokens
  rw [hstart, htokens', zero_add] at hsum
  rw [htokens'] at hdrawn hnonneg
  exact ⟨hdraws.limits.trans hlimits, hdraws.lastRefill.trans hlast, hsum, hdrawn, hnonneg⟩

/-- **What a poll does to the bucket.** -/
theorem poll_draws {r r' : IngressReader ℚ} {call : PollCall} {report : PollReport}
    {decided : List Json} (h : r.poll fromStr call = some (r', report, decided)) :
    r'.limits = r.limits ∧ r'.lastRefill = some call.now ∧
      report.nonAlerts + r'.tokens = (r.refill call.now).tokens ∧
      r'.tokens ≤ (r.refill call.now).tokens ∧
      (0 ≤ (r.refill call.now).tokens → 0 ≤ r'.tokens) := by
  unfold IngressReader.poll at h
  split at h
  · cases h
    exact ⟨rfl, rfl, by rw [nonAlerts_zero rfl rfl, zero_add], le_refl _, id⟩
  · rename_i file _
    split at h
    · cases h
      obtain ⟨hlimits, hlast, htokens⟩ := begin_bucket (r.refill call.now) file
      refine ⟨hlimits, hlast, ?_, htokens.le, fun hr => htokens ▸ hr⟩
      rw [nonAlerts_zero rfl rfl, zero_add, htokens]
    · obtain ⟨⟨s, stop⟩, hrun, heq⟩ := Option.map_eq_some_iff.mp h
      cases heq
      obtain ⟨before, hbefore⟩ := Loop.run_turns hrun
      have hvisited : Visited fromStr r call.now s := ⟨file, before, hbefore⟩
      exact hvisited.draws

/-! ## 4. Runs -/

/-- What the service does with its reader: polls, and summaries in between. -/
inductive Serves (fromStr : List Char → Option Json) :
    IngressReader ℚ → Option (PollCall × PollReport) → IngressReader ℚ → Prop
  | poll (r r' : IngressReader ℚ) (call : PollCall) (report : PollReport) (decided : List Json)
      (hpoll : r.poll fromStr call = some (r', report, decided)) :
      Serves fromStr r (some (call, report)) r'
  | audit (r : IngressReader ℚ) (now : ℕ) (nowEpoch : ℚ) :
      Serves fromStr r none (r.auditRecords now nowEpoch).1
  | shutdown (r : IngressReader ℚ) (now : ℕ) (nowEpoch : ℚ) :
      Serves fromStr r none (r.shutdownRecords now nowEpoch).1

/-- What holds of a reader with these limits whatever it did. -/
structure Kept (limits : IngressLimits) (r : IngressReader ℚ) : Prop where
  limits : r.limits = limits
  bounds : InBounds r
  full : r.lastRefill = none → r.tokens = r.limits.nonAlertBurst

theorem Kept.new (offset : ℕ) (limits : IngressLimits) :
    Kept limits (IngressReader.new offset limits) :=
  ⟨rfl, ⟨Nat.cast_nonneg _, le_refl _⟩, fun _ => rfl⟩

/-- A summary leaves the bucket alone. -/
theorem serves_none {r r' : IngressReader ℚ} (h : Serves fromStr r none r') :
    r'.limits = r.limits ∧ r'.tokens = r.tokens ∧ r'.lastRefill = r.lastRefill := by
  have hsummaries : ∀ (x : IngressReader ℚ) (now : ℕ) (nowEpoch : ℚ) (atShutdown : Bool),
      ((x.summaries now nowEpoch atShutdown).1.limits, (x.summaries now nowEpoch atShutdown).1.tokens,
        (x.summaries now nowEpoch atShutdown).1.lastRefill) = (x.limits, x.tokens, x.lastRefill) :=
    summaries_leaves (g := fun x : IngressReader ℚ => (x.limits, x.tokens, x.lastRefill))
      fun _ _ _ _ => rfl
  cases h with
  | audit now nowEpoch =>
    unfold IngressReader.auditRecords
    split
    · exact ⟨rfl, rfl, rfl⟩
    · simpa using hsummaries r now nowEpoch false
  | shutdown now nowEpoch =>
    unfold IngressReader.shutdownRecords
    split
    · exact ⟨rfl, rfl, rfl⟩
    · simpa using hsummaries { r with shutdownFlushed := true } now nowEpoch true

theorem serves_some {r r' : IngressReader ℚ} {poll : PollCall × PollReport}
    (h : Serves fromStr r (some poll) r') :
    ∃ decided, r.poll fromStr poll.1 = some (r', poll.2, decided) := by
  cases h
  exact ⟨_, by assumption⟩

/-- **One step keeps the bounds.** -/
theorem Kept.step {limits : IngressLimits} {r r' : IngressReader ℚ}
    {l : Option (PollCall × PollReport)} (h : Kept limits r) (hstep : Serves fromStr r l r') :
    Kept limits r' := by
  cases l with
  | none =>
    obtain ⟨hlimits, htokens, hlast⟩ := serves_none hstep
    refine ⟨hlimits.trans h.limits, ?_, fun hnone => ?_⟩
    · rw [InBounds, htokens, hlimits]
      exact h.bounds
    · rw [htokens, hlimits]
      exact h.full (hlast ▸ hnone)
  | some poll =>
    obtain ⟨decided, hpoll⟩ := serves_some hstep
    obtain ⟨hlimits, hlast, -, hdrawn, hnonneg⟩ := poll_draws hpoll
    obtain ⟨hlevel, hburst⟩ := h.bounds.refill poll.1.now
    refine ⟨hlimits.trans h.limits, ⟨hnonneg hlevel, ?_⟩, fun hnone => ?_⟩
    · rw [hlimits]
      exact hdrawn.trans hburst
    · rw [hlast] at hnone
      cases hnone

end AzazelEdge.Ingress
