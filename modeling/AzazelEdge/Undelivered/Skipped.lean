/-
# State writes that are skipped

A tick that writes nothing should find the state in the file, but for the time of its write
(`SkipsAgree`).

What the thread remembers to have written and what the file has are the same, or the state has
counted something since: a line, a loss, or a failure (`InStep`).  A tick that skips finds nothing
counted, so the file is right.  Every turn keeps that, and the first tick that writes brings it about
(`InStep.of_changed`); without a tail that was cut it holds from the start.
-/
import AzazelEdge.Undelivered.State

namespace AzazelEdge.Undelivered

variable {T : Type}

/-! ## 1. What is counted -/

/-- The lines dealt with and the failures. -/
def SpoolState.accounted (s : SpoolState T) : ℕ := s.spooledTotal + s.lostTotal + s.syncFailures

theorem checkTail_accounted (w : Writer T) (segments : Segments) (answer : RepairAnswer) :
    (w.checkTail segments answer).1.state.accounted = w.state.accounted := by
  match answer with
  | .fine | .failed true | .failed false => rfl

theorem reopen_accounted (w : Writer T) (segments : Segments) (opened : Bool) :
    (w.reopen segments opened).1.state.accounted = w.state.accounted := by
  cases opened <;> rfl

theorem ensureRoom_accounted (w : Writer T) (segments : Segments) (incoming : ℕ) (a : Answers T) :
    (w.ensureRoom segments incoming a).1.state.accounted = w.state.accounted := by
  unfold Writer.ensureRoom
  split
  · split
    · rfl
    · exact reopen_accounted w segments a.opened
  · split
    · exact reopen_accounted (w.rotate segments).1 (w.rotate segments).2 a.opened
    · rfl

theorem lose_accounted (w : Writer T) : w.lose.state.accounted = w.state.accounted + 1 := by
  simp only [Writer.lose, SpoolState.accounted]
  omega

theorem append_accounted (w : Writer T) (segments : Segments) (line : Bytes) (a : Answers T) :
    (w.append segments line a).1.state.accounted = w.state.accounted + 1 := by
  unfold Writer.append
  simp only
  split
  · split
    · simp only [SpoolState.accounted]
      omega
    · rw [checkTail_accounted]
      exact lose_accounted w
  · rw [checkTail_accounted]
    exact lose_accounted w

/-- **A line is counted once.** -/
theorem writeLine_accounted (w : Writer T) (segments : Segments) (line : Bytes) (a : Answers T) :
    (w.writeLine segments line a).1.state.accounted = w.state.accounted + 1 := by
  have hnoted : (w.noteTime a.now).state.accounted = w.state.accounted := rfl
  unfold Writer.writeLine
  simp only
  split
  · exact lose_accounted (w.noteTime a.now)
  · obtain ⟨w₁, segments₁, heq, hsame⟩ : ∃ w₁ segments₁,
        (if (w.noteTime a.now).tailOk = true then (w.noteTime a.now, segments)
          else (w.noteTime a.now).checkTail segments a.before) = (w₁, segments₁) ∧
        w₁.state.accounted = w.state.accounted := by
      split
      · exact ⟨_, _, rfl, hnoted⟩
      · exact ⟨_, _, rfl, (checkTail_accounted _ segments a.before).trans hnoted⟩
    rw [heq]
    simp only
    split
    · rw [append_accounted, ensureRoom_accounted, hsame]
    · rw [lose_accounted, hsame]

/-! ## 2. States that agree -/

/-- The states are the same but for the time of their write. -/
def Agrees (a b : SpoolState T) : Prop := a = { b with lastWriteEpoch := a.lastWriteEpoch }

theorem Agrees.refl (a : SpoolState T) : Agrees a a := rfl

theorem Agrees.symm {a b : SpoolState T} (h : Agrees a b) : Agrees b a := by
  rw [Agrees, h]

theorem Agrees.trans {a b c : SpoolState T} (h : Agrees a b) (h' : Agrees b c) : Agrees a c := by
  rw [Agrees, h'] at h
  exact h

theorem Agrees.accounted {a b : SpoolState T} (h : Agrees a b) : a.accounted = b.accounted := by
  rw [h]
  rfl

theorem Agrees.repairedTails {a b : SpoolState T} (h : Agrees a b) :
    a.repairedTails = b.repairedTails := by
  rw [h]

variable [DecidableEq T]

theorem stateChanged_eq_false {a b : SpoolState T} : stateChanged a b = false ↔ Agrees a b := by
  rw [stateChanged, decide_eq_false_iff_not, not_not, Agrees]

/-! ## 3. One turn -/

namespace Thread

/-- The thread as it comes to its state tick, if it does. -/
def arrive (t : Thread T) (u : Turn T) : Option (Thread T) :=
  if t.ended then none
  else match u.message with
    | .line bytes a => some (((t.fold u.lost u.lostAt).line bytes a).sync u.sync)
    | .timeout => some ((t.fold u.lost u.lostAt).sync u.sync)
    | _ => none

end Thread

/-- A state tick that writes nothing. -/
def Skips (t : Thread T) (u : Turn T) : Prop :=
  ∃ t' tick, t.arrive u = some t' ∧ u.tick = some tick ∧
    stateChanged t'.lastWritten (t'.note tick).writer.state = false

omit [DecidableEq T] in
/-- Nothing is counted in this turn, on a segment that is open or not. -/
def Quiet (isOpen : Bool) (u : Turn T) : Prop :=
  u.lost = 0 ∧ u.message = .timeout ∧ ¬ (u.sync = some false ∧ isOpen = true)

variable {t t' : Thread T} {u : Turn T}

theorem turn_of_arrive (h : t.arrive u = some t') :
    t.turn u = match u.tick with
      | some tick => t'.tick tick
      | none => t' := by
  unfold Thread.arrive at h
  unfold Thread.turn
  split at h
  · cases h
  · rename_i hended
    rw [if_neg hended]
    split at h
    · rename_i hmessage
      cases h
      rw [hmessage]
      rfl
    · rename_i hmessage
      cases h
      rw [hmessage]
      rfl
    · cases h

theorem ended_of_not_arrive (h : t.arrive u = none) : (t.turn u).ended = true := by
  unfold Thread.arrive at h
  unfold Thread.turn
  split
  · assumption
  · rename_i hended
    rw [if_neg hended] at h
    cases hmessage : u.message with
    | line bytes a =>
      rw [hmessage] at h
      cases h
    | timeout =>
      rw [hmessage] at h
      cases h
    | stop lost unconfirmed now synced write => rfl
    | disconnected => rfl

omit [DecidableEq T] in
theorem fold_accounted (t : Thread T) (lost : ℕ) (now : T) :
    (t.fold lost now).writer.state.accounted = t.writer.state.accounted + lost := by
  unfold Thread.fold
  split
  · rename_i hzero
    rw [hzero]
    rfl
  · simp only [Writer.noteTime, SpoolState.accounted]
    omega

omit [DecidableEq T] in
theorem sync_accounted (t : Thread T) (synced : Option Bool) :
    (t.sync synced).writer.state.accounted = t.writer.state.accounted +
      if synced = some false ∧ t.writer.isOpen = true then 1 else 0 := by
  unfold Thread.sync Writer.sync
  match synced with
  | none => simp
  | some true => simp
  | some false =>
    by_cases hopen : t.writer.isOpen = true
    · simp only [hopen, Bool.not_false, Bool.and_self, if_true, and_self, SpoolState.accounted]
      omega
    · simp [hopen]

/-- **What a turn does before its tick**: it counts something, unless it is quiet. -/
structure Arrives (t t' : Thread T) (u : Turn T) : Prop where
  lastWritten : t'.lastWritten = t.lastWritten
  disk : t'.disk = t.disk
  le : t.writer.state.accounted ≤ t'.writer.state.accounted
  lt : ¬ Quiet t.writer.isOpen u → t.writer.state.accounted < t'.writer.state.accounted
  quiet : Quiet t.writer.isOpen u → t' = t

omit [DecidableEq T] in
/-- A fold leaves the segment open or not. -/
theorem fold_isOpen (t : Thread T) (lost : ℕ) (now : T) :
    (t.fold lost now).writer.isOpen = t.writer.isOpen := by
  unfold Thread.fold
  split <;> rfl

omit [DecidableEq T] in
theorem fold_leaves (t : Thread T) (lost : ℕ) (now : T) :
    (t.fold lost now).lastWritten = t.lastWritten ∧ (t.fold lost now).disk = t.disk := by
  unfold Thread.fold
  split <;> exact ⟨rfl, rfl⟩

omit [DecidableEq T] in
theorem sync_leaves (t : Thread T) (synced : Option Bool) :
    (t.sync synced).lastWritten = t.lastWritten ∧ (t.sync synced).disk = t.disk := by
  cases synced <;> exact ⟨rfl, rfl⟩

omit [DecidableEq T] in
theorem arrives_of_arrive (h : t.arrive u = some t') : Arrives t t' u := by
  obtain ⟨hfoldWritten, hfoldDisk⟩ := fold_leaves t u.lost u.lostAt
  have hfold := fold_accounted t u.lost u.lostAt
  unfold Thread.arrive at h
  split at h
  · cases h
  · split at h
    · rename_i bytes a hmessage
      cases h
      obtain ⟨hwritten, hdisk⟩ := sync_leaves ((t.fold u.lost u.lostAt).line bytes a) u.sync
      have hsync := sync_accounted ((t.fold u.lost u.lostAt).line bytes a) u.sync
      have hline : ((t.fold u.lost u.lostAt).line bytes a).writer.state.accounted =
          (t.fold u.lost u.lostAt).writer.state.accounted + 1 := writeLine_accounted _ _ bytes a
      refine ⟨hwritten.trans hfoldWritten, hdisk.trans hfoldDisk, by omega, fun _ => by omega, ?_⟩
      rintro ⟨-, htimeout, -⟩
      rw [hmessage] at htimeout
      cases htimeout
    · rename_i hmessage
      cases h
      obtain ⟨hwritten, hdisk⟩ := sync_leaves (t.fold u.lost u.lostAt) u.sync
      have hsync := sync_accounted (t.fold u.lost u.lostAt) u.sync
      rw [fold_isOpen] at hsync
      refine ⟨hwritten.trans hfoldWritten, hdisk.trans hfoldDisk, by omega, fun hloud => ?_, ?_⟩
      · by_cases hfailed : u.sync = some false ∧ t.writer.isOpen = true
        · rw [if_pos hfailed] at hsync
          omega
        · have hlost : u.lost ≠ 0 := fun hzero => hloud ⟨hzero, hmessage, hfailed⟩
          omega
      · rintro ⟨hlost, -, hsynced⟩
        have hsame : t.fold u.lost u.lostAt = t := by rw [Thread.fold, if_pos hlost]
        rw [hsame]
        unfold Thread.sync
        match hmatch : u.sync with
        | none => rfl
        | some true => simp [Writer.sync]
        | some false =>
          have hclosed : t.writer.isOpen = false := by
            by_contra hopen
            exact hsynced ⟨hmatch, by simpa using hopen⟩
          simp [Writer.sync, hclosed]
    · cases h

/-! ## 4. In step -/

/-- **The memory of the last write is in step with the file**, or something was counted since. -/
structure InStep (t : Thread T) : Prop where
  le : t.lastWritten.accounted ≤ t.writer.state.accounted
  agrees : Agrees t.lastWritten t.disk ∨ t.lastWritten.accounted < t.writer.state.accounted

/-- A thread that has ended has no more ticks. -/
def Settled (t : Thread T) : Prop := t.ended = true ∨ InStep t

omit [DecidableEq T] in
theorem InStep.arrive (h : InStep t) (harrives : Arrives t t' u) : InStep t' := by
  refine ⟨?_, ?_⟩
  · rw [harrives.lastWritten]
    exact h.le.trans harrives.le
  · rw [harrives.lastWritten, harrives.disk]
    exact h.agrees.imp_right fun hlt => hlt.trans_le harrives.le

/-- **A tick that writes brings file and memory in step.** -/
theorem InStep.of_changed {tick : Tick T} (hle : t.lastWritten.accounted ≤ t.writer.state.accounted)
    (hchanged : stateChanged t.lastWritten (t.note tick).writer.state = true) :
    InStep (t.tick tick) := by
  have hnoted : stateChanged (t.note tick).lastWritten (t.note tick).writer.state = true := hchanged
  simp only [Thread.tick, hnoted, if_true]
  unfold Thread.write
  match htick : tick.write with
  | .written => exact ⟨le_refl _, .inl rfl⟩
  | .failed renamed =>
    have hlt : t.lastWritten.accounted < t.writer.state.accounted + 1 := Nat.lt_succ_of_le hle
    exact ⟨hlt.le, .inr hlt⟩

theorem tick_of_skip {tick : Tick T}
    (hskip : stateChanged t.lastWritten (t.note tick).writer.state = false) :
    t.tick tick = t.note tick := by
  have hnoted : stateChanged (t.note tick).lastWritten (t.note tick).writer.state = false := hskip
  simp only [Thread.tick, hnoted, Bool.false_eq_true, if_false]

/-- **A tick keeps them in step.** -/
theorem InStep.tick (h : InStep t) (tick : Tick T) : InStep (t.tick tick) := by
  cases hchanged : stateChanged t.lastWritten (t.note tick).writer.state with
  | true => exact .of_changed h.le hchanged
  | false =>
    rw [tick_of_skip hchanged]
    exact ⟨h.le, h.agrees⟩

/-- **One turn keeps them in step.** -/
theorem Settled.turn (h : Settled t) (u : Turn T) : Settled (t.turn u) := by
  cases harrive : t.arrive u with
  | none => exact .inl (ended_of_not_arrive harrive)
  | some t' =>
    rcases h with hended | hinStep
    · unfold Thread.arrive at harrive
      rw [if_pos hended] at harrive
      cases harrive
    · have harrived := hinStep.arrive (arrives_of_arrive harrive)
      rw [turn_of_arrive harrive]
      cases u.tick with
      | none => exact .inr harrived
      | some tick => exact .inr (harrived.tick tick)

/-- The file has what the writer has, after this turn. -/
def FileAgrees (t : Thread T) (u : Turn T) : Prop :=
  Agrees (t.turn u).disk (t.turn u).writer.state

/-- **A thread that is in step skips rightly.** -/
theorem InStep.skip {tick : Tick T} (h : InStep t')
    (harrive : t.arrive u = some t') (htick : u.tick = some tick)
    (hskip : stateChanged t'.lastWritten (t'.note tick).writer.state = false) : FileAgrees t u := by
  have hagrees : Agrees t'.lastWritten (t'.note tick).writer.state := stateChanged_eq_false.mp hskip
  have hsame : t'.lastWritten.accounted = t'.writer.state.accounted := hagrees.accounted
  have hfile : Agrees t'.lastWritten t'.disk :=
    h.agrees.resolve_right fun hlt => absurd hsame hlt.ne
  rw [FileAgrees, turn_of_arrive harrive, htick]
  simp only [tick_of_skip hskip]
  exact hfile.symm.trans hagrees

theorem Settled.skips (h : Settled t) (hskips : Skips t u) : FileAgrees t u := by
  obtain ⟨t', tick, harrive, htick, hskip⟩ := hskips
  rcases h with hended | hinStep
  · unfold Thread.arrive at harrive
    rw [if_pos hended] at harrive
    cases harrive
  · exact (hinStep.arrive (arrives_of_arrive harrive)).skip harrive htick hskip

/-! ## 5. The start -/

/-- **Every tick that skips finds the file right.** -/
def SkipsAgree (t : Thread T) (us : List (Turn T)) : Prop :=
  ∀ before u after, us = before ++ u :: after → Skips (t.run before) u →
    FileAgrees (t.run before) u

/-- The repair at the start cut a partial line. -/
def CutAtStart (segments : Segments) (answer : RepairAnswer) : Prop :=
  answer = .fine ∧ ∃ bytes, segments.current = some bytes ∧ keep bytes ≠ bytes

omit [DecidableEq T] in
/-- Nothing is counted until the first state tick is over, and nothing is on its way at it. -/
def QuietStart (opened : Bool) (us : List (Turn T)) : Prop :=
  ∃ before u after tick, us = before ++ u :: after ∧
    (∀ v ∈ before, Quiet opened v ∧ v.tick = none) ∧ Quiet opened u ∧ u.tick = some tick ∧
      tick.pending = 0 ∧ tick.since = none

section Start

variable [Min T] {cap : ℕ} {parsed : Option (SpoolState T)} {loadedAt writtenAt : T}
  {segments : Segments} {opened : Bool} {answer : RepairAnswer} {us : List (Turn T)}

omit [DecidableEq T] in
/-- Nothing is on its way in the state of a start. -/
theorem startState_pending (parsed : Option (SpoolState T)) (loadedAt writtenAt : T) :
    (startState parsed loadedAt writtenAt).pendingAtLastWrite = 0 ∧
      (startState parsed loadedAt writtenAt).pendingSinceAtLastWrite = none := by
  unfold startState loadState
  split <;> exact ⟨rfl, rfl⟩

omit [Min T] [DecidableEq T] in
/-- The thread begins with what the writer has, and the file with what was written before. -/
theorem start_fields (cap : ℕ) (state : SpoolState T) (segments : Segments) (opened : Bool)
    (answer : RepairAnswer) :
    (Thread.start cap state segments opened answer).lastWritten =
        (Thread.start cap state segments opened answer).writer.state ∧
      (Thread.start cap state segments opened answer).disk = state ∧
      (Thread.start cap state segments opened answer).ended = false :=
  ⟨rfl, rfl, rfl⟩

omit [Min T] [DecidableEq T] in
/-- The segment that the start's repair is given. -/
def foundSegment (segments : Segments) (opened : Bool) : Option Bytes :=
  if opened then openSegment segments.current else segments.current

omit [Min T] [DecidableEq T] in
theorem start_repaired (cap : ℕ) (state : SpoolState T) (segments : Segments) (opened : Bool) :
    (Thread.start cap state segments opened .fine).writer.state = { state with
      repairedTails := state.repairedTails +
        if (foundSegment segments opened).map keep ≠ foundSegment segments opened then 1 else 0 } ∧
      (Thread.start cap state segments opened .fine).writer.isOpen = opened := by
  unfold foundSegment
  cases opened <;> simp [Thread.start, Writer.new, Writer.checkTail, repairTail]

/-- A repair cuts what is there, opened or not. -/
theorem cut_iff (segments : Segments) (opened : Bool) :
    (foundSegment segments opened).map keep ≠ foundSegment segments opened ↔
      ∃ bytes, segments.current = some bytes ∧ keep bytes ≠ bytes := by
  unfold foundSegment openSegment
  cases hcurrent : segments.current with
  | none =>
    have hempty : keep [] = [] := rfl
    cases opened <;> simp [hempty]
  | some bytes => cases opened <;> simp

omit [Min T] [DecidableEq T] in
/-- **What the start makes of the state**: only a cut tail is counted. -/
theorem start_cut (cap : ℕ) (state : SpoolState T) (opened : Bool)
    (hcut : CutAtStart segments answer) :
    (Thread.start cap state segments opened answer).writer.isOpen = opened ∧
      (Thread.start cap state segments opened answer).writer.state =
        { state with repairedTails := state.repairedTails + 1 } := by
  obtain ⟨rfl, hbytes⟩ := hcut
  obtain ⟨hstate, hopen⟩ := start_repaired cap state segments opened
  rw [if_pos ((cut_iff segments opened).mpr hbytes)] at hstate
  exact ⟨hopen, hstate⟩

omit [Min T] [DecidableEq T] in
theorem start_uncut (cap : ℕ) (state : SpoolState T) (opened : Bool)
    (hcut : ¬ CutAtStart segments answer) :
    (Thread.start cap state segments opened answer).writer.state = state := by
  match answer with
  | .failed cut => cases cut <;> rfl
  | .fine =>
    have hnot : ¬ ((foundSegment segments opened).map keep ≠ foundSegment segments opened) :=
      fun h => hcut ⟨rfl, (cut_iff segments opened).mp h⟩
    rw [(start_repaired cap state segments opened).1, if_neg hnot]
    rfl

omit [Min T] in
theorem run_append (t : Thread T) (us vs : List (Turn T)) : t.run (us ++ vs) = (t.run us).run vs := by
  rw [Thread.run, List.foldl_append]
  rfl

omit [Min T] in
/-- **The run lemma**: a settled thread skips rightly in every run. -/
theorem Settled.run (h : Settled t) (us : List (Turn T)) : Settled (t.run us) := by
  induction us generalizing t with
  | nil => exact h
  | cons u us ih => exact ih (h.turn u)

omit [Min T] in
/-- A quiet turn without a tick changes nothing. -/
theorem quiet_turn (hended : t.ended = false) (hquiet : Quiet t.writer.isOpen u)
    (htick : u.tick = none) : t.turn u = t := by
  cases harrive : t.arrive u with
  | none =>
    unfold Thread.arrive at harrive
    rw [hended, if_neg (by decide), hquiet.2.1] at harrive
    cases harrive
  | some t' =>
    rw [turn_of_arrive harrive, htick]
    exact (arrives_of_arrive harrive).quiet hquiet

omit [Min T] in
theorem quiet_run (hended : t.ended = false)
    (hquiet : ∀ v ∈ us, Quiet t.writer.isOpen v ∧ v.tick = none) : t.run us = t := by
  induction us with
  | nil => rfl
  | cons u us ih =>
    obtain ⟨hu, htick⟩ := hquiet u List.mem_cons_self
    have hsame := quiet_turn hended hu htick
    have hrun : t.run (u :: us) = (t.turn u).run us := rfl
    rw [hrun, hsame]
    exact ih fun v hv => hquiet v (List.mem_cons_of_mem _ hv)

omit [Min T] in
/-- A thread that remembers its own state, with nothing on its way: a tick skips just when there is
nothing on its way then either. -/
theorem skip_iff {tick : Tick T} (hwritten : t.lastWritten = t.writer.state)
    (hpending : t.writer.state.pendingAtLastWrite = 0)
    (hsince : t.writer.state.pendingSinceAtLastWrite = none) :
    stateChanged t.lastWritten (t.note tick).writer.state = false ↔
      tick.pending = 0 ∧ tick.since = none := by
  rw [stateChanged_eq_false, hwritten, Agrees]
  constructor
  · intro h
    have hp := congrArg SpoolState.pendingAtLastWrite h
    have hs := congrArg SpoolState.pendingSinceAtLastWrite h
    exact ⟨hp.symm.trans hpending, hs.symm.trans hsince⟩
  · rintro ⟨hp, hs⟩
    simp only [Thread.note, hp, hs, ← hpending, ← hsince]

omit [Min T] [DecidableEq T] in
/-- A quiet turn comes to its tick as it began. -/
theorem quiet_arrive (hended : t.ended = false) (hquiet : Quiet t.writer.isOpen u) :
    t.arrive u = some t := by
  cases harrive : t.arrive u with
  | none =>
    unfold Thread.arrive at harrive
    rw [hended, if_neg (by decide), hquiet.2.1] at harrive
    cases harrive
  | some t' => rw [(arrives_of_arrive harrive).quiet hquiet]

/-- The turn is quiet, and its tick, if it has one, finds nothing on its way. -/
def StillQuiet (isOpen : Bool) (u : Turn T) : Prop :=
  Quiet isOpen u ∧ ∀ tick, u.tick = some tick → tick.pending = 0 ∧ tick.since = none

omit [Min T] in
/-- **The first turn that is not quiet** settles the thread, and a tick in it skips rightly. -/
theorem settled_of_loud (hwritten : t.lastWritten = t.writer.state)
    (hpending : t.writer.state.pendingAtLastWrite = 0)
    (hsince : t.writer.state.pendingSinceAtLastWrite = none)
    (hloud : ¬ StillQuiet t.writer.isOpen u) :
    Settled (t.turn u) ∧ (Skips t u → FileAgrees t u) := by
  have hle : t.lastWritten.accounted ≤ t.writer.state.accounted := by rw [hwritten]
  cases harrive : t.arrive u with
  | none =>
    refine ⟨.inl (ended_of_not_arrive harrive), ?_⟩
    rintro ⟨t', tick, harrive', -⟩
    rw [harrive] at harrive'
    cases harrive'
  | some t' =>
    have harrives := arrives_of_arrive harrive
    by_cases hquiet : Quiet t.writer.isOpen u
    · -- only the tick can find something, so it writes
      obtain rfl := harrives.quiet hquiet
      obtain ⟨tick, htick, hfound⟩ : ∃ tick, u.tick = some tick ∧
          ¬ (tick.pending = 0 ∧ tick.since = none) := by
        by_contra hnone
        refine hloud ⟨hquiet, fun tick htick => ?_⟩
        by_contra hfound
        exact hnone ⟨tick, htick, hfound⟩
      have hchanged : stateChanged t'.lastWritten (t'.note tick).writer.state = true := by
        rw [← Bool.not_eq_false]
        exact (skip_iff hwritten hpending hsince).not.mpr hfound
      refine ⟨.inr ?_, ?_⟩
      · rw [turn_of_arrive harrive, htick]
        exact .of_changed hle hchanged
      · rintro ⟨t'', tick', harrive', htick', hskip⟩
        cases harrive.symm.trans harrive'
        cases htick.symm.trans htick'
        rw [hchanged] at hskip
        cases hskip
    · have hlt := harrives.lt hquiet
      rw [← hwritten, ← harrives.lastWritten] at hlt
      have hinStep : InStep t' := ⟨hlt.le, .inr hlt⟩
      refine ⟨.inr ?_, ?_⟩
      · rw [turn_of_arrive harrive]
        cases u.tick with
        | none => exact hinStep
        | some tick => exact hinStep.tick tick
      · rintro ⟨t'', tick, harrive', htick, hskip⟩
        cases harrive.symm.trans harrive'
        exact hinStep.skip harrive htick hskip

omit [Min T] in
/-- **Until something is found, all turns are quiet; from then on the thread is settled.** -/
theorem waiting_or_settled (hended : t.ended = false) (hwritten : t.lastWritten = t.writer.state)
    (hpending : t.writer.state.pendingAtLastWrite = 0)
    (hsince : t.writer.state.pendingSinceAtLastWrite = none)
    (hstart : ¬ QuietStart t.writer.isOpen us) {before after : List (Turn T)}
    (hus : us = before ++ after) :
    (∀ v ∈ before, Quiet t.writer.isOpen v ∧ v.tick = none) ∨ Settled (t.run before) := by
  induction before using List.reverseRecOn generalizing after with
  | nil => exact .inl fun v hv => by cases hv
  | append_singleton before u ih =>
    rw [List.append_assoc, List.singleton_append] at hus
    rw [run_append]
    rcases ih hus with hquiet | hsettled
    · rw [quiet_run hended hquiet]
      by_cases hu : StillQuiet t.writer.isOpen u
      · cases htick : u.tick with
        | none =>
          left
          intro v hv
          rcases List.mem_append.mp hv with hv | hv
          · exact hquiet v hv
          · rw [List.mem_singleton.mp hv]
            exact ⟨hu.1, htick⟩
        | some tick =>
          obtain ⟨hp, hs⟩ := hu.2 tick htick
          exact absurd ⟨before, u, after, tick, hus, hquiet, hu.1, htick, hp, hs⟩ hstart
      · exact .inr (settled_of_loud hwritten hpending hsince hu).1
    · exact .inr (hsettled.turn u)

omit [Min T] in
/-- A thread whose first tick is not quiet skips rightly, whatever its file had at the start. -/
theorem skips_of_not_quiet (hended : t.ended = false) (hwritten : t.lastWritten = t.writer.state)
    (hpending : t.writer.state.pendingAtLastWrite = 0)
    (hsince : t.writer.state.pendingSinceAtLastWrite = none)
    (hstart : ¬ QuietStart t.writer.isOpen us) : SkipsAgree t us := by
  intro before u after hus hskips
  rcases waiting_or_settled hended hwritten hpending hsince hstart hus with hquiet | hsettled
  · rw [quiet_run hended hquiet] at hskips ⊢
    refine (settled_of_loud hwritten hpending hsince fun hu => ?_).2 hskips
    obtain ⟨t', tick, -, htick, -⟩ := hskips
    obtain ⟨hp, hs⟩ := hu.2 tick htick
    exact hstart ⟨before, u, after, tick, hus, hquiet, hu.1, htick, hp, hs⟩
  · exact hsettled.skips hskips

/-- **When skipped state writes lose nothing.**  They lose the count of a tail that was cut at the
start, in a run that is quiet until its first state tick is over. -/
theorem skips_agree_iff (cap : ℕ) (parsed : Option (SpoolState T)) (loadedAt writtenAt : T)
    (segments : Segments) (opened : Bool) (answer : RepairAnswer) (us : List (Turn T)) :
    SkipsAgree (.start cap (startState parsed loadedAt writtenAt) segments opened answer) us ↔
      ¬ (CutAtStart segments answer ∧ QuietStart opened us) := by
  obtain ⟨hpending, hsince⟩ := startState_pending parsed loadedAt writtenAt
  generalize startState parsed loadedAt writtenAt = state at hpending hsince
  obtain ⟨hwritten, hdisk, hended⟩ := start_fields cap state segments opened answer
  by_cases hcut : CutAtStart segments answer
  · obtain ⟨hopen, hstate⟩ := start_cut cap state opened hcut
    generalize Thread.start cap state segments opened answer = t at *
    rw [← hopen]
    have hp : t.writer.state.pendingAtLastWrite = 0 := by rw [hstate, ← hpending]
    have hs : t.writer.state.pendingSinceAtLastWrite = none := by rw [hstate, ← hsince]
    constructor
    · rintro hagree ⟨-, before, u, after, tick, hus, hbefore, hquiet, htick, htickp, hticks⟩
      have hskip : stateChanged t.lastWritten (t.note tick).writer.state = false :=
        (skip_iff hwritten hp hs).mpr ⟨htickp, hticks⟩
      have harrive := quiet_arrive hended hquiet
      have hfile := hagree before u after hus
      rw [quiet_run hended hbefore] at hfile
      have hagrees := hfile ⟨t, tick, harrive, htick, hskip⟩
      rw [FileAgrees, turn_of_arrive harrive, htick] at hagrees
      simp only [tick_of_skip hskip] at hagrees
      -- the file has one repaired tail less
      have hrepaired : t.disk.repairedTails = t.writer.state.repairedTails := hagrees.repairedTails
      rw [hdisk, hstate] at hrepaired
      exact absurd hrepaired (Nat.ne_of_lt (Nat.lt_succ_self _))
    · intro hnot
      exact skips_of_not_quiet hended hwritten hp hs fun hquiet => hnot ⟨hcut, hquiet⟩
  · have hstate := start_uncut cap state opened hcut
    generalize Thread.start cap state segments opened answer = t at *
    refine iff_of_true (fun before u after _ hskips => ?_) fun h => hcut h.1
    have hsettled : Settled t := .inr ⟨by rw [hwritten], .inl (by rw [hwritten, hstate, hdisk]; rfl)⟩
    exact (hsettled.run before).skips hskips

end Start

section Sample

/-- A spool that was left with a part of a line. -/
def cutSegments : Segments := ⟨some [120], none⟩

/-- A turn in which nothing happens but the state tick. -/
def idleTurn : Turn ℕ := ⟨0, 5, .timeout, none, some ⟨0, none, 5, .written⟩⟩

/-- **A cut tail is not written.**  The run is idle, and its first tick leaves the file as it was before
the tail was cut. -/
theorem cut_tail_not_written : ¬ SkipsAgree
    (.start 10 (startState none 1 1 : SpoolState ℕ) cutSegments true .fine) [idleTurn] := by
  intro h
  have hagrees := h [] idleTurn [] rfl ⟨_, ⟨0, none, 5, .written⟩, rfl, rfl, by decide +kernel⟩
  have hrepaired := Agrees.repairedTails hagrees
  revert hrepaired
  decide +kernel

end Sample

end AzazelEdge.Undelivered
