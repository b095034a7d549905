/-
# The spool's counts are exact

Whatever fails, each line is spooled or lost, and the spooled ones are the lines that the segments
hold beyond what the start found in them, and those that were rotated out.  A segment is what the
start found, whole lines that were passed, and at most one partial line at its end, which nothing is
appended to.  Only what the start left can be over the cap (`spool_exact`).

The argument keeps books of every segment there has been (`Piece`), the previous and the current one
last.  A rotation only moves on in that list, a spooled line goes into the last piece, and a repair
cuts the tail back to what the books have (`keep_tail`).
-/
import AzazelEdge.Undelivered.Writer
import Mathlib.Data.List.Basic
import Mathlib.Algebra.GroupWithZero.Nat

namespace AzazelEdge.Undelivered

variable {T : Type}

/-! ## 1. Lines and tails -/

/-- One line, ended by its only newline. -/
def IsLine (line : Bytes) : Prop := ∃ body, newline ∉ body ∧ line = body ++ [newline]

/-- Nothing, or whole lines. -/
def Ended (bytes : Bytes) : Prop := bytes = [] ∨ bytes.getLast? = some newline

theorem Ended.append {bytes line : Bytes} (h : IsLine line) : Ended (bytes ++ line) := by
  obtain ⟨body, -, rfl⟩ := h
  right
  rw [← List.append_assoc, List.getLast?_concat]

theorem IsLine.ne_nil {line : Bytes} (h : IsLine line) : line ≠ [] := by
  obtain ⟨body, -, rfl⟩ := h
  simp

/-- What is left of a line that is cut short has no newline. -/
theorem IsLine.not_mem_take {line : Bytes} (h : IsLine line) (n : ℕ) :
    newline ∉ line.take (min n (line.length - 1)) := by
  obtain ⟨body, hbody, rfl⟩ := h
  intro hmem
  rw [List.length_append, List.length_singleton, Nat.add_sub_cancel, List.take_append_of_le_length
    (Nat.min_le_right _ _)] at hmem
  exact hbody (List.mem_of_mem_take hmem)

/-- A tail without a newline is what a repair cuts. -/
theorem keep_tail {bytes tail : Bytes} (hbytes : Ended bytes) (htail : newline ∉ tail) :
    keep (bytes ++ tail) = bytes := by
  unfold keep
  induction tail using List.reverseRecOn with
  | nil =>
    rw [List.append_nil]
    rcases hbytes with rfl | hlast
    · rfl
    · obtain ⟨front, rfl⟩ := List.getLast?_eq_some_iff.mp hlast
      rw [List.rdropWhile_concat_neg _ _ _ (by simp)]
  | append_singleton tail b ih =>
    rw [List.mem_append, not_or, List.mem_singleton] at htail
    rw [← List.append_assoc, List.rdropWhile_concat_pos _ _ _ (by simpa using Ne.symm htail.2)]
    exact ih htail.1

/-- A segment is its whole lines and a tail. -/
theorem keep_append (bytes : Bytes) :
    ∃ tail, bytes = keep bytes ++ tail ∧ newline ∉ tail ∧ Ended (keep bytes) := by
  unfold keep
  induction bytes using List.reverseRecOn with
  | nil => exact ⟨[], rfl, List.not_mem_nil, .inl rfl⟩
  | append_singleton bytes b ih =>
    by_cases hb : b = newline
    · subst hb
      refine ⟨[], ?_, List.not_mem_nil, .inr ?_⟩
      · rw [List.rdropWhile_concat_neg _ _ _ (by simp), List.append_nil]
      · rw [List.rdropWhile_concat_neg _ _ _ (by simp), List.getLast?_concat]
    · obtain ⟨tail, hbytes, htail, hended⟩ := ih
      rw [List.rdropWhile_concat_pos _ _ _ (by simpa using hb)]
      refine ⟨tail ++ [b], ?_, ?_, hended⟩
      · rw [← List.append_assoc, ← hbytes]
      · rw [List.mem_append, List.mem_singleton]
        exact not_or.mpr ⟨htail, Ne.symm hb⟩

theorem keep_getD (segment : Option Bytes) : (segment.map keep).getD [] = keep (segment.getD []) := by
  cases segment <;> rfl

/-! ## 2. The books -/

/-- A segment in the books: what the start found in it and counted there, and the lines since. -/
structure Piece where
  base : Bytes
  counted : ℕ
  lines : List Bytes

def Piece.bytes (p : Piece) : Bytes := p.base ++ p.lines.flatten

def Piece.records (p : Piece) : ℕ := p.counted + p.lines.length

/-- A segment that the run has begun. -/
def Piece.new : Piece := ⟨[], 0, []⟩

/-- The run's start: its cap, its state and what it found. -/
structure Start (T : Type) where
  cap : ℕ
  state : SpoolState T
  segments : Segments

namespace Start

/-- The whole lines that the start found in the current segment. -/
def current (s : Start T) : Bytes := keep (s.segments.current.getD [])

/-- The pieces of a run that has rotated so often. -/
def bases (s : Start T) (rotations : ℕ) : List (Bytes × ℕ) :=
  (s.segments.previous.getD [], s.state.previousSegmentRecords) ::
    (s.current, s.state.segmentRecords) :: List.replicate rotations ([], 0)

end Start

/-- **The books of a run.** -/
structure Books (s : Start T) (passed : List Bytes) (w : Writer T) (segments : Segments)
    (out : List Piece) (previous current : Piece) (tail : Bytes) : Prop where
  cap : w.cap = s.cap
  currentBytes : segments.current.getD [] = current.bytes ++ tail
  previousBytes : segments.previous.getD [] = previous.bytes
  /-- Only the first two pieces hold anything that the start found. -/
  bases : ∃ rotations, (out ++ [previous, current]).map (fun p => (p.base, p.counted)) =
    s.bases rotations
  /-- The lines are passed ones, in their order. -/
  lines : ((out ++ [previous, current]).flatMap Piece.lines).Sublist passed
  spooled : w.state.spooledTotal =
    s.state.spooledTotal + ((out ++ [previous, current]).flatMap Piece.lines).length
  rotatedOut : w.state.rotatedOutTotal =
    s.state.rotatedOutTotal + (out.map Piece.records).sum
  previousRecords : w.state.previousSegmentRecords = previous.records
  segmentRecords : w.state.segmentRecords = current.records
  total : w.state.spooledTotal + w.state.lostTotal =
    s.state.spooledTotal + s.state.lostTotal + passed.length
  ended : Ended current.bytes
  noNewline : newline ∉ tail
  /-- A tail is what the start found, or part of a line that was passed. -/
  partialLine : tail = [] ∨ s.segments.current.getD [] = current.base ++ tail ∨
    ∃ line ∈ passed, tail <+: line
  whole : w.tailOk = true → tail = []
  /-- Nothing was added to a segment that is over the cap. -/
  currentFits : s.cap < (current.bytes ++ tail).length →
    current.lines = [] ∧ (tail = [] ∨ s.segments.current.getD [] = current.base ++ tail)
  previousFits : s.cap < previous.bytes.length → previous.lines = []

variable {s : Start T} {passed : List Bytes} {w w' : Writer T} {segments segments' : Segments}
  {out : List Piece} {previous current : Piece} {tail : Bytes}

/-- The counts that the books are about. -/
structure SameCounts (a b : SpoolState T) : Prop where
  spooled : b.spooledTotal = a.spooledTotal
  lost : b.lostTotal = a.lostTotal
  rotatedOut : b.rotatedOutTotal = a.rotatedOutTotal
  previousRecords : b.previousSegmentRecords = a.previousSegmentRecords
  segmentRecords : b.segmentRecords = a.segmentRecords

/-- What the books are not about may change. -/
theorem Books.congr (h : Books s passed w segments out previous current tail)
    (hcap : w'.cap = w.cap) (hstate : SameCounts w.state w'.state)
    (hcurrent : segments'.current.getD [] = segments.current.getD [])
    (hprevious : segments'.previous = segments.previous) (hwhole : w'.tailOk = true → tail = []) :
    Books s passed w' segments' out previous current tail where
  cap := hcap.trans h.cap
  currentBytes := hcurrent.trans h.currentBytes
  previousBytes := by rw [hprevious, h.previousBytes]
  bases := h.bases
  lines := h.lines
  spooled := hstate.spooled.trans h.spooled
  rotatedOut := hstate.rotatedOut.trans h.rotatedOut
  previousRecords := hstate.previousRecords.trans h.previousRecords
  segmentRecords := hstate.segmentRecords.trans h.segmentRecords
  total := by rw [hstate.spooled, hstate.lost, h.total]
  ended := h.ended
  noNewline := h.noNewline
  partialLine := h.partialLine
  whole := hwhole
  currentFits := h.currentFits
  previousFits := h.previousFits

/-! ## 3. The tail -/

/-- The tail is cut. -/
theorem Books.cut (h : Books s passed w segments out previous current tail) (hcap : w'.cap = w.cap)
    (hstate : SameCounts w.state w'.state) :
    Books s passed w' { segments with current := segments.current.map keep } out previous current
      [] :=
  { h with
    cap := hcap.trans h.cap
    currentBytes := by
      rw [keep_getD, h.currentBytes, keep_tail h.ended h.noNewline, List.append_nil]
    spooled := hstate.spooled.trans h.spooled
    rotatedOut := hstate.rotatedOut.trans h.rotatedOut
    previousRecords := hstate.previousRecords.trans h.previousRecords
    segmentRecords := hstate.segmentRecords.trans h.segmentRecords
    total := by rw [hstate.spooled, hstate.lost, h.total]
    noNewline := List.not_mem_nil
    partialLine := .inl rfl
    whole := fun _ => rfl
    currentFits := fun hover => by
      rw [List.append_nil] at hover
      refine ⟨(h.currentFits (hover.trans_le ?_)).1, .inl rfl⟩
      rw [List.length_append]
      exact Nat.le_add_right _ _ }

/-- **A repair cuts the tail or leaves it**; where it leaves one, nothing is appended. -/
theorem Books.checkTail (h : Books s passed w segments out previous current tail)
    (answer : RepairAnswer) : ∃ tail', Books s passed (w.checkTail segments answer).1
      (w.checkTail segments answer).2 out previous current tail' ∧
      (w.checkTail segments answer).2.current.getD [] <+: segments.current.getD [] := by
  have hkept : (segments.current.map keep).getD [] <+: segments.current.getD [] := by
    rw [keep_getD]
    obtain ⟨cutOff, hbytes, -, -⟩ := keep_append (segments.current.getD [])
    exact ⟨cutOff, hbytes.symm⟩
  match answer with
  | .fine => exact ⟨[], h.cut rfl ⟨rfl, rfl, rfl, rfl, rfl⟩, hkept⟩
  | .failed true => exact ⟨[], h.cut rfl ⟨rfl, rfl, rfl, rfl, rfl⟩, hkept⟩
  | .failed false =>
    refine ⟨tail, h.congr rfl ⟨rfl, rfl, rfl, rfl, rfl⟩ rfl rfl fun htail => ?_, List.prefix_refl _⟩
    cases htail

/-! ## 4. Room -/

/-- The segment is opened or not. -/
theorem Books.reopen (h : Books s passed w segments out previous current tail) (opened : Bool) :
    Books s passed (w.reopen segments opened).1 (w.reopen segments opened).2 out previous current
      tail := by
  cases opened with
  | true => exact h.congr rfl ⟨rfl, rfl, rfl, rfl, rfl⟩ rfl rfl h.whole
  | false => exact h.congr rfl ⟨rfl, rfl, rfl, rfl, rfl⟩ rfl rfl h.whole

/-- **A rotation moves on in the books.** -/
theorem Books.rotate (h : Books s passed w segments out previous current []) :
    Books s passed (w.rotate segments).1 (w.rotate segments).2 (out ++ [previous]) current .new
      [] := by
  have hpieces : out ++ [previous] ++ [current, Piece.new] =
      out ++ [previous, current] ++ [Piece.new] := by simp
  obtain ⟨rotations, hbases⟩ := h.bases
  have hfits := h.currentFits
  rw [List.append_nil] at hfits
  exact
    { h with
      currentBytes := rfl
      previousBytes := by
        rw [← List.append_nil current.bytes]
        exact h.currentBytes
      bases := by
        refine ⟨rotations + 1, ?_⟩
        rw [hpieces, List.map_append, hbases, Start.bases, Start.bases, List.replicate_succ']
        rfl
      lines := by
        rw [hpieces, List.flatMap_append]
        simpa [Piece.new] using h.lines
      spooled := by
        have hspooled : (w.rotate segments).1.state.spooledTotal = w.state.spooledTotal := rfl
        rw [hspooled, hpieces, List.flatMap_append]
        simpa [Piece.new] using h.spooled
      rotatedOut := by
        have hrotated : (w.rotate segments).1.state.rotatedOutTotal =
            w.state.rotatedOutTotal + w.state.previousSegmentRecords := rfl
        rw [hrotated, h.rotatedOut, h.previousRecords, List.map_append, List.sum_append]
        simp [Nat.add_assoc]
      previousRecords := h.segmentRecords
      segmentRecords := rfl
      total := h.total
      ended := .inl rfl
      noNewline := List.not_mem_nil
      partialLine := .inl rfl
      whole := fun _ => rfl
      currentFits := fun hover => absurd hover (Nat.not_lt_zero _)
      previousFits := fun hover => (hfits hover).1 }

/-- **Room is made or the segment is closed.** -/
theorem Books.ensureRoom (h : Books s passed w segments out previous current []) {incoming : ℕ}
    (hincoming : incoming ≤ s.cap) (a : Answers T) :
    ∃ out' previous' current', Books s passed (w.ensureRoom segments incoming a).1
      (w.ensureRoom segments incoming a).2 out' previous' current' [] ∧
      ((w.ensureRoom segments incoming a).1.isOpen = true →
        size (w.ensureRoom segments incoming a).2.current + incoming ≤ s.cap) ∧
      (w.ensureRoom segments incoming a).2.current.getD [] <+: segments.current.getD [] := by
  unfold Writer.ensureRoom
  rw [h.cap]
  by_cases hfits : size segments.current + incoming ≤ s.cap
  · rw [if_pos hfits]
    split
    · exact ⟨out, previous, current, h, fun _ => hfits, List.prefix_refl _⟩
    · refine ⟨out, previous, current, h.reopen a.opened, fun _ => ?_, ?_⟩
      · cases a.opened <;> exact hfits
      · cases a.opened <;> exact List.prefix_refl _
  · rw [if_neg hfits]
    split
    · -- the new segment is empty, and a line is no longer than the cap
      refine ⟨_, _, _, h.rotate.reopen a.opened, fun _ => ?_, ?_⟩
      · have hempty : size ((w.rotate segments).1.reopen (w.rotate segments).2 a.opened).2.current =
            0 := by cases a.opened <;> rfl
        rw [hempty, Nat.zero_add]
        exact hincoming
      · cases a.opened <;> exact List.nil_prefix
    · refine ⟨out, previous, current, h.congr h.cap.symm ⟨rfl, rfl, rfl, rfl, rfl⟩ rfl rfl
        fun _ => rfl, fun hopen => ?_, List.prefix_refl _⟩
      cases hopen

/-! ## 5. One line -/

/-- A line that is lost. -/
theorem Books.lose (h : Books s passed w segments out previous current tail) (line : Bytes)
    (hcap : w'.cap = w.cap) (hspooled : w'.state.spooledTotal = w.state.spooledTotal)
    (hlost : w'.state.lostTotal = w.state.lostTotal + 1)
    (hrotated : w'.state.rotatedOutTotal = w.state.rotatedOutTotal)
    (hprevious : w'.state.previousSegmentRecords = w.state.previousSegmentRecords)
    (hsegment : w'.state.segmentRecords = w.state.segmentRecords)
    (hwhole : w'.tailOk = true → tail = []) :
    Books s (passed ++ [line]) w' segments out previous current tail :=
  { h with
    cap := hcap.trans h.cap
    lines := h.lines.trans (List.sublist_append_left _ _)
    spooled := hspooled.trans h.spooled
    rotatedOut := hrotated.trans h.rotatedOut
    previousRecords := hprevious.trans h.previousRecords
    segmentRecords := hsegment.trans h.segmentRecords
    total := by
      rw [hspooled, hlost, List.length_append, List.length_singleton, ← Nat.add_assoc, h.total,
        Nat.add_assoc]
    partialLine := h.partialLine.imp_right (Or.imp_right fun ⟨passedLine, hpassed, hpart⟩ =>
      ⟨passedLine, List.mem_append_left _ hpassed, hpart⟩)
    whole := hwhole }

/-- **A line that the kernel took.** -/
theorem Books.spool (h : Books s passed w segments out previous current []) {line : Bytes}
    (hline : IsLine line) (hroom : size segments.current + line.length ≤ s.cap) :
    Books s (passed ++ [line])
      { w with state := { w.state with
        spooledTotal := w.state.spooledTotal + 1
        segmentRecords := w.state.segmentRecords + 1 } }
      { segments with current := some (segments.current.getD [] ++ line) } out previous
      { current with lines := current.lines ++ [line] } [] := by
  have hbytes : Piece.bytes { current with lines := current.lines ++ [line] } =
      current.bytes ++ line := by simp [Piece.bytes]
  have hcurrent := h.currentBytes
  rw [List.append_nil] at hcurrent
  have hpieces : (out ++ [previous, { current with lines := current.lines ++ [line] }]).flatMap
      Piece.lines = (out ++ [previous, current]).flatMap Piece.lines ++ [line] := by simp
  exact
    { h with
      currentBytes := by
        rw [hbytes, List.append_nil, ← hcurrent]
        rfl
      bases := by
        obtain ⟨rotations, hbases⟩ := h.bases
        refine ⟨rotations, ?_⟩
        rw [← hbases, List.map_append, List.map_append]
        rfl
      lines := by
        rw [hpieces]
        exact h.lines.append (List.Sublist.refl _)
      spooled := by
        rw [hpieces, List.length_append, List.length_singleton, ← Nat.add_assoc, ← h.spooled]
      segmentRecords := by
        simp only [Piece.records, List.length_append, List.length_singleton]
        rw [h.segmentRecords, Piece.records, Nat.add_assoc]
      total := by
        have htotal := h.total
        simp only [List.length_append, List.length_singleton]
        omega
      ended := by
        rw [hbytes]
        exact .append hline
      partialLine := .inl rfl
      currentFits := fun hover => by
        rw [hbytes, List.append_nil, List.length_append, ← hcurrent] at hover
        exact absurd hroom (Nat.not_le_of_lt hover) }

/-- **A line of which the kernel took a part.** -/
theorem Books.part (h : Books s passed w segments out previous current []) {line : Bytes}
    (hline : IsLine line) (n : ℕ) (hroom : size segments.current + line.length ≤ s.cap)
    (hw : w' = { w.lose with failed := true, isOpen := false, tailOk := false }) :
    Books s (passed ++ [line]) w'
      { segments with
        current := some (segments.current.getD [] ++ line.take (min n (line.length - 1))) }
      out previous current (line.take (min n (line.length - 1))) := by
  subst hw
  have hcurrent := h.currentBytes
  rw [List.append_nil] at hcurrent
  have hlost : Books s (passed ++ [line]) w.lose segments out previous current [] :=
    h.lose line rfl rfl rfl rfl rfl rfl h.whole
  exact
    { hlost with
      currentBytes := by rw [← hcurrent]; rfl
      noNewline := hline.not_mem_take n
      partialLine := .inr (.inr ⟨line, by simp, List.take_prefix _ _⟩)
      whole := fun htail => by cases htail
      currentFits := fun hover => by
        have htaken := List.length_take_le' (min n (line.length - 1)) line
        rw [List.length_append, ← hcurrent] at hover
        unfold size at hroom
        omega }

/-- A repair does not look at what was known of the tail. -/
theorem checkTail_tailOk (w : Writer T) (tailOk : Bool) (segments : Segments)
    (answer : RepairAnswer) :
    Writer.checkTail { w with tailOk } segments answer = w.checkTail segments answer := by
  match answer with
  | .fine | .failed true | .failed false => rfl

/-- What one step appends, it appends to whole lines: to what was there, or to less of it. -/
def Appends (segments segments' : Segments) : Prop :=
  ∃ kept added, kept <+: segments.current.getD [] ∧
    segments'.current.getD [] = kept ++ added ∧ (added ≠ [] → Ended kept)

/-- **The write of a line**, where room was made for it. -/
theorem Books.append (h : Books s passed w segments out previous current []) {line : Bytes}
    (hline : IsLine line) (a : Answers T)
    (hroom : w.isOpen = true → size segments.current + line.length ≤ s.cap) :
    ∃ current' tail, Books s (passed ++ [line]) (w.append segments line a).1
      (w.append segments line a).2 out previous current' tail ∧
      Appends segments (w.append segments line a).2 := by
  have hended : Ended (segments.current.getD []) := by
    rw [h.currentBytes, List.append_nil]
    exact h.ended
  unfold Writer.append
  by_cases hopen : w.isOpen = true
  · rw [if_pos hopen]
    cases a.written with
    | none =>
      exact ⟨_, [], h.spool hline (hroom hopen), _, line, List.prefix_refl _, rfl, fun _ => hended⟩
    | some n =>
      have hpart := h.part hline n (hroom hopen) rfl
      obtain ⟨tail', hbooks, hstart⟩ := hpart.checkTail a.after
      rw [checkTail_tailOk { w.lose with failed := true, isOpen := false } false] at hbooks hstart
      refine ⟨current, tail', hbooks, ?_⟩
      -- the part was cut again, or it stays after whole lines
      rcases List.prefix_or_prefix_of_prefix hstart (List.prefix_append _ _) with hcut | ⟨rest, hrest⟩
      · exact ⟨_, [], hcut, (List.append_nil _).symm, fun h => absurd rfl h⟩
      · exact ⟨_, rest, List.prefix_refl _, hrest.symm, fun _ => hended⟩
  · rw [if_neg hopen]
    have hlost : Books s (passed ++ [line]) { w.lose with failed := true, isOpen := false } segments
        out previous current [] := h.lose line rfl rfl rfl rfl rfl rfl h.whole
    obtain ⟨tail', hbooks, hstart⟩ := hlost.checkTail a.after
    exact ⟨current, tail', hbooks, _, [], hstart, (List.append_nil _).symm, fun h => absurd rfl h⟩

theorem Appends.of_prefix {segments₀ : Segments} (h : Appends segments segments')
    (hstart : segments.current.getD [] <+: segments₀.current.getD []) :
    Appends segments₀ segments' := by
  obtain ⟨kept, added, hkept, hcurrent, hended⟩ := h
  exact ⟨kept, added, hkept.trans hstart, hcurrent, hended⟩

/-- Nothing is appended. -/
theorem Appends.of_same (h : segments'.current.getD [] <+: segments.current.getD []) :
    Appends segments segments' :=
  ⟨_, [], h, (List.append_nil _).symm, fun h => absurd rfl h⟩

/-- There are books of the run, for the writer and the segments it has come to. -/
def Kept (s : Start T) (passed : List Bytes) (w : Writer T) (segments : Segments) : Prop :=
  ∃ out previous current tail, Books s passed w segments out previous current tail

/-- **One line.** -/
theorem Kept.writeLine (h : Kept s passed w segments) {line : Bytes} (hline : IsLine line)
    (a : Answers T) : Kept s (passed ++ [line]) (w.writeLine segments line a).1
      (w.writeLine segments line a).2 ∧ Appends segments (w.writeLine segments line a).2 := by
  obtain ⟨out, previous, current, tail, h⟩ := h
  have hnoted : Books s passed (w.noteTime a.now) segments out previous current tail :=
    h.congr rfl ⟨rfl, rfl, rfl, rfl, rfl⟩ rfl rfl h.whole
  unfold Writer.writeLine
  by_cases hlong : (w.noteTime a.now).cap < line.length
  · simp only [if_pos hlong]
    exact ⟨⟨out, previous, current, tail, hnoted.lose line rfl rfl rfl rfl rfl rfl hnoted.whole⟩,
      .of_same (List.prefix_refl _)⟩
  · simp only [if_neg hlong]
    have hincoming : line.length ≤ s.cap := by
      rw [← hnoted.cap]
      exact Nat.le_of_not_lt hlong
    -- the tail is in order, or it is repaired first
    obtain ⟨w₁, segments₁, tail₁, heq, hbooks, hstart⟩ : ∃ w₁ segments₁ tail₁,
        (if (w.noteTime a.now).tailOk = true then (w.noteTime a.now, segments)
          else (w.noteTime a.now).checkTail segments a.before) = (w₁, segments₁) ∧
        Books s passed w₁ segments₁ out previous current tail₁ ∧
        segments₁.current.getD [] <+: segments.current.getD [] := by
      split
      · exact ⟨_, _, tail, rfl, hnoted, List.prefix_refl _⟩
      · obtain ⟨tail₁, hbooks, hstart⟩ := hnoted.checkTail a.before
        exact ⟨_, _, tail₁, rfl, hbooks, hstart⟩
    rw [heq]
    by_cases hok : w₁.tailOk = true
    · simp only [if_pos hok]
      obtain rfl : tail₁ = [] := hbooks.whole hok
      obtain ⟨out₂, previous₂, current₂, hmade, hroom, hstart₂⟩ :=
        hbooks.ensureRoom hincoming a
      obtain ⟨current₃, tail₃, hwritten, happends⟩ := hmade.append hline a hroom
      exact ⟨⟨out₂, previous₂, current₃, tail₃, hwritten⟩,
        happends.of_prefix (hstart₂.trans hstart)⟩
    · simp only [if_neg hok]
      exact ⟨⟨out, previous, current, tail₁, hbooks.lose line rfl rfl rfl rfl rfl rfl
        fun htail => absurd htail hok⟩, .of_same hstart⟩

/-! ## 6. Runs -/

/-- `write_line` of each of these lines. -/
def writeLines (start : Writer T × Segments) (steps : List (Bytes × Answers T)) :
    Writer T × Segments :=
  steps.foldl (fun at_ step => at_.1.writeLine at_.2 step.1 step.2) start

/-- `Writer::new` of a start. -/
def Start.begin (s : Start T) (opened : Bool) (answer : RepairAnswer) : Writer T × Segments :=
  Writer.new s.cap s.state s.segments opened answer

/-- **A run begins with its books in order.** -/
theorem Kept.begin (s : Start T) (opened : Bool) (answer : RepairAnswer) :
    Kept s [] (s.begin opened answer).1 (s.begin opened answer).2 := by
  obtain ⟨tail, hcurrent, htail, hended⟩ := keep_append (s.segments.current.getD [])
  have hbooks : Books s [] ⟨s.cap, opened, s.state, !opened, false⟩
      (if opened then { s.segments with current := openSegment s.segments.current } else s.segments)
      [] ⟨s.segments.previous.getD [], s.state.previousSegmentRecords, []⟩
      ⟨s.current, s.state.segmentRecords, []⟩ tail := by
    have hopened : (if opened then
        { s.segments with current := openSegment s.segments.current } else s.segments).current.getD [] =
          s.segments.current.getD [] := by cases opened <;> rfl
    have hbytes : Piece.bytes ⟨s.current, s.state.segmentRecords, []⟩ = s.current := by
      simp [Piece.bytes]
    exact
      { cap := rfl
        currentBytes := by
          rw [hopened, hbytes]
          exact hcurrent
        previousBytes := by
          cases opened <;> simp [Piece.bytes]
        bases := ⟨0, rfl⟩
        lines := List.Sublist.refl _
        spooled := rfl
        rotatedOut := rfl
        previousRecords := rfl
        segmentRecords := rfl
        total := rfl
        ended := by
          rw [hbytes]
          exact hended
        noNewline := htail
        partialLine := .inr (.inl hcurrent)
        whole := fun h => by cases h
        currentFits := fun _ => ⟨rfl, .inr hcurrent⟩
        previousFits := fun _ => rfl }
  obtain ⟨tail', hchecked, -⟩ := hbooks.checkTail answer
  exact ⟨_, _, _, tail', hchecked⟩

/-! ## 7. What the books say -/

/-- A current segment of the run's start, or one that the run has begun. -/
theorem Books.current_base (h : Books s passed w segments out previous current tail) :
    current.base = s.current ∨ current.base = [] := by
  obtain ⟨rotations, hbases⟩ := h.bases
  have hmem : (current.base, current.counted) ∈
      (s.current, s.state.segmentRecords) :: List.replicate rotations ([], 0) := by
    cases out with
    | nil =>
      have htail := (List.cons.inj hbases).2
      rw [← htail]
      exact List.mem_singleton.mpr rfl
    | cons first out =>
      have htail := (List.cons.inj hbases).2
      rw [← htail]
      simp
  rcases List.mem_cons.mp hmem with heq | hmem
  · exact .inl (congrArg Prod.fst heq)
  · exact .inr (congrArg Prod.fst (List.eq_of_mem_replicate hmem))

theorem Books.previous_base (h : Books s passed w segments out previous current tail) :
    previous.base = s.segments.previous.getD [] ∨ previous.base = s.current ∨
      previous.base = [] := by
  obtain ⟨rotations, hbases⟩ := h.bases
  have hmem : (previous.base, previous.counted) ∈ s.bases rotations := by
    rw [← hbases]
    simp
  rcases List.mem_cons.mp hmem with heq | hmem
  · exact .inl (congrArg Prod.fst heq)
  · rcases List.mem_cons.mp hmem with heq | hmem
    · exact .inr (.inl (congrArg Prod.fst heq))
    · exact .inr (.inr (congrArg Prod.fst (List.eq_of_mem_replicate hmem)))

theorem Start.current_le_found (s : Start T) : s.current <+: s.segments.current.getD [] := by
  obtain ⟨tail, hbytes, -, -⟩ := keep_append (s.segments.current.getD [])
  exact ⟨tail, hbytes.symm⟩

/-- A segment over the cap is as the start found it, or less. -/
structure OverAsFound (s : Start T) (segments : Segments) : Prop where
  current : s.cap < size segments.current →
    segments.current.getD [] <+: s.segments.current.getD []
  previous : s.cap < size segments.previous →
    segments.previous.getD [] = s.segments.previous.getD [] ∨
      segments.previous.getD [] <+: s.segments.current.getD []

theorem Kept.over (h : Kept s passed w segments) : OverAsFound s segments := by
  obtain ⟨out, previous, current, tail, h⟩ := h
  constructor
  · intro hover
    rw [size, h.currentBytes] at hover
    obtain ⟨hlines, htail⟩ := h.currentFits hover
    have hbytes : current.bytes = current.base := by simp [Piece.bytes, hlines]
    rw [h.currentBytes, hbytes]
    rcases htail with rfl | hfound
    · rw [List.append_nil]
      rcases h.current_base with heq | heq
      · rw [heq]
        exact s.current_le_found
      · rw [heq]
        exact List.nil_prefix
    · exact hfound ▸ List.prefix_refl _
  · intro hover
    rw [size, h.previousBytes] at hover
    have hbytes : previous.bytes = previous.base := by
      simp [Piece.bytes, h.previousFits hover]
    rw [h.previousBytes, hbytes]
    rcases h.previous_base with heq | heq | heq
    · exact .inl heq
    · exact .inr (heq ▸ s.current_le_found)
    · exact .inr (heq ▸ List.nil_prefix)

/-- **Within the cap.**  Where the start found the segments within the cap, they stay so. -/
theorem OverAsFound.within (h : OverAsFound s segments) (hcurrent : size s.segments.current ≤ s.cap)
    (hprevious : size s.segments.previous ≤ s.cap) :
    size segments.current ≤ s.cap ∧ size segments.previous ≤ s.cap := by
  constructor
  · by_contra hover
    have hle := (h.current (Nat.lt_of_not_le hover)).length_le
    exact hover (hle.trans hcurrent)
  · by_contra hover
    rcases h.previous (Nat.lt_of_not_le hover) with heq | hshorter
    · rw [size, heq] at hover
      exact hover hprevious
    · exact hover (hshorter.length_le.trans hcurrent)

theorem writeLines_concat (start : Writer T × Segments) (steps : List (Bytes × Answers T))
    (step : Bytes × Answers T) : writeLines start (steps ++ [step]) =
      (writeLines start steps).1.writeLine (writeLines start steps).2 step.1 step.2 := by
  rw [writeLines, List.foldl_append]
  rfl

/-- **The run lemma.** -/
theorem Kept.writeLines (s : Start T) (opened : Bool) (answer : RepairAnswer)
    {steps : List (Bytes × Answers T)} (hlines : ∀ step ∈ steps, IsLine step.1) :
    Kept s (steps.map Prod.fst) (writeLines (s.begin opened answer) steps).1
      (writeLines (s.begin opened answer) steps).2 := by
  induction steps using List.reverseRecOn with
  | nil => exact Kept.begin s opened answer
  | append_singleton steps step ih =>
    have hkept := ih fun step hstep => hlines step (List.mem_append_left _ hstep)
    rw [writeLines_concat, List.map_append]
    exact (hkept.writeLine (hlines step (by simp)) step.2).1

/-- **The spool's counts are exact, and its segments are whole and bounded.**  The books say what each
segment holds and what the counters are; only what the start found may be over the cap; and each line
appends to whole lines, or nothing. -/
theorem spool_exact (s : Start T) (opened : Bool) (answer : RepairAnswer)
    (steps : List (Bytes × Answers T)) (hlines : ∀ step ∈ steps, IsLine step.1) :
    Kept s (steps.map Prod.fst) (writeLines (s.begin opened answer) steps).1
      (writeLines (s.begin opened answer) steps).2 ∧
    OverAsFound s (writeLines (s.begin opened answer) steps).2 ∧
    (size s.segments.current ≤ s.cap → size s.segments.previous ≤ s.cap →
      size (writeLines (s.begin opened answer) steps).2.current ≤ s.cap ∧
        size (writeLines (s.begin opened answer) steps).2.previous ≤ s.cap) ∧
    ∀ before step after, steps = before ++ step :: after →
      Appends (writeLines (s.begin opened answer) before).2
        (writeLines (s.begin opened answer) (before ++ [step])).2 := by
  have hkept := Kept.writeLines s opened answer hlines
  refine ⟨hkept, hkept.over, hkept.over.within, fun before step after hsteps => ?_⟩
  subst hsteps
  have hbefore : Kept s _ _ _ := Kept.writeLines s opened answer
    fun step hstep => hlines step (List.mem_append_left _ hstep)
  rw [writeLines_concat]
  exact (hbefore.writeLine (hlines step (by simp)) step.2).2

section Sample

/-- The letter `x` and a newline. -/
def shortLine : Bytes := [120, newline]

theorem isLine_shortLine : IsLine shortLine := ⟨[120], by decide, rfl⟩

def fineAnswers : Answers ℕ := ⟨1, .fine, true, true, none, .fine⟩

/-- A spool with room for one short line in a segment. -/
def smallStart : Start ℕ := ⟨3, .new 0, ⟨none, none⟩⟩

/-- Three lines; of the second only a part is written, and cut again. -/
def threeLines : List (Bytes × Answers ℕ) :=
  [(shortLine, fineAnswers), (shortLine, { fineAnswers with written := some 1 }),
    (shortLine, fineAnswers)]

theorem spool_exact_sample : Kept smallStart [shortLine, shortLine, shortLine]
    (writeLines (smallStart.begin true .fine) threeLines).1
    (writeLines (smallStart.begin true .fine) threeLines).2 := by
  refine (spool_exact smallStart true .fine threeLines ?_).1
  intro step hstep
  simp only [threeLines, List.mem_cons, List.not_mem_nil, or_false] at hstep
  rcases hstep with rfl | rfl | rfl <;> exact isLine_shortLine

/-- A spool that was left with a line in it, and then given a smaller cap. -/
def loweredCap : Start ℕ := ⟨1, .new 0, ⟨some shortLine, none⟩⟩

/-- **What the start found may be over the cap**, and stays so when it becomes the previous segment. -/
theorem found_over_cap : ¬ ∀ (s : Start ℕ) (opened : Bool) (answer : RepairAnswer)
    (steps : List (Bytes × Answers ℕ)), (∀ step ∈ steps, IsLine step.1) →
      size (writeLines (s.begin opened answer) steps).2.current ≤ s.cap ∧
        size (writeLines (s.begin opened answer) steps).2.previous ≤ s.cap := by
  intro h
  have hlines : ∀ step ∈ [(([newline] : Bytes), fineAnswers)], IsLine step.1 := by
    intro step hstep
    rw [List.mem_singleton.mp hstep]
    exact ⟨[], by decide, rfl⟩
  have hover := (h loweredCap true .fine _ hlines).2
  revert hover
  decide +kernel

end Sample

end AzazelEdge.Undelivered
