/-
# What an acknowledged record leaves

A record whose call returned Ok is a line of its own, in the file it was written to and in the one
that was rotated, until a rotation replaces that (`readable`).

It does not hold of every run: the call does not look at what it appends to.  A write that stopped
in its line leaves a beginning without a newline, and the record that is appended next, and
acknowledged, ends that line (`torn_tail_hides_record`).  The core's other spool cuts such a tail
off first.
-/
import AzazelEdge.Audit.Appended
import AzazelEdge.Evidence.Spool
import AzazelEdge.Lib.Run
import Mathlib.Algebra.Group.Nat.Defs

namespace AzazelEdge.Evidence

open AzazelEdge.Lib AzazelEdge.Lib.Py AzazelEdge.Audit

variable {ryu : ℚ → Text} {xs tail : Text} {lines : List Text}

/-! ## 1. No newline in a line -/

theorem nl_utf8 {c : ℕ} (h : c ≠ nl) : nl ∉ utf8Char c := by
  have hnl : nl = 10 := rfl
  unfold utf8Char
  split_ifs <;> simp only [List.mem_cons, List.not_mem_nil, or_false, not_or] <;> omega

theorem nl_serdeEscape (c : ℕ) : nl ∉ serdeEscape c := by
  unfold serdeEscape
  split_ifs with h₁ h₂ h₃ h₄ h₅ h₆ h₇ h₈
  iterate 7 decide
  · exact (printable_uEscape (by omega)).no_newline
  · rw [List.mem_singleton]
    rintro rfl
    exact h₅ rfl

theorem nl_serdeString (s : String) : nl ∉ serdeString s := by
  simp only [serdeString, List.mem_cons, List.mem_append, List.mem_flatMap, List.not_mem_nil,
    or_false, not_or, not_exists, not_and]
  exact ⟨by decide, fun c _ => nl_serdeEscape c, by decide⟩

mutual

theorem nl_serdeText (hryu : ∀ q, nl ∉ ryu q) : ∀ v : Json, nl ∉ serdeText ryu v
  | .null => by rw [serdeText, ascii_null]; decide
  | .bool true => by rw [serdeText, ascii_true]; decide
  | .bool false => by rw [serdeText, ascii_false]; decide
  | .int n => (printable_intText n).no_newline
  | .float q => hryu q
  | .str s => nl_serdeString s
  | .arr [] => by rw [serdeText]; decide
  | .arr (item :: items) => by
    rw [serdeText, List.mem_cons, List.mem_append, not_or, not_or]
    exact ⟨by decide, nl_serdeText hryu item, nl_serdeItems hryu items⟩
  | .obj [] => by rw [serdeText]; decide
  | .obj ((key, value) :: members) => by
    rw [serdeText, serdeMember, List.mem_cons, List.mem_append, List.mem_append, List.mem_cons]
    simp only [not_or]
    exact ⟨by decide, ⟨nl_serdeString key, by decide, nl_serdeText hryu value⟩,
      nl_serdeMembers hryu members⟩

theorem nl_serdeItems (hryu : ∀ q, nl ∉ ryu q) : ∀ items : List Json, nl ∉ serdeItems ryu items
  | [] => by rw [serdeItems]; decide
  | item :: items => by
    rw [serdeItems, List.mem_cons, List.mem_append, not_or, not_or]
    exact ⟨by decide, nl_serdeText hryu item, nl_serdeItems hryu items⟩

theorem nl_serdeMembers (hryu : ∀ q, nl ∉ ryu q) : ∀ members : List (String × Json),
    nl ∉ serdeMembers ryu members
  | [] => by rw [serdeMembers]; decide
  | (key, value) :: members => by
    rw [serdeMembers, serdeMember, List.mem_cons, List.mem_append, List.mem_append, List.mem_cons]
    simp only [not_or]
    exact ⟨by decide, ⟨nl_serdeString key, by decide, nl_serdeText hryu value⟩,
      nl_serdeMembers hryu members⟩

end

/-- **A record is written without a line break.** -/
theorem nl_toVec (hryu : ∀ q, nl ∉ ryu q) (v : Json) : nl ∉ toVec ryu v := by
  intro hmem
  obtain ⟨c, hc, hbyte⟩ := List.mem_flatMap.mp hmem
  exact nl_utf8 (fun h => nl_serdeText hryu v (h ▸ hc)) hbyte

/-! ## 2. The lines of a file -/

/-- Lines that end, and a tail that does not. -/
theorem cutLines_lines (hlines : ∀ line ∈ lines, nl ∉ line) (htail : nl ∉ tail) :
    cutLines nl (lines.flatMap (· ++ [nl]) ++ tail) = (lines, tail) := by
  induction lines with
  | nil => exact cutLines_of_not_mem htail
  | cons line lines ih =>
    have hrest := ih fun l hl => hlines l (List.mem_cons_of_mem _ hl)
    rw [List.flatMap_cons, List.append_assoc, List.append_assoc, List.singleton_append,
      cutLines_line (hlines line List.mem_cons_self)]
    unfold completeLines lineTail
    rw [hrest]

/-- What is appended to a clean file is cut by itself. -/
theorem cutLines_clean (hclean : lineTail nl xs = []) (hlines : ∀ line ∈ lines, nl ∉ line)
    (htail : nl ∉ tail) :
    completeLines nl (xs ++ (lines.flatMap (· ++ [nl]) ++ tail)) = completeLines nl xs ++ lines ∧
      lineTail nl (xs ++ (lines.flatMap (· ++ [nl]) ++ tail)) = tail := by
  have hcut := cutLines_lines hlines htail
  rw [completeLines_append, lineTail_append, hclean, List.nil_append]
  exact ⟨congrArg (completeLines nl xs ++ ·) (congrArg Prod.fst hcut), congrArg Prod.snd hcut⟩

section Content

variable (ryu)

/-- The lines of the records that were ended. -/
def endedLines (entries : List Entry) : List Text :=
  (entries.filter Entry.ended).map fun e => toVec ryu e.record

/-- What is in a file that began as `start` and got these records: their lines, and the beginning of
one that was not ended, if it is the last. -/
def Content (start : Text) (entries : List Entry) (file : Text) : Prop :=
  ∃ tail, file = start ++ ((endedLines ryu entries).flatMap (· ++ [nl]) ++ tail) ∧ nl ∉ tail ∧
    (entries ≠ [] → lineTail nl start = []) ∧ (entries = [] → tail = [])

end Content

variable {start file : Text} {entries : List Entry} {e : Entry}

theorem content_nil (start : Text) : Content ryu start [] start :=
  ⟨[], by simp [endedLines], List.not_mem_nil, fun h => absurd rfl h, fun _ => rfl⟩

theorem nl_endedLines (hryu : ∀ q, nl ∉ ryu q) (entries : List Entry) :
    ∀ line ∈ endedLines ryu entries, nl ∉ line := by
  intro line hline
  obtain ⟨e, -, rfl⟩ := List.mem_map.mp hline
  exact nl_toVec hryu _

/-- The lines that are in it. -/
theorem Content.cut (hryu : ∀ q, nl ∉ ryu q) (h : Content ryu start entries file) :
    completeLines nl file = completeLines nl start ++ endedLines ryu entries := by
  obtain ⟨tail, rfl, htail, hstart, hnil⟩ := h
  by_cases hentries : entries = []
  · rw [hnil hentries, hentries]
    simp [endedLines]
  · exact (cutLines_clean (hstart hentries) (nl_endedLines hryu entries) htail).1

/-- Where it is clean, another record goes on after the lines. -/
theorem Content.snoc (hryu : ∀ q, nl ∉ ryu q) (h : Content ryu start entries file)
    (hclean : lineTail nl file = []) {bytes : Text}
    (hended : e.ended = true → bytes = toVec ryu e.record ++ [nl])
    (hopen : e.ended = false → nl ∉ bytes) :
    Content ryu start (entries ++ [e]) (file ++ bytes) := by
  obtain ⟨tail, rfl, htail, hstart, hnil⟩ := h
  have hlines := nl_endedLines hryu entries
  -- A clean file has no tail, and began clean.
  have hclean' : lineTail nl start = [] ∧ tail = [] := by
    by_cases hentries : entries = []
    · rw [hnil hentries, hentries] at hclean
      exact ⟨by simpa [endedLines] using hclean, hnil hentries⟩
    · have hcut := (cutLines_clean (hstart hentries) hlines htail).2
      exact ⟨hstart hentries, hcut.symm.trans hclean⟩
  rw [hclean'.2, List.append_nil]
  cases hcase : e.ended with
  | true =>
    refine ⟨[], ?_, List.not_mem_nil, fun _ => hclean'.1, fun h => by simp at h⟩
    have hsnoc : endedLines ryu (entries ++ [e]) = endedLines ryu entries ++ [toVec ryu e.record] := by
      simp [endedLines, List.filter_append, hcase]
    rw [hended hcase, hsnoc]
    simp [List.flatMap_append, List.append_assoc]
  | false =>
    refine ⟨bytes, ?_, hopen hcase, fun _ => hclean'.1, fun h => by simp at h⟩
    have hsame : endedLines ryu (entries ++ [e]) = endedLines ryu entries := by
      simp [endedLines, List.filter_append, hcase]
    rw [hsame, List.append_assoc]

/-! ## 3. One call -/

section Call

variable {event : Json} {capBytes : ℕ} {a : Answers} {s : Spool} {w : Watch}

/-- The files before the record is numbered. -/
theorem prepare_files (capBytes : ℕ) (a : Answers) (s : Spool) :
    (prepare capBytes a s).1 = if rotates capBytes a s then ⟨none, s.current⟩ else s := by
  obtain ⟨current, rotated⟩ := s
  unfold prepare rotates
  cases a.dirs
  · rfl
  cases current with
  | none => simp
  | some bytes =>
    cases a.stat with
    | unreadable => simp
    | symlink => simp
    | regular =>
      by_cases hcap : capBytes ≤ bytes.length
      · cases hrename : a.rename <;> simp [hcap]
      · simp [hcap]

/-- What a call does of which no byte is written. -/
structure Silent (s s' : Spool) (p p' : Process) (answer : Option ℕ) : Prop where
  current : s'.current.getD [] = s.current.getD []
  rotated : s'.rotated = s.rotated
  since : p'.since = p.since
  seq : p.seq ≤ p'.seq
  answer : answer = none

/-- What a call does that writes bytes of a record. -/
structure Writes (ryu : ℚ → Text) (e : Entry) (s s' : Spool) (p p' : Process) (event : Json)
    (capBytes : ℕ) (answer : Option ℕ) : Prop where
  files : ∃ bytes, s' = s.append bytes ∧ (e.ended = true → bytes = toVec ryu e.record ++ [nl]) ∧
    (e.ended = false → bytes <+: toVec ryu e.record)
  process : p' = ⟨p.since, p.seq + 1⟩
  record : ∃ members, indexMut event = some members ∧
    e.record = spoolRecord members (p.seq + 1) p.since capBytes
  answer : ∀ n, answer = some n → n = p.seq + 1 ∧ e.ended = true

/-- **What a call does**, over the files that it has prepared. -/
theorem appendEvidence_cases (w : Watch) (event : Json) (capBytes : ℕ) (a : Answers) :
    let r := appendEvidence ryu event capBytes a w.process w.spool
    let s := (prepare capBytes a w.spool).1
    (w.entry ryu event capBytes a = none ∧ Silent s r.1 w.process r.2.1 r.2.2) ∨
    ∃ e, w.entry ryu event capBytes a = some e ∧ e.run = w.run ∧
      e.segment = w.segmentOf capBytes a ∧ e.seq = w.process.seq + 1 ∧
      Writes ryu e s r.1 w.process r.2.1 event capBytes r.2.2 := by
  intro r s
  simp only [r, s, appendEvidence, Watch.entry]
  cases hgoes : (prepare capBytes a w.spool).2 with
  | false => exact .inl ⟨by simp, by simp only [if_pos]; exact ⟨rfl, rfl, rfl, le_refl _, rfl⟩⟩
  | true =>
    simp only [Bool.true_eq_false, if_false, false_or]
    cases hmembers : indexMut event with
    | none => exact .inl ⟨by simp, ⟨rfl, rfl, rfl, Nat.le_succ _, rfl⟩⟩
    | some members =>
      cases hopened : a.opened with
      | false => exact .inl ⟨by simp, ⟨rfl, rfl, rfl, Nat.le_succ _, rfl⟩⟩
      | true =>
        simp only [Bool.true_eq_false, if_false, false_or, Option.map_some]
        cases hwritten : a.written with
        | stopped n =>
          by_cases hn : n = 0
          · subst hn
            exact .inl ⟨by simp, ⟨by simp [Spool.append], rfl, rfl, Nat.le_succ _, rfl⟩⟩
          · rw [if_neg (by simpa using hn)]
            refine .inr ⟨_, rfl, rfl, rfl, rfl, ⟨_, rfl, fun hended => ?_, fun hopen => ?_⟩, rfl,
              ⟨members, hmembers, rfl⟩, nofun⟩
            · rw [decide_eq_true_eq] at hended
              refine List.take_of_length_le ?_
              rw [List.length_append, List.length_singleton]
              exact hended
            · rw [decide_eq_false_iff_not, not_lt] at hopen
              rw [List.take_append_of_le_length hopen]
              exact List.take_prefix _ _
        | done =>
          rw [if_neg (by simp)]
          exact .inr ⟨_, rfl, rfl, rfl, rfl, ⟨_, rfl, fun _ => rfl, nofun⟩, rfl,
            ⟨members, hmembers, rfl⟩, fun n hn => ⟨(Option.some.inj hn).symm, rfl⟩⟩

end Call

/-! ## 4. Runs -/

/-- The records of a segment. -/
def Watch.segment (w : Watch) (g : ℕ) : List Entry := w.entries.filter fun e => e.segment = g

/-- What a segment began as: the first is the file that was there. -/
def startFile (s₀ : Spool) (g : ℕ) : Text := if g = 0 then s₀.current.getD [] else []

/-- One record was written before the other: segments follow one another, and so do the numbers of
one process. -/
def Before (a b : Entry) : Prop := a.segment ≤ b.segment ∧ (a.run = b.run → a.seq < b.seq)

/-- What holds of a watched spool that began with these files. -/
structure Kept (ryu : ℚ → Text) (s₀ : Spool) (w : Watch) : Prop where
  current : Content ryu (startFile s₀ w.rotations) (w.segment w.rotations)
    (w.spool.current.getD [])
  rotated : ∀ g, w.rotations = g + 1 →
    Content ryu (startFile s₀ g) (w.segment g) (w.spool.rotated.getD [])
  unrotated : w.rotations = 0 → w.spool.rotated = s₀.rotated
  segments : ∀ e ∈ w.entries, e.segment ≤ w.rotations
  runs : ∀ e ∈ w.entries, e.run ≤ w.run ∧ (e.run = w.run → e.seq ≤ w.process.seq)
  ordered : w.entries.Pairwise Before
  acks : ∀ a ∈ w.acks, ∃ e ∈ w.entries, e.ended = true ∧ e.segment = a.segment ∧
    ∃ members, indexMut a.event = some members ∧
      e.record = spoolRecord members a.seq a.since a.capBytes

section Step

variable {s₀ : Spool} {w : Watch} {capBytes : ℕ} {a : Answers}

/-- The books over the files that a call has prepared. -/
theorem Kept.prepare (h : Kept ryu s₀ w) : Kept ryu s₀
    { w with
      spool := (Evidence.prepare capBytes a w.spool).1
      rotations := w.segmentOf capBytes a } := by
  rw [prepare_files, Watch.segmentOf]
  cases hrot : rotates capBytes a w.spool with
  | false => exact h
  | true =>
    have hnone : w.segment (w.rotations + 1) = [] := by
      refine List.filter_eq_nil_iff.mpr fun e he => ?_
      have := h.segments e he
      rw [decide_eq_true_eq]
      omega
    refine ⟨?_, fun g hg => ?_, nofun, fun e he => ?_, h.runs, h.ordered, h.acks⟩
    · show Content ryu _ (w.segment (w.rotations + 1)) _
      rw [hnone]
      exact content_nil []
    · obtain rfl : w.rotations = g := Nat.succ.inj hg
      exact h.current
    · exact Nat.le_succ_of_le (h.segments e he)

/-- The books after a call that wrote nothing. -/
theorem Kept.silent {s' : Spool} {p' : Process} {answer : Option ℕ} (h : Kept ryu s₀ w)
    (hs : Silent w.spool s' w.process p' answer) :
    Kept ryu s₀ { w with spool := s', process := p' } := by
  refine ⟨?_, fun g hg => ?_, fun h0 => ?_, h.segments, fun e he => ?_, h.ordered, h.acks⟩
  · rw [hs.current]
    exact h.current
  · rw [hs.rotated]
    exact h.rotated g hg
  · rw [hs.rotated]
    exact h.unrotated h0
  · exact ⟨(h.runs e he).1, fun hrun => Nat.le_trans ((h.runs e he).2 hrun) hs.seq⟩

theorem segment_snoc {e : Entry} (w : Watch) (g : ℕ) :
    (Watch.segment { w with entries := w.entries ++ [e] } g) =
      w.segment g ++ if e.segment = g then [e] else [] := by
  simp only [Watch.segment, List.filter_append, List.filter_singleton]
  congr 1
  split <;> simp_all

/-- The books after a call that wrote bytes of a record to a clean file. -/
theorem Kept.writes (hryu : ∀ q, nl ∉ ryu q) {e : Entry} {s' : Spool} {p' : Process} {event : Json}
    {answer : Option ℕ} (h : Kept ryu s₀ w) (hclean : Clean w.spool.current)
    (hrun : e.run = w.run) (hsegment : e.segment = w.rotations) (hseq : e.seq = w.process.seq + 1)
    (hw : Writes ryu e w.spool s' w.process p' event capBytes answer) :
    Kept ryu s₀ { w with
      spool := s'
      process := p'
      entries := w.entries ++ [e]
      acks := w.acks ++ (answer.map fun seq =>
        ⟨w.rotations, seq, w.process.since, capBytes, event⟩).toList } := by
  obtain ⟨⟨bytes, rfl, hended, hopen⟩, rfl, ⟨members, hmembers, hrecord⟩, hanswer⟩ := hw
  have hnl := nl_toVec hryu e.record
  refine ⟨?_, fun g hg => ?_, h.unrotated, fun e' he' => ?_, fun e' he' => ?_, ?_, fun k hk => ?_⟩
  · show Content ryu _ (Watch.segment { w with entries := w.entries ++ [e] } w.rotations) _
    rw [segment_snoc, if_pos hsegment]
    exact h.current.snoc hryu hclean hended fun hcase hmem => hnl ((hopen hcase).subset hmem)
  · show Content ryu _ (Watch.segment { w with entries := w.entries ++ [e] } g) _
    rw [segment_snoc, if_neg (by have hg : w.rotations = g + 1 := hg; omega), List.append_nil]
    exact h.rotated g hg
  · rcases List.mem_append.mp he' with he' | he'
    · exact h.segments e' he'
    · rw [List.mem_singleton.mp he']
      exact hsegment.le
  · rcases List.mem_append.mp he' with he' | he'
    · exact ⟨(h.runs e' he').1, fun hr => Nat.le_succ_of_le ((h.runs e' he').2 hr)⟩
    · rw [List.mem_singleton.mp he']
      exact ⟨hrun.le, fun _ => hseq.le⟩
  · refine List.pairwise_append.mpr ⟨h.ordered, List.pairwise_singleton _ _, fun e' he' b hb => ?_⟩
    rw [List.mem_singleton.mp hb]
    refine ⟨hsegment ▸ h.segments e' he', fun hr => ?_⟩
    have := (h.runs e' he').2 (hr.trans hrun)
    omega
  · rcases List.mem_append.mp hk with hk | hk
    · obtain ⟨e', he', hrest⟩ := h.acks k hk
      exact ⟨e', List.mem_append_left _ he', hrest⟩
    · obtain ⟨n, hn, rfl⟩ := Option.map_eq_some_iff.mp (Option.mem_toList.mp hk)
      obtain ⟨rfl, hend⟩ := hanswer n hn
      exact ⟨e, by simp, hend, hsegment, members, hmembers, hrecord⟩

/-- **One step keeps the books**, where no call writes after a torn line. -/
theorem kept_step (hryu : ∀ q, nl ∉ ryu q) {ev : Event} {w' : Watch} (h : Kept ryu s₀ w)
    (hstep : untorn ryu w ev w') : Kept ryu s₀ w' := by
  obtain ⟨huntorn, rfl⟩ := hstep
  cases ev with
  | restart since =>
    exact ⟨h.current, h.rotated, h.unrotated, h.segments, fun e he =>
      ⟨Nat.le_succ_of_le (h.runs e he).1, fun hr => absurd hr (by
        have := (h.runs e he).1
        show e.run ≠ w.run + 1
        omega)⟩, h.ordered, h.acks⟩
  | append event capBytes a =>
    have hprepared := @Kept.prepare _ _ _ capBytes a h
    rcases (@appendEvidence_cases ryu) w event capBytes a with
      ⟨hnone, hsilent⟩ | ⟨e, hsome, hrun, hsegment, hseq, hwrites⟩
    · have hkept := hprepared.silent hsilent
      simpa only [Watch.step, hnone, hsilent.answer, Option.map_none, Option.toList_none,
        List.append_nil] using hkept
    · have hclean := huntorn (by rw [hsome]; rfl)
      have hkept := hprepared.writes hryu hclean hrun hsegment hseq hwrites
      simpa only [Watch.step, hsome, Option.toList_some] using hkept

end Step

/-! ## 5. What is read -/

/-- **What a reader finds**: every record whose call returned Ok, on a line of its own, in the file
that it was written to and then in the rotated one; the lines of both files are those of the records
that were written, in their order. -/
structure Readable (ryu : ℚ → Text) (fromSlice : Text → Option Json) (s₀ : Spool) (w : Watch) :
    Prop where
  acknowledged : ∀ a ∈ w.acks, ∃ members, indexMut a.event = some members ∧
    (a.segment = w.rotations → ∃ line ∈ completeLines nl (w.spool.current.getD []),
      fromSlice line = some (spoolRecord members a.seq a.since a.capBytes)) ∧
    (a.segment + 1 = w.rotations → ∃ line ∈ completeLines nl (w.spool.rotated.getD []),
      fromSlice line = some (spoolRecord members a.seq a.since a.capBytes))
  current : (completeLines nl (w.spool.current.getD [])).filterMap fromSlice =
    (completeLines nl (startFile s₀ w.rotations)).filterMap fromSlice ++
      ((w.segment w.rotations).filter Entry.ended).map Entry.record
  rotated : ∀ g, w.rotations = g + 1 →
    (completeLines nl (w.spool.rotated.getD [])).filterMap fromSlice =
      (completeLines nl (startFile s₀ g)).filterMap fromSlice ++
        ((w.segment g).filter Entry.ended).map Entry.record
  unrotated : w.rotations = 0 → w.spool.rotated = s₀.rotated
  ordered : w.entries.Pairwise Before

section Read

variable {fromSlice : Text → Option Json} {s₀ : Spool} {w : Watch}

theorem endedLines_read {es : List Entry}
    (hreads : ∀ e ∈ es, e.ended = true → fromSlice (toVec ryu e.record) = some e.record) :
    (endedLines ryu es).filterMap fromSlice = (es.filter Entry.ended).map Entry.record := by
  rw [endedLines, List.filterMap_map, ← List.filterMap_eq_map]
  refine List.filterMap_congr fun e he => ?_
  obtain ⟨hmem, hended⟩ := List.mem_filter.mp he
  exact hreads e hmem hended

theorem Kept.reads (hryu : ∀ q, nl ∉ ryu q) (h : Kept ryu s₀ w)
    (hreads : ∀ e ∈ w.entries, e.ended = true → fromSlice (toVec ryu e.record) = some e.record) :
    Readable ryu fromSlice s₀ w := by
  have hsegment : ∀ g, ∀ e ∈ w.segment g, e.ended = true →
      fromSlice (toVec ryu e.record) = some e.record :=
    fun g e he => hreads e (List.mem_filter.mp he).1
  -- The line of a record that was ended is among the lines of its segment.
  have hline : ∀ g e, e ∈ w.entries → e.ended = true → e.segment = g →
      toVec ryu e.record ∈ endedLines ryu (w.segment g) := by
    rintro g e he hended rfl
    exact List.mem_map_of_mem (List.mem_filter.mpr
      ⟨List.mem_filter.mpr ⟨he, decide_eq_true rfl⟩, hended⟩)
  refine ⟨fun a ha => ?_, ?_, fun g hg => ?_, h.unrotated, h.ordered⟩
  · obtain ⟨e, he, hended, hseg, members, hmembers, hrecord⟩ := h.acks a ha
    have hread := hreads e he hended
    refine ⟨members, hmembers, fun hcur => ⟨toVec ryu e.record, ?_, hrecord ▸ hread⟩,
      fun hrot => ⟨toVec ryu e.record, ?_, hrecord ▸ hread⟩⟩
    · rw [h.current.cut hryu]
      exact List.mem_append_right _ (hline _ e he hended (hseg.trans hcur))
    · rw [(h.rotated a.segment hrot.symm).cut hryu]
      exact List.mem_append_right _ (hline _ e he hended hseg)
  · rw [h.current.cut hryu, List.filterMap_append, endedLines_read (hsegment _)]
  · rw [(h.rotated g hg).cut hryu, List.filterMap_append, endedLines_read (hsegment _)]

theorem kept_start (since : ℕ) (s₀ : Spool) : Kept ryu s₀ (Watch.start since s₀) :=
  ⟨content_nil _, nofun, fun _ => rfl, List.forall_mem_nil _, List.forall_mem_nil _, .nil,
    List.forall_mem_nil _⟩

/-- **An acknowledged record is readable**, over every run of calls and restarts, if no call writes
to a file that does not end in a newline.  `fromSlice` is a reader's parser, which reads back what
`serde_json` wrote of the records of this run; `ryu` writes no newline. -/
theorem readable {since : ℕ} {es : List Event} (hryu : ∀ q, nl ∉ ryu q)
    (h : Run (untorn ryu) (Watch.start since s₀) es w)
    (hreads : ∀ e ∈ w.entries, e.ended = true → fromSlice (toVec ryu e.record) = some e.record) :
    Readable ryu fromSlice s₀ w :=
  (h.invariant (I := Kept ryu s₀) (fun _ _ _ => kept_step hryu) (kept_start since s₀)).reads hryu
    hreads

end Read

section Sample

def sampleEvent (n : ℕ) : Json := .obj [("n", .int n)]

/-- Two records, a rotation that the third makes, and a process that starts anew. -/
def sampleEvents : List Event :=
  [.append (sampleEvent 1) 100 allOk, .append (sampleEvent 2) 100 allOk,
    .append (sampleEvent 3) 100 allOk, .restart 9, .append (sampleEvent 4) 1000 allOk]

def sampleEnd : Watch :=
  sampleEvents.foldl (Watch.step sampleRyu) (Watch.start 7 ⟨none, none⟩)

theorem sample_run : Run (untorn sampleRyu) (Watch.start 7 ⟨none, none⟩) sampleEvents sampleEnd :=
  .head ⟨fun _ => by decide +kernel, rfl⟩ (.head ⟨fun _ => by decide +kernel, rfl⟩
    (.head ⟨fun _ => by decide +kernel, rfl⟩ (.head ⟨trivial, rfl⟩
      (.head ⟨fun _ => by decide +kernel, rfl⟩ (.refl _)))))

/-- The parser reads back a record of the samples. -/
theorem sample_reads {n seq since capBytes : ℕ} (hn : n < 2 ^ 63) (hseq : seq < 2 ^ 63)
    (hsince : since < 2 ^ 63) (hcap : capBytes < 2 ^ 63)
    (htext : toVec sampleRyu (spoolRecord [("n", .int n)] seq since capBytes) =
      canonicalText sampleRyu (spoolRecord [("n", .int n)] seq since capBytes)) :
    serdeParse (toVec sampleRyu (spoolRecord [("n", .int n)] seq since capBytes)) =
      some (spoolRecord [("n", .int n)] seq since capBytes) := by
  have hint : ∀ {m : ℕ}, m < 2 ^ 63 → IsValue (.int m) := fun hm => ⟨by omega, by omega⟩
  have hkeys : ["cap_bytes", "seq", "since"].Pairwise fun a b => KeyLt (pyStr a) (pyStr b) := by
    unfold KeyLt
    decide +kernel
  have hinsert : ∀ v : Json, mapInsert "evidence_spool" v [("n", .int n)] =
      [("evidence_spool", v), ("n", .int n)] := fun v => by
    rw [mapInsert, if_neg (by decide), if_neg (by decide +kernel)]
  have hvalue : IsValue (spoolRecord [("n", .int n)] seq since capBytes) :=
    ⟨keysSorted_mapInsert (List.pairwise_singleton _ _),
      areMembers_mapInsert ⟨hkeys, hint hcap, hint hseq, hint hsince, trivial⟩ ⟨hint hn, trivial⟩⟩
  have hfree : containsFloat (spoolRecord [("n", .int n)] seq since capBytes) = false := by
    rw [spoolRecord, hinsert]
    rfl
  have hshallow : depth (spoolRecord [("n", .int n)] seq since capBytes) ≤ 127 := by
    rw [spoolRecord, hinsert]
    simp only [depth, depthMembers, depthMember]
    decide
  rw [htext]
  exact (serdeParse_lineOfMap hvalue hfree).trans (if_pos hshallow)

theorem nl_sampleRyu : ∀ q, nl ∉ sampleRyu q := fun _ => by
  unfold sampleRyu
  decide

set_option maxRecDepth 4096 in
theorem readable_sample : sampleEnd.acks.length = 4 ∧ sampleEnd.rotations = 1 ∧
    Readable sampleRyu serdeParse ⟨none, none⟩ sampleEnd := by
  refine ⟨by decide +kernel, by decide +kernel, ?_⟩
  have hentries : sampleEnd.entries =
      [⟨0, 0, 1, 7, 100, [("n", .int 1)], true⟩, ⟨0, 0, 2, 7, 100, [("n", .int 2)], true⟩,
        ⟨0, 1, 3, 7, 100, [("n", .int 3)], true⟩, ⟨1, 1, 1, 9, 1000, [("n", .int 4)], true⟩] := rfl
  refine readable nl_sampleRyu sample_run fun e he _ => ?_
  rw [hentries] at he
  simp only [List.mem_cons, List.not_mem_nil, or_false] at he
  rcases he with rfl | rfl | rfl | rfl <;>
    exact sample_reads (by decide) (by decide) (by decide) (by decide) (by decide +kernel)

/-- The first write stops after three bytes of its line. -/
def tornEvents : List Event :=
  [.append (sampleEvent 1) 100 { allOk with written := .stopped 3 },
    .append (sampleEvent 2) 100 allOk]

def tornEnd : Watch := tornEvents.foldl (Watch.step sampleRyu) (Watch.start 7 ⟨none, none⟩)

/-- **A torn line hides the record that is acknowledged after it.**  The second call returns Ok, and
the only line of the file is no JSON. -/
theorem torn_tail_hides_record : ¬ ∀ (since : ℕ) (s₀ : Spool) (es : List Event) (w : Watch),
    Run (stepping sampleRyu) (Watch.start since s₀) es w →
    (∀ e ∈ w.entries, e.ended = true → serdeParse (toVec sampleRyu e.record) = some e.record) →
    ∀ a ∈ w.acks, ∃ members, indexMut a.event = some members ∧
      (a.segment = w.rotations → ∃ line ∈ completeLines nl (w.spool.current.getD []),
        serdeParse line = some (spoolRecord members a.seq a.since a.capBytes)) := by
  intro h
  have hentries : tornEnd.entries =
      [⟨0, 0, 1, 7, 100, [("n", .int 1)], false⟩, ⟨0, 0, 2, 7, 100, [("n", .int 2)], true⟩] := rfl
  have hread := h 7 ⟨none, none⟩ tornEvents tornEnd (.head rfl (.single rfl)) (fun e he hended => by
    rw [hentries] at he
    simp only [List.mem_cons, List.not_mem_nil, or_false] at he
    rcases he with rfl | rfl
    · cases hended
    · exact sample_reads (by decide) (by decide) (by decide) (by decide) (by decide +kernel))
    ⟨0, 2, 7, 100, sampleEvent 2⟩ (List.mem_singleton.mpr rfl)
  obtain ⟨members, -, hline⟩ := hread
  obtain ⟨line, hmem, hparse⟩ := hline rfl
  have hnone : ∀ line ∈ completeLines nl (tornEnd.spool.current.getD []),
      (serdeParse line).isNone = true := by decide +kernel
  rw [Option.isNone_iff_eq_none.mp (hnone line hmem)] at hparse
  cases hparse

end Sample

end AzazelEdge.Evidence
