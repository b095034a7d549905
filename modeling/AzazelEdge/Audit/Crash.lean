/-
# Restarting after a crash

Everything a logger knows it reads back from the last line of the newest file that has one.  As long
as every file holds whole lines, that is the last record written, whatever point of a rotation the
process died at, so the next record is a line of its own that links to it (`crash_keeps_chain`).

The logger does not look at the end of the file it appends to.  A crash that cuts the append of a
record leaves a file that does not end in a newline, and the next record is glued to what is there
(`torn_line_is_garbled`); `append` of the Rust writer closes a torn line first.
-/
import AzazelEdge.Audit.Verified
import AzazelEdge.Audit.Windows

namespace AzazelEdge.Audit

open AzazelEdge.Lib AzazelEdge.Lib.Py HashChain

variable {F : Type} [PyFloat F] [PyRepr F] {sha : Text → PyStr} {wide : Text → Option Text}
  {reprOf : PyValue F → PyStr} {dir : Dir} {old new records : List (Record F)} {record : Record F}
  {maxBytes : Option ℕ+} {s t : Host} {logger : Logger} {call : Call F} {a : Answers}

/-! ## 1. The last complete record -/

section Spec

variable (F) (wide)

/-- The last complete line of the retained files. -/
def lastComplete (dir : Dir) : Option Text :=
  (((dir.segment 1).toList ++ dir.active.toList).flatMap (completeLines nl)).getLast?

/-- The `chain_hash` of the last complete record; empty when there is none. -/
def lastCompleteHash (dir : Dir) : PyStr :=
  match lastComplete dir with
  | none => []
  | some line =>
    match (loadsDict wide line : Option (Row F)) with
    | some row => chainHash row
    | none => []

end Spec

/-! ## 2. Files of whole lines -/

/-- The file that holds some records. -/
def linesFile (records : List (Record F)) : Text := fileOf (records.map lineOf)

/-- The chain hash after some records. -/
def lastOf (records : List (Record F)) : PyStr := endHash chainHash [] (records.map rowOf)

/-- A record that `log` made. -/
def ChainedRecord (sha : Text → PyStr) (record : Record F) : Prop :=
  ∃ plain : Record F, (plain.map Prod.fst).Nodup ∧ chained sha plain = some record

/-- The directory holds the records `old` in `.1` and `new` in the active file. -/
structure Files (sha : Text → PyStr) (dir : Dir) (old new : List (Record F)) : Prop where
  old_file : dir.segment 1 = if old = [] then none else some (linesFile old)
  new_file : (dir.active = none ∧ new = []) ∨ dir.active = some (linesFile new)
  chained : ∀ record ∈ old ++ new, ChainedRecord sha record

omit [PyRepr F] in
theorem linesFile_concat (records : List (Record F)) (record : Record F) :
    linesFile (records ++ [record]) = linesFile records ++ lineOf record ++ [nl] := by
  rw [linesFile, List.map_append, List.map_singleton, fileOf_append, fileOf_singleton, linesFile,
    List.append_assoc]

omit [PyRepr F] in
theorem linesFile_end (records : List (Record F)) :
    linesFile records = [] ∨ (linesFile records).getLast? = some nl := by
  by_cases h : records = []
  · exact .inl (by rw [h]; rfl)
  · exact .inr (fileOf_getLast (by simpa using h))

omit [PyRepr F] in
theorem linesFile_eq_nil : linesFile records = [] ↔ records = [] := by
  refine ⟨fun h => ?_, fun h => by rw [h]; rfl⟩
  by_contra hne
  have := (@fileOf_getLast (records.map lineOf)) (by simpa using hne)
  rw [← linesFile, h] at this
  cases this

omit [PyRepr F] in
theorem completeLines_linesFile (records : List (Record F)) :
    completeLines nl (linesFile records) = records.map lineOf :=
  completeLines_fileOf fun line hline => by
    obtain ⟨record, -, rfl⟩ := List.mem_map.mp hline
    exact (printable_lineOf record).no_newline

@[simp] theorem lastOf_nil : lastOf ([] : List (Record F)) = [] := rfl

@[simp] theorem lastOf_concat (records : List (Record F)) (record : Record F) :
    lastOf (records ++ [record]) = chainHash (rowOf record) := by
  rw [lastOf, List.map_append, List.map_singleton, endHash_concat]

theorem lastOf_append (h : new ≠ []) (old : List (Record F)) : lastOf (old ++ new) = lastOf new := by
  obtain ⟨front, record, rfl⟩ := (List.eq_nil_or_concat new).resolve_left h
  rw [List.concat_eq_append, ← List.append_assoc, lastOf_concat, lastOf_concat]

omit [PyRepr F] in
theorem loadsDict_lineOf (wide : Text → Option Text) (record : Record F) :
    loadsDict wide (lineOf record) = some (rowOf record) := by
  rw [loadsDict, loadsBytes_lineOf]

omit [PyRepr F] in
theorem Files.active_of_ne (h : Files sha dir old new) (hnew : new ≠ []) :
    dir.active = some (linesFile new) := h.new_file.resolve_left fun hnone => hnew hnone.2

/-- The last complete record of files of whole lines. -/
theorem Files.lastCompleteHash_eq (h : Files sha dir old new) :
    lastCompleteHash F wide dir = lastOf (old ++ new) := by
  have hold : (dir.segment 1).toList.flatMap (completeLines nl) = old.map lineOf := by
    rw [h.old_file]
    split_ifs with hnone
    · rw [hnone]
      rfl
    · rw [Option.toList_some, List.flatMap_singleton, completeLines_linesFile]
  have hnew : dir.active.toList.flatMap (completeLines nl) = new.map lineOf := by
    rcases h.new_file with ⟨hnone, rfl⟩ | hsome
    · rw [hnone]
      rfl
    · rw [hsome, Option.toList_some, List.flatMap_singleton, completeLines_linesFile]
  rw [lastCompleteHash, lastComplete, List.flatMap_append, hold, hnew, ← List.map_append,
    List.getLast?_map]
  rcases List.eq_nil_or_concat (old ++ new) with hnil | ⟨front, record, hconcat⟩
  · rw [hnil]
    rfl
  · rw [hconcat, List.concat_eq_append, List.getLast?_concat, Option.map_some, lastOf_concat]
    simp only [loadsDict_lineOf]

/-- **The logger reads back the hash of the last record.** -/
theorem Files.readLastChainHash_eq (h : Files sha dir old new) (hmax : maxBytes = none → old = []) :
    readLastChainHash F wide maxBytes dir = lastOf (old ++ new) := by
  -- the last line of a file that holds records
  have hread : ∀ records : List (Record F), records ≠ [] →
      (match (loadsDict wide (lineTail nl (dropNewline (window false (linesFile records)))) :
          Option (Row F)) with
        | some row => chainHash row
        | none => []) = lastOf records := by
    intro records hne
    obtain ⟨front, record, rfl⟩ := (List.eq_nil_or_concat records).resolve_left hne
    rw [List.concat_eq_append, linesFile_concat,
      lastLine_window (linesFile_end front) (printable_lineOf record).no_newline, loadsDict_lineOf,
      lastOf_concat]
  have hempty : new = [] → lastFile maxBytes dir =
      if old = [] then none else some (linesFile old) := by
    intro hnil
    have hactive : dir.active = none ∨ dir.active = some [] := by
      rcases h.new_file with ⟨hnone, -⟩ | hsome
      · exact .inl hnone
      · exact .inr (by rw [hsome, hnil]; rfl)
    have hlast : lastFile maxBytes dir = if maxBytes.isNone then none else dir.segment 1 := by
      rcases hactive with hactive | hactive <;> rw [lastFile, hactive]
    rw [hlast, h.old_file]
    cases maxBytes with
    | none => rw [hmax rfl]; rfl
    | some m => rfl
  by_cases hnew : new = []
  · rw [readLastChainHash, hempty hnew, hnew, List.append_nil]
    by_cases hold : old = []
    · rw [if_pos hold, hold]
      rfl
    · rw [if_neg hold]
      exact hread old hold
  · have hactive : dir.active = some (linesFile new) :=
      h.new_file.resolve_left fun hnone => hnew hnone.2
    have hlast : lastFile maxBytes dir = some (linesFile new) := by
      rw [lastFile, hactive]
      cases hfile : linesFile new with
      | nil => exact absurd (linesFile_eq_nil.mp hfile) hnew
      | cons c cs => rfl
    rw [readLastChainHash, hlast, lastOf_append hnew]
    exact hread new hnew

omit [PyRepr F] in
theorem Files.of_full (h : Files sha dir old new) (hfull : full logger dir = true) : new ≠ [] := by
  intro hnil
  rcases h.new_file with ⟨hnone, -⟩ | hsome
  · simp [full, hnone] at hfull
  · cases hmax : logger.maxBytes with
    | none => simp [full, hmax] at hfull
    | some m =>
      simp only [full, hmax, hsome, hnil, linesFile, List.map_nil, fileOf_nil, List.length_nil,
        decide_eq_true_eq, Nat.le_zero] at hfull
      exact m.2.ne' hfull

omit [PyRepr F] in
theorem Files.unlinked (h : Files sha dir old new) :
    Files sha { dir with segment := setFirst dir.segment none } [] new :=
  ⟨rfl, h.new_file, fun r hr => h.chained r (List.mem_append_right _ hr)⟩

omit [PyRepr F] in
theorem Files.rotated (h : Files sha dir old new) (hnew : new ≠ []) :
    Files sha { dir with active := none, segment := setFirst dir.segment dir.active } new [] := by
  refine ⟨?_, .inl ⟨rfl, rfl⟩, fun r hr => h.chained r (List.mem_append_right _ ?_)⟩
  · rw [if_neg hnew]
    exact h.active_of_ne hnew
  · rwa [List.append_nil] at hr

omit [PyRepr F] in
/-- **Making room keeps whole lines**, and the records of the active file. -/
theorem Files.room (h : Files sha dir old new) (a : Answers) :
    ∃ old' new' : List (Record F), Files sha (makeRoom logger a dir) old' new' ∧
      (old' = old ∧ new' = new ∨ full logger dir = true ∧ new ≠ [] ∧
        (old' = [] ∧ new' = new ∨ old' = new ∧ new' = [])) := by
  rcases makeRoom_cases logger a dir with hsame | ⟨hfull, hunlinked⟩ | ⟨hfull, hrotated⟩
  · exact ⟨old, new, by rwa [hsame], .inl ⟨rfl, rfl⟩⟩
  · exact ⟨[], new, hunlinked ▸ h.unlinked, .inr ⟨hfull, h.of_full hfull, .inl ⟨rfl, rfl⟩⟩⟩
  · exact ⟨new, [], hrotated ▸ h.rotated (h.of_full hfull),
      .inr ⟨hfull, h.of_full hfull, .inr ⟨rfl, rfl⟩⟩⟩

omit [PyRepr F] in
/-- A record appended whole, or nothing of one, keeps whole lines. -/
theorem Files.append (h : Files sha dir old new) (hrecord : ChainedRecord sha record) :
    Files sha (appendBytes (lineOf record ++ [nl]) dir) old (new ++ [record]) := by
  refine ⟨h.old_file, .inr ?_, fun r hr => ?_⟩
  · rw [linesFile_concat, List.append_assoc]
    rcases h.new_file with ⟨hnone, rfl⟩ | hsome
    · rw [appendBytes, hnone]
      rfl
    · rw [appendBytes, hsome]
      rfl
  · rw [← List.append_assoc, List.mem_append, List.mem_singleton] at hr
    rcases hr with hr | rfl
    · exact h.chained r hr
    · exact hrecord

omit [PyRepr F] in
theorem Files.create (h : Files sha dir old new) : Files sha (appendBytes [] dir) old new := by
  refine ⟨h.old_file, .inr ?_, h.chained⟩
  rcases h.new_file with ⟨hnone, rfl⟩ | hsome
  · rw [appendBytes, hnone]
    rfl
  · rw [appendBytes, hsome, Option.getD_some, List.append_nil]

omit [PyRepr F] in
theorem chainedRecord_next (h : nextRecord sha logger dir call = some record) :
    ChainedRecord sha record := ⟨_, record_nodup _ _ _, h⟩

/-! ## 3. Runs -/

section Runs

variable (sha wide reprOf) (maxBytes)

/-- No append leaves a part of its line behind, and the logger is reopened as it was. -/
def Whole (s : Host) : Event F → Prop
  | .log _ a => ∀ bytes, a.append = .failed bytes → bytes = 0
  | .reopen m => m = maxBytes
  | .crash call a point m => m = maxBytes ∧ ∀ bytes record, point = .appended bytes →
      nextRecord sha s.logger (makeRoom s.logger a s.dir) call = some record →
        bytes = 0 ∨ (lineOf record).length + 1 ≤ bytes

/-- A step of such a run. -/
def wholeStep (s : Host) (e : Event F) (t : Host) : Prop :=
  Whole sha maxBytes s e ∧ t = step reprOf sha wide s e

/-- Whole lines, and a logger that knows the last of them. -/
structure Clean (s : Host) (old new : List (Record F)) : Prop where
  files : Files sha s.dir old new
  max : s.logger.maxBytes = maxBytes
  last : s.logger.lastChainHash = lastOf (old ++ new)
  unrotated : maxBytes = none → old = []

end Runs

omit [PyRepr F] in
theorem take_line {bytes : ℕ} (h : bytes = 0 ∨ (lineOf record).length + 1 ≤ bytes) :
    (lineOf record ++ [nl]).take bytes = [] ∨
      (lineOf record ++ [nl]).take bytes = lineOf record ++ [nl] := by
  rcases h with rfl | h
  · exact .inl rfl
  · exact .inr (List.take_of_length_le (by simpa using h))

/-- Opening a logger on whole lines. -/
theorem Files.opened (h : Files sha dir old new) (hmax : maxBytes = none → old = []) :
    Clean sha maxBytes (start (F := F) wide maxBytes dir) old new :=
  ⟨h, rfl, h.readLastChainHash_eq hmax, hmax⟩

/-- What making room leaves, with the last record unchanged. -/
theorem Clean.room (h : Clean sha maxBytes s old new) (a : Answers) :
    ∃ old' new' : List (Record F), Files sha (makeRoom s.logger a s.dir) old' new' ∧
      lastOf (old' ++ new') = lastOf (old ++ new) ∧ (maxBytes = none → old' = []) := by
  obtain ⟨old', new', hfiles, hcase⟩ := h.files.room a
  refine ⟨old', new', hfiles, ?_⟩
  rcases hcase with ⟨rfl, rfl⟩ | ⟨hfull, hnew, hcase⟩
  · exact ⟨rfl, h.unrotated⟩
  · have hnone : maxBytes ≠ none := by
      intro hnone
      simp [full, h.max, hnone] at hfull
    rcases hcase with ⟨rfl, rfl⟩ | ⟨rfl, rfl⟩
    · exact ⟨by rw [List.nil_append, lastOf_append hnew], fun hmax => absurd hmax hnone⟩
    · exact ⟨by rw [List.append_nil, lastOf_append hnew], fun hmax => absurd hmax hnone⟩

/-- **What a crash leaves is whole lines**, ending in the last record or the one being written. -/
theorem Clean.crashed (h : Clean sha maxBytes s old new) {point : CrashPoint} {m : Option ℕ+}
    (hwhole : Whole sha maxBytes s (.crash call a point m)) :
    ∃ old' new' : List (Record F), Files sha (crashDir sha s.logger s.dir call a point) old' new' ∧
      (maxBytes = none → old' = []) ∧
      (lastOf (old' ++ new') = lastOf (old ++ new) ∨
        ∃ record, nextRecord sha s.logger (makeRoom s.logger a s.dir) call =
          some record ∧ lastOf (old' ++ new') = chainHash (rowOf record)) := by
  rcases crashDir_cases sha s.logger s.dir call a point with
    hsame | ⟨hfull, hunlinked⟩ | hroom | ⟨record, bytes, hrecord, hpoint, hbytes⟩
  · exact ⟨old, new, by rw [hsame]; exact h.files, h.unrotated, .inl rfl⟩
  · -- the crash came between the removal of `.1` and the rename
    have hunlink : makeRoom s.logger ⟨true, false, .done, .synced⟩ s.dir =
        { s.dir with segment := setFirst s.dir.segment none } := by
      simp [makeRoom, rotate, hfull]
    obtain ⟨old', new', hfiles, hlast, hmax⟩ := h.room ⟨true, false, .done, .synced⟩
    rw [hunlink] at hfiles
    exact ⟨old', new', by rwa [hunlinked], hmax, .inl hlast⟩
  · obtain ⟨old', new', hfiles, hlast, hmax⟩ := h.room a
    exact ⟨old', new', by rwa [hroom], hmax, .inl hlast⟩
  · obtain ⟨old', new', hfiles, hlast, hmax⟩ := h.room a
    rw [hbytes]
    rcases take_line (hwhole.2 bytes record hpoint hrecord) with hnone | hline
    · rw [hnone]
      exact ⟨old', new', hfiles.create, hmax, .inl hlast⟩
    · rw [hline]
      exact ⟨old', new' ++ [record], hfiles.append (chainedRecord_next hrecord), hmax,
        .inr ⟨record, hrecord, by rw [← List.append_assoc, lastOf_concat]⟩⟩

/-- **Every step keeps whole lines and a logger that knows the last of them.** -/
theorem clean_step (hsha : HexDigest sha) {e : Event F}
    (h : ∃ old new, Clean (F := F) sha maxBytes s old new)
    (hstep : wholeStep sha wide reprOf maxBytes s e t) :
    ∃ old new, Clean (F := F) sha maxBytes t old new := by
  obtain ⟨old, new, h⟩ := h
  obtain ⟨hwhole, rfl⟩ := hstep
  cases e with
  | reopen m =>
    obtain rfl : m = maxBytes := hwhole
    exact ⟨old, new, h.files.opened h.unrotated⟩
  | crash call a point m =>
    obtain ⟨old', new', hfiles, hmax, -⟩ := h.crashed hwhole
    obtain rfl : m = maxBytes := hwhole.1
    exact ⟨old', new', hfiles.opened hmax⟩
  | log call a =>
    obtain ⟨old', new', hfiles, hlast, hmax⟩ := h.room a
    rcases log_cases reprOf sha s.logger s.dir call a with
      ⟨record, -, happended⟩ | ⟨-, hlogger, hdir⟩
    · refine ⟨old', new' ++ [record], ?_, ?_, ?_, hmax⟩
      · simp only [step]
        rw [happended.dir_eq]
        exact hfiles.append (chainedRecord_next happended.record_eq)
      · simp only [step]
        rw [happended.logger_eq]
        exact h.max
      · simp only [step]
        rw [happended.logger_eq, ← List.append_assoc, lastOf_concat]
        exact valueStrOr_chainHash hsha reprOf (record_nodup _ _ _) happended.record_eq
    · have hstays : ∀ {old' new' : List (Record F)}, Files sha (log reprOf sha s.logger s.dir call a).1
          old' new' → lastOf (old' ++ new') = lastOf (old ++ new) → (maxBytes = none → old' = []) →
          ∃ old new, Clean (F := F) sha maxBytes (step reprOf sha wide s (.log call a)) old new := by
        intro old' new' hfiles hlast hmax
        refine ⟨old', new', hfiles, ?_, ?_, hmax⟩
        · simp only [step]
          rw [hlogger]
          exact h.max
        · simp only [step]
          rw [hlogger, hlast]
          exact h.last
      rcases hdir with hsame | hroom | ⟨record, bytes, -, hfailed, hbytes⟩
      · exact hstays (by rw [hsame]; exact h.files) rfl h.unrotated
      · exact hstays (by rwa [hroom]) hlast hmax
      · obtain rfl := hwhole bytes hfailed
        exact hstays (by rw [hbytes]; exact hfiles.create) hlast hmax

/-- **A crash never restarts or garbles the chain.**  In every run of calls, restarts and crashes that
leaves no part of a line behind: a record that is appended is a line of its own, it parses, and unless
its payload names `chain_prev` it links to the last complete record; and a crash leaves that record
the last one, or the one it was writing. -/
theorem crash_keeps_chain (hsha : HexDigest sha) (name : String) {es : List (Event F)}
    (hrun : Run (wholeStep sha wide reprOf maxBytes) (start (F := F) wide maxBytes (fresh name)) es s) :
    (∀ call a record, (log reprOf sha s.logger s.dir call a).2.2.record? = some record →
      (∃ before, (log reprOf sha s.logger s.dir call a).1.active =
          some (before ++ lineOf record ++ [nl]) ∧
        (before = [] ∨ before.getLast? = some nl) ∧ nl ∉ lineOf record) ∧
      loadsDict wide (lineOf record) = some (rowOf record) ∧
      (kChainPrev ∉ call.payload.map Prod.fst →
        chainPrev (rowOf record) = lastCompleteHash F wide s.dir)) ∧
    ∀ call a point m, Whole sha maxBytes s (.crash call a point m) →
      lastCompleteHash F wide (step reprOf sha wide s (.crash call a point m)).dir =
          lastCompleteHash F wide s.dir ∨
        ∃ record, nextRecord sha s.logger (makeRoom s.logger a s.dir) call = some record ∧
          lastCompleteHash F wide (step reprOf sha wide s (.crash call a point m)).dir =
            chainHash (rowOf record) := by
  have hstart : ∃ old new, Clean (F := F) sha maxBytes
      (start (F := F) wide maxBytes (fresh name)) old new :=
    ⟨[], [], Files.opened ⟨rfl, .inl ⟨rfl, rfl⟩, fun _ h => by cases h⟩ fun _ => rfl⟩
  obtain ⟨old, new, h⟩ := hrun.invariant
    (I := fun s => ∃ old new, Clean (F := F) sha maxBytes s old new)
    (fun _ _ _ hs hstep => clean_step hsha hs hstep) hstart
  rw [h.files.lastCompleteHash_eq]
  refine ⟨fun call a record hrecord => ?_, fun call a point m hwhole => ?_⟩
  · have happended := log_appended hrecord
    obtain ⟨old', new', hfiles, hlast, -⟩ := h.room a
    have hactive := (hfiles.append (chainedRecord_next happended.record_eq)).new_file
    refine ⟨⟨linesFile new', ?_, linesFile_end new', (printable_lineOf record).no_newline⟩,
      loadsDict_lineOf wide record, fun hfree => ?_⟩
    · rw [happended.dir_eq, ← linesFile_concat]
      exact hactive.resolve_left fun hnone => by simp at hnone
    · have hplain : Plain s.logger.lastChainHash := by
        rw [h.last]
        rcases List.eq_nil_or_concat (old ++ new) with hnil | ⟨front, r, hconcat⟩
        · rw [hnil]
          exact fun c hc => by cases hc
        · obtain ⟨plain, hnodup, hchained⟩ := h.files.chained r (by rw [hconcat]; simp)
          rw [hconcat, List.concat_eq_append, lastOf_concat, chainHash_rowOf hsha hnodup hchained]
          exact hsha.plain _
      rw [← h.last]
      refine chainPrev_rowOf hplain (fun value hvalue => ?_) happended.record_eq
      rw [getKey_eq_none.mpr hfree] at hvalue
      cases hvalue
  · obtain ⟨old', new', hfiles, -, hlast⟩ := h.crashed hwhole
    have hdir : (step reprOf sha wide s (.crash call a point m)).dir =
        crashDir sha s.logger s.dir call a point := rfl
    rw [hdir, hfiles.lastCompleteHash_eq]
    exact hlast

/-- A process after one record. -/
def sampleLogged : Host :=
  step sampleRepr Sha256.hexdigest sampleWide sampleStart (.log sampleCall allDone)

/-- The same after a crash in the next append, so many bytes in. -/
def sampleCrashed (bytes : ℕ) : Host :=
  step sampleRepr Sha256.hexdigest sampleWide sampleLogged
    (.crash sampleCall allDone (.appended bytes) none)

theorem crash_keeps_chain_sample : ∃ record,
    (log sampleRepr Sha256.hexdigest (sampleCrashed 0).logger (sampleCrashed 0).dir sampleCall
      allDone).2.2.record? = some record ∧
    chainPrev (rowOf record) = lastCompleteHash NaN sampleWide (sampleCrashed 0).dir := by
  have hrecord : (log sampleRepr Sha256.hexdigest (sampleCrashed 0).logger (sampleCrashed 0).dir
      sampleCall allDone).2.2.record?.isSome = true := by decide +kernel
  obtain ⟨record, hrecord⟩ := Option.isSome_iff_exists.mp hrecord
  have hlog : Whole Sha256.hexdigest none sampleStart (.log sampleCall allDone) :=
    fun _ hfailed => by cases hfailed
  have hcrash : Whole Sha256.hexdigest none sampleLogged
      (.crash sampleCall allDone (.appended 0) none) :=
    ⟨rfl, fun _ _ hpoint _ => .inl (CrashPoint.appended.inj hpoint).symm⟩
  have hrun : Run (wholeStep Sha256.hexdigest sampleWide sampleRepr none) sampleStart
      [.log sampleCall allDone, .crash sampleCall allDone (.appended 0) none] (sampleCrashed 0) :=
    .head ⟨hlog, rfl⟩ (.single ⟨hcrash, rfl⟩)
  have h := (crash_keeps_chain hexDigest_hexdigest "audit.jsonl" hrun).1 sampleCall allDone record
    hrecord
  exact ⟨record, hrecord, h.2.2 (by decide +kernel)⟩

/-- **A record after a torn line is garbled.**  The crash cut the second append after five bytes; the
third call returns, its record has an empty `chain_prev` where the chain has a last record, and its
line does not parse. -/
theorem torn_line_is_garbled :
    (log sampleRepr Sha256.hexdigest (sampleCrashed 5).logger (sampleCrashed 5).dir sampleCall
      allDone).2.2.isReturned = true ∧
    (nextRecord Sha256.hexdigest (sampleCrashed 5).logger (sampleCrashed 5).dir sampleCall).map
      (fun record => chainPrev (rowOf record)) = some [] ∧
    lastCompleteHash NaN sampleWide sampleLogged.dir ≠ [] ∧
    ((lastComplete (log sampleRepr Sha256.hexdigest (sampleCrashed 5).logger
      (sampleCrashed 5).dir sampleCall allDone).1).map fun line =>
        (loadsDict (F := NaN) sampleWide line).isNone) = some true := by
  decide +kernel

end AzazelEdge.Audit
