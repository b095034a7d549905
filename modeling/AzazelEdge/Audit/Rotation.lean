/-
# Rotation and the chain's identity

The genesis record names the chain by its own hash; once that record is rotated out, the first record
of the oldest retained file has to carry the name in `chain_id`.  `log` writes it into a record that
starts a new file, and takes a file that is there already for one that has its name.  `Retained` says
what follows when that is true: the first record of each file is the genesis record or carries the
chain's id, and the retained files are one chain.

A crash between the creation of the active file and its first line makes it false: the next record
finds the file there and leaves the id out, and one rotation later the chain starts with a record that
continues another and names no chain (`created_file_cuts_start`).
-/
import AzazelEdge.Audit.Crash
import AzazelEdge.Audit.Ends

namespace AzazelEdge.Audit

open AzazelEdge.Lib AzazelEdge.Lib.Py HashChain

variable {F : Type} [PyFloat F] [PyRepr F] {sha : Text → PyStr} {wide : Text → Option Text}
  {reprOf : PyValue F → PyStr} {dir : Dir} {old new records : List (Record F)} {record : Record F}
  {row : Row F} {rows : List (Row F)} {g : PyStr} {s : Host} {logger : Logger} {call : Call F}
  {a : Answers}

/-! ## 1. What the readers find in files of whole lines -/

/-- `_last_hash` of a file whose last line is not too long. -/
theorem lastHash_linesFile (hshort : ∀ r ∈ records, (lineOf r).length + 2 ≤ windowMax)
    (hne : records ≠ []) : lastHash F wide (linesFile records) = lastOf records := by
  obtain ⟨front, record, rfl⟩ := (List.eq_nil_or_concat records).resolve_left hne
  rw [List.concat_eq_append] at *
  obtain ⟨hline, hend⟩ := lastLine_window_bounded (linesFile_end front)
    (printable_lineOf record).no_newline (hshort record (by simp))
  rw [dropNewline, if_pos hend] at hline
  rw [linesFile_concat, lastHash]
  simp only [if_pos hend]
  rw [hline, loadsDict_lineOf, lastOf_concat]

omit [PyRepr F] in
/-- `_head` of a file whose first line is not too long. -/
theorem head_linesFile (hshort : (lineOf record).length < headMax) (records : List (Record F)) :
    head wide (linesFile (record :: records)) = some (rowOf record) := by
  have hfile : linesFile (record :: records) = lineOf record ++ nl :: linesFile records := by
    rw [linesFile, List.map_cons, fileOf, List.flatMap_cons, List.append_assoc]
    rfl
  rw [head, hfile, headLine_eq (printable_lineOf record).no_newline hshort, Option.bind_some,
    loadsDict_lineOf]

omit [PyRepr F] in
theorem loadRows_lines (wide : Text → Option Text) (done : ℕ) (records : List (Record F)) :
    loadRows wide done (records.map lineOf) = .ok (records.map rowOf) := by
  induction records generalizing done with
  | nil => rfl
  | cons record records ih =>
    rw [List.map_cons, loadRows, loadsDict_lineOf]
    simp only [ih (done + 1), List.map_cons]

theorem checkRows_chain {prev : PyStr} (done : ℕ) (h : Chain sha prev rows)
    (hids : ∀ row ∈ rows, otherChain g row = false) :
    checkRows sha g done rows prev = .ok (done + rows.length) := by
  induction rows generalizing done prev with
  | nil => rfl
  | cons row rows ih =>
    obtain ⟨⟨hprev, hlinked⟩, hsound⟩ := h
    have hrow := hsound row List.mem_cons_self
    have hrest := ih (done + 1) ⟨hlinked, fun r hr => hsound r (List.mem_cons_of_mem _ hr)⟩
      fun r hr => hids r (List.mem_cons_of_mem _ hr)
    rw [checkRows, if_neg (not_not.mpr hprev), hids row List.mem_cons_self, if_neg (by decide),
      if_neg (not_not.mpr hrow), hrest, List.length_cons]
    congr 1
    omega

theorem startOf_linked {start : PyStr} (h : Linked chainPrev chainHash start rows) :
    Linked chainPrev chainHash (startOf rows) rows := by
  cases rows with
  | nil => trivial
  | cons row rows => exact ⟨rfl, h.2⟩

theorem Chain.rest {start : PyStr} {front : List (Row F)} (h : Chain sha start (front ++ rows)) :
    Chain sha (startOf rows) rows :=
  ⟨startOf_linked (linked_append.mp h.linked).2, fun r hr => h.sound r (List.mem_append_right _ hr)⟩

/-! ## 2. The retained files -/

/-- The first record of a file: it names the chain `g`, or is its genesis record. -/
def NamesChain (g : PyStr) (row : Row F) : Prop :=
  namedChain row = some g ∨ namedChain row = none ∧ chainPrev row = [] ∧ chainHash row = g

theorem NamesChain.chainIdOf_eq (h : NamesChain g row) : chainIdOf row = g := by
  rcases h with hnamed | ⟨hnamed, hprev, hhash⟩
  · rw [chainIdOf, hnamed]
  · rw [chainIdOf, hnamed]
    simp [hprev, hhash]

/-- The rows of some records. -/
abbrev rowsIn (records : List (Record F)) : List (Row F) := records.map rowOf

/-- **What holds of the retained files**: `.1` holds `old`, the active file holds `new`, and the two
are one chain with the id `g`, which the first record of each file tells. -/
structure Retained (sha : Text → PyStr) (g : PyStr) (dir : Dir) (old new : List (Record F)) :
    Prop where
  files : Files sha dir old new
  others : ∀ n, 2 ≤ n → dir.segment n = none
  begun : old ≠ [] → new = [] → dir.active = none
  chain : Chain sha (startOf (rowsIn (old ++ new))) (rowsIn (old ++ new))
  first : ∀ row ∈ (rowsIn (old ++ new)).head?, NamesChain g row
  second : old ≠ [] → ∀ row ∈ (rowsIn new).head?, namedChain row = some g
  ids : ∀ row ∈ rowsIn (old ++ new), otherChain g row = false
  short : ∀ record ∈ old ++ new, (lineOf record).length + 2 ≤ windowMax
  old_head : ∀ record ∈ old.head?, (lineOf record).length < headMax
  new_head : ∀ record ∈ new.head?, (lineOf record).length < headMax

/-- The file of some records, if there are any. -/
def fileIfAny (records : List (Record F)) : List Text :=
  if records = [] then [] else [linesFile records]

omit [PyRepr F] in
theorem fileIfAny_of_ne (h : records ≠ []) : fileIfAny records = [linesFile records] := if_neg h

theorem Retained.openSegments_eq (h : Retained sha g dir old new) :
    openSegments dir maxSegments 1 = (fileIfAny old, if old = [] then 1 else 2) := by
  have hmax : maxSegments = 14 + 1 + 1 := rfl
  rw [hmax, openSegments, openSegments, h.files.old_file, h.others 2 (by decide), fileIfAny]
  split_ifs with hold <;> simp

theorem Retained.openFiles_eq (h : Retained sha g dir old new) (hne : old ++ new ≠ []) :
    openFiles dir = fileIfAny new ++ fileIfAny old := by
  rw [openFiles, h.openSegments_eq]
  congr 1
  by_cases hnew : new = []
  · have hold : old ≠ [] := fun hold => hne (by rw [hold, hnew]; rfl)
    rw [h.begun hold hnew, fileIfAny, if_pos hnew]
    rfl
  · rw [h.files.new_file.resolve_left fun hnone => hnew hnone.2, fileIfAny_of_ne hnew]
    rfl

theorem Retained.consistent_eq (h : Retained sha g dir old new) : consistent dir = true := by
  rw [consistent, h.openSegments_eq]
  simp only
  rw [h.others _ (by split_ifs <;> omega)]
  simp

/-- **The rotated file continues the active one.** -/
theorem Retained.linked_eq (h : Retained sha g dir old new) (hne : old ++ new ≠ []) :
    linked F wide (openFiles dir) = openFiles dir := by
  rw [h.openFiles_eq hne]
  by_cases hnew : new = []
  · rw [fileIfAny, if_pos hnew, List.nil_append, fileIfAny]
    split_ifs <;> rfl
  by_cases hold : old = []
  · rw [fileIfAny_of_ne hnew, fileIfAny, if_pos hold]
    rfl
  obtain - | ⟨record, rest⟩ := new
  · exact absurd rfl hnew
  have hhead := (@head_linesFile _ _ wide) (h.new_head record (by simp)) rest
  have hlast := (@lastHash_linesFile _ _ _ wide)
    (fun r hr => h.short r (List.mem_append_left _ hr)) hold
  -- the first record of the active file names the last one of `.1`
  have hprev : chainPrev (rowOf record) = lastOf old := by
    have hlinked := h.chain.linked
    rw [rowsIn, List.map_append, linked_append] at hlinked
    rw [hlinked.2.1, lastOf, endHash_eq_getLast (by simpa using hold),
      endHash_eq_getLast (by simpa using hold)]
  rw [fileIfAny_of_ne hnew, fileIfAny_of_ne hold]
  simp only [List.singleton_append, linked, hhead, Option.isNone_some, linkedFrom, hprev, hlast]
  simp

/-- The first row of the oldest file is read. -/
theorem Retained.head_oldest (h : Retained sha g dir old new) (hne : old ++ new ≠ []) :
    ∃ record rest, old ++ new = record :: rest ∧
      (linked F wide (openFiles dir)).getLast?.bind (head wide) = some (rowOf record) := by
  rw [h.linked_eq hne, h.openFiles_eq hne]
  by_cases hold : old = []
  · obtain - | ⟨record, rest⟩ := new
    · exact absurd (by rw [hold]; rfl) hne
    refine ⟨record, rest, by rw [hold]; rfl, ?_⟩
    rw [fileIfAny, if_neg (by simp), fileIfAny, if_pos hold, List.append_nil]
    exact head_linesFile (h.new_head record (by simp)) rest
  · obtain - | ⟨record, rest⟩ := old
    · exact absurd rfl hold
    refine ⟨record, rest ++ new, rfl, ?_⟩
    rw [fileIfAny_of_ne hold, List.getLast?_concat]
    exact head_linesFile (h.old_head record (by simp)) rest

omit [PyRepr F] in
theorem rowOf_ne_nil (h : ChainedRecord sha record) : (rowOf record).isEmpty = false := by
  obtain ⟨plain, hnodup, hchained⟩ := h
  have hget := getKey_chainHash hnodup hchained
  cases hrow : rowOf record with
  | nil =>
    rw [hrow] at hget
    cases hget
  | cons => rfl

/-- **`read_chain` names the chain by its genesis record.** -/
theorem Retained.chainId_eq (h : Retained sha g dir old new) (hne : old ++ new ≠ [])
    (budget : Option ℕ) : (readChain F wide dir budget).chainId = g := by
  obtain ⟨record, rest, hrecords, hhead⟩ := @Retained.head_oldest _ _ _ _ wide _ _ _ _ h hne
  have hmem : record ∈ old ++ new := by rw [hrecords]; exact List.mem_cons_self
  have hfirst := h.first (rowOf record) (by rw [rowsIn, hrecords]; rfl)
  simp only [readChain, hhead, rowOf_ne_nil (h.files.chained record hmem), hfirst.chainIdOf_eq]
  rfl

theorem takeLines_all (files : List Text) :
    takeLines none files = (files.map (completeLines nl), false) := by
  induction files with
  | nil => rfl
  | cons file files ih =>
    rw [takeLines, if_neg (by simp)]
    simp [ih]

theorem Retained.lines_eq (h : Retained sha g dir old new) (hne : old ++ new ≠ []) :
    (readChain F wide dir none).lines = (old ++ new).map lineOf := by
  have hlines : ∀ records : List (Record F),
      ((fileIfAny records).map (completeLines nl)).flatten = records.map lineOf := by
    intro records
    rw [fileIfAny]
    split_ifs with hnone
    · rw [hnone]
      rfl
    · simp [completeLines_linesFile]
  have hreverse : ∀ records : List (Record F), (fileIfAny records).reverse = fileIfAny records := by
    intro records
    rw [fileIfAny]
    split_ifs <;> rfl
  simp only [readChain, takeLines_all, h.linked_eq hne]
  rw [h.openFiles_eq hne, ← List.map_reverse, List.reverse_append, hreverse, hreverse,
    List.map_append, List.flatten_append, hlines, hlines, List.map_append]

omit [PyRepr F] in
theorem isTorn_linesFile (records : List (Record F)) : isTorn (linesFile records) = false := by
  rcases linesFile_end records with h | h
  · rw [isTorn, h]
    rfl
  · rw [isTorn, h]
    simp

/-- **The retained files verify.** -/
theorem Retained.verified (h : Retained sha g dir old new) (hne : old ++ new ≠ []) :
    (verifyAuditChain F sha wide dir).ok = true ∧
      (verifyAuditChain F sha wide dir).verified = true ∧
      ((verifyAuditChain F sha wide dir).scope = .fromGenesis ∨
        (verifyAuditChain F sha wide dir).scope = .fromRotationBoundary) := by
  have hpresent : ¬ (dir.active.isNone ∧ (dir.segment 1).isNone) := by
    rintro ⟨hactive, hsegment⟩
    have hfiles := h.openFiles_eq hne
    rw [openFiles, h.openSegments_eq, Option.isNone_iff_eq_none.mp hactive] at hfiles
    have hold : old = [] := by
      by_contra hold
      rw [h.files.old_file, if_neg hold] at hsegment
      cases hsegment
    have hnew : new = [] := by
      by_contra hnew
      rw [h.files.new_file.resolve_left fun hnone => hnew hnone.2] at hactive
      cases hactive
    exact hne (by rw [hold, hnew]; rfl)
  have hunlinked : (readChain F wide dir none).unlinkedSegments = 0 := by
    simp only [readChain, h.linked_eq hne]
    omega
  have htorn : (readChain F wide dir none).files.findIdx? isTorn = none := by
    rw [List.findIdx?_eq_none_iff]
    intro file hfile
    simp only [readChain, h.linked_eq hne, List.mem_reverse] at hfile
    rw [h.openFiles_eq hne, List.mem_append] at hfile
    have hany : ∀ records : List (Record F), file ∈ fileIfAny records → isTorn file = false := by
      intro records hmem
      rw [fileIfAny] at hmem
      split_ifs at hmem
      · cases hmem
      · rw [List.mem_singleton.mp hmem]
        exact isTorn_linesFile records
    exact hfile.elim (hany new) (hany old)
  have hconsistent : (readChain F wide dir none).consistent = true := h.consistent_eq
  obtain ⟨record, rest, hrecords⟩ := List.exists_cons_of_ne_nil hne
  have hfirst := h.first (rowOf record) (by rw [rowsIn, hrecords]; rfl)
  have hstart : startOf (rowsIn (old ++ new)) = chainPrev (rowOf record) := by
    rw [rowsIn, hrecords]
    rfl
  have hcut : ¬ (chainPrev (rowOf record) ≠ [] ∧ namedChain (rowOf record) = none) := by
    rintro ⟨hprev, hnamed⟩
    rcases hfirst with hfirst | ⟨-, hgenesis, -⟩
    · rw [hnamed] at hfirst
      cases hfirst
    · exact hprev hgenesis
  have hcheck : checkRows sha (chainIdOf (rowOf record)) 0 (rowOf record :: rowsIn rest)
      (chainPrev (rowOf record)) = .ok (rowsIn (old ++ new)).length := by
    have hall := checkRows_chain 0 h.chain h.ids
    rw [Nat.zero_add, hstart] at hall
    rw [hfirst.chainIdOf_eq, ← hall, rowsIn, rowsIn, hrecords, List.map_cons]
  have hverdict : verifyAuditChain F sha wide dir =
      reviewRows sha (retainedFiles dir (readChain F wide dir none).files.length)
        (readChain F wide dir none).chainId (rowsIn (old ++ new)) := by
    rw [verifyAuditChain, if_neg hpresent]
    simp only [hconsistent, hunlinked, htorn, h.lines_eq hne, loadRows_lines]
    simp
  rw [hverdict, rowsIn, hrecords, List.map_cons, reviewRows, if_neg hcut, hcheck]
  refine ⟨rfl, rfl, ?_⟩
  by_cases hprev : chainPrev (rowOf record) = [] <;> simp [hprev]

/-! ## 3. What a step does -/

theorem Retained.fresh (sha : Text → PyStr) (name : String) :
    Retained (F := F) sha [] (fresh name) [] [] where
  files := ⟨rfl, .inl ⟨rfl, rfl⟩, nofun⟩
  others _ _ := rfl
  begun h := absurd rfl h
  chain := Chain.nil _ _
  first := nofun
  second h := absurd rfl h
  ids := nofun
  short := nofun
  old_head := nofun
  new_head := nofun

omit [PyRepr F] in
theorem rowsIn_right {r : Row F} (hr : r ∈ rowsIn new) : r ∈ rowsIn (old ++ new) := by
  rw [rowsIn, List.map_append]
  exact List.mem_append_right _ hr

/-- The rows of the active file are a chain by themselves. -/
theorem Retained.chain_right (h : Retained sha g dir old new) :
    Chain sha (startOf (rowsIn new)) (rowsIn new) := by
  have hchain := h.chain
  rw [rowsIn, List.map_append] at hchain
  exact hchain.rest

theorem Retained.first_right (h : Retained sha g dir old new) :
    ∀ row ∈ (rowsIn new).head?, NamesChain g row := by
  intro row hrow
  by_cases hold : old = []
  · exact h.first row (by rw [hold]; exact hrow)
  · exact .inl (h.second hold row hrow)

theorem Retained.others_set (h : Retained sha g dir old new) (file : Option Text) :
    ∀ n, 2 ≤ n → setFirst dir.segment file n = none := fun n hn => by
  rw [setFirst, if_neg (by omega), h.others n hn]

/-- Only `.1` is gone. -/
theorem Retained.unlinked (h : Retained sha g dir old new) :
    Retained sha g { dir with segment := setFirst dir.segment none } [] new where
  files := h.files.unlinked
  others := h.others_set none
  begun hold := absurd rfl hold
  chain := h.chain_right
  first := h.first_right
  second hold := absurd rfl hold
  ids r hr := h.ids r (rowsIn_right hr)
  short r hr := h.short r (List.mem_append_right _ hr)
  old_head := nofun
  new_head := h.new_head

/-- The active file became `.1`. -/
theorem Retained.rotated (h : Retained sha g dir old new) (hnew : new ≠ []) :
    Retained sha g { dir with active := none, segment := setFirst dir.segment dir.active } new []
    where
  files := h.files.rotated hnew
  others := h.others_set dir.active
  begun _ _ := rfl
  chain := by
    rw [List.append_nil]
    exact h.chain_right
  first := by
    rw [List.append_nil]
    exact h.first_right
  second _ := nofun
  ids := by
    rw [List.append_nil]
    exact fun r hr => h.ids r (rowsIn_right hr)
  short := by
    rw [List.append_nil]
    exact fun r hr => h.short r (List.mem_append_right _ hr)
  old_head := h.new_head
  new_head := nofun

/-- **Making room keeps what the retained files are.** -/
theorem Retained.room (h : Retained sha g dir old new) (a : Answers) :
    ∃ old' new' : List (Record F), Retained sha g (makeRoom logger a dir) old' new' ∧
      lastOf (old' ++ new') = lastOf (old ++ new) ∧ (old' ++ new' = [] ↔ old ++ new = []) := by
  rcases makeRoom_cases logger a dir with hsame | ⟨hfull, hunlinked⟩ | ⟨hfull, hrotated⟩
  · exact ⟨old, new, by rwa [hsame], rfl, .rfl⟩
  · have hnew := h.files.of_full hfull
    exact ⟨[], new, hunlinked ▸ h.unlinked, by rw [List.nil_append, lastOf_append hnew],
      by simp [hnew]⟩
  · have hnew := h.files.of_full hfull
    exact ⟨new, [], hrotated ▸ h.rotated hnew, by rw [List.append_nil, lastOf_append hnew],
      by simp [hnew]⟩

/-- An active file that was created and not written, before the chain's first record. -/
theorem Retained.create (h : Retained sha g dir old new)
    (hbegun : dir.active.isSome = true ∨ old ++ new = []) :
    Retained sha g (appendBytes [] dir) old new := by
  refine { h with files := h.files.create, begun := fun hold hnew => ?_ }
  rcases hbegun with hsome | hempty
  · rw [h.begun hold hnew] at hsome
    cases hsome
  · exact absurd (List.append_eq_nil_iff.mp hempty).1 hold

/-! ## 4. A record of its own chain -/

section Row

variable {prev : PyStr} {chainId : Option PyStr}

omit [PyRepr F] in
/-- The `chain_id` of the row is the one the record was given. -/
theorem getKey_chainId (h : chained sha (call.record prev chainId) = some record) :
    getKey kChainId (rowOf record) = chainId.map fun id => .str (joinPairs id) := by
  rw [getKey_rowOf (chained_nodup (record_nodup _ _ _) h) plain_chainId,
    getKey_chained h chainHash_ne_keys.2.2.2.2, getKey_record, if_pos rfl, Option.map_map]
  rfl

omit [PyRepr F] in
theorem namedChain_some (hg : Plain g) (hne : g ≠ [])
    (h : chained sha (call.record prev (some g)) = some record) :
    namedChain (rowOf record) = some g ∧ otherChain g (rowOf record) = false := by
  have hget := getKey_chainId h
  rw [Option.map_some, joinPairs_plain hg] at hget
  rw [namedChain, otherChain, hget]
  obtain ⟨c, cs, rfl⟩ := List.exists_cons_of_ne_nil hne
  exact ⟨rfl, by simp⟩

omit [PyRepr F] in
theorem namedChain_none (h : chained sha (call.record prev none) = some record) :
    namedChain (rowOf record) = none ∧ ∀ g, otherChain g (rowOf record) = false := by
  have hget := getKey_chainId h
  rw [Option.map_none] at hget
  exact ⟨by rw [namedChain, hget], fun g => by rw [otherChain, hget]⟩

end Row

/-! ## 5. Appending -/

section Steps

variable (sha)

/-- The payload leaves the chain's fields alone, the record keeps its order, and the readers' windows
hold its line: below `_HEAD_MAX` for the first line of a file. -/
structure Fits (s : Host) (call : Call F) (a : Answers) : Prop where
  faithful : Faithful call s.logger.lastChainHash (newFileId s.logger (makeRoom s.logger a s.dir))
  short : ∀ record, nextRecord sha s.logger (makeRoom s.logger a s.dir) call = some record →
    (lineOf record).length + 2 ≤ windowMax ∧
      ((makeRoom s.logger a s.dir).active.getD [] = [] → (lineOf record).length < headMax)

/-- The active file is there, or the chain has no record yet. -/
def Begun (s : Host) (a : Answers) : Prop :=
  (makeRoom s.logger a s.dir).active.isSome = true ∨ s.logger.lastChainHash = []

/-- What a step must keep to. -/
def Keeps (s : Host) : Event F → Prop
  | .log call a => (a.append = .done → Fits sha s call a) ∧
      ∀ bytes, a.append = .failed bytes → bytes = 0 ∧ Begun s a
  | .reopen m => m.isSome = true
  | .crash call a point m => m.isSome = true ∧ ∀ bytes record, point = .appended bytes →
      nextRecord sha s.logger (makeRoom s.logger a s.dir) call = some record →
        bytes = 0 ∧ Begun s a ∨ Fits sha s call a ∧ (lineOf record).length + 1 ≤ bytes

variable (reprOf)

variable (wide)

variable {reprOf wide}

/-- The logger knows the end of the chain and its id. -/
structure Knows (F : Type) [PyFloat F] [PyRepr F] (logger : Logger) (hashes : List PyStr)
    (old new : List (Record F)) : Prop where
  max : logger.maxBytes.isSome = true
  last : logger.lastChainHash = lastOf (old ++ new)
  chainId : logger.chainId = hashes.headD []

/-- What holds in a run: the retained files, and the ids of the records ever written. -/
structure Holds (sha : Text → PyStr) (dir : Dir) (hashes : List PyStr) (old new : List (Record F)) :
    Prop where
  retained : Retained sha (hashes.headD []) dir old new
  none_iff : old ++ new = [] ↔ hashes = []
  digest : ∀ h ∈ hashes, Plain h ∧ h ≠ []

variable {hashes : List PyStr} {sha}

theorem Holds.headD (h : Holds sha dir hashes old new) (hne : hashes ≠ []) :
    Plain (hashes.headD []) ∧ hashes.headD [] ≠ [] := by
  obtain ⟨hash, hashes, rfl⟩ := List.exists_cons_of_ne_nil hne
  exact h.digest hash List.mem_cons_self

/-- The last hash of a chain with a record is not empty. -/
theorem lastOf_ne_nil (hsha : HexDigest sha) (hchained : ∀ r ∈ records, ChainedRecord sha r)
    (hne : records ≠ []) : lastOf records ≠ [] ∧ Plain (lastOf records) := by
  obtain ⟨front, record, rfl⟩ := (List.eq_nil_or_concat records).resolve_left hne
  rw [List.concat_eq_append] at *
  obtain ⟨plain, hnodup, hrecord⟩ := hchained record (by simp)
  rw [lastOf_concat, chainHash_rowOf hsha hnodup hrecord]
  exact ⟨(hsha _).1, hsha.plain _⟩

/-- The id that a record is given: the chain's, when it starts a file. -/
theorem Holds.newFileId_eq (hsha : HexDigest sha) (h : Holds sha dir hashes old new)
    (hlogger : Knows F logger hashes old new) :
    newFileId logger dir =
      if hashes ≠ [] ∧ dir.active = none then some (hashes.headD []) else none := by
  rw [newFileId, hlogger.last, hlogger.chainId]
  by_cases hempty : hashes = []
  · have := h.none_iff.mpr hempty
    simp [hempty, this]
  · have hne : old ++ new ≠ [] := fun hnil => hempty (h.none_iff.mp hnil)
    have hlast := (lastOf_ne_nil hsha h.retained.files.chained hne).1
    have hid := (h.headD hempty).2
    generalize hashes.headD [] = g at hid ⊢
    simp [hempty, hlast, hid, hlogger.max]

/-- **A faithful record goes on with the chain.** -/
theorem Holds.append (hsha : HexDigest sha) (h : Holds sha dir hashes old new)
    (hlogger : Knows F logger hashes old new)
    (hfaithful : Faithful call logger.lastChainHash (newFileId logger dir))
    (hrecord : nextRecord sha logger dir call = some record)
    (hshort : (lineOf record).length + 2 ≤ windowMax)
    (hhead : dir.active.getD [] = [] → (lineOf record).length < headMax) :
    Holds sha (appendBytes (lineOf record ++ [nl]) dir) (hashes ++ [chainHash (rowOf record)]) old
      (new ++ [record]) := by
  have hnodup := record_nodup call logger.lastChainHash (newFileId logger dir)
  have hchained := chainedRecord_next hrecord
  have hsound := sound_rowOf hsha hfaithful hrecord
  have hdigest : Plain (chainHash (rowOf record)) ∧ chainHash (rowOf record) ≠ [] := by
    rw [chainHash_rowOf hsha hnodup hrecord]
    exact ⟨hsha.plain _, (hsha _).1⟩
  have hshorts : ∀ r ∈ old ++ (new ++ [record]), (lineOf r).length + 2 ≤ windowMax := by
    intro r hr
    rw [← List.append_assoc, List.mem_append, List.mem_singleton] at hr
    rcases hr with hr | rfl
    · exact h.retained.short r hr
    · exact hshort
  have hdigests : ∀ hash ∈ hashes ++ [chainHash (rowOf record)], Plain hash ∧ hash ≠ [] := by
    intro hash hmem
    rw [List.mem_append, List.mem_singleton] at hmem
    rcases hmem with hmem | rfl
    · exact h.digest hash hmem
    · exact hdigest
  have hnewHead : ∀ r ∈ (new ++ [record]).head?, (lineOf r).length < headMax := by
    intro r hr
    by_cases hnew : new = []
    · obtain rfl : record = r := by simpa [hnew] using hr
      refine hhead ?_
      rcases h.retained.files.new_file with ⟨hnone, -⟩ | hsome
      · rw [hnone]
        rfl
      · rw [hsome, hnew]
        rfl
    · obtain ⟨r', rest, rfl⟩ := List.exists_cons_of_ne_nil hnew
      exact h.retained.new_head r hr
  have hlast : Plain logger.lastChainHash := by
    rw [hlogger.last]
    by_cases hne : old ++ new = []
    · rw [hne]
      intro c hc
      cases hc
    · exact (lastOf_ne_nil hsha h.retained.files.chained hne).2
  have hprev := chainPrev_rowOf hlast hfaithful.prev_own hrecord
  have hid := h.newFileId_eq hsha hlogger
  refine ⟨?_, by simp, hdigests⟩
  by_cases hempty : hashes = []
  · -- the genesis record
    have hnone := h.none_iff.mpr hempty
    obtain ⟨rfl, rfl⟩ := List.append_eq_nil_iff.mp hnone
    rw [if_neg (by simp [hempty])] at hid
    rw [nextRecord, hid] at hrecord
    have hnamed := namedChain_none hrecord
    rw [hlogger.last, List.append_nil, lastOf_nil] at hprev
    subst hempty
    exact
      { files := h.retained.files.append hchained
        others := h.retained.others
        begun := fun hold => absurd rfl hold
        chain := ⟨⟨rfl, trivial⟩, fun r hr => by rw [List.mem_singleton.mp hr]; exact hsound⟩
        first := fun r hr => by
          obtain rfl := Option.mem_some_iff.mp hr
          exact .inr ⟨hnamed.1, hprev, rfl⟩
        second := fun hold => absurd rfl hold
        ids := fun r hr => by
          rw [List.mem_singleton.mp hr]
          exact hnamed.2 _
        short := hshorts
        old_head := fun r hr => by cases hr
        new_head := hnewHead }
  · have hne : old ++ new ≠ [] := fun hnil => hempty (h.none_iff.mp hnil)
    have hg : (hashes ++ [chainHash (rowOf record)]).headD [] = hashes.headD [] := by
      obtain ⟨hash, hashes, rfl⟩ := List.exists_cons_of_ne_nil hempty
      rfl
    have hrows : rowsIn (old ++ (new ++ [record])) = rowsIn (old ++ new) ++ [rowOf record] := by
      rw [← List.append_assoc, rowsIn, List.map_append]
      rfl
    have hheadRows : (rowsIn (old ++ new) ++ [rowOf record]).head? = (rowsIn (old ++ new)).head? := by
      obtain ⟨r, rest, hcons⟩ := List.exists_cons_of_ne_nil hne
      rw [hcons]
      rfl
    have hstart : startOf (rowsIn (old ++ new) ++ [rowOf record]) = startOf (rowsIn (old ++ new)) := by
      obtain ⟨r, rest, hcons⟩ := List.exists_cons_of_ne_nil hne
      rw [hcons]
      rfl
    have hlink : chainPrev (rowOf record) =
        endHash chainHash (startOf (rowsIn (old ++ new))) (rowsIn (old ++ new)) := by
      rw [hprev, hlogger.last, lastOf, endHash_eq_getLast (by simpa using hne),
        endHash_eq_getLast (by simpa using hne)]
    -- a record that starts a file has the chain's id; another one has none
    have hnamed : otherChain (hashes.headD []) (rowOf record) = false ∧
        (new = [] → old ≠ [] → namedChain (rowOf record) = some (hashes.headD [])) := by
      by_cases hactive : dir.active = none
      · rw [if_pos ⟨hempty, hactive⟩] at hid
        rw [nextRecord, hid] at hrecord
        have := namedChain_some (h.headD hempty).1 (h.headD hempty).2 hrecord
        exact ⟨this.2, fun _ _ => this.1⟩
      · rw [if_neg (fun hboth => hactive hboth.2)] at hid
        rw [nextRecord, hid] at hrecord
        exact ⟨(namedChain_none hrecord).2 _,
          fun hnew hold => absurd (h.retained.begun hold hnew) hactive⟩
    rw [hg]
    exact
      { files := h.retained.files.append hchained
        others := h.retained.others
        begun := fun _ hnew => absurd hnew (by simp)
        chain := by
          rw [hrows, hstart]
          exact h.retained.chain.concat hlink hsound
        first := by
          rw [hrows, hheadRows]
          exact h.retained.first
        second := fun hold r hr => by
          by_cases hnew : new = []
          · rw [hnew] at hr
            obtain rfl := Option.mem_some_iff.mp hr
            exact hnamed.2 hnew hold
          · obtain ⟨r', rest, rfl⟩ := List.exists_cons_of_ne_nil hnew
            exact h.retained.second hold r hr
        ids := by
          rw [hrows]
          intro r hr
          rcases List.mem_append.mp hr with hr | hr
          · exact h.retained.ids r hr
          · rw [List.mem_singleton.mp hr]
            exact hnamed.1
        short := hshorts
        old_head := h.retained.old_head
        new_head := hnewHead }

/-! ## 6. Runs -/

theorem Holds.room (h : Holds sha dir hashes old new) (logger : Logger) (a : Answers) :
    ∃ old' new' : List (Record F), Holds sha (makeRoom logger a dir) hashes old' new' ∧
      lastOf (old' ++ new') = lastOf (old ++ new) := by
  obtain ⟨old', new', hretained, hlast, hnone⟩ := h.retained.room a
  exact ⟨old', new', ⟨hretained, hnone.trans h.none_iff, h.digest⟩, hlast⟩

/-- Opening a logger on the retained files. -/
theorem Holds.opened (hsha : HexDigest sha) (h : Holds sha dir hashes old new) {m : Option ℕ+}
    (hm : m.isSome = true) : Knows F (openLogger F wide m dir) hashes old new := by
  have hlast : readLastChainHash F wide m dir = lastOf (old ++ new) :=
    h.retained.files.readLastChainHash_eq fun hnone => by
      rw [hnone] at hm
      cases hm
  refine ⟨hm, hlast, ?_⟩
  rw [openLogger, hlast]
  by_cases hempty : hashes = []
  · rw [h.none_iff.mpr hempty, hempty]
    rfl
  · have hne : old ++ new ≠ [] := fun hnil => hempty (h.none_iff.mp hnil)
    rw [if_neg (lastOf_ne_nil hsha h.retained.files.chained hne).1, readChainId,
      h.retained.chainId_eq hne]

/-- What the logger knows after it appended a record. -/
theorem Knows.afterAppend (hsha : HexDigest sha) (h : Holds sha dir hashes old new)
    (hlogger : Knows F logger hashes old new)
    (hfaithful : Faithful call logger.lastChainHash (newFileId logger dir))
    (hrecord : nextRecord sha logger dir call = some record) :
    Knows F (afterAppend reprOf logger record) (hashes ++ [chainHash (rowOf record)]) old
      (new ++ [record]) := by
  have hnodup := record_nodup call logger.lastChainHash (newFileId logger dir)
  have hhash := valueStrOr_chainHash hsha reprOf hnodup hrecord
  refine ⟨hlogger.max, by rw [← List.append_assoc, lastOf_concat]; exact hhash, ?_⟩
  rw [AzazelEdge.Audit.afterAppend, hlogger.chainId]
  by_cases hempty : hashes = []
  · -- the genesis record names the chain by its own hash
    have hnone := h.none_iff.mpr hempty
    have hid := h.newFileId_eq hsha hlogger
    rw [if_neg (by simp [hempty])] at hid
    rw [nextRecord, hid] at hrecord
    have hget : getKey kChainId record = none := by
      rw [getKey_chained hrecord chainHash_ne_keys.2.2.2.2, getKey_record, if_pos rfl]
      rfl
    have hprev : getKey kChainPrev record = some (.str []) := by
      rw [getKey_chained hrecord chainHash_ne_keys.1, getKey_record_chainPrev hfaithful.prev_own,
        hlogger.last, hnone, lastOf_nil]
    simp only [hempty, List.headD_nil, if_true, List.nil_append, List.headD_cons]
    rw [recordChainId, hget, hprev]
    simp only [valueStrOr, ne_eq, not_true, if_false]
    exact hhash
  · obtain ⟨hash, rest, rfl⟩ := List.exists_cons_of_ne_nil hempty
    exact if_neg (h.digest hash List.mem_cons_self).2

end Steps

end AzazelEdge.Audit
