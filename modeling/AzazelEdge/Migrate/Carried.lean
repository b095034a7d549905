/-
# The row that carries the cursor

What the queue's append makes of the status of `carry_cursor`: whatever the queue held, its last
complete line is then the row, and the row is read as the cursor of the new path.  An append that
does not get so far leaves the complete lines as they were.
-/
import AzazelEdge.Alert.Bounded
import AzazelEdge.Audit.Ends
import AzazelEdge.Migrate.Chain

namespace AzazelEdge.Migrate

open AzazelEdge.Lib AzazelEdge.Lib.Py AzazelEdge.Audit AzazelEdge.Alert

variable {F : Type} [PyFloat F] [PyRepr F] {wide : Text → Option Text} {job : Job} {old : Scoped}
  {a : Alert.Answers} {file : File} {bytes bytes' : Text} {lines : List Text}
  {rows rows' : List (Row F)} {row : Row F} {pathId : PyStr}

/-! ## 1. The rows of complete lines -/

theorem no_newline_completeLines (bytes : Text) : ∀ line ∈ completeLines nl bytes, nl ∉ line := by
  unfold completeLines
  induction bytes with
  | nil => exact fun _ h => by cases h
  | cons x xs ih =>
    intro line hline
    rw [cutLines] at hline
    split at hline
    · obtain rfl | hline := List.mem_cons.mp hline
      · exact List.not_mem_nil
      · exact ih line hline
    · rename_i hx
      rcases hcut : cutLines nl xs with ⟨_ | ⟨first, rest⟩, tail⟩
      · rw [hcut] at hline
        cases hline
      · rw [hcut] at hline ih
        obtain rfl | hline := List.mem_cons.mp hline
        · exact fun hmem => (List.mem_cons.mp hmem).elim (fun h => hx h.symm)
            (ih first List.mem_cons_self)
        · exact ih line (List.mem_cons_of_mem _ hline)

/-- The rows of lines. -/
def rowsOf (F : Type) [PyFloat F] (wide : Text → Option Text) (lines : List Text) : List (Row F) :=
  (lines.filter (· ≠ [])).filterMap (loadsDict wide)

omit [PyRepr F] in
theorem readEntries_eq (bytes : Text) :
    readEntries (F := F) wide bytes = rowsOf F wide (completeLines nl bytes) := rfl

omit [PyRepr F] in
theorem rowsOf_append (lines lines' : List Text) :
    rowsOf F wide (lines ++ lines') = rowsOf F wide lines ++ rowsOf F wide lines' := by
  rw [rowsOf, List.filter_append, List.filterMap_append]
  rfl

omit [PyRepr F] in
theorem rowsOf_singleton {line : Text} (hline : line ≠ []) (h : loadsDict wide line = some row) :
    rowsOf F wide [line] = [row] := by
  simp [rowsOf, hline, h]

omit [PyFloat F] [PyRepr F] in
theorem lastScopedCursor_concat :
    lastScopedCursor pathId (rows ++ [row]) =
      (scopedAt pathId row).or (lastScopedCursor pathId rows) := by
  rw [lastScopedCursor, List.foldl_append]
  rfl

omit [PyFloat F] [PyRepr F] in
/-- A cursor and its chain are named. -/
theorem lastScopedCursor_ne_nil (h : lastScopedCursor pathId rows = some old) :
    old.cursor ≠ [] ∧ old.chainId ≠ [] := by
  induction rows using List.reverseRecOn with
  | nil => cases h
  | append_singleton rows row ih =>
    rw [lastScopedCursor_concat] at h
    obtain hrow | ⟨-, hrows⟩ := Option.or_eq_some_iff.mp h
    · unfold scopedAt at hrow
      split at hrow
      · split_ifs at hrow
        obtain rfl := Option.some.inj hrow
        exact ⟨List.cons_ne_nil _ _, List.cons_ne_nil _ _⟩
      · cases hrow
    · exact ih hrows

/-! ## 2. What is appended -/

/-- A complete `audit_path_migrated` row. -/
def isMigrated (row : Row F) : Bool :=
  match getKey kRecordType row, getKey kEvent row with
  | some (.str type), some (.str e) => type = recordRelayStatus && e = event
  | _, _ => false

/-- The cursor as it is read back: JSON joins pairs of surrogates. -/
def Scoped.back (old : Scoped) : Scoped := ⟨joinPairs old.cursor, joinPairs old.chainId⟩

/-- The entry of the status. -/
structure IsCarried (job : Job) (old : Scoped) (entry : Record F) : Prop where
  nodup : (entry.map Prod.fst).Nodup
  cursor : getKey kCursor entry = some (.str old.cursor)
  chainId : getKey kAuditChainId entry = some (.str old.chainId)
  path : getKey kAuditPath entry = some (.str job.newId)

theorem plain_carried_keys :
    ∀ key ∈ [kCursor, kAuditChainId, kAuditPath, kRecordType, kEvent], Plain key := by
  decide +kernel

theorem joinPairs_ne_nil {s : PyStr} (h : s ≠ []) : joinPairs s ≠ [] :=
  fun hnil => h ((joinPairs_eq_iff (fun _ h => by cases h)).mp hnil)

omit [PyRepr F] in
/-- **The row is read as the cursor of the new path.** -/
theorem scopedAt_rowOf {entry : Record F} (h : IsCarried job old entry) (hcursor : old.cursor ≠ [])
    (hchainId : old.chainId ≠ []) : scopedAt job.newId (rowOf entry) = some old.back := by
  have hkey : ∀ key ∈ [kCursor, kAuditChainId, kAuditPath, kRecordType, kEvent],
      getKey key (rowOf entry) = (getKey key entry).map fun v => settled (written false v) :=
    fun key hmem => getKey_rowOf h.nodup (plain_carried_keys key hmem)
  have hcursor' : getKey kCursor (rowOf entry) = some (.str (joinPairs old.cursor)) := by
    rw [hkey _ (by simp), h.cursor]
    rfl
  have hchainId' : getKey kAuditChainId (rowOf entry) = some (.str (joinPairs old.chainId)) := by
    rw [hkey _ (by simp), h.chainId]
    rfl
  have hpath : getKey kAuditPath (rowOf entry) = some (.str job.newId) := by
    rw [hkey _ (by simp), h.path, Option.map_some, written, settled, job.joined]
  obtain ⟨c, cursor, hc⟩ := List.exists_cons_of_ne_nil (joinPairs_ne_nil hcursor)
  obtain ⟨i, chainId, hi⟩ := List.exists_cons_of_ne_nil (joinPairs_ne_nil hchainId)
  rw [scopedAt, hcursor', hchainId', hpath, hc, hi, Scoped.back, hc, hi]
  exact if_pos rfl

/-- The bytes of the file after the append. -/
def appended (F : Type) [PyFloat F] [PyRepr F] (wide : Text → Option Text) (job : Job) (old : Scoped)
    (bytes : Text) (a : Alert.Answers) : Text :=
  ((plan (F := F) wide defaultQueue none ⟨0, bytes⟩
    (.appendStatus (carriedStatus job.oldId job.newId old)) a).after a).bytes

/-- The bytes do not depend on the number of the file. -/
theorem plan_bytes (file : File) :
    ((plan (F := F) wide defaultQueue none file
      (.appendStatus (carriedStatus job.oldId job.newId old)) a).after a).bytes =
    appended F wide job old file.bytes a := by
  unfold appended plan Plan.after
  dsimp only [find, scanned]
  split
  · rfl
  · rfl

/-! ## 3. The append -/

theorem fileOf_completeLines (bytes : Text) :
    fileOf (completeLines nl bytes) ++ lineTail nl bytes = bytes :=
  cutLines_join nl bytes

omit [PyRepr F] in
/-- **What `_scan` keeps of a file is its complete lines.** -/
theorem scan_data (bytes : Text) :
    (scan F wide bytes).data = fileOf (completeLines nl bytes) ∧
      (scan F wide bytes).lines = (completeLines nl bytes).map (· ++ [nl]) := by
  have hfree := no_newline_completeLines bytes
  have hdata : (scan F wide bytes).data = fileOf (completeLines nl bytes) :=
    scan_whole hfree (not_mem_lineTail nl bytes) (fileOf_completeLines bytes).symm
  refine ⟨hdata, ?_⟩
  change (completeLines nl (scan F wide bytes).data).map (· ++ [nl]) = _
  rw [hdata, completeLines_fileOf hfree]

omit [PyFloat F] [PyRepr F] in
theorem statusFields_keys (seq total : ℤ) :
    ((statusFields (F := F) a seq total).map Prod.fst) =
      [kSchema, kRecordType, kSeq, kStamp, kBootId, kQueuedAt, kTotal] := rfl

omit [PyFloat F] [PyRepr F] in
/-- The entry that the queue makes of the status. -/
theorem isCarried_entry (seq total : ℤ) (repaired : ℕ) :
    IsCarried job old (setKey kRepaired (.int repaired)
      (update (carriedStatus (F := F) job.oldId job.newId old).items
        (statusFields a seq total))) := by
  have hfields : ((statusFields (F := F) a seq total).map Prod.fst).Nodup := by
    rw [statusFields_keys]
    simp
  have hkey : ∀ key ∈ [kCursor, kAuditChainId, kAuditPath],
      getKey key (setKey kRepaired (.int repaired)
        (update (carriedStatus (F := F) job.oldId job.newId old).items
          (statusFields a seq total))) =
        getKey key (carriedStatus (F := F) job.oldId job.newId old).items := by
    intro key hmem
    have hne : kRepaired ≠ key ∧
        key ∉ [kSchema, kRecordType, kSeq, kStamp, kBootId, kQueuedAt, kTotal] := by
      revert key
      simp
    rw [getKey_setKey, if_neg hne.1, getKey_update _ _ hfields, getKey_eq_none.mpr (by
      rw [statusFields_keys]
      exact hne.2), Option.none_or]
  constructor
  · exact setKey_keys_nodup (update_keys_nodup _ (carriedStatus job.oldId job.newId old).nodup)
  · rw [hkey _ (by simp)]
    rfl
  · rw [hkey _ (by simp)]
    rfl
  · rw [hkey _ (by simp)]
    rfl

/-- The plan of the append: `lines` are the complete lines of the file, and `kept` what a
compaction keeps. -/
structure IsAppend (F : Type) [PyFloat F] (job : Job) (old : Scoped) (lines : List Text) (ino : ℕ)
    (p : Alert.Plan F) : Prop where
  base : p.base = ⟨ino, fileOf lines⟩
  writes : ∃ entry, IsCarried (F := F) job old entry ∧
    (p.replaces = false ∧ p.lines = [encode entry] ∨
      ∃ (rows : List (Row F)) (alarm : Record F), p.replaces = true ∧
        (∀ row ∈ rows, isAlert row ∧ (row.map Prod.fst).Nodup) ∧
        (alarm.map Prod.fst).Nodup ∧
        getKey kRecordType alarm = some (.str recordOverflowAlarm) ∧
        p.lines = rows.map encodeRow ++ [encode alarm] ++ [encode entry])

theorem mem_compact_kept {lines : List Text} {incoming : ℕ} {seq total : ℤ} {line : Text}
    (h : line ∈ (compact (F := F) wide 1000 lines incoming seq total a).kept) :
    ∃ row : Row F, (isAlert row = true ∧ (row.map Prod.fst).Nodup) ∧ line = encodeRow row := by
  obtain ⟨row, hrow, rfl⟩ := List.mem_map.mp ((List.perm_insertionSort _ _).mem_iff.mp h)
  have hfilter := (evict_perm _ _).mem_iff.mp hrow
  obtain ⟨hparsed, halert⟩ := List.mem_filter.mp (List.mem_filter.mp hfilter).1
  obtain ⟨line, -, hload⟩ := List.mem_filterMap.mp hparsed
  exact ⟨row, ⟨halert, loadsDict_nodup hload⟩, rfl⟩

omit [PyRepr F] in
theorem exists_rows {kept : List Text} {P : Row F → Prop}
    (h : ∀ line ∈ kept, ∃ row : Row F, P row ∧ line = encodeRow row) :
    ∃ rows : List (Row F), (∀ row ∈ rows, P row) ∧ kept = rows.map encodeRow := by
  induction kept with
  | nil => exact ⟨[], fun _ h => (by cases h), rfl⟩
  | cons line kept ih =>
    obtain ⟨row, hrow, rfl⟩ := h line List.mem_cons_self
    obtain ⟨rows, hrows, rfl⟩ := ih fun line hline => h line (List.mem_cons_of_mem _ hline)
    exact ⟨row :: rows, List.forall_mem_cons.mpr ⟨hrow, hrows⟩, rfl⟩

theorem isAppend_plan (file : File) :
    IsAppend F job old (completeLines nl file.bytes) file.ino
      (plan (F := F) wide defaultQueue none file
        (.appendStatus (carriedStatus job.oldId job.newId old)) a) := by
  have hdata := ((@scan_data F _ wide) file.bytes).1
  have hentries : ∀ (seq : ℤ) (evicted : ℕ) (total : ℤ) (repaired : ℕ),
      (withRepaired repaired (build (F := F) a
        (.appendStatus (carriedStatus job.oldId job.newId old)) seq evicted total)).map encode =
      [encode (setKey kRepaired (.int repaired)
        (update (carriedStatus job.oldId job.newId old).items (statusFields a seq total)))] :=
    fun _ _ _ _ => rfl
  unfold plan
  dsimp only
  split
  · obtain ⟨rows, hrows, hkept⟩ := exists_rows fun line hline =>
      mem_compact_kept (F := F) (a := a) hline
    refine ⟨by rw [hdata], _, ?_, Or.inr ⟨rows, _, rfl, hrows, ?_, ?_, congrArg₂
      (fun kept last => kept ++ [encode _] ++ last) hkept (hentries _ _ _ _)⟩⟩
    · exact isCarried_entry _ _ _
    · show [kSchema, kRecordType, kSeq, kStamp, kBootId, kQueuedAt, kPolicy, pyStr "max_entries",
        pyStr "evicted_alerts", pyStr "evicted_decisions", pyStr "evicted_decision_ids",
        pyStr "dropped_status_records", kTotal].Nodup
      simp
    · rfl
  · refine ⟨by rw [← hdata]; rfl, _, ?_, Or.inl ⟨rfl, hentries _ 0 _ _⟩⟩
    exact isCarried_entry _ _ _

variable {p : Alert.Plan F} {ino : ℕ}

omit [PyFloat F] [PyRepr F] in
theorem not_migrated {type : PyStr} (htype : getKey kRecordType row = some (.str type))
    (hother : type ≠ recordRelayStatus) : isMigrated row = false := by
  unfold isMigrated
  rw [htype]
  split
  · rename_i type' e htype' he
    obtain rfl : type = type' := by simpa using htype'
    simp [hother]
  · rfl

omit [PyRepr F] in
/-- A row that is kept is an alert still. -/
theorem kept_row (halert : isAlert row = true) (hnodup : (row.map Prod.fst).Nodup) :
    ∃ row' : Row F, loadsDict wide (text (.obj row)) = some row' ∧ isMigrated row' = false := by
  refine ⟨pyDict (row.map settledMember), ?_, ?_⟩
  · rw [loadsDict, loadsBytes_text, settled, settledMembers_eq]
  · have htype : getKey kRecordType row = some (.str recordAlert) := by
      unfold isAlert at halert
      split at halert
      · rename_i type htype
        rw [htype, of_decide_eq_true halert]
      · cases halert
    have hback : getKey kRecordType (pyDict (row.map settledMember)) =
        some (.str (joinPairs recordAlert)) := by
      rw [getKey_pyDict, ← List.map_reverse,
        getKey_settledMembers (plain_carried_keys _ (by simp)),
        getKey_perm (List.reverse_perm _) (by rwa [List.map_reverse, List.nodup_reverse]), htype]
      rfl
    exact not_migrated hback (by decide +kernel)

omit [PyRepr F] in
theorem kept_rows (h : ∀ row ∈ rows, isAlert row ∧ (row.map Prod.fst).Nodup) :
    ∃ lines, (rows.map encodeRow).flatten = fileOf lines ∧ (∀ line ∈ lines, nl ∉ line) ∧
      (rowsOf F wide lines).countP isMigrated = 0 := by
  induction rows with
  | nil => exact ⟨[], rfl, fun _ h => (by cases h), rfl⟩
  | cons row rows ih =>
    obtain ⟨halert, hnodup⟩ := h row List.mem_cons_self
    obtain ⟨lines, hflat, hfree, hcount⟩ := ih fun row hrow => h row (List.mem_cons_of_mem _ hrow)
    obtain ⟨row', hload, hmigrated⟩ := kept_row halert hnodup
    have hne : text (.obj row) ≠ [] := by
      obtain ⟨c, tail, htext, -⟩ := text_brace row
      rw [htext]
      exact List.cons_ne_nil _ _
    refine ⟨text (.obj row) :: lines, ?_, ?_, ?_⟩
    · rw [List.map_cons, List.flatten_cons, hflat]
      rfl
    · exact List.forall_mem_cons.mpr ⟨(printable_text _).no_newline, hfree⟩
    · rw [← List.singleton_append, rowsOf_append, rowsOf_singleton hne hload, List.countP_append,
        hcount, List.countP_singleton, hmigrated]
      rfl

omit [PyRepr F] in
theorem rowsOf_lineOf (entry : Record F) : rowsOf F wide [lineOf entry] = [rowOf entry] := by
  refine rowsOf_singleton ?_ ?_
  · obtain ⟨members, hline, -⟩ := lineOf_obj entry
    obtain ⟨c, tail, htext, -⟩ := text_brace members
    rw [hline, htext]
    exact List.cons_ne_nil _ _
  · rw [loadsDict, loadsBytes_lineOf]

omit [PyRepr F] in
theorem completeLines_encode (hfree : ∀ line ∈ lines, nl ∉ line) (entry : Record F) :
    completeLines nl (fileOf lines ++ encode entry) = lines ++ [lineOf entry] := by
  have := completeLines_ended (printable_lineOf entry).no_newline (fileOf lines)
  rw [completeLines_fileOf hfree] at this
  rw [encode, this]
  congr 2
  have hcut := cutLines_fileOf hfree List.not_mem_nil
  rw [List.append_nil] at hcut
  rw [lineTail, hcut, List.nil_append]

omit [PyRepr F] in
/-- **The last row of the queue is the one that carries the cursor.** -/
theorem IsAppend.after_rows (h : IsAppend F job old lines ino p) (hfree : ∀ line ∈ lines, nl ∉ line) :
    ∃ rows entry, IsCarried job old entry ∧
      readEntries (F := F) wide (p.after a).bytes = rows ++ [rowOf entry] ∧
      rows.countP isMigrated ≤ (rowsOf F wide lines).countP isMigrated := by
  obtain ⟨entry, hentry, ⟨hreplaces, hlines⟩ | ⟨rows, alarm, hreplaces, hrows, halarm, htype, hlines⟩⟩ :=
    h.writes
  · refine ⟨rowsOf F wide lines, entry, hentry, ?_, le_refl _⟩
    have hbytes : (p.after a).bytes = fileOf lines ++ encode entry := by
      rw [Plan.after, if_neg (by simp [hreplaces]), h.base, hlines]
      simp
    rw [readEntries_eq, hbytes, completeLines_encode hfree, rowsOf_append, rowsOf_lineOf]
  · obtain ⟨kept, hflat, hkept, hcount⟩ := kept_rows hrows
    have hbytes : (p.after a).bytes = fileOf (kept ++ [lineOf alarm]) ++ encode entry := by
      rw [Plan.after, if_pos hreplaces, hlines]
      simp [hflat, encode]
    have hfree' : ∀ line ∈ kept ++ [lineOf alarm], nl ∉ line := by
      intro line hline
      obtain hline | hline := List.mem_append.mp hline
      · exact hkept line hline
      · rw [List.mem_singleton.mp hline]
        exact (printable_lineOf alarm).no_newline
    refine ⟨rowsOf F wide (kept ++ [lineOf alarm]), entry, hentry, ?_, ?_⟩
    · rw [readEntries_eq, hbytes, completeLines_encode hfree', rowsOf_append, rowsOf_lineOf]
    · have hback : getKey kRecordType (rowOf alarm) = some (.str (joinPairs recordOverflowAlarm)) := by
        rw [getKey_rowOf halarm (plain_carried_keys _ (by simp)), htype]
        rfl
      have hmigrated : isMigrated (rowOf alarm) = false := not_migrated hback (by decide +kernel)
      rw [rowsOf_append, rowsOf_lineOf, List.countP_append, hcount, List.countP_singleton, hmigrated]
      exact Nat.zero_le _

omit [PyRepr F] in
/-- **An append that does not get through leaves the complete lines as they were.** -/
theorem IsAppend.cut_or_after (h : IsAppend F job old lines ino p)
    (hfree : ∀ line ∈ lines, nl ∉ line) (k : ℕ) (replaced : Bool) :
    (p.cut a k replaced).ino = ino ∧ completeLines nl (p.cut a k replaced).bytes = lines ∨
      p.cut a k replaced = p.after a := by
  obtain ⟨entry, -, ⟨hreplaces, hlines⟩ | ⟨rows, alarm, hreplaces, -⟩⟩ := h.writes
  · have hcut : p.cut a k replaced = ⟨ino, fileOf lines ++ (encode entry).take k⟩ := by
      rw [Plan.cut, if_neg (by simp [hreplaces]), h.base, hlines]
      simp
    have hafter : p.after a = ⟨ino, fileOf lines ++ encode entry⟩ := by
      rw [Plan.after, if_neg (by simp [hreplaces]), h.base, hlines]
      simp
    rw [hcut, hafter]
    by_cases hk : k ≤ (lineOf entry).length
    · refine Or.inl ⟨rfl, ?_⟩
      have htake : (encode entry).take k = (lineOf entry).take k := by
        rw [encode, List.take_append_of_le_length hk]
      have hopen : nl ∉ (lineOf entry).take k :=
        fun hmem => (printable_lineOf entry).no_newline (List.mem_of_mem_take hmem)
      rw [htake, completeLines_open hopen, completeLines_fileOf hfree]
    · refine Or.inr ?_
      rw [List.take_of_length_le]
      rw [encode, List.length_append]
      exact not_le.mp hk
  · cases replaced with
    | true => exact Or.inr (by rw [Plan.cut, if_pos hreplaces, if_pos rfl])
    | false =>
      refine Or.inl ?_
      rw [Plan.cut, if_pos hreplaces, if_neg (by simp), h.base]
      exact ⟨rfl, completeLines_fileOf hfree⟩

end AzazelEdge.Migrate
