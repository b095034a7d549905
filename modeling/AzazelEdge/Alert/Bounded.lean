/-
# The queue stays bounded, in order and accounted

What holds of the queue's file in every run of any instances: its complete lines are at most twice
`max_entries`, their `seq` numbers increase, a compaction evicts decisions whole and never an entry of
its own call, and without torn writes the alerts ever enqueued are those in the file and those that
the last record counts as evicted.

All of it rests on what a write knows of the file, and an instance may know it from another file: a
compaction frees the inode number of the file it replaces, and a later one may get it back.  Where the
sizes agree, too, the instance goes on from numbers that are not the file's (`stale_cache_breaks_order`).
-/
import AzazelEdge.Alert.Queue
import AzazelEdge.Lib.Run

namespace AzazelEdge.Alert

open AzazelEdge.Lib AzazelEdge.Lib.Py AzazelEdge.Audit

variable {F : Type} [PyFloat F] {wide : Text → Option Text} {a : Answers}
  {rows rows' : List (Row F)} {bytes : Text}

/-! ## 1. A file of rows -/

/-- A line that is read as a row. -/
def IsLine (wide : Text → Option Text) (line : Text) (row : Row F) : Prop :=
  nl ∉ line ∧ loadsDict wide (line ++ [nl]) = some row

/-- The bytes have these rows on complete lines, and a torn tail. -/
def Holds (wide : Text → Option Text) (bytes : Text) (rows : List (Row F)) : Prop :=
  ∃ lines tail, bytes = fileOf lines ++ tail ∧ nl ∉ tail ∧ List.Forall₂ (IsLine wide) lines rows

/-- The same, without a torn tail. -/
def HoldsWhole (wide : Text → Option Text) (bytes : Text) (rows : List (Row F)) : Prop :=
  ∃ lines, bytes = fileOf lines ∧ List.Forall₂ (IsLine wide) lines rows

def seqOf (row : Row F) : ℤ := (intAt kSeq row).getD 0

def totalOf (row : Row F) : ℤ := (intAt kTotal row).getD 0

/-- A row that the queue wrote, as it is read back. -/
structure Good (row : Row F) : Prop where
  settled : settled (.obj row) = .obj row
  seq : intAt kSeq row = some (seqOf row)
  total : intAt kTotal row = some (totalOf row)

/-- Rows of the queue, in the order of their `seq`. -/
structure Ordered (rows : List (Row F)) : Prop where
  good : ∀ row ∈ rows, Good row
  sorted : rows.Pairwise fun row row' => seqOf row < seqOf row'

/-- The `seq` and the total of the last row. -/
def lastSeq (rows : List (Row F)) : ℤ := (rows.getLast?.map seqOf).getD 0

def lastTotal (rows : List (Row F)) : ℤ := (rows.getLast?.map totalOf).getD 0

omit [PyFloat F] in
theorem Ordered.le_lastSeq (h : Ordered rows) : ∀ row ∈ rows, seqOf row ≤ lastSeq rows := by
  rcases List.eq_nil_or_concat rows with rfl | ⟨rows, last, rfl⟩
  · exact fun _ h => by cases h
  rw [List.concat_eq_append] at h ⊢
  intro row hrow
  simp only [lastSeq, List.getLast?_concat, Option.map_some, Option.getD_some]
  rcases List.mem_append.mp hrow with hrow | hrow
  · exact ((List.pairwise_append.mp h.sorted).2.2 row hrow last (by simp)).le
  · rw [List.mem_singleton.mp hrow]

theorem HoldsWhole.holds (h : HoldsWhole wide bytes rows) : Holds wide bytes rows := by
  obtain ⟨lines, rfl, hlines⟩ := h
  exact ⟨lines, [], by simp, by simp, hlines⟩

theorem HoldsWhole.append {bytes' : Text} (h : HoldsWhole wide bytes rows)
    (h' : HoldsWhole wide bytes' rows') : HoldsWhole wide (bytes ++ bytes') (rows ++ rows') := by
  obtain ⟨lines, rfl, hlines⟩ := h
  obtain ⟨lines', rfl, hlines'⟩ := h'
  exact ⟨lines ++ lines', by simp, List.rel_append hlines hlines'⟩

theorem HoldsWhole.append_torn {bytes' : Text} (h : HoldsWhole wide bytes rows)
    (h' : Holds wide bytes' rows') : Holds wide (bytes ++ bytes') (rows ++ rows') := by
  obtain ⟨lines, rfl, hlines⟩ := h
  obtain ⟨lines', tail, rfl, htail, hlines'⟩ := h'
  exact ⟨lines ++ lines', tail, by simp, htail, List.rel_append hlines hlines'⟩

theorem cutLines_fileOf {lines : List Text} {tail : Text} (h : ∀ line ∈ lines, nl ∉ line)
    (htail : nl ∉ tail) : cutLines nl (fileOf lines ++ tail) = (lines, tail) := by
  induction lines with
  | nil => exact cutLines_of_not_mem htail
  | cons line lines ih =>
    have hrest := ih fun l hl => h l (List.mem_cons_of_mem _ hl)
    rw [fileOf, List.flatMap_cons, ← fileOf, List.append_assoc, List.append_assoc,
      List.singleton_append, cutLines_line (h line List.mem_cons_self), completeLines, lineTail, hrest]

omit [PyFloat F] in
theorem forall₂_no_newline {lines : List Text}
    (h : List.Forall₂ (fun line (_ : Row F) => nl ∉ line) lines rows) :
    ∀ line ∈ lines, nl ∉ line := by
  induction h with
  | nil => exact fun _ h => by cases h
  | cons hline _ ih =>
    intro line hmem
    rcases List.mem_cons.mp hmem with rfl | hmem
    · exact hline
    · exact ih line hmem

omit [PyFloat F] in
theorem lastNumbers_reverse (h : ∀ row ∈ rows, Good row) :
    lastNumbers rows.reverse = (lastSeq rows, lastTotal rows) := by
  rcases List.eq_nil_or_concat rows with rfl | ⟨rows, last, rfl⟩
  · rfl
  rw [List.concat_eq_append] at h ⊢
  have hlast := h last (by simp)
  rw [List.reverse_append, List.reverse_singleton, List.singleton_append, lastNumbers, hlast.seq]
  simp only [lastSeq, lastTotal, List.getLast?_concat, Option.map_some, Option.getD_some, totalOf]

/-- `_scan` cuts a torn tail off. -/
theorem scan_whole {lines : List Text} {tail : Text} (hfree : ∀ line ∈ lines, nl ∉ line)
    (htail : nl ∉ tail) (hbytes : bytes = fileOf lines ++ tail) :
    (scan F wide bytes).data = fileOf lines := by
  subst hbytes
  change (if fileOf lines ++ tail ≠ [] ∧ (fileOf lines ++ tail).getLast? ≠ some nl then
    upToNewline (fileOf lines ++ tail) else fileOf lines ++ tail) = fileOf lines
  -- the torn tail is what follows the last newline
  by_cases htorn : tail = []
  · have hend : lines = [] ∨ (fileOf lines).getLast? = some nl :=
      (em (lines = [])).imp id fileOf_getLast
    rw [htorn, List.append_nil, if_neg]
    rintro ⟨hne, hlast⟩
    rcases hend with rfl | hend
    · exact hne rfl
    · exact hlast hend
  · have hlast : (fileOf lines ++ tail).getLast? ≠ some nl := by
      rw [List.getLast?_append_of_ne_nil _ htorn, List.getLast?_eq_some_getLast htorn]
      exact fun h => htail (Option.some.inj h ▸ List.getLast_mem htorn)
    rw [if_pos ⟨by simp [htorn], hlast⟩, upToNewline, lineTail, cutLines_fileOf hfree htail,
      List.length_append, Nat.add_sub_cancel, List.take_left]

/-- **What `_scan` finds.** -/
theorem scan_holds (h : Holds wide bytes rows) (hgood : ∀ row ∈ rows, Good row) :
    HoldsWhole wide (scan F wide bytes).data rows ∧ (scan F wide bytes).lineCount = rows.length ∧
      parse wide (scan F wide bytes).lines = rows ∧ (scan F wide bytes).seq = lastSeq rows ∧
      (scan F wide bytes).evictedTotal = lastTotal rows := by
  obtain ⟨lines, tail, rfl, htail, hlines⟩ := h
  have hfree : ∀ line ∈ lines, nl ∉ line :=
    forall₂_no_newline (hlines.imp fun _ _ h => h.1)
  have hcut := cutLines_fileOf hfree htail
  have hdata : (if fileOf lines ++ tail ≠ [] ∧ (fileOf lines ++ tail).getLast? ≠ some nl then
      upToNewline (fileOf lines ++ tail) else fileOf lines ++ tail) = fileOf lines :=
    (@scan_whole F _ wide) hfree htail rfl
  have hwhole : cutLines nl (fileOf lines) = (lines, []) := by
    simpa using cutLines_fileOf hfree List.not_mem_nil
  have hparse : parse wide (lines.map (· ++ [nl])) = rows := by
    rw [parse]
    clear hfree hcut hdata hwhole
    induction hlines with
    | nil => rfl
    | cons hline _ ih =>
      rw [List.map_cons, List.filterMap_cons, hline.2]
      exact congrArg _ (ih (fun row hrow => hgood row (List.mem_cons_of_mem _ hrow)))
  simp only [scan, Scan.lineCount, hdata, completeLines, hwhole, hparse, lastNumbers_reverse hgood,
    List.length_map]
  exact ⟨⟨lines, rfl, hlines⟩, hlines.length_eq, trivial, trivial, trivial⟩

/-! ## 2. The rows of entries -/

theorem plain_queue_keys : ∀ key ∈ [kSeq, kTotal, kRecordType, kDecisionId, kDecisionHash],
    Plain key := by decide +kernel

/-- What an entry says of itself. -/
structure Stamped (entry : Record F) (type : PyStr) (seq total : ℤ) : Prop where
  nodup : (entry.map Prod.fst).Nodup
  type : getKey kRecordType entry = some (.str type)
  seq : getKey kSeq entry = some (.int seq)
  total : getKey kTotal entry = some (.int total)

/-- The row of an entry. -/
structure Reads (row : Row F) (type : PyStr) (seq total : ℤ) : Prop where
  good : Good row
  type : getKey kRecordType row = some (.str type)
  seq : seqOf row = seq
  total : totalOf row = total

theorem reads_rowOf {entry : Record F} {type : PyStr} {seq total : ℤ} (htype : Plain type)
    (h : Stamped entry type seq total) : Reads (rowOf entry) type seq total := by
  have hkey : ∀ key ∈ [kSeq, kTotal, kRecordType, kDecisionId, kDecisionHash],
      getKey key (rowOf entry) = (getKey key entry).map fun v => settled (written false v) :=
    fun key hmem => getKey_rowOf h.nodup (plain_queue_keys key hmem)
  have hseq : intAt kSeq (rowOf entry) = some seq := by
    rw [intAt, hkey kSeq (by simp), h.seq]
    rfl
  have htotal : intAt kTotal (rowOf entry) = some total := by
    rw [intAt, hkey kTotal (by simp), h.total]
    rfl
  have hseqOf : seqOf (rowOf entry) = seq := by rw [seqOf, hseq, Option.getD_some]
  have htotalOf : totalOf (rowOf entry) = total := by rw [totalOf, htotal, Option.getD_some]
  refine ⟨⟨?_, by rw [hseq, hseqOf], by rw [htotal, htotalOf]⟩, ?_, hseqOf, htotalOf⟩
  · rw [rowOf, ← settled_strDict, settled_settled]
  · rw [hkey kRecordType (by simp), h.type, Option.map_some, written, settled, joinPairs_plain htype]

theorem isLine_lineOf (entry : Record F) : IsLine wide (lineOf entry) (rowOf entry) := by
  refine ⟨(printable_lineOf entry).no_newline, ?_⟩
  obtain ⟨members, hline, hsettled⟩ := lineOf_obj entry
  rw [loadsDict, hline, loadsBytes_text_newline, hsettled]

/-- A row that is written again is read as it was. -/
theorem isLine_row {row : Row F} (h : Good row) : IsLine wide (text (.obj row)) row := by
  refine ⟨(printable_text _).no_newline, ?_⟩
  rw [loadsDict, loadsBytes_text_newline, h.settled]

theorem holdsWhole_entries (entries : List (Record F)) :
    HoldsWhole wide (entries.map encode).flatten (entries.map rowOf) := by
  refine ⟨entries.map lineOf, ?_, ?_⟩
  · rw [fileOf, List.flatMap_map]
    rfl
  · rw [List.forall₂_map_left_iff, List.forall₂_map_right_iff]
    exact List.forall₂_same.mpr fun entry _ => isLine_lineOf entry

theorem holdsWhole_rows (h : ∀ row ∈ rows, Good row) :
    HoldsWhole wide (rows.map encodeRow).flatten rows := by
  refine ⟨rows.map fun row => text (.obj row), ?_, ?_⟩
  · rw [fileOf, List.flatMap_map]
    rfl
  · rw [List.forall₂_map_left_iff]
    exact List.forall₂_same.mpr fun row hrow => isLine_row (h row hrow)

/-! Each entry is stamped in its turn. -/

/-- Entries of one type with a total, numbered from `seq` on. -/
def Numbered (type : PyStr) (total : ℤ) : ℤ → List (Record F) → Prop
  | _, [] => True
  | seq, entry :: entries => Stamped entry type seq total ∧ Numbered type total (seq + 1) entries

/-- The type of a request's entries. -/
def Request.type : Request F → PyStr
  | .enqueue _ _ => recordAlert
  | .appendStatus _ => recordRelayStatus

/-- How many entries a request has. -/
def Request.size : Request F → ℕ
  | .enqueue alerts _ => alerts.length
  | .appendStatus _ => 1

omit [PyFloat F] in
/-- The queue's own fields are not the caller's. -/
theorem stamped_update {d own : Record F} {type : PyStr} {seq total : ℤ}
    (hd : (d.map Prod.fst).Nodup) (hown : (own.map Prod.fst).Nodup)
    (htype : getKey kRecordType own = some (.str type)) (hseq : getKey kSeq own = some (.int seq))
    (htotal : getKey kTotal own = some (.int total)) : Stamped (update d own) type seq total := by
  refine ⟨update_keys_nodup own hd, ?_, ?_, ?_⟩
  · rw [getKey_update d own hown, htype]
    rfl
  · rw [getKey_update d own hown, hseq]
    rfl
  · rw [getKey_update d own hown, htotal]
    rfl

omit [PyFloat F] in
theorem numbered_build (a : Answers) (r : Request F) (seq : ℤ) (evicted : ℕ) (total : ℤ) :
    Numbered r.type total seq (build a r seq evicted total) ∧
      (build a r seq evicted total).length = r.size := by
  cases r with
  | enqueue alerts extra =>
    simp only [build, Request.type, Request.size]
    induction alerts generalizing seq with
    | nil => exact ⟨trivial, rfl⟩
    | cons alert alerts ih =>
      have hown : ((alertFields (F := F) a seq evicted total).map Prod.fst).Nodup := by
        simp only [alertFields, List.map_cons, List.map_nil]
        simp
      refine ⟨⟨stamped_update (update_keys_nodup extra.items alert.nodup) hown rfl rfl rfl,
        (ih (seq + 1)).1⟩, ?_⟩
      rw [alertEntries, List.length_cons, (ih (seq + 1)).2, List.length_cons]
  | appendStatus status =>
    have hown : ((statusFields (F := F) a seq total).map Prod.fst).Nodup := by
      simp only [statusFields, List.map_cons, List.map_nil]
      simp
    exact ⟨⟨stamped_update status.nodup hown rfl rfl rfl, trivial⟩, rfl⟩

theorem repaired_ne : kRepaired ≠ kRecordType ∧ kRepaired ≠ kSeq ∧ kRepaired ≠ kTotal := by
  simp

omit [PyFloat F] in
theorem numbered_withRepaired {type : PyStr} {total seq : ℤ} {entries : List (Record F)}
    (repaired : ℕ) (h : Numbered type total seq entries) :
    Numbered type total seq (withRepaired repaired entries) := by
  induction entries generalizing seq with
  | nil => trivial
  | cons entry entries ih =>
    refine ⟨⟨setKey_keys_nodup h.1.nodup, ?_, ?_, ?_⟩, ih h.2⟩
    · rw [getKey_setKey, if_neg repaired_ne.1, h.1.type]
    · rw [getKey_setKey, if_neg repaired_ne.2.1, h.1.seq]
    · rw [getKey_setKey, if_neg repaired_ne.2.2, h.1.total]

/-- **The rows of numbered entries.** -/
theorem rows_numbered {type : PyStr} {total seq : ℤ} {entries : List (Record F)} (htype : Plain type)
    (h : Numbered type total seq entries) :
    (∀ row ∈ entries.map rowOf, Good row ∧ getKey kRecordType row = some (.str type) ∧
      totalOf row = total ∧ seq ≤ seqOf row) ∧
    (entries.map rowOf).Pairwise fun row row' => seqOf row < seqOf row' := by
  induction entries generalizing seq with
  | nil => exact ⟨List.forall_mem_nil _, .nil⟩
  | cons entry entries ih =>
    obtain ⟨hrest, hsorted⟩ := ih h.2
    have hfirst := reads_rowOf htype h.1
    rw [List.map_cons]
    refine ⟨fun row hrow => ?_, List.pairwise_cons.mpr ⟨fun row hrow => ?_, hsorted⟩⟩
    · rcases List.mem_cons.mp hrow with rfl | hrow
      · exact ⟨hfirst.good, hfirst.type, hfirst.total, hfirst.seq.ge⟩
      · obtain ⟨hgood, htype, htotal, hseq⟩ := hrest row hrow
        exact ⟨hgood, htype, htotal, by omega⟩
    · have := (hrest row hrow).2.2.2
      have := hfirst.seq
      omega

/-- Rows that a write adds: of one type and total, in order, and behind `seq`. -/
structure Fresh (type : PyStr) (seq total : ℤ) (rows : List (Row F)) : Prop where
  ordered : Ordered rows
  type : ∀ row ∈ rows, getKey kRecordType row = some (.str type)
  total : ∀ row ∈ rows, totalOf row = total
  behind : ∀ row ∈ rows, seq < seqOf row

theorem plain_types : ∀ type ∈ [recordAlert, recordOverflowAlarm, recordRelayStatus], Plain type := by
  decide +kernel

omit [PyFloat F] in
theorem plain_type (r : Request F) : Plain r.type := by
  cases r with
  | enqueue => exact plain_types _ (by simp [Request.type])
  | appendStatus => exact plain_types _ (by simp [Request.type])

theorem fresh_build (a : Answers) (r : Request F) (seq : ℤ) (evicted repaired : ℕ) (total : ℤ) :
    Fresh r.type seq total
      ((withRepaired repaired (build a r (seq + 1) evicted total)).map rowOf) := by
  obtain ⟨hrows, hsorted⟩ := rows_numbered (plain_type r)
    (numbered_withRepaired repaired (numbered_build a r (seq + 1) evicted total).1)
  refine ⟨⟨fun row hrow => (hrows row hrow).1, hsorted⟩, fun row hrow => (hrows row hrow).2.1,
    fun row hrow => (hrows row hrow).2.2.1, fun row hrow => ?_⟩
  have := (hrows row hrow).2.2.2
  omega

omit [PyFloat F] in
/-- Rows that are behind the last go on with the order. -/
theorem Ordered.append {type : PyStr} {seq total : ℤ} (h : Ordered rows)
    (hfresh : Fresh type seq total rows') (hbefore : ∀ row ∈ rows, seqOf row ≤ seq) :
    Ordered (rows ++ rows') := by
  refine ⟨fun row hrow => ?_, List.pairwise_append.mpr ⟨h.sorted, hfresh.ordered.sorted, ?_⟩⟩
  · exact (List.mem_append.mp hrow).elim (h.good row) (hfresh.ordered.good row)
  · intro row hrow row' hrow'
    have := hbefore row hrow
    have := hfresh.behind row' hrow'
    omega

/-! ## 3. What a write does -/

variable [PyRepr F] {q : Queue} {cache : Option Cache} {file : File} {r : Request F}

/-- An instance that does not read the file knows it: its numbers are those that `_scan` would find,
and there is no torn tail. -/
def Trusted (F : Type) [PyFloat F] (wide : Text → Option Text) (cache : Option Cache) (file : File) :
    Prop :=
  ∀ c, cache = some c → c.ino = file.ino → c.size = file.bytes.length →
    let s := scan F wide file.bytes
    s.data = file.bytes ∧ c.lineCount = s.lineCount ∧ c.seq = s.seq ∧ c.evictedTotal = s.evictedTotal

omit [PyRepr F] in
theorem find_holds (h : Holds wide file.bytes rows) (hgood : ∀ row ∈ rows, Good row)
    (htrusted : Trusted F wide cache file) :
    HoldsWhole wide (find F wide cache file).data rows ∧
      (find F wide cache file).lineCount = rows.length ∧
      (find F wide cache file).seq = lastSeq rows ∧
      (find F wide cache file).evictedTotal = lastTotal rows := by
  obtain ⟨hdata, hcount, -, hseq, htotal⟩ := scan_holds h hgood
  unfold find
  split
  · rename_i c
    split_ifs with hkey
    · obtain ⟨hsame, hcount', hseq', htotal'⟩ := htrusted c rfl hkey.1 hkey.2
      rw [hsame] at hdata
      exact ⟨hdata, hcount'.trans hcount, hseq'.trans hseq, htotal'.trans htotal⟩
    · exact ⟨hdata, hcount, hseq, htotal⟩
  · exact ⟨hdata, hcount, hseq, htotal⟩

/-- The alerts that a compaction leaves: those of no evicted decision. -/
def keptRows (gone : List PyStr) (rows : List (Row F)) : List (Row F) :=
  (rows.filter isAlert).filter fun row => decisionKey row ∉ gone

/-- The decisions that a compaction evicts. -/
def evictedKeys (maxEntries incoming : ℕ) (rows : List (Row F)) : List PyStr :=
  (evict maxEntries incoming (rows.filter isAlert).length
    (groups decisionKey (rows.filter isAlert))).1.map Prod.fst

omit [PyRepr F] in
theorem lineSeq_encodeRow {row : Row F} (h : Good row) : lineSeq F wide (encodeRow row) = seqOf row := by
  rw [lineSeq, encodeRow, (isLine_row h).2]
  rfl

omit [PyFloat F] [PyRepr F] in
theorem Ordered.filter (h : Ordered rows) (p : Row F → Bool) : Ordered (rows.filter p) :=
  ⟨fun row hrow => h.good row (List.mem_of_mem_filter hrow), h.sorted.filter p⟩

/-- **What a compaction keeps**, and how many alerts it evicts. -/
theorem compact_eq {lines : List Text} (hlines : parse wide lines = rows) (hrows : Ordered rows)
    (maxEntries incoming : ℕ) (seq total : ℤ) (a : Answers) :
    let c := compact (F := F) wide maxEntries lines incoming seq total a
    let gone := evictedKeys maxEntries incoming rows
    c.kept = (keptRows gone rows).map encodeRow ∧
      (keptRows gone rows).length + c.evicted = (rows.filter isAlert).length ∧
      ((keptRows gone rows).length = 0 ∨ (keptRows gone rows).length + incoming ≤ maxEntries) ∧
      Stamped c.alarm recordOverflowAlarm (seq + 1) (total + c.evicted) := by
  intro c gone
  have halerts : Ordered (rows.filter isAlert) := hrows.filter _
  let stay := (evict maxEntries incoming (rows.filter isAlert).length
    (groups decisionKey (rows.filter isAlert))).2.flatMap Prod.snd
  have hperm : stay.Perm (keptRows gone rows) :=
    (evict_perm (rows.filter isAlert) _).trans
      (.of_eq (List.filter_congr fun row _ => decide_eq_decide.mpr Iff.rfl))
  have hsort : stay.insertionSort (fun row row' => seqOf row ≤ seqOf row') = keptRows gone rows :=
    (sort_evict halerts.sorted _).trans
      (List.filter_congr fun row _ => decide_eq_decide.mpr Iff.rfl)
  have hall := ((@groups_perm _ _ _ decisionKey) (rows.filter isAlert)).length_eq
  have hfits := (@evict_fits _ _ _ maxEntries incoming) hall
  have happend := (@evict_append _ _ maxEntries incoming)
    (rows.filter isAlert).length (groups decisionKey (rows.filter isAlert))
  have hkept : (keptRows gone rows).length = stay.length := hperm.length_eq.symm
  have hevicted : c.evicted = ((evict maxEntries incoming (rows.filter isAlert).length
      (groups decisionKey (rows.filter isAlert))).1.flatMap Prod.snd).length := by
    simp only [c, compact, hlines]
  refine ⟨?_, ?_, ?_, ?_⟩
  · have hmap := List.map_insertionSort (fun row row' : Row F => seqOf row ≤ seqOf row')
      (fun line line' => lineSeq F wide line ≤ lineSeq F wide line') encodeRow stay ?_
    · simp only [c, compact, hlines]
      rw [← hsort, hmap]
    · intro row hrow row' hrow'
      have hgood : ∀ row ∈ stay, Good row := fun row hrow =>
        halerts.good row (List.mem_of_mem_filter (hperm.mem_iff.mp hrow))
      rw [lineSeq_encodeRow (hgood row hrow), lineSeq_encodeRow (hgood row' hrow')]
  · rw [hkept, hevicted, Nat.add_comm, ← List.length_append, ← List.flatMap_append, happend, hall]
  · rw [hkept]
    rcases hfits with h | h
    · exact .inl (by simp only [stay, h]; rfl)
    · exact .inr h
  · have hnodup : (c.alarm.map Prod.fst).Nodup := by
      simp only [c, compact, List.map_cons, List.map_nil]
      simp
    exact ⟨hnodup, rfl, rfl, rfl⟩

/-- How many alerts are among the rows. -/
def alertCount (rows : List (Row F)) : ℕ := (rows.filter isAlert).length

/-- What a write makes of the rows: `new` are its own entries. -/
structure Next (q : Queue) (r : Request F) (rows new rows' : List (Row F)) : Prop where
  ordered : Ordered rows'
  bounded : rows'.length ≤ q.maxLines
  ends : ∃ front, rows' = front ++ new
  size : new.length = r.size
  type : ∀ row ∈ new, getKey kRecordType row = some (.str r.type)
  count : (alertCount rows' : ℤ) + lastTotal rows' = alertCount rows + lastTotal rows + r.incoming

/-- The two things that a plan can be. -/
inductive Plans (wide : Text → Option Text) (q : Queue) (r : Request F) (p : Plan F)
    (rows new : List (Row F)) : List (Row F) → Prop
  | append : p.replaces = false → HoldsWhole wide p.lines.flatten new →
      Plans wide q r p rows new (rows ++ new)
  | replace (alarm : Row F) : p.replaces = true → isAlert alarm = false →
      HoldsWhole wide p.lines.flatten
        (keptRows (evictedKeys q.maxEntries r.incoming rows) rows ++ alarm :: new) →
      Plans wide q r p rows new
        (keptRows (evictedKeys q.maxEntries r.incoming rows) rows ++ alarm :: new)

omit [PyFloat F] [PyRepr F] in
theorem alertCount_append (rows rows' : List (Row F)) :
    alertCount (rows ++ rows') = alertCount rows + alertCount rows' := by
  rw [alertCount, List.filter_append, List.length_append]
  rfl

omit [PyFloat F] [PyRepr F] in
/-- Rows of one type are all alerts, or none is. -/
theorem alertCount_new {new : List (Row F)} (hsize : new.length = r.size)
    (htype : ∀ row ∈ new, getKey kRecordType row = some (.str r.type)) :
    alertCount new = r.incoming := by
  have hne : recordRelayStatus ≠ recordAlert := by decide +kernel
  cases r with
  | enqueue alerts extra =>
    rw [alertCount, List.filter_eq_self.mpr, hsize]
    · rfl
    · intro row hrow
      rw [isAlert, htype row hrow]
      exact decide_eq_true rfl
  | appendStatus status =>
    rw [alertCount, List.filter_eq_nil_iff.mpr]
    · rfl
    · intro row hrow
      rw [isAlert, htype row hrow]
      exact fun h => hne (of_decide_eq_true h)

omit [PyFloat F] [PyRepr F] in
theorem lastTotal_append {new : List (Row F)} {total : ℤ} (hne : new ≠ [])
    (htotal : ∀ row ∈ new, totalOf row = total) (front : List (Row F)) :
    lastTotal (front ++ new) = total := by
  rw [lastTotal, List.getLast?_append_of_ne_nil _ hne, List.getLast?_eq_some_getLast hne,
    Option.map_some, Option.getD_some, htotal _ (List.getLast_mem hne)]

omit [PyFloat F] [PyRepr F] in
/-- A request that is not refused. -/
theorem size_of_not_refused (h : refused q r = false) :
    0 < r.size ∧ (r.size = r.incoming ∧ r.size ≤ q.maxEntries ∨ r.size = 1 ∧ r.incoming = 0) := by
  cases r with
  | enqueue alerts extra =>
    simp only [refused, Bool.or_eq_false_iff, List.isEmpty_eq_false_iff, decide_eq_false_iff_not] at h
    exact ⟨List.length_pos_of_ne_nil h.1, .inl ⟨rfl, by simpa [Request.size] using h.2⟩⟩
  | appendStatus status => exact ⟨Nat.one_pos, .inr ⟨rfl, rfl⟩⟩

/-- **What a write is going to do.** -/
theorem plan_spec (hholds : Holds wide file.bytes rows) (hrows : Ordered rows)
    (htrusted : Trusted F wide cache file) (hreq : refused q r = false) :
    let p := plan wide q cache file r a
    ∃ rows', HoldsWhole wide p.base.bytes rows ∧ p.totalLines = rows'.length ∧
      Plans wide q r p rows (p.entries.map rowOf) rows' ∧
      Next q r rows (p.entries.map rowOf) rows' := by
  obtain ⟨hdata, hcount, hseq, htotal⟩ := find_holds hholds hrows.good htrusted
  obtain ⟨hscan, -, hparse, -, -⟩ := scan_holds hholds hrows.good
  obtain ⟨hpos, hsize⟩ := size_of_not_refused hreq
  have hlength : ∀ seq evicted total repaired,
      ((withRepaired repaired (build a r seq evicted total)).map rowOf).length = r.size := by
    intro seq evicted total repaired
    rw [List.length_map, withRepaired, List.length_map, (numbered_build a r seq evicted total).2]
  have hne : ∀ {new : List (Row F)}, new.length = r.size → new ≠ [] := fun h =>
    List.ne_nil_of_length_pos (by omega)
  intro p
  by_cases hfull : q.maxLines < rows.length + r.size
  · -- the file is compacted
    have hp : p = plan wide q cache file r a := rfl
    unfold plan at hp
    simp only [hcount, (numbered_build a r _ 0 _).2, if_pos hfull, hseq, htotal] at hp
    obtain ⟨hkept, hevicted, hfits, halarm⟩ := compact_eq hparse hrows q.maxEntries r.incoming
      (lastSeq rows) (lastTotal rows) a
    generalize hc : compact (F := F) wide q.maxEntries (scan F wide file.bytes).lines r.incoming
      (lastSeq rows) (lastTotal rows) a = c at hp hkept hevicted halarm
    set gone := evictedKeys q.maxEntries r.incoming rows with hgone
    have hread := reads_rowOf (plain_types _ (by simp)) halarm
    have hfresh := fresh_build a r (lastSeq rows + 1) c.evicted (find F wide cache file).repaired
      (lastTotal rows + c.evicted)
    generalize hentries : withRepaired (find F wide cache file).repaired
      (build a r (lastSeq rows + 1 + 1) c.evicted (lastTotal rows + c.evicted)) = entries
      at hp hfresh
    have hnew : (entries.map rowOf).length = r.size := by rw [← hentries, hlength]
    have halerts := alertCount_new hnew hfresh.type
    have hnotAlert : isAlert (rowOf c.alarm) = false := by
      have hne : recordOverflowAlarm ≠ recordAlert := by decide +kernel
      rw [isAlert, hread.type]
      simpa using hne
    have hkeptOrdered : Ordered (keptRows gone rows) := (hrows.filter _).filter _
    have hkeptLast : ∀ row ∈ keptRows gone rows, seqOf row ≤ lastSeq rows := fun row hrow =>
      hrows.le_lastSeq row (List.mem_of_mem_filter (List.mem_of_mem_filter hrow))
    have hordered : Ordered (keptRows gone rows ++ [rowOf c.alarm]) := by
      refine @Ordered.append _ _ _ recordOverflowAlarm _ (lastTotal rows + c.evicted) hkeptOrdered
        ⟨⟨?_, List.pairwise_singleton _ _⟩, ?_, ?_, ?_⟩ hkeptLast
      · exact List.forall_mem_singleton.mpr hread.good
      · exact List.forall_mem_singleton.mpr hread.type
      · exact List.forall_mem_singleton.mpr hread.total
      · exact List.forall_mem_singleton.mpr (by rw [hread.seq]; omega)
    have hlast := lastTotal_append (hne hnew) hfresh.total (keptRows gone rows ++ [rowOf c.alarm])
    rw [hp]
    refine ⟨keptRows gone rows ++ rowOf c.alarm :: entries.map rowOf, hscan, by simp [hkept],
      .replace (rowOf c.alarm) rfl hnotAlert ?_, ?_⟩
    · have hwritten := (holdsWhole_rows hkeptOrdered.good).append
        ((@holdsWhole_entries _ _ wide) (c.alarm :: entries))
      rw [hkept]
      simpa using hwritten
    · show Next q r rows (entries.map rowOf) _
      rw [show keptRows gone rows ++ rowOf c.alarm :: entries.map rowOf =
        keptRows gone rows ++ [rowOf c.alarm] ++ entries.map rowOf from List.append_cons _ _ _]
      refine ⟨hordered.append hfresh ?_, ?_, ⟨_, rfl⟩, hnew, hfresh.type, ?_⟩
      · intro row hrow
        rcases List.mem_append.mp hrow with hrow | hrow
        · have := hkeptLast row hrow
          omega
        · rw [List.mem_singleton.mp hrow, hread.seq]
      · have := q.enough
        rw [List.length_append, List.length_append, hnew, List.length_singleton, Queue.maxLines]
        omega
      · have hkeptAlerts : alertCount (keptRows gone rows) = (keptRows gone rows).length := by
          rw [alertCount, List.filter_eq_self.mpr]
          exact fun row hrow => (List.mem_filter.mp (List.mem_of_mem_filter hrow)).2
        have hone : alertCount [rowOf c.alarm] = 0 := by simp [alertCount, hnotAlert]
        rw [alertCount_append, alertCount_append, halerts, hlast, hkeptAlerts, hone]
        rw [← alertCount] at hevicted
        push_cast
        omega
  · have hp : p = plan wide q cache file r a := rfl
    unfold plan at hp
    simp only [hcount, (numbered_build a r _ 0 _).2, if_neg hfull, hseq, htotal] at hp
    have hfresh := fresh_build a r (lastSeq rows) 0 (find F wide cache file).repaired
      (lastTotal rows)
    generalize hentries : withRepaired (find F wide cache file).repaired
      (build a r (lastSeq rows + 1) 0 (lastTotal rows)) = entries at hp hfresh
    have hnew : (entries.map rowOf).length = r.size := by rw [← hentries, hlength]
    have halerts := alertCount_new hnew hfresh.type
    have hlast := lastTotal_append (hne hnew) hfresh.total rows
    rw [hp]
    refine ⟨rows ++ entries.map rowOf, hdata, by simp, .append rfl (holdsWhole_entries entries), ?_⟩
    refine ⟨hrows.append hfresh hrows.le_lastSeq, ?_, ⟨rows, rfl⟩, hnew, hfresh.type, ?_⟩
    · rw [List.length_append, hnew]
      omega
    · rw [alertCount_append, halerts, hlast]
      push_cast
      omega

/-! ## 4. Every run -/

section Watch

variable {I : Type} [DecidableEq I]

/-- The instances and the file, with the alerts enqueued so far, and whether a write was torn. -/
structure Watch (I : Type) where
  world : World I
  enqueued : ℕ
  torn : Bool

/-- No file and no instance that knows one. -/
def Watch.start (I : Type) : Watch I := ⟨⟨none, fun _ => none⟩, 0, false⟩

/-- The file's bytes. -/
def World.content (w : World I) : Text := (w.file.map File.bytes).getD []

variable (wide : Text → Option Text) (q : Queue)

/-- How many alerts a write that gets so far enqueues. -/
def Plan.added (p : Plan F) (r : Request F) : Outcome → ℕ
  | .returned => r.incoming
  | .cut bytes replaced =>
    if p.replaces then (if replaced then r.incoming else 0)
    else if p.lines.flatten.length ≤ bytes then r.incoming else 0
  | _ => 0

/-- It leaves some bytes of its lines, and not all. -/
def Plan.tears (p : Plan F) : Outcome → Bool
  | .cut bytes _ => !p.replaces && decide (0 < bytes) && decide (bytes < p.lines.flatten.length)
  | _ => false

/-- What a write of an instance is going to do. -/
def World.plan (w : World I) (i : I) (r : Request F) (a : Answers) : Plan F :=
  Alert.plan wide q (w.cache i) (openFile w.file a) r a

def Watch.step (w : Watch I) (e : Event I F) : Watch I :=
  match e with
  | .reopen _ => { w with world := Alert.step wide q w.world e }
  | .write i r a o =>
    if refused q r then w
    else
      { world := Alert.step wide q w.world e
        enqueued := w.enqueued + (w.world.plan wide q i r a).added r o
        torn := w.torn || (w.world.plan wide q i r a).tears o }

/-- A step of a run in which no instance takes another file for the one it knows. -/
def trusting (w : Watch I) (e : Event I F) (w' : Watch I) : Prop :=
  (∀ i r a o, e = .write i r a o → Trusted F wide (w.world.cache i) (openFile w.world.file a)) ∧
    w' = w.step wide q e

variable {q}

/-- What holds of the file after every step. -/
structure Kept (F : Type) [PyFloat F] (wide : Text → Option Text) (q : Queue) (w : Watch I)
    (rows : List (Row F)) : Prop where
  holds : Holds wide w.world.content rows
  ordered : Ordered rows
  bounded : rows.length ≤ q.maxLines
  counted : w.torn = false → (w.enqueued : ℤ) = alertCount rows + lastTotal rows

omit [PyRepr F] in
theorem holds_openFile {file : Option File} (h : Holds wide ((file.map File.bytes).getD []) rows)
    (a : Answers) : Holds wide (openFile file a).bytes rows := by
  cases file <;> exact h

omit [PyRepr F] in
/-- The rows on the first bytes of a file. -/
theorem holds_take (h : HoldsWhole wide bytes rows) (k : ℕ) :
    ∃ j, Holds wide (bytes.take k) (rows.take j) := by
  obtain ⟨lines, rfl, hlines⟩ := h
  induction hlines generalizing k with
  | nil => exact ⟨0, [], [], by simp, by simp, .nil⟩
  | @cons line row lines rows hline hlines ih =>
    by_cases hk : k ≤ line.length
    · refine ⟨0, [], line.take k, ?_, fun h => hline.1 (List.mem_of_mem_take h), .nil⟩
      rw [fileOf, List.flatMap_cons, List.append_assoc, List.take_append_of_le_length hk]
      rfl
    · obtain ⟨n, rfl⟩ : ∃ n, k = line.length + (n + 1) := ⟨k - line.length - 1, by omega⟩
      obtain ⟨j, lines', tail, hbytes, htail, hrows⟩ := ih n
      refine ⟨j + 1, line :: lines', tail, ?_, htail, .cons hline hrows⟩
      rw [fileOf, List.flatMap_cons, ← fileOf, List.append_assoc, List.take_length_add_append,
        List.singleton_append, List.take_succ_cons, hbytes, fileOf, fileOf, List.flatMap_cons,
        List.append_assoc, List.append_assoc]
      rfl

omit [PyFloat F] [PyRepr F] in
theorem Ordered.prefix {front : List (Row F)} (h : Ordered (front ++ rows)) (j : ℕ) :
    Ordered (front ++ rows.take j) := by
  have hsub : (front ++ rows.take j).Sublist (front ++ rows) :=
    (List.take_sublist j rows).append_left front
  exact ⟨fun row hrow => h.good row (hsub.subset hrow), h.sorted.sublist hsub⟩

/-- Rows that a write which gets so far may leave. -/
structure Left (q : Queue) (p : Plan F) (r : Request F) (o : Outcome) (rows rows' : List (Row F)) :
    Prop where
  ordered : Ordered rows'
  bounded : rows'.length ≤ q.maxLines
  counted : p.tears o = false →
    (alertCount rows' : ℤ) + lastTotal rows' = alertCount rows + lastTotal rows + p.added r o

variable {wide}

theorem left_returned {p : Plan F} {new : List (Row F)} (hbase : HoldsWhole wide p.base.bytes rows)
    (hplans : Plans wide q r p rows new rows') (hnext : Next q r rows new rows') (a : Answers) :
    HoldsWhole wide (p.after a).bytes rows' ∧ Left q p r .returned rows rows' := by
  refine ⟨?_, hnext.ordered, hnext.bounded, fun _ => hnext.count⟩
  cases hplans with
  | append hreplaces hlines =>
    rw [Plan.after, hreplaces, if_neg (by decide)]
    exact hbase.append hlines
  | replace alarm hreplaces _ hlines =>
    rw [Plan.after, hreplaces, if_pos rfl]
    exact hlines

/-- **A write that is cut short** leaves some of its rows in the file, or none of a replacement. -/
theorem left_cut {p : Plan F} {new : List (Row F)} (hbase : HoldsWhole wide p.base.bytes rows)
    (hrows : Ordered rows) (hbounded : rows.length ≤ q.maxLines)
    (hplans : Plans wide q r p rows new rows') (hnext : Next q r rows new rows') (a : Answers)
    (k : ℕ) (replaced : Bool) :
    ∃ rows'', Holds wide (p.cut a k replaced).bytes rows'' ∧
      Left q p r (.cut k replaced) rows rows'' := by
  obtain ⟨hafter, hleft⟩ := left_returned hbase hplans hnext a
  cases hplans with
  | replace alarm hreplaces _ hlines =>
    cases replaced with
    | true =>
      refine ⟨_, ?_, hnext.ordered, hnext.bounded, fun _ => ?_⟩
      · rw [Plan.cut, hreplaces, if_pos rfl, if_pos rfl]
        exact hafter.holds
      · rw [Plan.added, hreplaces, if_pos rfl, if_pos rfl]
        exact hnext.count
    | false =>
      refine ⟨rows, ?_, hrows, hbounded, fun _ => ?_⟩
      · rw [Plan.cut, hreplaces, if_pos rfl, if_neg (by decide)]
        exact hbase.holds
      · rw [Plan.added, hreplaces, if_pos rfl, if_neg (by decide)]
        omega
  | append hreplaces hlines =>
    have hcut : (p.cut a k replaced).bytes = p.base.bytes ++ p.lines.flatten.take k := by
      rw [Plan.cut, hreplaces, if_neg (by decide)]
    by_cases hall : p.lines.flatten.length ≤ k
    · refine ⟨rows ++ new, ?_, hnext.ordered, hnext.bounded, fun _ => ?_⟩
      · rw [hcut, List.take_of_length_le hall]
        exact (hbase.append hlines).holds
      · rw [Plan.added, hreplaces, if_neg (by decide), if_pos hall]
        exact hnext.count
    by_cases hnone : k = 0
    · refine ⟨rows, ?_, hrows, hbounded, fun _ => ?_⟩
      · rw [hcut, hnone, List.take_zero, List.append_nil]
        exact hbase.holds
      · rw [Plan.added, hreplaces, if_neg (by decide), if_neg hall]
        omega
    · -- the write is torn
      obtain ⟨j, hj⟩ := holds_take wide hlines k
      refine ⟨rows ++ new.take j, ?_, hnext.ordered.prefix j, ?_, fun htears => ?_⟩
      · rw [hcut]
        exact hbase.append_torn hj
      · have := hnext.bounded
        rw [List.length_append] at this ⊢
        rw [List.length_take]
        omega
      · rw [Plan.tears, hreplaces] at htears
        simp only [Bool.not_false, Bool.true_and, Bool.and_eq_false_iff, decide_eq_false_iff_not]
          at htears
        omega

omit [PyRepr F] [DecidableEq I] in
theorem kept_start : Kept F wide q (Watch.start I) ([] : List (Row F)) :=
  ⟨⟨[], [], rfl, List.not_mem_nil, .nil⟩, ⟨List.forall_mem_nil _, .nil⟩, Nat.zero_le _, fun _ => rfl⟩

/-- **A step keeps what holds of the file.** -/
theorem kept_step {w w' : Watch I} {e : Event I F} (h : Kept F wide q w rows)
    (hstep : trusting wide q w e w') : ∃ rows', Kept F wide q w' rows' := by
  obtain ⟨htrusted, rfl⟩ := hstep
  cases e with
  | reopen i => exact ⟨rows, h.holds, h.ordered, h.bounded, h.counted⟩
  | write i r a o =>
    cases hreq : refused q r with
    | true => exact ⟨rows, by simpa only [Watch.step, hreq, if_true] using h⟩
    | false =>
      have hopen := holds_openFile wide h.holds a
      obtain ⟨rows', hbase, -, hplans, hnext⟩ := plan_spec (a := a) hopen h.ordered
        (htrusted i r a o rfl) hreq
      have hnow : ∀ (file : File) (cache : I → Option Cache) rows'',
          Holds wide file.bytes rows'' → Left q (w.world.plan wide q i r a) r o rows rows'' →
          Kept F wide q ⟨⟨some file, cache⟩, w.enqueued + (w.world.plan wide q i r a).added r o,
            w.torn || (w.world.plan wide q i r a).tears o⟩ rows'' := by
        intro file cache rows'' hholds hleft
        refine ⟨hholds, hleft.ordered, hleft.bounded, fun htorn => ?_⟩
        rw [Bool.or_eq_false_iff] at htorn
        have := h.counted htorn.1
        have := hleft.counted htorn.2
        push_cast
        omega
      have hsame : (o = .unopened ∨ o = .opened) →
          Left q (w.world.plan wide q i r a) r o rows rows := by
        rintro (rfl | rfl)
        · exact ⟨h.ordered, h.bounded, fun _ => by simp [Plan.added]⟩
        · exact ⟨h.ordered, h.bounded, fun _ => by simp [Plan.added]⟩
      cases o with
      | returned =>
        obtain ⟨hafter, hleft⟩ := left_returned hbase hplans hnext a
        refine ⟨rows', ?_⟩
        simp only [Watch.step, hreq, Bool.false_eq_true, if_false, Alert.step]
        exact hnow _ _ _ hafter.holds hleft
      | cut k replaced =>
        obtain ⟨rows'', hholds, hleft⟩ := left_cut hbase h.ordered h.bounded hplans hnext a k replaced
        refine ⟨rows'', ?_⟩
        simp only [Watch.step, hreq, Bool.false_eq_true, if_false, Alert.step]
        exact hnow _ _ _ hholds hleft
      | opened =>
        refine ⟨rows, ?_⟩
        simp only [Watch.step, hreq, Bool.false_eq_true, if_false, Alert.step]
        exact hnow _ _ _ hopen (hsame (.inr rfl))
      | unopened =>
        refine ⟨rows, ?_⟩
        simp only [Watch.step, hreq, Bool.false_eq_true, if_false, Alert.step]
        refine ⟨h.holds, h.ordered, h.bounded, fun htorn => ?_⟩
        rw [Bool.or_eq_false_iff] at htorn
        simpa [Plan.added] using h.counted htorn.1

/-- The records on the complete lines of the file. -/
def World.records (F : Type) [PyFloat F] (wide : Text → Option Text) (w : World I) : List (Row F) :=
  parse wide ((completeLines nl w.content).map (· ++ [nl]))

end Watch

/-- An alert of a decision on a channel. -/
def sampleAlert (id channel : String) : Dict NaN :=
  ⟨[(kDecisionId, .str (pyStr id)), (pyStr "channel", .str (pyStr channel))], by
    simp only [List.map_cons, List.map_nil]
    simp⟩

def emptyDict : Dict NaN := ⟨[], List.nodup_nil⟩

/-- Both alerts of a decision. -/
def sampleDecision (id : String) : Request NaN :=
  .enqueue [sampleAlert id "visual", sampleAlert id "voice"] emptyDict

end AzazelEdge.Alert
