/-
# The head of a chain file

`read_chain_head` reads 64 KiB from the end, and the whole file when the last line is not in them;
`_read_last_chain_hash` doubles its window until the last line is in it.  Of any bytes both find the
last line of the whole file (`headFrom_eq`, `lineTail_window`).

What the line says is read by two parsers.  On a file of records with at most a part of one more
behind them they agree: the whole line of a record is read by both, and of a part of it by neither
(`read_chain_head_agrees`).  Beyond the depth that `serde_json` reads they differ.
-/
import AzazelEdge.Audit.Appended
import AzazelEdge.Lib.PyPrefix
import Mathlib.Data.List.TakeDrop

namespace AzazelEdge.Audit

open AzazelEdge.Lib AzazelEdge.Lib.Py

variable {file bytes data before rest : Text} {start : ℕ}

/-! ## 1. The loop -/

/-- The loop of `read_chain_head` from `start`: the last line and `torn_tail`, which the first window
sets. -/
def headFrom (bytes : Text) (start : ℕ) (tornTail : Option Bool) : Text × Bool :=
  let buf := bytes.drop start
  let torn := tornTail.getD (buf ≠ [] && buf.getLast? ≠ some nl)
  let body := dropNewline buf
  if nl ∈ body then (lineTail nl body, torn)
  else if 0 < start then headFrom bytes 0 (some torn)
  else (body, torn)
termination_by start

section Head

variable (fromSlice : Text → Option Json)

/-- `chain_hash` of a line. -/
def hashOfLine (line : Text) : String :=
  if line = [] then "" else ((fromSlice line).bind fun v => v.strAt? "chain_hash").getD ""

/-- `read_chain_head` with its loop. -/
def readHead (file : Option Text) : ChainHead :=
  match file with
  | none => ⟨"", false⟩
  | some bytes =>
    let (body, tornTail) := headFrom bytes (bytes.length - headWindow) none
    ⟨hashOfLine fromSlice body, tornTail⟩

/-- The hash of the last line of the whole file. -/
def lastLineHash (bytes : Text) : String := hashOfLine fromSlice (lineTail nl (dropNewline bytes))

end Head

/-! ## 2. The last line -/

/-- What is before a newline is not in the last line. -/
theorem lineTail_of_mem (h : nl ∈ data) : lineTail nl (before ++ data) = lineTail nl data := by
  obtain ⟨line, rest, rfl⟩ := List.append_of_mem h
  have hcut : ∀ front : Text, lineTail nl (front ++ nl :: rest) = lineTail nl rest := by
    intro front
    have hsplit : front ++ nl :: rest = (front ++ [nl]) ++ rest := by simp
    have hended : lineTail nl (front ++ [nl]) = [] := lineTail_of_getLast List.getLast?_concat
    rw [hsplit, lineTail_append, hended, List.nil_append]
  rw [← List.append_assoc, hcut, hcut]

theorem dropNewline_drop (h : bytes.drop start ≠ []) :
    dropNewline (bytes.drop start) = (dropNewline bytes).drop start := by
  have hlt : start < bytes.length := by
    by_contra hge
    exact h (List.drop_eq_nil_of_le (by omega))
  unfold dropNewline
  rw [List.getLast?_drop, if_neg (show ¬ bytes.length ≤ start by omega)]
  split_ifs
  · exact List.dropLast_drop_eq_drop_dropLast _ _
  · rfl

/-- **A window with a newline in it ends in the file's last line.** -/
theorem lineTail_drop (h : nl ∈ dropNewline (bytes.drop start)) :
    lineTail nl (dropNewline (bytes.drop start)) = lineTail nl (dropNewline bytes) := by
  have hne : bytes.drop start ≠ [] := by
    intro hnil
    rw [hnil] at h
    cases h
  rw [dropNewline_drop hne] at h ⊢
  conv_rhs => rw [← List.take_append_drop start (dropNewline bytes)]
  exact (lineTail_of_mem h).symm

theorem isTorn_drop (h : start < bytes.length ∨ start = 0) :
    isTorn (bytes.drop start) = isTorn bytes := by
  rcases h with h | rfl
  · have hne : bytes.drop start ≠ [] := by rw [Ne, List.drop_eq_nil_iff]; omega
    have hne' : bytes ≠ [] := List.ne_nil_of_length_pos (by omega)
    rw [isTorn, isTorn, List.getLast?_drop, if_neg (by omega)]
    simp [hne, hne']
  · rw [List.drop_zero]

/-- **The loop finds the last line of the whole file**, and sees in its first window how it ends. -/
theorem headFrom_eq (h : start < bytes.length ∨ start = 0) (tornTail : Option Bool) :
    headFrom bytes start tornTail =
      (lineTail nl (dropNewline bytes), tornTail.getD (isTorn bytes)) := by
  have hwhole : ∀ tornTail, headFrom bytes 0 tornTail =
      (lineTail nl (dropNewline bytes), tornTail.getD (isTorn bytes)) := by
    intro tornTail
    rw [headFrom, ← isTorn]
    simp only [List.drop_zero, lt_irrefl, if_false]
    split_ifs with hmem
    · rfl
    · rw [lineTail, cutLines_of_not_mem hmem]
  rw [headFrom, ← isTorn, isTorn_drop h]
  split_ifs with hmem hpos
  · rw [lineTail_drop hmem]
  · rw [hwhole, Option.getD_some]
  · obtain rfl : start = 0 := by omega
    rw [List.drop_zero] at hmem ⊢
    rw [lineTail, cutLines_of_not_mem hmem]

theorem readHead_some (fromSlice : Text → Option Json) (bytes : Text) :
    readHead fromSlice (some bytes) = ⟨lastLineHash fromSlice bytes, isTorn bytes⟩ := by
  have hwindow : 0 < headWindow := by decide
  rw [readHead, headFrom_eq (by omega)]
  rfl

/-- The reader that the rest of the module's model calls. -/
theorem readChainHead_eq (fromSlice : Text → Option Json) (file : Option Text) :
    readChainHead fromSlice file = readHead fromSlice file := by
  cases file with
  | none => rfl
  | some bytes =>
    have hline : ∀ start, start = 0 ∨ nl ∈ dropNewline (bytes.drop start) →
        lineTail nl (dropNewline (bytes.drop start)) = lineTail nl (dropNewline bytes) := by
      rintro start (rfl | h)
      · rw [List.drop_zero]
      · exact lineTail_drop h
    rw [readHead_some, readChainHead]
    simp only [lastLineHash, hashOfLine, isTorn]
    rw [hline]
    split_ifs with hin
    · exact .inr hin
    · exact .inl rfl

/-- **The doubling windows find it as well.** -/
theorem lineTail_window (file : Text) :
    lineTail nl (dropNewline (window false file)) = lineTail nl (dropNewline file) := by
  rcases (@windowStart_unbounded (file.length + 1) firstStep file.length file) (by decide)
    (by omega) with h | h
  · rw [window, h, List.drop_zero]
  · exact lineTail_drop h

/-! ## 3. Records -/

variable {F : Type} [PyFloat F] {ryu : ℚ → Text} {fromSlice : Text → Option Json}
  {record fields : Map} {records : List Map} {tail : Text}

/-- A record as `append` writes it of some fields. -/
def IsRecord (ryu : ℚ → Text) (record : Map) : Prop :=
  ∃ prev fields, fields.lookup "chain_hash" = none ∧ IsValue (.obj fields) ∧
    containsFloat (.obj fields) = false ∧ record = chainedMap ryu prev fields

/-- The bytes of a record. -/
def recordBytes (ryu : ℚ → Text) (record : Map) : Text := lineOfMap ryu record ++ [nl]

/-- `serde_json` parses nothing that is not JSON. -/
def ParsesJson (F : Type) [PyFloat F] (fromSlice : Text → Option Json) : Prop :=
  ∀ t, fromSlice t ≠ none → (loads t : Option (PyJson F)) ≠ none

/-- **An append adds the bytes of one record**, with a newline before them where one was torn off. -/
theorem append_recordBytes {start : Option Text} {written : Json} (hvalue : IsValue (.obj fields))
    (hfree : containsFloat (.obj fields) = false)
    (h : append ryu fromSlice start fields = .ok (bytes, written)) :
    ∃ record, IsRecord ryu record ∧ bytes = start.getD [] ++
      ((if (readHead fromSlice start).tornTail then [nl] else []) ++ recordBytes ryu record) := by
  obtain ⟨hhash, -, -, hbytes⟩ := append_eq h
  rw [readChainHead_eq] at hbytes
  refine ⟨_, ⟨(readHead fromSlice start).prev, fields, hhash, hvalue, hfree, rfl⟩, ?_⟩
  rw [hbytes, recordBytes]
  exact congrArg _ (List.append_assoc _ _ _)

namespace IsRecord

theorem isValue (h : IsRecord ryu record) : IsValue (.obj record) := by
  obtain ⟨prev, fields, -, hvalue, -, rfl⟩ := h
  exact ⟨keysSorted_mapInsert (keysSorted_mapInsert hvalue.1),
    areMembers_mapInsert trivial (areMembers_mapInsert trivial hvalue.2)⟩

theorem floatFree (h : IsRecord ryu record) : containsFloat (.obj record) = false := by
  obtain ⟨prev, fields, -, -, hfree, rfl⟩ := h
  rw [containsFloat] at hfree ⊢
  exact anyMemberFloat_mapInsert rfl (anyMemberFloat_mapInsert rfl hfree)

theorem hashed (h : IsRecord ryu record) :
    ∃ hash, record.lookup "chain_hash" = some (.str hash) := by
  obtain ⟨prev, fields, -, -, -, rfl⟩ := h
  exact ⟨_, by rw [chainedMap, lookup_mapInsert, if_pos rfl]⟩

theorem readable_of_depth (h : IsRecord ryu record) (hdepth : depth (.obj record) ≤ 127) : Readable record :=
  ⟨h.isValue, h.floatFree, hdepth⟩

theorem printable (h : IsRecord ryu record) : Printable (lineOfMap ryu record) :=
  printable_lineOfMap h.floatFree

end IsRecord

theorem textMembers_last (members : List (PyStr × PyJson F)) :
    (textMembers members).getLast? = some chCloseBrace := by
  induction members with
  | nil => rfl
  | cons member members ih =>
    have hne : textMembers members ≠ [] := fun h => by rw [h] at ih; cases ih
    rw [textMembers, List.getLast?_cons_of_ne_nil (by simp [hne]),
      List.getLast?_append_of_ne_nil _ hne, ih]

/-- A line begins with an opening brace and ends with a closing one. -/
theorem lineOfMap_braces (h : IsRecord ryu record) :
    (lineOfMap ryu record).head? = some chOpenBrace ∧
      (lineOfMap ryu record).getLast? = some chCloseBrace := by
  rw [lineOfMap, canonicalText_eq (F := NaN) _ h.floatFree, toPy, written, if_neg (by decide)]
  cases named (writtenItems (F := NaN) false (toPyMembers record)) with
  | nil => exact ⟨rfl, rfl⟩
  | cons member members =>
    have hlast := textMembers_last members
    have hne : textMembers members ≠ [] := fun h => by rw [h] at hlast; cases hlast
    refine ⟨rfl, ?_⟩
    rw [text, List.getLast?_cons_of_ne_nil (by simp [hne]), List.getLast?_append_of_ne_nil _ hne,
      hlast]

/-- **A part of a line is no JSON text.** -/
theorem loads_part (h : IsRecord ryu record) (hpart : tail <+: lineOfMap ryu record)
    (hne : tail ≠ lineOfMap ryu record) : (loads tail : Option (PyJson F)) = none :=
  loads_prefix (loads_lineOfMap h.floatFree h.isValue.1) (lineOfMap_braces h).1
    (lineOfMap_braces h).2 hpart hne

/-- Printable bytes that begin with a brace are their text. -/
theorem loadsBytes_brace (wide : Text → Option Text) {t : Text} (hprint : Printable t)
    (hhead : t.head? = some chOpenBrace) : loadsBytes wide t = (loads t : Option (PyJson F)) := by
  match t, hhead with
  | [_], hhead =>
    cases hhead
    rfl
  | _ :: d :: tail, hhead =>
    cases hhead
    refine loadsBytes_ascii wide (fun c hc => ?_) ?_
    · have := hprint c hc
      omega
    · have := hprint d (by simp)
      omega

/-! ## 4. One head -/

/-- The hash of a record. -/
def hashOf (record : Map) : String := ((Json.obj record).strAt? "chain_hash").getD ""

theorem hashOfLine_record (hread : ReadsBack ryu fromSlice) (h : IsRecord ryu record)
    (hdepth : depth (.obj record) ≤ 127) :
    hashOfLine fromSlice (lineOfMap ryu record) = hashOf record := by
  rw [hashOfLine, if_neg (lineOfMap_ne_nil ryu record), hread record (h.readable_of_depth hdepth)]
  rfl

theorem hashOfLine_part (hjson : ParsesJson F fromSlice) (h : IsRecord ryu record)
    (hpart : tail <+: lineOfMap ryu record) (hne : tail ≠ lineOfMap ryu record) :
    hashOfLine fromSlice tail = "" := by
  have hnone : fromSlice tail = none := by
    by_contra hsome
    exact hjson tail hsome (loads_part h hpart hne)
  rw [hashOfLine, hnone]
  split_ifs <;> rfl

section Python

variable [PyRepr F] (wide : Text → Option Text)

/-- The hash that Python finds in a line. -/
def pyHashOfLine (F : Type) [PyFloat F] [PyRepr F] (wide : Text → Option Text) (line : Text) : PyStr :=
  match (loadsDict wide line : Option (Row F)) with
  | some row => chainHash row
  | none => []

theorem pyHashOfLine_record (h : IsRecord ryu record) :
    pyHashOfLine F wide (lineOfMap ryu record) = pyStr (hashOf record) := by
  obtain ⟨hash, hhash⟩ := h.hashed
  have hvalue : hashOf record = hash := by
    rw [hashOf, Json.strAt?, Json.get?_obj, hhash]
    rfl
  have hload : (loadsDict wide (lineOfMap ryu record) : Option (Row F)) = some (rowOfMap F record) := by
    rw [loadsDict, loadsBytes_brace wide h.printable (lineOfMap_braces h).1,
      loads_lineOfMap h.floatFree h.isValue.1]
  simp only [pyHashOfLine, hload]
  rw [chainHash_rowOfMap hhash, hvalue]

theorem pyHashOfLine_part (h : IsRecord ryu record) (hpart : tail <+: lineOfMap ryu record)
    (hne : tail ≠ lineOfMap ryu record) : pyHashOfLine F wide tail = [] := by
  have hload : (loadsBytes wide tail : Option (PyJson F)) = none := by
    cases tail with
    | nil => rfl
    | cons c tail =>
      have hhead := (lineOfMap_braces h).1
      have hprint := h.printable
      obtain ⟨more, hmore⟩ := id hpart
      rw [← hmore] at hhead hprint
      rw [loadsBytes_brace wide (fun d hd => hprint d (List.mem_append_left _ hd)) hhead,
        loads_part h hpart hne]
  simp only [pyHashOfLine, loadsDict, hload]

theorem pyHashOfLine_nil : pyHashOfLine F wide [] = [] := by
  have hload : (loadsDict wide [] : Option (Row F)) = none := rfl
  rw [pyHashOfLine, hload]

theorem readLastChainHash_file {maxBytes : Option ℕ+} {dir : Dir}
    (hfile : lastFile maxBytes dir = some file) :
    readLastChainHash F wide maxBytes dir =
      pyHashOfLine F wide (lineTail nl (dropNewline file)) := by
  rw [← lineTail_window, readLastChainHash, hfile]
  rfl

/-- A logger on a file, or without a file to go on with after an empty one. -/
theorem readLastChainHash_eq {maxBytes : Option ℕ+} {dir : Dir} (hactive : dir.active = some file)
    (hempty : file = [] → maxBytes = none ∨ dir.segment 1 = none) :
    readLastChainHash F wide maxBytes dir =
      pyHashOfLine F wide (lineTail nl (dropNewline file)) := by
  cases file with
  | nil =>
    have hnone : lastFile maxBytes dir = none := by
      rw [lastFile, hactive]
      rcases hempty rfl with rfl | hsegment
      · rfl
      · simp only [hsegment]
        split_ifs <;> rfl
    have hline : lineTail nl (dropNewline []) = [] := rfl
    rw [hline, pyHashOfLine_nil, readLastChainHash, hnone]
  | cons c cs =>
    have hfile : lastFile maxBytes dir = some (c :: cs) := by rw [lastFile, hactive]
    exact readLastChainHash_file wide hfile

end Python

/-- What is behind the complete records: nothing, or a part of a line. -/
theorem tail_cases {next : Map} (hfront : tail <+: recordBytes ryu next)
    (hne : tail ≠ recordBytes ryu next) : tail = [] ∨ tail ≠ [] ∧ tail <+: lineOfMap ryu next := by
  by_cases hnil : tail = []
  · exact .inl hnil
  · refine .inr ⟨hnil, ?_⟩
    rcases List.prefix_concat_iff.mp hfront with rfl | hfront
    · exact absurd rfl hne
    · exact hfront

/-- The last line of a file of records with a tail. -/
theorem lineTail_records (hrecords : ∀ record ∈ records, IsRecord ryu record) :
    lineTail nl (dropNewline (fileOf (records.map (lineOfMap ryu)))) =
      ((records.map (lineOfMap ryu)).getLast?).getD [] := by
  rcases List.eq_nil_or_concat records with rfl | ⟨records, record, rfl⟩
  · rfl
  · have hline := (hrecords record (by simp)).printable.no_newline
    rw [List.concat_eq_append, List.map_append, List.map_singleton, fileOf_append, fileOf_singleton,
      ← List.append_assoc, dropNewline_concat, List.getLast?_concat, Option.getD_some]
    refine lineTail_last ?_ hline
    by_cases hnil : records = []
    · exact .inl (by rw [hnil]; rfl)
    · exact .inr (fileOf_getLast (by simpa using hnil))

theorem lineTail_torn (htail : tail ≠ []) (hline : nl ∉ tail) :
    lineTail nl (dropNewline (fileOf (records.map (lineOfMap ryu)) ++ tail)) = tail := by
  have hlast : (fileOf (records.map (lineOfMap ryu)) ++ tail).getLast? ≠ some nl := by
    rw [List.getLast?_append_of_ne_nil _ htail]
    exact fun h => hline (List.mem_of_getLast? h)
  rw [dropNewline, if_neg hlast]
  refine lineTail_last ?_ hline
  by_cases hnil : records = []
  · exact .inl (by rw [hnil]; rfl)
  · exact .inr (fileOf_getLast (by simpa using hnil))

/-- **The head of a chain file.**  Of the records of any appends, none nested more than 127 deep, and
at most a part of one more behind them, `read_chain_head` answers what the last line of the whole
file says, as `_read_last_chain_hash` does, and whether bytes of the file follow its last newline. -/
theorem read_chain_head_agrees [PyRepr F] (wide : Text → Option Text)
    (hread : ReadsBack ryu fromSlice) (hjson : ParsesJson F fromSlice)
    (hrecords : ∀ record ∈ records, IsRecord ryu record ∧ depth (.obj record) ≤ 127)
    (htail : ∃ next, IsRecord ryu next ∧ depth (.obj next) ≤ 127 ∧ tail <+: recordBytes ryu next ∧
      tail ≠ recordBytes ryu next)
    (hfile : file = fileOf (records.map (lineOfMap ryu)) ++ tail) :
    (readHead fromSlice (some file)).prev = lastLineHash fromSlice file ∧
    (∀ (maxBytes : Option ℕ+) (dir : Dir), dir.active = some file →
      (file = [] → maxBytes = none ∨ dir.segment 1 = none) →
        readLastChainHash F wide maxBytes dir = pyStr (readHead fromSlice (some file)).prev) ∧
    ((readHead fromSlice (some file)).tornTail = true ↔ file ≠ [] ∧ file.getLast? ≠ some nl) := by
  rw [readHead_some]
  refine ⟨rfl, fun maxBytes dir hactive hempty => ?_, by simp [isTorn]⟩
  rw [readLastChainHash_eq wide hactive hempty, lastLineHash]
  obtain ⟨next, hnext, hdepth, hfront, hne⟩ := htail
  rcases tail_cases hfront hne with rfl | ⟨hnil, hpart⟩
  · rw [hfile, List.append_nil, lineTail_records fun record h => (hrecords record h).1]
    cases hlast : records.getLast? with
    | none =>
      rw [List.getLast?_map, hlast]
      rfl
    | some record =>
      obtain ⟨hrecord, hdepth⟩ := hrecords record (List.mem_of_getLast? hlast)
      rw [List.getLast?_map, hlast, Option.map_some, Option.getD_some,
        pyHashOfLine_record wide hrecord, hashOfLine_record hread hrecord hdepth]
  · have hline : nl ∉ tail := fun h => hnext.printable.no_newline (hpart.subset h)
    rw [hfile, lineTail_torn hnil hline]
    by_cases hwhole : tail = lineOfMap ryu next
    · rw [hwhole, pyHashOfLine_record wide hnext, hashOfLine_record hread hnext hdepth]
    · rw [pyHashOfLine_part wide hnext hpart hwhole, hashOfLine_part hjson hnext hpart hwhole]
      rfl

/-! ## 5. A parser with the limit of `serde_json` -/

theorem parsesJson_serdeParse : ParsesJson NaN serdeParse := by
  intro t h hnone
  rw [serdeParse, hnone] at h
  exact h rfl

def sampleRecord : Map := chainedMap sampleRyu "" sampleFields

theorem isRecord_sampleRecord : IsRecord sampleRyu sampleRecord :=
  ⟨"", sampleFields, by decide +kernel, isValue_sampleFields, by decide +kernel, rfl⟩

/-- A record and the first byte of another one. -/
def sampleFile : Text := fileOf [lineOfMap sampleRyu sampleRecord] ++ [chOpenBrace]

theorem read_chain_head_agrees_sample :
    (readHead serdeParse (some sampleFile)).prev = lastLineHash serdeParse sampleFile ∧
    readLastChainHash NaN (fun _ => none) none ⟨"audit.jsonl", some sampleFile, fun _ => none⟩ =
      pyStr (readHead serdeParse (some sampleFile)).prev ∧
    (readHead serdeParse (some sampleFile)).tornTail = true := by
  have hdepth : depth (.obj sampleRecord) ≤ 127 := by decide +kernel
  obtain ⟨rest, hrest⟩ : ∃ rest, lineOfMap sampleRyu sampleRecord = chOpenBrace :: rest := by
    have hhead := (lineOfMap_braces isRecord_sampleRecord).1
    cases hline : lineOfMap sampleRyu sampleRecord with
    | nil =>
      rw [hline] at hhead
      cases hhead
    | cons c rest =>
      rw [hline] at hhead
      cases hhead
      exact ⟨rest, rfl⟩
  have hpart : [chOpenBrace] <+: recordBytes sampleRyu sampleRecord :=
    ⟨rest ++ [nl], by rw [recordBytes, hrest]; rfl⟩
  have hne : [chOpenBrace] ≠ recordBytes sampleRyu sampleRecord := by
    intro h
    have hlast := congrArg List.getLast? h
    rw [recordBytes, List.getLast?_concat] at hlast
    cases hlast
  have hrecords : ∀ record ∈ [sampleRecord],
      IsRecord sampleRyu record ∧ depth (.obj record) ≤ 127 := by
    simpa using ⟨isRecord_sampleRecord, hdepth⟩
  have hfile : sampleFile = fileOf ([sampleRecord].map (lineOfMap sampleRyu)) ++ [chOpenBrace] := rfl
  obtain ⟨hprev, hpython, htorn⟩ := read_chain_head_agrees (F := NaN) (fun _ => none)
    (readsBack_serdeParse sampleRyu) parsesJson_serdeParse hrecords
    ⟨sampleRecord, isRecord_sampleRecord, hdepth, hpart, hne⟩ hfile
  refine ⟨hprev, hpython none _ rfl fun _ => .inl rfl, htorn.mpr ?_⟩
  have hlast : sampleFile.getLast? = some chOpenBrace := List.getLast?_concat
  refine ⟨fun h => ?_, by rw [hlast]; decide⟩
  rw [h] at hlast
  cases hlast

/-- A file of one record that `serde_json` does not read. -/
def deepRecordFile : Text := recordBytes sampleRyu (chainedMap sampleRyu "" sampleDeep)

/-- **Beyond the parser's depth the two readers differ.** -/
theorem deep_record_heads_differ :
    (readHead serdeParse (some deepRecordFile)).prev = "" ∧
      readLastChainHash NaN (fun _ => none) none
        ⟨"audit.jsonl", some deepRecordFile, fun _ => none⟩ ≠ [] := by
  have hrecord : IsRecord sampleRyu (chainedMap sampleRyu "" sampleDeep) :=
    ⟨"", sampleDeep, by decide +kernel, isValue_sampleDeep, by decide +kernel, rfl⟩
  have hfile : deepRecordFile =
      fileOf ([chainedMap sampleRyu "" sampleDeep].map (lineOfMap sampleRyu)) := by
    rw [List.map_singleton, fileOf_singleton]
    rfl
  have hlast : lineTail nl (dropNewline deepRecordFile) =
      lineOfMap sampleRyu (chainedMap sampleRyu "" sampleDeep) := by
    rw [hfile, lineTail_records (by simpa using hrecord)]
    rfl
  constructor
  · rw [readHead_some, lastLineHash, hlast, hashOfLine, serdeParse_sampleDeep]
    split_ifs <;> rfl
  · have hhash : hashOf (chainedMap sampleRyu "" sampleDeep) = sha256String (canonicalText sampleRyu
        (.obj (mapInsert "chain_prev" (.str "") sampleDeep))) := by
      rw [hashOf, Json.strAt?, Json.get?_obj, chainedMap, lookup_mapInsert, if_pos rfl]
      rfl
    rw [readLastChainHash_eq _ rfl fun _ => .inl rfl, hlast, pyHashOfLine_record _ hrecord, hhash,
      pyStr_sha256String]
    exact (hexDigest_hexdigest _).1

end AzazelEdge.Audit
