/-
# What the logger writes it can verify

`verify_chain` reads back a file that `log` wrote line by line.  It passes when each row links to
the one before and has the hash of its own text, and a call leaves such a row when its payload does
not name `chain_hash`, names no other `chain_prev` than the logger's, and every dict of the record
keeps its order when it is read back (`Faithful`).

A payload is merged over the logger's own fields, and nothing stops it from naming `chain_prev`:
`verify_chain_of_log` is therefore false without the condition (`payload_replaces_chain_prev`).
-/
import AzazelEdge.Audit.Logger
import AzazelEdge.Lib.Sha256

namespace AzazelEdge.Audit

open AzazelEdge.Lib AzazelEdge.Lib.Py HashChain

variable {F : Type} [PyFloat F] {sha : Text → PyStr} {record record' : Record F} {call : Call F}
  {prev : PyStr} {chainId : Option PyStr} {lines : List Text}

/-! ## 1. A file of lines -/

/-- The lines of a file, each ended. -/
def fileOf (lines : List Text) : Text := lines.flatMap (· ++ [nl])

@[simp] theorem fileOf_nil : fileOf [] = [] := rfl

@[simp] theorem fileOf_append (lines lines' : List Text) :
    fileOf (lines ++ lines') = fileOf lines ++ fileOf lines' := List.flatMap_append

@[simp] theorem fileOf_singleton (line : Text) : fileOf [line] = line ++ [nl] := by simp [fileOf]

theorem completeLines_fileOf (h : ∀ line ∈ lines, nl ∉ line) :
    completeLines nl (fileOf lines) = lines := by
  induction lines with
  | nil => rfl
  | cons line lines ih =>
    rw [fileOf, List.flatMap_cons, ← fileOf, completeLines, List.append_assoc, List.cons_append,
      List.nil_append, cutLines_line (h line List.mem_cons_self),
      ih fun l hl => h l (List.mem_cons_of_mem _ hl)]

/-- A file of lines is empty or ends in a newline. -/
theorem fileOf_getLast (h : lines ≠ []) : (fileOf lines).getLast? = some nl := by
  rcases List.eq_nil_or_concat lines with rfl | ⟨lines, line, rfl⟩
  · exact absurd rfl h
  · rw [List.concat_eq_append, fileOf_append, fileOf_singleton, ← List.append_assoc,
      List.getLast?_concat]

/-! ## 2. Rows that verify -/

section Rows

variable [PyRepr F] {rows : List (Row F)}

/-- Rows that link from `start` on, each with the hash of its own text. -/
structure Chain (sha : Text → PyStr) (start : PyStr) (rows : List (Row F)) : Prop where
  linked : Linked chainPrev chainHash start rows
  sound : ∀ row ∈ rows, chainHash row = bodyHash sha row

theorem Chain.nil (sha : Text → PyStr) (start : PyStr) : Chain (F := F) sha start [] :=
  ⟨trivial, fun _ h => by cases h⟩

/-- **A row that names the last hash and has its own extends the chain.** -/
theorem Chain.concat {start : PyStr} {row : Row F} (h : Chain sha start rows)
    (hprev : chainPrev row = endHash chainHash start rows) (hhash : chainHash row = bodyHash sha row) :
    Chain sha start (rows ++ [row]) := by
  refine ⟨h.linked.concat hprev, fun r hr => ?_⟩
  rcases List.mem_append.mp hr with hr | hr
  · exact h.sound r hr
  · rw [List.mem_singleton] at hr
    exact hr ▸ hhash

/-- **A chain passes `_verify_lines`.** -/
theorem verifyLines_chain (done : ℕ)
    (hload : List.Forall₂ (fun line row => loads line = some (PyJson.obj row)) lines rows)
    (hchain : Chain sha prev rows) :
    verifyLines F sha done lines prev = some ⟨true, done + lines.length, ""⟩ := by
  induction hload generalizing done prev with
  | nil => rfl
  | @cons line row lines rows hline hload ih =>
    obtain ⟨⟨hprev, hlinked⟩, hsound⟩ := hchain
    rw [verifyLines, hline]
    simp only [hprev, ne_eq, not_true, if_false, hsound row List.mem_cons_self]
    rw [← hsound row List.mem_cons_self,
      ih (done + 1) ⟨hlinked, fun r hr => hsound r (List.mem_cons_of_mem _ hr)⟩, List.length_cons]
    have : done + 1 + lines.length = done + (lines.length + 1) := by omega
    rw [this]

/-- A file of printable lines is verified line by line. -/
theorem verifyChain_lines (hprintable : ∀ line ∈ lines, Printable line) :
    verifyChain F sha (some (fileOf lines)) = verifyLines F sha 0 lines [] := by
  have hascii : ∀ c ∈ fileOf lines, c < 0x80 := by
    intro c hc
    obtain ⟨line, hline, hc⟩ := List.mem_flatMap.mp hc
    rcases List.mem_append.mp hc with hc | hc
    · have := hprintable line hline c hc
      omega
    · rw [List.mem_singleton] at hc
      rw [hc]
      decide
  rw [verifyChain, decodeUtf8_ascii false hascii, Option.bind_some, fileOf,
    splitLines_join hprintable]

theorem verifyChain_fileOf (hprintable : ∀ line ∈ lines, Printable line)
    (hload : List.Forall₂ (fun line row => loads line = some (PyJson.obj row)) lines rows)
    (hchain : Chain sha [] rows) :
    verifyChain F sha (some (fileOf lines)) = some ⟨true, lines.length, ""⟩ := by
  rw [verifyChain_lines hprintable, verifyLines_chain 0 hload hchain, Nat.zero_add]

end Rows

/-! ## 3. The row a call leaves -/

/-- A digest is a text of hexadecimal digits. -/
def HexDigest (sha : Text → PyStr) : Prop :=
  ∀ t, sha t ≠ [] ∧ ∀ c ∈ sha t, (48 ≤ c.val ∧ c.val ≤ 57) ∨ (97 ≤ c.val ∧ c.val ≤ 102)

theorem HexDigest.plain (h : HexDigest sha) (t : Text) : Plain (sha t) := fun c hc => by
  have := (h t).2 c hc
  omega

/-- The payload leaves the chain's fields alone, and the record keeps its order. -/
structure Faithful (call : Call F) (prev : PyStr) (chainId : Option PyStr) : Prop where
  hash_free : kChainHash ∉ call.payload.map Prod.fst
  prev_own : ∀ value, getKey kChainPrev call.payload = some value → value = .str prev
  stable : Stable (strDict (call.record prev chainId))

/-- Two different plain strings compare as their texts do. -/
theorem sameOrder_plain {a b : PyStr} (ha : Plain a) (hb : Plain b) (hne : a ≠ b) :
    SameOrder (.str a : PyKey F) (.str b) := by
  have hname : ∀ {s : PyStr}, Plain s → keyName (.str s : PyKey F) = s := fun h =>
    joinPairs_plain h
  rw [SameOrder, hname ha, hname hb, KeyLt, KeyLt, rawLt, rawLt]
  cases hab : keyLe a b with
  | false => exact .inr ⟨rfl, rfl, by rw [(keyLe_total a b).resolve_left (by simp [hab])]; rfl⟩
  | true =>
    have hba : keyLe b a = false := by
      cases hba : keyLe b a with
      | false => rfl
      | true => exact absurd (keyLe_antisymm hab hba) hne
    exact .inl ⟨hba, by rw [hba]; rfl, rfl⟩

/-- Neither a list nor a dict. -/
def isScalar : PyValue F → Bool
  | .list _ => false
  | .dict _ => false
  | _ => true

theorem stable_scalar {v : PyValue F} (h : isScalar v = true) : Stable v := by
  cases v <;> first | exact trivial | cases h

/-- A record with plain keys keeps its order when its values do. -/
theorem stable_plain (hnodup : (record.map Prod.fst).Nodup) (hplain : ∀ k ∈ record.map Prod.fst, Plain k)
    (hvalues : ∀ item ∈ record, Stable item.2) : Stable (strDict record) := by
  have hitems : ∀ d : Record F, (∀ item ∈ d, Stable item.2) →
      StableItems (d.map fun item => (PyKey.str item.1, item.2)) := by
    intro d
    induction d with
    | nil => exact fun _ => trivial
    | cons item d ih =>
      exact fun h => ⟨h item List.mem_cons_self, ih fun i hi => h i (List.mem_cons_of_mem _ hi)⟩
  refine ⟨?_, hitems record hvalues⟩
  rw [List.map_map]
  have hkeys := List.pairwise_map.mp hnodup
  refine List.pairwise_map.mpr (hkeys.imp_of_mem fun {a b} ha hb hne => ?_)
  exact sameOrder_plain (hplain _ (List.mem_map_of_mem ha)) (hplain _ (List.mem_map_of_mem hb)) hne

theorem hexDigest_hexdigest : HexDigest Sha256.hexdigest := by
  intro t
  obtain ⟨hlength, hdigits⟩ := Sha256.hexDigest_sha256Hex t
  refine ⟨fun h => ?_, fun c hc => ?_⟩
  · rw [Sha256.hexdigest, List.map_eq_nil_iff] at h
    rw [h] at hlength
    cases hlength
  · obtain ⟨d, hd, rfl⟩ := List.mem_map.mp hc
    have := hdigits d hd
    rw [Fin.val_ofNat, Nat.mod_eq_of_lt (by omega)]
    exact this

theorem keys_distinct : kChainHash ≠ kChainId ∧ kChainPrev ≠ kChainId ∧ kKind ≠ kChainId ∧
    kTraceId ≠ kChainId ∧ kSource ≠ kChainId ∧ kTs ≠ kChainId := by simp

omit [PyFloat F] in
theorem getKey_fields_chainHash (call : Call F) (prev : PyStr) :
    getKey kChainHash (call.fields prev) = none :=
  getKey_eq_none.mpr (by
    have h : kChainHash ∉ [kTs, kKind, kTraceId, kSource, kChainPrev] := by simp
    exact h)

omit [PyFloat F] in
theorem getKey_fields_chainPrev (call : Call F) (prev : PyStr) :
    getKey kChainPrev (call.fields prev) = some (.str prev) := by
  have h : kTs ≠ kChainPrev ∧ kKind ≠ kChainPrev ∧ kTraceId ≠ kChainPrev ∧ kSource ≠ kChainPrev := by
    simp
  rw [Call.fields, getKey, if_neg h.1, getKey, if_neg h.2.1, getKey, if_neg h.2.2.1, getKey,
    if_neg h.2.2.2, getKey, if_pos rfl]

omit [PyFloat F] in
theorem chainHash_not_mem (h : kChainHash ∉ call.payload.map Prod.fst) :
    kChainHash ∉ (call.record prev chainId).map Prod.fst := by
  refine getKey_eq_none.mp ?_
  rw [getKey_record, if_neg keys_distinct.1, getKey_eq_none.mpr h, getKey_fields_chainHash]
  rfl

omit [PyFloat F] in
/-- The `chain_prev` of the record is the logger's unless the payload names another. -/
theorem getKey_record_chainPrev
    (h : ∀ value, getKey kChainPrev call.payload = some value → value = .str prev) :
    getKey kChainPrev (call.record prev chainId) = some (.str prev) := by
  rw [getKey_record, if_neg keys_distinct.2.1, getKey_fields_chainPrev]
  cases hget : getKey kChainPrev call.payload with
  | none => rfl
  | some value => rw [h value hget]; rfl

theorem chainHash_ne_keys : kChainHash ≠ kChainPrev ∧ kChainHash ≠ kKind ∧ kChainHash ≠ kTraceId ∧
    kChainHash ≠ kSource ∧ kChainHash ≠ kChainId := by simp

theorem getKey_chained {key : PyStr} (h : chained sha record = some record')
    (hkey : kChainHash ≠ key) : getKey key record' = getKey key record := by
  obtain ⟨-, rfl⟩ := chained_eq h
  rw [getKey_setKey, if_neg hkey]

theorem chained_nodup (hrecord : (record.map Prod.fst).Nodup)
    (h : chained sha record = some record') : (record'.map Prod.fst).Nodup := by
  obtain ⟨-, rfl⟩ := chained_eq h
  exact setKey_keys_nodup hrecord

section Row

variable [PyRepr F] (hsha : HexDigest sha)
include hsha

/-- The row has the hash that was computed. -/
theorem chainHash_rowOf (hrecord : (record.map Prod.fst).Nodup)
    (h : chained sha record = some record') :
    chainHash (rowOf record') = computeChainHash sha record := by
  rw [chainHash, strAt, getKey_chainHash hrecord h, strOr_str, computeChainHash,
    joinPairs_plain (hsha.plain _)]

theorem valueStrOr_chainHash (reprOf : PyValue F → PyStr) (hrecord : (record.map Prod.fst).Nodup)
    (h : chained sha record = some record') :
    valueStrOr reprOf (getKey kChainHash record') = chainHash (rowOf record') := by
  rw [chainHash_rowOf hsha hrecord h]
  obtain ⟨-, rfl⟩ := chained_eq h
  rw [getKey_setKey, if_pos rfl]
  rfl

omit hsha in
/-- The row names the logger's last hash. -/
theorem chainPrev_rowOf (hprev : Plain prev)
    (hown : ∀ value, getKey kChainPrev call.payload = some value → value = .str prev)
    (h : chained sha (call.record prev chainId) = some record') :
    chainPrev (rowOf record') = prev := by
  have hnodup := record_nodup call prev chainId
  rw [chainPrev, strAt, getKey_rowOf (chained_nodup hnodup h) plain_chainPrev,
    getKey_chained h chainHash_ne_keys.1, getKey_record_chainPrev hown, Option.map_some, written,
    settled, strOr_str, joinPairs_plain hprev]

/-- **A faithful call leaves a row that verifies.** -/
theorem sound_rowOf (hfaithful : Faithful call prev chainId)
    (h : chained sha (call.record prev chainId) = some record') :
    chainHash (rowOf record') = bodyHash sha (rowOf record') := by
  rw [chainHash_rowOf hsha (record_nodup call prev chainId) h,
    rowHash_chained h (chainHash_not_mem hfaithful.hash_free) hfaithful.stable]

end Row

/-! ## 4. Every sequence of calls -/

section Run

variable [PyRepr F] (reprOf : PyValue F → PyStr) (sha) (wide : Text → Option Text)

/-- A call that returns, and appends to the file it finds. -/
structure Returns (s : Host) (call : Call F) (a : Answers) (record : Record F) : Prop where
  returned : ∃ durability, (log reprOf sha s.logger s.dir call a).2.2 = .returned record durability
  room : full s.logger s.dir = false
  faithful : Faithful call s.logger.lastChainHash (newFileId s.logger s.dir)

/-- A step of a run of such calls; the label is the call, the answers it gets and the record it
returns. -/
def returning (s : Host) (l : Call F × Answers × Record F) (t : Host) : Prop :=
  Returns sha reprOf s l.1 l.2.1 l.2.2 ∧ t = step reprOf sha wide s (.log l.1 l.2.1)

/-- The fields the logger computed. -/
structure Computed (call : Call F) (prev : PyStr) (record : Record F) : Prop where
  kind : getKey kKind record = some (.str call.kind)
  traceId : getKey kTraceId record = some (.str call.traceId)
  source : getKey kSource record = some (.str call.source)
  chainPrev : getKey kChainPrev record = some (.str prev)

/-- The calls of a run against their records, from a last hash on. -/
def AllComputed : PyStr → List (Call F × Answers × Record F) → Prop
  | _, [] => True
  | prev, l :: ls => Computed l.1 prev l.2.2 ∧ AllComputed (chainHash (rowOf l.2.2)) ls

variable {sha reprOf wide}

omit [PyRepr F] in
theorem getKey_own {key : PyStr} (hkey : key ∈ parameters) (hid : key ≠ kChainId)
    (hhash : kChainHash ≠ key) (h : chained sha (call.record prev chainId) = some record') :
    getKey key record' = getKey key (call.fields prev) := by
  rw [getKey_chained h hhash, getKey_record, if_neg hid, getKey_payload_parameter call hkey]
  rfl

omit [PyRepr F] in
theorem computed_record (hfaithful : Faithful call prev chainId)
    (h : chained sha (call.record prev chainId) = some record') : Computed call prev record' := by
  have hmem : kKind ∈ parameters ∧ kTraceId ∈ parameters ∧ kSource ∈ parameters := by
    decide +kernel
  have hne : kTs ≠ kKind ∧ kTs ≠ kTraceId ∧ kKind ≠ kTraceId ∧ kTs ≠ kSource ∧ kKind ≠ kSource ∧
      kTraceId ≠ kSource := by simp
  have hid := keys_distinct
  have hhash := chainHash_ne_keys
  refine ⟨?_, ?_, ?_, ?_⟩
  · rw [getKey_own hmem.1 hid.2.2.1 hhash.2.1 h, Call.fields, getKey, if_neg hne.1, getKey,
      if_pos rfl]
  · rw [getKey_own hmem.2.1 hid.2.2.2.1 hhash.2.2.1 h, Call.fields, getKey, if_neg hne.2.1, getKey,
      if_neg hne.2.2.1, getKey, if_pos rfl]
  · rw [getKey_own hmem.2.2 hid.2.2.2.2.1 hhash.2.2.2.1 h, Call.fields, getKey, if_neg hne.2.2.2.1,
      getKey, if_neg hne.2.2.2.2.1, getKey, if_neg hne.2.2.2.2.2, getKey, if_pos rfl]
  · rw [getKey_chained h hhash.1, getKey_record_chainPrev hfaithful.prev_own]

theorem allComputed_append {prev : PyStr} {ls : List (Call F × Answers × Record F)}
    {l : Call F × Answers × Record F} (h : AllComputed prev ls)
    (hl : Computed l.1 (endHash chainHash prev (ls.map fun l => rowOf l.2.2)) l.2.2) :
    AllComputed prev (ls ++ [l]) := by
  induction ls generalizing prev with
  | nil => exact ⟨hl, trivial⟩
  | cons l' ls ih => exact ⟨h.1, ih h.2 hl⟩

/-- The rows of the calls so far. -/
abbrev rowsOf (ls : List (Call F × Answers × Record F)) : List (Row F) :=
  ls.map fun l => rowOf l.2.2

/-- What holds after some calls: the file has their lines, the rows are a chain, and the logger
knows its end. -/
structure Logged (sha : Text → PyStr) (ls : List (Call F × Answers × Record F)) (s : Host) :
    Prop where
  file : s.dir.active = if ls = [] then none else some (fileOf (ls.map fun l => lineOf l.2.2))
  chain : Chain sha [] (rowsOf ls)
  last : s.logger.lastChainHash = endHash chainHash [] (rowsOf ls)
  plain : Plain s.logger.lastChainHash
  computed : AllComputed [] ls

theorem logged_step (hsha : HexDigest sha) {ls : List (Call F × Answers × Record F)} {s t : Host}
    {l : Call F × Answers × Record F} (h : Logged sha ls s)
    (hstep : returning sha reprOf wide s l t) : Logged sha (ls ++ [l]) t := by
  obtain ⟨call, a, record⟩ := l
  obtain ⟨⟨⟨durability, houtcome⟩, hroom, hfaithful⟩, rfl⟩ := hstep
  have happended : Appended reprOf sha s.logger s.dir call a record :=
    log_appended (by rw [houtcome]; rfl)
  have hsame : makeRoom s.logger a s.dir = s.dir := by
    rw [makeRoom, if_neg (by rw [hroom]; decide)]
  have hnext := happended.record_eq
  rw [hsame, nextRecord] at hnext
  have hdir := happended.dir_eq
  rw [hsame] at hdir
  have hlogger := happended.logger_eq
  have hnodup := record_nodup call s.logger.lastChainHash (newFileId s.logger s.dir)
  have hprev := chainPrev_rowOf h.plain hfaithful.prev_own hnext
  have hhash := valueStrOr_chainHash hsha reprOf hnodup hnext
  refine ⟨?_, ?_, ?_, ?_, ?_⟩
  · -- the line goes to the end of the file
    simp only [step]
    rw [hdir, if_neg (by simp), List.map_append, fileOf_append, List.map_singleton,
      fileOf_singleton]
    simp only [appendBytes]
    rw [h.file]
    split_ifs with hls
    · subst hls
      rfl
    · rfl
  · rw [rowsOf, List.map_append, List.map_singleton]
    exact h.chain.concat (hprev.trans h.last) (sound_rowOf hsha hfaithful hnext)
  · simp only [step]
    rw [hlogger, rowsOf, List.map_append, List.map_singleton, endHash_concat]
    exact hhash
  · simp only [step]
    rw [hlogger]
    simp only [afterAppend]
    rw [hhash, chainHash_rowOf hsha hnodup hnext]
    exact hsha.plain _
  · refine allComputed_append h.computed ?_
    have := computed_record hfaithful hnext
    rwa [h.last] at this

/-- **What the logger writes it can verify.**  On a new file, after any calls that return, whose
payloads leave the chain's fields alone and whose records keep their order when they are read back,
`verify_chain` answers ok with one entry for each call, and each record has the kind, trace id,
source and `chain_prev` of its own call. -/
theorem verify_chain_of_log (hsha : HexDigest sha) (name : String) (maxBytes : Option ℕ+)
    {ls : List (Call F × Answers × Record F)} {s : Host}
    (hrun : Run (returning sha reprOf wide) (start (F := F) wide maxBytes (fresh name)) ls s) :
    verifyChain F sha s.dir.active = some ⟨true, ls.length, ""⟩ ∧ AllComputed [] ls := by
  have hstart : Logged (F := F) sha [] (start (F := F) wide maxBytes (fresh name)) := by
    have hlast : readLastChainHash F wide maxBytes (fresh name) = [] := by
      simp [readLastChainHash, lastFile, fresh]
    have hplain : Plain (start (F := F) wide maxBytes (fresh name)).logger.lastChainHash := by
      intro c hc
      simp only [start, openLogger, hlast, List.not_mem_nil] at hc
    exact ⟨rfl, Chain.nil _ _, hlast, hplain, trivial⟩
  have h := hrun.history (P := Logged sha) (fun ls s l t hs hstep => logged_step hsha hs hstep)
    hstart
  refine ⟨?_, h.computed⟩
  rw [h.file]
  split_ifs with hls
  · subst hls
    rfl
  · rw [verifyChain_fileOf]
    · rw [List.length_map]
    · intro line hline
      obtain ⟨l, -, rfl⟩ := List.mem_map.mp hline
      exact printable_lineOf _
    · rw [List.forall₂_map_left_iff, List.forall₂_map_right_iff]
      exact List.forall₂_same.mpr fun l _ => loads_lineOf _
    · exact h.chain

end Run


/-- An evaluation with a score. -/
def sampleCall : Call NaN :=
  { kind := pyStr "evaluation", traceId := pyStr "trace-1", source := pyStr "arbiter"
    payload := [(pyStr "score", .int 7)], ts := pyStr "2026-01-02T03:04:05.678+00:00"
    payload_nodup := by simp
    payload_free := by decide +kernel }

/-- One whose payload names `chain_prev`. -/
def samplePrevCall : Call NaN :=
  { sampleCall with
    payload := [(kChainPrev, .str (pyStr "x"))]
    payload_nodup := by simp
    payload_free := by decide +kernel }

def allDone : Answers := ⟨true, true, .done, .synced⟩

def sampleRepr : PyValue NaN → PyStr := fun _ => pyStr "[]"

def sampleWide : Text → Option Text := fun _ => none

/-- A new file, before its first record. -/
def sampleStart : Host := start (F := NaN) sampleWide none (fresh "audit.jsonl")

theorem faithful_sampleCall : Faithful sampleCall [] none := by
  refine ⟨by decide +kernel, fun value hvalue => ?_, stable_plain (record_nodup _ _ _) ?_ ?_⟩
  · have hnone : getKey kChainPrev sampleCall.payload = none :=
      getKey_eq_none.mpr (by decide +kernel)
    rw [hnone] at hvalue
    cases hvalue
  · have hkeys : ((sampleCall.record [] none).map Prod.fst).all (fun k => decide (Plain k)) = true := by
      decide +kernel
    simpa using hkeys
  · have hscalar : (sampleCall.record [] none).all (fun item => isScalar item.2) = true := by
      decide +kernel
    exact fun item hitem => stable_scalar (List.all_eq_true.mp hscalar item hitem)

theorem verify_chain_of_log_sample : ∃ record,
    verifyChain NaN Sha256.hexdigest
        (step sampleRepr Sha256.hexdigest sampleWide sampleStart (.log sampleCall allDone)).dir.active =
      some ⟨true, 1, ""⟩ ∧ AllComputed [] [(sampleCall, allDone, record)] := by
  have hstart : sampleStart = ⟨⟨none, [], []⟩, fresh "audit.jsonl"⟩ := by
    simp [sampleStart, start, openLogger, readLastChainHash, lastFile, fresh]
  have hroom : full sampleStart.logger sampleStart.dir = false := by
    rw [hstart]
    rfl
  have hid : newFileId sampleStart.logger sampleStart.dir = none := by
    rw [hstart]
    rfl
  have hlast : sampleStart.logger.lastChainHash = [] := by rw [hstart]
  have hsort : (chained Sha256.hexdigest (sampleCall.record [] none)).isSome = true := by
    unfold chained
    rw [if_pos (by decide +kernel)]
    rfl
  obtain ⟨record, hrecord⟩ := Option.isSome_iff_exists.mp hsort
  have houtcome : (log sampleRepr Sha256.hexdigest sampleStart.logger sampleStart.dir sampleCall
      allDone).2.2 = .returned record .notRequired := by
    have hkind : sampleCall.kind ∈ validKinds := by decide +kernel
    have hdurable : sampleCall.kind ∉ durableKinds := by decide +kernel
    have hmake : makeRoom sampleStart.logger allDone sampleStart.dir = sampleStart.dir := by
      rw [makeRoom, if_neg (by rw [hroom]; decide)]
    have hnext : nextRecord Sha256.hexdigest sampleStart.logger
        (makeRoom sampleStart.logger allDone sampleStart.dir) sampleCall = some record := by
      rw [nextRecord, hmake, hid, hlast, hrecord]
    rw [log_done hkind hnext rfl, durability, if_neg hdurable]
  have hrun : Run (returning Sha256.hexdigest sampleRepr sampleWide) sampleStart
      [(sampleCall, allDone, record)]
      (step sampleRepr Sha256.hexdigest sampleWide sampleStart (.log sampleCall allDone)) :=
    Run.single ⟨⟨⟨_, houtcome⟩, hroom, by rw [hid, hlast]; exact faithful_sampleCall⟩, rfl⟩
  exact ⟨record, verify_chain_of_log hexDigest_hexdigest "audit.jsonl" none hrun⟩

/-- **A payload replaces `chain_prev`.**  The call returns, and `verify_chain` stops at its record. -/
theorem payload_replaces_chain_prev :
    (log sampleRepr Sha256.hexdigest sampleStart.logger sampleStart.dir samplePrevCall
      allDone).2.2.isReturned = true ∧
    verifyChain NaN Sha256.hexdigest
        (step sampleRepr Sha256.hexdigest sampleWide sampleStart
          (.log samplePrevCall allDone)).dir.active =
      some ⟨false, 0, "chain_prev_mismatch_at:1"⟩ := by
  decide +kernel

end AzazelEdge.Audit
