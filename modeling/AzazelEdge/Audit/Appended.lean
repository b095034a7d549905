/-
# What the Rust core appends verifies in Python

A run of `append` on one file.  Each append finds the hash that the one before wrote, as long as the
parser reads the last record back (`ReadsBack`); the rows are then a chain, and every row has the hash
of its own text, because Python's text of the row without `chain_hash` is the text that was hashed.

`serde_json` refuses to read what is nested 128 deep.  A record beyond its limit is written all the
same, and the append after it starts the chain again (`deep_record_restarts_chain`).
-/
import AzazelEdge.Audit.RustChain
import AzazelEdge.Lib.Run

namespace AzazelEdge.Audit

open AzazelEdge.Lib AzazelEdge.Lib.Py HashChain

variable {F : Type} [PyFloat F] {ryu : ℚ → Text} {fromSlice : Text → Option Json}
  {key : String} {value : Json} {members fields : Map}

/-! ## 1. Inserting -/

theorem mapInsert_keys {k : String} (h : k ∈ (mapInsert key value members).map Prod.fst) :
    k = key ∨ k ∈ members.map Prod.fst := by
  induction members with
  | nil => simpa [mapInsert] using h
  | cons member members ih =>
    obtain ⟨k', v'⟩ := member
    rw [mapInsert] at h
    split_ifs at h with heq hle
    · rw [List.map_cons, List.mem_cons] at h ⊢
      exact h.imp id .inr
    · rw [List.map_cons, List.mem_cons] at h
      rcases h with h | h
      · exact .inr (by rw [h]; simp)
      · exact (ih h).imp id fun h => by rw [List.map_cons]; exact List.mem_cons_of_mem _ h
    · rw [List.map_cons, List.mem_cons] at h
      exact h

theorem keyLt_of_not_le {a b : PyStr} (h : ¬ keyLe b a = true) : KeyLt a b := by
  simpa [KeyLt] using h

theorem keyLt_trans {a b c : PyStr} (hab : KeyLt a b) (hbc : KeyLt b c) : KeyLt a c := by
  by_contra h
  have hca : keyLe c a = true := by simpa [KeyLt] using h
  rw [KeyLt, keyLe_trans hca hab.le] at hbc
  cases hbc

theorem lookup_cons_ite {k k' : String} {v : Json} :
    List.lookup k ((k', v) :: members) = if k = k' then some v else members.lookup k := by
  rw [List.lookup_cons]
  by_cases hk : k = k'
  · rw [if_pos hk, beq_iff_eq.mpr hk]
  · rw [if_neg hk, beq_eq_false_iff_ne.mpr hk]

theorem keysSorted_mapInsert (h : KeysSorted members) : KeysSorted (mapInsert key value members) := by
  induction members with
  | nil => exact List.pairwise_singleton _ _
  | cons member members ih =>
    obtain ⟨k, v⟩ := member
    obtain ⟨hfirst, hrest⟩ := List.pairwise_cons.mp h
    rw [mapInsert]
    split_ifs with heq hle
    · subst heq
      exact h
    · -- the new key goes somewhere behind the first
      have hlt : KeyLt (pyStr k) (pyStr key) := by
        by_contra hnot
        have hge : keyLe (pyStr key) (pyStr k) = true := by simpa [KeyLt] using hnot
        exact heq (pyStr_inj (keyLe_antisymm hle hge))
      refine List.pairwise_cons.mpr ⟨fun k' hk' => ?_, ih hrest⟩
      rcases mapInsert_keys hk' with rfl | hk'
      · exact hlt
      · exact hfirst k' hk'
    · have hlt := keyLt_of_not_le hle
      refine List.pairwise_cons.mpr ⟨fun k' hk' => ?_, h⟩
      rw [List.map_cons, List.mem_cons] at hk'
      rcases hk' with rfl | hk'
      · exact hlt
      · exact keyLt_trans hlt (hfirst k' hk')

theorem lookup_mapInsert (k : String) :
    (mapInsert key value members).lookup k =
      if k = key then some value else members.lookup k := by
  induction members with
  | nil => rw [mapInsert, lookup_cons_ite]
  | cons member members ih =>
    obtain ⟨k', v'⟩ := member
    rw [mapInsert]
    split_ifs with heq hle hk hk hk
    all_goals
      simp only [lookup_cons_ite, ih]
      split_ifs <;> first | rfl | omega | grind

/-- Taking the new member away again. -/
theorem filter_mapInsert (h : members.lookup key = none) :
    (mapInsert key value members).filter (fun member => member.1 ≠ key) = members := by
  have hmembers : ∀ members : Map, members.lookup key = none →
      members.filter (fun member => member.1 ≠ key) = members := by
    intro members hnone
    refine List.filter_eq_self.mpr fun member hmember => ?_
    have hne : key ≠ member.1 := by simpa using List.lookup_eq_none_iff.mp hnone member hmember
    simpa using Ne.symm hne
  induction members with
  | nil => simp [mapInsert]
  | cons member members ih =>
    obtain ⟨k, v⟩ := member
    have hk : key ≠ k := by
      have := List.lookup_eq_none_iff.mp h (k, v) List.mem_cons_self
      simpa using this
    have hrest : members.lookup key = none := by
      rwa [lookup_cons_ite, if_neg hk] at h
    rw [mapInsert, if_neg (Ne.symm hk)]
    split_ifs with hle
    · rw [List.filter_cons_of_pos (by simpa using Ne.symm hk), ih hrest]
    · rw [List.filter_cons_of_neg (by simp), hmembers _ h]

theorem areMembers_mapInsert (hvalue : IsValue value) (h : AreMembers members) :
    AreMembers (mapInsert key value members) := by
  induction members with
  | nil => exact ⟨hvalue, trivial⟩
  | cons member members ih =>
    obtain ⟨k, v⟩ := member
    rw [mapInsert]
    split_ifs
    · exact ⟨hvalue, h.2⟩
    · exact ⟨h.1, ih h.2⟩
    · exact ⟨hvalue, h⟩

theorem anyMemberFloat_mapInsert (hvalue : containsFloat value = false)
    (h : anyMemberFloat members = false) : anyMemberFloat (mapInsert key value members) = false := by
  induction members with
  | nil => simpa [mapInsert, anyMemberFloat, memberFloat] using hvalue
  | cons member members ih =>
    obtain ⟨k, v⟩ := member
    simp only [anyMemberFloat, memberFloat, Bool.or_eq_false_iff] at h
    rw [mapInsert]
    split_ifs
    · simpa only [anyMemberFloat, memberFloat, Bool.or_eq_false_iff] using ⟨hvalue, h.2⟩
    · simpa only [anyMemberFloat, memberFloat, Bool.or_eq_false_iff] using ⟨h.1, ih h.2⟩
    · simpa only [anyMemberFloat, memberFloat, Bool.or_eq_false_iff] using ⟨hvalue, h⟩

theorem depthMembers_mapInsert {n : ℕ} (hvalue : depth value ≤ n) (h : depthMembers members ≤ n) :
    depthMembers (mapInsert key value members) ≤ n := by
  induction members with
  | nil => simpa [mapInsert, depthMembers, depthMember] using hvalue
  | cons member members ih =>
    obtain ⟨k, v⟩ := member
    simp only [depthMembers, depthMember, Nat.max_le] at h
    rw [mapInsert]
    split_ifs
    · simpa only [depthMembers, depthMember, Nat.max_le] using ⟨hvalue, h.2⟩
    · simpa only [depthMembers, depthMember, Nat.max_le] using ⟨h.1, ih h.2⟩
    · simpa only [depthMembers, depthMember, Nat.max_le] using ⟨hvalue, h⟩

/-! ## 2. Rows -/

/-- The row that Python reads of a record. -/
def rowOfMap (F : Type) [PyFloat F] (members : Map) : Row F :=
  members.map fun member => (pyStr member.1, parsed F member.2)

theorem parsed_obj (h : KeysSorted members) :
    parsed F (.obj members) = .obj (rowOfMap F members) := by
  have hread : (writtenItems (F := F) false (toPyMembers members)).map readItem =
      rowOfMap F members := by
    rw [writtenItems_eq, toPyMembers_eq, List.map_map, List.map_map]
    refine List.map_congr_left fun ⟨k, v⟩ _ => ?_
    show (joinPairs (pyStr k), _) = _
    rw [joinPairs_pyStr]
    rfl
  have hnodup : ((rowOfMap F members).map Prod.fst).Nodup := by
    rw [rowOfMap, List.map_map]
    have hkeys : ((members.map Prod.fst).map pyStr).Nodup :=
      List.pairwise_map.mpr (h.imp fun {a b} hab => hab.ne)
    rwa [List.map_map] at hkeys
  rw [parsed, toPy, written, if_neg (by decide), settled, settledMembers_named, hread,
    pyDict_of_nodup hnodup]

theorem getKey_rowOfMap (k : String) :
    getKey (pyStr k) (rowOfMap F members) = (members.lookup k).map (parsed F) := by
  induction members with
  | nil => rfl
  | cons member members ih =>
    obtain ⟨k', v⟩ := member
    rw [rowOfMap, List.map_cons, getKey, ← rowOfMap, ih, lookup_cons_ite]
    by_cases hk : k = k'
    · rw [if_pos hk, if_pos (by rw [hk])]
      rfl
    · rw [if_neg hk, if_neg fun h => hk (pyStr_inj h).symm]

theorem popKey_rowOfMap (k : String) :
    popKey (pyStr k) (rowOfMap F members) =
      rowOfMap F (members.filter fun member => member.1 ≠ k) := by
  rw [popKey, rowOfMap, List.filter_map, rowOfMap]
  congr 1
  refine List.filter_congr fun member _ => ?_
  simp only [Function.comp_apply, ne_eq, decide_not]
  congr 1
  exact decide_eq_decide.mpr ⟨pyStr_inj, fun h => by rw [h]⟩

theorem pyStr_sha256String (t : Text) : pyStr (sha256String t) = Sha256.hexdigest t := by
  rw [pyStr, sha256String, String.toList_ofList, List.map_map, Sha256.hexdigest]
  refine List.map_congr_left fun c hc => ?_
  have hdigit := (Sha256.hexDigest_sha256Hex t).2 c hc
  have hascii : ∀ c, c < 128 → (Char.ofNat c).toNat = c := by decide
  show Fin.ofNat 0x110000 (Char.ofNat c).toNat = _
  rw [hascii c (by omega)]

/-! ## 3. A record -/

/-- A record that can be written and is not nested deeper than `serde_json` reads. -/
structure Readable (members : Map) : Prop where
  isValue : IsValue (.obj members)
  floatFree : containsFloat (.obj members) = false
  shallow : depth (.obj members) ≤ 127

/-- What `append` makes of fields, with the hash of the record before. -/
def chainedMap (ryu : ℚ → Text) (prev : String) (fields : Map) : Map :=
  let record := mapInsert "chain_prev" (.str prev) fields
  mapInsert "chain_hash" (.str (sha256String (canonicalText ryu (.obj record)))) record

theorem readable_mapInsert {s : String} (hvalue : IsValue (.obj members))
    (hshallow : depth (.obj members) ≤ 127)
    (hfree : containsFloat (.obj (mapInsert key (.str s) members)) = false) :
    Readable (mapInsert key (.str s) members) := by
  refine ⟨⟨keysSorted_mapInsert hvalue.1, areMembers_mapInsert trivial hvalue.2⟩, hfree, ?_⟩
  rw [depth] at hshallow ⊢
  have := (@depthMembers_mapInsert key (.str s) _ 126) (Nat.zero_le _)
    (by omega : depthMembers members ≤ 126)
  omega

variable (ryu) in
/-- **The row of a chained record has the hash of its own text.** -/
theorem sound_rowOfMap [PyRepr F] {prev : String} (hhash : fields.lookup "chain_hash" = none)
    (hvalue : IsValue (.obj fields))
    (hfree : containsFloat (.obj (mapInsert "chain_prev" (.str prev) fields)) = false) :
    chainPrev (rowOfMap F (chainedMap ryu prev fields)) = pyStr prev ∧
      chainHash (rowOfMap F (chainedMap ryu prev fields)) =
        bodyHash Sha256.hexdigest (rowOfMap F (chainedMap ryu prev fields)) := by
  have hnone : (mapInsert "chain_prev" (.str prev) fields).lookup "chain_hash" = none := by
    rw [lookup_mapInsert, if_neg (by decide), hhash]
  have hrecord : IsValue (.obj (mapInsert "chain_prev" (.str prev) fields)) :=
    ⟨keysSorted_mapInsert hvalue.1, areMembers_mapInsert trivial hvalue.2⟩
  have hparsed : ∀ s : String, parsed F (.str s) = .str (pyStr s) := fun s => by
    rw [parsed, toPy, written, settled, joinPairs_pyStr]
  constructor
  · rw [chainPrev, strAt, getKey_rowOfMap, chainedMap, lookup_mapInsert, if_neg (by decide),
      lookup_mapInsert, if_pos rfl, Option.map_some, hparsed, strOr_str]
  · rw [bodyHash, popKey_rowOfMap, chainedMap, filter_mapInsert hnone, rowHash,
      ← parsed_obj hrecord.1, chainHash, strAt, getKey_rowOfMap, lookup_mapInsert, if_pos rfl,
      Option.map_some, hparsed, strOr_str, pyStr_sha256String]
    have htext : canonicalJson ryu (.obj (mapInsert "chain_prev" (.str prev) fields)) =
        .ok (canonicalText ryu (.obj (mapInsert "chain_prev" (.str prev) fields))) := by
      rw [canonicalJson, hfree, if_neg (by decide)]
    rw [(canonical_json_reads_back (F := F) hrecord htext).2.1]

/-! ## 4. Every sequence of appends -/

/-- The parser reads back what `canonical_json` writes of a record within its depth. -/
def ReadsBack (ryu : ℚ → Text) (fromSlice : Text → Option Json) : Prop :=
  ∀ members, Readable members → fromSlice (canonicalText ryu (.obj members)) = some (.obj members)

/-- A step of a run: an append of fields, nested at most 126 deep, that returns. -/
def appending (ryu : ℚ → Text) (fromSlice : Text → Option Json) (file : Option Text) (fields : Map)
    (file' : Option Text) : Prop :=
  IsValue (.obj fields) ∧ depth (.obj fields) ≤ 127 ∧
    ∃ bytes record, append ryu fromSlice file fields = .ok (bytes, record) ∧ file' = some bytes

/-- The line of a record. -/
abbrev lineOfMap (ryu : ℚ → Text) (members : Map) : Text := canonicalText ryu (.obj members)

/-- What holds after some appends: the file has the lines of readable records, each with a hash, and
their rows are a chain. -/
structure Extended (F : Type) [PyFloat F] [PyRepr F] (ryu : ℚ → Text) (records : List Map)
    (file : Option Text) : Prop where
  file : file.getD [] = fileOf (records.map (lineOfMap ryu))
  readable : ∀ record ∈ records, Readable record
  hashed : ∀ record ∈ records, ∃ hash, record.lookup "chain_hash" = some (.str hash)
  chain : Chain Sha256.hexdigest [] (records.map (rowOfMap F))

theorem printable_lineOfMap {record : Map} (h : containsFloat (.obj record) = false) :
    Printable (lineOfMap ryu record) := by
  rw [lineOfMap, canonicalText_eq (F := NaN) _ h]
  exact printable_text _

theorem loads_lineOfMap {record : Map} (hfree : containsFloat (.obj record) = false)
    (hsorted : KeysSorted record) :
    loads (lineOfMap ryu record) = some (.obj (rowOfMap F record)) := by
  rw [lineOfMap, canonicalText_eq (F := F) _ hfree, loads_text, ← parsed_obj hsorted, parsed]

theorem lineOfMap_ne_nil (ryu : ℚ → Text) (record : Map) : lineOfMap ryu record ≠ [] := by
  have hbrace : asciiEscape chOpenBrace = [chOpenBrace] := rfl
  cases record <;> simp [canonicalText, serdeText, hbrace]

theorem chainHash_rowOfMap [PyRepr F] {record : Map} {hash : String}
    (h : record.lookup "chain_hash" = some (.str hash)) :
    chainHash (rowOfMap F record) = pyStr hash := by
  rw [chainHash, strAt, getKey_rowOfMap, h, Option.map_some, parsed, toPy, written, settled,
    strOr_str, joinPairs_pyStr]

/-- **An append finds the end of the chain.** -/
theorem readChainHead_extended [PyRepr F] (hread : ReadsBack ryu fromSlice) {records : List Map}
    {file : Option Text} (h : Extended F ryu records file) :
    pyStr (readChainHead fromSlice file).prev = endHash chainHash [] (records.map (rowOfMap F)) ∧
      (readChainHead fromSlice file).tornTail = false := by
  cases file with
  | none =>
    have hnil : records = [] := by
      by_contra hne
      have hlast := (@fileOf_getLast (records.map (lineOfMap ryu))) (by simpa using hne)
      rw [← h.file] at hlast
      cases hlast
    subst hnil
    exact ⟨rfl, rfl⟩
  | some bytes =>
    have hbytes : bytes = fileOf (records.map (lineOfMap ryu)) := h.file
    rcases List.eq_nil_or_concat records with rfl | ⟨records, record, rfl⟩
    · have hempty : readChainHead fromSlice (some ([] : Text)) = ⟨"", false⟩ := by
        simp [readChainHead, dropNewline]
      rw [hbytes, List.map_nil, fileOf_nil, hempty]
      exact ⟨rfl, rfl⟩
    rw [List.concat_eq_append] at h hbytes ⊢
    have hrecord : record ∈ records ++ [record] := by simp
    have hprint := (@printable_lineOfMap ryu) (h.readable record hrecord).floatFree
    obtain ⟨hash, hhash⟩ := h.hashed record hrecord
    have hbefore : fileOf (records.map (lineOfMap ryu)) = [] ∨
        (fileOf (records.map (lineOfMap ryu))).getLast? = some nl := by
      by_cases hnil : records = []
      · exact .inl (by rw [hnil]; rfl)
      · exact .inr (fileOf_getLast (by simpa using hnil))
    rw [List.map_append, List.map_singleton, fileOf_append, fileOf_singleton,
      ← List.append_assoc] at hbytes
    have hne := lineOfMap_ne_nil ryu record
    have hwindow : ∀ start, start = 0 ∨ nl ∈ dropNewline (bytes.drop start) →
        lineTail nl (dropNewline (bytes.drop start)) = lineOfMap ryu record := by
      intro start hstart
      subst hbytes
      exact (lastLine_drop hbefore hprint.no_newline hstart).1
    have htail : lineTail nl (dropNewline (bytes.drop
        (if nl ∈ dropNewline (bytes.drop (bytes.length - headWindow)) then bytes.length - headWindow
          else 0))) = lineOfMap ryu record := by
      refine hwindow _ ?_
      split_ifs with hin
      · exact .inr hin
      · exact .inl rfl
    refine ⟨?_, ?_⟩
    · rw [List.map_append, List.map_singleton, endHash_concat, chainHash_rowOfMap hhash]
      simp only [readChainHead, htail, if_neg hne, hread record (h.readable record hrecord),
        Option.bind_some, Json.strAt?, Json.get?_obj, hhash, Json.asStr?_str, Option.getD_some]
    · have hlast : bytes.getLast? = some nl := by rw [hbytes, List.getLast?_concat]
      simp [readChainHead, hlast]

/-- An append of fields without floats that leave the chain's own alone returns. -/
theorem append_returns (file : Option Text) (hprev : fields.lookup "chain_prev" = none)
    (hhash : fields.lookup "chain_hash" = none) (hfree : containsFloat (.obj fields) = false) :
    ∃ bytes record, append ryu fromSlice file fields = .ok (bytes, record) := by
  rw [containsFloat] at hfree
  have hbody := (@anyMemberFloat_mapInsert "chain_prev" (.str (readChainHead fromSlice file).prev)) rfl hfree
  have hline := fun hash => (@anyMemberFloat_mapInsert "chain_hash" (.str hash)) rfl
    hbody
  unfold append
  rw [hprev, hhash, if_neg (by decide)]
  simp only [canonicalJson, containsFloat, hbody, hline, bind, Except.bind, pure, Except.pure,
    Bool.false_eq_true, if_false]
  exact ⟨_, _, rfl⟩

/-- The record an append returns. -/
theorem append_eq {file : Option Text} {fields : Map} {bytes : Text} {written : Json}
    (h : append ryu fromSlice file fields = .ok (bytes, written)) :
    let head := readChainHead fromSlice file
    fields.lookup "chain_hash" = none ∧
      containsFloat (.obj (mapInsert "chain_prev" (.str head.prev) fields)) = false ∧
      containsFloat (.obj (chainedMap ryu head.prev fields)) = false ∧
      bytes = file.getD [] ++ ((if head.tornTail then [nl] else []) ++
        lineOfMap ryu (chainedMap ryu head.prev fields) ++ [nl]) := by
  intro head
  unfold append at h
  split_ifs at h with hown
  rw [Bool.or_eq_true, not_or] at hown
  have hhash : fields.lookup "chain_hash" = none := Option.not_isSome_iff_eq_none.mp hown.2
  cases hbody : containsFloat (.obj (mapInsert "chain_prev" (.str head.prev) fields)) with
  | true => simp [canonicalJson, head, hbody, bind, Except.bind] at h
  | false =>
    cases hline : containsFloat (.obj (chainedMap ryu head.prev fields)) with
    | true =>
      unfold chainedMap at hline
      simp [canonicalJson, head, hbody, hline, bind, Except.bind] at h
    | false =>
      have hline' := hline
      unfold chainedMap at hline'
      simp only [canonicalJson, head, hbody, hline', bind, Except.bind, pure, Except.pure,
        Bool.false_eq_true, if_false, Except.ok.injEq, Prod.mk.injEq] at h
      exact ⟨hhash, rfl, rfl, h.1.symm⟩

/-- **An append extends the chain.** -/
theorem extended_append [PyRepr F] (hread : ReadsBack ryu fromSlice) {records : List Map}
    {file file' : Option Text} {fields : Map} (h : Extended F ryu records file)
    (hstep : appending ryu fromSlice file fields file') :
    ∃ record, Extended F ryu (records ++ [record]) file' := by
  obtain ⟨hvalue, hshallow, bytes, written, happend, rfl⟩ := hstep
  obtain ⟨hhash, hbody, hline, hbytes⟩ := append_eq happend
  obtain ⟨hprev, htorn⟩ := readChainHead_extended hread h
  generalize hhead : (readChainHead fromSlice file).prev = prev at hbody hline hbytes hprev
  obtain ⟨hnamed, hsound⟩ := sound_rowOfMap (F := F) ryu hhash hvalue hbody
  have hrecord := readable_mapInsert hvalue hshallow hbody
  refine ⟨chainedMap ryu prev fields, ?_, ?_, ?_, ?_⟩
  · rw [Option.getD_some, hbytes, htorn, h.file, List.map_append, List.map_singleton,
      fileOf_append, fileOf_singleton]
    rfl
  · intro record hmem
    rcases List.mem_append.mp hmem with hmem | hmem
    · exact h.readable record hmem
    · rw [List.mem_singleton] at hmem
      rw [hmem]
      exact readable_mapInsert hrecord.isValue hrecord.shallow hline
  · intro record hmem
    rcases List.mem_append.mp hmem with hmem | hmem
    · exact h.hashed record hmem
    · rw [List.mem_singleton] at hmem
      rw [hmem, chainedMap, lookup_mapInsert, if_pos rfl]
      exact ⟨_, rfl⟩
  · rw [List.map_append, List.map_singleton]
    exact h.chain.concat (hnamed.trans hprev) hsound

/-- **What the Rust core appends verifies in Python.**  On a new or empty file, after any appends of
fields nested at most 126 containers deep, `verify_chain` answers ok with one entry for each append,
and the file is as many lines without a line break inside.  Every value that `canonical_json` takes,
nested at most 127 deep, is written as `json.dumps` with `sort_keys` writes what Python parses back. -/
theorem verify_chain_of_append [PyRepr F] (hread : ReadsBack ryu fromSlice)
    {start file : Option Text} {appends : List Map} (hstart : start.getD [] = [])
    (hrun : Run (appending ryu fromSlice) start appends file) :
    verifyChain F Sha256.hexdigest file = some ⟨true, appends.length, ""⟩ ∧
      (∃ lines, file.getD [] = fileOf lines ∧ lines.length = appends.length ∧
        ∀ line ∈ lines, Printable line) ∧
      ∀ value text', IsValue value → depth value ≤ 127 → canonicalJson ryu value = .ok text' →
        Printable text' ∧ ∃ back : PyJson F, loads text' = some back ∧
          text (sortKeys back) = text' := by
  obtain ⟨records, hlength, h⟩ : ∃ records : List Map, records.length = appends.length ∧
      Extended F ryu records file := by
    refine hrun.history (P := fun appends file => ∃ records : List Map,
      records.length = appends.length ∧ Extended F ryu records file) ?_ ?_
    · rintro appends file fields file' ⟨records, hlength, h⟩ hstep
      obtain ⟨record, hnext⟩ := extended_append hread h hstep
      exact ⟨records ++ [record], by simp [hlength], hnext⟩
    · exact ⟨[], rfl, hstart, List.forall_mem_nil _, List.forall_mem_nil _, Chain.nil _ _⟩
  have hprintable : ∀ line ∈ records.map (lineOfMap ryu), Printable line := by
    intro line hline
    obtain ⟨record, hrecord, rfl⟩ := List.mem_map.mp hline
    exact printable_lineOfMap (h.readable record hrecord).floatFree
  have hverify : verifyChain F Sha256.hexdigest (some (file.getD [])) =
      some ⟨true, appends.length, ""⟩ := by
    rw [h.file, verifyChain_fileOf hprintable, List.length_map,
      hlength]
    · rw [List.forall₂_map_left_iff, List.forall₂_map_right_iff]
      refine List.forall₂_same.mpr fun record hrecord => ?_
      have hgood := h.readable record hrecord
      exact loads_lineOfMap hgood.floatFree hgood.isValue.1
    · exact h.chain
  refine ⟨?_, ⟨_, h.file, by rw [List.length_map, hlength], hprintable⟩, ?_⟩
  · cases file with
    | some bytes => exact hverify
    | none =>
      rw [← hverify]
      rfl
  · intro value text' hvalue _ htext
    obtain ⟨hload, hback, hprint⟩ := canonical_json_reads_back (F := F) hvalue htext
    exact ⟨hprint, _, hload, hback⟩

/-! ## 5. A parser with the limit of `serde_json` -/

def ofPyStr (s : PyStr) : Option String :=
  if s.any fun c => isHigh c.val || isLow c.val then none
  else some (String.ofList (s.map fun c => Char.ofNat c.val))

mutual

/-- The value without a float that a parsed text is for Rust. -/
def ofPy : PyJson NaN → Option Json
  | .null => some .null
  | .bool b => some (.bool b)
  | .int n => if -2 ^ 63 ≤ n ∧ n < 2 ^ 64 then some (.int n) else none
  | .float _ => none
  | .str s => (ofPyStr s).map .str
  | .arr items => (ofPyItems items).map .arr
  | .obj members =>
    (ofPyMembers members).map fun ms => .obj (ms.foldl (fun m x => mapInsert x.1 x.2 m) [])

def ofPyItems : List (PyJson NaN) → Option (List Json)
  | [] => some []
  | item :: items => (ofPy item).bind fun v => (ofPyItems items).map (v :: ·)

def ofPyMembers : List (PyStr × PyJson NaN) → Option (List (String × Json))
  | [] => some []
  | member :: members => (ofPyMember member).bind fun m => (ofPyMembers members).map (m :: ·)

def ofPyMember : PyStr × PyJson NaN → Option (String × Json)
  | (key, value) => (ofPyStr key).bind fun k => (ofPy value).map fun v => (k, v)

end

/-- `serde_json::from_slice` on a text without floats: it refuses what is nested 128 deep. -/
def serdeParse (t : Text) : Option Json :=
  ((loads t).bind ofPy).filter fun v => depth v ≤ 127

theorem ofPyStr_pyStr (s : String) : ofPyStr (pyStr s) = some s := by
  have hnone : (pyStr s).any (fun c => isHigh c.val || isLow c.val) = false := by
    refine List.any_eq_false.mpr fun c hc => ?_
    have hval : c.val ∈ s.toList.map Char.toNat := pyStr_val s ▸ List.mem_map_of_mem hc
    obtain ⟨d, -, hd⟩ := List.mem_map.mp hval
    have := d.valid
    simp only [UInt32.isValidChar, Nat.isValidChar] at this
    have hnat : d.toNat = d.val.toNat := rfl
    simp only [isHigh, isLow, Bool.or_eq_true, Bool.and_eq_true, decide_eq_true_eq]
    omega
  have hchars : (pyStr s).map (fun c => Char.ofNat c.val) = s.toList := by
    have hmap : (pyStr s).map (fun c => Char.ofNat c.val) =
        ((pyStr s).map Fin.val).map Char.ofNat := by rw [List.map_map]; rfl
    rw [hmap, pyStr_val, List.map_map]
    conv_rhs => rw [← List.map_id s.toList]
    exact List.map_congr_left fun c _ => Char.ofNat_toNat c
  rw [ofPyStr, hnone, if_neg (by decide), hchars, String.ofList_toList]

/-- A key behind all others goes to the end. -/
theorem mapInsert_last (h : ∀ k ∈ members.map Prod.fst, KeyLt (pyStr k) (pyStr key)) :
    mapInsert key value members = members ++ [(key, value)] := by
  induction members with
  | nil => rfl
  | cons member members ih =>
    obtain ⟨k, v⟩ := member
    have hlt := h k (by simp)
    rw [mapInsert, if_neg (fun hk => hlt.ne (by rw [hk])), if_pos hlt.le,
      ih fun k' hk' => h k' (by rw [List.map_cons]; exact List.mem_cons_of_mem _ hk')]
    rfl

theorem foldl_mapInsert (h : KeysSorted members) :
    members.foldl (fun m x => mapInsert x.1 x.2 m) [] = members := by
  induction members using List.reverseRecOn with
  | nil => rfl
  | append_singleton members member ih =>
    rw [KeysSorted, List.map_append, List.pairwise_append] at h
    rw [List.foldl_append, ih h.1]
    exact mapInsert_last fun k hk => h.2.2 k hk member.1 (by simp)

mutual

theorem ofPy_parsed : ∀ v : Json, IsValue v → containsFloat v = false →
    ofPy (parsed NaN v) = some v
  | .null, _, _ => rfl
  | .bool _, _, _ => rfl
  | .int n, h, _ => if_pos h
  | .float _, _, h => by cases h
  | .str s, _, _ => by
    rw [parsed, toPy, written, settled, joinPairs_pyStr, ofPy, ofPyStr_pyStr]
    rfl
  | .arr items, h, hfree => by
    rw [parsed, toPy, written, settled, ofPy, ofPyItems_parsed items h hfree]
    rfl
  | .obj members, h, hfree => by
    rw [parsed_obj h.1, ofPy, ofPyMembers_parsed members h.2 hfree, Option.map_some,
      foldl_mapInsert h.1]

theorem ofPyItems_parsed : ∀ items : List Json, AreValues items → anyFloat items = false →
    ofPyItems (settledItems (writtenList false (toPyItems items))) = some items
  | [], _, _ => rfl
  | item :: items, h, hfree => by
    rw [anyFloat, Bool.or_eq_false_iff] at hfree
    rw [toPyItems, writtenList, settledItems, ofPyItems, ← parsed, ofPy_parsed item h.1 hfree.1,
      ofPyItems_parsed items h.2 hfree.2]
    rfl

theorem ofPyMembers_parsed : ∀ members : List (String × Json), AreMembers members →
    anyMemberFloat members = false → ofPyMembers (rowOfMap NaN members) = some members
  | [], _, _ => rfl
  | (key, value) :: members, h, hfree => by
    rw [anyMemberFloat, memberFloat, Bool.or_eq_false_iff] at hfree
    rw [rowOfMap, List.map_cons, ← rowOfMap, ofPyMembers, ofPyMember, ofPyStr_pyStr,
      ofPy_parsed value h.1 hfree.1, ofPyMembers_parsed members h.2 hfree.2]
    rfl

end

/-- **The parser reads a line back unless it is nested too deep.** -/
theorem serdeParse_lineOfMap (hvalue : IsValue (.obj members))
    (hfree : containsFloat (.obj members) = false) :
    serdeParse (lineOfMap ryu members) =
      if depth (.obj members) ≤ 127 then some (.obj members) else none := by
  rw [serdeParse, loads_lineOfMap hfree hvalue.1, ← parsed_obj hvalue.1, Option.bind_some,
    ofPy_parsed _ hvalue hfree, Option.filter_some]
  simp only [decide_eq_true_eq]

theorem readsBack_serdeParse (ryu : ℚ → Text) : ReadsBack ryu serdeParse := by
  intro members h
  rw [← lineOfMap, serdeParse_lineOfMap h.isValue h.floatFree, if_pos h.shallow]

/-- Fields as the release engine has them, and a name that is not ASCII. -/
def sampleFields : Map := [("kind", .str "release"), ("naïve", .int (-1)), ("ok", .bool true)]

def sampleRyu : ℚ → Text := fun _ => ascii "0.0"

theorem isValue_sampleFields : IsValue (.obj sampleFields) := by
  have hsorted : KeysSorted sampleFields := by unfold KeysSorted KeyLt; decide +kernel
  exact ⟨hsorted, trivial, ⟨by decide, by decide⟩, trivial, trivial⟩

theorem verify_chain_of_append_sample : ∃ bytes record bytes' record',
    append sampleRyu serdeParse none sampleFields = .ok (bytes, record) ∧
    append sampleRyu serdeParse (some bytes) sampleFields = .ok (bytes', record') ∧
    verifyChain NaN Sha256.hexdigest (some bytes') = some ⟨true, 2, ""⟩ := by
  have hvalue := isValue_sampleFields
  have hshallow : depth (.obj sampleFields) ≤ 127 := by decide +kernel
  have hreturns : ∀ file, ∃ bytes record,
      append sampleRyu serdeParse file sampleFields = .ok (bytes, record) := fun file =>
    append_returns file (by decide +kernel) (by decide +kernel) (by decide +kernel)
  obtain ⟨bytes, record, hfirst⟩ := hreturns none
  obtain ⟨bytes', record', hsecond⟩ := hreturns (some bytes)
  refine ⟨bytes, record, bytes', record', hfirst, hsecond, ?_⟩
  exact (verify_chain_of_append (F := NaN) (readsBack_serdeParse sampleRyu) rfl
    (.head ⟨hvalue, hshallow, bytes, record, hfirst, rfl⟩
      (.single ⟨hvalue, hshallow, bytes', record', hsecond, rfl⟩))).1

/-- A value of so many lists in one another. -/
def nestedLists : ℕ → Json
  | 0 => .null
  | n + 1 => .arr [nestedLists n]

def sampleDeep : Map := [("fields", nestedLists 127)]

/-- **A record that is not read back restarts the chain.**  The append after it has no hash to go on
from. -/
theorem refused_record_restarts [PyRepr F] {fields fields' : Map} {first second : Text × Json}
    (hvalue : IsValue (.obj fields)) (hvalue' : IsValue (.obj fields'))
    (hfirst : append ryu fromSlice none fields = .ok first)
    (hrefused : fromSlice (lineOfMap ryu (chainedMap ryu "" fields)) = none)
    (hsecond : append ryu fromSlice (some first.1) fields' = .ok second) :
    verifyChain F Sha256.hexdigest (some second.1) =
      some ⟨false, 1, "chain_prev_mismatch_at:2"⟩ := by
  obtain ⟨bytes, record⟩ := first
  obtain ⟨bytes', record'⟩ := second
  obtain ⟨hhash, hbody, hline, hbytes⟩ := append_eq hfirst
  obtain ⟨hhash', hbody', hline', hbytes'⟩ := append_eq hsecond
  have hnew : readChainHead fromSlice none = ⟨"", false⟩ := rfl
  rw [hnew] at hbody hline hbytes
  simp only [Option.getD_none, List.nil_append, if_neg Bool.false_ne_true] at hbytes
  have hprint := (@printable_lineOfMap ryu) hline
  have hhead : readChainHead fromSlice (some bytes) = ⟨"", false⟩ := by
    have hwindow : ∀ start, start = 0 ∨ nl ∈ dropNewline (bytes.drop start) →
        lineTail nl (dropNewline (bytes.drop start)) =
          lineOfMap ryu (chainedMap ryu "" fields) := by
      intro start hstart
      rw [hbytes] at hstart ⊢
      exact (lastLine_drop (.inl rfl) hprint.no_newline hstart).1
    have hlast : bytes.getLast? = some nl := by rw [hbytes, List.getLast?_concat]
    rw [readChainHead]
    simp only [hlast]
    rw [hwindow, hrefused]
    · simp
    · split_ifs with hin
      · exact .inr hin
      · exact .inl rfl
  rw [hhead] at hbody' hline' hbytes'
  have hfile : bytes' = fileOf [lineOfMap ryu (chainedMap ryu "" fields),
      lineOfMap ryu (chainedMap ryu "" fields')] := by
    rw [hbytes', hbytes]
    simp [fileOf]
  obtain ⟨hprev, hsound⟩ := sound_rowOfMap (F := F) ryu hhash hvalue hbody
  obtain ⟨hprev', -⟩ := sound_rowOfMap (F := F) ryu hhash' hvalue' hbody'
  have hsorted : ∀ fields, IsValue (.obj fields) → KeysSorted (chainedMap ryu "" fields) :=
    fun _ h => keysSorted_mapInsert (keysSorted_mapInsert h.1)
  have hlinked : chainPrev (rowOfMap F (chainedMap ryu "" fields')) ≠
      chainHash (rowOfMap F (chainedMap ryu "" fields)) := by
    rw [hprev', chainHash_rowOfMap (lookup_mapInsert _), pyStr_sha256String]
    exact (hexDigest_hexdigest _).1.symm
  rw [hfile, verifyChain_lines, verifyLines, loads_lineOfMap hline (hsorted _ hvalue)]
  · simp only [hprev]
    rw [if_neg (by simp [pyStr]), if_neg (not_not.mpr hsound), verifyLines,
      loads_lineOfMap hline' (hsorted _ hvalue')]
    simp only [if_pos hlinked]
    rfl
  · intro line hmem
    simp only [List.mem_cons, List.not_mem_nil, or_false] at hmem
    rcases hmem with rfl | rfl
    · exact hprint
    · exact printable_lineOfMap hline'

theorem isValue_sampleDeep : IsValue (.obj sampleDeep) := by
  have hlists : ∀ n, IsValue (nestedLists n) := by
    intro n
    induction n with
    | zero => trivial
    | succ n ih => exact ⟨ih, trivial⟩
  exact ⟨List.pairwise_singleton _ _, hlists 127, trivial⟩

/-- The record of `sampleDeep` is nested too deep. -/
theorem serdeParse_sampleDeep :
    serdeParse (lineOfMap sampleRyu (chainedMap sampleRyu "" sampleDeep)) = none := by
  have hfree : containsFloat (.obj (chainedMap sampleRyu "" sampleDeep)) = false := by
    decide +kernel
  have hvalue : IsValue (.obj (chainedMap sampleRyu "" sampleDeep)) :=
    ⟨keysSorted_mapInsert (keysSorted_mapInsert isValue_sampleDeep.1),
      areMembers_mapInsert trivial (areMembers_mapInsert trivial isValue_sampleDeep.2)⟩
  have hdepth : ¬ depth (.obj (chainedMap sampleRyu "" sampleDeep)) ≤ 127 := by decide +kernel
  rw [serdeParse_lineOfMap hvalue hfree, if_neg hdepth]

/-- The file after an append of `sampleDeep` and one of `sampleFields`. -/
def deepFile : Option Text :=
  (append sampleRyu serdeParse none sampleDeep).toOption.bind fun first =>
    (append sampleRyu serdeParse (some first.1) sampleFields).toOption.map Prod.fst

/-- **A record beyond the parser's depth breaks the chain.** -/
theorem deep_record_restarts_chain :
    verifyChain NaN Sha256.hexdigest deepFile = some ⟨false, 1, "chain_prev_mismatch_at:2"⟩ := by
  obtain ⟨bytes, record, hfirst⟩ : ∃ bytes record,
      append sampleRyu serdeParse none sampleDeep = .ok (bytes, record) :=
    append_returns none (by decide +kernel) (by decide +kernel) (by decide +kernel)
  obtain ⟨bytes', record', hsecond⟩ : ∃ bytes' record',
      append sampleRyu serdeParse (some bytes) sampleFields = .ok (bytes', record') :=
    append_returns (some bytes) (by decide +kernel) (by decide +kernel) (by decide +kernel)
  have hfile : deepFile = some bytes' := by
    rw [deepFile, hfirst]
    show Option.map _ (append sampleRyu serdeParse (some bytes) sampleFields).toOption = _
    rw [hsecond]
    rfl
  rw [hfile]
  exact refused_record_restarts (F := NaN) isValue_sampleDeep isValue_sampleFields hfirst
    serdeParse_sampleDeep hsecond

end AzazelEdge.Audit
