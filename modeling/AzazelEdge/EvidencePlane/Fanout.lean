/-
# The fan-out of evidence events

`EvidenceBus` (`evidence_plane/bus.py`): what is published goes into a bounded queue and, as a line
of JSON that is not restricted to ASCII, to the end of a file; `read_fanout` cuts the file with
`str.splitlines` and makes an event of each line again.

The file is the text that UTF-8 decodes it to.  A published payload is read back when it has no line
break that JSON leaves in a string, and when its event is one that `from_dict` leaves as it is.
-/
import AzazelEdge.Decision.Payload
import AzazelEdge.EvidencePlane.Event
import AzazelEdge.Lib.PyScanned
import AzazelEdge.Lib.Run

namespace AzazelEdge.EvidencePlane

open AzazelEdge.Lib AzazelEdge.Lib.Py AzazelEdge.Audit AzazelEdge.Arbiter

section Fanout

variable {F : Type} [PyFloat F] [PyRepr F] [PyConvert F] [PyArith F]

/-! ## 1. Events that are read -/

/-- `REQUIRED_FIELDS`. -/
def requiredFields : List PyStr :=
  ["event_id", "ts", "source", "kind", "subject", "severity", "confidence", "attrs"].map pyStr

/-- `max(0.0, min(x, 1.0))`. -/
def clampUnit (x : F) : F := maxFloat (lit "0.0") (minFloat x (lit "1.0"))

/-- A member that is a dict; none otherwise. -/
def dictAt (key : String) (payload : Row F) : Option (Row F) :=
  match getKey (pyStr key) payload with
  | some (.obj members) => some members
  | _ => none

/-- `[str(x) for x in value]` of a list, else no items. -/
def textsAt (key : String) (payload : Row F) : List PyStr :=
  match getKey (pyStr key) payload with
  | some (.arr items) => items.map strOf
  | _ => []

/-- `EvidenceEvent.from_dict`; none when it raises. -/
def EvidenceEvent.fromDict (payload : Row F) : Option (EvidenceEvent F) := do
  guard ((requiredFields.all fun field => (getKey field payload).isSome) = true)
  let attrs ← dictAt "attrs" payload
  let severity ← (getKey (pyStr "severity") payload).bind toInt
  let confidence ← (getKey (pyStr "confidence") payload).bind toFloat
  return {
    eventId := strOr (getKey (pyStr "event_id") payload)
    ts := strOr (getKey (pyStr "ts") payload)
    source := strOr (getKey (pyStr "source") payload)
    kind := strOr (getKey (pyStr "kind") payload)
    subject := strOr (getKey (pyStr "subject") payload)
    severity := max 0 (min severity 100)
    confidence := clampUnit confidence
    attrs
    status := strOr (getKey (pyStr "status") payload)
    evidenceRefs := textsAt "evidence_refs" payload }

/-! ## 2. The bus -/

/-- What is published: an event, or a dict to make one of.  The keys of a dict differ. -/
inductive PublishArg (F : Type) where
  | event (event : EvidenceEvent F) (distinct : Distinct (.obj event.attrs))
  | dict (payload : Row F) (distinct : Distinct (.obj payload))

/-- The event whose `to_dict` is published. -/
def PublishArg.event? : PublishArg F → Option (EvidenceEvent F)
  | .event e _ => some e
  | .dict payload _ => EvidenceEvent.fromDict payload

/-- The queue, and the file when there is one. -/
structure EvidenceBus (F : Type) where
  queue : List (Row F)
  fanout : Option Text

def EvidenceBus.new : EvidenceBus F := ⟨[], none⟩

/-- The line of a payload. -/
def fanoutLine (payload : Row F) : Text := rawText (.obj payload) ++ [10]

/-- UTF-8 can encode the text: it has no surrogates. -/
def encodable (t : Text) : Bool := t.all fun c => !isHigh c && !isLow c

/-- `publish`; none when it raises. -/
def EvidenceBus.publish (queueMax : ℤ) (bus : EvidenceBus F) (arg : PublishArg F) :
    EvidenceBus F × Option (Row F) :=
  match arg.event? with
  | none => (bus, none)
  | some event =>
    if max 1 queueMax ≤ bus.queue.length then (bus, none)
    else
      let payload := event.toDict
      let queue := bus.queue ++ [payload]
      let opened := bus.fanout.getD []
      if encodable (fanoutLine payload) then
        (⟨queue, some (opened ++ fanoutLine payload)⟩, some payload)
      else (⟨queue, some opened⟩, none)

/-- `drain`: the bus that is left. -/
def EvidenceBus.drain (bus : EvidenceBus F) (limit : Option ℤ) : EvidenceBus F :=
  match limit with
  | some n => if 0 < n then { bus with queue := bus.queue.drop n.toNat } else { bus with queue := [] }
  | none => { bus with queue := [] }

/-- A text file is read with `\n` for each `\r\n` or `\r`. -/
def universalNewlines : Text → Text
  | 13 :: 10 :: rest => 10 :: universalNewlines rest
  | 13 :: rest => 10 :: universalNewlines rest
  | c :: rest => c :: universalNewlines rest
  | [] => []

/-- `str.isspace` of a character. -/
def isSpaceChar (c : ℕ) : Bool := Decision.isSpace (Fin.ofNat 0x110000 c)

/-- `row.strip()`. -/
def stripRow (row : Text) : Text :=
  ((row.dropWhile isSpaceChar).reverse.dropWhile isSpaceChar).reverse

/-- The payload of a row; none when it is skipped. -/
def readRow (row : Text) : Option (Row F) :=
  if stripRow row = [] then none
  else
    match (loads (stripRow row) : Option (PyJson F)) with
    | some (.obj payload) => (EvidenceEvent.fromDict payload).map EvidenceEvent.toDict
    | _ => none

/-- `rows[-n:]`. -/
def lastOf {α : Type} (n : ℕ) (rows : List α) : List α := rows.drop (rows.length - n)

/-- `read_fanout`. -/
def EvidenceBus.readFanout (bus : EvidenceBus F) (limit : Option ℤ) : List (Row F) :=
  match bus.fanout with
  | none => []
  | some file =>
    let rows := splitLines (universalNewlines file)
    let rows :=
      match limit with
      | some n => if 0 < n then lastOf n.toNat rows else rows
      | none => rows
    rows.filterMap readRow

/-! ## 3. Runs -/

inductive BusCall (F : Type) where
  | publish (arg : PublishArg F)
  | drain (limit : Option ℤ)

/-- A call, and the payload when it is a `publish` that returns. -/
structure BusMoment (F : Type) where
  call : BusCall F
  returned : Option (Row F)

/-- One call. -/
def BusStep (queueMax : ℤ) (bus : EvidenceBus F) (m : BusMoment F) (bus' : EvidenceBus F) : Prop :=
  match m.call with
  | .publish arg => (bus', m.returned) = bus.publish queueMax arg
  | .drain limit => bus' = bus.drain limit ∧ m.returned = none

/-- The published payloads, in their order. -/
def published (ms : List (BusMoment F)) : List (Row F) := ms.filterMap (·.returned)

/-- The texts of a payload have no line break that JSON leaves in a string. -/
def UnbrokenRow (payload : Row F) : Prop := AllStr Unbroken (.obj payload)

/-- An event whose payload is read back. -/
structure ReadsBack (event : EvidenceEvent F) : Prop where
  severity : 0 ≤ event.severity ∧ event.severity ≤ 100
  confidence : PyArith.round4 (clampUnit (PyArith.round4 event.confidence)) =
    PyArith.round4 event.confidence
  unbroken : UnbrokenRow event.toDict

/-- What a publish needs to be read back: of a dict, `from_dict` has seen to the numbers. -/
def PublishArg.ReadsBack : PublishArg F → Prop
  | .event e _ => EvidencePlane.ReadsBack e
  | .dict payload _ => ∀ event, EvidenceEvent.fromDict payload = some event →
      UnbrokenRow event.toDict

/-- `str` of a float, and `repr` of a list or a dict, leave no line break: what is not printable is
escaped. -/
class PyPrintable (F : Type) [PyFloat F] [PyRepr F] : Prop where
  str : ∀ x : F, Unbroken (PyFloat.str x)
  arr : ∀ items : List (PyJson F), Unbroken (PyRepr.repr (.arr items))
  obj : ∀ members : Row F, Unbroken (PyRepr.repr (.obj members))

/-- A number between 0 and 1 is one when it is rounded, and rounding it again changes nothing. -/
class PyUnit (F : Type) [PyFloat F] [PyArith F] : Prop where
  round4_unit : ∀ x : F, PyArith.round4 (clampUnit (PyArith.round4 (clampUnit x))) =
    PyArith.round4 (clampUnit x)

variable {event event' : EvidenceEvent F} {payload : Row F} {bus bus' : EvidenceBus F}
  {queueMax : ℤ} {m : BusMoment F} {ms : List (BusMoment F)} {arg : PublishArg F}

/-! ## 4. An event read back -/

/-- An event with its numbers as they are read back. -/
def reread (event : EvidenceEvent F) : EvidenceEvent F :=
  { event with
    severity := max 0 (min event.severity 100)
    confidence := clampUnit (PyArith.round4 event.confidence) }

theorem fromDict_toDict (event : EvidenceEvent F) :
    EvidenceEvent.fromDict event.toDict = some (reread event) := by
  obtain ⟨eventId, ts, source, kind, subject, severity, confidence, attrs, status, refs⟩ := event
  have hrefs : (refs.map fun ref => (.str ref : PyJson F)).map strOf = refs := by
    rw [List.map_map]
    exact List.map_id refs
  by_cases hstatus : status = [] <;> by_cases hnil : refs = [] <;>
    simp [EvidenceEvent.fromDict, EvidenceEvent.toDict, reread, requiredFields, getKey, dictAt,
      textsAt, toInt, toFloat, hstatus, hnil, guard, hrefs]

omit [PyFloat F] [PyRepr F] [PyConvert F] in
theorem toDict_eq (h : event.toDict = event'.toDict) : event.severity = event'.severity ∧
    PyArith.round4 event.confidence = PyArith.round4 event'.confidence := by
  simp only [EvidenceEvent.toDict, List.cons_append, List.cons.injEq, Prod.mk.injEq,
    PyJson.int.injEq, PyJson.float.injEq, true_and] at h
  exact ⟨h.2.2.2.2.2.1, h.2.2.2.2.2.2.1⟩

omit [PyRepr F] [PyConvert F] in
/-- What is read of an event is its payload when the numbers are as they are read. -/
theorem toDict_reread (h : ReadsBack event) : (reread event).toDict = event.toDict := by
  have hseverity : max 0 (min event.severity 100) = event.severity := by
    obtain ⟨hlo, hhi⟩ := h.severity
    omega
  simp only [reread, EvidenceEvent.toDict, hseverity, h.confidence]

omit [PyArith F] in
theorem fromDict_numbers (h : EvidenceEvent.fromDict payload = some event) :
    (0 ≤ event.severity ∧ event.severity ≤ 100) ∧ ∃ x, event.confidence = clampUnit x := by
  unfold EvidenceEvent.fromDict at h
  simp only [Option.bind_eq_bind, Option.bind_eq_some_iff] at h
  obtain ⟨_, -, attrs, -, severity, -, confidence, -, h⟩ := h
  obtain rfl := Option.some.inj h
  dsimp only
  exact ⟨⟨by omega, by omega⟩, confidence, rfl⟩

/-- A text of ASCII has no such break. -/
theorem unbroken_ascii {s : PyStr} (h : (s.all fun c => decide (c.val < 128)) = true) :
    Unbroken s := fun c hc => isWideBreak_small (of_decide_eq_true (List.all_eq_true.mp h c hc))

omit [PyConvert F] [PyArith F] in
theorem unbroken_strOf [PyPrintable F] {v : PyJson F} (h : AllStr Unbroken v) :
    Unbroken (strOf v) := by
  cases v with
  | null => exact unbroken_ascii (s := pyStr "None") (by decide)
  | bool b =>
    cases b
    · exact unbroken_ascii (s := pyStr "False") (by decide)
    · exact unbroken_ascii (s := pyStr "True") (by decide)
  | int n =>
    intro c hc
    obtain ⟨d, hd, rfl⟩ := List.mem_map.mp hc
    have hrange := printable_intText n d hd
    rw [ofNat_lt (by omega)]
    exact isWideBreak_small (by omega)
  | float x => exact PyPrintable.str x
  | str s => exact h
  | arr items => exact PyPrintable.arr items
  | obj members => exact PyPrintable.obj members

omit [PyFloat F] [PyRepr F] [PyConvert F] [PyArith F] in
theorem allStr_getKey {Q : PyStr → Prop} {key : PyStr} {value : PyJson F}
    (h : AllStr Q (.obj payload)) (hget : getKey key payload = some value) : AllStr Q value :=
  (allStrMembers_iff.mp h _ (getKey_mem hget)).2

omit [PyConvert F] [PyArith F] in
theorem unbroken_strOr [PyPrintable F] (key : PyStr) (h : UnbrokenRow payload) :
    Unbroken (strOr (getKey key payload)) := by
  unfold strOr
  split
  · rename_i value hget
    split
    · exact unbroken_strOf (allStr_getKey h hget)
    · exact fun _ hc => by cases hc
  · exact fun _ hc => by cases hc

/-- An event that is made of unbroken texts is published as one. -/
theorem unbroken_fromDict [PyPrintable F] (h : UnbrokenRow payload)
    (hevent : EvidenceEvent.fromDict payload = some event) : UnbrokenRow event.toDict := by
  unfold EvidenceEvent.fromDict at hevent
  simp only [Option.bind_eq_bind, Option.bind_eq_some_iff] at hevent
  obtain ⟨_, -, attrs, hattrs, severity, -, confidence, -, hevent⟩ := hevent
  obtain rfl := Option.some.inj hevent
  have hattrs' : AllStr Unbroken (.obj attrs) := by
    unfold dictAt at hattrs
    split at hattrs
    · rename_i members hget
      obtain rfl := Option.some.inj hattrs
      exact allStr_getKey h hget
    · cases hattrs
  have hrefs : ∀ ref ∈ textsAt "evidence_refs" payload, Unbroken ref := by
    unfold textsAt
    split
    · rename_i items hget
      intro ref href
      obtain ⟨item, hitem, rfl⟩ := List.mem_map.mp href
      exact unbroken_strOf (allStrItems_iff.mp (allStr_getKey h hget) item hitem)
    · exact fun _ href => by cases href
  refine allStrMembers_iff.mpr fun member hmember => ?_
  simp only [EvidenceEvent.toDict, List.mem_append, List.mem_cons, List.not_mem_nil,
    or_false] at hmember
  rcases hmember with ((rfl | rfl | rfl | rfl | rfl | rfl | rfl | rfl) | hmember) | hmember
  · exact ⟨unbroken_ascii (by decide), unbroken_strOr _ h⟩
  · exact ⟨unbroken_ascii (by decide), unbroken_strOr _ h⟩
  · exact ⟨unbroken_ascii (by decide), unbroken_strOr _ h⟩
  · exact ⟨unbroken_ascii (by decide), unbroken_strOr _ h⟩
  · exact ⟨unbroken_ascii (by decide), unbroken_strOr _ h⟩
  · exact ⟨unbroken_ascii (by decide), trivial⟩
  · exact ⟨unbroken_ascii (by decide), trivial⟩
  · exact ⟨unbroken_ascii (by decide), hattrs'⟩
  · split at hmember
    · cases hmember
    · obtain rfl := List.mem_singleton.mp hmember
      exact ⟨unbroken_ascii (by decide), unbroken_strOr _ h⟩
  · split at hmember
    · cases hmember
    · obtain rfl := List.mem_singleton.mp hmember
      refine ⟨unbroken_ascii (by decide), allStrItems_iff.mpr fun item hitem => ?_⟩
      obtain ⟨ref, href, rfl⟩ := List.mem_map.mp hitem
      exact hrefs ref href

/-! ## 5. Rows -/

omit [PyRepr F] [PyConvert F] [PyArith F] in
theorem fanoutLine_shown {R : ℕ → Prop} (h : AllStr (StrOf R) (.obj payload)) :
    ∃ line, fanoutLine payload = line ++ [10] ∧ Shown R line :=
  ⟨_, rfl, shown_rawText _ h⟩

theorem universalNewlines_of_not_mem {t : Text} (h : 13 ∉ t) : universalNewlines t = t := by
  fun_induction universalNewlines t with
  | case1 => simp at h
  | case2 => simp at h
  | case3 c rest _ _ ih => rw [ih fun hmem => h (List.mem_cons_of_mem _ hmem)]
  | case4 => rfl

omit [PyFloat F] [PyRepr F] [PyConvert F] [PyArith F] in
/-- Every text has only code points. -/
theorem allStr_codePoints (v : PyJson F) : AllStr (StrOf fun c => c < 0x110000) v :=
  allStr_of_forall (fun _ c _ => c.isLt) v

/-- The file of some payloads. -/
def fanoutFile (payloads : List (Row F)) : Text := payloads.flatMap fanoutLine

omit [PyRepr F] [PyConvert F] [PyArith F] in
theorem mem_fanoutFile {payloads : List (Row F)} {c : ℕ} (h : c ∈ fanoutFile payloads) :
    c < 0x110000 ∧ c ≠ 13 := by
  obtain ⟨payload, -, hc⟩ := List.mem_flatMap.mp h
  rcases List.mem_append.mp hc with hc | hc
  · have hshown := shown_rawText _ (allStr_codePoints (.obj payload)) c hc
    omega
  · obtain rfl := List.mem_singleton.mp hc
    decide

omit [PyRepr F] [PyConvert F] [PyArith F] in
theorem paired_fanoutFile (payloads : List (Row F)) : Paired (fanoutFile payloads) := by
  induction payloads with
  | nil => exact .nil
  | cons payload payloads ih =>
    exact ((paired_rawText _).append (.plain (by decide) .nil)).append ih

/-- The rows of the file. -/
def fanoutRows (payloads : List (Row F)) : List Text :=
  splitLines (universalNewlines (fanoutFile payloads))

omit [PyRepr F] [PyConvert F] [PyArith F] in
theorem cutLine_of_mem {payloads : List (Row F)} {row : Text} (h : row ∈ fanoutRows payloads) :
    CutLine row := by
  rw [fanoutRows, universalNewlines_of_not_mem fun h => (mem_fanoutFile h).2 rfl] at h
  exact cutLine_of_mem_splitFrom h (fun _ hc => by cases hc) (fun c hc => (mem_fanoutFile hc).1)
    (paired_fanoutFile payloads)

theorem cutLine_strip {row : Text} (h : CutLine row) : CutLine (stripRow row) := by
  have hfront := carries_cutLine.past (past_dropWhile (p := isSpaceChar) (by decide) row) h
  have hsplit : row.dropWhile isSpaceChar = stripRow row ++
      ((row.dropWhile isSpaceChar).reverse.takeWhile isSpaceChar).reverse := by
    rw [stripRow, ← List.reverse_append, List.takeWhile_append_dropWhile, List.reverse_reverse]
  exact CutLine.front (hsplit ▸ hfront)

/-- An event as it is read. -/
structure SettledEvent (event : EvidenceEvent F) : Prop where
  severity : 0 ≤ event.severity ∧ event.severity ≤ 100
  confidence : ∃ x, event.confidence = clampUnit x
  unbroken : UnbrokenRow event.toDict

theorem readRow_settled [PyPrintable F] {row : Text} (hrow : CutLine row)
    (h : readRow row = some payload) :
    ∃ event : EvidenceEvent F, payload = event.toDict ∧ SettledEvent event := by
  unfold readRow at h
  split at h
  · cases h
  split at h
  · rename_i members hloads
    obtain ⟨event, hevent, rfl⟩ := Option.map_eq_some_iff.mp h
    obtain ⟨hseverity, hconfidence⟩ := fromDict_numbers hevent
    have hunbroken := allStr_of_loads carries_cutLine (cutLine_strip hrow) hloads
    exact ⟨event, rfl, hseverity, hconfidence, unbroken_fromDict hunbroken hevent⟩
  · cases h

omit [PyRepr F] [PyConvert F] [PyArith F] in
theorem rawText_obj (payload : Row F) :
    ∃ middle, rawText (.obj payload) = chOpenBrace :: (middle ++ [chCloseBrace]) := by
  have hlast : ∀ members : Row F, ∃ front, rawMembers members = front ++ [chCloseBrace] := by
    intro members
    induction members with
    | nil => exact ⟨[], rfl⟩
    | cons member members ih =>
      obtain ⟨front, hfront⟩ := ih
      exact ⟨chComma :: 32 :: (rawMember member ++ front), by rw [rawMembers, hfront]; simp⟩
  cases payload with
  | nil => exact ⟨[], rfl⟩
  | cons member members =>
    obtain ⟨front, hfront⟩ := hlast members
    exact ⟨rawMember member ++ front, by rw [rawText, hfront]; simp⟩

omit [PyRepr F] [PyConvert F] [PyArith F] in
theorem strip_rawText (payload : Row F) : stripRow (rawText (.obj payload)) =
    rawText (.obj payload) := by
  obtain ⟨middle, hmiddle⟩ := rawText_obj payload
  have hopen : isSpaceChar chOpenBrace = false := by decide
  have hclose : isSpaceChar chCloseBrace = false := by decide
  rw [hmiddle, stripRow, List.dropWhile_cons_of_neg (by simp [hopen]), ← List.cons_append,
    List.reverse_append, List.reverse_singleton, List.singleton_append,
    List.dropWhile_cons_of_neg (by simp [hclose]), List.reverse_cons, List.reverse_reverse]

/-- The row of an event that is read back gives its payload. -/
theorem readRow_rawText (h : ReadsBack event) (hdistinct : Distinct (.obj event.toDict)) :
    readRow (rawText (.obj event.toDict)) = some event.toDict := by
  obtain ⟨c, tail, hc, -⟩ := starts_rawText (.obj event.toDict)
  rw [readRow, strip_rawText, if_neg (by rw [hc]; simp), loads_rawText hdistinct]
  simp only [fromDict_toDict, Option.map_some, toDict_reread h]

omit [PyRepr F] [PyConvert F] [PyArith F] in
theorem fanoutRows_eq {payloads : List (Row F)} (h : ∀ payload ∈ payloads, UnbrokenRow payload) :
    fanoutRows payloads = payloads.map fun payload => rawText (.obj payload) := by
  have hfile : fanoutFile payloads =
      (payloads.map fun payload => rawText (.obj payload)).flatMap (· ++ [10]) := by
    rw [List.flatMap_map]
    rfl
  rw [fanoutRows, universalNewlines_of_not_mem fun h => (mem_fanoutFile h).2 rfl, hfile]
  refine splitLines_lines fun line hline c hc => ?_
  obtain ⟨payload, hpayload, rfl⟩ := List.mem_map.mp hline
  obtain ⟨hlow, hshown⟩ := shown_rawText _ (h payload hpayload) c hc
  simp only [isBreak, isWideBreak, List.mem_cons, List.not_mem_nil, or_false,
    decide_eq_false_iff_not, not_or] at hshown ⊢
  omega

omit [PyFloat F] [PyRepr F] [PyConvert F] in
theorem distinct_toDict (h : Distinct (.obj event.attrs)) : Distinct (.obj event.toDict) := by
  have hrefs := distinctItems_str (G := F) event.evidenceRefs
  unfold EvidenceEvent.toDict
  by_cases hstatus : event.status = [] <;> by_cases hnil : event.evidenceRefs = [] <;>
    simp [Distinct, DistinctMembers, DistinctMember, hstatus, hnil] <;>
    simp_all [Distinct]

/-! ## 6. Runs -/

/-- How a publish comes out: it raises and leaves the file's text, or the line of its event's payload
is put to the end. -/
inductive Publishes (bus : EvidenceBus F) (arg : PublishArg F) :
    EvidenceBus F × Option (Row F) → Prop
  | raises {bus' : EvidenceBus F} : bus'.fanout.getD [] = bus.fanout.getD [] →
      (bus'.fanout = none → bus.fanout = none) → Publishes bus arg (bus', none)
  | returns {bus' : EvidenceBus F} {event : EvidenceEvent F} : arg.event? = some event →
      bus'.fanout = some (bus.fanout.getD [] ++ fanoutLine event.toDict) →
      Publishes bus arg (bus', some event.toDict)

theorem publishes (queueMax : ℤ) (bus : EvidenceBus F) (arg : PublishArg F) :
    Publishes bus arg (bus.publish queueMax arg) := by
  unfold EvidenceBus.publish
  cases hevent : arg.event? with
  | none => exact .raises rfl id
  | some event =>
    dsimp only
    split
    · exact .raises rfl id
    split
    · exact .returns hevent rfl
    · exact .raises rfl nofun

/-- What a returned payload is of. -/
def Returned (m : BusMoment F) : Prop :=
  ∀ payload, m.returned = some payload →
    ∃ arg event, m.call = .publish arg ∧ arg.event? = some event ∧ payload = event.toDict

theorem returned_step (h : BusStep queueMax bus m bus') : Returned m := by
  intro payload hpayload
  obtain ⟨call, returned⟩ := m
  cases call with
  | publish arg =>
    have hpublish : (bus', returned) = bus.publish queueMax arg := h
    have hcases := publishes queueMax bus arg
    rw [← hpublish] at hcases
    cases hcases with
    | raises => cases hpayload
    | returns hevent _ =>
      obtain rfl := Option.some.inj hpayload
      exact ⟨arg, _, rfl, hevent, rfl⟩
  | drain limit =>
    have hnone : returned = none := h.2
    rw [hnone] at hpayload
    cases hpayload

/-- The file has the lines of what was published. -/
structure Recorded (ms : List (BusMoment F)) (bus : EvidenceBus F) : Prop where
  file : bus.fanout.getD [] = fanoutFile (published ms)
  absent : bus.fanout = none → published ms = []

omit [PyFloat F] [PyRepr F] [PyConvert F] [PyArith F] in
theorem published_snoc : published (ms ++ [m]) = published ms ++ m.returned.toList := by
  rw [published, List.filterMap_append, ← published]
  cases hreturned : m.returned <;> simp [hreturned]

theorem Recorded.step (h : Recorded ms bus) (hstep : BusStep queueMax bus m bus') :
    Recorded (ms ++ [m]) bus' := by
  obtain ⟨call, returned⟩ := m
  cases call with
  | publish arg =>
    have hpublish : (bus', returned) = bus.publish queueMax arg := hstep
    have hcases := publishes queueMax bus arg
    rw [← hpublish] at hcases
    cases hcases with
    | raises hfile habsent =>
      refine ⟨?_, fun hnone => ?_⟩
      · rw [published_snoc, hfile, h.file]
        simp
      · rw [published_snoc, h.absent (habsent hnone)]
        rfl
    | returns _ hfile =>
      refine ⟨?_, fun hnone => ?_⟩
      · rw [published_snoc, hfile, Option.getD_some, h.file, fanoutFile, fanoutFile,
          List.flatMap_append]
        simp
      · rw [hfile] at hnone
        cases hnone
  | drain limit =>
    obtain ⟨hdrain, hnone⟩ : bus' = bus.drain limit ∧ returned = none := hstep
    have hfanout : (bus.drain limit).fanout = bus.fanout := by
      unfold EvidenceBus.drain
      split
      · split <;> rfl
      · rfl
    subst hnone
    rw [hdrain]
    refine ⟨?_, fun hnone => ?_⟩
    · rw [published_snoc, hfanout, h.file]
      simp
    · rw [published_snoc, h.absent (hfanout ▸ hnone)]
      rfl

theorem recorded_of_run (h : Run (BusStep queueMax) EvidenceBus.new ms bus) : Recorded ms bus :=
  h.history (P := Recorded) (fun _ _ _ _ hrecorded hstep => hrecorded.step hstep) ⟨rfl, fun _ => rfl⟩

/-- Every published payload is of an event of a publish that returned it. -/
theorem mem_published (h : Run (BusStep queueMax) EvidenceBus.new ms bus)
    (hpayload : payload ∈ published ms) : ∃ m ∈ ms, ∃ arg event, m.call = .publish arg ∧
      m.returned = some payload ∧ arg.event? = some event ∧ payload = event.toDict := by
  obtain ⟨m, hm, hreturned⟩ := List.mem_filterMap.mp hpayload
  obtain ⟨arg, event, hcall, hevent, heq⟩ :=
    h.labels (fun _ _ _ hstep => returned_step hstep) m hm payload hreturned
  exact ⟨m, hm, arg, event, hcall, hreturned, hevent, heq⟩

theorem readFanout_none (h : Recorded ms bus) :
    bus.readFanout none = (fanoutRows (published ms)).filterMap readRow := by
  unfold EvidenceBus.readFanout
  cases hfanout : bus.fanout with
  | none =>
    rw [h.absent hfanout]
    rfl
  | some file =>
    have hfile := h.file
    rw [hfanout, Option.getD_some] at hfile
    rw [hfile]
    rfl

theorem readFanout_some (h : Recorded ms bus) {n : ℕ} (hn : 0 < n) :
    bus.readFanout (some n) = (lastOf n (fanoutRows (published ms))).filterMap readRow := by
  unfold EvidenceBus.readFanout
  cases hfanout : bus.fanout with
  | none =>
    have hnil : lastOf n (fanoutRows ([] : List (Row F))) = [] := List.drop_nil
    rw [h.absent hfanout, hnil]
    rfl
  | some file =>
    have hfile := h.file
    rw [hfanout, Option.getD_some] at hfile
    rw [hfile]
    simp only [Int.natCast_pos.mpr hn, if_true, Int.toNat_natCast]
    rfl

omit [PyFloat F] [PyRepr F] [PyConvert F] [PyArith F] in
theorem distinctMembers_iff {members : Row F} :
    DistinctMembers members ↔ ∀ member ∈ members, Distinct member.2 := by
  induction members with
  | nil => simp [DistinctMembers]
  | cons member members ih =>
    obtain ⟨key, value⟩ := member
    rw [DistinctMembers, ih, List.forall_mem_cons, DistinctMember]

omit [PyArith F] in
theorem distinct_event (h : arg.event? = some event) : Distinct (.obj event.attrs) := by
  cases arg with
  | event e hdistinct =>
    obtain rfl := Option.some.inj h
    exact hdistinct
  | dict payload hdistinct =>
    unfold PublishArg.event? EvidenceEvent.fromDict at h
    simp only [Option.bind_eq_bind, Option.bind_eq_some_iff] at h
    obtain ⟨_, -, attrs, hattrs, severity, -, confidence, -, h⟩ := h
    obtain rfl := Option.some.inj h
    unfold dictAt at hattrs
    split at hattrs
    · rename_i members hget
      obtain rfl := Option.some.inj hattrs
      exact distinctMembers_iff.mp hdistinct.2 _ (getKey_mem hget)
    · cases hattrs

theorem readsBack_iff [PyUnit F] (h : arg.event? = some event) :
    arg.ReadsBack ↔ ReadsBack event := by
  cases arg with
  | event e _ =>
    obtain rfl := Option.some.inj h
    exact Iff.rfl
  | dict payload _ =>
    constructor
    · intro hreads
      obtain ⟨hseverity, x, hconfidence⟩ := fromDict_numbers h
      refine ⟨hseverity, ?_, hreads event h⟩
      rw [hconfidence, PyUnit.round4_unit]
    · intro hreads event' hevent'
      obtain rfl := Option.some.inj (h.symm.trans hevent')
      exact hreads.unbroken

omit [PyRepr F] [PyConvert F] in
theorem readsBack_of_settled [PyUnit F] (h : SettledEvent event')
    (heq : event.toDict = event'.toDict) : ReadsBack event := by
  obtain ⟨hseverity, hconfidence⟩ := toDict_eq heq
  obtain ⟨x, hx⟩ := h.confidence
  refine ⟨hseverity ▸ h.severity, ?_, heq ▸ h.unbroken⟩
  rw [hconfidence, hx, PyUnit.round4_unit]

omit [PyFloat F] [PyRepr F] [PyConvert F] [PyArith F] in
theorem map_lastOf {α β : Type} (f : α → β) (n : ℕ) (rows : List α) :
    lastOf n (rows.map f) = (lastOf n rows).map f := by
  rw [lastOf, lastOf, List.length_map, List.map_drop]

/-- **What is published is read back exactly when it settles.**  `read_fanout` gives the published
payloads in their order, and the last of them when it is asked for some, exactly when every event of
a publish that returned is one that reads back. -/
theorem fanout_reads_back_iff [PyPrintable F] [PyUnit F]
    (h : Run (BusStep queueMax) EvidenceBus.new ms bus) :
    (bus.readFanout none = published ms ∧
      ∀ n : ℕ, 0 < n → bus.readFanout (some n) = lastOf n (published ms)) ↔
    ∀ m ∈ ms, ∀ arg payload, m.call = .publish arg → m.returned = some payload →
      arg.ReadsBack := by
  have hrecorded := recorded_of_run h
  constructor
  · rintro ⟨hread, -⟩ m hm arg payload hcall hreturned
    obtain ⟨arg', event, hcall', hevent, rfl⟩ :=
      h.labels (fun _ _ _ hstep => returned_step hstep) m hm payload hreturned
    obtain rfl : arg = arg' := BusCall.publish.inj (hcall.symm.trans hcall')
    have hmem : event.toDict ∈ bus.readFanout none := by
      rw [hread]
      exact List.mem_filterMap.mpr ⟨m, hm, hreturned⟩
    rw [readFanout_none hrecorded] at hmem
    obtain ⟨row, hrow, hpayload⟩ := List.mem_filterMap.mp hmem
    obtain ⟨event', heq, hsettled⟩ := readRow_settled (cutLine_of_mem hrow) hpayload
    exact (readsBack_iff hevent).mpr (readsBack_of_settled hsettled heq)
  · intro hall
    have hevents : ∀ payload ∈ published ms, ∃ event, payload = event.toDict ∧ ReadsBack event ∧
        Distinct (.obj event.toDict) := by
      intro payload hpayload
      obtain ⟨m, hm, arg, event, hcall, hreturned, hevent, heq⟩ := mem_published h hpayload
      exact ⟨event, heq, (readsBack_iff hevent).mp (hall m hm arg payload hcall hreturned),
        distinct_toDict (distinct_event hevent)⟩
    have hrows : fanoutRows (published ms) =
        (published ms).map fun payload => rawText (.obj payload) :=
      fanoutRows_eq fun payload hpayload => by
        obtain ⟨event, rfl, hreads, -⟩ := hevents payload hpayload
        exact hreads.unbroken
    have hback : ∀ payloads : List (Row F), (∀ payload ∈ payloads, payload ∈ published ms) →
        (payloads.map fun payload => rawText (.obj payload)).filterMap readRow = payloads := by
      intro payloads hsub
      rw [List.filterMap_map]
      conv_rhs => rw [← List.filterMap_some (l := payloads)]
      refine List.filterMap_congr fun payload hpayload => ?_
      obtain ⟨event, rfl, hreads, hdistinct⟩ := hevents payload (hsub payload hpayload)
      exact readRow_rawText hreads hdistinct
    constructor
    · rw [readFanout_none hrecorded, hrows, hback _ fun _ hmem => hmem]
    · intro n hn
      rw [readFanout_some hrecorded hn, hrows, map_lastOf, hback _ fun _ hmem => ?_]
      exact List.mem_of_mem_drop hmem

end Fanout

/-! ## 7. A line separator in a note -/

section Sample

instance : PyPrintable Whole where
  str x c hc := by
    obtain ⟨d, hd, rfl⟩ := List.mem_map.mp hc
    have hrange := printable_float x d hd
    rw [ofNat_lt (by omega)]
    exact isWideBreak_small (by omega)
  arr _ := unbroken_ascii (s := [91]) (by decide)
  obj _ := unbroken_ascii (s := [123]) (by decide)

instance : PyUnit Whole where
  round4_unit x := by
    have hzero : (lit "0.0" : Whole) = ⟨0⟩ := by decide
    have hone : (lit "1.0" : Whole) = ⟨1⟩ := by decide
    obtain ⟨n⟩ := x
    simp only [PyArith.round4, clampUnit, maxFloat, minFloat, PyFloat.lt, Whole.number, hzero,
      hone, decide_eq_true_eq]
    split_ifs <;> simp_all

/-- An event with a note. -/
def noted (note : PyStr) : Row Whole :=
  [(pyStr "event_id", .str (pyStr "e1")), (pyStr "ts", .str (pyStr "t")),
    (pyStr "source", .str (pyStr "s")), (pyStr "kind", .str (pyStr "k")),
    (pyStr "subject", .str (pyStr "x")), (pyStr "severity", .int 5),
    (pyStr "confidence", .float ⟨1⟩), (pyStr "attrs", .obj [(pyStr "note", .str note)])]

theorem distinct_noted (note : PyStr) : Distinct (.obj (noted note)) := by
  simp [Distinct, noted, DistinctMembers, DistinctMember]

theorem unbroken_noted {note : PyStr} (h : Unbroken note) : UnbrokenRow (noted note) := by
  refine ⟨⟨?_, ?_⟩, ⟨?_, ?_⟩, ⟨?_, ?_⟩, ⟨?_, ?_⟩, ⟨?_, ?_⟩, ⟨?_, trivial⟩, ⟨?_, trivial⟩,
    ⟨?_, ⟨?_, h⟩, trivial⟩, trivial⟩
  all_goals exact unbroken_ascii (by decide)

/-- The event is published first. -/
def publishNoted (note : PyStr) : EvidenceBus Whole × Option (Row Whole) :=
  EvidenceBus.new.publish 1024 (.dict (noted note) (distinct_noted note))

def notedMoment (note : PyStr) : BusMoment Whole :=
  ⟨.publish (.dict (noted note) (distinct_noted note)), (publishNoted note).2⟩

theorem notedMoment_run (note : PyStr) :
    Run (BusStep 1024) EvidenceBus.new [notedMoment note] (publishNoted note).1 := by
  refine Run.single ?_
  rfl

/-- A note of ASCII is read back. -/
theorem fanout_reads_back_iff_noted : (published [notedMoment (pyStr "ok")]).length = 1 ∧
    (publishNoted (pyStr "ok")).1.readFanout none = published [notedMoment (pyStr "ok")] := by
  refine ⟨by decide +kernel, ?_⟩
  have hreads := (fanout_reads_back_iff (notedMoment_run (pyStr "ok"))).mpr ?_
  · exact hreads.1
  · intro m hm arg payload hcall _
    obtain rfl := List.mem_singleton.mp hm
    obtain rfl := BusCall.publish.inj hcall
    exact fun event hevent => unbroken_fromDict (unbroken_noted (unbroken_ascii (by decide))) hevent

/-- Of a note with a line separator in it nothing is read. -/
theorem line_separator_lost : ¬ ∀ (ms : List (BusMoment Whole)) (bus : EvidenceBus Whole),
    Run (BusStep 1024) EvidenceBus.new ms bus →
    bus.readFanout none = published ms ∧
      ∀ n : ℕ, 0 < n → bus.readFanout (some n) = lastOf n (published ms) := by
  intro h
  have hlength := congrArg List.length (h _ _ (notedMoment_run [97, 0x2028, 98])).1
  exact absurd hlength (by decide +kernel)

end Sample

end AzazelEdge.EvidencePlane
