/-
# Subjects and their parsers

The subject `src->dst:port/proto` of a flow and the regular expressions that take it apart again:
`_parse_subject` of the SOC and NOC evaluators, of the client impact scorer, of the SoT diff and of
the correlator, and `_parse_port`.  The destination is what stands before the first colon, so that of
an IPv6 destination only the first group is read.

* `subject_decoded`: every parser reads back what was encoded, exactly for an IPv4 destination.
* `destinations_merged`: two IPv6 destinations in one incident, one pair and one target.
-/
import AzazelEdge.EvidencePlane.Event
import AzazelEdge.Evaluators.Noc
import AzazelEdge.Decision.Payload
import AzazelEdge.Lib.IpAddr
import AzazelEdge.Lib.Sha256
import AzazelEdge.Lib.Text

namespace AzazelEdge.EvidencePlane

open AzazelEdge.Lib AzazelEdge.Lib.Py AzazelEdge.Audit AzazelEdge.Arbiter AzazelEdge.Evaluators

/-! ## 1. The parsers -/

def chDash : CodePoint := 45
def chArrow : PyStr := pyStr "->"
def colon : CodePoint := 58
def slash : CodePoint := 47
def bar : CodePoint := 124

/-- A match of `(?P<src>[^-]+)->(?P<dst>[^:]+):` at the beginning, and the text after it.  Neither
group can be shorter than its longest match: what follows it would be of the group itself. -/
def matchSubject (subject : PyStr) : Option (PyStr × PyStr × PyStr) :=
  let src := subject.takeWhile (· ≠ chDash)
  let arrow := subject.dropWhile (· ≠ chDash)
  if src = [] ∨ arrow.take 2 ≠ chArrow then none
  else
    let tail := arrow.drop 2
    let dst := tail.takeWhile (· ≠ colon)
    match tail.dropWhile (· ≠ colon) with
    | [] => none
    | _ :: after => if dst = [] then none else some (src, dst, after)

/-- The two groups. -/
def endpointsOf (subject : PyStr) : PyStr × PyStr :=
  match matchSubject subject with
  | some (src, dst, _) => (src, dst)
  | none => ([], [])

/-- `_parse_subject` of `evaluators/soc.py`. -/
def Soc.parseSubject (subject : PyStr) : PyStr × PyStr := endpointsOf subject

/-- `_parse_subject` of `evaluators/noc.py`. -/
def Noc.parseSubject (subject : PyStr) : PyStr × PyStr := endpointsOf subject

/-- `_parse_subject` of `impact/client.py`. -/
def Client.parseSubject (subject : PyStr) : PyStr × PyStr := endpointsOf subject

/-- `_parse_subject` of `sot/diff.py`. -/
def SotDiff.parseSubject (subject : PyStr) : PyStr × PyStr := endpointsOf subject

section Ports

variable [PyDigits]

def isDecimal (c : CodePoint) : Bool := (PyDigits.decimal c).isSome

/-- `int` of decimal digits. -/
def intOfDecimals (digits : PyStr) : ℤ :=
  ofDigits (digits.map fun c => 48 + (PyDigits.decimal c).getD 0)

/-- `_parse_subject` of `correlation/advanced.py`: a port has to follow. -/
def Advanced.parseSubject (subject : PyStr) : PyStr × PyStr × ℤ :=
  match matchSubject subject with
  | some (src, dst, after) =>
    let port := after.takeWhile isDecimal
    if port = [] then ([], [], 0) else (src, dst, intOfDecimals port)
  | none => ([], [], 0)

/-- `(?:/|$)` matches here. -/
def endsPort (t : PyStr) : Bool := t.head? = some slash || decide (t = []) || decide (t = [10])

/-- `_parse_port` of `evaluators/soc.py`: the first place where `:(?P<port>\d+)(?:/|$)` matches. -/
def Soc.parsePort : PyStr → ℤ
  | [] => 0
  | c :: rest =>
    let port := rest.takeWhile isDecimal
    if c = colon ∧ port ≠ [] ∧ endsPort (rest.dropWhile isDecimal) then intOfDecimals port
    else Soc.parsePort rest

end Ports

/-! ## 2. What is made of a payload -/

variable {F : Type} [PyFloat F] [PyRepr F] [PyConvert F]

/-- `str(payload.get('subject') or '')`. -/
def subjectOf (payload : Row F) : PyStr := strField "subject" payload

/-- `a or b` of texts. -/
def orElse (a b : PyStr) : PyStr := if a = [] then b else a

/-- The source and the destination that the SOC evaluator works with. -/
def socEndpoints (payload : Row F) : PyStr × PyStr :=
  let (src, dst) := Soc.parseSubject (subjectOf payload)
  (orElse src (attrStr "src_ip" payload), orElse dst (attrStr "dst_ip" payload))

section Keys

variable [PyDigits]

/-- `int(attrs.get('target_port') or attrs.get('dst_port') or _parse_port(subject) or 0)`. -/
def socPort (payload : Row F) : Option ℤ :=
  let port := pyOr (attr "target_port" payload) (attr "dst_port" payload)
  if isTruthy port then intOr0 port else some (Soc.parsePort (subjectOf payload))

/-- The attack type of an incident. -/
def attackType (payload : Row F) : PyStr :=
  PyConvert.lower F (Decision.strip (strOrDefault (pyStr "alert")
    (pyOr (pyOr (attr "attack_type" payload) (attr "category" payload))
      (getKey (pyStr "kind") payload))))

/-- `fingerprint` of `_evaluate_incident_campaign_state`. -/
def fingerprint (payload : Row F) : Option PyStr := do
  let (src, dst) := socEndpoints payload
  let port ← socPort payload
  return src ++ bar :: (dst ++ bar :: (ofText (intText port) ++ bar :: attackType payload))

/-- The row of `_evaluate_asset_target_criticality` that a payload is counted in; none without a
destination. -/
def criticalTarget (payload : Row F) : Option (Option PyStr) := do
  let (_, dst) := socEndpoints payload
  if dst = [] then return none
  let port ← socPort payload
  return some (if port = 0 then dst else dst ++ colon :: ofText (intText port))

/-- `_extract_endpoints` of the correlator. -/
def extractEndpoints (payload : Row F) : Option (PyStr × PyStr × ℤ) := do
  let src := attrStr "src_ip" payload
  let dst := attrStr "dst_ip" payload
  let port ← intOr0 (pyOr (attr "dst_port" payload) (attr "target_port" payload))
  if src ≠ [] ∧ dst ≠ [] then return (src, dst, port)
  let (subjSrc, subjDst, subjPort) := Advanced.parseSubject (subjectOf payload)
  return (orElse src subjSrc, orElse dst subjDst, if port = 0 then subjPort else port)

end Keys

/-! ## 3. A subject taken apart -/

theorem flowSubject_eq (src dst : PyStr) (port : ℤ) (proto : PyStr) :
    flowSubject src dst port proto =
      src ++ chDash :: 62 :: (dst ++ colon :: (ofText (intText port) ++ slash :: proto)) := by
  simp [flowSubject, show pyStr "->" = [chDash, 62] from rfl, show pyStr ":" = [colon] from rfl,
    show pyStr "/" = [slash] from rfl]

theorem takeWhile_ne {a : CodePoint} {xs ys : PyStr} (h : a ∉ xs) :
    (xs ++ a :: ys).takeWhile (· ≠ a) = xs := by
  have hall : ∀ x ∈ xs, decide (x ≠ a) = true := fun x hx =>
    decide_eq_true fun heq => h (heq ▸ hx)
  rw [List.takeWhile_append_of_pos hall]
  simp

theorem dropWhile_ne {a : CodePoint} {xs ys : PyStr} (h : a ∉ xs) :
    (xs ++ a :: ys).dropWhile (· ≠ a) = a :: ys := by
  have hall : ∀ x ∈ xs, decide (x ≠ a) = true := fun x hx =>
    decide_eq_true fun heq => h (heq ▸ hx)
  rw [List.dropWhile_append_of_pos hall]
  simp

/-- **A subject whose endpoints have no separator in them is cut at its own separators.** -/
theorem matchSubject_text {src dst after : PyStr} (hsrc : src ≠ []) (hdash : chDash ∉ src)
    (hdst : dst ≠ []) (hcolon : colon ∉ dst) :
    matchSubject (src ++ chDash :: 62 :: (dst ++ colon :: after)) = some (src, dst, after) := by
  have harrow : (chDash :: 62 :: (dst ++ colon :: after)).take 2 = chArrow := rfl
  have hdrop : (chDash :: 62 :: (dst ++ colon :: after)).drop 2 = dst ++ colon :: after := rfl
  unfold matchSubject
  rw [takeWhile_ne hdash, dropWhile_ne hdash]
  simp only [harrow, hdrop, takeWhile_ne hcolon, dropWhile_ne hcolon]
  rw [if_neg (by simp [hsrc]), if_neg hdst]

/-- **No destination that is read has a colon.** -/
theorem colon_not_mem (subject : PyStr) : colon ∉ (endpointsOf subject).2 := by
  have hstop : ∀ t : PyStr, colon ∉ t.takeWhile (· ≠ colon) := by
    intro t hmem
    have hall := List.all_takeWhile (p := fun c => decide (c ≠ colon)) (l := t)
    simpa using List.all_eq_true.mp hall colon hmem
  unfold endpointsOf
  split
  · rename_i src dst after h
    unfold matchSubject at h
    simp only at h
    split at h
    · cases h
    · split at h
      · cases h
      · split at h
        · cases h
        · obtain ⟨-, rfl, -⟩ := Prod.mk.inj (Option.some.inj h) |>.imp_right Prod.mk.inj
          exact hstop _
  · simp

section Ports

variable [PyDigits]

omit [PyDigits] in
theorem digit_lt {n : ℕ} (h : isDigit n = true) : n < 128 := by
  simp only [isDigit, Bool.and_eq_true, decide_eq_true_eq] at h
  omega

omit [PyDigits] in
theorem val_ofNat {n : ℕ} (h : n < 128) : (Fin.ofNat 0x110000 n).val = n :=
  Nat.mod_eq_of_lt (by omega)

theorem isDecimal_of_digit {c : CodePoint} (h : isDigit c.val = true) : isDecimal c = true := by
  rw [isDecimal, PyDigits.ascii c (digit_lt h), if_pos h]
  rfl

theorem not_isDecimal {c : CodePoint} (hlt : c.val < 128) (h : isDigit c.val = false) :
    isDecimal c = false := by
  rw [isDecimal, PyDigits.ascii c hlt, if_neg (by simp [h])]
  rfl

/-- The digits of a port. -/
theorem portText (port : ℕ) : ofText (intText port) ≠ [] ∧
    (∀ c ∈ ofText (intText port), isDecimal c = true) ∧
    intOfDecimals (ofText (intText port)) = port := by
  have hport : intText port = natText port := by
    rw [intText, if_neg (by omega), Int.natAbs_natCast]
  obtain ⟨hne, hdigits⟩ := digits_natText port
  rw [hport]
  refine ⟨by simpa [ofText] using hne, fun c hc => ?_, ?_⟩
  · obtain ⟨n, hn, rfl⟩ := List.mem_map.mp hc
    have hdigit := hdigits n hn
    exact isDecimal_of_digit (by rw [val_ofNat (digit_lt hdigit)]; exact hdigit)
  · have hback : (ofText (natText port)).map (fun c => 48 + (PyDigits.decimal c).getD 0) =
        natText port := by
      rw [ofText, List.map_map]
      refine (List.map_congr_left fun n hn => ?_).trans (List.map_id _)
      have hdigit := hdigits n hn
      have hval := val_ofNat (digit_lt hdigit)
      have hdecimal : PyDigits.decimal (Fin.ofNat 0x110000 n) = some (n - 48) := by
        rw [PyDigits.ascii _ (by rw [hval]; exact digit_lt hdigit), hval, if_pos hdigit]
      have hge : 48 ≤ n := by
        simp only [isDigit, Bool.and_eq_true, decide_eq_true_eq] at hdigit
        omega
      show 48 + (PyDigits.decimal (Fin.ofNat 0x110000 n)).getD 0 = id n
      rw [hdecimal, Option.getD_some, id]
      omega
    rw [intOfDecimals, hback, ofDigits_natText]

/-- A port ends where the digits end. -/
theorem takeWhile_port (port : ℕ) (rest : PyStr) :
    (ofText (intText port) ++ slash :: rest).takeWhile isDecimal = ofText (intText port) ∧
      (ofText (intText port) ++ slash :: rest).dropWhile isDecimal = slash :: rest := by
  have hslash : isDecimal slash = false := not_isDecimal (by decide) (by decide)
  have hdigits := (portText port).2.1
  rw [List.takeWhile_append_of_pos hdigits, List.dropWhile_append_of_pos hdigits]
  simp [hslash]

/-- Nothing is found in a text without a slash that something else than a port follows. -/
theorem parsePort_skip {u v : PyStr} (hu : slash ∉ u) (hv : v.head? = some chDash) :
    Soc.parsePort (u ++ v) = Soc.parsePort v := by
  induction u with
  | nil => rfl
  | cons c u ih =>
    have hends : endsPort ((u ++ v).dropWhile isDecimal) = false := by
      have hdash : isDecimal chDash = false := not_isDecimal (by decide) (by decide)
      obtain ⟨v, rfl⟩ : ∃ v', v = chDash :: v' := by
        cases v with
        | nil => cases hv
        | cons d v => exact ⟨v, by rw [Option.some.inj hv]⟩
      rw [List.dropWhile_append]
      split
      · rw [List.dropWhile_cons_of_neg (by simp [hdash])]
        simp [endsPort, chDash, slash]
      · rename_i hne
        cases hdrop : u.dropWhile isDecimal with
        | nil => simp [hdrop] at hne
        | cons d u' =>
          have hmem : d ∈ u := (List.dropWhile_sublist isDecimal).subset (hdrop ▸ List.mem_cons_self)
          have hd : d ≠ slash := fun heq => hu (heq ▸ List.mem_cons_of_mem _ hmem)
          simp [endsPort, hd]
    rw [List.cons_append, Soc.parsePort]
    simp only [hends]
    rw [if_neg (by simp)]
    exact ih fun hmem => hu (List.mem_cons_of_mem _ hmem)

/-- Nothing is found before the first colon. -/
theorem parsePort_no_colon {u v : PyStr} (hu : colon ∉ u) :
    Soc.parsePort (u ++ v) = Soc.parsePort v := by
  induction u with
  | nil => rfl
  | cons c u ih =>
    have hc : c ≠ colon := fun heq => hu (heq ▸ List.mem_cons_self)
    rw [List.cons_append, Soc.parsePort]
    simp only [hc, false_and, if_false]
    exact ih fun hmem => hu (List.mem_cons_of_mem _ hmem)

/-- **The port of a subject is found**, also behind a source with colons. -/
theorem parsePort_text {src dst rest : PyStr} {port : ℕ} (hsrc : slash ∉ src)
    (hcolon : colon ∉ dst) :
    Soc.parsePort (src ++ chDash :: 62 :: (dst ++ colon :: (ofText (intText port) ++ slash :: rest))) =
      port := by
  obtain ⟨hne, -, hvalue⟩ := portText port
  obtain ⟨htake, hdrop⟩ := takeWhile_port port rest
  have hhead : colon ∉ chDash :: 62 :: dst := by
    simpa [chDash, colon] using hcolon
  rw [parsePort_skip hsrc rfl, show chDash :: 62 :: (dst ++ colon :: (ofText (intText port) ++
    slash :: rest)) = (chDash :: 62 :: dst) ++ colon :: (ofText (intText port) ++ slash :: rest)
    from rfl, parsePort_no_colon hhead, Soc.parsePort]
  have hends : endsPort (slash :: rest) = true := by simp [endsPort]
  simp only [htake, hdrop, hvalue, hends]
  rw [if_pos ⟨trivial, hne, trivial⟩]

end Ports

/-! ## 4. Addresses -/

/-- No separator of a subject or of a fingerprint is a character of an address. -/
theorem address_chars {text : String} {address : IpAddr} (h : IpAddr.parse text = some address) :
    pyStr text ≠ [] ∧ chDash ∉ pyStr text ∧ slash ∉ pyStr text ∧ bar ∉ pyStr text := by
  have hno : ∀ d : Char, ¬IpAddr.AddressChar d → Fin.ofNat 0x110000 d.toNat ∉ pyStr text := by
    intro d hd hmem
    obtain ⟨c, hc, hval⟩ := mem_pyStr.mp hmem
    have hlt : d.toNat < 0x110000 := by
      have := d.valid
      simp only [UInt32.isValidChar, Nat.isValidChar] at this
      show d.val.toNat < 0x110000
      omega
    have hcd : c = d := Char.toNat_inj.mp (hval.trans (Nat.mod_eq_of_lt hlt))
    exact hd (hcd ▸ IpAddr.addressChar_of_parse h c hc)
  refine ⟨?_, hno '-' (by decide), hno '/' (by decide), hno '|' (by decide)⟩
  intro hnil
  have hlist : text.toList = [] := by simpa [pyStr] using hnil
  exact IpAddr.ne_nil_of_parse h hlist

/-- **A colon in an address makes it one of IPv6.** -/
theorem colon_iff_v6 {text : String} {address : IpAddr} (h : IpAddr.parse text = some address) :
    colon ∉ pyStr text ↔ ∃ octets, address = .v4 octets := by
  rw [← IpAddr.colon_iff h, mem_pyStr]
  refine not_congr ⟨fun ⟨c, hc, hval⟩ => ?_, fun hc => ⟨':', hc, rfl⟩⟩
  have hcolon : c = ':' := Char.toNat_inj.mp hval
  exact hcolon ▸ hc

/-! ## 5. Events about a flow -/

/-- The two kinds of record. -/
inductive Sensor where
  | suricata
  | flow

/-- Where a record has its addresses. -/
def Sensor.fields : Sensor → Row F → Row F
  | .suricata, record => asDict (getKey (pyStr "normalized") record)
  | .flow, record => record

/-- What a record has as its port. -/
def Sensor.port (sensor : Sensor) (record : Row F) : Option (PyJson F) :=
  match sensor with
  | .suricata => getKey (pyStr "target_port") (sensor.fields record)
  | .flow => pyOr (getKey (pyStr "dst_port") record) (getKey (pyStr "target_port") record)

/-- The adapter of a kind of record. -/
def Sensor.adapt [PyArith F] (sensor : Sensor) (sha : Text → PyStr) (now : PyStr) (record : Row F) :
    Option (EvidenceEvent F) :=
  match sensor with
  | .suricata => adaptSuricataRecord sha now record
  | .flow => adaptFlowRecord sha now record

/-- A record with two addresses and a port. -/
structure Addressed (sensor : Sensor) (record : Row F) (src dst : String) (port : ℕ) : Prop where
  srcIp : getKey (pyStr "src_ip") (sensor.fields record) = some (.str (pyStr src))
  dstIp : getKey (pyStr "dst_ip") (sensor.fields record) = some (.str (pyStr dst))
  dstPort : intOr0 (sensor.port record) = some (port : ℤ)
  srcParses : ∃ address, IpAddr.parse src = some address
  dstParses : ∃ address, IpAddr.parse dst = some address
  inRange : port ≤ 65535

/-- What an event about a flow carries of it: its subject, and in its attributes both addresses or
none. -/
structure Carried (payload : Row F) (src dst : PyStr) (port : ℕ) : Prop where
  subject : ∃ proto, subjectOf payload = flowSubject src dst port proto
  addresses : attrStr "src_ip" payload = [] ∧ attrStr "dst_ip" payload = [] ∨
    attrStr "src_ip" payload = src ∧ attrStr "dst_ip" payload = dst
  target : intOr0 (pyOr (attr "target_port" payload) (attr "dst_port" payload)) = some (port : ℤ)
  service : intOr0 (pyOr (attr "dst_port" payload) (attr "target_port" payload)) = some (port : ℤ)

omit [PyConvert F] in
theorem textOrDash_of_some {key : String} {row : Row F} {s : PyStr} (hs : s ≠ [])
    (h : getKey (pyStr key) row = some (.str s)) : textOrDash key row = s := by
  rw [textOrDash, h, strOrDefault, if_pos (by simpa [truthy] using hs)]
  rfl

omit [PyConvert F] in
@[simp] theorem subjectOf_toDict [PyArith F] (event : EvidenceEvent F) :
    subjectOf event.toDict = event.subject := by
  simp [subjectOf, strField, EvidenceEvent.toDict, getKey]

omit [PyFloat F] [PyRepr F] [PyConvert F] in
@[simp] theorem attr_toDict [PyArith F] (event : EvidenceEvent F) (key : String) :
    attr key event.toDict = getKey (pyStr key) event.attrs := by
  simp [attr, attrs, asDict, EvidenceEvent.toDict, getKey]

omit [PyRepr F] in
/-- `a or b` of a number and of what is not there. -/
theorem intOr0_pyOr_none (n : ℤ) : intOr0 (pyOr (some (.int n : PyJson F)) none) = some n := by
  by_cases hn : n = 0
  · simp [pyOr, isTruthy, truthy, hn]
  · simp [pyOr, isTruthy, truthy, hn]

/-- **An adapter's event carries the flow of its record.** -/
theorem carried [PyArith F] {sha : Text → PyStr} {now : PyStr} {sensor : Sensor} {record : Row F}
    {src dst : String} {port : ℕ} {event : EvidenceEvent F}
    (h : Addressed sensor record src dst port)
    (hevent : sensor.adapt sha now record = some event) :
    Carried event.toDict (pyStr src) (pyStr dst) port := by
  obtain ⟨address, hsrc⟩ := h.srcParses
  obtain ⟨address', hdst⟩ := h.dstParses
  have hsrcIp := textOrDash_of_some (address_chars hsrc).1 h.srcIp
  have hdstIp := textOrDash_of_some (address_chars hdst).1 h.dstIp
  have hport := h.dstPort
  cases sensor with
  | suricata =>
    simp only [Sensor.fields] at hsrcIp hdstIp
    simp only [Sensor.port, Sensor.fields] at hport
    simp only [Sensor.adapt, adaptSuricataRecord, hsrcIp, hdstIp, hport, Option.bind_eq_bind,
      Option.bind_some, Option.bind_eq_some_iff, Option.pure_def, Option.some.injEq] at hevent
    obtain ⟨sid, -, severity, -, risk, -, raw, -, epoch, -, confidence, -, rfl⟩ := hevent
    refine ⟨⟨_, subjectOf_toDict _⟩, Or.inl ⟨?_, ?_⟩, ?_, ?_⟩
    · simp [attrStr, EvidenceEvent.build, getKey]
    · simp [attrStr, EvidenceEvent.build, getKey]
    · simp [EvidenceEvent.build, getKey, intOr0_pyOr_none]
    · simp [EvidenceEvent.build, getKey, pyOr, isTruthy]
  | flow =>
    simp only [Sensor.fields] at hsrcIp hdstIp
    simp only [Sensor.port] at hport
    simp only [Sensor.adapt, adaptFlowRecord, hsrcIp, hdstIp, hport, Option.bind_eq_bind,
      Option.bind_some, Option.bind_eq_some_iff, Option.pure_def, Option.some.injEq] at hevent
    obtain ⟨toserver, -, toclient, -, ptoserver, -, ptoclient, -, duration, -, rfl⟩ := hevent
    refine ⟨⟨_, subjectOf_toDict _⟩, Or.inr ⟨?_, ?_⟩, ?_, ?_⟩
    · simp [attrStr, EvidenceEvent.build, getKey]
    · simp [attrStr, EvidenceEvent.build, getKey]
    · simp [EvidenceEvent.build, getKey, pyOr, isTruthy]
    · simp [EvidenceEvent.build, getKey, intOr0_pyOr_none]

/-! ## 6. What the consumers read -/

section Consumers

variable [PyDigits]

/-- Every parser gives back what was encoded. -/
structure Decoded (payload : Row F) (src dst : PyStr) (port : ℕ) : Prop where
  soc : Soc.parseSubject (subjectOf payload) = (src, dst)
  socPort : Soc.parsePort (subjectOf payload) = port
  noc : Noc.parseSubject (subjectOf payload) = (src, dst)
  client : Client.parseSubject (subjectOf payload) = (src, dst)
  sotDiff : SotDiff.parseSubject (subjectOf payload) = (src, dst)
  advanced : Advanced.parseSubject (subjectOf payload) = (src, dst, (port : ℤ))

/-- Two payloads are of two incidents, two pairs and two targets. -/
structure Apart (payload payload' : Row F) : Prop where
  incident : ∃ text text', fingerprint payload = some text ∧ fingerprint payload' = some text' ∧
    text ≠ text'
  pair : ∃ key key', extractEndpoints payload = some key ∧ extractEndpoints payload' = some key' ∧
    key ≠ key'
  target : ∃ key key', criticalTarget payload = some (some key) ∧
    criticalTarget payload' = some (some key') ∧ key ≠ key'

variable {payload payload' : Row F} {src src' dst dst' : PyStr} {port port' : ℕ}

/-- What the parsers need of the texts of two addresses. -/
structure Endpoints (src dst : PyStr) : Prop where
  src_ne : src ≠ []
  dst_ne : dst ≠ []
  dash : chDash ∉ src
  slash : slash ∉ src
  bar : bar ∉ src
  bar' : EvidencePlane.bar ∉ dst

/-- **Every parser reads the flow back, unless its destination has a colon.** -/
theorem decoded_iff (h : Carried payload src dst port) (he : Endpoints src dst) :
    Decoded payload src dst port ↔ colon ∉ dst := by
  obtain ⟨proto, hsubject⟩ := h.subject
  rw [flowSubject_eq] at hsubject
  refine ⟨fun hdecoded => ?_, fun hcolon => ?_⟩
  · have hread : (endpointsOf (subjectOf payload)).2 = dst := congrArg Prod.snd hdecoded.soc
    exact hread ▸ colon_not_mem (subjectOf payload)
  · have hmatch := (@matchSubject_text _ _ (ofText (intText port) ++ slash :: proto))
      he.src_ne he.dash he.dst_ne hcolon
    rw [← hsubject] at hmatch
    have hends : endpointsOf (subjectOf payload) = (src, dst) := by rw [endpointsOf, hmatch]
    refine ⟨hends, ?_, hends, hends, hends, ?_⟩
    · rw [hsubject]
      exact parsePort_text he.slash hcolon
    · have hport := portText port
      rw [Advanced.parseSubject, hmatch]
      simp only [(takeWhile_port port proto).1, hport.2.2]
      rw [if_neg hport.1]

/-- The endpoints and the port that the SOC evaluator works with. -/
theorem socEndpoints_of_decoded (h : Carried payload src dst port) (he : Endpoints src dst)
    (hd : Decoded payload src dst port) :
    socEndpoints payload = (src, dst) ∧ socPort payload = some (port : ℤ) := by
  refine ⟨?_, ?_⟩
  · rw [socEndpoints, hd.soc]
    simp only [orElse, if_neg he.src_ne, if_neg he.dst_ne]
  · rw [socPort]
    split
    · exact h.target
    · rw [hd.socPort]

/-- The pair that the correlator works with. -/
theorem extractEndpoints_of_decoded (h : Carried payload src dst port) (he : Endpoints src dst)
    (hd : Decoded payload src dst port) :
    extractEndpoints payload = some (src, dst, (port : ℤ)) := by
  rw [extractEndpoints, h.service]
  rcases h.addresses with ⟨hsrc, hdst⟩ | ⟨hsrc, hdst⟩
  · by_cases hport : (port : ℤ) = 0 <;> simp [hsrc, hdst, hd.advanced, orElse, hport]
  · simp [hsrc, hdst, he.src_ne, he.dst_ne]

/-- **Two flows with different destinations are kept apart** when both are read back. -/
theorem apart (h : Carried payload src dst port) (h' : Carried payload' src' dst' port')
    (he : Endpoints src dst) (he' : Endpoints src' dst') (hcolon : colon ∉ dst)
    (hcolon' : colon ∉ dst') (hne : dst ≠ dst') : Apart payload payload' := by
  have hd := (decoded_iff h he).mpr hcolon
  have hd' := (decoded_iff h' he').mpr hcolon'
  obtain ⟨hends, hport⟩ := socEndpoints_of_decoded h he hd
  obtain ⟨hends', hport'⟩ := socEndpoints_of_decoded h' he' hd'
  refine ⟨?_, ?_, ?_⟩
  · refine ⟨_, _, by rw [fingerprint, hends, hport]; rfl, by rw [fingerprint, hends', hport']; rfl,
      fun heq => ?_⟩
    obtain ⟨-, htail⟩ := append_cons_inj he.bar he'.bar heq
    exact hne (append_cons_inj he.bar' he'.bar' htail).1
  · refine ⟨_, _, extractEndpoints_of_decoded h he hd, extractEndpoints_of_decoded h' he' hd',
      fun heq => ?_⟩
    exact hne (Prod.mk.inj (Prod.mk.inj heq).2).1
  · have hkey : ∀ {payload : Row F} {src dst : PyStr} {port : ℕ}, dst ≠ [] →
        socEndpoints payload = (src, dst) → socPort payload = some (port : ℤ) →
        criticalTarget payload = some (some (if (port : ℤ) = 0 then dst
          else dst ++ colon :: ofText (intText port))) := by
      intro payload src dst port hdst hends hport
      rw [criticalTarget, hends, hport]
      simp [hdst]
    refine ⟨_, _, hkey he.dst_ne hends hport, hkey he'.dst_ne hends' hport', fun heq => ?_⟩
    split at heq <;> split at heq
    · exact hne heq
    · exact hcolon (heq ▸ by simp)
    · exact hcolon' (heq ▸ by simp)
    · exact hne (append_cons_inj hcolon hcolon' heq).1

omit [PyRepr F] [PyDigits] in
theorem endpoints_of_addressed {sensor : Sensor} {record : Row F} {src dst : String} {port : ℕ}
    (h : Addressed sensor record src dst port) : Endpoints (pyStr src) (pyStr dst) := by
  obtain ⟨address, hsrc⟩ := h.srcParses
  obtain ⟨address', hdst⟩ := h.dstParses
  obtain ⟨hne, hdash, hslash, hbar⟩ := address_chars hsrc
  obtain ⟨hne', -, -, hbar'⟩ := address_chars hdst
  exact ⟨hne, hne', hdash, hslash, hbar, hbar'⟩

/-- **Subjects decode to what was encoded, and keep different destinations apart, exactly when the
destinations are IPv4 addresses.**  The records may come from either adapter, with any addresses,
ports and protocols. -/
theorem subject_decoded [PyArith F] {sha : Text → PyStr} {now : PyStr} {sensor sensor' : Sensor}
    {record record' : Row F} {src dst src' dst' : String} {port port' : ℕ}
    {event event' : EvidenceEvent F} (h : Addressed sensor record src dst port)
    (h' : Addressed sensor' record' src' dst' port')
    (hevent : sensor.adapt sha now record = some event)
    (hevent' : sensor'.adapt sha now record' = some event') :
    (Decoded event.toDict (pyStr src) (pyStr dst) port ∧
      Decoded event'.toDict (pyStr src') (pyStr dst') port' ∧
      (dst ≠ dst' → Apart event.toDict event'.toDict)) ↔
    (∃ octets, IpAddr.parse dst = some (.v4 octets)) ∧
      ∃ octets, IpAddr.parse dst' = some (.v4 octets) := by
  have hcarried := carried h hevent
  have hcarried' := carried h' hevent'
  have he := endpoints_of_addressed h
  have he' := endpoints_of_addressed h'
  have hv4 : ∀ {text : String}, (∃ address, IpAddr.parse text = some address) →
      (colon ∉ pyStr text ↔ ∃ octets, IpAddr.parse text = some (.v4 octets)) := by
    rintro text ⟨address, haddress⟩
    rw [colon_iff_v6 haddress, haddress]
    simp
  rw [← hv4 h.dstParses, ← hv4 h'.dstParses, decoded_iff hcarried he, decoded_iff hcarried' he']
  refine ⟨fun ⟨hcolon, hcolon', _⟩ => ⟨hcolon, hcolon'⟩, fun ⟨hcolon, hcolon'⟩ =>
    ⟨hcolon, hcolon', fun hne => ?_⟩⟩
  exact apart hcarried hcarried' he he' hcolon hcolon' fun heq => hne (pyStr_eq_iff.mp heq)

end Consumers

/-! ## 7. Runs of the adapters -/

/-- A record of an alert about a scan of port 443 of a host. -/
def alertOn (dst : String) : Row Whole :=
  [(pyStr "normalized", .obj
    [(pyStr "ts", .str (pyStr "2026-07-01T00:00:00+00:00")), (pyStr "sid", .int 2001),
      (pyStr "src_ip", .str (pyStr "192.0.2.9")), (pyStr "dst_ip", .str (pyStr dst)),
      (pyStr "target_port", .int 443), (pyStr "protocol", .str (pyStr "TCP")),
      (pyStr "attack_type", .str (pyStr "scan")), (pyStr "risk_score", .int 80)])]

/-- The event of such an alert. -/
def alertEvent (dst : String) : Option (EvidenceEvent Whole) :=
  Sensor.suricata.adapt Sha256.hexdigest [] (alertOn dst)

theorem alertOn_addressed {dst : String} (h : ∃ address, IpAddr.parse dst = some address) :
    Addressed .suricata (alertOn dst) "192.0.2.9" dst 443 :=
  ⟨rfl, rfl, rfl, ⟨.v4 [192, 0, 2, 9], by decide +kernel⟩, h, by decide⟩

theorem subject_decoded_sample :
    ∃ event event', alertEvent "192.0.2.7" = some event ∧ alertEvent "198.51.100.4" = some event' ∧
      Decoded event.toDict (pyStr "192.0.2.9") (pyStr "192.0.2.7") 443 ∧
      Apart event.toDict event'.toDict := by
  have hfirst : IpAddr.parse "192.0.2.7" = some (.v4 [192, 0, 2, 7]) := by decide +kernel
  have hsecond : IpAddr.parse "198.51.100.4" = some (.v4 [198, 51, 100, 4]) := by decide +kernel
  obtain ⟨event, hevent⟩ : ∃ event, alertEvent "192.0.2.7" = some event := ⟨_, rfl⟩
  obtain ⟨event', hevent'⟩ : ∃ event', alertEvent "198.51.100.4" = some event' := ⟨_, rfl⟩
  obtain ⟨hdecoded, -, hapart⟩ := (subject_decoded (alertOn_addressed ⟨_, hfirst⟩)
    (alertOn_addressed ⟨_, hsecond⟩) hevent hevent').mpr ⟨⟨_, hfirst⟩, ⟨_, hsecond⟩⟩
  exact ⟨event, event', hevent, hevent', hdecoded, hapart (by decide)⟩

/-- **Scans of two IPv6 hosts are one incident with one target**: the hosts are read as `2001`, and
the correlator reads none at all. -/
theorem destinations_merged :
    ∃ event event', alertEvent "2001:db8::1" = some event ∧ alertEvent "2001:db8::2" = some event' ∧
      Addressed .suricata (alertOn "2001:db8::1") "192.0.2.9" "2001:db8::1" 443 ∧
      Addressed .suricata (alertOn "2001:db8::2") "192.0.2.9" "2001:db8::2" 443 ∧
      Soc.parseSubject (subjectOf event.toDict) = (pyStr "192.0.2.9", pyStr "2001") ∧
      ¬Decoded event.toDict (pyStr "192.0.2.9") (pyStr "2001:db8::1") 443 ∧
      fingerprint event.toDict = fingerprint event'.toDict ∧
      extractEndpoints event.toDict = extractEndpoints event'.toDict ∧
      criticalTarget event.toDict = criticalTarget event'.toDict ∧
      ¬Apart event.toDict event'.toDict := by
  have hread : ∀ event, alertEvent "2001:db8::1" = some event →
      Soc.parseSubject (subjectOf event.toDict) = (pyStr "192.0.2.9", pyStr "2001") := by
    rintro event hevent
    cases hevent
    decide +kernel
  refine ⟨_, _, rfl, rfl, alertOn_addressed ⟨.v6 [0x2001, 0xdb8, 0, 0, 0, 0, 0, 1], by decide +kernel⟩,
    alertOn_addressed ⟨.v6 [0x2001, 0xdb8, 0, 0, 0, 0, 0, 2], by decide +kernel⟩, hread _ rfl,
    fun hdecoded => ?_, by decide +kernel, by decide +kernel, by decide +kernel, fun hapart => ?_⟩
  · have h := (hread _ rfl).symm.trans hdecoded.soc
    exact absurd h (by simp)
  · obtain ⟨text, text', htext, htext', hne⟩ := hapart.incident
    have hsame : some text = some text' := by
      rw [← htext, ← htext']
      decide +kernel
    exact hne (Option.some.inj hsame)

end AzazelEdge.EvidencePlane
