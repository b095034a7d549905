/-
# Postcondition probes

`verify_mechanism_postcondition` of `outcome/postcondition.py` and of `outcome/ownership.py`, which
restricts the first to what carries the execution's own marker.  A probe reads the command text of
the execution record again, asks the host through a read-only runner, and compares.

What the host says of dates, digests and addresses is a parameter (`Host`).
-/
import AzazelEdge.Outcome.Adapter

namespace AzazelEdge.Outcome

open AzazelEdge.Lib AzazelEdge.Lib.Py AzazelEdge.Audit AzazelEdge.Arbiter AzazelEdge.Release

variable {F : Type} [PyFloat F] [PyRepr F] [PyConvert F] [PyArith F]

/-! ## 1. The runner -/

/-- `ReadOnlyCommandResult`. -/
structure ReadOnlyCommandResult where
  argv : List PyStr
  returncode : ℤ
  stdout : Text
  stderr : PyStr

/-- `ReadOnlyRunner.run`. -/
abbrev Runner := List PyStr → Except PyError ReadOnlyCommandResult

/-- What the probes ask of their host besides. -/
structure Host where
  /-- The hexadecimal SHA-256 digest of a text. -/
  digest : PyStr → PyStr
  utcNow : PyStr
  /-- `str(ipaddress.ip_address(text))`; none when it raises. -/
  canonicalIp : PyStr → Option PyStr

/-! ## 2. Values of the readback -/

/-- `int(value)`. -/
def intRaise (value : Option (PyJson F)) : Except PyError ℤ :=
  match value with
  | some (.float x) =>
    match PyConvert.intOfFloat x with
    | some n => .ok n
    | none => if PyArith.isNan x then .error (.valueError "nan") else .error .overflowError
  | some (.str s) => orRaise (PyConvert.intOfStr F s)
  | some (.int n) => .ok n
  | some (.bool b) => .ok (if b then 1 else 0)
  | _ => .error .typeError

/-- A value when it is a mapping. -/
def mapping? : Option (PyJson F) → Option (Row F)
  | some (.obj members) => some members
  | _ => none

/-- The mappings of a list. -/
def mappings (items : List (PyJson F)) : List (Row F) := items.filterMap fun item => mapping? (some item)

/-- `row.get(key)`. -/
def getStr (key : String) (row : Row F) : Option (PyJson F) := getKey (pyStr key) row

/-- `value == text`. -/
def equalsStr (value : Option (PyJson F)) (text : PyStr) : Bool :=
  match value with
  | some (.str s) => s = text
  | _ => false

/-- `json.loads`, with a default for an empty text. -/
def loadsOr (default : String) (stdout : Text) : Except PyError (PyJson F) :=
  match loads (if stdout = [] then ascii default else stdout) with
  | some value => .ok value
  | none => .error .jsonDecodeError

/-! ## 3. Checked inputs -/

/-- The texts that `_INTERFACE_RE` matches. -/
def isInterface (text : PyStr) : Bool :=
  decide (1 ≤ text.length ∧ text.length ≤ 15) &&
    text.all fun c => isAsciiAlnum c.val || [95, 46, 58, 45].contains c.val

/-- `_validated_interface`. -/
def validatedInterface (value : Option (PyJson F)) : Except PyError PyStr :=
  if isInterface (strOr value) then .ok (strOr value)
  else .error (.valueError "invalid interface name")

/-- `_validated_ip`. -/
def validatedIp (host : Host) (value : Option (PyJson F)) : Except PyError PyStr :=
  orRaise (host.canonicalIp (strOr value))

/-- `_validated_port`. -/
def validatedPort (value : Option (PyJson F)) : Except PyError ℤ :=
  match value with
  | some (.bool _) => .error (.valueError "invalid port")
  | value => do
    let port ← intRaise value
    if port < 1 ∨ 65535 < port then throw (.valueError "invalid port")
    return port

/-- `_requested_commands`. -/
def requestedCommands (execution : ActionExecutionReceipt F) : List PyStr :=
  match getStr "command_plan" execution.requestedParameters with
  | some (.arr items) => items.filterMap fun | .str s => some s | _ => none
  | _ => []

omit [PyFloat F] [PyRepr F] [PyConvert F] [PyArith F] in
theorem requestedCommands_eq {execution : ActionExecutionReceipt F} {commands : List PyStr}
    (h : getStr "command_plan" execution.requestedParameters = some (.arr (commands.map .str))) :
    requestedCommands execution = commands := by
  rw [requestedCommands, h]
  clear h
  induction commands with
  | nil => rfl
  | cons command commands ih => exact congrArg (command :: ·) ih

/-! ## 4. Numbers with units -/

/-- A letter of ASCII. -/
def isLetter (c : CodePoint) : Bool :=
  decide (65 ≤ c.val ∧ c.val ≤ 90) || decide (97 ≤ c.val ∧ c.val ≤ 122)

/-- `([0-9]+(?:\.[0-9]+)?)` at the beginning, and what follows it. -/
def scanNumberUnit (raw : PyStr) : Option (PyStr × PyStr) :=
  let digit := fun c : CodePoint => isDigit c.val
  let whole := raw.takeWhile digit
  let rest := raw.dropWhile digit
  if whole = [] then none
  else match rest with
  | dot :: tail =>
    let fraction := tail.takeWhile digit
    if dot = 46 ∧ fraction ≠ [] then some (whole ++ dot :: fraction, tail.dropWhile digit)
    else some (whole, rest)
  | [] => some (whole, [])

/-- `_number_unit`. -/
def numberUnit (value : Option (PyJson F)) : Except PyError (F × PyStr) := do
  let raw := PyConvert.lower F (Decision.strip (strOr value))
  match scanNumberUnit raw with
  | some (digits, unit) =>
    if unit.all isLetter = false then throw (.valueError "invalid numeric unit value")
    let number ← orRaise (PyConvert.floatOfStr digits)
    if PyFloat.lt (.inr number) (.inl 0) then
      throw (.valueError "numeric unit value must not be negative")
    return (number, PyConvert.lower F unit)
  | none => throw (.valueError "invalid numeric unit value")

/-- The factor of a unit. -/
def factorOf (factors : List (String × F)) (default : String) (unit : PyStr) (message : String) :
    Except PyError F :=
  let unit := if unit = [] then pyStr default else unit
  match factors.find? fun entry => pyStr entry.1 = unit with
  | some (_, factor) => .ok factor
  | none => .error (.valueError message)

/-- `number * factor`, rounded to an integer. -/
def scaled (number factor : F) : Except PyError ℤ :=
  match PyArith.round (PyArith.mul number factor) with
  | some n => .ok n
  | none => .error .overflowError

def rateFactors : List (String × F) :=
  [("bit", lit "1"), ("kibit", lit "1024"), ("kbit", lit "1000"), ("mibit", lit "1048576"),
    ("mbit", lit "1000000"), ("gibit", lit "1073741824"), ("gbit", lit "1000000000"),
    ("tibit", lit "1099511627776"), ("tbit", lit "1000000000000"), ("bps", lit "8"),
    ("kibps", lit "8192"), ("kbps", lit "8000"), ("mibps", lit "8388608"), ("mbps", lit "8000000"),
    ("gibps", lit "8589934592"), ("gbps", lit "8000000000"), ("tibps", lit "8796093022208"),
    ("tbps", lit "8000000000000")]

def sizeFactors : List (String × F) :=
  [("b", lit "1"), ("k", lit "1024"), ("kb", lit "1024"), ("m", lit "1048576"),
    ("mb", lit "1048576"), ("g", lit "1073741824"), ("gb", lit "1073741824"),
    ("kbit", lit "128.0"), ("mbit", lit "131072.0"), ("gbit", lit "134217728.0")]

def timeFactors : List (String × F) :=
  [("us", lit "1"), ("usec", lit "1"), ("ms", lit "1000"), ("msec", lit "1000"),
    ("s", lit "1000000"), ("sec", lit "1000000")]

/-- `_parse_rate_bps`. -/
def parseRateBps (value : Option (PyJson F)) : Except PyError ℤ := do
  let (number, unit) ← numberUnit value
  scaled number (← factorOf rateFactors "bit" unit "unsupported rate unit")

/-- `_parse_size_bytes`. -/
def parseSizeBytes (value : Option (PyJson F)) : Except PyError ℤ := do
  let (number, unit) ← numberUnit value
  let factor ← factorOf sizeFactors "b" unit "unsupported size unit"
  if PyFloat.lt (.inl 0) (.inr (PyArith.mul number factor)) = false then
    throw (.valueError "size must be positive")
  scaled number factor

/-- `_parse_time_us`. -/
def parseTimeUs (value : Option (PyJson F)) : Except PyError ℤ := do
  let (number, unit) ← numberUnit value
  let factor ← factorOf timeFactors "us" unit "unsupported time unit"
  if PyFloat.lt (.inr (PyArith.mul number factor)) (.inl 0) then
    throw (.valueError "time must not be negative")
  scaled number factor

/-- A number of a readback, or its text with a unit. -/
def readbackNumber (factor : F) (parse : Option (PyJson F) → Except PyError ℤ) (value : PyJson F) :
    Except PyError ℤ :=
  match value with
  | .int n => do scaled (← orRaise (PyConvert.floatOfInt n)) factor
  | value => parse (some value)

/-! ## 5. TBF semantics -/

/-- What a token bucket does. -/
structure Tbf where
  rateBps : ℤ
  burstBytes : ℤ
  latencyUs : ℤ

/-- The word after another one. -/
def wordAfter (word : String) (parts : List PyStr) : Option PyStr :=
  if pyStr word ∈ parts then parts[parts.idxOf (pyStr word) + 1]? else none

/-- `_requested_tbf_semantics`. -/
def requestedTbfSemantics (execution : ActionExecutionReceipt F) (interface : PyStr) :
    Except PyError Tbf :=
  let start := ["tc", "qdisc", "replace", "dev"].map pyStr ++ [interface] ++ ["root", "tbf"].map pyStr
  match (requestedCommands execution).map split |>.find? fun parts => parts.take 7 = start with
  | none => .error (.valueError "requested plan does not contain expected root TBF command")
  | some parts =>
    match wordAfter "rate" parts, wordAfter "burst" parts, wordAfter "latency" parts with
    | some rate, some burst, some latency => do
      return ⟨← parseRateBps (some (.str rate : PyJson F)),
        ← parseSizeBytes (some (.str burst : PyJson F)),
        ← parseTimeUs (some (.str latency : PyJson F))⟩
    | _, _, _ =>
      .error (.valueError "requested TBF command is missing rate/burst/latency")

/-- A non-negative integer or a text, the same in both places when it is in both. -/
def agreed (top nested : Option (PyJson F)) : Option (PyJson F) :=
  match top, nested with
  | none, some (.int n) => if 0 ≤ n then some (.int n) else none
  | none, some (.str s) => some (.str s)
  | some (.int n), some (.int m) => if n = m ∧ 0 ≤ n then some (.int n) else none
  | some (.str s), some (.str t) => if s = t then some (.str s) else none
  | _, _ => none

/-- `_tbf_readback_fields`. -/
def tbfReadbackFields (item : Row F) : Option (PyJson F × PyJson F × PyJson F) :=
  let options : Option (Row F) :=
    match getStr "options" item with
    | none => some []
    | some (.obj options) => some options
    | some _ => none
  options.bind fun options =>
    let nestedAny := ["rate", "burst", "lat"].any fun key => (getStr key options).isSome
    let field := fun key : String =>
      if nestedAny then agreed (getStr key item) (getStr key options)
      else agreed none (getStr key item)
    match field "rate", field "burst", field "lat" with
    | some rate, some burst, some lat => some (rate, burst, lat)
    | _, _, _ => none

/-- `_readback_tbf_semantics`. -/
def readbackTbfSemantics (item : Row F) : Option Tbf :=
  match tbfReadbackFields item with
  | none => none
  | some (rate, burst, lat) =>
    match readbackNumber (lit "8.0") parseRateBps rate,
      readbackNumber (lit "1.0") parseSizeBytes burst,
      readbackNumber (lit "1.0") parseTimeUs lat with
    | .ok rate, .ok burst, .ok lat => some ⟨rate, burst, lat⟩
    | _, _, _ => none

/-- `int(expected * tolerance)`. -/
def share (F : Type) [PyFloat F] [PyConvert F] [PyArith F] (expected : ℤ) (tolerance : String) :
    Except PyError ℤ := do
  let expected ← orRaise (PyConvert.floatOfInt (F := F) expected)
  orRaise (PyConvert.intOfFloat (PyArith.mul expected (lit tolerance)))

/-- `_within_relative`. -/
def withinRelative (F : Type) [PyFloat F] [PyConvert F] [PyArith F] (expected observed : ℤ)
    (tolerance : String) : Except PyError Bool :=
  if expected ≤ 0 ∨ observed < 0 then .ok false
  else do return decide (|expected - observed| ≤ max 1 (← share F expected tolerance))

/-- `_tbf_semantics_equal`. -/
def tbfSemanticsEqual (F : Type) [PyFloat F] [PyConvert F] [PyArith F] (expected observed : Tbf) :
    Except PyError Bool := do
  let rateOk ← withinRelative F expected.rateBps observed.rateBps "0.01"
  let burstOk ← withinRelative F expected.burstBytes observed.burstBytes "0.02"
  let slack ← share F expected.latencyUs "0.02"
  let latencyOk := decide (|expected.latencyUs - observed.latencyUs| ≤ max 1000 slack)
  return rateOk && burstOk && latencyOk

/-! ## 6. nft listings -/

/-- `_nftables`. -/
def nftables (payload : PyJson F) : List (Row F) :=
  match payload with
  | .obj members =>
    match getStr "nftables" members with
    | some (.arr entries) => mappings entries
    | _ => []
  | _ => []

/-- `_rule_exprs`. -/
def ruleExprsOf (payload : PyJson F) (chain : String) : List (List (Row F)) :=
  (nftables payload).filterMap fun entry =>
    (mapping? (getStr "rule" entry)).bind fun rule =>
      if equalsStr (getStr "chain" rule) (pyStr chain) then
        match getStr "expr" rule with
        | some (.arr exprs) => some (mappings exprs)
        | _ => none
      else none

/-- The right side of an equality match on a field. -/
def matchRight (protocol field : String) (expr : Row F) : Option (Option (PyJson F)) := do
  let matched ← mapping? (getStr "match" expr)
  if equalsStr (getStr "op" matched) (pyStr "==") = false then none
  let left ← mapping? (getStr "left" matched)
  let payload ← mapping? (getStr "payload" left)
  if equalsStr (getStr "protocol" payload) (pyStr protocol) &&
      equalsStr (getStr "field" payload) (pyStr field) then
    some (getStr "right" matched)
  else none

/-- `_match_value`. -/
def matchValueOf (exprs : List (Row F)) (protocol field : String) : Option (PyJson F) :=
  (exprs.findSome? (matchRight protocol field)).join

/-- `int(value) == expected`, where a value that is no number is passed over. -/
def isNumber (value : Option (PyJson F)) (expected : ℤ) : Except PyError Bool :=
  match intRaise value with
  | .ok n => .ok (n = expected)
  | .error .overflowError => .error .overflowError
  | .error _ => .ok false

/-- One rule of `_nft_has_redirect_rule`. -/
def isRedirectRule (exprs : List (Row F)) (sourceIp : PyStr) (destinationPort redirectPort : ℤ) :
    Except PyError Bool := do
  if strOr (matchValueOf exprs "ip" "saddr") ≠ sourceIp then return false
  if !(← isNumber (matchValueOf exprs "tcp" "dport") destinationPort) then return false
  exprs.anyM fun expr =>
    match mapping? (getStr "redirect" expr) with
    | none => return false
    | some redirect => isNumber (getStr "port" redirect) redirectPort

/-- `_nft_has_redirect_rule`. -/
def nftHasRedirectRule (payload : PyJson F) (sourceIp : PyStr) (destinationPort redirectPort : ℤ) :
    Except PyError Bool :=
  (ruleExprsOf payload "prerouting").anyM fun exprs =>
    isRedirectRule exprs sourceIp destinationPort redirectPort

/-- `_nft_has_source_drop_rule`. -/
def nftHasSourceDropRule (payload : PyJson F) (sourceIp : PyStr) : Bool :=
  (ruleExprsOf payload "input").any fun exprs =>
    strOr (matchValueOf exprs "ip" "saddr") = sourceIp &&
      exprs.any fun expr => (getStr "drop" expr).isSome

/-! ## 7. What the record asked for -/

/-- `parts.index(word, start)`. -/
def indexFrom (word : String) (start : ℕ) (parts : List PyStr) : Option ℕ :=
  let rest := parts.drop start
  if pyStr word ∈ rest then some (start + rest.idxOf (pyStr word)) else none

/-- The beginning of a redirect that `_requested_redirect_port` knows. -/
def redirectStart : List PyStr :=
  ["nft", "insert", "rule", "inet", "azazel_edge", "prerouting", "ip"].map pyStr

/-- The redirect port of a command; none for a command that is passed over. -/
def redirectPortOf (F : Type) [PyFloat F] [PyConvert F] [PyArith F] (sourceIp : PyStr)
    (destinationPort : ℤ) (command : PyStr) : Option ℤ := do
  let parts := split command
  if parts.take 7 ≠ redirectStart then none
  let saddr ← indexFrom "saddr" 0 parts
  let dport ← indexFrom "dport" 0 parts
  let redirect ← indexFrom "redirect" 0 parts
  let toIdx ← indexFrom "to" redirect parts
  let source ← parts[saddr + 1]?
  if source ≠ sourceIp then none
  let port ← parts[dport + 1]?
  if (← PyConvert.intOfStr F port) ≠ destinationPort then none
  let target ← parts[toIdx + 1]?
  (validatedPort (some (.str target : PyJson F))).toOption

/-- `_requested_redirect_port`. -/
def requestedRedirectPort (execution : ActionExecutionReceipt F) (sourceIp : PyStr)
    (destinationPort : ℤ) : Option ℤ :=
  (requestedCommands execution).findSome? (redirectPortOf F sourceIp destinationPort)

/-- `_requested_plan_has_isolation`. -/
def requestedPlanHasIsolation (execution : ActionExecutionReceipt F) (sourceIp : PyStr) : Bool :=
  (requestedCommands execution).any fun command =>
    let parts := split command
    decide (parts.take 8 =
      ["nft", "insert", "rule", "inet", "azazel_edge", "input", "ip", "saddr"].map pyStr) &&
    decide (9 < parts.length) && decide (parts[8]? = some sourceIp) &&
    decide (parts.getLast? = some (pyStr "drop"))

/-! ## 8. Results -/

/-- `_result_summary`. -/
def resultSummary (result : ReadOnlyCommandResult) : Row F :=
  [(pyStr "argv", .arr (result.argv.map .str)), (pyStr "returncode", .int result.returncode),
    (pyStr "stderr", .str (result.stderr.take 512))]

/-- `_with_probe_result`. -/
def withProbeResult (host : Host) (mechanism : AppliedMechanism F) (observedAt : Option PyStr)
    (status : MechanismStatus) (basis strength : String) (probe : Row F) : AppliedMechanism F :=
  let at' := match observedAt with
    | some text => if text = [] then host.utcNow else text
    | none => host.utcNow
  let sanitized : Row F := pyDict ([(pyStr "basis", jstr basis),
    (pyStr "verification_strength", jstr strength), (pyStr "observed_at", .str at')] ++ probe)
  let evidence := ofText (text (sortKeys (.obj sanitized)))
  let probeRef := pyStr "postcondition:" ++ (host.digest evidence).take 24
  { mechanism with
    status
    observedParameters := setKey (pyStr "postcondition_probe") (.obj sanitized)
      mechanism.observedParameters
    observedAt := at'
    evidenceRefs := distinct (mechanism.evidenceRefs ++ [probeRef])
    producer := pyStr "azazel_edge.outcome.postcondition" }

/-- What a probe comes to. -/
structure Probe (F : Type) where
  status : MechanismStatus
  basis : String
  strength : String
  details : Row F

def Tbf.value (t : Tbf) : PyJson F :=
  .obj [(pyStr "rate_bps", .int t.rateBps), (pyStr "burst_bytes", .int t.burstBytes),
    (pyStr "latency_us", .int t.latencyUs)]

/-- The loop over the qdiscs: the one that matches, or what was seen of one. -/
def findTbf (expected : Tbf) : List (Row F) → Bool → Bool → Except PyError (Option Tbf × Bool × Bool)
  | [], sawRoot, sawComplete => .ok (none, sawRoot, sawComplete)
  | item :: items, sawRoot, sawComplete =>
    let isRoot := match getStr "root" item with
      | some (.bool true) => true
      | _ => false
    if PyConvert.lower F (strOr (getStr "kind" item)) ≠ pyStr "tbf" ∨ isRoot = false then
      findTbf expected items sawRoot sawComplete
    else match readbackTbfSemantics item with
    | none => findTbf expected items true sawComplete
    | some candidate => do
      if ← tbfSemanticsEqual F expected candidate then return (some candidate, true, true)
      findTbf expected items true true

section Verify

variable (host : Host) (run : Runner)

/-- `_verify_traffic_shaping`. -/
def verifyTrafficShaping (execution : ActionExecutionReceipt F) (mechanism : AppliedMechanism F) :
    Except PyError (Probe F) := do
  let scope := mechanism.scope
  if equalsStr (getStr "scope_kind" scope) (pyStr "interface_root_qdisc") = false then
    throw (.valueError "traffic shaping requires interface_root_qdisc scope")
  let interface ← validatedInterface (getStr "interface" scope)
  let expected ← requestedTbfSemantics execution interface
  let result ← run (["tc", "-j", "qdisc", "show", "dev"].map pyStr ++ [interface])
  if result.returncode ≠ 0 then
    return ⟨.unverified, "tc_query_failed", "none", resultSummary result⟩
  match ← loadsOr (F := F) "[]" result.stdout with
  | .arr items =>
    let (found, sawRoot, sawComplete) ← findTbf expected (mappings items) false false
    return match found with
      | some candidate =>
        ⟨.observed, "tc_root_tbf_parameter_readback_match", "exact",
          resultSummary result ++ [(pyStr "expected", expected.value),
            (pyStr "observed", candidate.value)]⟩
      | none =>
        if sawRoot && !sawComplete then
          ⟨.unverified, "tc_root_tbf_present_but_parameters_unverifiable", "partial",
            resultSummary result⟩
        else
          ⟨.notObserved, "tc_root_tbf_parameter_match_not_found", "exact",
            resultSummary result ++ [(pyStr "expected", expected.value)]⟩
  | _ => throw (.valueError "tc JSON must be a list")

/-- `_verify_redirection`. -/
def verifyRedirection (execution : ActionExecutionReceipt F) (mechanism : AppliedMechanism F) :
    Except PyError (Probe F) := do
  let scope := mechanism.scope
  if equalsStr (getStr "scope_kind" scope) (pyStr "source_ip_and_destination_port") = false then
    throw (.valueError "redirection requires source_ip_and_destination_port scope")
  let sourceIp ← validatedIp host (getStr "source_ip" scope)
  let destinationPort ← validatedPort (getStr "destination_port" scope)
  match requestedRedirectPort execution sourceIp destinationPort with
  | none => throw (.valueError "requested redirect target port is not grounded")
  | some redirectPort =>
    let result ← run (["nft", "-j", "list", "chain", "inet", "azazel_edge", "prerouting"].map pyStr)
    if result.returncode ≠ 0 then
      return ⟨.unverified, "nft_prerouting_query_failed", "none", resultSummary result⟩
    let payload ← loadsOr (F := F) "\x7b\x7d" result.stdout
    let matched ← nftHasRedirectRule payload sourceIp destinationPort redirectPort
    return ⟨if matched then .observed else .notObserved,
      if matched then "nft_redirect_rule_readback_match" else "nft_redirect_rule_not_found", "exact",
      resultSummary result ++ [(pyStr "source_ip", .str sourceIp),
        (pyStr "destination_port", .int destinationPort), (pyStr "redirect_port", .int redirectPort)]⟩

/-- `_verify_isolation`. -/
def verifyIsolation (execution : ActionExecutionReceipt F) (mechanism : AppliedMechanism F) :
    Except PyError (Probe F) := do
  let scope := mechanism.scope
  if equalsStr (getStr "scope_kind" scope) (pyStr "source_ip") = false then
    throw (.valueError "isolation requires source_ip scope")
  let sourceIp ← validatedIp host (getStr "source_ip" scope)
  if requestedPlanHasIsolation execution sourceIp = false then
    throw (.valueError "requested plan does not contain expected source-IP drop rule")
  let result ← run (["nft", "-j", "list", "chain", "inet", "azazel_edge", "input"].map pyStr)
  if result.returncode ≠ 0 then
    return ⟨.unverified, "nft_input_query_failed", "none", resultSummary result⟩
  let payload ← loadsOr (F := F) "\x7b\x7d" result.stdout
  let matched := nftHasSourceDropRule payload sourceIp
  return ⟨if matched then .observed else .notObserved,
    if matched then "nft_isolation_rule_readback_match" else "nft_isolation_rule_not_found", "exact",
    resultSummary result ++ [(pyStr "source_ip", .str sourceIp)]⟩

/-- The probe of a kind of mechanism; the others have none. -/
def probeOf (execution : ActionExecutionReceipt F) (mechanism : AppliedMechanism F) :
    Option (Except PyError (Probe F)) :=
  match mechanism.mechanismKind with
  | .trafficShaping => some (verifyTrafficShaping run execution mechanism)
  | .redirection => some (verifyRedirection host run execution mechanism)
  | .isolation => some (verifyIsolation host run execution mechanism)
  | _ => none

/-- The result of a probe that raised. -/
def failedProbe (error : PyError) : Probe F :=
  let basis := match error with
    | .osError => "probe_runtime_error"
    | .subprocessError => "probe_runtime_error"
    | _ => "probe_input_or_parse_error"
  ⟨.unverified, basis, "none", [(pyStr "error", jstr error.name)]⟩

/-- `_verify_initial_postcondition`. -/
def verifyInitialPostcondition (execution : ActionExecutionReceipt F)
    (mechanism : AppliedMechanism F) (observedAt : Option PyStr) :
    Except PyError (AppliedMechanism F) := do
  if execution.decisionId ≠ mechanism.decisionId then
    throw (.valueError "execution/mechanism decision mismatch")
  if execution.executionId ≠ mechanism.executionId then
    throw (.valueError "execution/mechanism execution mismatch")
  if execution.status ≠ .applied ∨ execution.lifecycle ≠ .active ∨ mechanism.status ≠ .unverified then
    return mechanism
  match probeOf host run execution mechanism with
  | none => return mechanism
  | some result =>
    let probe := match result with
      | .ok probe => probe
      | .error error => failedProbe error
    return withProbeResult host mechanism observedAt probe.status probe.basis probe.strength
      probe.details

end Verify

/-! ## 9. Ownership -/

/-- What an execution marks its state with. -/
inductive Ownership where
  | tcHandle (value : PyStr)
  | nftComment (value : PyStr)
  deriving DecidableEq

def Ownership.kind : Ownership → PyStr
  | .tcHandle _ => pyStr "tc_handle"
  | .nftComment _ => pyStr "nft_comment"

def Ownership.token : Ownership → PyStr
  | .tcHandle value => value
  | .nftComment value => value

def Ownership.value (o : Ownership) : PyJson F :=
  .obj [(pyStr "kind", .str o.kind), (pyStr "value", .str o.token)]

section Owned

variable [PyChars]

/-- `_valid_tc_handle` of the ownership module. -/
def validHandle (value : PyStr) : Bool :=
  let raw := value.dropLast
  value.getLast? = some 58 && !raw.isEmpty && decide (raw.length ≤ 4) &&
    match PyChars.intBase16 raw with
    | some n => decide (0 < n)
    | none => false

/-- `_valid_owner_token`. -/
def validToken (value : PyStr) : Bool :=
  (pyStr "azazel-edge:release-").isPrefixOf value && decide (value.length ≤ 96) &&
    value.all fun c => PyChars.isalnum c || [58, 45].contains c.val

/-- The handle of a root qdisc's command. -/
def handleOwner (parts : List PyStr) : Except PyError (List Ownership) :=
  if parts.take 3 = ["tc", "qdisc", "replace"].map pyStr ∧ pyStr "root" ∈ parts ∧
      pyStr "tbf" ∈ parts then
    let rootIdx := parts.idxOf (pyStr "root")
    match parts[rootIdx + 1]?, parts[rootIdx + 2]? with
    | some word, some handle =>
      if word = pyStr "handle" then
        if validHandle handle then .ok [.tcHandle handle]
        else .error (.valueError "invalid tc ownership handle")
      else .ok []
    | _, _ => .ok []
  else .ok []

/-- The comment of an nft command. -/
def commentOwner (parts : List PyStr) : Except PyError (List Ownership) :=
  if parts.head? = some (pyStr "nft") ∧ pyStr "comment" ∈ parts then
    match parts[parts.idxOf (pyStr "comment") + 1]? with
    | none => .error (.valueError "nft ownership comment is missing its token")
    | some token =>
      if validToken token then .ok [.nftComment token]
      else .error (.valueError "invalid nft ownership token")
  else .ok []

/-- The markers of the commands. -/
def ownersOf : List PyStr → Except PyError (List Ownership)
  | [] => .ok []
  | command :: commands => do
    let handles ← handleOwner (split command)
    let comments ← commentOwner (split command)
    return handles ++ comments ++ (← ownersOf commands)

/-- `expected_ownership`. -/
def expectedOwnership (execution : ActionExecutionReceipt F) : Except PyError (Option Ownership) := do
  match ← ownersOf (requestedCommands execution) with
  | [] => return none
  | first :: others =>
    if others.any (· ≠ first) then
      throw (.valueError "conflicting ownership markers in execution command plan")
    return some first

/-- A list without these many elements from a position on. -/
def cut (parts : List PyStr) (start count : ℕ) : List PyStr :=
  parts.take start ++ parts.drop (start + count)

/-- A command without its marker. -/
def normalizedCommand (command : PyStr) : Except PyError PyStr := do
  let parts := split command
  let rootIdx := parts.idxOf (pyStr "root")
  let parts :=
    if parts.take 3 = ["tc", "qdisc", "replace"].map pyStr ∧ pyStr "root" ∈ parts ∧
        rootIdx + 2 < parts.length ∧ parts[rootIdx + 1]? = some (pyStr "handle") then
      cut parts (rootIdx + 1) 2
    else parts
  if parts.head? = some (pyStr "nft") ∧ pyStr "comment" ∈ parts then
    let commentIdx := parts.idxOf (pyStr "comment")
    if parts.length ≤ commentIdx + 1 then
      throw (.valueError "nft ownership comment is missing its token")
    return joinSpace (cut parts commentIdx 2)
  return joinSpace parts

/-- `_normalized_commands`. -/
def normalizedCommands (execution : ActionExecutionReceipt F) : Except PyError (List PyStr) :=
  (requestedCommands execution).mapM normalizedCommand

/-- The execution record without the markers. -/
def normalizedExecution (execution : ActionExecutionReceipt F) (commands : List PyStr) :
    ActionExecutionReceipt F :=
  { execution with
    requestedParameters := setKey (pyStr "command_plan") (.arr (commands.map .str))
      execution.requestedParameters }

/-- The readback of a listing with its own entries only. -/
def ownedEntries (ownership : Ownership) (argv : List PyStr) (stdout : Text) :
    Except PyError Text :=
  match ownership with
  | .tcHandle handle =>
    if argv.take 4 ≠ ["tc", "-j", "qdisc", "show"].map pyStr then .ok stdout
    else do
      match ← loadsOr (F := F) "[]" stdout with
      | .arr items =>
        return text (.arr (items.filter fun item =>
          match item with
          | .obj members => strOr (getStr "handle" members) = handle
          | _ => false))
      | _ => throw (.valueError "tc JSON must be a list")
  | .nftComment token =>
    if argv.take 4 ≠ ["nft", "-j", "list", "chain"].map pyStr then .ok stdout
    else do
      match ← loadsOr (F := F) "\x7b\x7d" stdout with
      | .obj members =>
        match getStr "nftables" members with
        | some (.arr entries) =>
          return text (.obj [(pyStr "nftables", .arr (entries.filter fun entry =>
            match entry with
            | .obj members => (mapping? (getStr "rule" members)).any fun rule =>
              strOr (getStr "comment" rule) = token
            | _ => false))])
        | _ => throw (.valueError "nft JSON must contain nftables list")
      | _ => throw (.valueError "nft JSON must be an object")

/-- `_OwnershipFilteringRunner`. -/
def filteringRunner (F : Type) [PyFloat F] [PyRepr F] (run : Runner) (ownership : Ownership) :
    Runner := fun argv => do
  let result ← run argv
  if result.returncode ≠ 0 then return result
  return { result with stdout := ← ownedEntries (F := F) ownership argv result.stdout }

/-- `verify_mechanism_postcondition` of the ownership module; a given time is already checked. -/
def verifyMechanismPostcondition (host : Host) (run : Runner) (execution : ActionExecutionReceipt F)
    (mechanism : AppliedMechanism F) (observedAt : Option PyStr) :
    Except PyError (AppliedMechanism F) := do
  match ← expectedOwnership execution with
  | none => verifyInitialPostcondition host run execution mechanism observedAt
  | some ownership =>
    let commands ← normalizedCommands execution
    let verified ← verifyInitialPostcondition host (filteringRunner F run ownership)
      (normalizedExecution execution commands) mechanism observedAt
    match getStr "postcondition_probe" verified.observedParameters with
    | some (.obj probe) =>
      let enriched := setKey (pyStr "ownership") ownership.value probe
      let payload : PyJson F := .obj [(pyStr "ownership", ownership.value),
        (pyStr "basis", (getStr "basis" probe).getD .null),
        (pyStr "observed_at", (getStr "observed_at" probe).getD .null)]
      let ownershipRef := pyStr "postcondition-ownership:" ++
        (host.digest (ofText (text (sortKeys payload)))).take 24
      return { verified with
        observedParameters := setKey (pyStr "postcondition_probe") (.obj enriched)
          verified.observedParameters
        evidenceRefs := distinct (verified.evidenceRefs ++ [ownershipRef])
        producer := pyStr "azazel_edge.outcome.ownership_postcondition" }
    | _ => return verified

end Owned

/-! ## 10. The record that is probed -/

section Record

variable [PyDate F]

/-- What a bundle says of the event it was made of. -/
structure Adapted (event : Row F) (bundle : ShadowRecordBundle F) : Prop where
  commands : stringsOf (getKey (pyStr "command_plan") (asDict (getKey (pyStr "enforcement") event))) =
    .ok (requestedCommands bundle.execution)
  kind : bundle.mechanism.mechanismKind = mechanismKind (actionKind event)
  scope : bundle.mechanism.scope =
    scopeOf event (actionKind event) (requestedCommands bundle.execution)
  unobserved : actionKind event ≠ pyStr "observe" → bundle.mechanism.status ≠ .observed
  action : bundle.execution.actionKind = actionKind event
  decision : strOr (getKey (pyStr "trace_id") (asDict (getKey (pyStr "enforcement") event))) ≠ [] →
    bundle.execution.decisionId =
      strOr (getKey (pyStr "trace_id") (asDict (getKey (pyStr "enforcement") event)))
  ids : bundle.mechanism.decisionId = bundle.execution.decisionId ∧
    bundle.mechanism.executionId = bundle.execution.executionId
  made : bundle.execution.make = .ok bundle.execution
  mechanismMade : bundle.mechanism.make = .ok bundle.mechanism
  lifecycle : bundle.execution.lifecycle = actionLifecycle bundle.execution.status
  status : executionStatus (asDict (getKey (pyStr "enforcement") event)) (actionKind event) =
    .ok bundle.execution.status
  summary : bundle.execution.status = .applied →
    providerExecutionSummary (asDict (getKey (pyStr "enforcement") event)) =
      .ok bundle.execution.appliedParameters
  release : ∃ rollbackPlan expiresAt,
    releaseFields (asDict (getKey (pyStr "enforcement") event)) bundle.execution.status rollbackPlan =
      .ok (bundle.execution.releaseRef, expiresAt)

omit [PyArith F] in
/-- **The adapter hands on the commands, the kind and the scope** of the event's action. -/
theorem fromRustEvent_adapted {digest : PyStr → PyStr} {event : Row F}
    {bundle : ShadowRecordBundle F} (h : fromRustEvent digest event = .ok bundle) :
    Adapted event bundle := by
  unfold fromRustEvent at h
  extract_lets normalized defense enforcement traceId ts srcIp dstIp sid action decisionId incidentId
    actionId executionId mechanismId provider evidenceRef errorCode records dated at h
  have hdated : dated () = .ok bundle := by
    split at h
    · cases h
    · exact h
  have hrecords : records () = .ok bundle := by
    simp only [dated] at hdated
    split at hdated
    · cases hdated
    · exact hdated
  obtain ⟨commands, hcommands, hrest⟩ := bind_eq_ok hrecords
  obtain ⟨rollback, -, hrest⟩ := bind_eq_ok hrest
  obtain ⟨status, hstatus, hrest⟩ := bind_eq_ok hrest
  obtain ⟨summary, hsummary, hrest⟩ := bind_eq_ok hrest
  obtain ⟨⟨releaseRef, expiresAt⟩, hrelease, hrest⟩ := bind_eq_ok hrest
  obtain ⟨execution, hexecution, hrest⟩ := bind_eq_ok hrest
  obtain ⟨mechanism, hmechanism, hrest⟩ := bind_eq_ok hrest
  obtain ⟨correlation, -, hrest⟩ := bind_eq_ok hrest
  obtain rfl := ActionExecutionReceipt.make_eq_ok hexecution
  obtain rfl := AppliedMechanism.make_eq_ok hmechanism
  obtain rfl := Except.ok.inj hrest
  refine ⟨hcommands.trans (congrArg Except.ok ?_), rfl, congrArg (scopeOf event action) ?_,
    fun haction => mechanismStatus_ne_observed haction, rfl, fun htrace => if_neg htrace, ⟨rfl, rfl⟩,
    hexecution, hmechanism, rfl, hstatus, fun happlied => ?_, rollback, expiresAt, hrelease⟩
  · exact (requestedCommands_eq (by simp [getStr, getKey])).symm
  · exact (requestedCommands_eq (by simp [getStr, getKey])).symm
  · exact hsummary.trans (congrArg Except.ok (if_pos (Or.inl happlied)).symm)

variable [PyCase F] {ev : NormalizedEvent} {decision : DefensiveDecision}
  {outcome : EnforcementOutcome} {metadata : Row F}

omit [PyArith F] [PyCase F] [PyRepr F] [PyFloat F] [PyConvert F] in
theorem enforcement_coreEvent :
    asDict (getKey (pyStr "enforcement") (coreEvent ev decision outcome metadata)) =
      enforcementJson outcome metadata := by
  simp [coreEvent, getKey, asDict]

omit [PyArith F] [PyCase F] [PyRepr F] [PyFloat F] [PyConvert F] in
theorem commands_coreEvent :
    stringsOf (getKey (pyStr "command_plan") (enforcementJson outcome metadata)) =
      .ok (outcome.commandPlan.map pyStr) := by
  have hstrings : ∀ commands : List String,
      (commands.map (jstr (F := F))).filterMap (fun | .str s => some s | _ => none) =
        commands.map pyStr := by
    intro commands
    induction commands with
    | nil => rfl
    | cons command commands ih => exact congrArg (pyStr command :: ·) ih
  simp only [enforcementJson, getKey, pyStr_eq_iff]
  exact congrArg Except.ok (hstrings outcome.commandPlan)

omit [PyArith F] in
/-- An action in small letters is the kind of the record. -/
theorem actionKind_coreEvent {action : String} (haction : outcome.selectedAction = action)
    (hne : pyStr action ≠ [])
    (hsmall : (pyStr action).all
      (fun c => decide (c.val < 128) && decide (shiftCase 65 90 32 c = c)) = true) :
    actionKind (coreEvent ev decision outcome metadata) = pyStr action := by
  have hstr : truthy (F := F) (.str (pyStr action)) = true := by simpa [truthy] using hne
  have hselected : getKey (pyStr "selected_action") (enforcementJson outcome metadata) =
      some (.str (pyStr action)) := by
    simp [enforcementJson, getKey, jstr, haction]
  rw [actionKind, enforcement_coreEvent, hselected]
  simp only [pyOr, isTruthy, Option.any_some, hstr, if_true, strOrDefault, strOf]
  exact lower_small hsmall

end Record

end AzazelEdge.Outcome
