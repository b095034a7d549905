/-
# Reading the owned nft rules back

`release.rs`: `nft_owned_rules` and what it decides with: `match_value`, `meta_value`,
`ip_matches`, `nft_rule_identity_match`, `nft_rule_semantics_match`, `flow_limit_semantics_match`,
and `foreign_ct_mark_use`.  All of it works on the JSON of `nft -j`.

Two checks are kept apart.  A rule is the lease's own to delete when it carries the lease's token
AND its flow identity; it is as planned when every part of it is.
-/
import AzazelEdge.Lib.Prog
import AzazelEdge.Release.Tc

namespace AzazelEdge.Release

open AzazelEdge.Lib

/-! ## 1. Commands -/

/-- `CommandResult`.  `stdout` is what `serde_json::from_str` makes of the text: the value, or
its error. -/
structure CommandResult where
  returncode : ℤ
  stdout : Except String Json
  stderr : String

/-- What `ReleaseCommandRunner::run` returns; the error is a command that could not be run or was
killed past its time. -/
abbrev Reply := Except String CommandResult

/-- A command that succeeded and printed this. -/
def printed (stdout : Json) : Reply := .ok ⟨0, .ok stdout, ""⟩

abbrev Argv := List String

/-- A function of the source that takes a command runner. -/
abbrev Cmd (α : Type) := Prog Argv Reply α

/-- Whether a text contains another. -/
def containsText (text part : List Char) : Bool := text.tails.any part.isPrefixOf

/-! ## 2. Parts of a rule's `expr` -/

/-- `expr.get("match")` with `op` equal to `==`. -/
def equalityMatch? (expr : Json) : Option Json :=
  (expr.get? "match").filter fun matched => matched.strAt? "op" = some "=="

/-- The left side of a match on this protocol's field. -/
def isPayload (matched : Json) (protocol field : String) : Bool :=
  match (matched.get? "left").bind (·.get? "payload") with
  | none => false
  | some payload => payload.strAt? "protocol" = some protocol && payload.strAt? "field" = some field

/-- `match_value`: the right side of the first `==` match on this protocol's field. -/
def matchValue (exprs : List Json) (protocol field : String) : Option Json :=
  match exprs with
  | [] => none
  | expr :: rest =>
    match equalityMatch? expr with
    | none => matchValue rest protocol field
    | some matched =>
      if isPayload matched protocol field then matched.get? "right"
      else matchValue rest protocol field

/-- `meta_value`: the right side of an `==` match on `meta <key>`. -/
def metaValue (exprs : List Json) (key : String) : Option Json :=
  exprs.findSome? fun expr =>
    (equalityMatch? expr).bind fun matched =>
      if (((matched.get? "left").bind (·.get? "meta")).bind (·.strAt? "key")) = some key then
        matched.get? "right"
      else none

/-- `ip_matches`: both texts are the same address. -/
def ipMatches (value : Option Json) (expected : String) : Bool :=
  match value.bind Json.asStr?, IpAddr.parse expected with
  | some observed, some expected => IpAddr.parse observed = some expected
  | _, _ => false

/-- `value_u16`: a number of the type's range, or its text. -/
def valueU16 (value : Json) : Option ℕ :=
  match value.asU64?.filter (· < 65536) with
  | some n => some n
  | none => (value.asStr?.bind fun s => parseU64 s.toList).filter (· < 65536)

/-- `match_value(exprs, protocol, "dport").and_then(value_u16)`. -/
def portOf (exprs : List Json) (protocol : String) : Option ℕ :=
  (matchValue exprs protocol "dport").bind valueU16

/-- `rule.get("expr").and_then(Value::as_array)`. -/
def ruleExprs (rule : Json) : Option (List Json) := (rule.get? "expr").bind Json.asArray?

/-- A rule that drops what it matches. -/
def hasDrop (exprs : List Json) : Bool := exprs.any fun expr => (expr.get? "drop").isSome

/-- A rule that redirects to this port. -/
def redirectsTo (exprs : List Json) (port : ℕ) : Bool :=
  exprs.any fun expr => ((expr.get? "redirect").bind (·.get? "port")).bind valueU16 = some port

/-! ## 3. Identity and semantics of an owned rule -/

/-- `nft_rule_identity_match`: the complete flow identity of an owned rule. -/
def nftRuleIdentityMatch (task : ReleaseTask) (rule : Json) : Bool :=
  match ruleExprs rule, nftFamily task.sourceIp with
  | some exprs, some family =>
    ipMatches (matchValue exprs family "saddr") task.sourceIp &&
    (task.destinationIp = "" || ipMatches (matchValue exprs family "daddr") task.destinationIp) &&
    match task.mechanism with
    | .nftFlowLimit =>
      if protocolHasPort task.protocol then
        portOf exprs task.protocol = some task.destinationPort &&
          (flowProtocols.filter fun p => p ≠ task.protocol && protocolHasPort p).all fun p =>
            portOf exprs p = none
      else
        (metaValue exprs "l4proto").bind Json.asStr? = some task.protocol &&
          portOf exprs "tcp" = none && portOf exprs "udp" = none
    | .nftFlowRedirect =>
      (metaValue exprs "iifname").bind Json.asStr? = some task.iface &&
        portOf exprs "tcp" = some task.destinationPort
    | .legacy =>
      if task.action = .redirect then portOf exprs "tcp" = some task.destinationPort else true
  | _, _ => false

/-- The limit `flow_limit_semantics_match` looks for: inverted, per second, of exactly the
planned rate and burst. -/
def isPlannedLimit (task : ReleaseTask) (limit : Json) : Bool :=
  (limit.get? "inv").bind Json.asBool? = some true &&
  limit.strAt? "per" = some "second" &&
  (limit.get? "rate").bind Json.asU64? = some task.limitRateKbytes &&
  limit.strAt? "rate_unit" = some "kbytes" &&
  (limit.get? "burst").bind Json.asU64? = some task.limitBurstKbytes &&
  limit.strAt? "burst_unit" = some "kbytes"

/-- A match on any `dport`, whatever its protocol or operator. -/
def matchesDport (expr : Json) : Bool :=
  ((((expr.get? "match").bind (·.get? "left")).bind (·.get? "payload")).bind
    (·.strAt? "field")) = some "dport"

/-- `flow_limit_semantics_match`. -/
def flowLimitSemanticsMatch (task : ReleaseTask) (exprs : List Json) : Bool :=
  match nftFamily task.sourceIp with
  | none => false
  | some family =>
    nftFamily task.destinationIp = some family &&
    ipMatches (matchValue exprs family "saddr") task.sourceIp &&
    ipMatches (matchValue exprs family "daddr") task.destinationIp &&
    (if protocolHasPort task.protocol then portOf exprs task.protocol = some task.destinationPort
     else
      (metaValue exprs "l4proto").bind Json.asStr? = some task.protocol &&
        !exprs.any matchesDport) &&
    exprs.any (fun expr => (expr.get? "limit").any (isPlannedLimit task)) &&
    hasDrop exprs

/-- The `ct mark set` of a flow redirect. -/
def setsCtMark (task : ReleaseTask) (expr : Json) : Bool :=
  (expr.get? "mangle").any fun mangle =>
    (((mangle.get? "key").bind (·.get? "ct")).bind (·.strAt? "key")) = some "mark" &&
      (mangle.get? "value").bind Json.asU64? = some task.ctMark

/-- `nft_rule_semantics_match`: the rule reads back exactly as planned. -/
def nftRuleSemanticsMatch (task : ReleaseTask) (rule : Json) : Bool :=
  match ruleExprs rule with
  | none => false
  | some exprs =>
    match task.mechanism with
    | .nftFlowLimit => flowLimitSemanticsMatch task exprs
    | .nftFlowRedirect =>
      (metaValue exprs "iifname").bind Json.asStr? = some task.iface &&
        ipMatches (matchValue exprs "ip" "saddr") task.sourceIp &&
        ipMatches (matchValue exprs "ip" "daddr") task.destinationIp &&
        portOf exprs "tcp" = some task.destinationPort &&
        exprs.any (setsCtMark task) && redirectsTo exprs task.redirectPort
    | .legacy =>
      (matchValue exprs "ip" "saddr").bind Json.asStr? = some task.sourceIp &&
      match task.action with
      | .isolate => hasDrop exprs
      | .redirect =>
        portOf exprs "tcp" = some task.destinationPort && redirectsTo exprs task.redirectPort
      | .throttle => false

/-! ## 4. The owned rules of a chain -/

/-- The entries of an nft listing. -/
def nftEntries (payload : Json) : Option (List Json) := (payload.get? "nftables").bind Json.asArray?

/-- The rule of an entry, when it is one of this chain that carries this token. -/
def ownedRule? (token chain : String) (entry : Json) : Option Json :=
  (entry.get? "rule").filter fun rule =>
    rule.strAt? "chain" = some chain && rule.strAt? "comment" = some token

/-- What `nft_owned_rules` makes of one owned rule: its handle, and whether it is as planned. -/
def readOwnedRule (task : ReleaseTask) (rule : Json) : Except String (ℕ × Bool) :=
  if nftRuleIdentityMatch task rule = false then
    .error "nft ownership tag exists on a rule for another flow"
  else match (rule.get? "handle").bind Json.asU64? with
    | none => .error "owned nft rule missing numeric handle"
    | some 0 => .error "owned nft rule has invalid zero handle"
    | some handle => .ok (handle, nftRuleSemanticsMatch task rule)

/-- The loop of `nft_owned_rules`: the first complaint about an owned rule ends it. -/
def ownedRulesIn (task : ReleaseTask) (chain : String) :
    List Json → Except String (List (ℕ × Bool))
  | [] => .ok []
  | entry :: rest =>
    match ownedRule? task.ownerToken chain entry with
    | none => ownedRulesIn task chain rest
    | some rule =>
      match readOwnedRule task rule with
      | .error e => .error e
      | .ok read => (ownedRulesIn task chain rest).map (read :: ·)

/-- `nft_owned_rules` on the answer to its command. -/
def readOwnedRules (task : ReleaseTask) (chain : String) (reply : Reply) :
    Except String (List (ℕ × Bool)) :=
  match reply with
  | .error e => .error e
  | .ok result =>
    if result.returncode ≠ 0 then .error ("nft readback failed: " ++ boundedError result.stderr)
    else match result.stdout with
      | .error e => .error ("nft readback parse failed: " ++ e)
      | .ok payload =>
        match nftEntries payload with
        | none => .error "nft readback missing nftables array"
        | some entries => ownedRulesIn task chain entries

/-- The command of `nft_owned_rules`. -/
def listChainArgv (chain : String) : Argv :=
  ["nft", "-a", "-j", "list", "chain", "inet", "azazel_edge", chain]

/-- `nft_owned_rules`: the rules carrying this lease's owner token in `chain`, with whether each
reads back exactly as planned. -/
def nftOwnedRules (task : ReleaseTask) (chain : String) : Cmd (Except String (List (ℕ × Bool))) :=
  .call (listChainArgv chain) fun reply => .done (readOwnedRules task chain reply)

/-- `owned_state_matches_plan`: present exactly once, with the planned semantics. -/
def ownedStateMatchesPlan (task : ReleaseTask) : Cmd (Except String Bool) :=
  match ownedNftChain task with
  | none => .done (.error "no readback for this lease mechanism")
  | some chain =>
    (nftOwnedRules task chain).map fun
      | .error e => .error e
      | .ok [(_, planned)] => .ok planned
      | .ok _ => .ok false

/-! ## 5. Other users of the conntrack mark -/

/-- A `ct mark` expression, or an iptables-nft `connmark`. -/
def isCtMark (value : Json) : Bool :=
  (value.get? "ct").bind (·.strAt? "key") = some "mark" ||
    ((value.get? "xt").bind (·.strAt? "name")).any fun name =>
      name.toList.map Char.toLower = "connmark".toList

mutual

/-- `uses_ct_mark`: the mark is matched or set anywhere inside the value. -/
def usesCtMark : Json → Bool
  | .obj members => isCtMark (.obj members) || membersUseCtMark members
  | .arr items => itemsUseCtMark items
  | _ => false

def itemsUseCtMark : List Json → Bool
  | [] => false
  | item :: items => usesCtMark item || itemsUseCtMark items

def membersUseCtMark : List (String × Json) → Bool
  | [] => false
  | member :: members => memberUsesCtMark member || membersUseCtMark members

def memberUsesCtMark : String × Json → Bool
  | (_, value) => usesCtMark value

end

/-- A rule not owned by this core that uses the mark, as `table/chain/handle`. -/
def foreignMarkUser? (entry : Json) : Option String :=
  match entry.get? "rule" with
  | none => none
  | some rule =>
    if (rule.strAt? "comment").any validOwnerToken then none
    else if (rule.get? "expr").any usesCtMark then
      some ((rule.strAt? "table").getD "?" ++ "/" ++ (rule.strAt? "chain").getD "?" ++ "/" ++
        toString (((rule.get? "handle").bind Json.asU64?).getD 0))
    else none

/-- `foreign_ct_mark_use`: another use of the conntrack mark anywhere in the ruleset. -/
def foreignCtMarkUse : Cmd (Except String (Option String)) :=
  .call ["nft", "-j", "list", "ruleset"] fun
    | .error e => .done (.error e)
    | .ok result =>
      if result.returncode ≠ 0 then
        .done (.error ("nft ruleset readback failed: " ++ boundedError result.stderr))
      else match result.stdout with
        | .error e => .done (.error ("nft ruleset parse failed: " ++ e))
        | .ok payload =>
          match nftEntries payload with
          | none => .done (.error "nft ruleset missing nftables array")
          | some entries => .done (.ok (entries.findSome? foreignMarkUser?))

end AzazelEdge.Release
