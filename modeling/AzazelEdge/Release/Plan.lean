/-
# The plan of a restriction

`main.rs`: `flow_scope_checked`, `strength_for`, `build_enforcement_plan_owned` and the text of a
command in the record of it.  The record shows the bare owner token; the command that is run carries
it as an nft quoted string.
-/
import AzazelEdge.Release.Kernel

namespace AzazelEdge.Release

open AzazelEdge.Lib

/-! ## 1. Events and decisions -/

/-- The fields of `NormalizedEvent` that a restriction and its record are made of. -/
structure NormalizedEvent where
  ts : String
  srcIp : String
  dstIp : String
  severity : ℕ
  targetPort : ℕ
  protocol : String
  sid : ℕ
  deriving DecidableEq, Repr

/-- `DefensiveDecision`; its action may be any text. -/
structure DefensiveDecision where
  action : String
  reason : String
  policyReason : String
  delayMs : ℕ
  target : String
  deriving DecidableEq, Repr

/-- `to_ascii_lowercase`. -/
def asciiLower (s : String) : String := String.ofList (s.toList.map Char.toLower)

/-- The protocol of a flow of this address family. -/
def flowProtocol (protocol family : String) : Option String :=
  match asciiLower protocol, family with
  | "tcp", _ => some "tcp"
  | "udp", _ => some "udp"
  | "icmp", "ip" => some "icmp"
  | "ipv6-icmp", "ip6" => some "ipv6-icmp"
  | "icmpv6", "ip6" => some "ipv6-icmp"
  | "icmp6", "ip6" => some "ipv6-icmp"
  | _, _ => none

/-- `flow_scope_checked`: the flow an alert names. -/
def flowScopeChecked (ev : NormalizedEvent) : Except String FlowScope :=
  match nftFamily ev.srcIp with
  | none => .error "target_source_invalid"
  | some family =>
    if nftFamily ev.dstIp ≠ some family then .error "target_not_a_flow"
    else match flowProtocol ev.protocol family with
    | none => .error "target_protocol_unsupported"
    | some protocol =>
      if protocolHasPort protocol ∧ ev.targetPort = 0 then .error "target_port_missing"
      else .ok ⟨ev.srcIp, ev.dstIp, protocol, if protocolHasPort protocol then ev.targetPort else 0⟩

/-- `flow_scope`. -/
def flowScope (ev : NormalizedEvent) : Option FlowScope :=
  match flowScopeChecked ev with
  | .ok flow => some flow
  | .error _ => none

/-- `strength_for`: the rate and the burst of a restriction. -/
def strengthFor (ev : NormalizedEvent) : ℕ × ℕ := if ev.severity ≤ 1 then (16, 16) else (32, 32)

/-! ## 2. The text of a command -/

/-- A character that `shell_quote` leaves as it is. -/
def isShellPlain (c : Char) : Bool :=
  c.isAlphanum || c = ':' || c = '.' || c = '_' || c = '-' || c = '/'

/-- A quote inside a quoted word. -/
def escapeQuote (c : Char) : List Char := if c = '\'' then "'\\''".toList else [c]

/-- `shell_quote`. -/
def shellQuote (raw : String) : String :=
  if raw = "" then "''"
  else if raw.toList.all isShellPlain then raw
  else "'" ++ String.ofList (raw.toList.flatMap escapeQuote) ++ "'"

/-- `command_to_string`. -/
def commandToString (argv : Argv) : String := " ".intercalate (argv.map shellQuote)

/-! ## 3. The plan -/

/-- `EnforcementPlan`. -/
structure EnforcementPlan where
  action : String
  target : String
  applyCommands : List String
  rollbackCommands : List String
  applyArgv : List Argv

/-- The task and its comment, when its owner token can be one. -/
def ownedNft (releaseTask : Option ReleaseTask) : Option (ReleaseTask × String) :=
  releaseTask.bind fun task => (nftCommentArg task.ownerToken).map fun comment => (task, comment)

/-- The command that removes what carries this token. -/
def ownedDelete (chain : String) (task : ReleaseTask) : Argv :=
  ["nft", "delete", "rule", "inet", "azazel_edge", chain, "handle",
    "<owned:" ++ task.ownerToken ++ ">"]

/-- A rule's command with its comment, and the command that undoes it. -/
def planRule (chain : String) (insert delete : Argv) (owned : Option (ReleaseTask × String)) :
    Argv × Argv :=
  match owned with
  | some (task, comment) => (insert ++ ["comment", comment], ownedDelete chain task)
  | none => (insert, delete)

/-- The rule of a plan; none for an action that has none. -/
def planned (ev : NormalizedEvent) (action iface : String) (honeypotPort : ℕ)
    (releaseTask : Option ReleaseTask) : Option (Argv × Argv) :=
  match flowScope ev with
  | none => none
  | some flow =>
    if action = "throttle" then
      let (rate, burst) := strengthFor ev
      some (planRule "throttle" (flowLimitArgv "insert" flow rate burst)
        (flowLimitArgv "delete" flow rate burst) (ownedNft releaseTask))
    else if action = "redirect" ∧ flow.protocol = "tcp" then
      let insert := flowRedirectArgv flow iface honeypotPort ((releaseTask.map (·.ctMark)).getD 0)
      some (planRule "prerouting" insert ("nft" :: "delete" :: insert.drop 2) (ownedNft releaseTask))
    else none

/-- A command as the record shows it. -/
def shown (owned : Option (ReleaseTask × String)) (argv : Argv) : Argv :=
  argv.map fun part =>
    match owned with
    | some (task, comment) => if part = comment then task.ownerToken else part
    | none => part

/-- `build_enforcement_plan_owned`. -/
def buildEnforcementPlanOwned (ev : NormalizedEvent) (decision : DefensiveDecision) (iface : String)
    (honeypotPort : ℕ) (releaseTask : Option ReleaseTask) : EnforcementPlan :=
  let rules := (planned ev decision.action iface honeypotPort releaseTask).toList
  { action := decision.action
    target := decision.target
    applyCommands := rules.map fun rule => commandToString (shown (ownedNft releaseTask) rule.1)
    rollbackCommands := rules.map fun rule => commandToString rule.2
    applyArgv := rules.map Prod.fst }

/-! ## 4. The record of an applied plan -/

/-- `EnforcementOutcome`, without its hint. -/
structure EnforcementOutcome where
  mode : String
  traceId : String
  selectedAction : String
  target : String
  policyReason : String
  commandPlan : List String
  rollbackPlan : List String
  executedCount : ℕ
  failedCount : ℕ
  errors : List String
  result : String
  /-- The task whose ids `add_release_metadata` writes, and the state it writes. -/
  release : Option ReleaseTask
  ledgerState : String

/-- The outcome of `maybe_enforce_with` for a plan whose every command was executed and whose state
was read back as planned; it is activated, or the activation failed. -/
def appliedOutcome (traceId : String) (decision : DefensiveDecision) (plan : EnforcementPlan)
    (task : ReleaseTask) (activation : Except String Unit) : EnforcementOutcome :=
  { mode := "enforced"
    traceId
    selectedAction := decision.action
    target := decision.target
    policyReason := decision.policyReason
    commandPlan := plan.applyCommands
    rollbackPlan := plan.rollbackCommands
    executedCount := plan.applyArgv.length
    failedCount := 0
    errors := match activation with
      | .ok () => []
      | .error e => ["release_schedule_activation_failed:" ++ e]
    result := "applied"
    release := some task
    ledgerState := match activation with
      | .ok () => "active"
      | .error _ => "prepared" }

end AzazelEdge.Release
