/-
# One release attempt

`release.rs`: `release_owned_state`, which dispatches to `release_throttle` or `release_nft_rule`,
with `clear_redirect_connections` and `rule_absent_outcome`.  Each is the program of its commands:
what the runner answers decides what is issued next and what the attempt reports.
-/
import AzazelEdge.Release.Nft

namespace AzazelEdge.Release

open AzazelEdge.Lib

/-! ## 1. Outcomes -/

inductive OutcomeStatus where
  | released | retryPending | superseded
deriving DecidableEq, Repr

/-- `ReleaseOutcome`. -/
structure ReleaseOutcome where
  releaseTaskId : String
  traceId : String
  action : Action
  resourceKey : String
  ownerToken : String
  tcHandle : String
  dueEpoch : Epoch
  attemptedAtEpoch : Epoch
  status : OutcomeStatus
  result : String
  commandCount : ℕ
  failedCount : ℕ
  errors : List String
  postcondition : Json
  rollbackStartAudit : String
  expiryClock : String

/-- `outcome_for`. -/
def outcomeFor (task : ReleaseTask) (nowEpoch : Epoch) (status : OutcomeStatus) (result : String)
    (commandCount failedCount : ℕ) (errors : List String) (postcondition : Json) :
    ReleaseOutcome where
  releaseTaskId := task.taskId
  traceId := task.traceId
  action := task.action
  resourceKey := task.resourceKey
  ownerToken := task.ownerToken
  tcHandle := task.tcHandle
  dueEpoch := task.dueEpoch
  attemptedAtEpoch := nowEpoch
  status
  result
  commandCount
  failedCount
  errors
  postcondition
  rollbackStartAudit := "not_applicable"
  expiryClock := ""

/-! ## 2. Connections a redirect left behind -/

/-- The command of `clear_redirect_connections`: the lease's mark and tuple, or for a legacy
redirect, which set no mark, its source and port only. -/
def conntrackArgv (task : ReleaseTask) : Argv :=
  if task.mechanism = .nftFlowRedirect then
    ["conntrack", "-D", "-p", "tcp", "--orig-src", task.sourceIp, "--orig-dst", task.destinationIp,
      "--dport", toString task.destinationPort, "--mark", toString task.ctMark]
  else
    ["conntrack", "-D", "-p", "tcp", "--orig-src", task.sourceIp, "--dport",
      toString task.destinationPort]

/-- What the answer to `conntrackArgv` says about the connections. -/
def readConntrack : Reply → String
  | .ok result =>
    if result.returncode = 0 then "cleared"
    else if result.returncode = 1 ∧ containsText result.stderr.toList " 0 flow entries".toList then
      "none_found"
    else boundedError ("failed:exit=" ++ toString result.returncode ++ ":" ++
      String.ofList (trim result.stderr.toList))
  | .error e =>
    if containsText e.toList "not found in trusted directories".toList then "conntrack_unavailable"
    else boundedError ("failed:" ++ e)

/-- The `conntrack` command and its reading. -/
def deleteConnections (task : ReleaseTask) : Cmd String :=
  .call (conntrackArgv task) fun reply => .done (readConntrack reply)

/-- `clear_redirect_connections`: with the mark shared, a "none found" would prove nothing, so
that is looked at first. -/
def clearRedirectConnections (task : ReleaseTask) : Cmd String :=
  if task.action ≠ .redirect then .done "not_applicable"
  else if task.mechanism = .nftFlowRedirect then
    foreignCtMarkUse.bind fun
      | .ok none => deleteConnections task
      | .ok (some user) => .done (boundedError ("ct_mark_shared:" ++ user))
      | .error e => .done (boundedError ("failed:" ++ e))
  else deleteConnections task

/-- The connections' state under which a lease is released. -/
def connectionsCleared (connections : String) : Bool :=
  connections = "cleared" || connections = "none_found" || connections = "not_applicable"

/-- A text that starts otherwise is none of the three that end a lease. -/
theorem connectionsCleared_bounded {front rest : String} (hlen : front.toList.length ≤ 512)
    (hfront : ∀ text ∈ ["cleared", "none_found", "not_applicable"],
      front.toList.isPrefixOf text.toList = false) :
    connectionsCleared (boundedError (front ++ rest)) = false := by
  have hstart : front.toList.isPrefixOf (boundedError (front ++ rest)).toList = true := by
    rw [List.isPrefixOf_iff_prefix, boundedError, String.toList_ofList, String.toList_append,
      List.take_append, List.take_of_length_le hlen]
    exact List.prefix_append _ _
  refine Bool.eq_false_iff.mpr fun hcleared => ?_
  have hmem : boundedError (front ++ rest) ∈ ["cleared", "none_found", "not_applicable"] := by
    simpa [connectionsCleared, or_assoc] using hcleared
  rw [hfront _ hmem] at hstart
  cases hstart

/-- A command that could not be run clears nothing. -/
theorem readConntrack_error (e : String) : connectionsCleared (readConntrack (.error e)) = false := by
  unfold readConntrack
  dsimp only
  split
  · decide
  · exact connectionsCleared_bounded (by decide) (by decide)

/-- Of an answered command, two readings end a lease. -/
theorem readConntrack_cleared {reply : Reply}
    (h : connectionsCleared (readConntrack reply) = true) :
    readConntrack reply = "cleared" ∨ readConntrack reply = "none_found" := by
  cases reply with
  | error e =>
    rw [readConntrack_error] at h
    cases h
  | ok result =>
    unfold readConntrack at h ⊢
    dsimp only at h ⊢
    split
    · exact Or.inl rfl
    · rename_i hcode
      split
      · exact Or.inr rfl
      · rename_i hnone
        rw [if_neg hcode, if_neg hnone, String.append_assoc, String.append_assoc,
          connectionsCleared_bounded (by decide) (by decide)] at h
        cases h

/-- `rule_absent_outcome`: the rule is verified absent; the lease is released only when the
connections it redirected are cleared as well. -/
def ruleAbsentOutcome (task : ReleaseTask) (nowEpoch : Epoch) (result : String)
    (commandCount deviating : ℕ) (connections : String) : ReleaseOutcome :=
  if connectionsCleared connections then
    outcomeFor task nowEpoch .released result commandCount 0 []
      (.obj [("verified", .bool true), ("owned_rule_count", .int 0),
        ("deleted_deviating_rules", .int deviating), ("existing_connections", .str connections)])
  else
    outcomeFor task nowEpoch .retryPending "connections_not_cleared" commandCount 1
      [boundedError ("redirected connections not cleared: " ++ connections)]
      (.obj [("verified", .bool false), ("rule_absent", .bool true), ("owned_rule_count", .int 0),
        ("deleted_deviating_rules", .int deviating), ("existing_connections", .str connections)])

/-! ## 3. An nft rule -/

def deleteRuleArgv (chain : String) (handle : ℕ) : Argv :=
  ["nft", "delete", "rule", "inet", "azazel_edge", chain, "handle", toString handle]

/-- The error of a failed command, as the list the loop appends. -/
def commandErrors : Reply → List String
  | .ok result => if result.returncode = 0 then [] else [boundedError result.stderr]
  | .error e => [boundedError e]

/-- The delete loop of `release_nft_rule`: every handle is tried, and the errors are collected. -/
def deleteRules (chain : String) : List ℕ → Cmd (List String)
  | [] => .done []
  | handle :: handles =>
    .call (deleteRuleArgv chain handle) fun reply =>
      (deleteRules chain handles).map (commandErrors reply ++ ·)

/-- The second readback of `release_nft_rule`, and what follows it. -/
def verifyAbsence (task : ReleaseTask) (chain : String) (nowEpoch : Epoch)
    (commandCount deviating : ℕ) : Cmd (Except String ReleaseOutcome) :=
  (nftOwnedRules task chain).bind fun
    | .error e => .done (.error e)
    | .ok [] =>
      (clearRedirectConnections task).map fun connections =>
        .ok (ruleAbsentOutcome task nowEpoch "rollback_applied_and_absence_verified" commandCount
          deviating connections)
    | .ok remaining =>
      .done (.ok (outcomeFor task nowEpoch .retryPending "release_postcondition_failed"
        commandCount 1 ["owned nft rule remains after delete"]
        (.obj [("verified", .bool false), ("owned_rule_count", .int remaining.length)])))

/-- `release_nft_rule`. -/
def releaseNftRule (task : ReleaseTask) (chain : String) (nowEpoch : Epoch) :
    Cmd (Except String ReleaseOutcome) :=
  (nftOwnedRules task chain).bind fun
    | .error e => .done (.error e)
    | .ok [] =>
      (clearRedirectConnections task).map fun connections =>
        .ok (ruleAbsentOutcome task nowEpoch "owned_state_already_absent" 0 0 connections)
    | .ok owned =>
      (deleteRules chain (owned.map Prod.fst)).bind fun errors =>
        if errors = [] then
          verifyAbsence task chain nowEpoch owned.length (owned.countP fun rule => !rule.2)
        else
          .done (.ok (outcomeFor task nowEpoch .retryPending "rollback_command_failed"
            owned.length errors.length errors (.obj [("verified", .bool false)])))

/-! ## 4. A legacy throttle -/

/-- `tc_owned_state_present`. -/
def tcOwnedStatePresent (task : ReleaseTask) : Cmd (Except String Bool) :=
  .call ["tc", "-j", "qdisc", "show", "dev", task.iface] fun
    | .error e => .done (.error e)
    | .ok result =>
      if result.returncode ≠ 0 then
        .done (.error ("tc readback failed: " ++ boundedError result.stderr))
      else match result.stdout with
        | .error e => .done (.error ("tc readback parse failed: " ++ e))
        | .ok payload =>
          match payload.asArray? with
          | none => .done (.error "tc readback was not an array")
          | some items => .done (tcOwnedIn task items)

/-- The delete of `release_throttle`, and its verification. -/
def deleteQdisc (task : ReleaseTask) (nowEpoch : Epoch) : Cmd (Except String ReleaseOutcome) :=
  .call ["tc", "qdisc", "del", "dev", task.iface, "root", "handle", task.tcHandle] fun
    | .error e => .done (.error e)
    | .ok result =>
      if result.returncode ≠ 0 then
        .done (.ok (outcomeFor task nowEpoch .retryPending "rollback_command_failed" 1 1
          [boundedError result.stderr]
          (.obj [("verified", .bool false), ("owned_state_present_before", .bool true)])))
      else (tcOwnedStatePresent task).map fun
        | .error e => .error e
        | .ok true =>
          .ok (outcomeFor task nowEpoch .retryPending "release_postcondition_failed" 1 1
            ["owned tc handle remains after delete"]
            (.obj [("verified", .bool false), ("owned_state_present", .bool true)]))
        | .ok false =>
          .ok (outcomeFor task nowEpoch .released "rollback_applied_and_absence_verified" 1 0 []
            (.obj [("verified", .bool true), ("owned_state_present", .bool false)]))

/-- `release_throttle`. -/
def releaseThrottle (task : ReleaseTask) (nowEpoch : Epoch) : Cmd (Except String ReleaseOutcome) :=
  (tcOwnedStatePresent task).bind fun
    | .error e => .done (.error e)
    | .ok true => deleteQdisc task nowEpoch
    | .ok false =>
      .done (.ok (outcomeFor task nowEpoch .released "owned_state_already_absent" 0 0 []
        (.obj [("verified", .bool true), ("owned_state_present", .bool false)])))

/-! ## 5. Dispatch -/

/-- `release_owned_state`. -/
def releaseOwnedState (task : ReleaseTask) (nowEpoch : Epoch) : Cmd (Except String ReleaseOutcome) :=
  if isLegacyTcThrottle task then releaseThrottle task nowEpoch
  else match ownedNftChain task with
    | some chain => releaseNftRule task chain nowEpoch
    | none => .done (.error "unsupported release action")

/-! ## 6. What an attempt can report -/

/-- The results that an attempt reports of itself. -/
def attemptResults : List String :=
  ["rollback_applied_and_absence_verified", "owned_state_already_absent", "connections_not_cleared",
    "release_postcondition_failed", "rollback_command_failed"]

/-- An error, or an outcome for the task; a release is one that was verified. -/
inductive Attempted (task : ReleaseTask) (nowEpoch : Epoch) : Except String ReleaseOutcome → Prop
  | error (e : String) : Attempted task nowEpoch (.error e)
  | outcome (status : OutcomeStatus) (result : String) (commandCount failedCount : ℕ)
      (errors : List String) (members : List (String × Json)) (hstatus : status ≠ .superseded)
      (hresult : result ∈ attemptResults)
      (hverified : status = .released → members.lookup "verified" = some (.bool true)) :
      Attempted task nowEpoch (.ok (outcomeFor task nowEpoch status result commandCount failedCount
        errors (.obj members)))

theorem attempted_pending {task : ReleaseTask} {nowEpoch : Epoch} {result : String}
    {commandCount failedCount : ℕ} {errors : List String} {members : List (String × Json)}
    (hresult : result ∈ attemptResults) :
    Attempted task nowEpoch (.ok (outcomeFor task nowEpoch .retryPending result commandCount
      failedCount errors (.obj members))) :=
  .outcome _ _ _ _ _ _ nofun hresult nofun

theorem attempted_released {task : ReleaseTask} {nowEpoch : Epoch} {result : String}
    {commandCount failedCount : ℕ} {errors : List String} {members : List (String × Json)}
    (hresult : result ∈ attemptResults) :
    Attempted task nowEpoch (.ok (outcomeFor task nowEpoch .released result commandCount
      failedCount errors (.obj (("verified", .bool true) :: members)))) :=
  .outcome _ _ _ _ _ _ nofun hresult fun _ => rfl

theorem attempted_ruleAbsent {task : ReleaseTask} {nowEpoch : Epoch} {result : String}
    {commandCount deviating : ℕ} {connections : String} (hresult : result ∈ attemptResults) :
    Attempted task nowEpoch
      (.ok (ruleAbsentOutcome task nowEpoch result commandCount deviating connections)) := by
  unfold ruleAbsentOutcome
  split
  · exact attempted_released hresult
  · exact attempted_pending (by simp [attemptResults])

theorem attempted_releaseNftRule (task : ReleaseTask) (chain : String) (nowEpoch : Epoch) :
    Prog.Ensures (Attempted task nowEpoch) (releaseNftRule task chain nowEpoch) := by
  refine Prog.ensures_bind _ fun owned => ?_
  split
  · exact .error _
  · exact Prog.ensures_map _ fun connections => attempted_ruleAbsent (by simp [attemptResults])
  · refine Prog.ensures_bind _ fun errors => ?_
    split
    · refine Prog.ensures_bind _ fun remaining => ?_
      split
      · exact .error _
      · exact Prog.ensures_map _ fun connections => attempted_ruleAbsent (by simp [attemptResults])
      · exact attempted_pending (by simp [attemptResults])
    · exact attempted_pending (by simp [attemptResults])

theorem attempted_releaseThrottle (task : ReleaseTask) (nowEpoch : Epoch) :
    Prog.Ensures (Attempted task nowEpoch) (releaseThrottle task nowEpoch) := by
  refine Prog.ensures_bind _ fun present => ?_
  split
  · exact .error _
  · refine Prog.ensures_call fun reply => ?_
    split
    · exact .error _
    · split
      · exact attempted_pending (by simp [attemptResults])
      · refine Prog.ensures_map _ fun remaining => ?_
        split
        · exact .error _
        · exact attempted_pending (by simp [attemptResults])
        · exact attempted_released (by simp [attemptResults])
  · exact attempted_released (by simp [attemptResults])

/-- **Whatever the commands answer, an attempt reports on its own task.** -/
theorem attempted_releaseOwnedState (task : ReleaseTask) (nowEpoch : Epoch) :
    Prog.Ensures (Attempted task nowEpoch) (releaseOwnedState task nowEpoch) := by
  unfold releaseOwnedState
  split
  · exact attempted_releaseThrottle task nowEpoch
  · split
    · exact attempted_releaseNftRule task _ nowEpoch
    · exact .error _

end AzazelEdge.Release
