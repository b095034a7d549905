/-
# The lease task of the release ledger

`release.rs`: the ledger's task record, the Edge-fixed bounds, the three builders
(`build_release_task`, `build_flow_throttle_task`, `build_flow_redirect_task`) and
`validate_task`.

Three encodings hold throughout the release modules.

* An epoch is an exact rational number of seconds.  The source's `f64` arithmetic on epochs is
  sums, differences, comparisons and products with constants, and is done here without
  rounding; a cast to `u64` truncates, as there.
* `CLOCK_BOOTTIME` nanoseconds are natural numbers, and every place where the source bounds a
  sum by `i64::MAX` bounds it here.
* The status, action and mechanism strings are enumerations.  A ledger that holds any other
  string is refused when it is read, so no other value ever reaches the code below.
-/
import Mathlib.Data.Rat.Floor
import AzazelEdge.Lib.IpAddr

namespace AzazelEdge.Release

open AzazelEdge.Lib

/-! ## 1. The Edge-fixed bounds -/

/-- Seconds since 1970 on the wall clock (`f64`). -/
abbrev Epoch := ℚ

def minLeaseTtlSec : ℕ := 30
def maxLeaseTtlSec : ℕ := 900
def maxLeaseExtensions : ℕ := 3
def maxCumulativeLeaseSec : ℕ := 3600
/-- Leases restricting traffic at once. -/
def maxActiveLeases : ℕ := 64
/-- A terminal task leaves the ledger only this long after its last change. -/
def compactMinAgeSec : ℕ := maxCumulativeLeaseSec + 600
/-- How long a flow that used up its lease family is left alone. -/
def flowCooldownSec : ℕ := 900
/-- How far an alert may be dated ahead of the clock; the v1 migration boundary covers it. -/
def v1MigrationFutureSec : ℕ := 60
def maxLedgerBytes : ℕ := 2 * 1024 * 1024
def maxLedgerTasks : ℕ := 4096
/-- New leases are admitted only below these two marks. -/
def admitMaxTasks : ℕ := maxLedgerTasks * 7 / 8
def admitMaxBytes : ℕ := maxLedgerBytes * 3 / 4
/-- At these two marks admission first compacts the ledger. -/
def compactAtTasks : ℕ := maxLedgerTasks * 3 / 4
def compactAtBytes : ℕ := maxLedgerBytes / 2
def maxBootIdLen : ℕ := 64
/-- `WALL_ATTRIBUTION_TOLERANCE_NS`. -/
def wallAttributionToleranceNs : ℤ := 50000000

def i64Max : ℕ := 2 ^ 63 - 1
def u64Max : ℕ := 2 ^ 64 - 1
def u32Max : ℕ := 2 ^ 32 - 1

/-- Nanoseconds in a second. -/
def nsPerSec : ℕ := 1000000000

/-- `(seconds * 1e9) as u64`: truncated, and saturating at both ends of the type. -/
def secToNs (seconds : ℚ) : ℕ := min ⌊seconds * nsPerSec⌋₊ u64Max

/-- `saturating_add(1)` of a `u32`. -/
def u32Succ (n : ℕ) : ℕ := min (n + 1) u32Max

/-- `saturating_add` of a `u64`. -/
def u64Add (a b : ℕ) : ℕ := min (a + b) u64Max

/-- `bounded_error`. -/
def boundedError (value : String) : String := String.ofList (value.toList.take 512)

/-! ## 2. Clocks -/

/-- The clocks a lease is created and expired against, read together. -/
structure LeaseNow where
  wallEpoch : Epoch
  /-- `CLOCK_BOOTTIME`; `none` when it cannot be read. -/
  boottimeNs : Option ℕ
  /-- This boot's id; `none` when it cannot be read. -/
  bootId : Option String
deriving DecidableEq, Repr

/-- `valid_boot_id`: hexadecimal digits and dashes, at most `MAX_BOOT_ID_LEN` of them. -/
def validBootId (value : String) : Bool :=
  value ≠ "" && value.toList.length ≤ maxBootIdLen &&
    value.toList.all fun ch =>
      ('0' ≤ ch && ch ≤ '9') || ('a' ≤ ch && ch ≤ 'f') || ('A' ≤ ch && ch ≤ 'F') || ch = '-'

/-- `validate_now`: an exact rational is finite, so only the sign is left to check. -/
def validateNow (value : Epoch) : Except String Unit :=
  if 0 ≤ value then .ok () else .error "release clock must be finite and non-negative"

/-! ## 3. The task record -/

/-- The lifecycle status of a task. -/
inductive Status where
  | prepared | active | uncertain
  | released | cancelled | superseded | merged
deriving DecidableEq, Repr

/-- `eligible_status`: the lease may hold a rule, so the sweep must release it. -/
def Status.eligible : Status → Bool
  | .prepared | .active | .uncertain => true
  | _ => false

/-- `terminal_status`. -/
def Status.terminal (s : Status) : Bool := !s.eligible

def Status.asStr : Status → String
  | .prepared => "prepared"
  | .active => "active"
  | .uncertain => "uncertain"
  | .released => "released"
  | .cancelled => "cancelled"
  | .superseded => "superseded"
  | .merged => "merged"

/-- The action a lease holds in force. -/
inductive Action where
  | throttle | isolate | redirect
deriving DecidableEq, Repr

def Action.asStr : Action → String
  | .throttle => "throttle"
  | .isolate => "isolate"
  | .redirect => "redirect"

/-- How the restriction is held; `legacy` is the empty string of an older core. -/
inductive Mechanism where
  | legacy | nftFlowLimit | nftFlowRedirect
deriving DecidableEq, Repr

/-- `ReleaseTask`: one lease, or the tombstone of an alert merged into one. -/
structure ReleaseTask where
  taskId : String
  traceId : String
  action : Action
  resourceKey : String
  ownerToken : String
  iface : String
  tcHandle : String
  sourceIp : String
  destinationPort : ℕ
  redirectPort : ℕ
  expectedRateBps : ℕ
  expectedBurstBytes : ℕ
  expectedLatencyUs : ℕ
  dueEpoch : Epoch
  nextAttemptEpoch : Epoch
  createdEpoch : Epoch
  updatedEpoch : Epoch
  status : Status
  attempts : ℕ
  lastError : String
  /-- The expiry on `CLOCK_BOOTTIME`; the lease expires at whichever deadline passes first. -/
  dueBoottimeNs : Option ℕ
  /-- The boot `dueBoottimeNs` belongs to. -/
  dueBootId : String
  nextAttemptBoottimeNs : Option ℕ
  nextAttemptBootId : String
  mechanism : Mechanism
  destinationIp : String
  protocol : String
  limitRateKbytes : ℕ
  limitBurstKbytes : ℕ
  /-- The alert's own time, the replay checkpoint's basis. -/
  eventEpoch : Option Epoch
  /-- When the first lease of this flow's current family began. -/
  familyStartedEpoch : Option Epoch
  extensions : ℕ
  /-- The alert's own identity, independent of the action and of how it is held. -/
  eventKey : String
  /-- Set on the lease that brought its family to the cumulative bound. -/
  cooldownUntilEpoch : Option Epoch
  cooldownUntilBoottimeNs : Option ℕ
  cooldownBootId : String
  cooldownRecordedEpoch : Option Epoch
  /-- `FlowScope::key` of the flow the lease acts on. -/
  flowKey : String
  ctMark : ℕ
  /-- The rule was verified absent while its redirected connections were not yet cleared. -/
  ruleRemovedEpoch : Option Epoch
deriving DecidableEq, Repr

/-- `family_started_epoch.unwrap_or(created_epoch)`: when the task's family began. -/
def ReleaseTask.familyStart (task : ReleaseTask) : Epoch :=
  task.familyStartedEpoch.getD task.createdEpoch

/-! ## 4. Task identities -/

/-- `fnv1a64`. -/
def fnv1a64 (bytes : List UInt8) : UInt64 :=
  bytes.foldl (fun hash byte => (hash ^^^ byte.toUInt64) * 0x100000001b3) 0xcbf29ce484222325

/-- `format!("{n:x}")`. -/
def hexDigits (n : ℕ) : List Char := Nat.toDigits 16 n

/-- `format!("{n:016x}")` of a `u64`. -/
def hex16 (n : ℕ) : String :=
  String.ofList (List.replicate (16 - (hexDigits n).length) '0' ++ hexDigits n)

/-- The task id of a seed: `release-` and the seed's hash. -/
def taskIdOf (seed : String) : String :=
  "release-" ++ hex16 (fnv1a64 seed.toUTF8.toList).toNat

/-- The owner token of a task id; the comment its nft rule carries. -/
def ownerTokenOf (taskId : String) : String := "azazel-edge:" ++ taskId

def ctMarkPrefix : ℕ := 0xA2E00000

/-- `ct_mark_for`: the fixed prefix and 20 bits of the id's hash, never zero. -/
def ctMarkFor (taskId : String) : ℕ :=
  ctMarkPrefix ||| max ((fnv1a64 taskId.toUTF8.toList).toNat % 2 ^ 20) 1

/-- `valid_owner_token`. -/
def validOwnerToken (token : String) : Bool :=
  "azazel-edge:release-".toList.isPrefixOf token.toList && token.utf8ByteSize ≤ 96 &&
    token.toList.all fun ch => ch.isAlphanum || ch = ':' || ch = '-'

/-- `FLOW_PROTOCOLS`. -/
def flowProtocols : List String := ["tcp", "udp", "icmp", "ipv6-icmp"]

/-- `protocol_has_port`. -/
def protocolHasPort (protocol : String) : Bool := protocol = "tcp" || protocol = "udp"

/-- `nft_family`: the nft keyword of an address. -/
def nftFamily (address : String) : Option String :=
  (IpAddr.parse address).map fun
    | .v4 _ => "ip"
    | .v6 _ => "ip6"

/-- `valid_interface`. -/
def validInterface (value : String) : Bool :=
  value ≠ "" && value.toList.length ≤ 15 &&
    value.toList.all fun ch => ch.isAlphanum || ch = '_' || ch = '-' || ch = '.' || ch = ':'

/-- A number without the plus sign that `from_str_radix` reads before it. -/
def dropPlus : List Char → List Char
  | '+' :: digits => digits
  | digits => digits

/-- `valid_tc_handle`: a number of hexadecimal digits, of at most four characters and not zero, and
a colon. -/
def validTcHandle (value : String) : Bool :=
  let raw := value.toList.dropLast
  value.toList.getLast? = some ':' && raw ≠ [] && raw.length ≤ 4 &&
    match IpAddr.readNumber 16 4 65535 true (dropPlus raw) with
    | some (n, []) => 0 < n
    | _ => false

/-- The flow a temporary restriction is scoped to. -/
structure FlowScope where
  sourceIp : String
  destinationIp : String
  /-- One of `flowProtocols`, or empty (then no port is matched). -/
  protocol : String
  destinationPort : ℕ
deriving DecidableEq, Repr

/-- `FlowScope::key`. -/
def FlowScope.key (flow : FlowScope) : String :=
  flow.sourceIp ++ ">" ++ flow.destinationIp ++ ":" ++
    (if flow.protocol = "" then "any" else flow.protocol) ++ ":" ++ toString flow.destinationPort

/-- `same_flow`: the common flow key, or for legacy tasks without one, the resource. -/
def sameFlow (a b : ReleaseTask) : Bool :=
  if a.flowKey ≠ "" ∧ b.flowKey ≠ "" then a.flowKey = b.flowKey
  else a.resourceKey = b.resourceKey

/-- `is_legacy_tc_throttle`. -/
def isLegacyTcThrottle (task : ReleaseTask) : Bool :=
  task.action = .throttle && task.mechanism = .legacy

/-- `owned_nft_chain`: the owned chain an nft-held task's rule lives in. -/
def ownedNftChain (task : ReleaseTask) : Option String :=
  match task.action, task.mechanism with
  | .isolate, _ => some "input"
  | .redirect, _ => some "prerouting"
  | .throttle, .nftFlowLimit => some "throttle"
  | .throttle, _ => none

/-! ## 5. Building a task -/

/-- The resource a task of `build_release_task` claims. -/
def legacyResourceKey (action : Action) (iface sourceIp : String) (destinationPort : ℕ) : String :=
  match action with
  | .throttle => "tc:root:" ++ iface
  | .isolate => "nft:inet:azazel_edge:input:" ++ sourceIp
  | .redirect =>
    "nft:inet:azazel_edge:prerouting:" ++ sourceIp ++ ":tcp:" ++ toString destinationPort

/-- The monotonic deadline of a new lease: both clocks or only the wall one, and no task at all
when the deadline leaves the range. -/
def monotonicDeadline (ttlSec : ℕ) (now : LeaseNow) : Option (Option ℕ × String) :=
  match now.boottimeNs, now.bootId with
  | some boottime, some bootId =>
    if validBootId bootId then
      if boottime + ttlSec * nsPerSec ≤ i64Max then
        some (some (boottime + ttlSec * nsPerSec), bootId)
      else none
    else some (none, "")
  | _, _ => some (none, "")

/-- `build_release_task`. -/
def buildReleaseTask (traceId : String) (action : Action) (iface sourceIp : String)
    (destinationPort redirectPort delayMs ttlSec : ℕ) (now : LeaseNow) : Option ReleaseTask :=
  if now.wallEpoch < 0 then none
  else
    let resourceKey := legacyResourceKey action iface sourceIp destinationPort
    let taskId := taskIdOf (traceId ++ "|" ++ action.asStr ++ "|" ++ resourceKey)
    let ownerToken := ownerTokenOf taskId
    let handleMajor := (fnv1a64 ownerToken.toUTF8.toList).toNat % 0xfffe + 1
    let tbf (n : ℕ) : ℕ := if action = .throttle then n else 0
    (monotonicDeadline ttlSec now).map fun (dueBoottimeNs, dueBootId) =>
      { taskId, traceId, action, resourceKey, ownerToken, iface
        tcHandle := if action = .throttle then String.ofList (hexDigits handleMajor ++ [':']) else ""
        sourceIp, destinationPort, redirectPort
        expectedRateBps := tbf 256000
        expectedBurstBytes := tbf 4096
        expectedLatencyUs := tbf (max delayMs 100 * 1000)
        dueEpoch := now.wallEpoch + ttlSec
        nextAttemptEpoch := now.wallEpoch + ttlSec
        createdEpoch := now.wallEpoch
        updatedEpoch := now.wallEpoch
        status := .prepared
        attempts := 0
        lastError := ""
        dueBoottimeNs, dueBootId
        nextAttemptBoottimeNs := none
        nextAttemptBootId := ""
        mechanism := .legacy
        destinationIp := ""
        protocol := ""
        limitRateKbytes := 0
        limitBurstKbytes := 0
        eventEpoch := none
        familyStartedEpoch := none
        extensions := 0
        eventKey := ""
        cooldownUntilEpoch := none
        cooldownUntilBoottimeNs := none
        cooldownBootId := ""
        cooldownRecordedEpoch := none
        flowKey := ""
        ctMark := 0
        ruleRemovedEpoch := none }

/-- `build_flow_throttle_task`: an nft rate limit of this flow in the owned chain. -/
def buildFlowThrottleTask (traceId : String) (flow : FlowScope) (rateKbytes burstKbytes ttlSec : ℕ)
    (now : LeaseNow) : Option ReleaseTask :=
  if rateKbytes = 0 ∨ burstKbytes = 0 ∨ flow.protocol ∉ flowProtocols then none
  else if protocolHasPort flow.protocol ≠ decide (flow.destinationPort ≠ 0) then none
  else
    let resourceKey := "nft:inet:azazel_edge:throttle:" ++ flow.key
    let taskId := taskIdOf (traceId ++ "|throttle|" ++ resourceKey)
    (buildReleaseTask traceId .redirect "" flow.sourceIp (max flow.destinationPort 1) 1 0 ttlSec
      now).map fun task =>
      { task with
        taskId, resourceKey
        ownerToken := ownerTokenOf taskId
        action := .throttle
        iface := ""
        tcHandle := ""
        destinationPort := flow.destinationPort
        redirectPort := 0
        mechanism := .nftFlowLimit
        destinationIp := flow.destinationIp
        protocol := flow.protocol
        limitRateKbytes := rateKbytes
        limitBurstKbytes := burstKbytes
        flowKey := flow.key }

/-- `build_flow_redirect_task`: on the ingress interface, this source to this destination and
TCP port is redirected to the local decoy port. -/
def buildFlowRedirectTask (traceId : String) (flow : FlowScope) (iface : String)
    (redirectPort ttlSec : ℕ) (now : LeaseNow) : Option ReleaseTask :=
  if flow.protocol ≠ "tcp" ∨ flow.destinationPort = 0 ∨ redirectPort = 0 ∨
      validInterface iface = false then none
  else
    let resourceKey := "nft:inet:azazel_edge:prerouting:" ++ iface ++ ":" ++ flow.key
    let taskId := taskIdOf (traceId ++ "|redirect|" ++ resourceKey)
    (buildReleaseTask traceId .redirect iface flow.sourceIp flow.destinationPort redirectPort 0
      ttlSec now).map fun task =>
      { task with
        taskId, resourceKey
        ownerToken := ownerTokenOf taskId
        mechanism := .nftFlowRedirect
        destinationIp := flow.destinationIp
        protocol := "tcp"
        flowKey := flow.key
        ctMark := ctMarkFor taskId }

/-- How `maybe_enforce_with` restricts a flow. -/
inductive Restriction where
  | throttle (rateKbytes burstKbytes : ℕ)
  | redirect (iface : String) (decoyPort : ℕ)
deriving DecidableEq, Repr

/-- An alert that is acted on: its flow, its identity for the replay guard, and its own time. -/
structure Alert where
  traceId : String
  flow : FlowScope
  restriction : Restriction
  eventKey : String
  eventEpoch : Epoch
deriving DecidableEq, Repr

/-- The task `maybe_enforce_with` asks admission for, built at its own clock reading. -/
def Alert.task (alert : Alert) (ttlSec : ℕ) (now : LeaseNow) : Option ReleaseTask :=
  let built : Option ReleaseTask :=
    match alert.restriction with
    | .throttle rate burst => buildFlowThrottleTask alert.traceId alert.flow rate burst ttlSec now
    | .redirect iface port => buildFlowRedirectTask alert.traceId alert.flow iface port ttlSec now
  built.map fun task =>
    { task with eventEpoch := some alert.eventEpoch, eventKey := alert.eventKey }

/-- The resource the alert's restriction claims. -/
def Alert.resourceKey (alert : Alert) : String :=
  match alert.restriction with
  | .throttle _ _ => "nft:inet:azazel_edge:throttle:" ++ alert.flow.key
  | .redirect iface _ => "nft:inet:azazel_edge:prerouting:" ++ iface ++ ":" ++ alert.flow.key

/-- The owned chain the alert's restriction is held in. -/
def Alert.chain (alert : Alert) : String :=
  match alert.restriction with
  | .throttle _ _ => "throttle"
  | .redirect _ _ => "prerouting"

/-- What is known of a task built for an alert: the lease it asks for and how it is held. -/
structure Alert.Built (alert : Alert) (ttlSec : ℕ) (now : LeaseNow) (task : ReleaseTask) : Prop where
  wall : 0 ≤ now.wallEpoch
  created : task.createdEpoch = now.wallEpoch
  due : task.dueEpoch = now.wallEpoch + ttlSec
  retry : task.nextAttemptEpoch = task.dueEpoch
  /-- With both clocks of this boot readable, the same time on `CLOCK_BOOTTIME`. -/
  boot : ∀ dueNs, task.dueBoottimeNs = some dueNs → ∃ boottime, now.boottimeNs = some boottime ∧
    dueNs = boottime + ttlSec * nsPerSec ∧ dueNs ≤ i64Max ∧ now.bootId = some task.dueBootId
  extensions : task.extensions = 0
  status : task.status = .prepared
  ruleRemoved : task.ruleRemovedEpoch = none
  token : task.ownerToken = ownerTokenOf task.taskId
  chain : ownedNftChain task = some alert.chain
  mechanism : isLegacyTcThrottle task = false
  key : task.eventKey = alert.eventKey
  epoch : task.eventEpoch = some alert.eventEpoch
  flow : task.flowKey = alert.flow.key
  resource : task.resourceKey = alert.resourceKey
  source : task.sourceIp = alert.flow.sourceIp
  redirect : ∀ iface port, alert.restriction = .redirect iface port →
    validInterface iface = true ∧ task.action = .redirect ∧ task.mechanism = .nftFlowRedirect
  cooldown : task.cooldownUntilEpoch = none

theorem monotonicDeadline_spec {ttlSec : ℕ} {now : LeaseNow} {dueNs : ℕ} {bootId : String}
    (h : monotonicDeadline ttlSec now = some (some dueNs, bootId)) :
    ∃ boottime, now.boottimeNs = some boottime ∧ dueNs = boottime + ttlSec * nsPerSec ∧
      dueNs ≤ i64Max ∧ now.bootId = some bootId := by
  unfold monotonicDeadline at h
  split at h
  · rename_i boottime bootId' hboottime hbootId
    split at h
    · split at h
      · rename_i hle
        obtain ⟨hdue, rfl⟩ := Prod.mk.inj (Option.some.inj h)
        obtain rfl := Option.some.inj hdue
        exact ⟨boottime, hboottime, rfl, hle, hbootId⟩
      · cases h
    · cases (Prod.mk.inj (Option.some.inj h)).1
  · cases (Prod.mk.inj (Option.some.inj h)).1

/-- The builders agree on everything `Alert.Built` says. -/
theorem Alert.task_built {alert : Alert} {ttlSec : ℕ} {now : LeaseNow} {task : ReleaseTask}
    (h : alert.task ttlSec now = some task) : alert.Built ttlSec now task := by
  unfold Alert.task at h
  obtain ⟨built, hbuilt, rfl⟩ := Option.map_eq_some_iff.mp h
  split at hbuilt
  · rename_i hrestriction
    unfold buildFlowThrottleTask at hbuilt
    split at hbuilt
    · cases hbuilt
    · split at hbuilt
      · cases hbuilt
      · obtain ⟨base, hbase, rfl⟩ := Option.map_eq_some_iff.mp hbuilt
        unfold buildReleaseTask at hbase
        split at hbase
        · cases hbase
        · rename_i hwall
          obtain ⟨⟨dueNs, bootId⟩, hmono, rfl⟩ := Option.map_eq_some_iff.mp hbase
          refine ⟨not_lt.mp hwall, rfl, rfl, rfl, ?_, rfl, rfl, rfl, rfl,
            by rw [Alert.chain, hrestriction]; rfl, rfl, rfl, rfl,
            rfl, by rw [Alert.resourceKey, hrestriction], rfl, ?_, rfl⟩
          · rintro due rfl
            exact monotonicDeadline_spec hmono
          · intro iface port h
            rw [hrestriction] at h
            cases h
  · rename_i hrestriction
    unfold buildFlowRedirectTask at hbuilt
    split at hbuilt
    · cases hbuilt
    · rename_i hrefused
      obtain ⟨base, hbase, rfl⟩ := Option.map_eq_some_iff.mp hbuilt
      unfold buildReleaseTask at hbase
      split at hbase
      · cases hbase
      · rename_i hwall
        obtain ⟨⟨dueNs, bootId⟩, hmono, rfl⟩ := Option.map_eq_some_iff.mp hbase
        refine ⟨not_lt.mp hwall, rfl, rfl, rfl, ?_, rfl, rfl, rfl, rfl,
          by rw [Alert.chain, hrestriction]; rfl, rfl, rfl, rfl,
          rfl, by rw [Alert.resourceKey, hrestriction], rfl, ?_, rfl⟩
        · rintro due rfl
          exact monotonicDeadline_spec hmono
        · intro iface port h
          rw [hrestriction] at h
          obtain ⟨rfl, rfl⟩ := Restriction.redirect.inj h
          exact ⟨by simpa using fun h => hrefused (Or.inr (Or.inr (Or.inr h))), rfl, rfl⟩

/-! ## 6. `validate_task` -/

/-- The time fields `validate_task` hands to `validate_now`. -/
def ReleaseTask.times (task : ReleaseTask) : List Epoch :=
  [task.dueEpoch, task.nextAttemptEpoch, task.createdEpoch, task.updatedEpoch] ++
    task.eventEpoch.toList ++ task.familyStartedEpoch.toList ++ task.cooldownUntilEpoch.toList

/-- The checks of `validate_task` that depend on how the restriction is held. -/
def validateMechanism (task : ReleaseTask) : Except String Unit :=
  match task.action, task.mechanism with
  | .throttle, .nftFlowLimit =>
    if task.tcHandle ≠ "" ∨ nftFamily task.sourceIp = none ∨
        nftFamily task.destinationIp ≠ nftFamily task.sourceIp ∨ task.protocol ∉ flowProtocols ∨
        protocolHasPort task.protocol ≠ decide (task.destinationPort ≠ 0) ∨
        task.limitRateKbytes = 0 ∨ task.limitBurstKbytes = 0 then
      .error "release task has invalid flow-limit semantics"
    else .ok ()
  | .redirect, .nftFlowRedirect =>
    if task.protocol ≠ "tcp" ∨ validInterface task.iface = false ∨
        nftFamily task.sourceIp ≠ some "ip" ∨ nftFamily task.destinationIp ≠ some "ip" then
      .error "release task has invalid flow-redirect semantics"
    else .ok ()
  | .throttle, .legacy =>
    if validInterface task.iface = false ∨ validTcHandle task.tcHandle = false then
      .error "release task has invalid tc ownership"
    else if task.expectedRateBps = 0 ∨ task.expectedBurstBytes = 0 ∨
        task.expectedLatencyUs = 0 then
      .error "release task has invalid TBF semantics"
    else .ok ()
  | _, .legacy => .ok ()
  | _, _ => .error "release task has unsupported mechanism"

/-- `validate_task`: what the ledger accepts, checked on every load and before an admission. -/
def validateTask (task : ReleaseTask) : Except String Unit :=
  if task.taskId = "" ∨ task.traceId = "" ∨ task.resourceKey = "" ∨ task.ownerToken = "" then
    .error "release task missing identity fields"
  else if task.times.any (· < 0) then
    .error "release clock must be finite and non-negative"
  else if task.dueEpoch < task.createdEpoch ∨
      (task.attempts = 0 ∧ task.nextAttemptEpoch < task.createdEpoch) then
    .error "release task has impossible time ordering"
  else if IpAddr.parse task.sourceIp = none then
    .error "release task has invalid source IP"
  else if validOwnerToken task.ownerToken = false then
    .error "release task has invalid owner token"
  else match validateMechanism task with
    | .error e => .error e
    | .ok () =>
      if task.action = .redirect ∧ (task.destinationPort = 0 ∨ task.redirectPort = 0) then
        .error "release task has invalid redirect ports"
      else .ok ()

/-- **What an accepted task satisfies.** -/
theorem validateTask_ok {task : ReleaseTask} (h : validateTask task = .ok ()) :
    (∀ time ∈ task.times, 0 ≤ time) ∧ IpAddr.parse task.sourceIp ≠ none ∧
      validOwnerToken task.ownerToken = true ∧ validateMechanism task = .ok () := by
  unfold validateTask at h
  split at h
  · cases h
  split at h
  · cases h
  rename_i htimes
  split at h
  · cases h
  split at h
  · cases h
  rename_i hsource
  split at h
  · cases h
  rename_i htoken
  split at h
  · cases h
  rename_i hmechanism
  refine ⟨fun time htime => ?_, hsource, by simpa using htoken, hmechanism⟩
  by_contra hneg
  exact htimes (List.any_eq_true.mpr ⟨time, htime, by simpa using hneg⟩)

/-! ## 7. A sample alert

The alert the examples and witnesses of the modules below act on. -/

def sampleAlert : Alert where
  traceId := "trace-1"
  flow := ⟨"192.0.2.7", "198.51.100.9", "tcp", 443⟩
  restriction := .throttle 16 16
  eventKey := "event-1"
  eventEpoch := 1699999990

/-- A clock reading this many seconds into the sample's boot. -/
def sampleNow (seconds : ℕ) : LeaseNow :=
  ⟨1700000000 + seconds, some ((50 + seconds) * nsPerSec), some "0a1b2c"⟩

/-- What the sample alert asks for when it is seen. -/
def sampleTask : ReleaseTask := (sampleAlert.task 300 (sampleNow 0)).get (by decide +kernel)

/-- A later alert of the same flow. -/
def sampleAlert₂ : Alert :=
  { sampleAlert with traceId := "trace-2", eventKey := "event-2", eventEpoch := 1700000190 }

end AzazelEdge.Release
