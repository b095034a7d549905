/-
# An applied plan and its probe

The plan of the core is recorded as text and probed from that text.  The probes know another core:
a throttle is looked for as a root qdisc on the device of a `tc` command, and a redirect as a rule
that begins with `ip`.  A plan of `build_enforcement_plan_owned` names no device and begins its
redirect with `iifname`, so that its rule is never observed, whether it is there or not.

* `never_observed`: no probe of such a plan comes to `observed`.
* `agrees_iff`: so that a probe agrees with the readback exactly where the rule is not in it.
-/
import AzazelEdge.Outcome.Postcondition

namespace AzazelEdge.Outcome

open AzazelEdge.Lib AzazelEdge.Lib.Py AzazelEdge.Audit AzazelEdge.Arbiter AzazelEdge.Release

/-! ## 1. The words of a command -/

/-- A word of a command that the record shows as it is. -/
def PlainWord (word : String) : Prop :=
  shellQuote word = word ∧ Solid Decision.isSpace (pyStr word)

/-- **The words of a recorded command are those of its plain beginning**, and then the others. -/
theorem split_command {start rest : Argv} (hstart : ∀ word ∈ start, PlainWord word)
    (hrest : rest ≠ []) :
    split (pyStr (commandToString (start ++ rest))) =
      start.map pyStr ++ split (pyStr (commandToString rest)) := by
  have hquoted : start.map shellQuote = start :=
    (List.map_congr_left fun word hword => (hstart word hword).1).trans (List.map_id _)
  rw [commandToString, commandToString, List.map_append, hquoted, pyStr_intercalate,
    pyStr_intercalate, List.map_append, split, joinSpace, words_join_append isSpace_space]
  · rfl
  · intro word hword
    obtain ⟨s, hs, rfl⟩ := List.mem_map.mp hword
    exact (hstart s hs).2
  · simpa using hrest

/-! ## 2. The beginning of a plan's command -/

/-- The first words of a command that inserts a rule. -/
def insertRule : Argv := ["nft", "insert", "rule"]

/-- The first words of a redirect of the core. -/
def redirectOf : Argv := insertRule ++ ["inet", "azazel_edge", "prerouting", "iifname"]

theorem plain_redirectOf : ∀ word ∈ redirectOf, PlainWord word := by
  intro word hword
  simp only [redirectOf, insertRule, List.cons_append, List.nil_append, List.mem_cons,
    List.not_mem_nil, or_false] at hword
  rcases hword with rfl | rfl | rfl | rfl | rfl | rfl | rfl <;>
    exact ⟨by decide +kernel, solid_of_all (by decide +kernel)⟩

/-- A token's comment begins with a quotation mark, which no other word of a plan does. -/
theorem shown_append {releaseTask : Option ReleaseTask} {start rest : Argv}
    (h : ∀ word ∈ start, word.toList.head? ≠ some '"') :
    shown (ownedNft releaseTask) (start ++ rest) = start ++ shown (ownedNft releaseTask) rest := by
  unfold shown
  rw [List.map_append]
  congr 1
  refine (List.map_congr_left fun word hword => ?_).trans (List.map_id _)
  cases howned : ownedNft releaseTask with
  | none => rfl
  | some owned =>
    obtain ⟨task, comment⟩ := owned
    have hcomment : comment.toList.head? = some '"' := by
      obtain ⟨task', -, hmap⟩ := Option.bind_eq_some_iff.mp howned
      obtain ⟨comment', harg, heq⟩ := Option.map_eq_some_iff.mp hmap
      obtain ⟨-, rfl⟩ := Prod.mk.inj heq
      unfold nftCommentArg at harg
      split at harg
      · cases harg
        simp
      · cases harg
    have hne : word ≠ comment := fun heq => h word hword (heq ▸ hcomment)
    simp [hne]

section Plan

variable {ev : NormalizedEvent} {decision : DefensiveDecision} {iface : String} {honeypotPort : ℕ}
  {releaseTask : Option ReleaseTask}

theorem planRule_fst (chain : String) (insert delete : Argv)
    (owned : Option (ReleaseTask × String)) :
    ∃ comment, (planRule chain insert delete owned).1 = insert ++ comment := by
  cases owned with
  | none => exact ⟨[], by simp [planRule]⟩
  | some owned => exact ⟨["comment", owned.2], rfl⟩

/-- **A plan with a command is a throttle or a redirect, of one command that inserts a rule**; a
redirect's begins with the interface. -/
theorem applyCommands_start
    (h : (buildEnforcementPlanOwned ev decision iface honeypotPort releaseTask).applyCommands ≠ []) :
    ∃ rest, rest ≠ [] ∧
      (decision.action = "throttle" ∧
        (buildEnforcementPlanOwned ev decision iface honeypotPort releaseTask).applyCommands =
          [commandToString (insertRule ++ rest)] ∨
      decision.action = "redirect" ∧
        (buildEnforcementPlanOwned ev decision iface honeypotPort releaseTask).applyCommands =
          [commandToString (redirectOf ++ rest)]) := by
  unfold buildEnforcementPlanOwned at h ⊢
  simp only at h ⊢
  cases hplan : planned ev decision.action iface honeypotPort releaseTask with
  | none => simp [hplan] at h
  | some rule =>
    simp only [Option.toList_some, List.map_cons, List.map_nil]
    unfold planned at hplan
    split at hplan
    · cases hplan
    · rename_i flow hflow
      split at hplan
      · rename_i haction
        have hrule : planRule "throttle"
            (flowLimitArgv "insert" flow (strengthFor ev).1 (strengthFor ev).2)
            (flowLimitArgv "delete" flow (strengthFor ev).1 (strengthFor ev).2)
            (ownedNft releaseTask) = rule := Option.some.inj hplan
        obtain ⟨comment, hcomment⟩ := hrule ▸ planRule_fst "throttle"
          (flowLimitArgv "insert" flow (strengthFor ev).1 (strengthFor ev).2)
          (flowLimitArgv "delete" flow (strengthFor ev).1 (strengthFor ev).2)
          (ownedNft releaseTask)
        refine ⟨shown (ownedNft releaseTask) ((flowLimitArgv "insert" flow (strengthFor ev).1
          (strengthFor ev).2).drop 3 ++ comment), by simp [shown, flowLimitArgv], Or.inl ⟨haction, ?_⟩⟩
        rw [← shown_append (by decide), hcomment]
        rfl
      · split at hplan
        · rename_i haction
          obtain ⟨insert, hinsert⟩ : ∃ insert, insert =
              flowRedirectArgv flow iface honeypotPort ((releaseTask.map (·.ctMark)).getD 0) :=
            ⟨_, rfl⟩
          have hrule : planRule "prerouting" insert ("nft" :: "delete" :: insert.drop 2)
              (ownedNft releaseTask) = rule := hinsert ▸ Option.some.inj hplan
          obtain ⟨comment, hcomment⟩ := hrule ▸ planRule_fst "prerouting" insert
            ("nft" :: "delete" :: insert.drop 2) (ownedNft releaseTask)
          subst hinsert
          refine ⟨shown (ownedNft releaseTask) ((flowRedirectArgv flow iface honeypotPort
            ((releaseTask.map (·.ctMark)).getD 0)).drop 7 ++ comment),
            by simp [shown, flowRedirectArgv], Or.inr ⟨haction.1, ?_⟩⟩
          rw [← shown_append (by decide), hcomment]
          rfl
        · cases hplan

end Plan

/-! ## 3. A command without its marker -/

/-- What stands before a command's marker stays where it is. -/
theorem normalizedCommand_start {start : List PyStr} {command command' : PyStr}
    (hstart : start <+: split command) (hnft : start.head? = some (pyStr "nft"))
    (hcomment : pyStr "comment" ∉ start) (h : normalizedCommand command = .ok command') :
    start <+: split command' := by
  obtain ⟨rest, hrest⟩ := hstart
  have hsolid : ∀ word ∈ split command, Solid Decision.isSpace word :=
    fun word hword => solid_of_mem_words hword
  obtain ⟨others, hothers⟩ : ∃ others, start = pyStr "nft" :: others := by
    cases start with
    | nil => cases hnft
    | cons word others => exact ⟨others, congrArg (· :: others) (Option.some.inj hnft)⟩
  have htc : ¬ (split command).take 3 = ["tc", "qdisc", "replace"].map pyStr := by
    rw [← hrest, hothers]
    simp
  unfold normalizedCommand at h
  simp only [htc, false_and, if_false] at h
  split at h
  · split at h
    · cases h
    · obtain rfl := Except.ok.inj h
      have hcut : cut (split command) ((split command).idxOf (pyStr "comment")) 2 =
          start ++ cut rest (rest.idxOf (pyStr "comment")) 2 := by
        rw [← hrest, List.idxOf_append_of_notMem hcomment]
        simp [cut, Nat.add_assoc, List.take_length_add_append, List.drop_length_add_append]
      have hparts : ∀ word ∈ cut (split command) ((split command).idxOf (pyStr "comment")) 2,
          word ∈ split command := by
        intro word hword
        rcases List.mem_append.mp hword with hword | hword
        · exact List.mem_of_mem_take hword
        · exact List.mem_of_mem_drop hword
      rw [split_joinSpace fun word hword => hsolid word (hparts word hword), hcut]
      exact List.prefix_append _ _
  · obtain rfl := Except.ok.inj h
    rw [split_joinSpace hsolid]
    exact ⟨rest, hrest⟩

/-! ## 4. Probes that raise -/

variable {F : Type} [PyFloat F] [PyRepr F] [PyConvert F] [PyArith F] {host : Host}
  {run : Runner} {execution : ActionExecutionReceipt F} {mechanism m : AppliedMechanism F}
  {observedAt : Option PyStr}

/-- A throttle that names no device is looked for on none. -/
theorem verifyTrafficShaping_raises
    (h : getStr "interface" mechanism.scope = some (.str [])) :
    ∃ error, verifyTrafficShaping run execution mechanism = .error error := by
  have hinterface : validatedInterface (some (.str []) : Option (PyJson F)) =
      .error (.valueError "invalid interface name") := by
    simp [validatedInterface, strOr, truthy, isInterface]
  unfold verifyTrafficShaping
  dsimp only
  rw [h, hinterface]
  split
  · exact ⟨_, rfl⟩
  · exact ⟨_, rfl⟩

/-- A redirect whose port no command names is not looked for. -/
theorem verifyRedirection_raises
    (h : ∀ sourceIp port, requestedRedirectPort execution sourceIp port = none) :
    ∃ error, verifyRedirection host run execution mechanism = .error error := by
  unfold verifyRedirection
  dsimp only
  split
  · exact ⟨_, rfl⟩
  · cases validatedIp host (getStr "source_ip" mechanism.scope) with
    | error error => exact ⟨_, rfl⟩
    | ok sourceIp =>
      cases validatedPort (getStr "destination_port" mechanism.scope) with
      | error error => exact ⟨_, rfl⟩
      | ok port =>
        simp only [bind, Except.bind]
        rw [h]
        exact ⟨_, rfl⟩

/-- A probe that raises leaves its mechanism unverified. -/
theorem verifyInitial_unobserved (hstatus : mechanism.status ≠ .observed)
    (hprobe : ∃ error, probeOf host run execution mechanism = some (.error error))
    (h : verifyInitialPostcondition host run execution mechanism observedAt = .ok m) :
    m.status ≠ .observed := by
  obtain ⟨error, herror⟩ := hprobe
  unfold verifyInitialPostcondition at h
  rw [herror] at h
  extract_lets probed executed at h
  have hexecuted : executed () = .ok m := by
    split at h
    · cases h
    · exact h
  have hprobed : probed () = .ok m := by
    simp only [executed] at hexecuted
    split at hexecuted
    · cases hexecuted
    · exact hexecuted
  simp only [probed] at hprobed
  split at hprobed
  · obtain rfl := Except.ok.inj hprobed
    exact hstatus
  · obtain rfl := Except.ok.inj hprobed
    exact nofun

/-- Nor does its marker make it observed. -/
theorem verifyMechanism_unobserved [PyChars] (hstatus : mechanism.status ≠ .observed)
    (hprobe : ∀ run, ∃ error, probeOf host run execution mechanism = some (.error error))
    (hmarked : ∀ run commands, normalizedCommands execution = .ok commands → ∃ error,
      probeOf host run (normalizedExecution execution commands) mechanism = some (.error error))
    (h : verifyMechanismPostcondition host run execution mechanism observedAt = .ok m) :
    m.status ≠ .observed := by
  unfold verifyMechanismPostcondition at h
  obtain ⟨owner, -, h⟩ := bind_eq_ok h
  cases owner with
  | none => exact verifyInitial_unobserved hstatus (hprobe run) h
  | some ownership =>
    obtain ⟨commands, hcommands, h⟩ := bind_eq_ok h
    obtain ⟨verified, hverified, h⟩ := bind_eq_ok h
    have hunobserved := verifyInitial_unobserved hstatus (hmarked _ _ hcommands) hverified
    split at h
    · obtain rfl := Except.ok.inj h
      exact hunobserved
    · obtain rfl := Except.ok.inj h
      exact hunobserved

/-! ## 5. No probe observes a plan -/

/-- The record of a plan whose commands were applied. -/
def planRecord (ev : NormalizedEvent) (decision : DefensiveDecision) (iface : String)
    (honeypotPort : ℕ) (task : ReleaseTask) (traceId : String) (activation : Except String Unit)
    (metadata : Row F) [PyDate F] : Row F :=
  coreEvent ev decision (appliedOutcome traceId decision
    (buildEnforcementPlanOwned ev decision iface honeypotPort (some task)) task activation) metadata

omit [PyFloat F] [PyRepr F] [PyArith F] in
/-- A command that begins as a redirect of the core is passed over. -/
theorem redirectPortOf_none [PyFloat F] [PyArith F] {command : PyStr}
    (h : redirectOf.map pyStr <+: split command) (sourceIp : PyStr) (port : ℤ) :
    redirectPortOf F sourceIp port command = none := by
  obtain ⟨rest, hrest⟩ := h
  have hstart : (split command).take 7 ≠ redirectStart := by
    rw [← hrest]
    simp [redirectOf, insertRule, redirectStart]
  unfold redirectPortOf
  rw [if_pos hstart]
  rfl

omit [PyRepr F] in
theorem requestedRedirectPort_none
    (h : ∀ command ∈ requestedCommands execution, redirectOf.map pyStr <+: split command)
    (sourceIp : PyStr) (port : ℤ) : requestedRedirectPort execution sourceIp port = none :=
  List.findSome?_eq_none_iff.mpr fun command hcommand =>
    redirectPortOf_none (h command hcommand) sourceIp port

omit [PyFloat F] [PyRepr F] [PyConvert F] [PyArith F] in
theorem requestedCommands_normalized (commands : List PyStr) :
    requestedCommands (normalizedExecution execution commands) = commands := by
  refine requestedCommands_eq ?_
  rw [getStr, normalizedExecution, getKey_setKey, if_pos rfl]

omit [PyFloat F] [PyRepr F] [PyConvert F] [PyArith F] in
/-- Each command without its marker is one of the commands. -/
theorem normalizedCommands_mem {commands : List PyStr} {command' : PyStr}
    (h : normalizedCommands execution = .ok commands) (hmem : command' ∈ commands) :
    ∃ command ∈ requestedCommands execution, normalizedCommand command = .ok command' := by
  unfold normalizedCommands at h
  generalize requestedCommands execution = requested at h
  induction requested generalizing commands with
  | nil =>
    obtain rfl := Except.ok.inj h
    cases hmem
  | cons command requested ih =>
    rw [List.mapM_cons] at h
    obtain ⟨first, hfirst, h⟩ := bind_eq_ok h
    obtain ⟨others, hothers, h⟩ := bind_eq_ok h
    obtain rfl := Except.ok.inj h
    rcases List.mem_cons.mp hmem with rfl | hmem
    · exact ⟨command, List.mem_cons_self, hfirst⟩
    · obtain ⟨command, hcommand, hnormal⟩ := ih hmem hothers
      exact ⟨command, List.mem_cons_of_mem _ hcommand, hnormal⟩

/-- No device is named by the insertion of a rule. -/
theorem qdiscDevice_insertRule {rest : Argv} (hrest : rest ≠ []) :
    qdiscDevice (pyStr (commandToString (insertRule ++ rest))) = none := by
  have hplain : ∀ word ∈ insertRule, PlainWord word := fun word hword =>
    plain_redirectOf word (List.mem_append_left _ hword)
  unfold qdiscDevice
  rw [split_command hplain hrest]
  simp [insertRule]

/-- **No probe of the core's plan comes to `observed`**, whatever the host and its rules. -/
theorem never_observed [PyDate F] [PyCase F] [PyChars] {ev : NormalizedEvent}
    {decision : DefensiveDecision} {iface : String} {honeypotPort : ℕ} {task : ReleaseTask}
    {traceId : String} {activation : Except String Unit} {metadata : Row F}
    {digest : PyStr → PyStr} {bundle : ShadowRecordBundle F}
    (hplan : (buildEnforcementPlanOwned ev decision iface honeypotPort (some task)).applyCommands
      ≠ [])
    (hbundle : fromRustEvent digest
      (planRecord ev decision iface honeypotPort task traceId activation metadata) = .ok bundle)
    (h : verifyMechanismPostcondition host run bundle.execution bundle.mechanism observedAt =
      .ok m) : m.status ≠ .observed := by
  have hadapted := fromRustEvent_adapted hbundle
  have hcommands := hadapted.commands
  rw [planRecord, enforcement_coreEvent, commands_coreEvent] at hcommands
  have hrequested : (buildEnforcementPlanOwned ev decision iface honeypotPort
      (some task)).applyCommands.map pyStr = requestedCommands bundle.execution :=
    Except.ok.inj hcommands
  obtain ⟨rest, hrest, ⟨haction, happly⟩ | ⟨haction, happly⟩⟩ := applyCommands_start hplan
  · have hkind : actionKind
        (planRecord ev decision iface honeypotPort task traceId activation metadata) =
          pyStr "throttle" :=
      actionKind_coreEvent haction (by decide) (by decide +kernel)
    have hunobserved := hadapted.unobserved (by rw [hkind]; decide)
    have hdevice : extractIface (requestedCommands bundle.execution) = [] := by
      rw [← hrequested, happly]
      simp [extractIface, qdiscDevice_insertRule hrest]
    have hinterface : getStr "interface" bundle.mechanism.scope = some (.str []) := by
      rw [hadapted.scope, hkind, scopeOf, if_pos rfl, hdevice]
      simp [getStr, getKey]
    have hraises : ∀ run execution', ∃ error,
        probeOf host run execution' bundle.mechanism = some (.error error) := by
      intro run execution'
      obtain ⟨error, herror⟩ := verifyTrafficShaping_raises hinterface
      refine ⟨error, ?_⟩
      rw [probeOf, hadapted.kind, hkind, show mechanismKind (pyStr "throttle") = .trafficShaping by
        simp [mechanismKind]]
      exact congrArg some herror
    exact verifyMechanism_unobserved hunobserved (fun run => hraises run _)
      (fun run commands _ => hraises run _) h
  · have hkind : actionKind
        (planRecord ev decision iface honeypotPort task traceId activation metadata) =
          pyStr "redirect" :=
      actionKind_coreEvent haction (by decide) (by decide +kernel)
    have hunobserved := hadapted.unobserved (by rw [hkind]; decide)
    have hstart : ∀ command ∈ requestedCommands bundle.execution,
        redirectOf.map pyStr <+: split command := by
      intro command hcommand
      rw [← hrequested, happly] at hcommand
      obtain rfl := List.mem_singleton.mp hcommand
      rw [split_command plain_redirectOf hrest]
      exact List.prefix_append _ _
    have hraises : ∀ run execution',
        (∀ command ∈ requestedCommands execution', redirectOf.map pyStr <+: split command) →
        ∃ error, probeOf host run execution' bundle.mechanism = some (.error error) := by
      intro run execution' hstart
      obtain ⟨error, herror⟩ := verifyRedirection_raises (requestedRedirectPort_none hstart)
      refine ⟨error, ?_⟩
      rw [probeOf, hadapted.kind, hkind, show mechanismKind (pyStr "redirect") = .redirection by
        simp [mechanismKind]]
      exact congrArg some herror
    refine verifyMechanism_unobserved hunobserved (fun run => hraises run _ hstart)
      (fun run commands hcommands => hraises run _ fun command' hmem => ?_) h
    rw [requestedCommands_normalized] at hmem
    obtain ⟨command, hcommand, hnormal⟩ := normalizedCommands_mem hcommands hmem
    exact normalizedCommand_start (hstart command hcommand) rfl (by decide) hnormal

/-! ## 6. The rule of a plan in a readback -/

/-- The owned chain of an action. -/
def planChain (action : String) : String := if action = "throttle" then "throttle" else "prerouting"

/-- The command that reads a chain. -/
def listChain (chain : String) : List PyStr :=
  ["nft", "-j", "list", "chain", "inet", "azazel_edge", chain].map pyStr

/-- The readback of a chain that a runner hands out. -/
def Reads (run : Runner) (chain : String) (listing : PyJson F) : Prop :=
  ∃ result, run (listChain chain) = .ok result ∧ result.returncode = 0 ∧
    loads result.stdout = some listing

/-- The right side of an equality match on a key of a packet's metadata. -/
def metaRight (key : String) (expr : Row F) : Option (Option (PyJson F)) := do
  let matched ← mapping? (getStr "match" expr)
  if equalsStr (getStr "op" matched) (pyStr "==") = false then none
  let left ← mapping? (getStr "left" matched)
  let ofPacket ← mapping? (getStr "meta" left)
  if equalsStr (getStr "key" ofPacket) (pyStr key) then some (getStr "right" matched) else none

/-- A text that is this address. -/
def IsAddress (address : String) (value : Option (PyJson F)) : Prop :=
  ∃ shown : String, value = some (.str (pyStr shown)) ∧
    IpAddr.parse shown = IpAddr.parse address

/-- A rule in a listing, with its expressions. -/
def RuleIn (chain : String) (listing : PyJson F) (rule : Row F) (exprs : List (Row F)) : Prop :=
  ∃ entry ∈ nftables listing, mapping? (getStr "rule" entry) = some rule ∧
    equalsStr (getStr "chain" rule) (pyStr chain) = true ∧
    ∃ items, getStr "expr" rule = some (.arr items) ∧ exprs = mappings items

/-- A rule with this comment, for this flow and action. -/
structure FlowRule (flow : FlowScope) (action token : String) (rule : Row F)
    (exprs : List (Row F)) : Prop where
  comment : equalsStr (getStr "comment" rule) (pyStr token) = true
  source : ∃ expr ∈ exprs, ∃ value,
    matchRight ((nftFamily flow.sourceIp).getD "ip") "saddr" expr = some value ∧
      IsAddress flow.sourceIp value
  destination : ∃ expr ∈ exprs, ∃ value,
    matchRight ((nftFamily flow.sourceIp).getD "ip") "daddr" expr = some value ∧
      IsAddress flow.destinationIp value
  port : if protocolHasPort flow.protocol then
      ∃ expr ∈ exprs, matchRight flow.protocol "dport" expr =
        some (some (.int flow.destinationPort))
    else ∃ expr ∈ exprs, metaRight "l4proto" expr = some (some (jstr flow.protocol))
  verdict : ∃ expr ∈ exprs,
    (getStr (if action = "throttle" then "drop" else "redirect") expr).isSome = true

/-- The limit that a throttle inserts. -/
def limitOf (rate burst : ℕ) : Row F :=
  [(pyStr "rate", .int rate), (pyStr "burst", .int burst), (pyStr "per", jstr "second"),
    (pyStr "inv", .bool true), (pyStr "rate_unit", jstr "kbytes"),
    (pyStr "burst_unit", jstr "kbytes")]

/-- The expression that sets a mark. -/
def markOf (ctMark : ℕ) : Row F :=
  [(pyStr "key", .obj [(pyStr "ct", .obj [(pyStr "key", jstr "mark")])]),
    (pyStr "value", .int ctMark)]

/-- The rule that a plan inserts. -/
structure PlanRule (flow : FlowScope) (ev : NormalizedEvent) (action iface : String)
    (honeypotPort : ℕ) (task : ReleaseTask) (rule : Row F) (exprs : List (Row F)) : Prop
    extends FlowRule flow action task.ownerToken rule exprs where
  limit : action = "throttle" → ∃ expr ∈ exprs,
    getStr "limit" expr = some (.obj (limitOf (strengthFor ev).1 (strengthFor ev).2))
  ingress : action ≠ "throttle" → ∃ expr ∈ exprs,
    metaRight "iifname" expr = some (some (jstr iface))
  mark : action ≠ "throttle" → task.ctMark ≠ 0 → ∃ expr ∈ exprs,
    getStr "mangle" expr = some (.obj (markOf task.ctMark))
  target : action ≠ "throttle" → ∃ expr ∈ exprs,
    getStr "redirect" expr = some (.obj [(pyStr "port", .int honeypotPort)])

section Agreement

variable (F) (run : Runner) (ev : NormalizedEvent) (action iface : String) (honeypotPort : ℕ)
  (task : ReleaseTask)

/-- The readback of the plan's chain contains the rule that the plan inserts. -/
def HoldsRule : Prop :=
  ∃ (listing : PyJson F) (rule : Row F) (exprs : List (Row F)) (flow : FlowScope),
    Reads run (planChain action) listing ∧ RuleIn (planChain action) listing rule exprs ∧
      flowScope ev = some flow ∧ PlanRule flow ev action iface honeypotPort task rule exprs

/-- It contains a rule with the plan's comment, source, destination, port and action. -/
def HoldsFlow : Prop :=
  ∃ (listing : PyJson F) (rule : Row F) (exprs : List (Row F)) (flow : FlowScope),
    Reads run (planChain action) listing ∧ RuleIn (planChain action) listing rule exprs ∧
      flowScope ev = some flow ∧ FlowRule flow action task.ownerToken rule exprs

end Agreement

/-- A probe says `observed` of a plan whose rule is in the readback, and not of one of whose flow
there is none. -/
structure Agrees [PyChars] (host : Host) (run : Runner) (ev : NormalizedEvent)
    (action iface : String) (honeypotPort : ℕ) (task : ReleaseTask) (bundle : ShadowRecordBundle F)
    (observedAt : Option PyStr) : Prop where
  there : HoldsRule F run ev action iface honeypotPort task →
    ∃ m, verifyMechanismPostcondition host run bundle.execution bundle.mechanism observedAt =
      .ok m ∧ m.status = .observed
  absent : ¬ HoldsFlow F run ev action task → ∀ m,
    verifyMechanismPostcondition host run bundle.execution bundle.mechanism observedAt = .ok m →
      m.status ≠ .observed

/-- **The probe of a plan agrees with the readback only while its rule is not in it.** -/
theorem agrees_iff [PyDate F] [PyCase F] [PyChars] {ev : NormalizedEvent}
    {decision : DefensiveDecision} {iface : String} {honeypotPort : ℕ} {task : ReleaseTask}
    {traceId : String} {activation : Except String Unit} {metadata : Row F}
    {digest : PyStr → PyStr} {bundle : ShadowRecordBundle F} (host : Host) (run : Runner)
    (observedAt : Option PyStr)
    (hplan : (buildEnforcementPlanOwned ev decision iface honeypotPort (some task)).applyCommands
      ≠ [])
    (hbundle : fromRustEvent digest
      (planRecord ev decision iface honeypotPort task traceId activation metadata) = .ok bundle) :
    Agrees host run ev decision.action iface honeypotPort task bundle observedAt ↔
      ¬ HoldsRule F run ev decision.action iface honeypotPort task := by
  constructor
  · intro hagrees hrule
    obtain ⟨m, hverify, hobserved⟩ := hagrees.there hrule
    exact never_observed hplan hbundle hverify hobserved
  · intro hrule
    exact ⟨fun hholds => absurd hholds hrule, fun _ m hverify =>
      never_observed hplan hbundle hverify⟩

/-! ## 7. A throttle that is there -/

def sampleEvent : NormalizedEvent :=
  ⟨"2023-11-14T22:13:20Z", "192.0.2.7", "198.51.100.9", 2, 443, "tcp", 2001⟩

def sampleDecision : DefensiveDecision := ⟨"throttle", "score", "policy", 0, "192.0.2.7"⟩

def sampleRecord : Row Whole :=
  planRecord sampleEvent sampleDecision "eth1" 2222 sampleTask "trace-1" (.ok ()) []

/-- An equality match of a listing. -/
def matchJson (left : Row Whole) (right : PyJson Whole) : Row Whole :=
  [(pyStr "match", .obj [(pyStr "op", jstr "=="), (pyStr "left", .obj left),
    (pyStr "right", right)])]

def payloadJson (protocol field : String) : Row Whole :=
  [(pyStr "payload", .obj [(pyStr "protocol", jstr protocol), (pyStr "field", jstr field)])]

/-- The sample's rule, as `nft` lists it. -/
def sampleExprs : List (Row Whole) :=
  [matchJson (payloadJson "ip" "saddr") (jstr "192.0.2.7"),
    matchJson (payloadJson "ip" "daddr") (jstr "198.51.100.9"),
    matchJson (payloadJson "tcp" "dport") (.int 443),
    [(pyStr "limit", .obj (limitOf 32 32))], [(pyStr "drop", .null)]]

def sampleRule : Row Whole :=
  [(pyStr "family", jstr "inet"), (pyStr "table", jstr "azazel_edge"),
    (pyStr "chain", jstr "throttle"), (pyStr "handle", .int 7),
    (pyStr "comment", jstr sampleTask.ownerToken), (pyStr "expr", .arr (sampleExprs.map .obj))]

def sampleListing : PyJson Whole :=
  .obj [(pyStr "nftables", .arr [.obj [(pyStr "rule", .obj sampleRule)]])]

/-- A host whose chains are all listed so. -/
def sampleRun : Runner := fun argv => .ok ⟨argv, 0, text sampleListing, []⟩

def sampleHost : Host := ⟨id, pyStr "2023-11-14T22:13:21Z", some⟩

theorem sample_adapted : ∃ bundle, fromRustEvent id sampleRecord = .ok bundle := by
  have h : (fromRustEvent id sampleRecord).toOption.isSome = true := by decide +kernel
  cases hrecord : fromRustEvent id sampleRecord with
  | error error => rw [hrecord] at h; cases h
  | ok bundle => exact ⟨bundle, rfl⟩

theorem settled_sampleListing : settled sampleListing = sampleListing := by
  simp [sampleListing, sampleRule, sampleExprs, matchJson, payloadJson, limitOf, jstr, settled,
    settledItems, settledMembers, settledMember, pyDict, setKey]

/-- The sample's rule is in its readback. -/
theorem sample_holdsRule :
    HoldsRule Whole sampleRun sampleEvent "throttle" "eth1" 2222 sampleTask := by
  refine ⟨sampleListing, sampleRule, sampleExprs,
    ⟨"192.0.2.7", "198.51.100.9", "tcp", 443⟩, ?_, ?_, by decide +kernel, ?_⟩
  · exact ⟨_, rfl, rfl, (loads_text sampleListing).trans (congrArg some settled_sampleListing)⟩
  · refine ⟨[(pyStr "rule", .obj sampleRule)], ?_, ?_, ?_, sampleExprs.map .obj, ?_, rfl⟩
    · simp [nftables, sampleListing, getStr, getKey, mappings, mapping?]
    · simp [getStr, getKey, mapping?]
    · simp [getStr, getKey, sampleRule, planChain, jstr, equalsStr]
    · simp [getStr, getKey, sampleRule]
  · have hfamily : (nftFamily "192.0.2.7").getD "ip" = "ip" := by decide +kernel
    have hlimit : strengthFor sampleEvent = (32, 32) := by decide
    have hport : protocolHasPort "tcp" = true := by decide
    refine ⟨⟨?_, ?_, ?_, ?_, ?_⟩, ?_, ?_, ?_, ?_⟩
    · simp [equalsStr, getStr, getKey, sampleRule, jstr]
    · rw [hfamily]
      refine ⟨_, List.mem_cons_self, some (jstr "192.0.2.7"), ?_, "192.0.2.7", rfl, rfl⟩
      simp [matchRight, matchJson, payloadJson, getStr, getKey, mapping?, equalsStr, jstr]
    · rw [hfamily]
      refine ⟨_, List.mem_cons_of_mem _ List.mem_cons_self, some (jstr "198.51.100.9"), ?_,
        "198.51.100.9", rfl, rfl⟩
      simp [matchRight, matchJson, payloadJson, getStr, getKey, mapping?, equalsStr, jstr]
    · rw [if_pos hport]
      refine ⟨_, List.mem_cons_of_mem _ (List.mem_cons_of_mem _ List.mem_cons_self), ?_⟩
      simp [matchRight, matchJson, payloadJson, getStr, getKey, mapping?, equalsStr, jstr]
    · exact ⟨[(pyStr "drop", .null)], by simp [sampleExprs], by simp [getStr, getKey]⟩
    · intro _
      rw [hlimit]
      exact ⟨[(pyStr "limit", .obj (limitOf 32 32))], by simp [sampleExprs], by simp [getStr, getKey]⟩
    · exact fun hne => absurd rfl hne
    · exact fun hne => absurd rfl hne
    · exact fun hne => absurd rfl hne

theorem sample_applyCommands : (buildEnforcementPlanOwned sampleEvent sampleDecision "eth1" 2222
    (some sampleTask)).applyCommands ≠ [] := by
  decide +kernel

theorem agrees_iff_sample : ∃ bundle, fromRustEvent id sampleRecord = .ok bundle ∧
    (Agrees sampleHost sampleRun sampleEvent "throttle" "eth1" 2222 sampleTask bundle none ↔
      ¬ HoldsRule Whole sampleRun sampleEvent "throttle" "eth1" 2222 sampleTask) := by
  obtain ⟨bundle, hbundle⟩ := sample_adapted
  exact ⟨bundle, hbundle, agrees_iff sampleHost sampleRun none sample_applyCommands hbundle⟩

/-- **A throttle that was applied and is there is not observed.** -/
theorem throttle_unobserved : ∃ bundle, fromRustEvent id sampleRecord = .ok bundle ∧
    HoldsRule Whole sampleRun sampleEvent "throttle" "eth1" 2222 sampleTask ∧
    ¬ Agrees sampleHost sampleRun sampleEvent "throttle" "eth1" 2222 sampleTask bundle none := by
  obtain ⟨bundle, hbundle⟩ := sample_adapted
  refine ⟨bundle, hbundle, sample_holdsRule, fun hagrees => ?_⟩
  obtain ⟨m, hverify, hobserved⟩ := hagrees.there sample_holdsRule
  exact never_observed sample_applyCommands hbundle hverify hobserved

end AzazelEdge.Outcome
