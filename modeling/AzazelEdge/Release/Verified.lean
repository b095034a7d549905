/-
# What an attempt deletes, and when it reports a release

A release attempt is a dialogue with a runner that may answer anything.  This file follows the
dialogue: each command stands in the history of the commands and answers before it, and the report
stands at its end.

* A delete command is issued only for a handle that the attempt's own readback listed: for an nft
  lease under the lease's owner token and flow identity, with no rule of another flow under that
  token; for the `tc` lease of an older core, which has neither chain nor token, for its qdisc of the
  handle and parameters it recorded.
* `released` is reported only at the end of a history whose last readback shows the lease's state
  gone, and for a redirect shows its connections cleared, by the lease's mark where it has one and
  the ruleset shows no other user of that mark.

`deletes_own` and `released_verified` are the two halves; both come from one contract on histories,
`meets_releaseOwnedState`.
-/
import AzazelEdge.Release.Kernel

namespace AzazelEdge.Release

open AzazelEdge.Lib

/-! ## 1. The commands -/

/-- A command with its answer. -/
abbrev Asked := Argv × Reply

def rulesetArgv : Argv := ["nft", "-j", "list", "ruleset"]

def showQdiscArgv (task : ReleaseTask) : Argv := ["tc", "-j", "qdisc", "show", "dev", task.iface]

def deleteQdiscArgv (task : ReleaseTask) : Argv :=
  ["tc", "qdisc", "del", "dev", task.iface, "root", "handle", task.tcHandle]

/-- A command that removes a rule or a qdisc. -/
def isDelete (argv : Argv) : Bool :=
  argv.take 2 = ["nft", "delete"] || argv.take 3 = ["tc", "qdisc", "del"]

/-! ## 2. What a delete and a release rest on -/

/-- The rules of a listing in this chain, under the lease's token. -/
def tokenRules (task : ReleaseTask) (chain : String) (entries : List Json) : List Json :=
  entries.filterMap (ownedRule? task.ownerToken chain)

/-- The handle is one of a rule with the lease's token and flow, and no rule has the token on
another flow. -/
structure Listed (task : ReleaseTask) (chain : String) (entries : List Json) (handle : ℕ) :
    Prop where
  own : ∃ rule ∈ tokenRules task chain entries, nftRuleIdentityMatch task rule = true ∧
    (rule.get? "handle").bind Json.asU64? = some handle
  alone : ∀ rule ∈ tokenRules task chain entries, nftRuleIdentityMatch task rule = true

/-- A root qdisc of the lease's handle. -/
def HasHandle (task : ReleaseTask) (item : Json) : Prop :=
  (item.get? "root").bind Json.asBool? = some true ∧ item.strAt? "handle" = some task.tcHandle

/-- The items of a `tc -j qdisc show` that can be read. -/
def readQdiscs (reply : Reply) : Option (List Json) :=
  match reply with
  | .error _ => none
  | .ok result =>
    if result.returncode ≠ 0 then none
    else match result.stdout with
      | .error _ => none
      | .ok payload => payload.asArray?

/-- **A delete that is covered**: by the readback that the attempt began with, and nothing but
deletes of that readback's handles in between. -/
inductive DeleteCovered (task : ReleaseTask) : List Asked → Argv → Prop
  | rule {chain : String} {reply : Reply} {entries : List Json} {deleted : List Asked} {handle : ℕ}
      (hchain : ownedNftChain task = some chain) (hread : readListing reply = some entries)
      (hdeleted : ∀ asked ∈ deleted, ∃ handle, Listed task chain entries handle ∧
        asked.1 = deleteRuleArgv chain handle)
      (hlisted : Listed task chain entries handle) :
      DeleteCovered task ((listChainArgv chain, reply) :: deleted) (deleteRuleArgv chain handle)
  | qdisc {reply : Reply} {items : List Json} (hlegacy : isLegacyTcThrottle task = true)
      (hread : readQdiscs reply = some items)
      (hpresent : ∃ item ∈ items, HasHandle task item ∧ item.strAt? "kind" = some "tbf" ∧
        tbfParametersMatch task item = true) :
      DeleteCovered task [(showQdiscArgv task, reply)] (deleteQdiscArgv task)

/-- The clean-up of a redirect's connections answered `cleared` or `none_found`. -/
def CleanUp (reply : Reply) : Prop :=
  readConntrack reply = "cleared" ∨ readConntrack reply = "none_found"

/-- What follows the last readback of a lease that is reported released. -/
inductive Cleared (task : ReleaseTask) : List Asked → Prop
  | restriction (haction : task.action ≠ .redirect) : Cleared task []
  /-- A legacy redirect set no mark; its connections are those of its source and port. -/
  | tuple {reply : Reply} (haction : task.action = .redirect)
      (hmechanism : task.mechanism ≠ .nftFlowRedirect) (hreply : CleanUp reply) :
      Cleared task [(conntrackArgv task, reply)]
  | marked {ruleset reply : Reply} {entries : List Json} (haction : task.action = .redirect)
      (hmechanism : task.mechanism = .nftFlowRedirect) (hread : readListing ruleset = some entries)
      (hforeign : ∀ entry ∈ entries, foreignMarkUser? entry = none) (hreply : CleanUp reply) :
      Cleared task [(rulesetArgv, ruleset), (conntrackArgv task, reply)]

/-- **A release that is verified** by the last readback of its history, and what follows that. -/
inductive ReleaseVerified (task : ReleaseTask) : List Asked → Prop
  | rule {chain : String} {before after : List Asked} {reply : Reply} {entries : List Json}
      (hchain : ownedNftChain task = some chain) (hread : readListing reply = some entries)
      (habsent : tokenRules task chain entries = []) (hafter : Cleared task after) :
      ReleaseVerified task (before ++ (listChainArgv chain, reply) :: after)
  | qdisc {before : List Asked} {reply : Reply} {items : List Json}
      (hlegacy : isLegacyTcThrottle task = true) (hread : readQdiscs reply = some items)
      (habsent : ∀ item ∈ items, ¬ HasHandle task item) :
      ReleaseVerified task (before ++ [(showQdiscArgv task, reply)])

/-! ## 3. The contract -/

variable {task : ReleaseTask} {chain : String} {nowEpoch : Epoch}

/-- A delete command needs its cover. -/
def MayIssue (task : ReleaseTask) (history : List Asked) (argv : Argv) : Prop :=
  isDelete argv = true → DeleteCovered task history argv

/-- A release needs its verification. -/
def MayReport (task : ReleaseTask) (history : List Asked) (result : Except String ReleaseOutcome) :
    Prop :=
  ∀ outcome, result = .ok outcome → outcome.status = .released → ReleaseVerified task history

/-- The contract, with the postcondition left open. -/
abbrev Follows {α : Type} (task : ReleaseTask) (post : List Asked → α → Prop)
    (history : List Asked) (p : Cmd α) : Prop :=
  Prog.Meets (Prog.onHistory (MayIssue task) post) history p

/-- A command that deletes nothing, and what follows it. -/
theorem follows_call {α : Type} {post : List Asked → α → Prop} {history : List Asked} {argv : Argv}
    {next : Reply → Cmd α} (hargv : isDelete argv = false)
    (hnext : ∀ reply, Follows task post (history ++ [(argv, reply)]) (next reply)) :
    Follows task post history (.call argv next) := by
  refine ⟨fun hdelete => ?_, ?_⟩
  · rw [hargv] at hdelete
    cases hdelete
  · rintro reply later rfl
    exact hnext reply

theorem mayReport_error {history : List Asked} {e : String} :
    MayReport task history (.error e) := nofun

theorem mayReport_pending {history : List Asked} {outcome : ReleaseOutcome}
    (h : outcome.status ≠ .released) : MayReport task history (.ok outcome) := by
  rintro _ ⟨⟩ hreleased
  exact absurd hreleased h

/-! ## 4. An nft rule -/

theorem isDelete_listChain : isDelete (listChainArgv chain) = false := by
  simp [isDelete, listChainArgv]

theorem isDelete_conntrack : isDelete (conntrackArgv task) = false := by
  unfold conntrackArgv
  split <;> simp [isDelete]

/-- `foreign_ct_mark_use` on the answer to its command. -/
def readForeignUse (reply : Reply) : Except String (Option String) :=
  match reply with
  | .error e => .error e
  | .ok result =>
    if result.returncode ≠ 0 then
      .error ("nft ruleset readback failed: " ++ boundedError result.stderr)
    else match result.stdout with
      | .error e => .error ("nft ruleset parse failed: " ++ e)
      | .ok payload =>
        match nftEntries payload with
        | none => .error "nft ruleset missing nftables array"
        | some entries => .ok (entries.findSome? foreignMarkUser?)

theorem foreignCtMarkUse_eq :
    foreignCtMarkUse = .call rulesetArgv fun reply => .done (readForeignUse reply) := by
  unfold foreignCtMarkUse
  refine congrArg (Prog.call rulesetArgv) (funext fun reply => ?_)
  unfold readForeignUse
  cases reply with
  | error e => rfl
  | ok result =>
    by_cases hcode : result.returncode ≠ 0
    · simp only [if_pos hcode]
    · simp only [if_neg hcode]
      cases hout : result.stdout with
      | error e => rfl
      | ok payload =>
        dsimp only
        cases nftEntries payload <;> rfl

/-- No other user of the mark is reported only of a ruleset that was read and has none. -/
theorem readForeignUse_none {reply : Reply} (h : readForeignUse reply = .ok none) :
    ∃ entries, readListing reply = some entries ∧
      ∀ entry ∈ entries, foreignMarkUser? entry = none := by
  unfold readForeignUse at h
  split at h
  · cases h
  · rename_i result
    split at h
    · cases h
    · rename_i hcode
      split at h
      · cases h
      · rename_i hout
        split at h
        · cases h
        · rename_i entries hentries
          have hlisting : readListing (.ok result) = some entries := by
            rw [readListing, if_neg hcode, hout]
            exact hentries
          exact ⟨entries, hlisting, List.findSome?_eq_none_iff.mp (Except.ok.inj h)⟩

/-- **The clean-up reports cleared connections only after asking for them.** -/
theorem follows_clearRedirectConnections (history : List Asked) :
    Follows task (fun later connections => connectionsCleared connections = true →
      ∃ after, later = history ++ after ∧ Cleared task after) history
      (clearRedirectConnections task) := by
  unfold clearRedirectConnections
  split
  · rename_i haction
    exact fun _ => ⟨[], (List.append_nil _).symm, .restriction haction⟩
  · rename_i haction
    have haction : task.action = .redirect := not_not.mp haction
    split
    · rename_i hmechanism
      rw [foreignCtMarkUse_eq, Prog.call_bind]
      refine follows_call rfl fun ruleset => ?_
      rw [Prog.done_bind]
      split
      · rename_i hnone
        obtain ⟨entries, hread, hforeign⟩ := readForeignUse_none hnone
        refine follows_call isDelete_conntrack fun reply hcleared => ?_
        exact ⟨_, List.append_assoc _ _ _,
          .marked haction hmechanism hread hforeign (readConntrack_cleared hcleared)⟩
      · intro hcleared
        rw [connectionsCleared_bounded (by decide) (by decide)] at hcleared
        cases hcleared
      · intro hcleared
        rw [connectionsCleared_bounded (by decide) (by decide)] at hcleared
        cases hcleared
    · rename_i hmechanism
      refine follows_call isDelete_conntrack fun reply hcleared => ?_
      exact ⟨_, rfl, .tuple haction hmechanism (readConntrack_cleared hcleared)⟩

/-- What is reported once the rule was read absent. -/
theorem follows_ruleAbsent {before : List Asked} {reply : Reply} {entries : List Json}
    {result : String} {commandCount deviating : ℕ} (hchain : ownedNftChain task = some chain)
    (hread : readListing reply = some entries) (habsent : tokenRules task chain entries = []) :
    Follows task (MayReport task) (before ++ [(listChainArgv chain, reply)])
      ((clearRedirectConnections task).map fun connections =>
        .ok (ruleAbsentOutcome task nowEpoch result commandCount deviating connections)) := by
  refine Prog.Meets.map ((follows_clearRedirectConnections _).post fun later connections h => ?_)
  rintro _ ⟨⟩ hreleased
  unfold ruleAbsentOutcome at hreleased
  split at hreleased
  · rename_i hcleared
    obtain ⟨after, rfl, hafter⟩ := h hcleared
    rw [List.append_assoc]
    exact .rule hchain hread habsent hafter
  · cases hreleased

/-- Nothing was read under the token. -/
theorem tokenRules_nil {reply : Reply} (h : readOwnedRules task chain reply = .ok []) :
    ∃ entries, readListing reply = some entries ∧ tokenRules task chain entries = [] := by
  obtain ⟨entries, hread, hrules⟩ := readOwnedRules_ok h
  exact ⟨entries, hread, List.forall₂_nil_right_iff.mp (ownedRulesIn_ok hrules)⟩

/-- The handles that a readback reports are covered by it. -/
theorem listed_of_read {reply : Reply} {rules : List (ℕ × Bool)}
    (h : readOwnedRules task chain reply = .ok rules) : ∃ entries,
      readListing reply = some entries ∧
      ∀ handle ∈ rules.map Prod.fst, Listed task chain entries handle := by
  obtain ⟨entries, hread, -⟩ := readOwnedRules_ok h
  refine ⟨entries, hread, fun handle hhandle => ?_⟩
  obtain ⟨entries', json, hread', hjson, hidentity, hvalue, -⟩ := readOwnedRules_mem h hhandle
  obtain rfl := Option.some.inj (hread.symm.trans hread')
  exact ⟨⟨json, hjson, hidentity, hvalue⟩, fun rule hrule =>
    readOwnedRules_identity h hread hrule⟩

/-- The delete loop issues its deletes one after the other. -/
theorem follows_deleteRules {reply : Reply} {entries : List Json}
    (hchain : ownedNftChain task = some chain) (hread : readListing reply = some entries)
    {handles : List ℕ} (hhandles : ∀ handle ∈ handles, Listed task chain entries handle)
    {deleted : List Asked} (hdeleted : ∀ asked ∈ deleted, ∃ handle,
      Listed task chain entries handle ∧ asked.1 = deleteRuleArgv chain handle) :
    Follows task (fun _ _ => True) ((listChainArgv chain, reply) :: deleted)
      (deleteRules chain handles) := by
  induction handles generalizing deleted with
  | nil => exact trivial
  | cons handle handles ih =>
    have hlisted := hhandles handle List.mem_cons_self
    refine ⟨fun _ => .rule hchain hread hdeleted hlisted, ?_⟩
    rintro answer _ rfl
    refine Prog.Meets.map (ih (fun h hh => hhandles h (List.mem_cons_of_mem _ hh)) ?_)
    intro asked hasked
    rcases List.mem_append.mp hasked with hasked | hasked
    · exact hdeleted asked hasked
    · rw [List.mem_singleton.mp hasked]
      exact ⟨handle, hlisted, rfl⟩

theorem follows_verifyAbsence {history : List Asked} {commandCount deviating : ℕ}
    (hchain : ownedNftChain task = some chain) : Follows task (MayReport task) history
      (verifyAbsence task chain nowEpoch commandCount deviating) := by
  refine follows_call isDelete_listChain fun reply => ?_
  rw [Prog.done_bind]
  split
  · exact mayReport_error
  · rename_i hnone
    obtain ⟨entries, hread, habsent⟩ := tokenRules_nil hnone
    exact follows_ruleAbsent hchain hread habsent
  · exact mayReport_pending nofun

theorem follows_releaseNftRule (hchain : ownedNftChain task = some chain) :
    Follows task (MayReport task) [] (releaseNftRule task chain nowEpoch) := by
  refine follows_call isDelete_listChain fun reply => ?_
  rw [Prog.done_bind]
  split
  · exact mayReport_error
  · rename_i hnone
    obtain ⟨entries, hread, habsent⟩ := tokenRules_nil hnone
    exact follows_ruleAbsent hchain hread habsent
  · rename_i rules _ hrules
    obtain ⟨entries, hread, hlisted⟩ := listed_of_read hrules
    refine Prog.Meets.bind ((follows_deleteRules hchain hread hlisted (by simp)).post
      fun later errors _ => ?_)
    split
    · exact follows_verifyAbsence hchain
    · exact mayReport_pending nofun

/-! ## 5. A legacy throttle -/

/-- `tc_owned_state_present` on the answer to its command. -/
def readQdisc (task : ReleaseTask) (reply : Reply) : Except String Bool :=
  match reply with
  | .error e => .error e
  | .ok result =>
    if result.returncode ≠ 0 then .error ("tc readback failed: " ++ boundedError result.stderr)
    else match result.stdout with
      | .error e => .error ("tc readback parse failed: " ++ e)
      | .ok payload =>
        match payload.asArray? with
        | none => .error "tc readback was not an array"
        | some items => tcOwnedIn task items

theorem tcOwnedStatePresent_eq :
    tcOwnedStatePresent task = .call (showQdiscArgv task) fun reply =>
      .done (readQdisc task reply) := by
  unfold tcOwnedStatePresent
  refine congrArg (Prog.call (showQdiscArgv task)) (funext fun reply => ?_)
  unfold readQdisc
  cases reply with
  | error e => rfl
  | ok result =>
    by_cases hcode : result.returncode ≠ 0
    · simp only [if_pos hcode]
    · simp only [if_neg hcode]
      cases hout : result.stdout with
      | error e => rfl
      | ok payload =>
        dsimp only
        cases payload.asArray? <;> rfl

theorem readQdisc_ok {reply : Reply} {present : Bool} (h : readQdisc task reply = .ok present) :
    ∃ items, readQdiscs reply = some items ∧ tcOwnedIn task items = .ok present := by
  unfold readQdisc at h
  unfold readQdiscs
  split at h
  · cases h
  · split at h
    · cases h
    · rename_i hcode
      simp only [if_neg hcode]
      split at h
      · cases h
      · rename_i hout
        split at h
        · cases h
        · rename_i items hitems
          exact ⟨items, hitems, h⟩

theorem tcOwnedIn_skip {item : Json} {items : List Json} (h : ¬ HasHandle task item) :
    tcOwnedIn task (item :: items) = tcOwnedIn task items := by
  rw [tcOwnedIn]
  split
  · rfl
  · rename_i hroot
    rw [if_pos fun hhandle => h ⟨not_not.mp hroot, hhandle⟩]

/-- The first root qdisc of the handle decides. -/
theorem tcOwnedIn_found {item : Json} {items : List Json} {present : Bool}
    (hhandle : HasHandle task item) (h : tcOwnedIn task (item :: items) = .ok present) :
    present = true ∧ item.strAt? "kind" = some "tbf" ∧ tbfParametersMatch task item = true := by
  rw [tcOwnedIn, if_neg (not_not.mpr hhandle.1), if_neg (not_not.mpr hhandle.2)] at h
  split at h
  · cases h
  · rename_i hkind
    split at h
    · cases h
    · rename_i hmatch
      exact ⟨(Except.ok.inj h).symm, not_not.mp hkind, by simpa using hmatch⟩

theorem tcOwnedIn_present {items : List Json} (h : tcOwnedIn task items = .ok true) :
    ∃ item ∈ items, HasHandle task item ∧ item.strAt? "kind" = some "tbf" ∧
      tbfParametersMatch task item = true := by
  induction items with
  | nil => cases h
  | cons item items ih =>
    by_cases hhandle : HasHandle task item
    · exact ⟨item, List.mem_cons_self, hhandle, (tcOwnedIn_found hhandle h).2⟩
    · rw [tcOwnedIn_skip hhandle] at h
      obtain ⟨other, hother, hfound⟩ := ih h
      exact ⟨other, List.mem_cons_of_mem _ hother, hfound⟩

theorem tcOwnedIn_absent {items : List Json} (h : tcOwnedIn task items = .ok false) :
    ∀ item ∈ items, ¬ HasHandle task item := by
  induction items with
  | nil => exact fun _ hitem => by cases hitem
  | cons item items ih =>
    by_cases hhandle : HasHandle task item
    · cases (tcOwnedIn_found hhandle h).1
    · rw [tcOwnedIn_skip hhandle] at h
      intro other hother
      rcases List.mem_cons.mp hother with rfl | hother
      · exact hhandle
      · exact ih h other hother

/-- What is reported once the qdisc was read absent. -/
theorem verified_qdisc {before : List Asked} {reply : Reply}
    (hlegacy : isLegacyTcThrottle task = true) (h : readQdisc task reply = .ok false) :
    ReleaseVerified task (before ++ [(showQdiscArgv task, reply)]) := by
  obtain ⟨items, hread, hitems⟩ := readQdisc_ok h
  exact .qdisc hlegacy hread (tcOwnedIn_absent hitems)

theorem follows_releaseThrottle (hlegacy : isLegacyTcThrottle task = true) :
    Follows task (MayReport task) [] (releaseThrottle task nowEpoch) := by
  rw [releaseThrottle, tcOwnedStatePresent_eq, Prog.call_bind]
  refine follows_call rfl fun reply => ?_
  rw [Prog.done_bind]
  split
  · exact mayReport_error
  · rename_i hpresent
    obtain ⟨items, hread, hitems⟩ := readQdisc_ok hpresent
    refine ⟨fun _ => .qdisc hlegacy hread (tcOwnedIn_present hitems), ?_⟩
    rintro answer _ rfl
    dsimp only
    split
    · exact mayReport_error
    · split
      · exact mayReport_pending nofun
      · rw [tcOwnedStatePresent_eq]
        refine follows_call rfl fun later => ?_
        rw [Prog.done_bind]
        cases hlater : readQdisc task later with
        | error e => exact mayReport_error
        | ok remains =>
          cases remains with
          | true => exact mayReport_pending nofun
          | false => exact fun _ _ _ => verified_qdisc hlegacy hlater
  · rename_i habsent
    exact fun _ _ _ => verified_qdisc hlegacy habsent

/-! ## 6. An attempt -/

/-- **Every attempt keeps to the contract**, whatever is answered. -/
theorem meets_releaseOwnedState (task : ReleaseTask) (nowEpoch : Epoch) :
    Follows task (MayReport task) [] (releaseOwnedState task nowEpoch) := by
  unfold releaseOwnedState
  split
  · rename_i hlegacy
    exact follows_releaseThrottle hlegacy
  · split
    · rename_i chain hchain
      exact follows_releaseNftRule hchain
    · exact mayReport_error

/-- The attempt's first readback is the first entry of its history. -/
theorem trace_first {first : Reply} {rest : List Reply} (hlegacy : isLegacyTcThrottle task = false)
    (hchain : ownedNftChain task = some chain) : ∃ later,
      (releaseOwnedState task nowEpoch).trace (first :: rest) =
        (listChainArgv chain, first) :: later := by
  unfold releaseOwnedState
  rw [hlegacy, hchain]
  exact ⟨_, rfl⟩

/-- **An attempt deletes only what its own readback listed as the lease's, deletes nothing where
the readback shows the token on another flow, and reports a release only when its last readback
shows the state gone and the connections cleared.** -/
theorem attempt_verified (task : ReleaseTask) (nowEpoch : Epoch) :
    (∀ replies argv next,
      (releaseOwnedState task nowEpoch).resume replies = some (.call argv next) →
      isDelete argv = true →
      DeleteCovered task ((releaseOwnedState task nowEpoch).trace replies) argv) ∧
    (∀ chain first entries rule rest argv next, isLegacyTcThrottle task = false →
      ownedNftChain task = some chain → readListing first = some entries →
      rule ∈ tokenRules task chain entries → nftRuleIdentityMatch task rule = false →
      (releaseOwnedState task nowEpoch).resume (first :: rest) = some (.call argv next) →
      isDelete argv = false) ∧
    (∀ replies outcome,
      (releaseOwnedState task nowEpoch).run replies = some (.ok outcome) →
      outcome.status = .released →
      ReleaseVerified task ((releaseOwnedState task nowEpoch).trace replies)) := by
  have hmeets := meets_releaseOwnedState task nowEpoch
  have hdeletes : ∀ replies argv next,
      (releaseOwnedState task nowEpoch).resume replies = some (.call argv next) →
      isDelete argv = true →
      DeleteCovered task ((releaseOwnedState task nowEpoch).trace replies) argv := by
    intro replies argv next hresume
    exact hmeets.issued hresume
  refine ⟨hdeletes, ?_, ?_⟩
  · intro chain first entries rule rest argv next hlegacy hchain hread hrule hforeign hresume
    refine Bool.eq_false_iff.mpr fun hdelete => ?_
    have hcovered := hdeletes _ _ _ hresume hdelete
    obtain ⟨later, htrace⟩ := trace_first
      hlegacy hchain
    rw [htrace] at hcovered
    generalize hhistory : (listChainArgv chain, first) :: later = history at hcovered
    cases hcovered with
    | rule hchain' hread' _ hlisted =>
      obtain rfl := Option.some.inj (hchain.symm.trans hchain')
      obtain ⟨hfirst, -⟩ := List.cons.inj hhistory
      obtain rfl := (Prod.mk.inj hfirst).2
      obtain rfl := Option.some.inj (hread.symm.trans hread')
      rw [hlisted.alone rule hrule] at hforeign
      cases hforeign
    | qdisc hthrottle =>
      rw [hlegacy] at hthrottle
      cases hthrottle
  · intro replies outcome hrun hreleased
    exact hmeets.ended hrun outcome rfl hreleased

/-! ## 7. The two forms of an older core -/

/-- A throttle of an older core. -/
def legacyThrottle : ReleaseTask :=
  (buildReleaseTask "trace-1" .throttle "eth0" "192.0.2.7" 0 0 100 300 (sampleNow 0)).get
    (by decide +kernel)

/-- A redirect of an older core. -/
def legacyRedirect : ReleaseTask :=
  (buildReleaseTask "trace-1" .redirect "eth0" "192.0.2.7" 80 2222 0 300 (sampleNow 0)).get
    (by decide +kernel)

/-- The qdisc of the legacy throttle, then its delete, then no qdisc. -/
def qdiscReplies : List Reply :=
  [printed (.arr [.obj [("root", .bool true), ("handle", .str legacyThrottle.tcHandle),
      ("kind", .str "tbf"), ("rate", .int 32000), ("burst", .int 4096), ("lat", .int 100000)]]),
    printed .null, printed (.arr [])]

/-- A chain without rules, and a clean-up that succeeded. -/
def tupleReplies : List Reply := [printed (.obj [("nftables", .arr [])]), printed .null]

/-- Whether a run ended in a release. -/
def releasedBy (result : Option (Except String ReleaseOutcome)) : Bool :=
  match result with
  | some (.ok outcome) => outcome.status = .released
  | _ => false

/-- **Both are released, as designed, without what the newer forms rest on**: the throttle deletes
a qdisc and reads no chain, the redirect clears its connections and reads no ruleset. -/
theorem released_legacy :
    (validateTask legacyThrottle = .ok () ∧
      releasedBy ((releaseOwnedState legacyThrottle 0).run qdiscReplies) = true ∧
      ((releaseOwnedState legacyThrottle 0).trace qdiscReplies).map Prod.fst =
        [showQdiscArgv legacyThrottle, deleteQdiscArgv legacyThrottle,
          showQdiscArgv legacyThrottle] ∧ isDelete (deleteQdiscArgv legacyThrottle) = true) ∧
    (validateTask legacyRedirect = .ok () ∧
      releasedBy ((releaseOwnedState legacyRedirect 0).run tupleReplies) = true ∧
      ((releaseOwnedState legacyRedirect 0).trace tupleReplies).map Prod.fst =
        [listChainArgv "prerouting", conntrackArgv legacyRedirect]) := by
  decide +kernel

end AzazelEdge.Release
