/-
# The kernel's owned rules, and the commands that change them

`main.rs`: `flow_limit_argv` and `build_enforcement_plan_owned`, whose one command inserts a lease's
rule.  Around them stands what `nft` is relied on for, in the terms of its own arguments and of its
JSON: an insertion adds the rule with the comment it names, a deletion that reports success has
removed the rule of that handle, and a listing that can be read shows the rules as they are.

Only the rules that carry an owner token are in the state; the core inserts no others.
-/
import AzazelEdge.Lib.Edit
import AzazelEdge.Release.Attempt

namespace AzazelEdge.Release

open AzazelEdge.Lib

/-! ## 1. The command that applies a lease -/

/-- `nft_comment_arg`: the token as an nft quoted string. -/
def nftCommentArg (ownerToken : String) : Option String :=
  if validOwnerToken ownerToken then some ("\"" ++ ownerToken ++ "\"") else none

/-- `flow_limit_argv`. -/
def flowLimitArgv (verb : String) (flow : FlowScope) (rate burst : ℕ) : Argv :=
  let family := (nftFamily flow.sourceIp).getD "ip"
  ["nft", verb, "rule", "inet", "azazel_edge", "throttle", family, "saddr", flow.sourceIp, family,
      "daddr", flow.destinationIp] ++
    (if protocolHasPort flow.protocol then
      [flow.protocol, "dport", toString flow.destinationPort]
    else ["meta", "l4proto", flow.protocol]) ++
    ["limit", "rate", "over", toString rate, "kbytes/second", "burst", toString burst, "kbytes",
      "drop"]

/-- The redirect of `build_enforcement_plan_owned`, without its comment. -/
def flowRedirectArgv (flow : FlowScope) (iface : String) (decoyPort ctMark : ℕ) : Argv :=
  ["nft", "insert", "rule", "inet", "azazel_edge", "prerouting", "iifname", "\"" ++ iface ++ "\"",
      "ip", "saddr", flow.sourceIp, "ip", "daddr", flow.destinationIp, "tcp", "dport",
      toString flow.destinationPort] ++
    (if ctMark ≠ 0 then ["ct", "mark", "set", toString ctMark] else []) ++
    ["redirect", "to", toString decoyPort]

/-- The one apply command of the plan of `build_enforcement_plan_owned`. -/
def Alert.applyArgv (alert : Alert) (task : ReleaseTask) : Argv :=
  (match alert.restriction with
    | .throttle rate burst => flowLimitArgv "insert" alert.flow rate burst
    | .redirect iface decoyPort => flowRedirectArgv alert.flow iface decoyPort task.ctMark) ++
  (match nftCommentArg task.ownerToken with
    | some comment => ["comment", comment]
    | none => [])

/-! ## 2. Rules -/

/-- A rule of the owned table that carries an owner token, with its JSON in a listing. -/
structure NftRule where
  chain : String
  token : String
  handle : ℕ
  json : Json
  chain_json : json.strAt? "chain" = some chain
  token_json : json.strAt? "comment" = some token
  handle_json : (json.get? "handle").bind Json.asU64? = some handle

/-- The owned rules.  The kernel numbers the rules of a table and uses no number twice. -/
structure Kernel where
  rules : List NftRule
  nextHandle : ℕ
  unique : (rules.map (·.handle)).Nodup
  below : ∀ rule ∈ rules, rule.handle < nextHandle

namespace Kernel

def empty : Kernel := ⟨[], 0, List.nodup_nil, fun _ h => by cases h⟩

/-- A rule is inserted, at the head of its chain and under a number not used before. -/
def insert (K : Kernel) (rule : NftRule) (hfresh : K.nextHandle ≤ rule.handle) : Kernel where
  rules := rule :: K.rules
  nextHandle := rule.handle + 1
  unique := by
    refine List.nodup_cons.mpr ⟨fun hmem => ?_, K.unique⟩
    obtain ⟨old, hold, hsame⟩ := List.mem_map.mp hmem
    have hsame : old.handle = rule.handle := hsame
    have := K.below old hold
    omega
  below := by
    intro old hold
    rcases List.mem_cons.mp hold with rfl | hold
    · omega
    · have := K.below old hold
      omega

/-- Only these rules stay. -/
def keep (K : Kernel) (p : NftRule → Bool) : Kernel where
  rules := K.rules.filter p
  nextHandle := K.nextHandle
  unique := K.unique.sublist (List.filter_sublist.map _)
  below := fun rule hrule => K.below rule (List.mem_filter.mp hrule).1

/-- The rule of this chain and handle is removed. -/
def delete (K : Kernel) (chain : String) (handle : ℕ) : Kernel :=
  K.keep fun rule => !(decide (rule.chain = chain) && decide (rule.handle = handle))

/-- The rules of a chain that carry a token. -/
def owned (K : Kernel) (token chain : String) : List NftRule :=
  K.rules.filter fun rule => decide (rule.token = token) && decide (rule.chain = chain)

variable {K : Kernel} {token chain : String} {handle : ℕ} {rule : NftRule}

theorem mem_owned : rule ∈ K.owned token chain ↔
    rule ∈ K.rules ∧ rule.token = token ∧ rule.chain = chain := by
  simp [owned]

theorem mem_delete : rule ∈ (K.delete chain handle).rules ↔
    rule ∈ K.rules ∧ ¬ (rule.chain = chain ∧ rule.handle = handle) := by
  simp [delete, keep, imp_iff_not_or]

/-- Two rules of one handle are one rule. -/
theorem eq_of_handle {other : NftRule} (h : rule ∈ K.rules) (hother : other ∈ K.rules)
    (hsame : rule.handle = other.handle) : rule = other :=
  eq_of_key K.unique h hother hsame

end Kernel

/-! ## 3. What a command answers and does -/

/-- The chain and the token of the rule an insertion names. -/
def insertTarget? : Argv → Option (String × String)
  | "nft" :: "insert" :: "rule" :: "inet" :: "azazel_edge" :: chain :: rest =>
    match rest.reverse with
    | comment :: "comment" :: _ =>
      some (chain, String.ofList ((comment.toList.drop 1).dropLast))
    | _ => none
  | _ => none

theorem insertTarget?_comment (chain token : String) (rest : Argv) :
    insertTarget? ("nft" :: "insert" :: "rule" :: "inet" :: "azazel_edge" :: chain ::
      (rest ++ ["comment", "\"" ++ token ++ "\""])) = some (chain, token) := by
  simp [insertTarget?, String.toList_append]

/-- **The plan inserts the rule the release looks for**: in the lease's owned chain, under its
owner token. -/
theorem insertTarget?_applyArgv (alert : Alert) {task : ReleaseTask}
    (hvalid : validOwnerToken task.ownerToken = true) :
    insertTarget? (alert.applyArgv task) = some (alert.chain, task.ownerToken) := by
  have hcomment : nftCommentArg task.ownerToken = some ("\"" ++ task.ownerToken ++ "\"") := by
    rw [nftCommentArg, if_pos hvalid]
  unfold Alert.applyArgv Alert.chain
  rw [hcomment]
  cases alert.restriction with
  | throttle rate burst => exact insertTarget?_comment "throttle" _ _
  | redirect iface decoyPort => exact insertTarget?_comment "prerouting" _ _

/-- The entries of a listing that can be read. -/
def readListing (reply : Reply) : Option (List Json) :=
  match reply with
  | .error _ => none
  | .ok result =>
    if result.returncode ≠ 0 then none
    else match result.stdout with
      | .error _ => none
      | .ok payload => nftEntries payload

theorem readOwnedRules_ok {task : ReleaseTask} {chain : String} {reply : Reply}
    {rules : List (ℕ × Bool)} (h : readOwnedRules task chain reply = .ok rules) :
    ∃ entries, readListing reply = some entries ∧ ownedRulesIn task chain entries = .ok rules := by
  unfold readOwnedRules at h
  split at h
  · cases h
  · rename_i result
    split at h
    · cases h
    · rename_i hcode
      split at h
      · cases h
      · rename_i payload hout
        split at h
        · cases h
        · rename_i entries hentries
          have hlisting : readListing (.ok result) = some entries := by
            rw [readListing, if_neg hcode, hout]
            exact hentries
          exact ⟨entries, hlisting, h⟩

/-- What is read of the owned rules is read of each of them. -/
theorem ownedRulesIn_ok {task : ReleaseTask} {chain : String} {entries : List Json}
    {rules : List (ℕ × Bool)} (h : ownedRulesIn task chain entries = .ok rules) :
    List.Forall₂ (fun json read => readOwnedRule task json = .ok read)
      (entries.filterMap (ownedRule? task.ownerToken chain)) rules := by
  induction entries generalizing rules with
  | nil =>
    obtain rfl := Except.ok.inj h
    exact List.Forall₂.nil
  | cons entry rest ih =>
    rw [ownedRulesIn] at h
    split at h
    · rename_i hnone
      rw [List.filterMap_cons_none hnone]
      exact ih h
    · rename_i json hjson
      rw [List.filterMap_cons_some hjson]
      split at h
      · cases h
      · rename_i read hread
        cases hrest : ownedRulesIn task chain rest with
        | error e => rw [hrest] at h; cases h
        | ok later =>
          rw [hrest] at h
          obtain rfl := Except.ok.inj h
          exact List.Forall₂.cons hread (ih hrest)

/-- A handle that was read is the one of a listed rule: of this chain, with the owner token, and
of the flow. -/
theorem readOwnedRules_mem {task : ReleaseTask} {chain : String} {reply : Reply}
    {rules : List (ℕ × Bool)} {handle : ℕ} (h : readOwnedRules task chain reply = .ok rules)
    (hhandle : handle ∈ rules.map Prod.fst) :
    ∃ entries json, readListing reply = some entries ∧
      json ∈ entries.filterMap (ownedRule? task.ownerToken chain) ∧
      nftRuleIdentityMatch task json = true ∧
      (json.get? "handle").bind Json.asU64? = some handle ∧ handle ≠ 0 := by
  obtain ⟨entries, hlisting, hrules⟩ := readOwnedRules_ok h
  obtain ⟨read, hread, rfl⟩ := List.mem_map.mp hhandle
  obtain ⟨json, hjson, hok⟩ := exists_of_forall₂_right (ownedRulesIn_ok hrules) hread
  refine ⟨entries, json, hlisting, hjson, ?_⟩
  unfold readOwnedRule at hok
  split at hok
  · cases hok
  · rename_i hidentity
    split at hok
    · cases hok
    · cases hok
    · rename_i handle hne hvalue
      obtain rfl := Except.ok.inj hok
      exact ⟨by simpa using hidentity, hvalue, hne⟩

/-- Where the reading succeeds, no rule listed under the token is one of another flow. -/
theorem readOwnedRules_identity {task : ReleaseTask} {chain : String} {reply : Reply}
    {rules : List (ℕ × Bool)} {entries : List Json} {json : Json}
    (h : readOwnedRules task chain reply = .ok rules) (hlisting : readListing reply = some entries)
    (hjson : json ∈ entries.filterMap (ownedRule? task.ownerToken chain)) :
    nftRuleIdentityMatch task json = true := by
  obtain ⟨entries', hlisting', hrules⟩ := readOwnedRules_ok h
  obtain rfl := Option.some.inj (hlisting.symm.trans hlisting')
  obtain ⟨read, -, hok⟩ := exists_of_forall₂_left (ownedRulesIn_ok hrules) hjson
  unfold readOwnedRule at hok
  split at hok
  · cases hok
  · rename_i hidentity
    simpa using hidentity

/-- The command reports success. -/
def Reply.succeeded : Reply → Bool
  | .ok result => result.returncode = 0
  | .error _ => false

/-- What a listing of a chain shows, when it can be read: of every owner token its rules, as they
are. -/
def Kernel.Shows (K : Kernel) (chain : String) (reply : Reply) : Prop :=
  ∀ entries, readListing reply = some entries → ∀ token, validOwnerToken token = true →
    entries.filterMap (ownedRule? token chain) = (K.owned token chain).map (·.json)

/-- The answers of a command of the release sweep, and the rules it leaves.  A deletion that
reports an error, or that was killed past its time, may have removed its rule or not. -/
inductive Kernel.Answers (K : Kernel) : Argv → Reply → Kernel → Prop
  | listing (chain : String) (reply : Reply) (hshows : K.Shows chain reply) :
      K.Answers (listChainArgv chain) reply K
  | deleted (chain : String) (handle : ℕ) (reply : Reply) :
      K.Answers (deleteRuleArgv chain handle) reply (K.delete chain handle)
  | kept (chain : String) (handle : ℕ) (reply : Reply) (hfailed : reply.succeeded = false) :
      K.Answers (deleteRuleArgv chain handle) reply K
  | other (argv : Argv) (reply : Reply) (hlist : ∀ chain, argv ≠ listChainArgv chain)
      (hdelete : ∀ chain handle, argv ≠ deleteRuleArgv chain handle) : K.Answers argv reply K

/-- No command of a sweep adds a rule. -/
theorem Kernel.Answers.mem {K K' : Kernel} {argv : Argv} {reply : Reply}
    (h : K.Answers argv reply K') {rule : NftRule} (hrule : rule ∈ K'.rules) : rule ∈ K.rules := by
  cases h with
  | listing => exact hrule
  | deleted => exact (Kernel.mem_delete.mp hrule).1
  | kept => exact hrule
  | other => exact hrule

/-- A listing leaves the rules as it shows them. -/
theorem Kernel.Answers.shows {K K' : Kernel} {chain : String} {reply : Reply}
    (h : K.Answers (listChainArgv chain) reply K') : K.Shows chain reply ∧ K' = K := by
  generalize hargv : listChainArgv chain = argv at h
  cases h with
  | listing chain' _ hshows =>
    have : chain = chain' := by simpa [listChainArgv] using hargv
    exact ⟨this ▸ hshows, rfl⟩
  | deleted => simp [listChainArgv, deleteRuleArgv] at hargv
  | kept => simp [listChainArgv, deleteRuleArgv] at hargv
  | other _ _ hlist => exact absurd hargv.symm (hlist chain)

theorem deleteRuleArgv_inj {chain chain' : String} {handle handle' : ℕ}
    (h : deleteRuleArgv chain handle = deleteRuleArgv chain' handle') :
    chain = chain' ∧ handle = handle' := by
  simp only [deleteRuleArgv, List.cons.injEq, and_true, true_and] at h
  refine ⟨h.1, ?_⟩
  have hdigits := congrArg (fun s : String => Nat.ofDigitChars 10 s.toList 0) h.2
  simpa [Nat.toString_eq_ofList_toDigits, Nat.ofDigitChars_ten_toDigits] using hdigits

/-- A deletion removes its rule, or fails and leaves the rules. -/
theorem Kernel.Answers.deletes {K K' : Kernel} {chain : String} {handle : ℕ} {reply : Reply}
    (h : K.Answers (deleteRuleArgv chain handle) reply K') :
    K' = K.delete chain handle ∨ (reply.succeeded = false ∧ K' = K) := by
  generalize hargv : deleteRuleArgv chain handle = argv at h
  cases h with
  | listing => simp [listChainArgv, deleteRuleArgv] at hargv
  | deleted chain' handle' =>
    obtain ⟨rfl, rfl⟩ := deleteRuleArgv_inj hargv
    exact Or.inl rfl
  | kept _ _ _ hfailed => exact Or.inr ⟨hfailed, rfl⟩
  | other _ _ _ hdelete => exact absurd hargv.symm (hdelete chain handle)

/-- Any other command leaves them. -/
theorem Kernel.Answers.unchanged {K K' : Kernel} {argv : Argv} {reply : Reply}
    (h : K.Answers argv reply K') (hargv : ∀ chain handle, argv ≠ deleteRuleArgv chain handle) :
    K' = K := by
  cases h with
  | deleted chain handle => exact absurd rfl (hargv chain handle)
  | _ => rfl

end AzazelEdge.Release
