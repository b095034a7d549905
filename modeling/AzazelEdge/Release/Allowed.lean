/-
# The allowlist of the release path

`release.rs`: `allowed_release_command`, the positional patterns that the system runner holds every
command of a release against, and refuses what fits none.

The commands are built elsewhere, from the fields of a task that `validate_task` accepted, so three
descriptions have to agree: the builders, the patterns and the checks of the task.  This file proves
that they do, but for one field: the patterns want a conntrack mark with the core's prefix, and
`validate_task` does not look at the mark.

* `issues_releaseOwnedState`: where the mark fits, every command of an attempt is allowed;
* `not_released`: where it does not, an attempt behind the allowlist never reports a release;
* `neverBlocked_iff`: both together.
-/
import Mathlib.Tactic.IntervalCases
import AzazelEdge.Release.Kernel

namespace AzazelEdge.Release

open AzazelEdge.Lib

/-! ## 1. The patterns -/

/-- The values of the patterns: `parse::<IpAddr>`. -/
def ipOk (value : String) : Bool := (IpAddr.parse value).isSome

/-- `parse::<u16>`, and not zero. -/
def portOk (value : String) : Bool :=
  ((parseU64 value.toList).filter (· < 65536)).any (0 < ·)

/-- The prefix of the core's marks, and something behind it. -/
def ctMarkFits (mark : ℕ) : Bool := mark &&& 0xFFF00000 = ctMarkPrefix && mark ≠ ctMarkPrefix

/-- `parse::<u32>`, and a mark of the core's. -/
def markOk (value : String) : Bool :=
  ((parseU64 value.toList).filter (· < 2 ^ 32)).any ctMarkFits

/-- The owned chains. -/
def chainOk (chain : String) : Bool := chain = "input" || chain = "prerouting" || chain = "throttle"

/-- `parse::<u64>`, and not zero. -/
def handleOk (value : String) : Bool := (parseU64 value.toList).any (0 < ·)

/-- The two `conntrack` patterns. -/
def allowedConntrack : Argv → Bool
  | [_, a1, a2, a3, a4, source, a6, destination, a8, port, a10, mark] =>
    a1 = "-D" && a2 = "-p" && a3 = "tcp" && a4 = "--orig-src" && ipOk source &&
      a6 = "--orig-dst" && ipOk destination && a8 = "--dport" && portOk port &&
      a10 = "--mark" && markOk mark
  | [_, a1, a2, a3, a4, source, a6, port] =>
    a1 = "-D" && a2 = "-p" && a3 = "tcp" && a4 = "--orig-src" && ipOk source &&
      a6 = "--dport" && portOk port
  | _ => false

/-- `allowed_release_command`. -/
def allowedReleaseCommand (argv : Argv) : Bool :=
  if argv = ["nft", "-j", "list", "ruleset"] then true
  else if argv.head? = some "conntrack" then allowedConntrack argv
  else match argv with
    | [a0, a1, a2, a3, a4, a5] =>
      a0 = "tc" && a1 = "-j" && a2 = "qdisc" && a3 = "show" && a4 = "dev" && validInterface a5
    | [a0, a1, a2, a3, a4, a5, a6, a7] =>
      if a0 = "tc" ∧ a1 = "qdisc" ∧ a2 = "del" ∧ a3 = "dev" ∧ a5 = "root" ∧ a6 = "handle" then
        validInterface a4 && validTcHandle a7
      else if a0 = "nft" ∧ a1 = "-a" ∧ a2 = "-j" ∧ a3 = "list" ∧ a4 = "chain" ∧ a5 = "inet" ∧
          a6 = "azazel_edge" then
        chainOk a7
      else
        a0 = "nft" && a1 = "delete" && a2 = "rule" && a3 = "inet" && a4 = "azazel_edge" &&
          a6 = "handle" && chainOk a5 && handleOk a7
    | _ => false

/-- `SystemReleaseCommandRunner::run`: what fits no pattern is not run, and is answered with an
error. -/
def SystemAnswers (argv : Argv) (reply : Reply) : Prop :=
  allowedReleaseCommand argv = false → ∃ e, reply = .error e

/-! ## 2. Numbers as the builders write them -/

theorem digitValue_digitChar {d : ℕ} (hd : d < 10) :
    IpAddr.digitValue 10 d.digitChar = some d := by
  interval_cases d <;> rfl

theorem readDigits_digitChars (ds : List ℕ) (hlt : ∀ d ∈ ds, d < 10) :
    IpAddr.readDigits 10 (ds.map Nat.digitChar) = (ds, []) := by
  induction ds with
  | nil => rfl
  | cons d ds ih =>
    have hd : d < 10 := hlt d List.mem_cons_self
    have hds := ih fun x hx => hlt x (List.mem_cons_of_mem _ hx)
    rw [List.map_cons, IpAddr.readDigits, digitValue_digitChar hd, hds]

theorem decimal_append (ds : List ℕ) (d : ℕ) : decimal (ds ++ [d]) = decimal ds * 10 + d := by
  simp [decimal, List.foldl_append]

/-- The digits of a number, as numbers. -/
theorem toDigits_eq (n : ℕ) : ∃ ds : List ℕ, Nat.toDigits 10 n = ds.map Nat.digitChar ∧ ds ≠ [] ∧
    (∀ d ∈ ds, d < 10) ∧ decimal ds = n := by
  induction n using Nat.strong_induction_on with
  | _ n ih =>
    by_cases hn : n < 10
    · refine ⟨[n], ?_, by simp, by simpa using hn, by simp [decimal]⟩
      rw [Nat.toDigits_of_lt_base hn]
      rfl
    · obtain ⟨ds, htext, hne, hlt, hvalue⟩ := ih (n / 10) (by omega)
      refine ⟨ds ++ [n % 10], ?_, by simp, ?_, ?_⟩
      · have hsplit := Nat.toDigits_append_toDigits (b := 10) (n := n / 10) (d := n % 10)
          (by decide) (by omega) (by omega)
        rw [Nat.div_add_mod] at hsplit
        rw [← hsplit, htext, Nat.toDigits_of_lt_base (by omega : n % 10 < 10), List.map_append]
        rfl
      · intro d hd
        rcases List.mem_append.mp hd with hd | hd
        · exact hlt d hd
        · rw [List.mem_singleton.mp hd]
          omega
      · rw [decimal_append, hvalue]
        omega

/-- **A number is parsed from the text it was written as.** -/
theorem parseU64_toString {n : ℕ} (hn : n ≤ u64Max) :
    parseU64 (toString n).toList = some n := by
  obtain ⟨ds, htext, hne, hlt, hvalue⟩ := toDigits_eq n
  have hread := readDigits_digitChars ds hlt
  rw [Nat.toString_eq_ofList_toDigits, String.toList_ofList, htext]
  cases ds with
  | nil => exact absurd rfl hne
  | cons d ds =>
    have hd : d < 10 := hlt d List.mem_cons_self
    have hplus : d.digitChar ≠ '+' := by interval_cases d <;> decide
    unfold parseU64
    rw [List.map_cons] at hread ⊢
    split
    · rename_i heq
      exact absurd (List.cons.inj heq).1 hplus
    · dsimp only
      rw [hread]
      simp only [hvalue, if_pos hn]

theorem portOk_toString {port : ℕ} (h0 : port ≠ 0) (hport : port < 65536) :
    portOk (toString port) = true := by
  rw [portOk, parseU64_toString (by unfold u64Max; omega)]
  simp [Option.filter, hport, Nat.pos_of_ne_zero h0]

theorem handleOk_toString {handle : ℕ} (h0 : 0 < handle) (hhandle : handle ≤ u64Max) :
    handleOk (toString handle) = true := by
  rw [handleOk, parseU64_toString hhandle]
  simp [h0]

theorem markOk_toString {mark : ℕ} (hmark : mark < 2 ^ 32) :
    markOk (toString mark) = ctMarkFits mark := by
  rw [markOk, parseU64_toString (by unfold u64Max; omega)]
  have : mark < 4294967296 := hmark
  simp [Option.filter, this]

/-! ## 3. The commands of an attempt -/

/-- The ranges of the integer types of two fields: `u16` and `u32`. -/
structure ReleaseTask.Typed (task : ReleaseTask) : Prop where
  port : task.destinationPort < 65536
  mark : task.ctMark < 2 ^ 32

/-- The mark of a lease that has one fits the pattern. -/
def CtMarkFits (task : ReleaseTask) : Prop :=
  task.mechanism = .nftFlowRedirect → ctMarkFits task.ctMark = true

instance (task : ReleaseTask) : Decidable (CtMarkFits task) :=
  inferInstanceAs (Decidable (_ → _))

variable {task : ReleaseTask} {chain : String}

theorem allowed_listChain (hchain : chainOk chain = true) :
    allowedReleaseCommand (listChainArgv chain) = true := by
  simp [allowedReleaseCommand, listChainArgv, hchain]

theorem allowed_deleteRule {handle : ℕ} (hchain : chainOk chain = true)
    (hhandle : handleOk (toString handle) = true) :
    allowedReleaseCommand (deleteRuleArgv chain handle) = true := by
  unfold deleteRuleArgv
  generalize toString handle = text at hhandle ⊢
  simp [allowedReleaseCommand, hchain, hhandle]

theorem allowed_showQdisc (hiface : validInterface task.iface = true) :
    allowedReleaseCommand ["tc", "-j", "qdisc", "show", "dev", task.iface] = true := by
  simp [allowedReleaseCommand, hiface]

theorem allowed_deleteQdisc (hiface : validInterface task.iface = true)
    (hhandle : validTcHandle task.tcHandle = true) :
    allowedReleaseCommand ["tc", "qdisc", "del", "dev", task.iface, "root", "handle",
      task.tcHandle] = true := by
  simp [allowedReleaseCommand, hiface, hhandle]

/-- The clean-up command is allowed exactly when the mark it names fits. -/
theorem allowed_conntrack (hsource : ipOk task.sourceIp = true)
    (hdestination : task.mechanism = .nftFlowRedirect → ipOk task.destinationIp = true)
    (hport : portOk (toString task.destinationPort) = true) (hmark : task.ctMark < 2 ^ 32) :
    allowedReleaseCommand (conntrackArgv task) = true ↔ CtMarkFits task := by
  have hmark := markOk_toString hmark
  unfold conntrackArgv CtMarkFits
  generalize toString task.destinationPort = port at hport ⊢
  generalize toString task.ctMark = mark at hmark ⊢
  by_cases hmechanism : task.mechanism = .nftFlowRedirect
  · rw [if_pos hmechanism]
    have hdestination := hdestination hmechanism
    simp [allowedReleaseCommand, allowedConntrack, hsource, hdestination, hport, hmark, hmechanism]
  · rw [if_neg hmechanism]
    simp [allowedReleaseCommand, allowedConntrack, hsource, hport, hmechanism]

theorem chainOk_owned (h : ownedNftChain task = some chain) : chainOk chain = true := by
  unfold ownedNftChain at h
  split at h <;> cases h <;> rfl

/-- The handles of a readback are numbers of their type, and not zero. -/
theorem readOwnedRules_handles {reply : Reply} {rules : List (ℕ × Bool)}
    (h : readOwnedRules task chain reply = .ok rules) :
    ∀ handle ∈ rules.map Prod.fst, handleOk (toString handle) = true := by
  intro handle hhandle
  obtain ⟨_, json, -, -, -, hvalue, h0⟩ := readOwnedRules_mem h hhandle
  obtain ⟨value, -, hvalue⟩ := Option.bind_eq_some_iff.mp hvalue
  refine handleOk_toString (Nat.pos_of_ne_zero h0) ?_
  unfold Json.asU64? at hvalue
  split at hvalue
  · split at hvalue
    · rename_i n hrange
      obtain rfl := Option.some.inj hvalue
      unfold u64Max
      omega
    · cases hvalue
  · cases hvalue

/-! ## 4. What an accepted task satisfies -/

/-- The fields the commands are built from, as `validate_task` leaves them. -/
structure ReleaseTask.Sound (task : ReleaseTask) : Prop where
  source : ipOk task.sourceIp = true
  destination : task.mechanism = .nftFlowRedirect → ipOk task.destinationIp = true
  flow : task.mechanism = .nftFlowRedirect → task.action = .redirect
  port : task.action = .redirect → task.destinationPort ≠ 0
  qdisc : isLegacyTcThrottle task = true →
    validInterface task.iface = true ∧ validTcHandle task.tcHandle = true
  chain : isLegacyTcThrottle task = false → ∃ chain, ownedNftChain task = some chain

theorem validateTask_port (h : validateTask task = .ok ()) (haction : task.action = .redirect) :
    task.destinationPort ≠ 0 := by
  intro hzero
  unfold validateTask at h
  simp only [haction, hzero] at h
  repeat' split at h
  all_goals simp_all

theorem ipOk_of_family {address family : String} (h : nftFamily address = some family) :
    ipOk address = true := by
  obtain ⟨parsed, hparsed, -⟩ := Option.map_eq_some_iff.mp h
  rw [ipOk, hparsed]
  rfl

theorem sound_of_valid (h : validateTask task = .ok ()) : task.Sound := by
  obtain ⟨-, hsource, -, hmechanism⟩ := validateTask_ok h
  have hport := validateTask_port h
  have hsource : ipOk task.sourceIp = true := Option.isSome_iff_ne_none.mpr hsource
  unfold validateMechanism at hmechanism
  split at hmechanism
  · rename_i haction hheld
    exact ⟨hsource, by simp [hheld], by simp [hheld], hport, by simp [isLegacyTcThrottle, hheld],
      fun _ => ⟨_, by rw [ownedNftChain, haction, hheld]⟩⟩
  · rename_i haction hheld
    split at hmechanism
    · cases hmechanism
    · rename_i hflow
      push Not at hflow
      exact ⟨hsource, fun _ => ipOk_of_family hflow.2.2.2, fun _ => haction, hport,
        by simp [isLegacyTcThrottle, hheld], fun _ => ⟨_, by rw [ownedNftChain, haction]⟩⟩
  · rename_i haction hheld
    split at hmechanism
    · cases hmechanism
    · rename_i hqdisc
      push Not at hqdisc
      exact ⟨hsource, by simp [hheld], by simp [hheld], hport,
        fun _ => by simpa using hqdisc, by simp [isLegacyTcThrottle, haction, hheld]⟩
  · rename_i hheld hother
    refine ⟨hsource, by simp [hheld], by simp [hheld], hport, ?_, ?_⟩
    · intro hlegacy
      have haction : task.action = .throttle := by
        simpa [isLegacyTcThrottle, hheld] using hlegacy
      exact (hother haction).elim
    · intro _
      cases haction : task.action with
      | throttle => exact (hother haction).elim
      | isolate => exact ⟨_, by rw [ownedNftChain, haction]⟩
      | redirect => exact ⟨_, by rw [ownedNftChain, haction]⟩
  · cases hmechanism

/-- The mark fits, for the clean-up command to be allowed. -/
theorem ReleaseTask.Sound.conntrack (h : task.Sound) (htyped : task.Typed)
    (haction : task.action = .redirect) :
    allowedReleaseCommand (conntrackArgv task) = true ↔ CtMarkFits task :=
  allowed_conntrack h.source h.destination (portOk_toString (h.port haction) htyped.port)
    htyped.mark

/-! ## 5. Where the mark fits -/

/-- What the system runner runs. -/
def Allowed (argv : Argv) : Prop := allowedReleaseCommand argv = true

theorem issues_foreignCtMarkUse : Prog.Issues Allowed foreignCtMarkUse := by
  refine Prog.issues_call rfl fun reply => ?_
  repeat' split
  all_goals exact Prog.issues_done _

theorem issues_nftOwnedRules (hchain : chainOk chain = true) :
    Prog.Issues Allowed (nftOwnedRules task chain) :=
  Prog.issues_call (allowed_listChain hchain) fun _ => Prog.issues_done _

/-- What a readback reports are handles that can be deleted. -/
theorem ensures_nftOwnedRules : Prog.Ensures (fun read => ∀ rules, read = .ok rules →
    ∀ handle ∈ rules.map Prod.fst, handleOk (toString handle) = true)
    (nftOwnedRules task chain) :=
  Prog.ensures_call fun _ _ hrules => readOwnedRules_handles hrules

theorem issues_clearRedirectConnections (hsound : task.Sound) (htyped : task.Typed)
    (hfits : CtMarkFits task) : Prog.Issues Allowed (clearRedirectConnections task) := by
  unfold clearRedirectConnections
  split
  · exact Prog.issues_done _
  · rename_i haction
    have haction : task.action = .redirect := not_not.mp haction
    have hdelete : Prog.Issues Allowed (deleteConnections task) :=
      Prog.issues_call ((hsound.conntrack htyped haction).mpr hfits) fun _ => Prog.issues_done _
    split
    · refine issues_foreignCtMarkUse.bind (Q := fun _ => True)
        (Prog.Ensures.of_forall (fun _ => trivial) _) fun use _ => ?_
      split
      · exact hdelete
      · exact Prog.issues_done _
      · exact Prog.issues_done _
    · exact hdelete

theorem issues_deleteRules (hchain : chainOk chain = true) {handles : List ℕ}
    (hhandles : ∀ handle ∈ handles, handleOk (toString handle) = true) :
    Prog.Issues Allowed (deleteRules chain handles) := by
  induction handles with
  | nil => exact Prog.issues_done _
  | cons handle handles ih =>
    have hhandle := hhandles handle List.mem_cons_self
    have hlater := ih fun handle h => hhandles handle (List.mem_cons_of_mem _ h)
    exact Prog.issues_call (allowed_deleteRule hchain hhandle) fun _ => hlater.map

theorem issues_releaseNftRule (hsound : task.Sound) (htyped : task.Typed) (hfits : CtMarkFits task)
    (hchain : chainOk chain = true) (nowEpoch : Epoch) :
    Prog.Issues Allowed (releaseNftRule task chain nowEpoch) := by
  have hclear := issues_clearRedirectConnections hsound htyped hfits
  refine (issues_nftOwnedRules hchain).bind ensures_nftOwnedRules fun owned howned => ?_
  split
  · exact Prog.issues_done _
  · exact hclear.map
  · rename_i rules _
    refine (issues_deleteRules hchain (howned rules rfl)).bind (Q := fun _ => True)
      (Prog.Ensures.of_forall (fun _ => trivial) _) fun errors _ => ?_
    split
    · refine (issues_nftOwnedRules hchain).bind ensures_nftOwnedRules fun remaining _ => ?_
      split
      · exact Prog.issues_done _
      · exact hclear.map
      · exact Prog.issues_done _
    · exact Prog.issues_done _

theorem issues_tcOwnedStatePresent (hiface : validInterface task.iface = true) :
    Prog.Issues Allowed (tcOwnedStatePresent task) := by
  refine Prog.issues_call (allowed_showQdisc hiface) fun reply => ?_
  repeat' split
  all_goals exact Prog.issues_done _

theorem issues_releaseThrottle (hiface : validInterface task.iface = true)
    (hhandle : validTcHandle task.tcHandle = true) (nowEpoch : Epoch) :
    Prog.Issues Allowed (releaseThrottle task nowEpoch) := by
  have hread := issues_tcOwnedStatePresent hiface
  refine hread.bind (Q := fun _ => True) (Prog.Ensures.of_forall (fun _ => trivial) _)
    fun present _ => ?_
  split
  · exact Prog.issues_done _
  · refine Prog.issues_call (allowed_deleteQdisc hiface hhandle) fun reply => ?_
    split
    · exact Prog.issues_done _
    · split
      · exact Prog.issues_done _
      · exact hread.map
  · exact Prog.issues_done _

/-- **Every command of an attempt is allowed, where the mark fits.** -/
theorem issues_releaseOwnedState (hsound : task.Sound) (htyped : task.Typed)
    (hfits : CtMarkFits task) (nowEpoch : Epoch) :
    Prog.Issues Allowed (releaseOwnedState task nowEpoch) := by
  unfold releaseOwnedState
  split
  · rename_i hlegacy
    obtain ⟨hiface, hhandle⟩ := hsound.qdisc hlegacy
    exact issues_releaseThrottle hiface hhandle nowEpoch
  · split
    · rename_i chain hchain
      exact issues_releaseNftRule hsound htyped hfits (chainOk_owned hchain) nowEpoch
    · exact Prog.issues_done _

theorem issues_ownedStateMatchesPlan (task : ReleaseTask) :
    Prog.Issues Allowed (ownedStateMatchesPlan task) := by
  unfold ownedStateMatchesPlan
  split
  · exact Prog.issues_done _
  · rename_i chain hchain
    exact (issues_nftOwnedRules (chainOk_owned hchain)).map

/-! ## 6. Where it does not -/

/-- A contract whose commands the system runner answers. -/
def behindAllowlist {α : Type} (Q : α → Prop) : Prog.Contract Unit Argv Reply α :=
  ⟨fun _ _ => True, fun _ argv reply _ => SystemAnswers argv reply, fun _ a => Q a⟩

/-- What the rest of a program makes of any result, it makes of these. -/
theorem meets_bind {α β : Type} {Q : β → Prop} (p : Cmd α) {f : α → Cmd β}
    (h : ∀ a, Prog.Meets (behindAllowlist Q) () (f a)) :
    Prog.Meets (behindAllowlist Q) () (p.bind f) := by
  induction p with
  | done a => exact h a
  | call _ _ ih => exact ⟨trivial, fun reply _ _ => ih reply⟩

/-- The connections of a lease whose clean-up is refused are never cleared. -/
theorem meets_clearRedirectConnections (hsound : task.Sound) (htyped : task.Typed)
    (hunfit : ¬ CtMarkFits task) :
    Prog.Meets (behindAllowlist fun connections => connectionsCleared connections = false) ()
      (clearRedirectConnections task) := by
  have hmechanism : task.mechanism = .nftFlowRedirect := by
    by_contra hother
    exact hunfit fun h => (hother h).elim
  have haction := hsound.flow hmechanism
  have hrefused : allowedReleaseCommand (conntrackArgv task) = false := by
    rw [← Bool.not_eq_true, hsound.conntrack htyped haction]
    exact hunfit
  rw [clearRedirectConnections, if_neg (by simp [haction]), if_pos hmechanism]
  refine meets_bind _ fun use => ?_
  split
  · refine ⟨trivial, fun reply _ hanswer => ?_⟩
    obtain ⟨e, rfl⟩ := hanswer hrefused
    exact readConntrack_error e
  · exact connectionsCleared_bounded (by decide) (by decide)
  · exact connectionsCleared_bounded (by decide) (by decide)

/-- Not a release. -/
def NotReleased (result : Except String ReleaseOutcome) : Prop :=
  ∀ outcome, result = .ok outcome → outcome.status ≠ .released

theorem notReleased_ruleAbsent {nowEpoch : Epoch} {result connections : String}
    {commandCount deviating : ℕ} (h : connectionsCleared connections = false) :
    NotReleased (.ok (ruleAbsentOutcome task nowEpoch result commandCount deviating connections)) := by
  rintro outcome ⟨⟩
  rw [ruleAbsentOutcome, h]
  exact nofun

/-- **Behind the allowlist, a lease whose mark does not fit is never released.** -/
theorem not_released (hsound : task.Sound) (htyped : task.Typed) (hunfit : ¬ CtMarkFits task)
    (nowEpoch : Epoch) :
    Prog.Meets (behindAllowlist NotReleased) () (releaseOwnedState task nowEpoch) := by
  have hmechanism : task.mechanism = .nftFlowRedirect := by
    by_contra hother
    exact hunfit fun h => (hother h).elim
  have hclear := meets_clearRedirectConnections hsound htyped hunfit
  rw [releaseOwnedState, if_neg (by simp [isLegacyTcThrottle, hmechanism])]
  split
  · refine meets_bind _ fun owned => ?_
    split
    · exact nofun
    · exact Prog.Meets.map (hclear.post fun _ _ h => notReleased_ruleAbsent h)
    · refine meets_bind _ fun errors => ?_
      split
      · refine meets_bind _ fun remaining => ?_
        split
        · exact nofun
        · exact Prog.Meets.map (hclear.post fun _ _ h => notReleased_ruleAbsent h)
        · rintro outcome ⟨⟩
          exact nofun
      · rintro outcome ⟨⟩
        exact nofun
  · exact nofun

/-! ## 7. A release -/

/-- A listing of no rules. -/
def noRules : Reply := printed (.obj [("nftables", .arr [])])

theorem answers_of_allowed {argv : Argv} {reply : Reply} (h : allowedReleaseCommand argv = true) :
    SystemAnswers argv reply := by
  intro hrefused
  rw [h] at hrefused
  cases hrefused

/-- The clean-up of a lease whose mark fits can succeed. -/
theorem yields_clearRedirectConnections (hsound : task.Sound) (htyped : task.Typed)
    (hfits : CtMarkFits task) : ∃ connections, connectionsCleared connections = true ∧
      Prog.Yields SystemAnswers (clearRedirectConnections task) connections := by
  unfold clearRedirectConnections
  by_cases haction : task.action = .redirect
  · have hallowed := (hsound.conntrack htyped haction).mpr hfits
    have hdelete : Prog.Yields SystemAnswers (deleteConnections task) "cleared" :=
      .call (r := printed .null) (answers_of_allowed hallowed) (.done _)
    rw [if_neg (by simp [haction])]
    refine ⟨"cleared", rfl, ?_⟩
    split
    · exact .call (r := noRules) (answers_of_allowed rfl) hdelete
    · exact hdelete
  · rw [if_pos haction]
    exact ⟨"not_applicable", rfl, .done _⟩

/-- **An attempt on a lease whose mark fits can release it.** -/
theorem yields_releaseOwnedState (hsound : task.Sound) (htyped : task.Typed)
    (hfits : CtMarkFits task) (nowEpoch : Epoch) : ∃ outcome, outcome.status = .released ∧
      Prog.Yields SystemAnswers (releaseOwnedState task nowEpoch) (.ok outcome) := by
  unfold releaseOwnedState
  by_cases hlegacy : isLegacyTcThrottle task = true
  · obtain ⟨hiface, -⟩ := hsound.qdisc hlegacy
    rw [if_pos hlegacy]
    exact ⟨_, rfl, .call (r := printed (.arr [])) (answers_of_allowed (allowed_showQdisc hiface))
      (.done _)⟩
  · obtain ⟨chain, hchain⟩ := hsound.chain (Bool.not_eq_true _ ▸ hlegacy)
    obtain ⟨connections, hcleared, hclear⟩ :=
      yields_clearRedirectConnections hsound htyped hfits
    rw [if_neg hlegacy, hchain]
    refine ⟨ruleAbsentOutcome task nowEpoch "owned_state_already_absent" 0 0 connections, ?_, ?_⟩
    · rw [ruleAbsentOutcome, hcleared]
      rfl
    · exact .call (r := noRules) (answers_of_allowed (allowed_listChain (chainOk_owned hchain)))
        hclear.map

/-! ## 8. The marks of the builders -/

theorem and_mask {mark : ℕ} (h : mark < 2 ^ 32) :
    mark &&& 0xFFF00000 = mark / 2 ^ 20 * 2 ^ 20 := by
  have hmask : 0xFFF00000 = (2 ^ 12 - 1) * 2 ^ 20 := by decide
  refine Nat.eq_of_testBit_eq fun i => ?_
  rw [hmask, Nat.testBit_and, Nat.testBit_mul_two_pow, Nat.testBit_mul_two_pow,
    Nat.testBit_two_pow_sub_one, Nat.testBit_div_two_pow]
  by_cases hlow : 20 ≤ i
  · by_cases hhigh : i - 20 < 12
    · have : i - 20 + 20 = i := by omega
      simp [hlow, hhigh, this]
    · have hbit : mark.testBit i = false :=
        Nat.testBit_lt_two_pow (h.trans_le (Nat.pow_le_pow_right (by decide) (by omega)))
      have : i - 20 + 20 = i := by omega
      simp [hhigh, hbit, this]
  · simp [hlow]

/-- The pattern, as a range. -/
theorem ctMarkFits_iff {mark : ℕ} (h : mark < 2 ^ 32) :
    ctMarkFits mark = true ↔ ctMarkPrefix < mark ∧ mark < ctMarkPrefix + 2 ^ 20 := by
  simp only [ctMarkFits, Bool.and_eq_true, decide_eq_true_eq]
  rw [and_mask h]
  unfold ctMarkPrefix
  omega

/-- **The mark that the core itself gives a lease fits.** -/
theorem ctMarkFits_ctMarkFor (taskId : String) : ctMarkFits (ctMarkFor taskId) = true := by
  have hlt : max ((fnv1a64 taskId.toUTF8.toList).toNat % 2 ^ 20) 1 < 2 ^ 20 := by omega
  have hsum : ctMarkFor taskId =
      0xA2E <<< 20 + max ((fnv1a64 taskId.toUTF8.toList).toNat % 2 ^ 20) 1 :=
    (Nat.shiftLeft_add_eq_or_of_lt hlt 0xA2E).symm
  have hstart : 0xA2E <<< 20 = ctMarkPrefix := by decide
  rw [hstart] at hsum
  have : ctMarkPrefix + 2 ^ 20 ≤ 2 ^ 32 := by decide
  rw [ctMarkFits_iff (by omega)]
  omega

/-! ## 9. The allowlist and the leases -/

/-- Every command built for the task fits a pattern: those of an attempt, of the readbacks and of
the clean-up. -/
structure NeverBlocked (task : ReleaseTask) : Prop where
  attempt : ∀ nowEpoch, Prog.Issues Allowed (releaseOwnedState task nowEpoch)
  readback : Prog.Issues Allowed (ownedStateMatchesPlan task)
  ruleset : Prog.Issues Allowed foreignCtMarkUse
  connections : Prog.Issues Allowed (clearRedirectConnections task)

/-- Some answers of the system runner end an attempt in a release. -/
def Releasable (task : ReleaseTask) (nowEpoch : Epoch) : Prop :=
  ∃ outcome, outcome.status = .released ∧
    Prog.Yields SystemAnswers (releaseOwnedState task nowEpoch) (.ok outcome)

theorem not_releasable (hsound : task.Sound) (htyped : task.Typed) (hunfit : ¬ CtMarkFits task)
    (nowEpoch : Epoch) : ¬ Releasable task nowEpoch := by
  rintro ⟨outcome, hreleased, hrun⟩
  exact hrun.post (not_released hsound htyped hunfit nowEpoch) outcome rfl hreleased

/-- The clean-up command is issued once the ruleset shows no other user of the mark. -/
theorem fits_of_neverBlocked (hsound : task.Sound) (htyped : task.Typed)
    (h : NeverBlocked task) : CtMarkFits task := by
  intro hmechanism
  have haction := hsound.flow hmechanism
  have hrun : (clearRedirectConnections task).resume [noRules] =
      some (.call (conntrackArgv task) fun reply => .done (readConntrack reply)) := by
    rw [clearRedirectConnections, if_neg (by simp [haction]), if_pos hmechanism]
    rfl
  have hallowed := h.connections _ _ _ hrun
  exact (hsound.conntrack htyped haction).mp hallowed hmechanism

/-- **The release path is never blocked by its own allowlist, and a lease can be released, exactly
when its conntrack mark is one of the core's.** -/
theorem neverBlocked_iff {task : ReleaseTask} (hvalid : validateTask task = .ok ())
    (htyped : task.Typed) :
    (NeverBlocked task ↔ CtMarkFits task) ∧
      ∀ nowEpoch, Releasable task nowEpoch ↔ CtMarkFits task := by
  have hsound := sound_of_valid hvalid
  refine ⟨⟨fits_of_neverBlocked hsound htyped, fun hfits => ⟨?_, ?_, ?_, ?_⟩⟩, fun nowEpoch =>
    ⟨fun h => ?_, fun hfits => ?_⟩⟩
  · exact issues_releaseOwnedState hsound htyped hfits
  · exact issues_ownedStateMatchesPlan task
  · exact issues_foreignCtMarkUse
  · exact issues_clearRedirectConnections hsound htyped hfits
  · by_contra hunfit
    exact not_releasable hsound htyped hunfit nowEpoch h
  · exact yields_releaseOwnedState hsound htyped hfits nowEpoch

/-! ## 10. A lease of each kind -/

/-- The sample flow, redirected. -/
def redirectTask : ReleaseTask :=
  (({ sampleAlert with restriction := .redirect "eth0" 2222 } : Alert).task 300 (sampleNow 0)).get
    (by decide +kernel)

/-- The same lease, from a ledger that names no mark. -/
def unmarkedTask : ReleaseTask := { redirectTask with ctMark := 0 }

theorem neverBlocked_iff_sample : CtMarkFits redirectTask ∧
    (NeverBlocked redirectTask ↔ CtMarkFits redirectTask) ∧
    ∀ nowEpoch, Releasable redirectTask nowEpoch ↔ CtMarkFits redirectTask :=
  ⟨by decide +kernel, neverBlocked_iff (by decide +kernel) ⟨by decide +kernel, by decide +kernel⟩⟩

/-- **A lease that `validate_task` accepts and the allowlist never lets go.** -/
theorem blocked_unmarked : validateTask unmarkedTask = .ok () ∧ unmarkedTask.Typed ∧
    ¬ NeverBlocked unmarkedTask ∧ ∀ nowEpoch, ¬ Releasable unmarkedTask nowEpoch := by
  have hvalid : validateTask unmarkedTask = .ok () := by decide +kernel
  have htyped : unmarkedTask.Typed := ⟨by decide +kernel, by decide +kernel⟩
  have hunfit : ¬ CtMarkFits unmarkedTask := by decide +kernel
  have hsound := sound_of_valid hvalid
  exact ⟨hvalid, htyped, fun h => hunfit (fits_of_neverBlocked hsound htyped h),
    not_releasable hsound htyped hunfit⟩

end AzazelEdge.Release
