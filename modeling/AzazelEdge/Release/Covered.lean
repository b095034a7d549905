/-
# No owned rule without a lease

A rule the core inserted stays in the kernel until a release of its lease has removed it.  The
danger is a lease that leaves the eligible statuses while its rule is there, or is still to come:
only a sweep does that, and only after a listing that showed none of its rules.

Against a sweep in progress the argument follows, command by command, which pairs of token and chain
a rule may still carry (`covering`).  Such a pair goes only when a listing shows no rule of it; the
lease that is being applied keeps its pair, since its command may land after any listing, and the
sweep passes it over because it is in the registry.
-/
import AzazelEdge.Release.Sound

namespace AzazelEdge.Release

open AzazelEdge.Lib

variable {encodedLen : ReleaseLedger → ℕ} {e e' : Engine} {ev : Event} {op : Op} {answer : Answer}
  {L L' : ReleaseLedger} {t t' : ReleaseTask} {token chain : String}

/-! ## 1. Rules a ledger accounts for -/

/-- Some lease of the ledger that may hold a rule has this token and chain. -/
def Covers (ledger : ReleaseLedger) (token chain : String) : Prop :=
  ∃ task ∈ ledger.tasks, task.ownerToken = token ∧ ownedNftChain task = some chain ∧
    task.status.eligible = true

theorem Covers.edit {tasks' : List ReleaseTask} (h : Covers L token chain)
    (hf : List.Forall₂ (TaskMove op) L.tasks tasks')
    (hstays : ∀ t ∈ L.tasks, ∀ t', t.ownerToken = token → TaskMove op t t' →
      t.status.eligible = true → t'.status.eligible = true) :
    Covers { L with tasks := tasks' } token chain := by
  obtain ⟨t, ht, htoken, hchain, heligible⟩ := h
  obtain ⟨t', ht', hmove⟩ := exists_of_forall₂_left hf ht
  refine ⟨t', ht', hmove.ownerToken.trans htoken, ?_, hstays t ht t' htoken hmove heligible⟩
  rw [hmove.fixed (g := ownedNftChain) fun _ => rfl]
  exact hchain

/-- Compaction takes none of them. -/
theorem Covers.compact (h : Covers L token chain) (now : LeaseNow) :
    Covers (compactLedger L now).1 token chain := by
  obtain ⟨t, ht, htoken, hchain, heligible⟩ := h
  exact ⟨t, mem_compactLedger.mpr ⟨ht, compactable_eligible heligible⟩, htoken, hchain, heligible⟩

theorem Covers.append (h : Covers L token chain) (new : ReleaseTask) :
    Covers { L with tasks := L.tasks ++ [new] } token chain := by
  obtain ⟨t, ht, hrest⟩ := h
  exact ⟨t, List.mem_append_left _ ht, hrest⟩

/-- **Outside a sweep every rule accounted for stays so.** -/
theorem Covers.wrote (h : Covers L token chain) (hflow : FlowLedger L) (hbuilt : op.Built)
    (hw : Wrote encodedLen op answer L L') (hop : op.isSweep = false) : Covers L' token chain := by
  refine (hw.invariant (I := fun L => FlowLedger L ∧ Covers L token chain) ?_ ?_ ?_ ⟨hflow, h⟩).2
  · rintro L tasks' ⟨hflow, h⟩ hf
    refine ⟨hflow.edit hf, h.edit hf fun t ht t' _ hmove heligible => ?_⟩
    rcases hmove.stays hop heligible with h' | hlegacy
    · exact h'
    · rw [(hflow.2 t ht).2.2.1] at hlegacy
      cases hlegacy
  · rintro L now - ⟨hflow, h⟩
    exact ⟨hflow.compact now, h.compact now⟩
  · rintro L new ⟨hflow, h⟩ hnew
    exact ⟨hflow.append hbuilt hnew, h.append new⟩

/-! ## 2. What a sweep's commands tell -/

/-- The pairs of token and chain that a rule may carry, through the commands of a sweep.  `busy` is
the token of the lease being applied. -/
def covering {α : Type} (busy : Option String) (post : Set (String × String) → α → Prop) :
    Prog.Contract (Set (String × String)) Argv Reply α where
  may _ _ := True
  env S argv reply S' :=
    S' ⊆ S ∧ ∀ chain entries token, argv = listChainArgv chain → readListing reply = some entries →
      validOwnerToken token = true → busy ≠ some token →
      entries.filterMap (ownedRule? token chain) = [] → (token, chain) ∉ S'
  post := post

variable {α : Type} {busy : Option String} {S : Set (String × String)} {now : LeaseNow}

/-- Pairs only go. -/
theorem meets_subset : ∀ {S S₀ : Set (String × String)} (p : Cmd α), S ⊆ S₀ →
    Prog.Meets (covering busy fun S' _ => S' ⊆ S₀) S p
  | _, _, .done _, h => h
  | _, _, .call _ next, h => ⟨trivial, fun r _ henv => meets_subset (next r) (henv.1.trans h)⟩

/-- A listing that was read and showed none of the lease's rules leaves it without its pair. -/
theorem meets_nftOwnedRules (S : Set (String × String)) (chain : String)
    (hvalid : validOwnerToken t.ownerToken = true)
    (hbusy : busy ≠ some t.ownerToken) :
    Prog.Meets (covering busy fun S' result =>
      S' ⊆ S ∧ (result = .ok [] → (t.ownerToken, chain) ∉ S')) S (nftOwnedRules t chain) := by
  refine ⟨trivial, fun reply S' ⟨hsub, htells⟩ => ⟨hsub, fun hread => ?_⟩⟩
  obtain ⟨entries, hentries, hrules⟩ := readOwnedRules_ok hread
  have hnone : entries.filterMap (ownedRule? t.ownerToken chain) = [] := by
    simpa using ownedRulesIn_ok hrules
  exact htells chain entries t.ownerToken rfl hentries hvalid hbusy hnone

/-- The result says that the lease is released. -/
def Releases (result : Except String ReleaseOutcome) : Prop :=
  ∃ outcome, result = .ok outcome ∧ outcome.status = .released

/-- With its rules gone, clearing the connections may release the lease. -/
theorem meets_clear (hgone : (token, chain) ∉ S)
    (f : String → Except String ReleaseOutcome) (task : ReleaseTask) :
    Prog.Meets (covering busy fun S' result => S' ⊆ S ∧ (Releases result → (token, chain) ∉ S')) S
      ((clearRedirectConnections task).map f) :=
  Prog.Meets.map <| Prog.Meets.post (C := covering busy fun S' _ => S' ⊆ S)
    (fun _ _ hsub => ⟨hsub, fun _ hmem => hgone (hsub hmem)⟩) (meets_subset _ subset_rfl)

/-- **An attempt releases a lease only without its rules.** -/
theorem meets_releaseNftRule (S : Set (String × String)) (chain : String)
    (hvalid : validOwnerToken t.ownerToken = true)
    (hbusy : busy ≠ some t.ownerToken) (nowEpoch : Epoch) :
    Prog.Meets (covering busy fun S' result =>
      S' ⊆ S ∧ (Releases result → (t.ownerToken, chain) ∉ S')) S
      (releaseNftRule t chain nowEpoch) := by
  -- What is reported without the rules being seen to be gone releases nothing.
  have held : ∀ {S'} {result : Except String ReleaseOutcome}, S' ⊆ S → ¬ Releases result →
      Prog.Meets (covering busy fun S' result =>
        S' ⊆ S ∧ (Releases result → (t.ownerToken, chain) ∉ S')) S' (.done result) :=
    fun hsub hnot => ⟨hsub, fun h => absurd h hnot⟩
  have cleared : ∀ {S'} (f : String → Except String ReleaseOutcome), S' ⊆ S →
      (t.ownerToken, chain) ∉ S' →
      Prog.Meets (covering busy fun S' result =>
        S' ⊆ S ∧ (Releases result → (t.ownerToken, chain) ∉ S')) S'
        ((clearRedirectConnections t).map f) :=
    fun {S'} f hsub hgone => Prog.Meets.post
      (C := covering busy fun S'' result =>
        S'' ⊆ S' ∧ (Releases result → (t.ownerToken, chain) ∉ S''))
      (fun _ _ h => ⟨h.1.trans hsub, h.2⟩) (meets_clear hgone f t)
  unfold releaseNftRule
  refine Prog.Meets.bind (Prog.Meets.post (fun S₁ result h => ?_)
    (meets_nftOwnedRules S chain hvalid hbusy))
  obtain ⟨hsub, htells⟩ := h
  match result with
  | .error e => exact held hsub fun ⟨_, h, _⟩ => by cases h
  | .ok [] => exact cleared _ hsub (htells rfl)
  | .ok (rule :: rules) =>
    refine Prog.Meets.bind (Prog.Meets.post (fun S₂ errors hsub₂ => ?_) (meets_subset _ hsub))
    split
    · refine Prog.Meets.bind (Prog.Meets.post (fun S₃ result h => ?_)
        (meets_nftOwnedRules S₂ chain hvalid hbusy))
      obtain ⟨hsub₃, htells₃⟩ := h
      match result with
      | .error e => exact held (hsub₃.trans hsub₂) fun ⟨_, h, _⟩ => by cases h
      | .ok [] => exact cleared _ (hsub₃.trans hsub₂) (htells₃ rfl)
      | .ok (_ :: _) =>
        exact held (hsub₃.trans hsub₂) fun ⟨_, h, hreleased⟩ => by
          obtain rfl := Except.ok.inj h
          cases hreleased
    · exact held hsub₂ fun ⟨_, h, hreleased⟩ => by
        obtain rfl := Except.ok.inj h
        cases hreleased

/-! ## 3. A whole sweep -/

theorem FlowLedger.evolves (h : FlowLedger L) (hev : Evolves op L L') : FlowLedger L' :=
  hev.invariant (fun _ _ hL hf => hL.edit hf) (fun _ now _ hL => hL.compact now) h

/-- The update of an attempted lease, whose pair is gone if it was released. -/
theorem Covers.attempted {current : ReleaseTask} {result : Except String ReleaseOutcome}
    (hids : UniqueIds L) (hfind : L.tasks.find? (fun item => item.taskId = current.taskId) = some current)
    (h : Covers L token chain)
    (hgone : Releases result → current.ownerToken = token → ownedNftChain current ≠ some chain) :
    Covers (editTask L current.taskId (afterAttempt now result)) token chain := by
  obtain ⟨t, ht, htoken, hchain, heligible⟩ := h
  by_cases hid : t.taskId = current.taskId
  · obtain rfl : t = current := eq_of_key hids ht (List.mem_of_find?_eq_some hfind) hid
    refine ⟨afterAttempt now result t, mem_editFirst_of_find hfind, ?_, ?_, ?_⟩
    · rw [afterAttempt_leaves (g := (·.ownerToken)) fun _ _ _ _ _ _ _ _ _ => rfl]
      exact htoken
    · rw [afterAttempt_leaves (g := ownedNftChain) fun _ _ _ _ _ _ _ _ _ => rfl]
      exact hchain
    · rcases afterAttempt_status now result t with h | ⟨-, hreleased⟩
      · rw [h]
        exact heligible
      · exact absurd hchain (hgone hreleased htoken)
  · exact ⟨t, mem_editFirst_of_not ht (by simpa using hid), htoken, hchain, heligible⟩

/-- One turn of the loop. -/
theorem meets_sweepOne (audit : StartAudit) {candidate : String × ExpiryClock}
    (hflow : FlowLedger L) (hcovers : ∀ p ∈ S, Covers L p.1 p.2)
    (hfree : busy ≠ some (ownerTokenOf candidate.1)) :
    Prog.Meets (covering busy fun S' result => ∀ p ∈ S', Covers result.1 p.1 p.2) S
      (sweepOne now audit L candidate) := by
  unfold sweepOne
  split
  · exact hcovers
  · rename_i current hfind
    have hid : current.taskId = candidate.1 := by simpa using List.find?_some hfind
    rw [← hid] at hfind hfree
    obtain ⟨htoken, hvalid, hlegacy, hchain⟩ := hflow.2 current (List.mem_of_find?_eq_some hfind)
    obtain ⟨chain, hchain⟩ := Option.isSome_iff_exists.mp hchain
    split
    · have hnewer : yieldToNewer L.tasks current now = none := by
        unfold yieldToNewer
        rw [if_pos hlegacy]
      have hrelease : releaseOwnedState current now.wallEpoch =
          releaseNftRule current chain now.wallEpoch := by
        simp [releaseOwnedState, hlegacy, hchain]
      unfold attemptRelease
      rw [hnewer, hrelease]
      refine Prog.Meets.map (Prog.Meets.post (fun S' result h => ?_)
        (meets_releaseNftRule S chain hvalid (htoken ▸ hfree) now.wallEpoch))
      obtain ⟨hsub, hgone⟩ := h
      intro p hp
      refine (hcovers p (hsub hp)).attempted hflow.1 hfind fun hreleased hsame hsameChain => ?_
      refine hgone hreleased ?_
      have : p = (current.ownerToken, chain) :=
        Prod.ext hsame.symm (Option.some.inj (hsameChain.symm.trans hchain))
      exact this ▸ hp
    · exact hcovers

/-- **What a sweep means to save accounts for every rule there can be at its end.** -/
theorem meets_sweepLoop (audit : StartAudit) :
    ∀ (due : List (String × ExpiryClock)) (L : ReleaseLedger) (S : Set (String × String)),
      FlowLedger L → (∀ p ∈ S, Covers L p.1 p.2) →
      (∀ c ∈ due, busy ≠ some (ownerTokenOf c.1)) →
      Prog.Meets (covering busy fun S' result => ∀ p ∈ S', Covers result.1 p.1 p.2) S
        (sweepLoop now audit due L)
  | [], _, _, _, hcovers, _ => hcovers
  | candidate :: rest, L, S, hflow, hcovers, hfree => by
    have hturn : Prog.Meets (covering busy fun S' turn =>
        (∀ p ∈ S', Covers turn.1 p.1 p.2) ∧ Evolves (.sweep now audit [] .fine) L turn.1) S
        (sweepOne now audit L candidate) :=
      (meets_sweepOne audit hflow hcovers (hfree candidate List.mem_cons_self)).and_ensures
        (evolves_sweepOne rfl rfl audit L candidate)
    refine Prog.Meets.bind (hturn.post fun S' turn h => ?_)
    obtain ⟨hcovers', hev⟩ := h
    exact Prog.Meets.map (meets_sweepLoop audit rest turn.1 S' (hflow.evolves hev) hcovers'
      fun c hc => hfree c (List.mem_cons_of_mem _ hc))

/-! ## 4. The engine -/

/-- The pairs of token and chain that a rule carries, or that the running apply command may yet
give one. -/
def Engine.possible (e : Engine) : Set (String × String) :=
  {p | (∃ rule ∈ e.kernel.rules, p = (rule.token, rule.chain)) ∨
    ∃ argv, e.decision.command? = some argv ∧ insertTarget? argv = some (p.2, p.1)}

/-- Every rule there is, or is to come, is accounted for on disk, and will be by the ledger a sweep
in progress saves. -/
structure Engine.Covered (e : Engine) : Prop where
  disk : ∀ p ∈ e.possible, Covers e.store.ledger p.1 p.2
  sweep : ∀ w, e.sweep = some w → ∃ S, e.possible ⊆ S ∧
    Prog.Meets (covering (e.decision.lease?.map (·.ownerToken))
      fun S' result => ∀ p ∈ S', Covers result.1 p.1 p.2) S w.prog

/-- An operation outside a sweep leaves what is on disk accounted for. -/
theorem Store.step_covers {s s' : Store} (hstep : Store.Step encodedLen s (op, answer) s')
    (hcurrent : s.Current) (hflow : FlowLedger s.ledger) (hbuilt : op.Built)
    (hop : op.isSweep = false) (h : Covers s.ledger token chain) :
    Covers s'.ledger token chain := by
  obtain ⟨-, ⟨hsame, -⟩ | hw⟩ := Store.step_ledger hstep hcurrent
  · exact hsame ▸ h
  · exact h.wrote hflow hbuilt hw hop

/-- The save of a sweep. -/
theorem Store.sweepEnd_covers {s : Store} {io : LedgerIo}
    {result : ReleaseLedger × List ReleaseOutcome} (hold : Covers s.ledger token chain)
    (hnew : Covers result.1 token chain) :
    Covers (s.sweepEnd encodedLen now io result).1.ledger token chain := by
  unfold Store.sweepEnd
  split
  · rename_i file hsave
    obtain ⟨hfile | hfile, -⟩ := sweepSave_ok hsave
    · show Covers file.ledger token chain
      exact hfile ▸ hnew
    · show Covers file.ledger token chain
      rw [hfile]
      exact hnew.compact now
  · exact hold

/-- A step with no more possible rules, on the same file and under the same sweep if any. -/
theorem Engine.Covered.shrink (h : e.Covered) (hledger : e'.store.ledger = e.store.ledger)
    (hsub : e'.possible ⊆ e.possible)
    (hsweep : ∀ w, e'.sweep = some w → e.sweep = some w ∧ e'.decision.lease? = e.decision.lease?) :
    e'.Covered := by
  refine ⟨fun p hp => hledger ▸ h.disk p (hsub hp), fun w hw => ?_⟩
  obtain ⟨hsame, hlease⟩ := hsweep w hw
  obtain ⟨S, hS, hmeets⟩ := h.sweep w hsame
  exact ⟨S, hsub.trans hS, hlease ▸ hmeets⟩

/-- A step that is an operation outside a sweep. -/
theorem Engine.Covered.write (h : e.Covered) (hs : e.Sound)
    (hstep : Store.Step encodedLen e.store (op, answer) e'.store) (hbuilt : op.Built)
    (hop : op.isSweep = false) (hfree : e'.sweep = none)
    (hnew : ∀ p ∈ e'.possible, p ∈ e.possible ∨ Covers e'.store.ledger p.1 p.2) : e'.Covered := by
  refine ⟨fun p hp => ?_, fun w hw => by rw [hfree] at hw; cases hw⟩
  rcases hnew p hp with hold | hcovers
  · exact Store.step_covers hstep hs.current hs.flow hbuilt hop (h.disk p hold)
  · exact hcovers

/-- With no command left to take effect, a rule is possible only if it is there. -/
theorem Engine.possible_idle (hkernel : e'.kernel = e.kernel) (hidle : e'.decision.command? = none) :
    e'.possible ⊆ e.possible := by
  rintro p (⟨rule, hrule, rfl⟩ | ⟨argv, hargv, -⟩)
  · exact Or.inl ⟨rule, hkernel ▸ hrule, rfl⟩
  · rw [hidle] at hargv
    cases hargv

/-- The pair of a command still to take effect is that of the lease being applied. -/
theorem Engine.Sound.coming (hs : e.Sound) (hup : e.decision.isDown = false) {argv : Argv}
    (hargv : e.decision.command? = some argv) (htarget : insertTarget? argv = some (chain, token)) :
    e.decision.lease?.map (·.ownerToken) = some token := by
  cases hdecision : e.decision with
  | applying lease argv' =>
    rw [hdecision] at hargv
    obtain rfl := Option.some.inj hargv
    obtain ⟨chain', -, hlease⟩ := hs.argv lease argv' hdecision
    obtain ⟨-, rfl⟩ := Prod.mk.inj (Option.some.inj (hlease.symm.trans htarget))
    rfl
  | down => rw [hdecision] at hup; cases hup
  | _ => rw [hdecision] at hargv; cases hargv

/-- The answer to a command of the sweep, as the pairs follow it. -/
theorem Engine.Sound.covering_env (hs : e.Sound) (hup : e.decision.isDown = false) {argv : Argv}
    {reply : Reply} {kernel : Kernel} (hanswers : e.kernel.Answers argv reply kernel)
    {S : Set (String × String)} {α : Type} {post : Set (String × String) → α → Prop} :
    (covering (e.decision.lease?.map (·.ownerToken)) post).env S argv reply
      (S ∩ ({ e with kernel } : Engine).possible) := by
  refine ⟨Set.inter_subset_left, ?_⟩
  rintro chain entries token rfl hentries hvalid hbusy hnone ⟨-, hp⟩
  obtain ⟨hshows, hkernel⟩ := hanswers.shows
  rcases hp with ⟨rule, hrule, hpair⟩ | ⟨argv, hargv, htarget⟩
  · obtain ⟨rfl, rfl⟩ := Prod.mk.inj hpair
    have howned : rule ∈ e.kernel.owned rule.token rule.chain :=
      Kernel.mem_owned.mpr ⟨hkernel ▸ hrule, rfl, rfl⟩
    have hshown := hshows entries hentries rule.token hvalid
    rw [hnone] at hshown
    rw [List.map_eq_nil_iff.mp hshown.symm] at howned
    cases howned
  · exact hbusy (hs.coming hup hargv htarget)

/-- **Every step keeps the rules accounted for.** -/
theorem Engine.Covered.step (h : e.Covered) (hs : e.Sound)
    (hstep : Engine.Step encodedLen e ev e') : e'.Covered := by
  cases hstep with
  | start command now io hdown hfree =>
    exact h.write hs (show Store.Step encodedLen e.store (.recover now io, _) _ from rfl)
      (Op.built_of_none rfl) rfl hfree
      fun p hp => Or.inl (Set.mem_of_mem_of_subset hp (Engine.possible_idle rfl rfl))
  | admitTask alert ttlSec traces now io task hidle hfree htask =>
    refine @Covered.write _ _ _ (.admitTask task traces ttlSec now io) _ h hs rfl
      (fun task' h' => ⟨alert, ttlSec, now, Option.some.inj h' ▸ htask⟩) rfl hfree fun p hp => ?_
    rcases hp with ⟨rule, hrule, rfl⟩ | ⟨argv, hargv, htarget⟩
    · exact Or.inl (Or.inl ⟨rule, hrule, rfl⟩)
    · -- The new lease is on disk before its command is run.
      right
      cases hresult : (e.store.admitTask encodedLen task traces ttlSec now io).2 with
      | error detail => rw [hresult] at hargv; cases hargv
      | ok admission =>
        cases admission with
        | prepared lease =>
          rw [hresult] at hargv
          obtain rfl := Option.some.inj hargv
          obtain ⟨hmem, -, horigin, hstatus, hvalid⟩ := Store.admit_prepared hresult
          rw [insertTarget?_applyArgv alert (validateTask_ok hvalid).2.2.1] at htarget
          obtain ⟨hchain, htoken⟩ := Prod.mk.inj (Option.some.inj htarget)
          have hleaseChain : ownedNftChain lease = ownedNftChain task :=
            origin_fixed (fun _ => rfl) horigin
          have hleaseToken : lease.ownerToken = task.ownerToken :=
            origin_fixed (fun _ => rfl) horigin
          exact ⟨lease, hmem, hleaseToken.trans htoken,
            hleaseChain.trans ((alert.task_built htask).chain.trans (congrArg some hchain)),
            by rw [hstatus]; rfl⟩
        | _ => rw [hresult] at hargv; cases hargv
  | land argv rule hcommand hrule hfresh =>
    refine h.shrink rfl ?_ fun w hw => ⟨hw, rfl⟩
    rintro p (⟨old, hold, rfl⟩ | hp)
    · rcases List.mem_cons.mp hold with rfl | hold
      · exact Or.inr ⟨argv, hcommand, hrule⟩
      · exact Or.inl ⟨old, hold, rfl⟩
    · exact Or.inr hp
  | applied lease argv ok happlying =>
    refine h.shrink rfl (Engine.possible_idle rfl (by cases ok <;> rfl)) fun w hw => ⟨hw, ?_⟩
    rw [happlying]
    cases ok <;> rfl
  | readback lease chain reply result hreading hchain hshows hresult =>
    exact h.shrink rfl (Engine.possible_idle rfl rfl) fun w hw => ⟨hw, by rw [hreading]; rfl⟩
  | close lease confirmed now io hclosing hfree =>
    obtain ⟨op, answer, hop, hadmits, hsweep, -⟩ :=
      Store.step_close encodedLen e.store lease confirmed now io
    exact h.write hs hop (Op.built_of_none hadmits) hsweep hfree
      fun p hp => Or.inl (Set.mem_of_mem_of_subset hp (Engine.possible_idle rfl rfl))
  | sweepBegin now audit io L due hup hfree hstart =>
    refine ⟨h.disk, fun w hw => ?_⟩
    obtain rfl := Option.some.inj hw
    obtain ⟨hload, hdue, -⟩ := Store.sweepStart_run hstart
    obtain rfl := hs.current.load hload
    refine ⟨e.possible, subset_rfl, meets_sweepLoop audit due _ _ hs.flow h.disk fun c hc hbusy => ?_⟩
    obtain ⟨lease, hlease, htoken⟩ := Option.map_eq_some_iff.mp hbusy
    obtain ⟨hflight, hheld⟩ := hs.lease lease hlease
    rw [hdue] at hc
    obtain ⟨t, -, hcandidate⟩ := List.mem_filterMap.mp hc
    obtain ⟨hid, -, hnot⟩ := candidate?_some hcandidate
    have hsame : lease.taskId = c.1 := ownerTokenOf_injective (hheld.1.symm.trans htoken)
    exact hnot (hid ▸ hsame ▸ hflight)
  | command w argv next reply kernel hsweep hprog hanswers =>
    have hsub : ({ e with kernel } : Engine).possible ⊆ e.possible := by
      rintro p (⟨rule, hrule, rfl⟩ | hp)
      · exact Or.inl ⟨rule, hanswers.mem hrule, rfl⟩
      · exact Or.inr hp
    refine ⟨fun p hp => h.disk p (hsub hp), fun w' hw' => ?_⟩
    obtain rfl := Option.some.inj hw'
    obtain ⟨S, hS, hmeets⟩ := h.sweep w hsweep
    rw [hprog] at hmeets
    exact ⟨S ∩ ({ e with kernel } : Engine).possible, fun p hp => ⟨hS (hsub hp), hp⟩,
      hmeets.2 reply _ (hs.covering_env (hs.sweep w hsweep).1 hanswers)⟩
  | sweepEnd w result hsweep hprog =>
    refine ⟨fun p hp => ?_, fun w hw => by cases hw⟩
    obtain ⟨S, hS, hmeets⟩ := h.sweep w hsweep
    rw [hprog] at hmeets
    exact Store.sweepEnd_covers (h.disk p hp) (hmeets p (hS hp))
  | compact now io hfree =>
    exact @Covered.write _ _ _ (.compact now io) _ h hs rfl (Op.built_of_none rfl) rfl hfree
      fun p hp => Or.inl hp
  | crash hup => exact h.shrink rfl subset_rfl fun w hw => by cases hw
  | vanish p =>
    refine h.shrink rfl ?_ fun w hw => ⟨hw, rfl⟩
    rintro p (⟨rule, hrule, rfl⟩ | hp)
    · exact Or.inl ⟨rule, (List.mem_filter.mp hrule).1, rfl⟩
    · exact Or.inr hp

theorem Engine.fresh_covered : Engine.fresh.Covered where
  disk := by
    rintro p (⟨rule, hrule, -⟩ | ⟨argv, hargv, -⟩)
    · cases hrule
    · cases hargv
  sweep := fun _ h => by cases h

/-- **No owned rule without a lease.**  In whatever order the decision thread, the sweeps, failed
saves, crashes and restarts come, a rule with an owner token belongs to a lease on disk that is
prepared, active or uncertain. -/
theorem no_rule_without_lease (encodedLen : ReleaseLedger → ℕ) {evs : List Event}
    (hrun : Run (Engine.Step encodedLen) Engine.fresh evs e) (rule : NftRule)
    (hrule : rule ∈ e.kernel.rules) :
    ∃ task ∈ e.store.ledger.tasks, task.ownerToken = rule.token ∧
      (task.status = .prepared ∨ task.status = .active ∨ task.status = .uncertain) := by
  have hkept : e.Sound ∧ e.Covered := hrun.invariant (I := fun e => e.Sound ∧ e.Covered)
    (fun _ _ _ h hstep => ⟨h.1.step hstep, h.2.step h.1 hstep⟩)
    ⟨Engine.fresh_sound, Engine.fresh_covered⟩
  obtain ⟨task, hmem, htoken, -, heligible⟩ :=
    hkept.2.disk (rule.token, rule.chain) (Or.inl ⟨rule, hrule, rfl⟩)
  refine ⟨task, hmem, htoken, ?_⟩
  cases hstatus : task.status with
  | prepared => exact Or.inl rfl
  | active => exact Or.inr (Or.inl rfl)
  | uncertain => exact Or.inr (Or.inr rfl)
  | _ => rw [hstatus] at heligible; cases heligible

/-! ## 5. The sample rule -/

/-- A match on a payload field, as `nft -j` prints it. -/
def payloadMatch (protocol field : String) (right : Json) : Json :=
  .obj [("match", .obj [("op", .str "=="),
    ("left", .obj [("payload", .obj [("protocol", .str protocol), ("field", .str field)])]),
    ("right", right)])]

/-- The rule the sample alert's command inserts. -/
def sampleRule : NftRule where
  chain := "throttle"
  token := "azazel-edge:release-fef02b4c115f8cf8"
  handle := 7
  json := .obj [("family", .str "inet"), ("table", .str "azazel_edge"), ("chain", .str "throttle"),
    ("handle", .int 7), ("comment", .str "azazel-edge:release-fef02b4c115f8cf8"),
    ("expr", .arr [payloadMatch "ip" "saddr" (.str "192.0.2.7"),
      payloadMatch "ip" "daddr" (.str "198.51.100.9"), payloadMatch "tcp" "dport" (.int 443),
      .obj [("limit", .obj [("rate", .int 16), ("burst", .int 16), ("per", .str "second"),
        ("inv", .bool true), ("rate_unit", .str "kbytes"), ("burst_unit", .str "kbytes")])],
      .obj [("drop", .null)]])]
  chain_json := rfl
  token_json := rfl
  handle_json := rfl

/-- The sample lease is admitted by a core that has just started. -/
def sampleAdmission : Store × Except String Admission :=
  (⟨none, []⟩ : Store).admitTask (fun _ => 1000) sampleTask [] 300 (sampleNow 0) .fine

/-- The answer of an admission that prepared a lease. -/
def preparedLease? : Except String Admission → Option ReleaseTask
  | .ok (.prepared lease) => some lease
  | _ => none

def samplePrepared : ReleaseTask := (preparedLease? sampleAdmission.2).get (by decide +kernel)

theorem sampleAdmission_prepared : sampleAdmission.2 = .ok (.prepared samplePrepared) := by
  have h : preparedLease? sampleAdmission.2 = some samplePrepared := (Option.some_get _).symm
  unfold preparedLease? at h
  split at h
  · rename_i heq
    rw [heq, Option.some.inj h]
  · cases h

/-- The engine once the sample lease's command runs. -/
def sampleApplying : Engine :=
  ⟨sampleAdmission.1, .empty, .applying samplePrepared (sampleAlert.applyArgv sampleTask), none⟩

theorem sampleApplying_run :
    Run (Engine.Step fun _ => 1000) Engine.fresh
      [.start, .admitTask (.ok (.prepared samplePrepared))] sampleApplying := by
  have hempty : ((⟨none, []⟩ : Store).recover (fun _ => 1000) (sampleNow 0) .fine).1 = ⟨none, []⟩ := by
    unfold Store.recover Store.rewrite
    split <;> rfl
  have hstart : Engine.Step (fun _ => 1000) Engine.fresh .start
      { Engine.fresh with
        store := ((⟨none, []⟩ : Store).recover (fun _ => 1000) (sampleNow 0) .fine).1
        decision := .idle } :=
    Engine.Step.start Engine.fresh none (sampleNow 0) .fine rfl rfl
  rw [hempty] at hstart
  have hadmitted : Engine.Step (fun _ => 1000) ⟨⟨none, []⟩, .empty, .idle, none⟩
      (.admitTask sampleAdmission.2)
      ⟨sampleAdmission.1, .empty, .afterAdmit (sampleAlert.applyArgv sampleTask) sampleAdmission.2,
        none⟩ :=
    Engine.Step.admitTask ⟨⟨none, []⟩, .empty, .idle, none⟩ sampleAlert 300 [] (sampleNow 0) .fine
      sampleTask rfl rfl (Option.some_get _).symm
  rw [sampleAdmission_prepared] at hadmitted
  exact Run.head hstart (Run.single hadmitted)

/-- The command of the sample alert inserts the sample rule. -/
theorem sampleRule_target : insertTarget? (sampleAlert.applyArgv sampleTask) =
    some (sampleRule.chain, sampleRule.token) := by decide +kernel

/-- The engine after the sample lease's command has taken effect. -/
def sampleLanded : Engine :=
  { sampleApplying with kernel := Kernel.empty.insert sampleRule (Nat.zero_le _) }

theorem sampleLanded_step :
    Engine.Step (fun _ => 1000) sampleApplying (.land sampleRule) sampleLanded :=
  Engine.Step.land sampleApplying _ sampleRule rfl sampleRule_target (Nat.zero_le _)

theorem no_rule_without_lease_sample :
    sampleRule ∈ sampleLanded.kernel.rules ∧
      ∃ task ∈ sampleLanded.store.ledger.tasks, task.ownerToken = sampleRule.token ∧
        (task.status = .prepared ∨ task.status = .active ∨ task.status = .uncertain) := by
  have hmem : sampleRule ∈ sampleLanded.kernel.rules := List.mem_cons_self
  exact ⟨hmem, no_rule_without_lease (fun _ => 1000) (sampleApplying_run.snoc sampleLanded_step)
    sampleRule hmem⟩

end AzazelEdge.Release
