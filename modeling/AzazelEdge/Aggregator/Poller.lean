/-
# The poller, and the nodes it did not poll

`AggregatorPoller._poll_loop` polls a node under the identity that the registry has for it, and
signs what comes back under that identity.  `ingest_summary` goes by the identity that the summary
claims: it is that node's signature it verifies, that node it quarantines, and that node's summary
it replaces.

* `pollNode`: one turn of the loop;
* `pollNode_own`: a summary without a node object is filed under the polled node;
* `pollNode_isolated_iff`: when a turn leaves every other node alone.
-/
import AzazelEdge.Aggregator.Registry

namespace AzazelEdge.Aggregator

open AzazelEdge.Lib AzazelEdge.Lib.Py AzazelEdge.Audit

variable {F : Type} [PyFloat F] [PyRepr F] [PyConvert F] [PyClock F]

/-! ## 1. One turn of the loop -/

/-- The readings of a turn: `time.time()` where the poller asks for it, and in `ingest_summary`;
and the digits of `uuid4().hex[:12]`. -/
structure PollEnv (F : Type) where
  stamped : F
  signed : F
  ingested : F
  uuid : PyStr

/-- The summary as the poller completes and signs it; none when it raises. -/
def completeSummary (hmacSecret : Option Text) (env : PollEnv F) (node : NodeRecord F)
    (polled : Row F) : Option (Row F) :=
  let nodeId := Decision.strip node.nodeId
  let summary := match getKey kNode polled with
    | some (.obj _) => polled
    | _ =>
      setKey kNode (.obj [(kNodeId, .str nodeId), (kSiteId, .str (Decision.strip node.siteId))]) polled
  let summary := if isTruthy (getKey kTraceId summary) then summary
    else setKey kTraceId (.str (pyStr "pull-" ++ env.uuid)) summary
  let summary := if isTruthy (generatedAtOf summary) then summary
    else setKey kTimestamps (.obj [(kGeneratedAt, .float env.stamped)]) summary
  match hmacSecret with
  | none | some [] => some summary
  | some secret =>
    (coerceEpoch (generatedAtOf summary) env.signed).map fun generatedAt =>
      setKey kSig (.str (computeIngestSig (withoutSig summary) nodeId generatedAt secret)) summary

/-- The turn of `_poll_loop` for this row of `list_nodes`, with the object that the node answered,
if it answered with one. -/
def pollNode (cfg : Config) (hmacSecret : Option Text) (env : PollEnv F) (node : NodeRecord F)
    (answer : Option (Row F)) (reg : Registry F) : Registry F :=
  let pollUrl := Decision.strip (node.pollUrl.getD [])
  if Decision.strip node.nodeId = [] ∨ pollUrl = [] then reg
  else if node.status = .quarantined then reg
  else match answer.bind (completeSummary hmacSecret env node) with
    | none => reg
    | some summary => (ingestSummary cfg reg env.ingested (.obj summary)).1

/-! ## 2. What is known of a node -/

/-- The record and the stored summary of a node. -/
def Registry.about (reg : Registry F) (nodeId : PyStr) : Option (NodeRecord F) × Option (Row F) :=
  (getKey nodeId reg.nodes, getKey nodeId reg.summaries)

/-- Storing a checked summary would leave the node it names as it is: it is refused, or everything
it would write is there. -/
def Untouched (cfg : Config) (reg : Registry F) (now : F) (c : Checked F) : Prop :=
  let record := getKey c.nodeId reg.nodes
  if c.sigFail then ∀ row, record = some row → row.status = .quarantined ∧ row.updatedAt = now
  else refusal cfg reg now c ≠ none ∨
    (∃ row, record = some row ∧ row.updatedAt = now) ∧ getKey c.nodeId reg.summaries = some c.payload

variable {cfg : Config} {reg : Registry F} {now : F} {c : Checked F} {nodeId : PyStr}

/-- **The lock stores under the claimed identity**, and nowhere else. -/
theorem storeSummary_about_of_ne (h : nodeId ≠ c.nodeId) :
    (storeSummary cfg reg now c).1.about nodeId = reg.about nodeId := by
  have hne : ¬ c.nodeId = nodeId := fun heq => h heq.symm
  unfold storeSummary Registry.about
  dsimp only
  split
  · split
    · dsimp only
      rw [getKey_setKey, if_neg hne]
    · rfl
  · split
    · split <;> rfl
    · dsimp only
      rw [getKey_setKey, getKey_setKey, if_neg hne, if_neg hne]

/-- There, it leaves what it finds exactly when there is nothing to write. -/
theorem storeSummary_about_iff :
    (storeSummary cfg reg now c).1.about c.nodeId = reg.about c.nodeId ↔
      Untouched cfg reg now c := by
  unfold storeSummary Untouched Registry.about
  dsimp only
  by_cases hfail : c.sigFail = true
  · rw [if_pos hfail, if_pos hfail]
    cases hrecord : getKey c.nodeId reg.nodes with
    | none => simp [hrecord]
    | some row =>
      dsimp only
      rw [getKey_setKey, if_pos rfl, Prod.mk.injEq, Option.some.injEq]
      constructor
      · rintro ⟨hsame, -⟩ row' hrow'
        obtain rfl := Option.some.inj hrow'
        rw [← hsame]
        exact ⟨rfl, rfl⟩
      · intro h
        obtain ⟨hstatus, hupdated⟩ := h row rfl
        refine ⟨?_, rfl⟩
        rw [← hstatus, ← hupdated]
  · rw [if_neg hfail, if_neg hfail]
    cases hrefusal : refusal cfg reg now c with
    | some e =>
      refine iff_of_true ?_ (Or.inl (by simp))
      dsimp only
      split <;> rfl
    | none =>
      dsimp only
      rw [getKey_setKey, getKey_setKey, if_pos rfl, if_pos rfl, Prod.mk.injEq]
      constructor
      · rintro ⟨hrecord, hsummary⟩
        refine Or.inr ⟨?_, hsummary.symm⟩
        cases hrow : getKey c.nodeId reg.nodes with
        | none =>
          rw [hrow] at hrecord
          cases hrecord
        | some row =>
          rw [hrow] at hrecord
          refine ⟨row, rfl, ?_⟩
          rw [← Option.some.inj hrecord]
      · rintro (h | ⟨⟨row, hrow, rfl⟩, hsummary⟩)
        · exact absurd rfl h
        · rw [hrow]
          exact ⟨rfl, hsummary.symm⟩

/-! ## 3. Summaries about the polled node -/

variable {secret : Option Text} {env : PollEnv F} {node : NodeRecord F} {polled summary : Row F}

/-- **A summary without a node object is filed under the polled node.** -/
theorem pollNode_own (hpolled : ∀ members, getKey kNode polled ≠ some (.obj members))
    (hsummary : completeSummary secret env node polled = some summary)
    (hc : checkSummary cfg now summary = .ok c) : c.nodeId = Decision.strip node.nodeId := by
  obtain ⟨members, hmembers, hid⟩ := (checkSummary_ok hc).node
  have hnode : getKey kNode summary = some (.obj [(kNodeId, .str (Decision.strip node.nodeId)),
      (kSiteId, .str (Decision.strip node.siteId))]) := by
    unfold completeSummary at hsummary
    extract_lets nodeId filled traced dated at hsummary
    have hfilled : getKey kNode filled = some (.obj [(kNodeId, .str nodeId),
        (kSiteId, .str (Decision.strip node.siteId))]) := by
      unfold filled
      split
      · rename_i members hmembers
        exact absurd hmembers (hpolled members)
      · rw [getKey_setKey, if_pos rfl]
    have htraced : getKey kNode traced = getKey kNode filled := by
      unfold traced
      split
      · rfl
      · rw [getKey_setKey, if_neg (by decide)]
    have hdated : getKey kNode dated = getKey kNode filled := by
      unfold dated
      split
      · exact htraced
      · rw [getKey_setKey, if_neg (by decide), htraced]
    split at hsummary
    · rw [← Option.some.inj hsummary, hdated, hfilled]
    · rw [← Option.some.inj hsummary, hdated, hfilled]
    · obtain ⟨generatedAt, -, rfl⟩ := Option.map_eq_some_iff.mp hsummary
      rw [getKey_setKey, if_neg (by decide), hdated, hfilled]
  rw [hnode] at hmembers
  obtain rfl := PyJson.obj.inj (Option.some.inj hmembers)
  rw [hid]
  have hget : getKey kNodeId [(kNodeId, (.str (Decision.strip node.nodeId) : PyJson F)),
      (kSiteId, .str (Decision.strip node.siteId))] = some (.str (Decision.strip node.nodeId)) := rfl
  rw [hget, strOr_str, Decision.strip_strip]

/-! ## 4. The other nodes -/

/-- The poller asks this node. -/
def NodeRecord.Polled (node : NodeRecord F) : Prop :=
  Decision.strip node.nodeId ≠ [] ∧ Decision.strip (node.pollUrl.getD []) ≠ [] ∧
    node.status = .active

/-- The completed summary does not pass the checks, names the polled node itself, or would leave
the node that it names as it is. -/
def Harmless (cfg : Config) (secret : Option Text) (env : PollEnv F) (node : NodeRecord F)
    (polled : Row F) (reg : Registry F) : Prop :=
  ∀ summary c, completeSummary secret env node polled = some summary →
    checkSummary cfg env.ingested summary = .ok c →
      c.nodeId = Decision.strip node.nodeId ∨ Untouched cfg reg env.ingested c

/-- **A turn of the poller leaves every other node alone exactly when what the polled node answered
is harmless.**  In particular a summary without a node object is (`pollNode_own`). -/
theorem pollNode_isolated_iff (cfg : Config) (secret : Option Text) (env : PollEnv F)
    (node : NodeRecord F) (polled : Row F) (reg : Registry F) :
    (∀ nodeId, nodeId ≠ Decision.strip node.nodeId →
        (pollNode cfg secret env node (some polled) reg).about nodeId = reg.about nodeId) ↔
      (node.Polled → Harmless cfg secret env node polled reg) := by
  by_cases hpolled : node.Polled
  · obtain ⟨hid, hurl, hactive⟩ := hpolled
    have hturn : pollNode cfg secret env node (some polled) reg =
        match completeSummary secret env node polled with
        | none => reg
        | some summary => (ingestSummary cfg reg env.ingested (.obj summary)).1 := by
      unfold pollNode
      dsimp only
      rw [if_neg (by simp [hid, hurl]), if_neg (by simp [hactive])]
      rfl
    rw [hturn]
    unfold Harmless
    cases hsummary : completeSummary secret env node polled with
    | none => simp
    | some summary =>
      unfold ingestSummary
      dsimp only
      cases hc : checkSummary cfg env.ingested summary with
      | error e =>
        refine iff_of_true (fun _ _ => rfl) ?_
        rintro - _ c ⟨⟩ hc'
        rw [hc] at hc'
        cases hc'
      | ok c =>
        dsimp only
        constructor
        · rintro halone - _ _ ⟨⟩ hc'
          obtain rfl := Except.ok.inj (hc.symm.trans hc')
          refine (eq_or_ne c.nodeId (Decision.strip node.nodeId)).imp_right fun hne => ?_
          exact storeSummary_about_iff.mp (halone c.nodeId hne)
        · intro hharmless nodeId hne
          by_cases hsame : nodeId = c.nodeId
          · subst hsame
            refine storeSummary_about_iff.mpr ?_
            exact (hharmless ⟨hid, hurl, hactive⟩ summary c rfl hc).resolve_left hne
          · exact storeSummary_about_of_ne hsame
  · refine iff_of_true (fun nodeId _ => ?_) fun h => absurd h hpolled
    unfold pollNode
    dsimp only
    split_ifs with hskip hquarantined
    · rfl
    · rfl
    · refine absurd ⟨fun h => hskip (Or.inl h), fun h => hskip (Or.inr h), ?_⟩ hpolled
      cases hstatus : node.status with
      | active => rfl
      | quarantined => exact absurd hstatus hquarantined

/-! ## 5. A summary in another's name -/

/-- Two registered nodes, of which `a` is polled. -/
def sampleNode (nodeId pollUrl : String) : NodeRecord Whole :=
  { nodeId := pyStr nodeId, siteId := pyStr "site", nodeLabel := [], trustFingerprint := []
    pollUrl := some (pyStr pollUrl), role := none, status := .active
    createdAt := ⟨1700000000⟩, updatedAt := ⟨1700000000⟩ }

def samplePair : Registry Whole :=
  { nodes := [(pyStr "a", sampleNode "a" "https://a/summary"), (pyStr "b", sampleNode "b" "")]
    summaries := []
    seen := [] }

/-- What `a` answers: a summary that names `b`. -/
def sampleForged : Row Whole :=
  [(kTraceId, .str (pyStr "trace-1")),
    (kNode, .obj [(kNodeId, .str (pyStr "b")), (kSiteId, .str (pyStr "site"))]),
    (kTimestamps, .obj [(kGeneratedAt, .int 1700000050)])]

def sampleEnv : PollEnv Whole := ⟨⟨1700000060⟩, ⟨1700000060⟩, ⟨1700000060⟩, pyStr "0a1b2c3d4e5f"⟩

theorem sampleWindow_pos : (1 : ℤ) ≤ 300 := by decide

/-- The registry after `a` was polled. -/
def samplePolled (secret : Option Text) : Registry Whole :=
  pollNode ⟨secret, false, 300, sampleWindow_pos⟩ secret sampleEnv
    (sampleNode "a" "https://a/summary") (some sampleForged) samplePair

/-- Without a secret the summary of `b` is the one that `a` made up; with one, `b` is quarantined
for the signature that the poller made under the name of `a`. -/
theorem pollNode_not_isolated :
    (sampleNode "a" "https://a/summary").Polled ∧ pyStr "b" ≠ pyStr "a" ∧
      getKey (pyStr "b") samplePair.summaries = none ∧
      (getKey (pyStr "b") (samplePolled none).summaries).isSome ∧
      (getKey (pyStr "b") samplePair.nodes).map (·.status) = some .active ∧
      (getKey (pyStr "b") (samplePolled (some (ascii "secret"))).nodes).map (·.status) =
        some .quarantined := by
  refine ⟨⟨by decide, by decide, rfl⟩, by decide, rfl, by decide +kernel, rfl, by decide +kernel⟩

end AzazelEdge.Aggregator
