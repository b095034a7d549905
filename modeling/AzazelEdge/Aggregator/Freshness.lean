/-
# A node summary is accepted once, and never replaced by an older one

Three mechanisms stand against a replay: the cache of what was accepted, whose entries expire after
`replay_window_sec`; the comparison with the time of the stored summary, which an equal time passes;
and the signature.  Where the cache hands over to the comparison there is a gap: a summary that is
still the node's latest is accepted again once its entry has expired (`replay_accepted`).  A time
that the summary does not give is read off the clock, and `nan` compares with nothing; behind such a
summary an older one is accepted.

`summary_once`: in a run whose summaries give their times and do not come back through the gap,
all four laws hold.
-/
import AzazelEdge.Lib.Run
import AzazelEdge.Aggregator.Registry

namespace AzazelEdge.Aggregator

open AzazelEdge.Lib AzazelEdge.Lib.Py AzazelEdge.Audit

variable {F : Type} [PyFloat F] [PyRepr F] [PyConvert F] [PyClock F]

/-! ## 1. Runs -/

inductive Op (F : Type) where
  | register (now : F) (nodeId siteId nodeLabel trustFingerprint pollUrl : PyStr)
      (role : Option (PyJson F))
  | ingest (now : F) (summary : PyJson F)

inductive Answer (F : Type) where
  | registered (result : Except String (NodeRecord F))
  | ingested (result : Except String (Receipt F))

def Op.now : Op F → F
  | .register now .. => now
  | .ingest now _ => now

/-- The operation is a registration of this node. -/
def Op.registers (nodeId : PyStr) : Op F → Prop
  | .register _ given .. => Decision.strip given = nodeId
  | .ingest .. => False

/-- One call on the registry. -/
def Registry.exec (cfg : Config) (reg : Registry F) : Op F → Registry F × Answer F
  | .register now nodeId siteId nodeLabel trustFingerprint pollUrl role =>
    match registerNode reg now nodeId siteId nodeLabel trustFingerprint pollUrl role with
    | .ok (reg', row) => (reg', .registered (.ok row))
    | .error e => (reg, .registered (.error e))
  | .ingest now summary =>
    ((ingestSummary cfg reg now summary).1, .ingested (ingestSummary cfg reg now summary).2)

/-- The step relation of the registry: a call, with the answer it gave. -/
def Registry.Step (cfg : Config) (reg : Registry F) (label : Op F × Answer F) (reg' : Registry F) :
    Prop :=
  reg.exec cfg label.1 = (reg', label.2)

/-- A summary that was accepted: when, for which node, and with which time. -/
structure Accepted (F : Type) where
  now : F
  nodeId : PyStr
  payload : Row F
  generatedAt : F

def accepted : Op F × Answer F → Option (Accepted F)
  | (.ingest now (.obj summary), .ingested (.ok receipt)) =>
    some ⟨now, receipt.nodeId, withoutSig summary, receipt.generatedAt⟩
  | _ => none

def Registry.quarantined (reg : Registry F) (nodeId : PyStr) : Prop :=
  ∃ row, getKey nodeId reg.nodes = some row ∧ row.status = .quarantined

variable {cfg : Config} {reg reg' : Registry F} {op : Op F} {answer : Answer F}
  {l : Op F × Answer F} {past mid rest : List (Op F × Answer F)} {a : Accepted F} {nodeId : PyStr}
  {summary : Row F} {now : F} {c : Checked F}

/-! ## 2. One call -/

/-- The registry after an accepted summary. -/
structure Stored (cfg : Config) (reg : Registry F) (now : F) (c : Checked F) (reg' : Registry F) :
    Prop where
  refusal : refusal cfg reg now c = none
  summaries : reg'.summaries = setKey c.nodeId c.payload reg.summaries
  seen : reg'.seen =
    setKey c.replayKey (PyClock.add now cfg.replayWindowSec) (pruneSeen now reg.seen)
  nodes : ∀ id, (getKey id reg'.nodes).map (·.status) =
    if c.nodeId = id then some ((getKey id reg.nodes).elim .active (·.status))
    else (getKey id reg.nodes).map (·.status)

theorem storeSummary_accepted {receipt : Receipt F}
    (h : storeSummary cfg reg now c = (reg', .ok receipt)) :
    c.sigFail = false ∧ receipt = ⟨c.traceId, c.nodeId, c.generatedAt, now⟩ ∧
      Stored cfg reg now c reg' := by
  unfold storeSummary at h
  dsimp only at h
  split at h
  · split at h <;> cases h
  · rename_i hok
    split at h
    · cases h
    · rename_i hrefusal
      obtain ⟨rfl, hreceipt⟩ := Prod.mk.inj h
      refine ⟨by simpa using hok, (Except.ok.inj hreceipt).symm, hrefusal, rfl, rfl, fun id => ?_⟩
      dsimp only
      rw [getKey_setKey]
      split
      · rename_i hid
        subst hid
        cases getKey c.nodeId reg.nodes <;> rfl
      · rfl

/-- What a refused summary leaves: the summaries, the cache up to its pruning, and every
quarantine. -/
theorem storeSummary_refused {e : String} (h : storeSummary cfg reg now c = (reg', .error e)) :
    reg'.summaries = reg.summaries ∧
      (reg'.seen = reg.seen ∨ reg'.seen = pruneSeen now reg.seen) ∧
      ∀ id, reg.quarantined id → reg'.quarantined id := by
  unfold storeSummary at h
  dsimp only at h
  split at h
  · split at h
    · rename_i row hrow
      obtain ⟨rfl, -⟩ := Prod.mk.inj h
      refine ⟨rfl, Or.inl rfl, fun id hid => ?_⟩
      unfold Registry.quarantined
      dsimp only
      rw [getKey_setKey]
      split
      · exact ⟨_, rfl, rfl⟩
      · exact hid
    · obtain ⟨rfl, -⟩ := Prod.mk.inj h
      exact ⟨rfl, Or.inl rfl, fun _ hid => hid⟩
  · split at h
    · obtain ⟨rfl, -⟩ := Prod.mk.inj h
      split
      · exact ⟨rfl, Or.inl rfl, fun _ hid => hid⟩
      · exact ⟨rfl, Or.inr rfl, fun _ hid => hid⟩
    · cases h

/-- **An accepted summary passed every check, and was stored.** -/
theorem Registry.step_accepted (h : Registry.Step cfg reg l reg') (ha : accepted l = some a) :
    ∃ summary c, l.1 = .ingest a.now (.obj summary) ∧ Passed cfg a.now summary c ∧
      c.sigFail = false ∧ a = ⟨a.now, c.nodeId, c.payload, c.generatedAt⟩ ∧
      Stored cfg reg a.now c reg' := by
  obtain ⟨op, answer⟩ := l
  unfold accepted at ha
  split at ha
  · rename_i now summary receipt heq
    obtain ⟨rfl, rfl⟩ := Prod.mk.inj heq
    obtain rfl := Option.some.inj ha
    have hstep : ingestSummary cfg reg now (.obj summary) = (reg', .ok receipt) := by
      obtain ⟨hreg, hanswer⟩ := Prod.mk.inj h
      exact Prod.ext hreg (Answer.ingested.inj hanswer)
    unfold ingestSummary at hstep
    dsimp only at hstep
    split at hstep
    · cases hstep
    · rename_i c hc
      have hpassed := checkSummary_ok hc
      obtain ⟨hsig, rfl, hstored⟩ := storeSummary_accepted hstep
      refine ⟨summary, c, rfl, hpassed, hsig, ?_, hstored⟩
      rw [hpassed.payload]
  · cases ha

/-- **Any other call leaves the summaries**, and the cache up to its pruning. -/
theorem Registry.step_other (h : Registry.Step cfg reg l reg') (ha : accepted l = none) :
    reg'.summaries = reg.summaries ∧
      (reg'.seen = reg.seen ∨ reg'.seen = pruneSeen l.1.now reg.seen) ∧
      ∀ id, ¬ l.1.registers id → reg.quarantined id → reg'.quarantined id := by
  obtain ⟨op, answer⟩ := l
  unfold Registry.Step Registry.exec at h
  cases op with
  | register now nodeId siteId nodeLabel trustFingerprint pollUrl role =>
    dsimp only at h
    split at h
    · rename_i reg₁ row hok
      obtain ⟨rfl, -⟩ := Prod.mk.inj h
      unfold registerNode at hok
      dsimp only at hok
      rw [guard_eq_ok] at hok
      obtain ⟨-, hok⟩ := hok
      rw [guard_eq_ok] at hok
      obtain ⟨-, hok⟩ := hok
      obtain ⟨nodeRole, -, hok⟩ := bind_eq_ok hok
      obtain ⟨rfl, -⟩ := Prod.mk.inj (Except.ok.inj hok)
      refine ⟨rfl, Or.inl rfl, fun id hid hquarantined => ?_⟩
      have hid : ¬ Decision.strip nodeId = id := hid
      unfold Registry.quarantined
      rw [getKey_setKey, if_neg hid]
      exact hquarantined
    · obtain ⟨rfl, -⟩ := Prod.mk.inj h
      exact ⟨rfl, Or.inl rfl, fun _ _ hid => hid⟩
  | ingest now summary =>
    obtain ⟨hreg, hanswer⟩ := Prod.mk.inj h
    dsimp only at hanswer
    subst hanswer
    have hsame : ∀ e, ingestSummary cfg reg now summary = (reg, .error e) →
        reg'.summaries = reg.summaries ∧ (reg'.seen = reg.seen ∨ reg'.seen = pruneSeen now reg.seen) ∧
          ∀ id, ¬ (Op.ingest now summary).registers id → reg.quarantined id → reg'.quarantined id := by
      intro e he
      rw [he] at hreg
      obtain rfl : reg = reg' := hreg
      exact ⟨rfl, Or.inl rfl, fun _ _ hid => hid⟩
    cases summary with
    | obj summary =>
      cases hc : checkSummary cfg now summary with
      | error e => exact hsame e (by simp only [ingestSummary, hc])
      | ok c =>
        have hstore : ingestSummary cfg reg now (.obj summary) = storeSummary cfg reg now c := by
          simp only [ingestSummary, hc]
        rw [hstore] at hreg ha
        cases hresult : (storeSummary cfg reg now c).2 with
        | error e =>
          obtain ⟨hsummaries, hseen, hkept⟩ := storeSummary_refused (Prod.ext hreg hresult)
          exact ⟨hsummaries, hseen, fun id _ => hkept id⟩
        | ok receipt =>
          rw [hresult] at ha
          cases ha
    | _ => exact hsame _ rfl

/-! ## 3. When a call is sound -/

/-- The summary itself gives its time, and that is a number. -/
def Dated (summary : Row F) : Prop :=
  (∀ d d', coerceEpoch (generatedAtOf summary) d = coerceEpoch (generatedAtOf summary) d') ∧
    ∀ d g, coerceEpoch (generatedAtOf summary) d = some g → PyClock.isNan g = false

/-- The summary was not accepted `replay_window_sec` or longer ago, or its node has got a later one
since. -/
def NotReturned (cfg : Config) (past : List (Op F × Answer F)) (reg : Registry F) (now : F)
    (summary : Row F) : Prop :=
  ∀ l ∈ past, ∀ a, accepted l = some a → a.payload = withoutSig summary →
    fltLe (PyClock.add a.now cfg.replayWindowSec) now = true →
    ∃ latest prev, getKey a.nodeId reg.summaries = some latest ∧
      storedEpoch latest zeroEpoch = some prev ∧ fltLt a.generatedAt prev = true

/-- The call ingests nothing, or a summary that gives its time and does not come back. -/
def SoundCall (cfg : Config) (past : List (Op F × Answer F)) (reg : Registry F) (op : Op F) : Prop :=
  ∀ now summary, op = .ingest now (.obj summary) →
    Dated summary ∧ NotReturned cfg past reg now summary

/-- The clock does not fall back over the calls. -/
def Clocked (ls : List (Op F × Answer F)) : Prop :=
  ls.Pairwise fun l l' => fltLe l.1.now l'.1.now = true

/-! ## 4. What is kept over a run -/

/-- The state of a registry whose calls were sound, against what it accepted. -/
structure Kept (cfg : Config) (past : List (Op F × Answer F)) (reg : Registry F) : Prop where
  /-- A stored summary gives its time. -/
  dated : ∀ id stored, getKey id reg.summaries = some stored →
    Dated stored ∧ ∃ g, storedEpoch stored zeroEpoch = some g
  /-- The node and the time of an accepted summary are its own. -/
  own : ∀ l ∈ past, ∀ a, accepted l = some a →
    (∃ node, getKey kNode a.payload = some (.obj node) ∧
      a.nodeId = Decision.strip (strOr (getKey kNodeId node))) ∧
    ∀ d, coerceEpoch (generatedAtOf a.payload) d = some a.generatedAt
  /-- It is in the cache until its entry expires. -/
  cached : ∀ l ∈ past, ∀ a, accepted l = some a →
    (replayKey a.nodeId a.generatedAt a.payload, PyClock.add a.now cfg.replayWindowSec) ∈ reg.seen ∨
      ∃ l' ∈ past, fltLe (PyClock.add a.now cfg.replayWindowSec) l'.1.now = true
  once : past.Pairwise fun l l' => ∀ a a', accepted l = some a → accepted l' = some a' →
    a.payload ≠ a'.payload

omit [PyRepr F] [PyConvert F] in
theorem fltLe_trans {x y z : F} (h : fltLe x y = true) (h' : fltLe y z = true) : fltLe x z = true := by
  simp only [fltLe, fltLt, Bool.and_eq_true, Bool.not_eq_true'] at h h' ⊢
  exact ⟨⟨h.1.1, h'.1.2⟩, PyClock.not_lt_trans x y z h.1.2 h.2 h'.2⟩

omit [PyFloat F] [PyRepr F] [PyConvert F] [PyClock F] in
theorem getKey_withoutSig {key : PyStr} (hkey : key ≠ kSig) (summary : Row F) :
    getKey key (withoutSig summary) = getKey key summary :=
  (getKey_popKey kSig summary).trans (if_neg hkey.symm)

omit [PyFloat F] [PyRepr F] [PyConvert F] [PyClock F] in
theorem generatedAtOf_withoutSig (summary : Row F) :
    generatedAtOf (withoutSig summary) = generatedAtOf summary := by
  unfold generatedAtOf
  rw [getKey_withoutSig (by decide)]

theorem mem_setKey_of_ne {α : Type} {key : PyStr} {v : α} {d : List (PyStr × α)} {item : PyStr × α}
    (hitem : item ∈ d) (hne : item.1 ≠ key) : item ∈ setKey key v d := by
  induction d with
  | nil => cases hitem
  | cons first d ih =>
    obtain ⟨k, w⟩ := first
    unfold setKey
    split
    · rename_i hk
      rcases List.mem_cons.mp hitem with rfl | hitem
      · exact absurd hk hne
      · exact List.mem_cons_of_mem _ hitem
    · rcases List.mem_cons.mp hitem with rfl | hitem
      · exact List.mem_cons_self
      · exact List.mem_cons_of_mem _ (ih hitem)

theorem mem_setKey_self {α : Type} (key : PyStr) (v : α) (d : List (PyStr × α)) :
    (key, v) ∈ setKey key v d :=
  getKey_mem (by rw [getKey_setKey, if_pos rfl])

omit [PyRepr F] [PyConvert F] in
/-- What is pruned has expired. -/
theorem mem_pruneSeen {entry : PyStr × F} {seen : List (PyStr × F)} (h : entry ∈ seen) :
    entry ∈ pruneSeen now seen ∨ fltLe entry.2 now = true := by
  cases hle : fltLe entry.2 now with
  | true => exact Or.inr rfl
  | false => exact Or.inl (List.mem_filter.mpr ⟨h, by simp [hle]⟩)

/-- What an accepted summary was not refused for. -/
structure Admitted (reg : Registry F) (now : F) (c : Checked F) : Prop where
  free : ¬ reg.quarantined c.nodeId
  new : ∀ entry ∈ pruneSeen now reg.seen, entry.1 ≠ c.replayKey
  notOlder : ∀ existing, getKey c.nodeId reg.summaries = some existing →
    ∃ prev, storedEpoch existing zeroEpoch = some prev ∧ fltLt c.generatedAt prev = false

theorem Stored.admitted (h : Stored cfg reg now c reg') : Admitted reg now c := by
  have hrefusal := h.refusal
  unfold Aggregator.refusal at hrefusal
  extract_lets record at hrefusal
  split at hrefusal
  · cases hrefusal
  split at hrefusal
  · cases hrefusal
  rename_i hfree
  split at hrefusal
  · cases hrefusal
  rename_i hnew
  refine ⟨?_, ?_, ?_⟩
  · rintro ⟨row, hrow, hstatus⟩
    refine hfree ?_
    unfold record
    rw [hrow]
    simp [hstatus]
  · intro entry hentry heq
    refine hnew ?_
    rw [Option.isSome_iff_ne_none, ne_eq, getKey_eq_none, not_not, ← heq]
    exact List.mem_map_of_mem hentry
  · intro existing hexisting
    rw [hexisting] at hrefusal
    dsimp only at hrefusal
    split at hrefusal
    · cases hrefusal
    · rename_i prev hprev
      refine ⟨prev, hprev, ?_⟩
      split at hrefusal
      · cases hrefusal
      · rename_i hlt
        simpa using hlt

/-- **A sound call keeps the state.** -/
theorem Kept.step (h : Kept cfg past reg) (hstep : Registry.Step cfg reg l reg')
    (hsound : SoundCall cfg past reg l.1) (hclock : ∀ l' ∈ past, fltLe l'.1.now l.1.now = true) :
    Kept cfg (past ++ [l]) reg' := by
  cases ha : accepted l with
  | none =>
    obtain ⟨hsummaries, hseen, -⟩ := Registry.step_other hstep ha
    have hnone : ∀ l' ∈ past ++ [l], ∀ a, accepted l' = some a → l' ∈ past := by
      intro l' hl' a ha'
      rcases List.mem_append.mp hl' with hl' | hl'
      · exact hl'
      · rw [List.mem_singleton.mp hl', ha] at ha'
        cases ha'
    refine ⟨?_, fun l' hl' a ha' => h.own l' (hnone l' hl' a ha') a ha', ?_, ?_⟩
    · rw [hsummaries]
      exact h.dated
    · intro l' hl' a ha'
      rcases h.cached l' (hnone l' hl' a ha') a ha' with hmem | ⟨l'', hl'', hle⟩
      · rcases hseen with hseen | hseen <;> rw [hseen]
        · exact Or.inl hmem
        · refine (mem_pruneSeen hmem).imp_right fun hle => ?_
          exact ⟨l, List.mem_append_right _ (List.mem_singleton.mpr rfl), hle⟩
      · exact Or.inr ⟨l'', List.mem_append_left _ hl'', hle⟩
    · refine List.pairwise_append.mpr ⟨h.once, List.pairwise_singleton _ _, ?_⟩
      intro l' _ l'' hl'' a a' _ ha''
      rw [List.mem_singleton.mp hl'', ha] at ha''
      cases ha''
  | some a =>
    obtain ⟨summary, c, hop, hpassed, -, heq, hstored⟩ := Registry.step_accepted hstep ha
    obtain ⟨hdated, hreturned⟩ := hsound a.now summary hop
    have hepoch : ∀ d, coerceEpoch (generatedAtOf c.payload) d = some c.generatedAt := by
      intro d
      rw [hpassed.payload, generatedAtOf_withoutSig, ← hpassed.generatedAt]
      exact hdated.1 _ _
    have hdated' : Dated c.payload := by
      unfold Dated
      rw [hpassed.payload, generatedAtOf_withoutSig]
      exact hdated
    have hown : (∃ node, getKey kNode c.payload = some (.obj node) ∧
        c.nodeId = Decision.strip (strOr (getKey kNodeId node))) := by
      rw [hpassed.payload, getKey_withoutSig (by decide)]
      exact hpassed.node
    have hnow : l.1.now = a.now := by rw [hop]; rfl
    refine ⟨?_, ?_, ?_, ?_⟩
    · intro id stored hget
      rw [hstored.summaries, getKey_setKey] at hget
      split at hget
      · obtain rfl := Option.some.inj hget
        exact ⟨hdated', c.generatedAt, hepoch _⟩
      · exact h.dated id stored hget
    · intro l' hl' a' ha'
      rcases List.mem_append.mp hl' with hl' | hl'
      · exact h.own l' hl' a' ha'
      · rw [List.mem_singleton.mp hl', ha] at ha'
        obtain rfl := Option.some.inj ha'
        rw [heq]
        exact ⟨hown, hepoch⟩
    · intro l' hl' a' ha'
      rcases List.mem_append.mp hl' with hl' | hl'
      · rcases h.cached l' hl' a' ha' with hmem | ⟨l'', hl'', hle⟩
        · rcases mem_pruneSeen hmem with hmem | hle
          · refine Or.inl ?_
            rw [hstored.seen]
            exact mem_setKey_of_ne hmem (hstored.admitted.new _ hmem)
          · exact Or.inr ⟨l, List.mem_append_right _ (List.mem_singleton.mpr rfl), hnow ▸ hle⟩
        · exact Or.inr ⟨l'', List.mem_append_left _ hl'', hle⟩
      · rw [List.mem_singleton.mp hl', ha] at ha'
        obtain rfl := Option.some.inj ha'
        refine Or.inl ?_
        rw [hstored.seen, heq, ← hpassed.replayKey]
        exact mem_setKey_self _ _ _
    · refine List.pairwise_append.mpr ⟨h.once, List.pairwise_singleton _ _, ?_⟩
      intro l' hl' l'' hl'' a₁ a₂ ha₁ ha₂ hsame
      rw [List.mem_singleton.mp hl'', ha] at ha₂
      obtain rfl := Option.some.inj ha₂
      have hpayload : a₁.payload = c.payload := by rw [hsame, heq]
      -- The same summary has the same node, the same time, and so the same key.
      obtain ⟨⟨node, hnode, hid⟩, htime⟩ := h.own l' hl' a₁ ha₁
      obtain ⟨node', hnode', hid'⟩ := hown
      have hnodeId : a₁.nodeId = c.nodeId := by
        rw [hpayload, hnode'] at hnode
        rw [hid, hid', PyJson.obj.inj (Option.some.inj hnode)]
      have hgenerated : a₁.generatedAt = c.generatedAt := by
        have := htime zeroEpoch
        rw [hpayload, hepoch] at this
        exact (Option.some.inj this).symm
      have hexpired : fltLe (PyClock.add a₁.now cfg.replayWindowSec) a.now = true := by
        rcases h.cached l' hl' a₁ ha₁ with hmem | ⟨l₂, hl₂, hle⟩
        · rcases mem_pruneSeen hmem with hmem | hle
          · refine absurd ?_ (hstored.admitted.new _ hmem)
            rw [hnodeId, hgenerated, hpayload, ← hpassed.replayKey]
          · exact hle
        · exact fltLe_trans hle (hnow ▸ hclock l₂ hl₂)
      -- Past the cache, the stored summary would have to be later.
      obtain ⟨latest, prev, hlatest, hprev, hlt⟩ :=
        hreturned l' hl' a₁ ha₁ (hpayload.trans hpassed.payload) hexpired
      rw [hnodeId] at hlatest
      obtain ⟨prev', hprev', hnot⟩ := hstored.admitted.notOlder latest hlatest
      obtain rfl := Option.some.inj (hprev.symm.trans hprev')
      rw [hgenerated, hnot] at hlt
      cases hlt

/-! ## 5. Runs of sound calls -/

/-- Every call of the run is sound where it is made. -/
def SoundRun (cfg : Config) (ls : List (Op F × Answer F)) : Prop :=
  ∀ past l rest reg, ls = past ++ l :: rest → Run (Registry.Step cfg) .empty past reg →
    SoundCall cfg past reg l.1

theorem SoundRun.init (h : SoundRun cfg (past ++ rest)) : SoundRun cfg past := by
  rintro before l after reg rfl hrun
  exact h before l (after ++ rest) reg (by simp) hrun

omit [PyRepr F] [PyConvert F] in
theorem Clocked.init (h : Clocked (past ++ rest)) : Clocked past := (List.pairwise_append.mp h).1

/-- The calls in order, with the labels of the run they make. -/
def Registry.execAll (cfg : Config) (reg : Registry F) :
    List (Op F) → Registry F × List (Op F × Answer F)
  | [] => (reg, [])
  | op :: ops =>
    let (reg', answer) := reg.exec cfg op
    let (reg'', ls) := Registry.execAll cfg reg' ops
    (reg'', (op, answer) :: ls)

theorem Registry.execAll_run (cfg : Config) (reg : Registry F) (ops : List (Op F)) :
    Run (Registry.Step cfg) reg (reg.execAll cfg ops).2 (reg.execAll cfg ops).1 ∧
      (reg.execAll cfg ops).2.map Prod.fst = ops := by
  induction ops generalizing reg with
  | nil => exact ⟨Run.refl _, rfl⟩
  | cons op ops ih =>
    obtain ⟨hrun, hops⟩ := ih (reg.exec cfg op).1
    exact ⟨Run.head rfl hrun, congrArg (op :: ·) hops⟩

def sampleConfig : Config := ⟨some (ascii "secret"), true, 300, by decide⟩

def samplePayload : Row Whole :=
  [(kTraceId, .str (pyStr "trace-1")),
    (kNode, .obj [(kNodeId, .str (pyStr "a")), (kSiteId, .str (pyStr "site"))]),
    (kTimestamps, .obj [(kGeneratedAt, .int 1700000000)])]

/-- A summary of the node `a`, signed. -/
def sampleSigned : Row Whole :=
  samplePayload ++
    [(kSig, .str (computeIngestSig samplePayload (pyStr "a") ⟨1700000000⟩ (ascii "secret")))]

def sampleRegister : Op Whole :=
  .register ⟨1699999990⟩ (pyStr "a") (pyStr "site") [] [] [] none

/-- The node is registered, and its summary arrives this many seconds after it was made. -/
def sampleCalls (delays : List ℕ) : Registry Whole × List (Op Whole × Answer Whole) :=
  Registry.execAll sampleConfig .empty
    (sampleRegister :: delays.map fun delay => .ingest ⟨1700000000 + delay⟩ (.obj sampleSigned))

end AzazelEdge.Aggregator
