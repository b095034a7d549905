/-
# The sequence of attack stages

`_evaluate_behavior_sequence_state` (`evaluators/soc.py`): each event is of a stage, the events are
put in the order of their times, and what follows an event of its own stage is left out.  What is
counted as `distinct_stage_count` is the known stages of that sequence, so a stage to which the
events come back is counted again.  The count is of different stages exactly when the events of
each known stage come one after the other (`stages_counted_iff`).
-/
import AzazelEdge.Evaluators.LifeCycle
import Mathlib.Data.List.Infix

namespace AzazelEdge.Evaluators.Soc

open AzazelEdge.Lib AzazelEdge.Lib.Py AzazelEdge.Audit AzazelEdge.Arbiter AzazelEdge.EvidencePlane

/-! ## 1. Stages -/

/-- What `infer_stage` returns. -/
inductive Stage where
  | recon | access | lateral | command | impact | unknown
  deriving DecidableEq

/-- A stage as it is written. -/
def Stage.text : Stage → PyStr
  | .recon => pyStr "recon"
  | .access => pyStr "access"
  | .lateral => pyStr "lateral"
  | .command => pyStr "command"
  | .impact => pyStr "impact"
  | .unknown => pyStr "unknown"

/-- The terms of each stage, in the order in which they are looked for. -/
def stageTerms : List (Stage × List String) :=
  [(.recon, ["scan", "recon", "discovery", "probe"]),
    (.access, ["brute", "auth", "login", "exploit", "access"]),
    (.lateral, ["lateral", "rdp", "smb", "ssh", "remote service"]),
    (.command, ["c2", "beacon", "command and control", "dns tunnel", "exfil"]),
    (.impact, ["impact", "ransom", "destroy", "wiper"])]

variable {F : Type} [PyFloat F] [PyRepr F] [PyConvert F]

/-- `infer_stage`. -/
def inferStage (payload : Row F) : Stage :=
  let text := PyConvert.lower F (attrStr "attack_type" payload ++ pyStr " " ++
    attrStr "category" payload ++ pyStr " " ++ strField "kind" payload)
  let found := stageTerms.find? fun item => item.2.any fun term => pyStr term <:+: text
  (found.map Prod.fst).getD .unknown

/-- The stages that are known. -/
def known (stages : List Stage) : List Stage := stages.filter (· ≠ .unknown)

/-- The loop that leaves out what follows its own stage; `last` is `ordered[-1]`. -/
def collapseFrom : Option Stage → List Stage → List Stage
  | _, [] => []
  | last, stage :: rest =>
    if last = some stage then collapseFrom last rest else stage :: collapseFrom (some stage) rest

/-! ## 2. What is made of the sequence -/

/-- `known_chains`. -/
def knownChains : List (List Stage) :=
  [[.recon, .access, .command], [.recon, .access, .lateral, .command],
    [.access, .lateral, .impact]]

/-- `chain_hits`, of the sequence `ordered`. -/
def chainHits (ordered : List Stage) : List (List Stage) :=
  knownChains.filter (· <:+: known ordered)

/-- `'->'.join(chain)`. -/
def chainText (chain : List Stage) : PyStr :=
  ((chain.map Stage.text).intersperse (pyStr "->")).flatten

/-- `score`. -/
def sequenceScore (ordered : List Stage) : ℤ :=
  let score : ℤ := min 100 (20 + (known ordered).length * 20)
  let score := if .recon ∈ ordered ∧ .command ∈ ordered then min 100 (score + 15) else score
  let score := if .access ∈ ordered ∧ .lateral ∈ ordered then min 100 (score + 10) else score
  if chainHits ordered ≠ [] then min 100 (score + 10) else score

/-- `status`. -/
def sequenceStatus (count : ℕ) : PyStr :=
  if 3 ≤ count then pyStr "multi_stage"
  else if 1 ≤ count then pyStr "single_stage"
  else pyStr "unknown_stage"

/-- The reason for a status. -/
def statusReason (count : ℕ) : PyStr :=
  if 3 ≤ count then pyStr "attack_progression_observed"
  else if 1 ≤ count then pyStr "single_stage_signal"
  else pyStr "insufficient_stage_signal"

/-- The dict that is returned; one without events has neither chains nor entities. -/
structure BehaviorState where
  status : PyStr
  score : ℤ
  label : PyStr
  stageSequence : List PyStr
  distinctStageCount : ℕ
  chainHits : Option (List PyStr)
  implicatedEntities : Option (List PyStr)
  reasons : List PyStr
  evidenceIds : List PyStr

/-- `rows`: the time of an event, its stage, its id, its source and its destination. -/
structure BehaviorRow (T : Type) where
  ts : T
  stage : Stage
  eventId : PyStr
  src : PyStr
  dst : PyStr

variable {T : Type}

/-- `involved_entities`. -/
def involvedEntities (rows : List (BehaviorRow T)) : List PyStr :=
  rows.foldl (fun texts row => addText (addText texts (Decision.strip row.src))
    (Decision.strip row.dst)) []

/-- The state of rows that are in order. -/
def sequenceState (rows : List (BehaviorRow T)) (evidenceIds : List PyStr) : BehaviorState :=
  if rows = [] then
    { status := pyStr "none", score := 0, label := bucket 0, stageSequence := []
      distinctStageCount := 0, chainHits := none, implicatedEntities := none
      reasons := [pyStr "no_soc_events"], evidenceIds := [] }
  else
    let ordered := collapseFrom none (rows.map (·.stage))
    let count := (known ordered).length
    { status := sequenceStatus count
      score := sequenceScore ordered
      label := bucket (sequenceScore ordered)
      stageSequence := (ordered.take 8).map Stage.text
      distinctStageCount := count
      chainHits := some (((chainHits ordered).take 6).map chainText)
      implicatedEntities := some ((involvedEntities rows).take 8)
      reasons := statusReason count ::
        if chainHits ordered ≠ [] then [pyStr "known_chain_match"] else []
      evidenceIds := sortedUnique evidenceIds }

/-! ## 3. The order of the events -/

/-- What is asked of `datetime` to sort by it. -/
class PyInstant (T : Type) extends PyDatetime T where
  /-- A time with an offset. -/
  aware : T → Bool
  /-- `a <= b`, of two times that both have an offset or both have none. -/
  le : T → T → Bool

variable [PyInstant T]

/-- A row of an event; `clock` is the time of one that has none. -/
def readBehavior (clock : T) (payload : Row F) : BehaviorRow T :=
  let (src, dst) := socEndpoints payload
  { ts := (parseTs (getKey (pyStr "ts") payload)).getD clock
    stage := inferStage payload
    eventId := strField "event_id" payload
    src, dst }

/-- The rows before they are sorted. -/
def behaviorRows (clock : ℕ → T) (payloads : List (Row F)) : List (BehaviorRow T) :=
  payloads.zipIdx.map fun (payload, i) => readBehavior (clock i) payload

/-- `rows.sort(key=lambda row: row[0])`, which keeps the order of equal times. -/
def inTimeOrder (rows : List (BehaviorRow T)) : List (BehaviorRow T) :=
  rows.insertionSort fun a b => PyInstant.le a.ts b.ts = true

/-- No two of the times are such that comparing them raises. -/
def Comparable (rows : List (BehaviorRow T)) : Prop :=
  rows.length ≤ 1 ∨ (∀ row ∈ rows, PyInstant.aware row.ts = true) ∨
    ∀ row ∈ rows, PyInstant.aware row.ts = false

instance (rows : List (BehaviorRow T)) : Decidable (Comparable rows) :=
  inferInstanceAs (Decidable (_ ∨ _ ∨ _))

/-- `_evaluate_behavior_sequence_state`; none when it raises. -/
def evaluateBehaviorSequenceState (clock : ℕ → T) (soc flows : List (Row F)) :
    Option BehaviorState :=
  let rows := behaviorRows clock (soc ++ flows)
  if Comparable rows then
    some (sequenceState (inTimeOrder rows) ((rows.map (·.eventId)).filter (· ≠ [])))
  else none

/-! ## 4. Stages that come back -/

/-- The first of each stage, of those that are not `seen`. -/
def firstsFrom : List Stage → List Stage → List Stage
  | _, [] => []
  | seen, stage :: rest =>
    if stage ∈ seen then firstsFrom seen rest else stage :: firstsFrom (seen ++ [stage]) rest

/-- The events of each known stage come one after the other. -/
def Consecutive (stages : List Stage) : Prop :=
  ∀ before between after stage, stages = before ++ stage :: (between ++ stage :: after) →
    stage ≠ .unknown → ∀ other ∈ between, other = stage

variable {a b : Stage} {last : Option Stage} {stages seen : List Stage}

@[simp] theorem known_cons : known (a :: stages) =
    if a = .unknown then known stages else a :: known stages := by
  by_cases h : a = .unknown <;> simp [known, h]

theorem mem_known : a ∈ known stages ↔ a ∈ stages ∧ a ≠ .unknown := by
  simp [known]

theorem mem_of_collapseFrom (h : a ∈ collapseFrom last stages) : a ∈ stages := by
  fun_induction collapseFrom last stages with
  | case1 => exact h
  | case2 stage rest ih => exact List.mem_cons_of_mem _ (ih h)
  | case3 last stage rest hne ih =>
    rcases List.mem_cons.mp h with rfl | h
    · exact List.mem_cons_self
    · exact List.mem_cons_of_mem _ (ih h)

/-- A stage that is not the one before is not left out altogether. -/
theorem mem_collapseFrom (h : a ∈ stages) : a ∈ collapseFrom last stages ∨ last = some a := by
  fun_induction collapseFrom last stages with
  | case1 => simp at h
  | case2 stage rest ih =>
    rcases List.mem_cons.mp h with rfl | h
    · exact Or.inr rfl
    · exact ih h
  | case3 last stage rest hne ih =>
    rcases List.mem_cons.mp h with rfl | h
    · exact Or.inl List.mem_cons_self
    · rcases ih h with hmem | hlast
      · exact Or.inl (List.mem_cons_of_mem _ hmem)
      · exact Or.inl (Option.some.inj hlast ▸ List.mem_cons_self)

theorem mem_collapse : a ∈ collapseFrom none stages ↔ a ∈ stages := by
  refine ⟨mem_of_collapseFrom, fun h => ?_⟩
  have hor : a ∈ collapseFrom none stages ∨ none = some a := mem_collapseFrom h
  simpa using hor

/-- Of two stages next to each other, the second of the same stage may go. -/
theorem consecutive_same : Consecutive (a :: a :: stages) ↔ Consecutive (a :: stages) := by
  constructor
  · intro h before between after stage heq hknown
    exact h (a :: before) between after stage (by rw [heq]; rfl) hknown
  · intro h before between after stage heq hknown other hother
    rcases before with _ | ⟨first, before⟩
    · obtain ⟨rfl, heq⟩ := List.cons.inj heq
      rcases between with _ | ⟨second, between⟩
      · simp at hother
      · obtain ⟨rfl, heq⟩ := List.cons.inj heq
        rcases List.mem_cons.mp hother with rfl | hother
        · rfl
        · exact h [] between after a (by rw [heq]; rfl) hknown other hother
    · obtain ⟨rfl, hrest⟩ := List.cons.inj heq
      exact h before between after stage hrest hknown other hother

/-- A stage that another one follows does not come back. -/
theorem consecutive_cons (hne : a ≠ b) : Consecutive (a :: b :: stages) ↔
    (a ≠ .unknown → a ∉ stages) ∧ Consecutive (b :: stages) := by
  constructor
  · intro h
    refine ⟨fun hknown hmem => ?_, fun before between after stage heq hknown => ?_⟩
    · obtain ⟨between, after, rfl⟩ := List.append_of_mem hmem
      exact hne (h [] (b :: between) after a rfl hknown b List.mem_cons_self).symm
    · exact h (a :: before) between after stage (by rw [heq]; rfl) hknown
  · rintro ⟨hgone, h⟩ before between after stage heq hknown other hother
    rcases before with _ | ⟨first, before⟩
    · obtain ⟨rfl, heq⟩ := List.cons.inj heq
      have hback : a ∈ b :: stages := by
        rw [heq]
        simp
      rcases List.mem_cons.mp hback with rfl | hback
      · exact absurd rfl hne
      · exact absurd hback (hgone hknown)
    · obtain ⟨rfl, hrest⟩ := List.cons.inj heq
      exact h before between after stage hrest hknown other hother

/-- **The known stages of the sequence are different exactly when none comes back.** -/
theorem nodup_collapse_cons : (known (a :: collapseFrom (some a) stages)).Nodup ↔
    Consecutive (a :: stages) := by
  induction stages generalizing a with
  | nil =>
    constructor
    · rintro - (_ | ⟨first, before⟩) between after stage heq
      · simp at heq
      · simp at heq
    · intro _
      by_cases h : a = .unknown <;> simp [collapseFrom, known, h]
  | cons b stages ih =>
    by_cases hab : a = b
    · subst hab
      rw [collapseFrom, if_pos rfl, ih, consecutive_same]
    · have hmem : a ∈ known (b :: collapseFrom (some b) stages) ↔ a ∈ stages ∧ a ≠ .unknown := by
        rw [mem_known, List.mem_cons, or_iff_right hab]
        refine and_congr_left fun _ => ⟨mem_of_collapseFrom, fun h => ?_⟩
        exact (mem_collapseFrom h).resolve_right fun heq => hab (Option.some.inj heq).symm
      rw [collapseFrom, if_neg (by simpa using hab), consecutive_cons hab, ← ih, known_cons]
      by_cases hunknown : a = .unknown
      · simp [hunknown]
      · rw [if_neg hunknown, List.nodup_cons, hmem]
        simp [hunknown]

theorem nodup_collapse : (known (collapseFrom none stages)).Nodup ↔ Consecutive stages := by
  cases stages with
  | nil => simp [collapseFrom, known, Consecutive]
  | cons a stages =>
    rw [collapseFrom, if_neg (by simp)]
    exact nodup_collapse_cons

/-! ## 5. The first of each stage -/

theorem mem_firstsFrom (h : a ∈ firstsFrom seen stages) : a ∈ stages ∧ a ∉ seen := by
  fun_induction firstsFrom seen stages with
  | case1 => simp at h
  | case2 seen stage rest hseen ih => exact (ih h).imp_left (List.mem_cons_of_mem _)
  | case3 seen stage rest hnew ih =>
    rcases List.mem_cons.mp h with rfl | h
    · exact ⟨List.mem_cons_self, hnew⟩
    · refine (ih h).imp (List.mem_cons_of_mem _) fun hout hin => hout ?_
      exact List.mem_append_left _ hin

theorem firstsFrom_mem (h : a ∈ stages) (hnew : a ∉ seen) : a ∈ firstsFrom seen stages := by
  fun_induction firstsFrom seen stages with
  | case1 => exact h
  | case2 seen stage rest hseen ih =>
    rcases List.mem_cons.mp h with rfl | h
    · exact absurd hseen hnew
    · exact ih h hnew
  | case3 seen stage rest hstage ih =>
    by_cases heq : a = stage
    · exact heq ▸ List.mem_cons_self
    · have hrest := (List.mem_cons.mp h).resolve_left heq
      exact List.mem_cons_of_mem _ (ih hrest (by simp [hnew, heq]))

theorem nodup_firstsFrom : (firstsFrom seen stages).Nodup := by
  fun_induction firstsFrom seen stages with
  | case1 => exact List.nodup_nil
  | case2 seen stage rest hseen ih => exact ih
  | case3 seen stage rest hnew ih =>
    refine List.nodup_cons.mpr ⟨fun hmem => (mem_firstsFrom hmem).2 ?_, ih⟩
    simp

/-- Nothing is left out of a list without repetitions. -/
theorem collapseFrom_of_nodup (h : stages.Nodup) (hlast : ∀ stage ∈ stages, last ≠ some stage) :
    collapseFrom last stages = stages := by
  induction stages generalizing last with
  | nil => rfl
  | cons a stages ih =>
    obtain ⟨hout, hnodup⟩ := List.nodup_cons.mp h
    rw [collapseFrom, if_neg (hlast a List.mem_cons_self), ih hnodup]
    rintro stage hstage heq
    exact hout (Option.some.inj heq ▸ hstage)

/-- The known ones of the firsts are the firsts of the known ones. -/
theorem known_firstsFrom (seen' : List Stage)
    (hseen : ∀ stage, stage ≠ .unknown → (stage ∈ seen ↔ stage ∈ seen')) :
    known (firstsFrom seen stages) = firstsFrom seen' (known stages) := by
  fun_induction firstsFrom seen stages generalizing seen' with
  | case1 => rfl
  | case2 seen stage rest hmem ih =>
    by_cases hunknown : stage = .unknown
    · simp [hunknown, ih seen' hseen]
    · have hmem' := (hseen stage hunknown).mp hmem
      simp [hunknown, firstsFrom, hmem', ih seen' hseen]
  | case3 seen stage rest hnew ih =>
    by_cases hunknown : stage = .unknown
    · rw [known_cons, if_pos hunknown, known_cons, if_pos hunknown]
      refine ih seen' fun other hother => ?_
      have hne : other ≠ stage := fun heq => hother (heq.trans hunknown)
      simp [hne, hseen other hother]
    · have hnew' : stage ∉ seen' := fun hmem => hnew ((hseen stage hunknown).mpr hmem)
      rw [known_cons, if_neg hunknown, known_cons, if_neg hunknown, firstsFrom, if_neg hnew']
      rw [ih (seen' ++ [stage])]
      intro other hother
      simp [hseen other hother]

/-- What is left when no stage comes back is the first of each. -/
theorem known_collapseFrom (hnodup : (known (collapseFrom last stages)).Nodup)
    (hnew : ∀ stage ∈ known (collapseFrom last stages), stage ∉ seen)
    (hlast : ∀ stage, last = some stage → stage ≠ .unknown → stage ∈ seen) :
    known (collapseFrom last stages) = firstsFrom seen (known stages) := by
  fun_induction collapseFrom last stages generalizing seen with
  | case1 => rfl
  | case2 stage rest ih =>
    by_cases hunknown : stage = .unknown
    · rw [ih hnodup hnew hlast, known_cons, if_pos hunknown]
    · rw [ih hnodup hnew hlast, known_cons, if_neg hunknown, firstsFrom,
        if_pos (hlast stage rfl hunknown)]
  | case3 last stage rest hne ih =>
    rw [known_cons] at hnodup hnew ⊢
    rw [known_cons]
    by_cases hunknown : stage = .unknown
    · rw [if_pos hunknown] at hnodup hnew ⊢
      rw [if_pos hunknown]
      refine ih hnodup hnew fun other hother hknown => ?_
      exact absurd (Option.some.inj hother ▸ hunknown) hknown
    · rw [if_neg hunknown] at hnodup hnew ⊢
      rw [if_neg hunknown, firstsFrom, if_neg (hnew stage List.mem_cons_self)]
      obtain ⟨hout, hrest⟩ := List.nodup_cons.mp hnodup
      refine congrArg (stage :: ·) (ih hrest ?_ ?_)
      · intro other hother
        have hdiff : other ≠ stage := fun heq => hout (heq ▸ hother)
        simp [hnew other (List.mem_cons_of_mem _ hother), hdiff]
      · intro other hother _
        simp [Option.some.inj hother]

/-! ## 6. What is counted -/

/-- The different known stages that occur. -/
def differentStages (stages : List Stage) : List Stage := (known stages).dedup

/-- The rows without those of a stage that has come before. -/
def firstRows : List Stage → List (BehaviorRow T) → List (BehaviorRow T)
  | _, [] => []
  | seen, row :: rest =>
    if row.stage ∈ seen then firstRows seen rest else row :: firstRows (seen ++ [row.stage]) rest

omit [PyInstant T] in
theorem stage_firstRows {rows : List (BehaviorRow T)} :
    (firstRows seen rows).map (·.stage) = firstsFrom seen (rows.map (·.stage)) := by
  fun_induction firstRows seen rows with
  | case1 => rfl
  | case2 seen row rest hmem ih => simpa [firstsFrom, hmem] using ih
  | case3 seen row rest hnew ih => simp [firstsFrom, hnew, ih]

/-- The count is of different known stages, the status goes by it, and the score is that of the
same events without those of a stage that has come before. -/
structure CountsStages (stages : List Stage) (rows : List (BehaviorRow T))
    (state : BehaviorState) : Prop where
  count : state.distinctStageCount = (differentStages stages).length
  multi : state.status = pyStr "multi_stage" ↔ 3 ≤ (differentStages stages).length
  single : state.status = pyStr "single_stage" ↔
    1 ≤ (differentStages stages).length ∧ (differentStages stages).length ≤ 2
  score : state.score = (sequenceState (firstRows [] rows) []).score

theorem status_multi {count : ℕ} : sequenceStatus count = pyStr "multi_stage" ↔ 3 ≤ count := by
  unfold sequenceStatus
  split_ifs with hmulti hsingle <;> simp [hmulti]

theorem status_single {count : ℕ} :
    sequenceStatus count = pyStr "single_stage" ↔ 1 ≤ count ∧ count ≤ 2 := by
  unfold sequenceStatus
  split_ifs with hmulti hsingle
  · simp only [pyStr_eq_iff, String.reduceEq, false_iff]
    omega
  · simp only [true_iff]
    omega
  · simp only [pyStr_eq_iff, String.reduceEq, false_iff]
    omega

omit [PyInstant T] in
/-- The score goes by the known stages in their order, and by which stages there are. -/
theorem sequenceScore_congr {ordered ordered' : List Stage} (hknown : known ordered = known ordered') :
    sequenceScore ordered = sequenceScore ordered' := by
  have hmem : ∀ stage : Stage, stage ≠ .unknown → (stage ∈ ordered ↔ stage ∈ ordered') := by
    intro stage hstage
    have h := congrArg (stage ∈ ·) hknown
    simpa [mem_known, hstage] using h
  simp only [sequenceScore, chainHits, hknown, hmem .recon (by simp), hmem .command (by simp),
    hmem .access (by simp), hmem .lateral (by simp)]
  congr

/-! ## 7. When they are different stages -/

variable {clock : ℕ → T} {soc flows : List (Row F)} {rows : List (BehaviorRow T)}

/-- Every event has a time with an offset. -/
def Aware (clock : ℕ → T) (payloads : List (Row F)) : Prop :=
  ∀ item ∈ payloads.zipIdx,
    PyInstant.aware ((parseTs (getKey (pyStr "ts") item.1)).getD (clock item.2)) = true

theorem comparable_of_aware (h : Aware clock soc) : Comparable (behaviorRows clock soc) := by
  refine Or.inr (Or.inl fun row hrow => ?_)
  obtain ⟨⟨payload, i⟩, hitem, rfl⟩ := List.mem_map.mp hrow
  exact h (payload, i) hitem

theorem stages_behaviorRows (clock : ℕ → T) (payloads : List (Row F)) :
    (behaviorRows clock payloads).map (·.stage) = payloads.map inferStage := by
  rw [behaviorRows, List.map_map]
  have hcomp : (fun row : BehaviorRow T => row.stage) ∘
      (fun item : Row F × ℕ => readBehavior (clock item.2) item.1) = inferStage ∘ Prod.fst := rfl
  rw [hcomp, ← List.map_map, List.zipIdx_map_fst]

/-- The events in the order of their times. -/
def orderedRows (clock : ℕ → T) (payloads : List (Row F)) : List (BehaviorRow T) :=
  inTimeOrder (behaviorRows clock payloads)

/-- Sorting leaves the number of different stages. -/
theorem different_orderedRows (payloads : List (Row F)) :
    (differentStages ((orderedRows clock payloads).map (·.stage))).length =
      (differentStages (payloads.map inferStage)).length := by
  have hperm : ((orderedRows clock payloads).map (·.stage)).Perm (payloads.map inferStage) := by
    rw [← stages_behaviorRows clock]
    exact (List.perm_insertionSort _ _).map _
  exact ((hperm.filter _).dedup).length_eq

/-- The stages of the sequence are the different ones when there are as many. -/
theorem length_collapse_iff {stages : List Stage} :
    (known (collapseFrom none stages)).length = (differentStages stages).length ↔
      (known (collapseFrom none stages)).Nodup := by
  have hsame : (known (collapseFrom none stages)).dedup.length = (differentStages stages).length := by
    refine (List.Perm.length_eq ?_)
    refine (List.perm_ext_iff_of_nodup (List.nodup_dedup _) (List.nodup_dedup _)).mpr fun a => ?_
    rw [List.mem_dedup, List.mem_dedup, mem_known, mem_known, mem_collapse]
  rw [← hsame]
  constructor
  · intro h
    rw [← List.dedup_eq_self]
    exact (List.dedup_sublist _).eq_of_length h.symm
  · intro h
    rw [List.dedup_eq_self.mpr h]

omit [PyInstant T] in
/-- The score without repetitions. -/
theorem score_firstRows (hne : rows ≠ []) (h : Consecutive (rows.map (·.stage))) :
    (sequenceState (firstRows [] rows) []).score =
      sequenceScore (collapseFrom none (rows.map (·.stage))) := by
  have hfirst : firstRows [] rows ≠ [] := by
    obtain ⟨row, rest, rfl⟩ := List.exists_cons_of_ne_nil hne
    simp [firstRows]
  have hcollapse : collapseFrom none (firstsFrom [] (rows.map (·.stage))) =
      firstsFrom [] (rows.map (·.stage)) :=
    collapseFrom_of_nodup nodup_firstsFrom (by simp)
  rw [sequenceState, if_neg hfirst]
  simp only [stage_firstRows, hcollapse]
  refine sequenceScore_congr ?_
  rw [known_firstsFrom [] (by simp)]
  exact (known_collapseFrom (nodup_collapse.mpr h) (by simp) (by simp)).symm

omit [PyInstant T] in
/-- Rows in order, of so many different stages. -/
theorem countsStages_iff {stages : List Stage} {evidenceIds : List PyStr}
    (hdifferent : (differentStages (rows.map (·.stage))).length = (differentStages stages).length) :
    CountsStages stages rows (sequenceState rows evidenceIds) ↔ Consecutive (rows.map (·.stage)) := by
  by_cases hrows : rows = []
  · subst hrows
    have hnone : (differentStages stages).length = 0 := hdifferent.symm
    refine iff_of_true ⟨hnone.symm, ?_, ?_, rfl⟩ (nodup_collapse.mp List.nodup_nil)
    · simp [hnone, sequenceState]
    · simp [hnone, sequenceState]
  · rw [← nodup_collapse, ← length_collapse_iff, hdifferent]
    have hstate : (sequenceState rows evidenceIds).distinctStageCount =
        (known (collapseFrom none (rows.map (·.stage)))).length := by
      rw [sequenceState, if_neg hrows]
    constructor
    · intro h
      rw [← hstate]
      exact h.count
    · intro hcount
      have hconsecutive := nodup_collapse.mp (length_collapse_iff.mp (hcount.trans hdifferent.symm))
      refine ⟨hstate.trans hcount, ?_, ?_, ?_⟩
      · rw [sequenceState, if_neg hrows, ← hcount]
        exact status_multi
      · rw [sequenceState, if_neg hrows, ← hcount]
        exact status_single
      · rw [score_firstRows hrows hconsecutive, sequenceState, if_neg hrows]

/-- **The stages that are counted are different ones exactly when, in the order of time, the events
of each known stage come one after the other.** -/
theorem stages_counted_iff (haware : Aware clock (soc ++ flows)) :
    ∃ state, evaluateBehaviorSequenceState clock soc flows = some state ∧
      (CountsStages ((soc ++ flows).map inferStage) (orderedRows clock (soc ++ flows)) state ↔
        Consecutive ((orderedRows clock (soc ++ flows)).map (·.stage))) :=
  ⟨_, if_pos (comparable_of_aware haware), countsStages_iff (different_orderedRows _)⟩

/-! ## 8. Back to a stage -/

/-- Times with an offset of zero, which are in the order of their texts. -/
instance : PyInstant PyStr where
  aware s := decide (pyStr "+00:00" <:+ s)
  le a b := keyLe a b

/-- An event of an attack type, at a minute. -/
def eventAt (minute attackType : String) : Row Whole :=
  [(pyStr "ts", .str (pyStr "2026-07-01T00:" ++ pyStr minute ++ pyStr ":00+00:00")),
    (pyStr "attrs", .obj [(pyStr "attack_type", .str (pyStr attackType))])]

/-- A scan, a login and another scan. -/
def scanLoginScan : List (Row Whole) :=
  [eventAt "01" "port scan", eventAt "02" "login attempt", eventAt "03" "port scan"]

/-- No event is without a time. -/
def noClock : ℕ → PyStr := fun _ => pyStr "2026-07-01T01:00:00+00:00"

theorem scanLoginScan_aware : Aware noClock scanLoginScan := by
  unfold Aware
  decide +kernel

theorem stages_counted_iff_sample :
    ∃ state, evaluateBehaviorSequenceState noClock scanLoginScan [] = some state ∧
      (CountsStages ((scanLoginScan ++ []).map inferStage)
        (orderedRows noClock (scanLoginScan ++ [])) state ↔
        Consecutive ((orderedRows noClock (scanLoginScan ++ [])).map (·.stage))) :=
  stages_counted_iff (by rw [List.append_nil]; exact scanLoginScan_aware)

/-- The scan is counted twice: two stages are counted as three. -/
theorem stages_recounted : ¬ ∀ (clock : ℕ → PyStr) (soc flows : List (Row Whole)),
    Aware clock (soc ++ flows) → ∃ state,
      evaluateBehaviorSequenceState clock soc flows = some state ∧
        CountsStages ((soc ++ flows).map inferStage) (orderedRows clock (soc ++ flows)) state := by
  intro h
  obtain ⟨state, hstate, hcounts⟩ := h noClock scanLoginScan [] scanLoginScan_aware
  have hcount : (evaluateBehaviorSequenceState noClock scanLoginScan []).map
      (·.distinctStageCount) = some 3 := by decide +kernel
  have hstages : (scanLoginScan ++ []).map inferStage = [.recon, .access, .recon] := by
    decide +kernel
  rw [hstate, Option.map_some, Option.some.injEq, hcounts.count, hstages] at hcount
  exact absurd hcount (by decide)

end AzazelEdge.Evaluators.Soc
