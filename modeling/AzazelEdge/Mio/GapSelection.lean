/-
# The selection of the gaps

What `score_evidence_gaps` gives back, for gaps and hypotheses of different ids: every gap once,
the eligible ones in front, no more of them than the budget has calls, in the order of their
scores, and each of them worth asking without the model's hint (`Selection`).  It does not depend on the
order of anything it is given, and the priorities that the model wrote do not decide whether a gap
is asked that no other competes with (`gap_selection`).

The order is that of a greedy loop over scores that only fall (`structuralScore_le`).
-/
import AzazelEdge.Mio.GapScore

namespace AzazelEdge.Mio

open AzazelEdge.Lib AzazelEdge.Lib.Py
open AzazelEdge.Outcome (distinct)

section Selection

variable [Redaction] {caps caps' : Capabilities} {hypotheses hypotheses' : List MioHypothesis}
  {s t : ChoiceState} {gap : MioEvidenceGap} {gaps gaps' : List MioEvidenceGap}
  {scores : List GapScore} {collected collected' : List PyStr} {b c : GapScore} {remaining : ℤ}

/-! ## 1. When a gap is eligible -/

/-- The score of a gap without the model's hint. -/
def structuralScore (hypotheses : List MioHypothesis) (collected : List PyStr)
    (gap : MioEvidenceGap) : ℤ :=
  let targets := gapTargets hypotheses gap
  50 + (if 2 ≤ targets.length then 20 else 0) + (if targets.any isFalsifiable then 10 else 0) +
    (if gap.capability ∈ collected then -30 else 0) + costWeight (costClass gap.capability)

/-- A gap that may be asked, as long as a call is left. -/
structure Askable (caps : Capabilities) (hypotheses : List MioHypothesis)
    (collected : List PyStr) (gap : MioEvidenceGap) : Prop where
  targets : gapTargets hypotheses gap ≠ []
  allowed : gap.capability ∈ caps.allowed
  registered : gap.capability ∈ caps.registered
  worth : minEligibleScore ≤ structuralScore hypotheses collected gap

/-- **A score is what the gap is worth, and the hint.** -/
theorem score_scoreOne : (scoreOne caps hypotheses s gap).score =
    structuralScore hypotheses s.collected gap + priorityHint gap := by
  simp only [scoreOne, contributions, structuralScore]
  split_ifs <;> simp <;> omega

theorem ineligible_eq_nil {budgetLeft score : ℤ} {targets : List MioHypothesis} :
    ineligible caps budgetLeft targets score gap = [] ↔
      structuralReasons caps budgetLeft targets gap = [] ∧
        minEligibleScore ≤ score - priorityHint gap := by
  unfold ineligible
  by_cases hstructural : structuralReasons caps budgetLeft targets gap = []
  · by_cases hlow : score - priorityHint gap < minEligibleScore
    · simp [hstructural, hlow, not_le.mpr hlow]
    · simp [hstructural, hlow, not_lt.mp hlow]
  · simp [hstructural]

theorem structuralReasons_eq_nil {budgetLeft : ℤ} {targets : List MioHypothesis} :
    structuralReasons caps budgetLeft targets gap = [] ↔
      gap.capability ∈ caps.allowed ∧ gap.capability ∈ caps.registered ∧ targets ≠ [] ∧
        0 < budgetLeft := by
  simp only [structuralReasons, List.append_eq_nil_iff]
  constructor
  · rintro ⟨⟨⟨hallowed, hregistered⟩, htargets⟩, hbudget⟩
    refine ⟨?_, ?_, ?_, ?_⟩
    · by_contra hno
      simp [hno] at hallowed
    · by_contra hno
      simp [hno] at hregistered
    · rintro rfl
      simp at htargets
    · by_contra hno
      simp [not_lt.mp hno] at hbudget
  · rintro ⟨hallowed, hregistered, htargets, hbudget⟩
    simp [hallowed, hregistered, htargets, not_le.mpr hbudget]

/-- **When a gap is eligible.** -/
theorem eligible_scoreOne : (scoreOne caps hypotheses s gap).eligible = true ↔
    Askable caps hypotheses s.collected gap ∧ 0 < s.budgetLeft := by
  have hnil : (scoreOne caps hypotheses s gap).eligible = true ↔
      ineligible caps s.budgetLeft (gapTargets hypotheses gap)
        (scoreOne caps hypotheses s gap).score gap = [] := by
    simp [GapScore.eligible, scoreOne]
  have hhint : structuralScore hypotheses s.collected gap + priorityHint gap - priorityHint gap =
      structuralScore hypotheses s.collected gap := by omega
  rw [hnil, ineligible_eq_nil, structuralReasons_eq_nil, score_scoreOne, hhint]
  constructor
  · rintro ⟨⟨hallowed, hregistered, htargets, hbudget⟩, hworth⟩
    exact ⟨⟨htargets, hallowed, hregistered, hworth⟩, hbudget⟩
  · rintro ⟨h, hbudget⟩
    exact ⟨⟨h.allowed, h.registered, h.targets, hbudget⟩, h.worth⟩

omit [Redaction] in
/-- A target is a hypothesis of the list that the gap names and that is not over. -/
theorem exists_target (h : gapTargets hypotheses gap ≠ []) :
    ∃ target ∈ hypotheses, target.hypothesisId ∈ gap.discriminatesHypothesisIds ∧
      target.status ∉ terminalHypothesisStatuses := by
  obtain ⟨target, htarget⟩ := List.exists_mem_of_ne_nil _ h
  obtain ⟨hmem, hlive⟩ := List.mem_filter.mp htarget
  obtain ⟨id, hid, hprior⟩ := List.mem_filterMap.mp hmem
  obtain ⟨hin, rfl⟩ := prior_eq_some hprior
  exact ⟨target, hin, List.mem_eraseDups.mp hid, by simpa using hlive⟩

/-! ## 2. The scores of later rounds -/

omit [Redaction] in
/-- **The more is collected, the less a gap is worth.** -/
theorem structuralScore_le (h : collected ⊆ collected') :
    structuralScore hypotheses collected' gap ≤ structuralScore hypotheses collected gap := by
  have hpenalty : (if gap.capability ∈ collected' then -30 else 0 : ℤ) ≤
      if gap.capability ∈ collected then -30 else 0 := by
    by_cases hold : gap.capability ∈ collected
    · rw [if_pos hold, if_pos (h hold)]
    · rw [if_neg hold]
      split <;> omega
  unfold structuralScore
  dsimp only
  omega

omit [Redaction] in
theorem askable_of_subset (h : collected ⊆ collected')
    (hask : Askable caps hypotheses collected' gap) : Askable caps hypotheses collected gap :=
  ⟨hask.targets, hask.allowed, hask.registered, hask.worth.trans (structuralScore_le h)⟩

/-- On the way the budget shrinks and the collected capabilities grow. -/
theorem later_of_reaches (h : (choice caps hypotheses).Reaches s t) :
    t.budgetLeft ≤ s.budgetLeft ∧ s.collected ⊆ t.collected := by
  induction h with
  | refl => exact ⟨le_refl _, List.Subset.refl _⟩
  | tail _ hstep ih =>
    obtain ⟨b, rfl⟩ := hstep
    refine ⟨?_, List.Subset.trans ih.2 (List.subset_cons_self _ _)⟩
    change _ - 1 ≤ _
    omega

omit [Redaction] in
theorem bestScore_eq_none : bestScore scores = none ↔ scores = [] := by
  cases scores with
  | nil => simp [bestScore]
  | cons s rest =>
    rw [bestScore]
    cases bestScore rest with
    | none => simp
    | some t => by_cases h : isBefore t s = true <;> simp [h]

omit [Redaction] in
/-- **The best has the best score.** -/
theorem score_le_bestScore (h : bestScore scores = some b) (hc : c ∈ scores) :
    c.score ≤ b.score := by
  induction scores generalizing b c with
  | nil => cases hc
  | cons s rest ih =>
    rw [bestScore] at h
    cases hrest : bestScore rest with
    | none =>
      rw [hrest] at h
      cases h
      rw [bestScore_eq_none.mp hrest, List.mem_singleton] at hc
      exact hc ▸ le_refl _
    | some t =>
      rw [hrest] at h
      dsimp only at h
      have hlater : ∀ d ∈ rest, d.score ≤ t.score := fun d hd => ih hrest hd
      by_cases hbefore : isBefore t s = true
      · rw [if_pos hbefore] at h
        cases h
        rcases List.mem_cons.mp hc with rfl | hc
        · simp only [isBefore, Bool.or_eq_true, decide_eq_true_eq, Bool.and_eq_true] at hbefore
          rcases hbefore with hlt | ⟨heq, -⟩
          · exact hlt.le
          · exact heq.ge
        · exact hlater c hc
      · rw [if_neg hbefore] at h
        cases h
        rcases List.mem_cons.mp hc with rfl | hc
        · exact le_refl _
        · have hnot : ¬ s.score < t.score := fun hlt => hbefore (by simp [isBefore, hlt])
          exact (hlater c hc).trans (not_lt.mp hnot)

/-! ## 3. What the loop gives -/

/-- The loop, from what it is called with. -/
def selected (caps : Capabilities) (hypotheses : List MioHypothesis) (remaining : ℤ)
    (collected : List PyStr) (gaps : List MioEvidenceGap) : List GapScore × List GapScore :=
  (choice caps hypotheses).greedy ⟨max 0 remaining, collected⟩ (byGapId gaps)

omit [Redaction] in
theorem mem_byGapId : gap ∈ byGapId gaps ↔ gap ∈ gaps := List.mem_insertionSort _

omit [Redaction] in
theorem byGapId_nodup (h : (gaps.map (·.gapId)).Nodup) :
    ((byGapId gaps).map (·.gapId)).Nodup :=
  ((List.perm_insertionSort _ gaps).map _).nodup_iff.mpr h

/-- What is chosen is eligible. -/
theorem eligible_of_best {bs : List GapScore}
    (h : (choice caps hypotheses).best bs = some b) : b.eligible = true :=
  (List.mem_filter.mp (mem_of_bestScore h)).2

theorem chosen_eligible (h : b ∈ (selected caps hypotheses remaining collected gaps).1) :
    b.eligible = true := by
  obtain ⟨-, -, -, -, -, bs, hbs⟩ := Policy.mem_taken h
  exact eligible_of_best hbs

theorem rejected_not_eligible (h : b ∈ (selected caps hypotheses remaining collected gaps).2) :
    b.eligible = false := by
  have hbest : bestScore ((selected caps hypotheses remaining collected gaps).2.filter
      (·.eligible)) = none := Policy.best_left (p := choice caps hypotheses)
  have hall := List.filter_eq_nil_iff.mp (bestScore_eq_none.mp hbest) b h
  simpa using hall

/-- Every score is that of a gap in a state of the loop. -/
theorem exists_scored (h : b ∈ (selected caps hypotheses remaining collected gaps).1 ++
    (selected caps hypotheses remaining collected gaps).2) :
    ∃ t, ∃ gap ∈ gaps, collected ⊆ t.collected ∧ b = scoreOne caps hypotheses t gap := by
  rcases List.mem_append.mp h with h | h
  · obtain ⟨t, gap, hgap, hreach, rfl, -⟩ := Policy.mem_taken h
    exact ⟨t, gap, mem_byGapId.mp hgap, (later_of_reaches hreach).2, rfl⟩
  · obtain ⟨t, gap, hgap, hreach, rfl⟩ := Policy.mem_left h
    exact ⟨t, gap, mem_byGapId.mp hgap, (later_of_reaches hreach).2, rfl⟩

/-- **The chosen scores do not rise.** -/
theorem chosen_pairwise : (selected caps hypotheses remaining collected gaps).1.Pairwise
    fun a b => b.score ≤ a.score := by
  refine Policy.taken_pairwise (p := choice caps hypotheses) (·.eligible = true) _
    (fun bs b hbs => eligible_of_best hbs)
    (fun bs b hbs c hc hgood => score_le_bestScore hbs (List.mem_filter.mpr ⟨hc, hgood⟩))
    fun s t gap hreach hgood => ?_
  obtain ⟨hbudget, hcollected⟩ := later_of_reaches hreach
  obtain ⟨hask, hleft⟩ := eligible_scoreOne.mp hgood
  refine ⟨eligible_scoreOne.mpr ⟨askable_of_subset hcollected hask, hleft.trans_le hbudget⟩,
    fun b hb => le_trans ?_ hb⟩
  change (scoreOne caps hypotheses t gap).score ≤ (scoreOne caps hypotheses s gap).score
  rw [score_scoreOne, score_scoreOne]
  have hle : structuralScore hypotheses t.collected gap ≤
      structuralScore hypotheses s.collected gap := structuralScore_le hcollected
  omega

/-- **No more are chosen than the budget has calls.** -/
theorem chosen_length :
    (selected caps hypotheses remaining collected gaps).1.length ≤ remaining.toNat := by
  have hlen : (selected caps hypotheses remaining collected gaps).1.length ≤
      (max 0 remaining).toNat := by
    refine Policy.length_taken (m := fun s : ChoiceState => s.budgetLeft.toNat) fun s pending b hb => ?_
    obtain ⟨gap, -, rfl, -⟩ := Policy.exists_of_best hb
    obtain ⟨-, hleft⟩ := eligible_scoreOne.mp (eligible_of_best hb)
    change (s.budgetLeft - 1).toNat < s.budgetLeft.toNat
    omega
  omega

/-! ## 4. The order of what is given -/

omit [Redaction] in
/-- Hypotheses of different ids are found in any order. -/
theorem prior_perm (hperm : hypotheses.Perm hypotheses') (hnodup : (ids hypotheses).Nodup) :
    prior hypotheses = prior hypotheses' := by
  funext id
  have hnodup' : (ids hypotheses').Nodup := (hperm.map _).nodup_iff.mp hnodup
  cases hprior : prior hypotheses id with
  | none =>
    have hmiss : id ∉ ids hypotheses' := fun hmem =>
      prior_eq_none.mp hprior ((hperm.map _).mem_iff.mpr hmem)
    exact (prior_eq_none.mpr hmiss).symm
  | some h =>
    obtain ⟨hmem, rfl⟩ := prior_eq_some hprior
    exact (prior_of_mem hnodup' (hperm.mem_iff.mp hmem)).symm

theorem capabilityLabel_congr {registered registered' : List PyStr} {capability : PyStr}
    (h : capability ∈ registered ↔ capability ∈ registered') :
    capabilityLabel capability registered = capabilityLabel capability registered' :=
  if_congr (and_congr_left' h) rfl rfl

theorem contributions_congr {targets : List MioHypothesis}
    (hlabel : capabilityLabel gap.capability caps.registered =
      capabilityLabel gap.capability caps'.registered)
    (hcollected : gap.capability ∈ collected ↔ gap.capability ∈ collected') :
    contributions caps collected targets gap = contributions caps' collected' targets gap := by
  simp only [contributions, capabilityRef, hlabel, if_congr hcollected rfl rfl]

theorem ineligible_congr {targets : List MioHypothesis} {budgetLeft score : ℤ}
    (hallowed : gap.capability ∈ caps.allowed ↔ gap.capability ∈ caps'.allowed)
    (hregistered : gap.capability ∈ caps.registered ↔ gap.capability ∈ caps'.registered) :
    ineligible caps budgetLeft targets score gap =
      ineligible caps' budgetLeft targets score gap := by
  have hstructural : structuralReasons caps budgetLeft targets gap =
      structuralReasons caps' budgetLeft targets gap := by
    simp only [structuralReasons, capabilityRef, capabilityLabel_congr hregistered,
      if_congr (not_congr hallowed) rfl rfl, if_congr (not_congr hregistered) rfl rfl]
  simp only [ineligible, hstructural]

/-- A score asks only what is in the lists. -/
theorem scoreOne_congr (hallowed : ∀ c, c ∈ caps.allowed ↔ c ∈ caps'.allowed)
    (hregistered : ∀ c, c ∈ caps.registered ↔ c ∈ caps'.registered)
    (hprior : prior hypotheses = prior hypotheses') (hbudget : s.budgetLeft = t.budgetLeft)
    (hcollected : ∀ c, c ∈ s.collected ↔ c ∈ t.collected) :
    scoreOne caps hypotheses s gap = scoreOne caps' hypotheses' t gap := by
  have hlabel := capabilityLabel_congr (hregistered gap.capability)
  have htargets : gapTargets hypotheses gap = gapTargets hypotheses' gap := by
    rw [gapTargets, gapTargets, hprior]
  simp only [scoreOne, htargets, hbudget, hlabel,
    contributions_congr hlabel (hcollected gap.capability),
    ineligible_congr (hallowed gap.capability) (hregistered gap.capability)]

omit [Redaction] in
/-- Gaps of different ids have one order. -/
theorem byGapId_perm (hperm : gaps.Perm gaps') (hnodup : (gaps.map (·.gapId)).Nodup) :
    byGapId gaps = byGapId gaps' := by
  have htotal : Std.Total fun a b : MioEvidenceGap => keyLe a.gapId b.gapId = true :=
    ⟨fun a b => keyLe_total _ _⟩
  have htrans : IsTrans MioEvidenceGap fun a b => keyLe a.gapId b.gapId = true :=
    ⟨fun a b c => keyLe_trans⟩
  refine List.Perm.eq_of_pairwise (fun a b ha hb hab hba => ?_)
    (List.pairwise_insertionSort _ _) (List.pairwise_insertionSort _ _)
    ((List.perm_insertionSort _ gaps).trans
      (hperm.trans (List.perm_insertionSort _ gaps').symm))
  exact List.inj_on_of_nodup_map hnodup (mem_byGapId.mp ha)
    (hperm.mem_iff.mpr (mem_byGapId.mp hb)) (keyLe_antisymm hab hba)

/-- **Nothing depends on an order.** -/
theorem selected_congr (hallowed : ∀ c, c ∈ caps.allowed ↔ c ∈ caps'.allowed)
    (hregistered : ∀ c, c ∈ caps.registered ↔ c ∈ caps'.registered)
    (hprior : prior hypotheses = prior hypotheses')
    (hcollected : ∀ c, c ∈ collected ↔ c ∈ collected') (hgaps : byGapId gaps = byGapId gaps') :
    selected caps hypotheses remaining collected gaps =
      selected caps' hypotheses' remaining collected' gaps' := by
  unfold selected
  rw [hgaps]
  refine Policy.greedy_congr (R := fun s t => s.budgetLeft = t.budgetLeft ∧
      ∀ c, c ∈ s.collected ↔ c ∈ t.collected) rfl rfl rfl
    (fun s t h gap => scoreOne_congr hallowed hregistered hprior h.1 h.2)
    (fun s t b h => ⟨?_, fun c => ?_⟩) ⟨rfl, hcollected⟩
  · change s.budgetLeft - 1 = t.budgetLeft - 1
    rw [h.1]
  · change c ∈ b.capability :: s.collected ↔ c ∈ b.capability :: t.collected
    rw [List.mem_cons, List.mem_cons, h.2]

/-! ## 5. A gap without a rival -/

/-- The gaps with other priorities. -/
def withPriorities (priorities : PyStr → ℤ) (gaps : List MioEvidenceGap) : List MioEvidenceGap :=
  gaps.map fun gap => { gap with priority := priorities gap.gapId }

/-- A gap that no other competes with for its capability. -/
def Unrivalled (gaps : List MioEvidenceGap) (gap : MioEvidenceGap) : Prop :=
  ∀ other ∈ gaps, other.capability = gap.capability → other = gap

/-- What the loop keeps for such a gap: a call for everything that is pending, and its capability as
it was. -/
structure Unpressed (collected : List PyStr) (gap : MioEvidenceGap) (s : ChoiceState)
    (pending : List MioEvidenceGap) : Prop where
  budget : (pending.length : ℤ) ≤ s.budgetLeft
  mem : gap ∈ pending
  collected : gap.capability ∈ s.collected ↔ gap.capability ∈ collected
  unrivalled : Unrivalled pending gap

omit [Redaction] in
/-- Whether a gap may be asked depends on its own capability only. -/
theorem structuralScore_congr (h : gap.capability ∈ collected ↔ gap.capability ∈ collected') :
    structuralScore hypotheses collected gap = structuralScore hypotheses collected' gap := by
  simp only [structuralScore, h]

theorem eligible_of_unpressed {pending : List MioEvidenceGap}
    (h : Unpressed collected gap s pending) :
    (scoreOne caps hypotheses s gap).eligible = true ↔ Askable caps hypotheses collected gap := by
  have hpos : 0 < s.budgetLeft := by
    have hlen := List.length_pos_of_mem h.mem
    have hbudget := h.budget
    omega
  have hworth : structuralScore hypotheses s.collected gap =
      structuralScore hypotheses collected gap := structuralScore_congr h.collected
  rw [eligible_scoreOne]
  constructor
  · rintro ⟨hask, -⟩
    exact ⟨hask.targets, hask.allowed, hask.registered, hworth ▸ hask.worth⟩
  · intro hask
    exact ⟨⟨hask.targets, hask.allowed, hask.registered, hworth ▸ hask.worth⟩, hpos⟩

/-- The choice of another gap leaves it so. -/
theorem unpressed_advance {pending : List MioEvidenceGap} (h : Unpressed collected gap s pending)
    (hbest : (choice caps hypotheses).best ((choice caps hypotheses).round s pending) = some b)
    (hother : b.gapId ≠ gap.gapId) :
    Unpressed collected gap ((choice caps hypotheses).advance s b)
      ((choice caps hypotheses).without b.gapId pending) := by
  obtain ⟨other, hmem, rfl, -⟩ := Policy.exists_of_best hbest
  have hcap : other.capability ≠ gap.capability := fun heq =>
    hother (congrArg MioEvidenceGap.gapId (h.unrivalled other hmem heq))
  refine ⟨?_, ?_, ?_, fun g hg =>
    h.unrivalled g (Policy.mem_of_mem_without (p := choice caps hypotheses) hg)⟩
  · have hshort := Policy.length_without hbest
    have hbudget := h.budget
    change (((choice caps hypotheses).without other.gapId pending).length : ℤ) ≤ s.budgetLeft - 1
    change ((choice caps hypotheses).without other.gapId pending).length < _ at hshort
    omega
  · exact List.mem_filter.mpr ⟨h.mem, decide_eq_true (Ne.symm hother)⟩
  · change gap.capability ∈ other.capability :: s.collected ↔ _
    rw [List.mem_cons, or_iff_right fun heq => hcap heq.symm]
    exact h.collected

/-- **Without a rival, and with a call for every gap, a gap is eligible as soon as it may be
asked.** -/
theorem eligible_iff_askable (hnodup : (gaps.map (·.gapId)).Nodup)
    (hbudget : (gaps.length : ℤ) ≤ remaining) (hgap : gap ∈ gaps) (halone : Unrivalled gaps gap)
    (hb : b ∈ (selected caps hypotheses remaining collected gaps).1 ++
      (selected caps hypotheses remaining collected gaps).2) (hid : b.gapId = gap.gapId) :
    b.eligible = true ↔ Askable caps hypotheses collected gap := by
  have hlen : (byGapId gaps).length = gaps.length := List.length_insertionSort _ _
  refine Policy.good_iff (p := choice caps hypotheses) (a := gap) (·.eligible = true)
    (Unpressed collected gap) (fun s pending h => eligible_of_unpressed h)
    (fun s pending b h hbest hother => unpressed_advance h hbest hother)
    (byGapId_nodup hnodup) (mem_byGapId.mpr hgap) ?_ hb hid
  refine ⟨?_, mem_byGapId.mpr hgap, Iff.rfl, fun other hother =>
    halone other (mem_byGapId.mp hother)⟩
  rw [hlen]
  exact hbudget.trans (le_max_right _ _)

/-! ## 6. What `score_evidence_gaps` gives back -/

section Ranked

omit [Redaction]

variable {chosen : List GapScore}

/-- A rank changes nothing but the rank. -/
theorem map_ranked {γ : Type} {f : GapScore → γ} (hf : ∀ s n, f { s with rank := n } = f s) :
    (ranked chosen).map f = chosen.map f := by
  have hfst : (chosen.zipIdx 1).map (fun x => f x.1) = chosen.map f := by
    rw [← List.zipIdx_map_fst 1 chosen, List.map_map]
    simp
  rw [← hfst, ranked, List.map_map]
  exact List.map_congr_left fun x _ => hf x.1 x.2

theorem rank_ranked : (ranked chosen).map (·.rank) = List.range' 1 chosen.length := by
  rw [ranked, List.map_map, ← List.zipIdx_map_snd]
  rfl

theorem mem_ranked (h : c ∈ ranked chosen) : ∃ b ∈ chosen, ∃ n, c = { b with rank := n } := by
  obtain ⟨⟨b, n⟩, hx, rfl⟩ := List.mem_map.mp h
  exact ⟨b, List.fst_mem_of_mem_zipIdx hx, n, rfl⟩

end Ranked

/-- What a selection of gaps is. -/
structure Selection (caps : Capabilities) (hypotheses : List MioHypothesis) (remaining : ℤ)
    (gaps : List MioEvidenceGap) (scores : List GapScore) : Prop where
  each_once : (scores.map (·.gapId)).Perm (gaps.map (·.gapId))
  within_budget : (scores.filter (·.eligible)).length ≤ remaining.toNat
  ordered : ∃ chosen rejected, scores = chosen ++ rejected ∧ (∀ s ∈ chosen, s.eligible = true) ∧
    (∀ s ∈ rejected, s.eligible = false ∧ s.rank = 0) ∧
    chosen.map (·.rank) = List.range' 1 chosen.length ∧
    chosen.Pairwise fun a b => b.score ≤ a.score
  grounded : ∀ s ∈ scores, ∃ gap ∈ gaps, gap.gapId = s.gapId ∧ gap.capability = s.capability ∧
    (s.eligible = true →
      (∃ target ∈ hypotheses, target.hypothesisId ∈ gap.discriminatesHypothesisIds ∧
        target.status ∉ terminalHypothesisStatuses) ∧
      gap.capability ∈ caps.allowed ∧ gap.capability ∈ caps.registered ∧
      minEligibleScore ≤ s.score - priorityHint gap)

/-- A gap is marked eligible. -/
def IsEligible (scores : List GapScore) (gap : MioEvidenceGap) : Prop :=
  ∃ s ∈ scores, s.gapId = gap.gapId ∧ s.eligible = true

/-- What is given back is what the loop chose, and what it left. -/
theorem scoreEvidenceGaps_eq : scoreEvidenceGaps caps hypotheses remaining collected gaps =
    ranked (selected caps hypotheses remaining collected gaps).1 ++
      (selected caps hypotheses remaining collected gaps).2.insertionSort
        fun a b => keyLe a.gapId b.gapId = true := rfl

theorem mem_scoreEvidenceGaps
    (h : c ∈ scoreEvidenceGaps caps hypotheses remaining collected gaps) :
    ∃ b ∈ (selected caps hypotheses remaining collected gaps).1 ++
      (selected caps hypotheses remaining collected gaps).2, ∃ n, c = { b with rank := n } := by
  rw [scoreEvidenceGaps_eq] at h
  rcases List.mem_append.mp h with h | h
  · obtain ⟨b, hb, n, rfl⟩ := mem_ranked h
    exact ⟨b, List.mem_append_left _ hb, n, rfl⟩
  · exact ⟨c, List.mem_append_right _ ((List.mem_insertionSort _).mp h), c.rank, rfl⟩

theorem scores_perm (hnodup : (gaps.map (·.gapId)).Nodup) :
    ((scoreEvidenceGaps caps hypotheses remaining collected gaps).map (·.gapId)).Perm
      (gaps.map (·.gapId)) := by
  have hloop : (((selected caps hypotheses remaining collected gaps).1 ++
      (selected caps hypotheses remaining collected gaps).2).map (·.gapId)).Perm
        ((byGapId gaps).map (·.gapId)) :=
    Policy.greedy_perm (p := choice caps hypotheses) (byGapId_nodup hnodup)
  have hranked : (ranked (selected caps hypotheses remaining collected gaps).1).map (·.gapId) =
      (selected caps hypotheses remaining collected gaps).1.map (·.gapId) :=
    map_ranked fun _ _ => rfl
  refine List.Perm.trans ?_ (hloop.trans ((List.perm_insertionSort _ gaps).map _))
  rw [scoreEvidenceGaps_eq, List.map_append, List.map_append, hranked]
  exact List.Perm.append_left _ ((List.perm_insertionSort _ _).map _)

theorem selection (hnodup : (gaps.map (·.gapId)).Nodup) :
    Selection caps hypotheses remaining gaps
      (scoreEvidenceGaps caps hypotheses remaining collected gaps) := by
  have hchosen : ∀ s ∈ ranked (selected caps hypotheses remaining collected gaps).1,
      s.eligible = true := by
    intro s hs
    obtain ⟨b, hb, n, rfl⟩ := mem_ranked hs
    have heligible : b.eligible = true := chosen_eligible hb
    exact heligible
  have hrejected : ∀ s ∈ (selected caps hypotheses remaining collected gaps).2.insertionSort
      (fun a b => keyLe a.gapId b.gapId = true), s.eligible = false ∧ s.rank = 0 := by
    intro s hs
    have hleft := (List.mem_insertionSort _).mp hs
    obtain ⟨t, gap, -, -, rfl⟩ := Policy.mem_left hleft
    exact ⟨rejected_not_eligible hleft, rfl⟩
  have hlength : (ranked (selected caps hypotheses remaining collected gaps).1).length =
      (selected caps hypotheses remaining collected gaps).1.length := by
    simp [ranked]
  refine ⟨scores_perm hnodup, ?_,
    ⟨_, _, scoreEvidenceGaps_eq, hchosen, hrejected, ?_, ?_⟩, fun c hc => ?_⟩
  · rw [scoreEvidenceGaps_eq, List.filter_append, List.filter_eq_self.mpr hchosen,
      List.filter_eq_nil_iff.mpr fun s hs => by simp [(hrejected s hs).1], List.append_nil, hlength]
    exact chosen_length
  · rw [hlength]
    exact rank_ranked
  · have hscores : (ranked (selected caps hypotheses remaining collected gaps).1).map (·.score) =
        (selected caps hypotheses remaining collected gaps).1.map (·.score) :=
      map_ranked fun _ _ => rfl
    have hpairwise : ((ranked (selected caps hypotheses remaining collected gaps).1).map
        (·.score)).Pairwise fun a b => b ≤ a := by
      rw [hscores, List.pairwise_map]
      exact chosen_pairwise
    exact List.pairwise_map.mp hpairwise
  · obtain ⟨b, hb, n, rfl⟩ := mem_scoreEvidenceGaps hc
    obtain ⟨t, gap, hgap, hsub, rfl⟩ := exists_scored hb
    refine ⟨gap, hgap, rfl, rfl, fun heligible => ?_⟩
    obtain ⟨hask, -⟩ := eligible_scoreOne.mp heligible
    refine ⟨exists_target hask.targets, hask.allowed, hask.registered, ?_⟩
    change _ ≤ (scoreOne caps hypotheses t gap).score - _
    have hworth := hask.worth
    rw [score_scoreOne]
    omega

theorem isEligible_iff (hnodup : (gaps.map (·.gapId)).Nodup)
    (hbudget : (gaps.length : ℤ) ≤ remaining) (hgap : gap ∈ gaps)
    (halone : Unrivalled gaps gap) :
    IsEligible (scoreEvidenceGaps caps hypotheses remaining collected gaps) gap ↔
      Askable caps hypotheses collected gap := by
  constructor
  · rintro ⟨c, hc, hid, heligible⟩
    obtain ⟨b, hb, n, rfl⟩ := mem_scoreEvidenceGaps hc
    exact (eligible_iff_askable hnodup hbudget hgap halone hb hid).mp heligible
  · intro hask
    obtain ⟨c, hc, hid⟩ := List.mem_map.mp
      ((scores_perm hnodup).mem_iff.mpr (List.mem_map_of_mem hgap))
    obtain ⟨b, hb, n, rfl⟩ := mem_scoreEvidenceGaps hc
    exact ⟨_, hc, hid, (eligible_iff_askable hnodup hbudget hgap halone hb hid).mpr hask⟩

/-- **The selection of the gaps**: it is a selection, in no order but its own, and the model's
priorities do not decide it. -/
theorem gap_selection (caps : Capabilities) (hypotheses : List MioHypothesis) (remaining : ℤ)
    (collected : List PyStr) (gaps : List MioEvidenceGap)
    (hgaps : (gaps.map (·.gapId)).Nodup) (hhypotheses : (ids hypotheses).Nodup) :
    Selection caps hypotheses remaining gaps
        (scoreEvidenceGaps caps hypotheses remaining collected gaps) ∧
      (∀ allowed registered collected' hypotheses' gaps', caps.allowed.Perm allowed →
        caps.registered.Perm registered → collected.Perm collected' →
        hypotheses.Perm hypotheses' → gaps.Perm gaps' →
          scoreEvidenceGaps ⟨allowed, registered⟩ hypotheses' remaining collected' gaps' =
            scoreEvidenceGaps caps hypotheses remaining collected gaps) ∧
      ∀ priorities : PyStr → ℤ, (gaps.length : ℤ) ≤ remaining → ∀ gap ∈ gaps,
        Unrivalled gaps gap →
          (IsEligible (scoreEvidenceGaps caps hypotheses remaining collected
              (withPriorities priorities gaps)) gap ↔
            IsEligible (scoreEvidenceGaps caps hypotheses remaining collected gaps) gap) := by
  refine ⟨selection hgaps, ?_, fun priorities hbudget gap hgap halone => ?_⟩
  · intro allowed registered collected' hypotheses' gaps' ha hr hc hh hg
    have hsame : selected caps hypotheses remaining collected gaps =
        selected ⟨allowed, registered⟩ hypotheses' remaining collected' gaps' :=
      selected_congr (fun _ => ha.mem_iff) (fun _ => hr.mem_iff) (prior_perm hh hhypotheses)
        (fun _ => hc.mem_iff) (byGapId_perm hg hgaps)
    rw [scoreEvidenceGaps_eq, scoreEvidenceGaps_eq, hsame]
  · have hkeys : (withPriorities priorities gaps).map (·.gapId) = gaps.map (·.gapId) := by
      rw [withPriorities, List.map_map]
      rfl
    have hmem : ({ gap with priority := priorities gap.gapId } : MioEvidenceGap) ∈
        withPriorities priorities gaps := List.mem_map_of_mem hgap
    have hother : Unrivalled (withPriorities priorities gaps)
        { gap with priority := priorities gap.gapId } := by
      intro other hin hcap
      obtain ⟨g, hg, rfl⟩ := List.mem_map.mp hin
      rw [halone g hg hcap]
    have hlength : (withPriorities priorities gaps).length = gaps.length := List.length_map _
    rw [isEligible_iff hgaps hbudget hgap halone]
    exact (isEligible_iff (hkeys ▸ hgaps) (hlength ▸ hbudget) hmem hother).trans
      ⟨fun h => ⟨h.targets, h.allowed, h.registered, h.worth⟩,
        fun h => ⟨h.targets, h.allowed, h.registered, h.worth⟩⟩

end Selection

/-- Two gaps about one hypothesis, with one capability. -/
def beaconGaps : List MioEvidenceGap :=
  [{ gapId := pyStr "g2", question := pyStr "Is it periodic?"
     discriminatesHypothesisIds := [pyStr "h1"], capability := pyStr "query_flow_summary" },
   { gapId := pyStr "g1", question := pyStr "Was it seen before?"
     discriminatesHypothesisIds := [pyStr "h1"], capability := pyStr "query_flow_summary"
     priority := 90 }]

/-- A redaction that finds no token, as there is none in the ids here. -/
@[reducible] def noTokens : Redaction := ⟨fun _ => false⟩

theorem gap_selection_beacon :
    Selection ⟨[pyStr "query_flow_summary"], [pyStr "query_flow_summary"]⟩ [beaconHypothesis] 2
      beaconGaps (@scoreEvidenceGaps noTokens
        ⟨[pyStr "query_flow_summary"], [pyStr "query_flow_summary"]⟩ [beaconHypothesis] 2 []
        beaconGaps) :=
  (@gap_selection noTokens _ [beaconHypothesis] 2 [] beaconGaps (by decide) (by decide)).1

end AzazelEdge.Mio
