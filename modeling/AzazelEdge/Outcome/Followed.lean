/-
# A release that is followed downstream

The outcomes of the core's sweep are read again by `from_rust_release_event`, and end the life of the
records of the restriction they released.  Both sides say what a release of each mechanism carries,
and they do not say the same.

* `accepted_iff`: which outcomes are accepted;
* `followed_iff`: for which tasks every outcome is, and every release ends the records of its task.
-/
import AzazelEdge.Outcome.ReleaseEvidence
import AzazelEdge.Release.Sweep

namespace AzazelEdge.Outcome

open AzazelEdge.Lib AzazelEdge.Lib.Py AzazelEdge.Audit AzazelEdge.Arbiter AzazelEdge.Release

variable {F : Type} [PyFloat F] [PyRepr F] [PyConvert F] [PyDate F]

/-! ## 1. What the event must say -/

section Event

variable [PyChars] {fixed6 : F → PyStr} {event release : Row F} {record : ReleaseEvidenceRecord F}

/-- The checks of `from_rust_release_event`, and what the record takes of the release. -/
structure Accepted (fixed6 : F → PyStr) (release : Row F) (record : ReleaseEvidenceRecord F) :
    Prop where
  taskId : requiredText release "release_task_id" = .ok record.releaseTaskId
  decisionId : requiredText release "trace_id" = .ok record.decisionId
  action : ∃ action, requiredText release "action" = .ok action ∧
    record.actionKind = PyConvert.lower F action
  resourceKey : requiredText release "resource_key" = .ok record.resourceKey
  ownerToken : requiredText release "owner_token" = .ok record.ownerToken
  result : requiredText release "result" = .ok record.result
  known : record.actionKind ∈ ["throttle", "redirect", "isolate"].map pyStr
  owned : (pyStr "azazel-edge:release-").isPrefixOf record.ownerToken = true
  status : ReleaseEvidenceStatus.ofText (strOr (getStr "status" release)) = .ok record.status
  due : epoch (getStr "due_epoch" release) "due_epoch" = .ok record.dueEpoch
  attempted : epoch (getStr "attempted_at_epoch" release) "attempted_at_epoch" =
    .ok record.attemptedAtEpoch
  inTime : PyFloat.lt (.inr record.attemptedAtEpoch) (.inr record.dueEpoch) = true →
    record.status = .superseded
  postcondition : mapping? (getStr "postcondition" release) = some record.postcondition
  verified : record.status = .released → isVerified record.postcondition = true
  tcHandle : record.tcHandle = strOr (getStr "tc_handle" release)
  handled : record.actionKind = pyStr "throttle" → validHandle record.tcHandle = true
  unhandled : record.actionKind ≠ pyStr "throttle" → record.tcHandle = []
  commandCount : nonnegativeInt (getStr "command_count" release) "command_count" =
    .ok record.commandCount
  failedCount : nonnegativeInt (getStr "failed_count" release) "failed_count" =
    .ok record.failedCount
  errors : ∃ rawErrors, getStr "errors" release = some (.arr rawErrors) ∧
    record.errors = rawErrors.map fun value => (strOf value).take 512
  observedAt : PyDate.isoTimestamp record.attemptedAtEpoch = some record.observedAt
  evidenceRefs : record.evidenceRefs = [pyStr "rust_release_engine_v1:" ++ record.releaseTaskId ++
    pyStr ":" ++ fixed6 record.attemptedAtEpoch]

omit [PyChars] in
theorem orRaise_eq_ok {α : Type} {value : Option α} {a : α} (h : orRaise value = .ok a) :
    value = some a := by
  cases value with
  | none => cases h
  | some b => exact congrArg some (Except.ok.inj h)

theorem fromRustReleaseEvent_eq_ok (h : fromRustReleaseEvent fixed6 event = .ok record) :
    ∃ release, mapping? (getStr "release" event) = some release ∧ Accepted fixed6 release record := by
  unfold fromRustReleaseEvent at h
  obtain ⟨-, h⟩ := guard_eq_ok.mp h
  split at h
  · cases h
  rename_i release hrelease
  obtain ⟨taskId, htaskId, h⟩ := bind_eq_ok h
  obtain ⟨decisionId, hdecisionId, h⟩ := bind_eq_ok h
  obtain ⟨action, haction, h⟩ := bind_eq_ok h
  obtain ⟨resourceKey, hresourceKey, h⟩ := bind_eq_ok h
  obtain ⟨ownerToken, hownerToken, h⟩ := bind_eq_ok h
  obtain ⟨result, hresult, h⟩ := bind_eq_ok h
  obtain ⟨hknown, h⟩ := guard_eq_ok.mp h
  obtain ⟨howned, h⟩ := guard_eq_ok.mp h
  obtain ⟨status, hstatus, h⟩ := bind_eq_ok h
  obtain ⟨dueEpoch, hdue, h⟩ := bind_eq_ok h
  obtain ⟨attemptedAtEpoch, hattempted, h⟩ := bind_eq_ok h
  obtain ⟨hinTime, h⟩ := guard_eq_ok.mp h
  split at h
  · cases h
  rename_i postcondition hpostcondition
  obtain ⟨hverified, h⟩ := guard_eq_ok.mp h
  obtain ⟨hhandled, h⟩ := guard_eq_ok.mp h
  obtain ⟨hunhandled, h⟩ := guard_eq_ok.mp h
  obtain ⟨commandCount, hcommandCount, h⟩ := bind_eq_ok h
  obtain ⟨failedCount, hfailedCount, h⟩ := bind_eq_ok h
  split at h
  · rename_i rawErrors herrors
    obtain ⟨observedAt, hobservedAt, h⟩ := bind_eq_ok h
    obtain rfl := Except.ok.inj h
    exact ⟨release, hrelease, {
      taskId := htaskId
      decisionId := hdecisionId
      action := ⟨action, haction, rfl⟩
      resourceKey := hresourceKey
      ownerToken := hownerToken
      result := hresult
      known := not_not.mp hknown
      owned := by simpa using howned
      status := hstatus
      due := hdue
      attempted := hattempted
      inTime := fun hlt => by simpa [hlt] using hinTime
      postcondition := hpostcondition
      verified := fun h => by simpa using not_and.mp hverified h
      tcHandle := rfl
      handled := fun h => by simpa using not_and.mp hhandled h
      unhandled := fun h => by simpa using not_and.mp hunhandled h
      commandCount := hcommandCount
      failedCount := hfailedCount
      errors := ⟨rawErrors, herrors, rfl⟩
      observedAt := orRaise_eq_ok hobservedAt
      evidenceRefs := rfl }⟩
  · cases h

theorem fromRustReleaseEvent_ok
    (hpipeline : strOr (getStr "pipeline" event) = pyStr "rust_release_engine_v1")
    (hrelease : mapping? (getStr "release" event) = some release)
    (h : Accepted fixed6 release record) : fromRustReleaseEvent fixed6 event = .ok record := by
  obtain ⟨action, haction, hkind⟩ := h.action
  obtain ⟨rawErrors, herrors, hraw⟩ := h.errors
  have hobserved : orRaise (PyDate.isoTimestamp record.attemptedAtEpoch) = .ok record.observedAt := by
    rw [h.observedAt]
    rfl
  unfold fromRustReleaseEvent
  refine guard_eq_ok.mpr ⟨not_not.mpr hpipeline, ?_⟩
  simp only [hrelease]
  refine ok_of_bind h.taskId (ok_of_bind h.decisionId (ok_of_bind haction ?_))
  refine ok_of_bind h.resourceKey (ok_of_bind h.ownerToken (ok_of_bind h.result ?_))
  rw [← hkind]
  refine guard_eq_ok.mpr ⟨not_not.mpr h.known, guard_eq_ok.mpr ⟨by simpa using h.owned, ?_⟩⟩
  refine ok_of_bind h.status (ok_of_bind h.due (ok_of_bind h.attempted ?_))
  refine guard_eq_ok.mpr ⟨fun hlate => hlate.2 (h.inTime hlate.1), ?_⟩
  simp only [h.postcondition]
  refine guard_eq_ok.mpr ⟨fun hno => by simp [h.verified hno.1] at hno, ?_⟩
  rw [← h.tcHandle]
  refine guard_eq_ok.mpr ⟨fun hno => by simp [h.handled hno.1] at hno, ?_⟩
  refine guard_eq_ok.mpr ⟨fun hno => hno.2 (h.unhandled hno.1), ?_⟩
  refine ok_of_bind h.commandCount (ok_of_bind h.failedCount ?_)
  simp only [herrors]
  refine ok_of_bind hobserved ?_
  rw [← hraw, ← h.evidenceRefs]
  rfl

end Event

/-! ## 2. Texts of the core -/

/-- The characters of a token, by their numbers. -/
theorem tokenChar_cases {d : Char} (hd : (d.isAlphanum || d = ':' || d = '-') = true) :
    isAsciiAlnum d.toNat = true ∨ d.toNat = 58 ∨ d.toNat = 45 := by
  have hle : ∀ a b : Char, a.val ≤ b.val ↔ a.toNat ≤ b.toNat := fun _ _ => Iff.rfl
  delta Char.isAlphanum Char.isAlpha Char.isUpper Char.isLower at hd
  simp only [Char.isDigit, ge_iff_le, hle, Bool.or_eq_true, Bool.and_eq_true, decide_eq_true_eq] at hd
  simp only [isAsciiAlnum, isDigit, Bool.or_eq_true, Bool.and_eq_true, decide_eq_true_eq]
  rcases hd with ((h | h) | rfl) | rfl
  · exact Or.inl (by rcases h with h | h <;> [exact Or.inl (Or.inr h); exact Or.inr h])
  · exact Or.inl (Or.inl (Or.inl h))
  · exact Or.inr (Or.inl rfl)
  · exact Or.inr (Or.inr rfl)

/-- None of them is a blank. -/
theorem isSpace_tokenChar {c : CodePoint} {d : Char} (hc : d.toNat = c.val)
    (hd : (d.isAlphanum || d = ':' || d = '-') = true) : Decision.isSpace c = false := by
  have hrange := tokenChar_cases hd
  simp only [isAsciiAlnum, isDigit, Bool.or_eq_true, Bool.and_eq_true, decide_eq_true_eq] at hrange
  simp only [Decision.isSpace, decide_eq_false_iff_not]
  omega

/-- An owner token reads as one. -/
theorem ownerToken_text {token : String} (h : validOwnerToken token = true) :
    Decision.strip (pyStr token) = pyStr token ∧
      (pyStr "azazel-edge:release-").isPrefixOf (pyStr token) = true := by
  simp only [validOwnerToken, Bool.and_eq_true, decide_eq_true_eq] at h
  obtain ⟨⟨hstart, -⟩, hchars⟩ := h
  constructor
  · refine Decision.strip_solid fun c hc => ?_
    obtain ⟨d, hd, hdc⟩ := mem_pyStr.mp hc
    exact isSpace_tokenChar hdc (List.all_eq_true.mp hchars d hd)
  · obtain ⟨rest, hrest⟩ := List.isPrefixOf_iff_prefix.mp hstart
    rw [pyStr, pyStr, ← hrest, List.map_append]
    exact List.isPrefixOf_iff_prefix.mpr (List.prefix_append _ _)

/-- A text has no more characters than bytes. -/
theorem length_le_utf8ByteSize (s : String) : s.toList.length ≤ s.utf8ByteSize := by
  obtain ⟨cs, rfl⟩ : ∃ cs, s = String.ofList cs := ⟨s.toList, by simp⟩
  induction cs with
  | nil => simp
  | cons c cs ih =>
    have hpos := c.utf8Size_pos
    rw [String.ofList_cons, String.utf8ByteSize_append, String.utf8ByteSize_singleton]
    simp at ih ⊢
    omega

theorem hexVal_of_digitValue {c : Char} {d : ℕ} (h : IpAddr.digitValue 16 c = some d) :
    hexVal (Fin.ofNat 0x110000 c.toNat).val = some d := by
  have hlt : c.toNat < 0x110000 := by
    have : c.toNat < 0xD800 ∨ 0xDFFF < c.toNat ∧ c.toNat < 0x110000 := c.valid
    omega
  have hval : (Fin.ofNat 0x110000 c.toNat).val = c.toNat := Nat.mod_eq_of_lt hlt
  rw [hval]
  have hle : ∀ a b : Char, a ≤ b ↔ a.toNat ≤ b.toNat := fun _ _ => Iff.rfl
  simp only [IpAddr.digitValue, hle, show '0'.toNat = 48 from rfl, show '9'.toNat = 57 from rfl,
    show 'a'.toNat = 97 from rfl, show 'f'.toNat = 102 from rfl, show 'A'.toNat = 65 from rfl,
    show 'F'.toNat = 70 from rfl, Option.filter_eq_some_iff] at h
  obtain ⟨h, -⟩ := h
  unfold hexVal
  split at h
  · rename_i hrange
    rw [if_pos hrange]
    exact h
  · rename_i hdigit
    rw [if_neg hdigit]
    split at h
    · rename_i hrange
      rw [if_pos hrange, ← Option.some.inj h]
      congr 1
      omega
    · rename_i hlower
      rw [if_neg hlower]
      split at h
      · rename_i hrange
        rw [if_pos hrange, ← Option.some.inj h]
        congr 1
        omega
      · cases h

/-- The digits of a number in base 16 are digits of Python's. -/
theorem mapM_hexVal {cs rest : List Char} {ds : List ℕ}
    (h : IpAddr.readDigits 16 cs = (ds, rest)) (hrest : rest = []) :
    (cs.map fun c => Fin.ofNat 0x110000 c.toNat).mapM (fun c => hexVal c.val) = some ds := by
  induction cs generalizing ds with
  | nil =>
    obtain rfl : [] = ds := (Prod.mk.inj h).1
    rfl
  | cons c cs ih =>
    rw [IpAddr.readDigits] at h
    split at h
    · rename_i d hd
      obtain ⟨rfl, hcs⟩ := Prod.mk.inj h
      have htail := ih (Prod.ext rfl hcs)
      rw [List.map_cons, List.mapM_cons, hexVal_of_digitValue hd, htail]
      rfl
    · obtain ⟨-, rfl⟩ := Prod.mk.inj h
      cases hrest

theorem readNumber_hex {cs : List Char} {n : ℕ}
    (h : IpAddr.readNumber 16 4 65535 true cs = some (n, [])) :
    ∃ ds, ds ≠ [] ∧ (cs.map fun c => Fin.ofNat 0x110000 c.toNat).mapM (fun c => hexVal c.val) = some ds ∧
      ofHex ds = n := by
  unfold IpAddr.readNumber at h
  cases hread : IpAddr.readDigits 16 cs with
  | mk ds rest =>
    rw [hread] at h
    simp only [Bool.not_true, Bool.false_and, Bool.false_eq_true, if_false] at h
    split at h
    · cases h
    · rename_i hok
      obtain ⟨hvalue, hrest⟩ := Prod.mk.inj (Option.some.inj h)
      refine ⟨ds, fun hnil => hok (Or.inl hnil), mapM_hexVal hread hrest, ?_⟩
      rw [ofHex, ← hvalue]
      simp only [Nat.mul_comm]

/-- A handle of the core is one to Python. -/
theorem validHandle_of_tc [PyChars] {handle : String} (h : validTcHandle handle = true) :
    validHandle (pyStr handle) = true := by
  simp only [validTcHandle, Bool.and_eq_true, decide_eq_true_eq] at h
  obtain ⟨⟨⟨hlast, hraw⟩, hlength⟩, hnumber⟩ := h
  have hpyLast : (pyStr handle).getLast? = some 58 := by
    rw [pyStr, List.getLast?_map, hlast]
    rfl
  have hdrop : (pyStr handle).dropLast =
      handle.toList.dropLast.map fun c => Fin.ofNat 0x110000 c.toNat := by
    rw [pyStr, List.map_dropLast]
  have hint : ∃ n : ℕ, 0 < n ∧ PyChars.intBase16 (pyStr handle).dropLast = some (n : ℤ) := by
    rw [hdrop]
    split at hnumber
    · rename_i n hread
      obtain ⟨ds, hne, hds, hof⟩ := readNumber_hex hread
      refine ⟨n, by simpa using hnumber, ?_⟩
      cases hplus : handle.toList.dropLast with
      | nil => exact absurd hplus hraw
      | cons c cs =>
        rw [hplus] at hds
        by_cases hc : c = '+'
        · subst hc
          rw [← hof]
          exact (PyChars.intBase16_digits _ ds hds hne).2
        · have hsame : dropPlus (c :: cs) = c :: cs := by
            unfold dropPlus
            split
            · rename_i heq
              exact absurd (List.cons.inj heq).1 hc
            · rfl
          rw [hsame] at hds
          rw [← hof]
          exact (PyChars.intBase16_digits _ ds hds hne).1
    · cases hnumber
  obtain ⟨n, hn, hint⟩ := hint
  simp only [validHandle, Bool.and_eq_true, decide_eq_true_eq]
  refine ⟨⟨⟨hpyLast, ?_⟩, ?_⟩, ?_⟩
  · rw [hdrop, List.isEmpty_map]
    simpa using hraw
  · rw [hdrop]
    simpa using hlength
  · rw [hint]
    simpa using hn

/-! ## 3. What a sweep emits -/

/-- The sweep leaves the task's qdisc to a newer throttle that is active. -/
def Superseded (tasks : List ReleaseTask) (task : ReleaseTask) : Prop :=
  isLegacyTcThrottle task = true ∧ ∃ newer, newerThrottle tasks task = some newer ∧
    newer.status = .active

/-- The sweep leaves it to a newer throttle, active or not yet reconciled. -/
def Yields (tasks : List ReleaseTask) (task : ReleaseTask) : Prop :=
  isLegacyTcThrottle task = true ∧ ∃ newer, newerThrottle tasks task = some newer ∧
    (newer.status = .active ∨ newer.tcHandle = task.tcHandle ∧
      (newer.status = .prepared ∨ newer.status = .uncertain))

/-- An outcome that a sweep emits for a task. -/
structure Emitted (tasks : List ReleaseTask) (task : ReleaseTask) (nowEpoch : Epoch)
    (outcome : ReleaseOutcome) : Prop where
  taskId : outcome.releaseTaskId = task.taskId
  traceId : outcome.traceId = task.traceId
  action : outcome.action = task.action
  resourceKey : outcome.resourceKey = task.resourceKey
  ownerToken : outcome.ownerToken = task.ownerToken
  tcHandle : outcome.tcHandle = task.tcHandle
  dueEpoch : outcome.dueEpoch = task.dueEpoch
  attemptedAtEpoch : outcome.attemptedAtEpoch = nowEpoch
  result : Decision.strip (pyStr outcome.result) ≠ []
  postcondition : ∃ members, outcome.postcondition = .obj members ∧
    (outcome.status = .released → members.lookup "verified" = some (.bool true))
  superseded : outcome.status = .superseded ↔ Superseded tasks task
  released : outcome.status = .released → ¬ Yields tasks task

/-- What is said of an outcome besides how it came about. -/
theorem Emitted.noted {tasks : List ReleaseTask} {task : ReleaseTask} {nowEpoch : Epoch}
    {outcome : ReleaseOutcome} (h : Emitted tasks task nowEpoch outcome) (audit clock : String) :
    Emitted tasks task nowEpoch
      { outcome with rollbackStartAudit := audit, expiryClock := clock } :=
  { h with }

theorem emitted_outcomeFor {tasks : List ReleaseTask} {task : ReleaseTask} {nowEpoch : Epoch}
    {status : OutcomeStatus} {result : String} {commandCount failedCount : ℕ}
    {errors : List String} {members : List (String × Json)}
    (hresult : Decision.strip (pyStr result) ≠ [])
    (hverified : status = .released → members.lookup "verified" = some (.bool true))
    (hsuperseded : status = .superseded ↔ Superseded tasks task)
    (hreleased : status = .released → ¬ Yields tasks task) :
    Emitted tasks task nowEpoch
      (outcomeFor task nowEpoch status result commandCount failedCount errors (.obj members)) :=
  ⟨rfl, rfl, rfl, rfl, rfl, rfl, rfl, rfl, hresult, ⟨members, rfl, hverified⟩, hsuperseded,
    hreleased⟩

theorem yieldToNewer_none_iff {tasks : List ReleaseTask} {task : ReleaseTask} {now : LeaseNow} :
    yieldToNewer tasks task now = none ↔ ¬ Yields tasks task := by
  unfold yieldToNewer Yields
  by_cases hlegacy : isLegacyTcThrottle task = true
  · simp only [hlegacy, Bool.true_eq_false, if_false, true_and]
    cases newerThrottle tasks task with
    | none => simp
    | some newer =>
      by_cases hactive : newer.status = .active
      · simp [hactive]
      · by_cases hsame : newer.tcHandle = task.tcHandle ∧
            (newer.status = .prepared ∨ newer.status = .uncertain)
        · simp [hactive, hsame]
        · simp [hactive, hsame]
  · simp [hlegacy]

/-- What is left to a newer throttle is reported as such. -/
theorem emitted_yield {tasks : List ReleaseTask} {task : ReleaseTask} {now : LeaseNow}
    {f : ReleaseTask → ReleaseTask} {outcome : ReleaseOutcome}
    (h : yieldToNewer tasks task now = some (f, outcome)) :
    Emitted tasks task now.wallEpoch outcome := by
  unfold yieldToNewer at h
  split at h
  · cases h
  rename_i hlegacy
  have hlegacy : isLegacyTcThrottle task = true := by simpa using hlegacy
  split at h
  · cases h
  rename_i newer hnewer
  split at h
  · rename_i hactive
    obtain ⟨-, rfl⟩ := Prod.mk.inj (Option.some.inj h)
    exact emitted_outcomeFor (by decide +kernel) nofun
      ⟨fun _ => ⟨hlegacy, newer, hnewer, hactive⟩, fun _ => rfl⟩ nofun
  · rename_i hactive
    split at h
    · obtain ⟨-, rfl⟩ := Prod.mk.inj (Option.some.inj h)
      refine emitted_outcomeFor (by decide +kernel) nofun ⟨nofun, fun hsuperseded => ?_⟩ nofun
      obtain ⟨-, newer', hnewer', hactive'⟩ := hsuperseded
      exact absurd (Option.some.inj (hnewer.symm.trans hnewer') ▸ hactive') hactive
    · cases h

theorem emitted_attempted {tasks : List ReleaseTask} {task : ReleaseTask} {nowEpoch : Epoch}
    {result : Except String ReleaseOutcome} (hyields : ¬ Yields tasks task)
    (h : Attempted task nowEpoch result) :
    Emitted tasks task nowEpoch (outcomeOf task nowEpoch result) := by
  have hsuperseded : ¬ Superseded tasks task := fun ⟨hlegacy, newer, hnewer, hactive⟩ =>
    hyields ⟨hlegacy, newer, hnewer, Or.inl hactive⟩
  cases h with
  | error e =>
    exact emitted_outcomeFor (by decide +kernel) nofun ⟨nofun, fun h => absurd h hsuperseded⟩ nofun
  | outcome status result commandCount failedCount errors members hstatus hresult hverified =>
    refine emitted_outcomeFor ?_ hverified
      ⟨fun h => absurd h hstatus, fun h => absurd h hsuperseded⟩ fun _ => hyields
    have hnames : attemptResults.all fun result => decide (Decision.strip (pyStr result) ≠ []) := by
      decide +kernel
    simpa using List.all_eq_true.mp hnames result hresult

/-- **What the attempt on a task emits**, whatever its commands answer. -/
theorem emitted_attemptRelease (now : LeaseNow) (audit : StartAudit) (ledger : ReleaseLedger)
    (task : ReleaseTask) (clock : ExpiryClock) :
    Prog.Ensures (fun result => ∀ outcome ∈ result.2,
        Emitted ledger.tasks task now.wallEpoch outcome)
      (attemptRelease now audit ledger task clock) := by
  unfold attemptRelease
  split
  · rename_i f outcome hyield
    intro emitted hmem
    obtain rfl := List.mem_singleton.mp hmem
    exact (emitted_yield hyield).noted _ _
  · rename_i hyield
    have hyields := yieldToNewer_none_iff.mp hyield
    refine (attempted_releaseOwnedState task now.wallEpoch).map fun result hresult => ?_
    intro emitted hmem
    obtain rfl := List.mem_singleton.mp hmem
    exact (emitted_attempted hyields hresult).noted _ _

/-! ## 4. Which outcomes are accepted -/

/-- Epochs of the core as Python's floats: finite, no less than zero where the epoch is not, with a
date from the first epoch on up to some latest one. -/
class PyEpochs (F : Type) [PyFloat F] [PyDate F] : Prop where
  finite : ∀ t : Epoch, PyDate.isFinite (PyDate.ofEpoch t : F) = true
  nonneg : ∀ t : Epoch, 0 ≤ t →
    PyFloat.lt (.inr (PyDate.ofEpoch t : F)) (.inr (lit "0.0")) = false
  dated : ∀ s t : Epoch, 0 ≤ s →
    PyFloat.lt (.inr (PyDate.ofEpoch t : F)) (.inr (PyDate.ofEpoch s)) = false →
    (PyDate.isoTimestamp (PyDate.ofEpoch t : F)).isSome = true →
    (PyDate.isoTimestamp (PyDate.ofEpoch s : F)).isSome = true
  date_ne : ∀ (x : F) (date : PyStr), PyDate.isoTimestamp x = some date → date ≠ []

section Accept

variable [PyChars] [PyCase F] [PyEpochs F] {tasks : List ReleaseTask} {task : ReleaseTask}
  {nowEpoch : Epoch} {outcome : ReleaseOutcome} {enforcementStatus : PyJson F}
  {record : ReleaseEvidenceRecord F} {fixed6 : F → PyStr}

omit [PyConvert F] [PyDate F] [PyChars] [PyCase F] [PyEpochs F] in
theorem requiredText_ok_iff {release : Row F} {key : String} {s : String} {t : PyStr}
    (h : getStr key release = some (jstr s)) :
    requiredText release key = .ok t ↔
      Decision.strip (pyStr s) ≠ [] ∧ t = Decision.strip (pyStr s) := by
  have hstr : strOr (some (jstr s) : Option (PyJson F)) = pyStr s := strOr_str _
  rw [requiredText, h, hstr]
  split
  · rename_i hblank
    exact ⟨nofun, fun hno => absurd hblank hno.1⟩
  · rename_i hnot
    exact ⟨fun heq => ⟨hnot, (Except.ok.inj heq).symm⟩, fun heq => congrArg Except.ok heq.2.symm⟩

omit [PyRepr F] [PyChars] [PyCase F] in
theorem epoch_ofEpoch {t : Epoch} (ht : 0 ≤ t) (name : String) :
    epoch (some (.float (PyDate.ofEpoch t)) : Option (PyJson F)) name = .ok (PyDate.ofEpoch t) := by
  have hbad : ¬ (PyDate.isFinite (PyDate.ofEpoch t : F) = false ∨
      PyFloat.lt (.inr (PyDate.ofEpoch t : F)) (.inr (lit "0.0")) = true) := by
    simp [PyEpochs.finite, PyEpochs.nonneg t ht]
  simp [epoch, toFloat, hbad]

omit [PyRepr F] [PyDate F] [PyChars] [PyCase F] [PyEpochs F] in
theorem nonnegativeInt_nat (n : ℕ) (name : String) :
    nonnegativeInt (some (.int n) : Option (PyJson F)) name = .ok (n : ℤ) := by
  simp [nonnegativeInt, toInt]

omit [PyFloat F] [PyRepr F] [PyDate F] [PyChars] [PyEpochs F] in
/-- The action of a task reads as it is written. -/
theorem lower_action (action : Release.Action) :
    PyConvert.lower F (Decision.strip (pyStr action.asStr)) = pyStr action.asStr := by
  have hstrip : Decision.strip (pyStr action.asStr) = pyStr action.asStr := by
    cases action <;> decide +kernel
  rw [hstrip]
  exact lower_small (by cases action <;> decide +kernel)

omit [PyFloat F] [PyRepr F] [PyConvert F] [PyChars] [PyCase F] [PyEpochs F] in
theorem getStr_ofMembers (members : List (String × Json)) (key : String) :
    getStr key (ofMembers members : Row F) = (members.lookup key).map ofJson := by
  induction members with
  | nil => rfl
  | cons member members ih =>
    obtain ⟨key', value⟩ := member
    rw [ofMembers, getStr, getKey, List.lookup_cons]
    by_cases hkey : key' = key
    · subst hkey
      simp
    · have hne : ¬ pyStr key' = pyStr key := by simpa using hkey
      have hbeq : (key == key') = false := by simpa using fun h => hkey h.symm
      rw [if_neg hne, hbeq]
      exact ih

/-- The record of an outcome that was read. -/
def recordOf (fixed6 : F → PyStr) (outcome : ReleaseOutcome) (members : List (String × Json))
    (observedAt : PyStr) : ReleaseEvidenceRecord F where
  releaseTaskId := Decision.strip (pyStr outcome.releaseTaskId)
  decisionId := Decision.strip (pyStr outcome.traceId)
  actionKind := pyStr outcome.action.asStr
  resourceKey := Decision.strip (pyStr outcome.resourceKey)
  ownerToken := Decision.strip (pyStr outcome.ownerToken)
  tcHandle := pyStr outcome.tcHandle
  dueEpoch := PyDate.ofEpoch outcome.dueEpoch
  attemptedAtEpoch := PyDate.ofEpoch outcome.attemptedAtEpoch
  status := match outcome.status with
    | .released => .released
    | .retryPending => .retryPending
    | .superseded => .superseded
  result := Decision.strip (pyStr outcome.result)
  commandCount := outcome.commandCount
  failedCount := outcome.failedCount
  errors := (outcome.errors.map jstr).map fun value : PyJson F => (strOf value).take 512
  postcondition := ofMembers members
  evidenceRefs := [pyStr "rust_release_engine_v1:" ++ Decision.strip (pyStr outcome.releaseTaskId) ++
    pyStr ":" ++ fixed6 (PyDate.ofEpoch outcome.attemptedAtEpoch)]
  observedAt

/-- What the task of an outcome must be for the outcome to be accepted. -/
structure Readable (F : Type) [PyFloat F] [PyDate F] (tasks : List ReleaseTask) (task : ReleaseTask)
    (nowEpoch : Epoch) : Prop where
  named : ∀ id ∈ [task.taskId, task.traceId, task.resourceKey], Decision.strip (pyStr id) ≠ []
  throttle : task.action = .throttle → task.mechanism = .legacy
  handle : task.action ≠ .throttle → task.tcHandle = ""
  dated : (PyDate.isoTimestamp (PyDate.ofEpoch nowEpoch : F)).isSome = true
  due : ¬ Superseded tasks task →
    PyFloat.lt (.inr (PyDate.ofEpoch nowEpoch : F)) (.inr (PyDate.ofEpoch task.dueEpoch)) = false

variable (fixed6) in
theorem accepted_of_readable (h : Emitted tasks task nowEpoch outcome)
    (hvalid : validateTask task = .ok ()) (hnow : 0 ≤ nowEpoch)
    (hreadable : Readable F tasks task nowEpoch) :
    ∃ members observedAt, outcome.postcondition = .obj members ∧
      Accepted fixed6 (releaseJson outcome) (recordOf fixed6 outcome members observedAt) := by
  obtain ⟨htimes, -, htoken, hmechanism⟩ := validateTask_ok hvalid
  obtain ⟨members, hpost, hverified⟩ := h.postcondition
  obtain ⟨observedAt, hobserved⟩ := Option.isSome_iff_exists.mp hreadable.dated
  obtain ⟨hstrip, hstart⟩ := ownerToken_text htoken
  have hin : ∀ id ∈ [task.taskId, task.traceId, task.resourceKey], Decision.strip (pyStr id) ≠ [] :=
    hreadable.named
  have hrequired : ∀ (key : String) (s : String), getStr key (releaseJson outcome : Row F) = some (jstr s) →
      Decision.strip (pyStr s) ≠ [] →
        requiredText (releaseJson outcome : Row F) key = .ok (Decision.strip (pyStr s)) :=
    fun key s hkey hs => (requiredText_ok_iff hkey).mpr ⟨hs, rfl⟩
  have hget : ∀ (key : String) (value : PyJson F),
      getKey (pyStr key) (releaseJson outcome) = some value →
        getStr key (releaseJson outcome : Row F) = some value := fun _ _ h => h
  have hstatus : getStr "status" (releaseJson outcome : Row F) =
      some (jstr (statusText outcome.status)) := by simp [releaseJson, getStr, getKey]
  have hdue : getStr "due_epoch" (releaseJson outcome : Row F) =
      some (.float (PyDate.ofEpoch outcome.dueEpoch)) := by simp [releaseJson, getStr, getKey]
  have hattempted : getStr "attempted_at_epoch" (releaseJson outcome : Row F) =
      some (.float (PyDate.ofEpoch outcome.attemptedAtEpoch)) := by
    simp [releaseJson, getStr, getKey]
  have hmapping : getStr "postcondition" (releaseJson outcome : Row F) =
      some (.obj (ofMembers members)) := by
    simp [releaseJson, getStr, getKey, hpost, ofJson]
  have hhandle : getStr "tc_handle" (releaseJson outcome : Row F) = some (jstr outcome.tcHandle) := by
    simp [releaseJson, getStr, getKey]
  refine ⟨members, observedAt, hpost, ?_⟩
  exact
    { taskId := hrequired _ outcome.releaseTaskId (by simp [releaseJson, getStr, getKey])
        (h.taskId ▸ hin _ (by simp))
      decisionId := hrequired _ outcome.traceId (by simp [releaseJson, getStr, getKey])
        (h.traceId ▸ hin _ (by simp))
      action := ⟨_, hrequired _ outcome.action.asStr (by simp [releaseJson, getStr, getKey])
        (by cases outcome.action <;> decide +kernel), (lower_action outcome.action).symm⟩
      resourceKey := hrequired _ outcome.resourceKey (by simp [releaseJson, getStr, getKey])
        (h.resourceKey ▸ hin _ (by simp))
      ownerToken := hrequired _ outcome.ownerToken (by simp [releaseJson, getStr, getKey]) (by
        rw [h.ownerToken, hstrip]
        rintro hnil
        rw [hnil] at hstart
        exact absurd hstart (by decide))
      result := hrequired _ outcome.result (by simp [releaseJson, getStr, getKey]) h.result
      known := by
        simp only [recordOf]
        cases outcome.action <;> simp [Release.Action.asStr]
      owned := by
        rw [recordOf, h.ownerToken, hstrip]
        exact hstart
      status := by
        rw [hstatus, jstr, strOr_str]
        cases hcase : outcome.status <;> simp [ReleaseEvidenceStatus.ofText, statusText, recordOf, hcase]
      due := by
        rw [hdue]
        exact epoch_ofEpoch (h.dueEpoch ▸ htimes _ (by simp [ReleaseTask.times])) _
      attempted := by
        rw [hattempted]
        exact epoch_ofEpoch (h.attemptedAtEpoch ▸ hnow) _
      inTime := by
        intro hlate
        have hlate : PyFloat.lt (.inr (PyDate.ofEpoch nowEpoch : F))
            (.inr (PyDate.ofEpoch task.dueEpoch)) = true := by
          rw [← h.attemptedAtEpoch, ← h.dueEpoch]
          exact hlate
        have hsuperseded : outcome.status = .superseded := by
          rw [h.superseded]
          by_contra hno
          rw [hreadable.due hno] at hlate
          cases hlate
        rw [recordOf, hsuperseded]
      postcondition := by rw [hmapping]; rfl
      verified := by
        intro hreleased
        have hreleased : outcome.status = .released := by
          cases hcase : outcome.status <;> simp [recordOf, hcase] at hreleased ⊢
        rw [recordOf, isVerified, getStr_ofMembers, hverified hreleased]
        rfl
      tcHandle := by rw [hhandle, jstr, strOr_str]; rfl
      handled := by
        intro hthrottle
        have haction : task.action = .throttle := by
          rw [← h.action]
          cases hcase : outcome.action <;> simp [recordOf, hcase, Release.Action.asStr] at hthrottle ⊢
        rw [recordOf, h.tcHandle]
        refine validHandle_of_tc ?_
        rw [validateMechanism, haction, hreadable.throttle haction] at hmechanism
        simp only at hmechanism
        split at hmechanism
        · cases hmechanism
        · rename_i hok
          simpa using fun hbad => hok (Or.inr hbad)
      unhandled := by
        intro hother
        have haction : task.action ≠ .throttle := by
          rintro haction
          rw [← h.action] at haction
          exact hother (by rw [recordOf, haction]; rfl)
        rw [recordOf, h.tcHandle, hreadable.handle haction]
        rfl
      commandCount := by
        rw [hget _ (.int outcome.commandCount) (by simp [releaseJson, getKey])]
        exact nonnegativeInt_nat _ _
      failedCount := by
        rw [hget _ (.int outcome.failedCount) (by simp [releaseJson, getKey])]
        exact nonnegativeInt_nat _ _
      errors := ⟨outcome.errors.map jstr, by simp [releaseJson, getStr, getKey], rfl⟩
      observedAt := by
        rw [recordOf, h.attemptedAtEpoch]
        exact hobserved
      evidenceRefs := rfl }

theorem readable_of_accepted (h : Emitted tasks task nowEpoch outcome)
    (hvalid : validateTask task = .ok ()) (hnow : 0 ≤ nowEpoch)
    (haccepted : Accepted fixed6 (releaseJson outcome) record) : Readable F tasks task nowEpoch := by
  obtain ⟨htimes, -, -, hmechanism⟩ := validateTask_ok hvalid
  have hrequired : ∀ (key : String) (s : String) (t : PyStr),
      getStr key (releaseJson outcome : Row F) = some (jstr s) →
        requiredText (releaseJson outcome : Row F) key = .ok t →
          Decision.strip (pyStr s) ≠ [] ∧ t = Decision.strip (pyStr s) :=
    fun key s t hkey ht => (requiredText_ok_iff hkey).mp ht
  have htask := hrequired _ outcome.releaseTaskId _ (by simp [releaseJson, getStr, getKey])
    haccepted.taskId
  have htrace := hrequired _ outcome.traceId _ (by simp [releaseJson, getStr, getKey])
    haccepted.decisionId
  have hresource := hrequired _ outcome.resourceKey _ (by simp [releaseJson, getStr, getKey])
    haccepted.resourceKey
  have hkind : record.actionKind = pyStr task.action.asStr := by
    obtain ⟨action, haction, hkind⟩ := haccepted.action
    obtain ⟨-, rfl⟩ := hrequired _ outcome.action.asStr _ (by simp [releaseJson, getStr, getKey])
      haction
    rw [hkind, lower_action, h.action]
  have hhandle : record.tcHandle = pyStr task.tcHandle := by
    rw [haccepted.tcHandle, ← h.tcHandle]
    have hget : getStr "tc_handle" (releaseJson outcome : Row F) = some (jstr outcome.tcHandle) := by
      simp [releaseJson, getStr, getKey]
    rw [hget, jstr, strOr_str]
  have hdue : record.dueEpoch = PyDate.ofEpoch task.dueEpoch := by
    have hread := haccepted.due
    rw [show getStr "due_epoch" (releaseJson outcome : Row F) =
      some (.float (PyDate.ofEpoch outcome.dueEpoch)) by simp [releaseJson, getStr, getKey],
      h.dueEpoch, epoch_ofEpoch (htimes _ (by simp [ReleaseTask.times]))] at hread
    exact (Except.ok.inj hread).symm
  have hattempted : record.attemptedAtEpoch = PyDate.ofEpoch nowEpoch := by
    have hread := haccepted.attempted
    rw [show getStr "attempted_at_epoch" (releaseJson outcome : Row F) =
      some (.float (PyDate.ofEpoch outcome.attemptedAtEpoch)) by simp [releaseJson, getStr, getKey],
      h.attemptedAtEpoch, epoch_ofEpoch hnow] at hread
    exact (Except.ok.inj hread).symm
  constructor
  · intro id hid
    simp only [List.mem_cons, List.not_mem_nil, or_false] at hid
    rcases hid with rfl | rfl | rfl
    · exact h.taskId ▸ htask.1
    · exact h.traceId ▸ htrace.1
    · exact h.resourceKey ▸ hresource.1
  · intro haction
    -- A flow's throttle has no handle, and a throttle's release is accepted with one only.
    have hvalidHandle := haccepted.handled (by rw [hkind, haction]; rfl)
    rw [hhandle] at hvalidHandle
    cases hcase : task.mechanism with
    | legacy => rfl
    | nftFlowLimit =>
      rw [validateMechanism, haction, hcase] at hmechanism
      simp only at hmechanism
      split at hmechanism
      · cases hmechanism
      · rename_i hok
        have hempty : task.tcHandle = "" := by simpa using fun hbad => hok (Or.inl hbad)
        rw [hempty] at hvalidHandle
        exact absurd hvalidHandle (by simp [validHandle, pyStr])
    | nftFlowRedirect =>
      rw [validateMechanism, haction, hcase] at hmechanism
      cases hmechanism
  · intro haction
    have hother : record.actionKind ≠ pyStr "throttle" := by
      rw [hkind]
      cases hcase : task.action <;> simp [Release.Action.asStr, hcase] at haction ⊢
    have hempty := haccepted.unhandled hother
    rw [hhandle] at hempty
    exact pyStr_inj (hempty.trans rfl)
  · have hobserved := haccepted.observedAt
    rw [hattempted] at hobserved
    exact Option.isSome_iff_exists.mpr ⟨_, hobserved⟩
  · intro hsuperseded
    by_contra hlate
    have hstatus := haccepted.inTime (by rw [hattempted, hdue]; simpa using hlate)
    have hread := haccepted.status
    rw [show getStr "status" (releaseJson outcome : Row F) =
      some (jstr (statusText outcome.status)) by simp [releaseJson, getStr, getKey], hstatus] at hread
    refine hsuperseded (h.superseded.mp ?_)
    cases hcase : outcome.status <;>
      simp [hcase, statusText, jstr, ReleaseEvidenceStatus.ofText] at hread ⊢

variable (enforcementStatus) (fixed6) in
/-- What is read of an outcome that is accepted. -/
theorem fromRust_of_readable (h : Emitted tasks task nowEpoch outcome)
    (hvalid : validateTask task = .ok ()) (hnow : 0 ≤ nowEpoch)
    (hreadable : Readable F tasks task nowEpoch) :
    ∃ members observedAt, outcome.postcondition = .obj members ∧
      PyDate.isoTimestamp (PyDate.ofEpoch nowEpoch : F) = some observedAt ∧
      fromRustReleaseEvent fixed6 (releaseEvent outcome enforcementStatus) =
        .ok (recordOf fixed6 outcome members observedAt) := by
  obtain ⟨members, observedAt, hpost, haccepted⟩ := accepted_of_readable fixed6 h hvalid hnow
    hreadable
  have hdate := haccepted.observedAt
  rw [recordOf, h.attemptedAtEpoch] at hdate
  exact ⟨members, observedAt, hpost, hdate, fromRustReleaseEvent_ok
    (by simp [releaseEvent, getStr, getKey, jstr]) (by simp [releaseEvent, getStr, getKey, mapping?])
    haccepted⟩

/-- **An outcome is accepted exactly when its task can be read**: its ids are more than blanks, it is
no throttle of a flow, only a throttle has a handle, and the attempt has a date and is not before
the lease's wall deadline. -/
theorem accepted_iff (h : Emitted tasks task nowEpoch outcome)
    (hvalid : validateTask task = .ok ()) (hnow : 0 ≤ nowEpoch) :
    (∃ record, fromRustReleaseEvent fixed6 (releaseEvent outcome enforcementStatus) = .ok record) ↔
      Readable F tasks task nowEpoch := by
  constructor
  · rintro ⟨record, hrecord⟩
    obtain ⟨release, hget, haccepted⟩ := fromRustReleaseEvent_eq_ok hrecord
    have hrelease : mapping? (getStr "release" (releaseEvent outcome enforcementStatus)) =
        some (releaseJson outcome : Row F) := by
      simp [releaseEvent, getStr, getKey, mapping?]
    obtain rfl := Option.some.inj (hget.symm.trans hrelease)
    exact readable_of_accepted h hvalid hnow haccepted
  · intro hreadable
    obtain ⟨members, observedAt, -, -, hrecord⟩ :=
      fromRust_of_readable enforcementStatus fixed6 h hvalid hnow hreadable
    exact ⟨_, hrecord⟩

end Accept

/-! ## 5. The records of a restriction -/

/-- The marker of a task's rule, or of its qdisc. -/
def markerOf (task : ReleaseTask) : Ownership :=
  if isLegacyTcThrottle task then .tcHandle (pyStr task.tcHandle)
  else .nftComment (pyStr task.ownerToken)

/-- The enforcement record of a task, and the receipt made of it. -/
structure RecordOf (F : Type) [PyFloat F] [PyRepr F] [PyConvert F] [PyDate F]
    (digest : PyStr → PyStr) (task : ReleaseTask) (bundle : ShadowRecordBundle F) where
  ev : NormalizedEvent
  decision : DefensiveDecision
  outcome : EnforcementOutcome
  metadata : Row F
  release : outcome.release = some task
  traceId : outcome.traceId = task.traceId
  action : outcome.selectedAction = task.action.asStr
  ledgerState : outcome.ledgerState ∈ ["active", "uncertain", "prepared"]
  made : fromRustEvent digest (coreEvent ev decision outcome metadata) = .ok bundle

/-- A receipt made of the enforcement record of a task, with the marker of the task in its commands,
and a mechanism of it that was observed with this marker. -/
structure Belongs [PyChars] (digest : PyStr → PyStr) (task : ReleaseTask)
    (execution : ActionExecutionReceipt F) (mechanism : AppliedMechanism F) : Prop where
  record : ∃ bundle, Nonempty (RecordOf F digest task bundle) ∧ execution = bundle.execution ∧
    mechanism.executionId = bundle.mechanism.executionId ∧
    mechanism.decisionId = bundle.mechanism.decisionId
  applied : execution.status = .applied
  marked : expectedOwnership execution = .ok (some (markerOf task))
  observed : mechanism.status = .observed
  owner : ∃ probe, getStr "postcondition_probe" mechanism.observedParameters = some (.obj probe) ∧
    getStr "ownership" probe = some (markerOf task).value
  made : mechanism.make = .ok mechanism

section Records

variable [PyCase F]

omit [PyDate F] [PyCase F] in
/-- A disruptive action is applied only with the result `applied`. -/
theorem result_of_applied {enforcement : Row F} {action : PyStr} (haction : action ≠ pyStr "observe")
    (h : executionStatus enforcement action = .ok .applied) :
    PyConvert.lower F (strGet "mode" enforcement) = pyStr "enforced" ∧
      PyConvert.lower F (strGet "result" enforcement) = pyStr "applied" := by
  unfold executionStatus at h
  obtain ⟨failedCount, -, h⟩ := bind_eq_ok h
  obtain ⟨executedCount, -, h⟩ := bind_eq_ok h
  have h := Except.ok.inj h
  split at h
  · cases h
  split at h
  · cases h
  split at h
  · cases h
  split at h
  · cases h
  split at h
  · cases h
  split at h
  · rename_i happlied
    exact ⟨happlied.1, happlied.2.1⟩
  · split at h
    · rename_i hobserve
      exact absurd hobserve.1 haction
    · cases h

/-- **What the receipt of a task's record says of the task.** -/
theorem receipt_of_record {digest : PyStr → PyStr} {task : ReleaseTask}
    {bundle : ShadowRecordBundle F} (r : RecordOf F digest task bundle)
    (htrace : pyStr task.traceId ≠ []) (htask : Decision.strip (pyStr task.taskId) ≠ [])
    (happlied : bundle.execution.status = .applied) :
    bundle.execution.actionKind = pyStr task.action.asStr ∧
      bundle.execution.decisionId = pyStr task.traceId ∧
      bundle.execution.releaseRef = Decision.strip (pyStr task.taskId) ∧
      mapping? (getStr "metadata" bundle.execution.appliedParameters) =
        some (releaseMetadata (some task) r.outcome.ledgerState ++ r.metadata) := by
  have hadapted := fromRustEvent_adapted r.made
  have hkind : actionKind (coreEvent r.ev r.decision r.outcome r.metadata) =
      pyStr task.action.asStr :=
    actionKind_coreEvent r.action (by cases task.action <;> decide)
      (by cases task.action <;> decide +kernel)
  have hcontrol : actionKind (coreEvent r.ev r.decision r.outcome r.metadata) ≠ pyStr "observe" := by
    rw [hkind]
    cases task.action <;> simp [Release.Action.asStr]
  refine ⟨hadapted.action.trans hkind, ?_, ?_, ?_⟩
  · have htraceId : strOr (getKey (pyStr "trace_id") (enforcementJson r.outcome r.metadata)) =
        pyStr task.traceId := by
      simp [enforcementJson, getKey, jstr, r.traceId]
    have hdecision := hadapted.decision
    rw [enforcement_coreEvent, htraceId] at hdecision
    exact hdecision htrace
  · obtain ⟨rollbackPlan, expiresAt, hrelease⟩ := hadapted.release
    have hstatus := hadapted.status
    rw [enforcement_coreEvent, happlied] at hstatus hrelease
    obtain ⟨-, hresult⟩ := result_of_applied hcontrol hstatus
    have hstr : strOr (getKey (pyStr "result") (enforcementJson r.outcome r.metadata)) =
        strGet "result" (enforcementJson r.outcome r.metadata) := by
      simp [enforcementJson, strGet, getKey, jstr, strOf]
    have hnot : ¬ (PyConvert.lower F (strOr (getKey (pyStr "mode")
          (enforcementJson r.outcome r.metadata))) = pyStr "enforced" ∧
        PyConvert.lower F (strOr (getKey (pyStr "result") (enforcementJson r.outcome r.metadata))) ∈
          ["extended", "already_held"].map pyStr ∧
        Decision.strip (strOr (getKey (pyStr "release_extended_task_id") (asDict (getKey
          (pyStr "metadata") (enforcementJson r.outcome r.metadata))))) ≠ []) := by
      rw [hstr, hresult]
      simp
    unfold releaseFields at hrelease
    extract_lets metadata taskId ledgerState held mode result at hrelease
    rw [if_neg hnot] at hrelease
    have htaskId : taskId = Decision.strip (pyStr task.taskId) := by
      simp [taskId, metadata, enforcementJson, getKey, asDict, r.release, releaseMetadata, jstr]
    have hledger : ledgerState ∈ ["active", "uncertain", "prepared"].map pyStr := by
      have hstate : ledgerState =
          PyConvert.lower F (Decision.strip (pyStr r.outcome.ledgerState)) := by
        simp [ledgerState, metadata, enforcementJson, getKey, asDict, r.release, releaseMetadata, jstr]
      rw [hstate]
      have hstates := r.ledgerState
      simp only [List.mem_cons, List.not_mem_nil, or_false] at hstates
      rcases hstates with hcase | hcase | hcase <;>
      · rw [hcase, lower_small (by decide +kernel)]
        decide +kernel
    rw [if_pos ⟨Or.inl rfl, htaskId ▸ htask, hledger⟩] at hrelease
    obtain ⟨date, -, hpair⟩ := bind_eq_ok hrelease
    exact (Prod.mk.inj (Except.ok.inj hpair)).1.symm.trans htaskId
  · have hsummary := hadapted.summary happlied
    rw [enforcement_coreEvent] at hsummary
    unfold providerExecutionSummary at hsummary
    obtain ⟨executedCount, -, hsummary⟩ := bind_eq_ok hsummary
    obtain ⟨failedCount, -, hsummary⟩ := bind_eq_ok hsummary
    rw [← Except.ok.inj hsummary]
    simp [getStr, getKey, mapping?, asDict, enforcementJson, r.release]

/-! ## 6. Reconciliation -/

omit [PyFloat F] [PyRepr F] [PyConvert F] [PyDate F] [PyCase F] in
/-- A receipt stays one when its names stay. -/
theorem make_of_made {r r' : ActionExecutionReceipt F} (h : r.make = .ok r)
    (hnames : [r'.incidentId, r'.decisionId, r'.actionId, r'.executionId, r'.actionKind, r'.provider,
      r'.requestedAt] = [r.incidentId, r.decisionId, r.actionId, r.executionId, r.actionKind,
      r.provider, r.requestedAt]) (hlifecycle : r'.lifecycle ≠ .superseded) : r'.make = .ok r' := by
  unfold ActionExecutionReceipt.make at h ⊢
  rw [hnames]
  split at h
  · cases h
  · rename_i hblank
    rw [if_neg hblank, if_neg fun hno => hlifecycle hno.1]

omit [PyFloat F] [PyRepr F] [PyConvert F] [PyDate F] [PyCase F] in
theorem make_of_made' {m m' : AppliedMechanism F} (h : m.make = .ok m)
    (hids : m'.mechanismId = m.mechanismId ∧ m'.executionId = m.executionId ∧
      m'.decisionId = m.decisionId) (hdate : m'.observedAt ≠ []) : m'.make = .ok m' := by
  unfold AppliedMechanism.make at h ⊢
  rw [hids.1, hids.2.1, hids.2.2]
  split at h
  · cases h
  · rename_i hmissing
    rw [if_neg]
    rintro (h | h | h | h)
    · exact hmissing (Or.inl h)
    · exact hmissing (Or.inr (Or.inl h))
    · exact hmissing (Or.inr (Or.inr (Or.inl h)))
    · exact hdate h

omit [PyCase F] [PyDate F] in
theorem reconcile_eq [PyChars] {execution : ActionExecutionReceipt F} {mechanism : AppliedMechanism F}
    {release : ReleaseEvidenceRecord F} {expected : Ownership} {probe observedOwner : Row F}
    (hdecision : execution.decisionId = release.decisionId)
    (hmechanism : mechanism.decisionId = release.decisionId)
    (hexecution : execution.executionId = mechanism.executionId)
    (haction : PyConvert.lower F execution.actionKind = release.actionKind)
    (hmarked : expectedOwnership execution = .ok (some expected))
    (hidentity : validateProviderReleaseIdentity execution release = .ok ())
    (howner : expected = releaseOwnership release)
    (hprobe : mapping? (getStr "postcondition_probe" mechanism.observedParameters) = some probe)
    (hobserved : mapping? (getStr "ownership" probe) = some observedOwner)
    (hkind : strOr (getStr "kind" observedOwner) = expected.kind)
    (hvalue : strOr (getStr "value" observedOwner) = expected.token)
    (hreleased : release.status = .released) (hverified : isVerified release.postcondition = true)
    (happlied : execution.status = .applied) (hactive : execution.lifecycle = .active)
    (hseen : mechanism.status = .observed) :
    reconcileReleaseEvidence execution mechanism release =
      endRecords execution mechanism release expected := by
  unfold reconcileReleaseEvidence
  rw [if_neg (by simp [hdecision, hmechanism]), if_neg (by simp [hexecution]),
    if_neg (by simp [haction]), hmarked]
  simp only [bind, Except.bind, hidentity]
  rw [if_neg (by simp [howner]), hprobe]
  simp only [hobserved]
  rw [if_neg (by simp [hkind, hvalue]),
    if_neg (by simp [hreleased, hverified, happlied, hactive, hseen])]

omit [PyCase F] [PyDate F] in
/-- What reconciliation has looked at before it accepts a release. -/
theorem reconcile_eq_ok [PyChars] {execution : ActionExecutionReceipt F}
    {mechanism : AppliedMechanism F} {release : ReleaseEvidenceRecord F} {expected : Ownership}
    {records : ActionExecutionReceipt F × AppliedMechanism F}
    (hmarked : expectedOwnership execution = .ok (some expected))
    (h : reconcileReleaseEvidence execution mechanism release = .ok records) :
    execution.decisionId = release.decisionId ∧
      validateProviderReleaseIdentity execution release = .ok () := by
  unfold reconcileReleaseEvidence at h
  obtain ⟨hdecision, h⟩ := guard_eq_ok.mp h
  obtain ⟨-, h⟩ := guard_eq_ok.mp h
  obtain ⟨-, h⟩ := guard_eq_ok.mp h
  rw [hmarked] at h
  obtain ⟨owner, howner, h⟩ := bind_eq_ok h
  obtain rfl := Except.ok.inj howner
  obtain ⟨_, hidentity, -⟩ := bind_eq_ok h
  exact ⟨by simpa using fun hne => hdecision (Or.inl hne), hidentity⟩

section Reconcile

variable [PyChars] [PyEpochs F] {digest : PyStr → PyStr} {tasks : List ReleaseTask}
  {task : ReleaseTask} {nowEpoch : Epoch} {outcome : ReleaseOutcome} {fixed6 : F → PyStr}
  {execution : ActionExecutionReceipt F} {mechanism : AppliedMechanism F}
  {members : List (String × Json)} {observedAt : PyStr}

omit [PyConvert F] [PyCase F] [PyEpochs F] [PyChars] in
/-- The metadata of a task's record against the record of its release. -/
theorem validateIdentity_iff {release : ReleaseEvidenceRecord F} {state : String} {metadata : Row F}
    (hmetadata : mapping? (getStr "metadata" execution.appliedParameters) =
      some (releaseMetadata (some task) state ++ metadata)) :
    validateProviderReleaseIdentity execution release = .ok () ↔
      execution.releaseRef = release.releaseTaskId ∧ pyStr task.taskId = release.releaseTaskId ∧
      pyStr task.ownerToken = release.ownerToken ∧ pyStr task.resourceKey = release.resourceKey ∧
      (release.actionKind = pyStr "throttle" → pyStr task.tcHandle = release.tcHandle) ∧
      (release.actionKind ≠ pyStr "throttle" → pyStr task.tcHandle = []) := by
  have hget : ∀ (key s : String), getKey (pyStr key) (releaseMetadata (some task) state : Row F) =
      some (jstr s) → strOr (getStr key (releaseMetadata (some task) state ++ metadata)) = pyStr s := by
    intro key s hkey
    rw [getStr, getKey_append, hkey]
    exact strOr_str _
  have htask := hget "release_task_id" task.taskId (by simp [releaseMetadata, getKey])
  have howner := hget "release_owner_token" task.ownerToken (by simp [releaseMetadata, getKey])
  have hresource := hget "release_resource_key" task.resourceKey (by simp [releaseMetadata, getKey])
  have hhandle := hget "release_tc_handle" task.tcHandle (by simp [releaseMetadata, getKey])
  unfold validateProviderReleaseIdentity
  rw [guard_eq_ok, hmetadata]
  simp only [guard_eq_ok, check_eq_ok, htask, howner, hresource, hhandle, ne_eq, not_and, not_not]

/-- The ids of a task that its records and its release must agree on. -/
def idsOf (task : ReleaseTask) : List String := [task.taskId, task.traceId, task.resourceKey]

omit [PyEpochs F] in
theorem reconcile_of_trimmed (h : Emitted tasks task nowEpoch outcome)
    (hvalid : validateTask task = .ok ()) (hreadable : Readable F tasks task nowEpoch)
    (htrimmed : ∀ id ∈ idsOf task, Decision.strip (pyStr id) = pyStr id)
    (hpost : outcome.postcondition = .obj members) (hreleased : outcome.status = .released)
    (hdate : observedAt ≠ []) (hbelongs : Belongs digest task execution mechanism) :
    ∃ execution' mechanism', reconcileReleaseEvidence execution mechanism
        (recordOf fixed6 outcome members observedAt) = .ok (execution', mechanism') ∧
      execution'.status = .released ∧ mechanism'.status = .released := by
  obtain ⟨-, -, htoken, -⟩ := validateTask_ok hvalid
  obtain ⟨hstrip, -⟩ := ownerToken_text htoken
  obtain ⟨members', hpost', hverified⟩ := h.postcondition
  obtain rfl : members' = members := by
    rw [hpost] at hpost'
    exact (Json.obj.inj hpost').symm
  obtain ⟨bundle, ⟨r⟩, rfl, hexecutionId, hdecisionId⟩ := hbelongs.record
  obtain ⟨probe, hprobe, howner⟩ := hbelongs.owner
  have hnamed := hreadable.named
  have htaskId : Decision.strip (pyStr task.taskId) = pyStr task.taskId := htrimmed _ (by simp [idsOf])
  have htraceId : Decision.strip (pyStr task.traceId) = pyStr task.traceId :=
    htrimmed _ (by simp [idsOf])
  have hresource : Decision.strip (pyStr task.resourceKey) = pyStr task.resourceKey :=
    htrimmed _ (by simp [idsOf])
  have htrace : pyStr task.traceId ≠ [] := htraceId ▸ hnamed _ (by simp)
  obtain ⟨hkind, hdecision, hreleaseRef, hmetadata⟩ := receipt_of_record r htrace
    (hnamed _ (by simp)) hbelongs.applied
  have hadapted := fromRustEvent_adapted r.made
  have hstatus : (recordOf fixed6 outcome members' observedAt).status = .released := by
    rw [recordOf, hreleased]
  have hmarker : markerOf task = releaseOwnership (recordOf fixed6 outcome members' observedAt) := by
    simp only [markerOf, releaseOwnership, recordOf, h.action, h.tcHandle, h.ownerToken, hstrip]
    by_cases haction : task.action = .throttle
    · have hlegacy : isLegacyTcThrottle task = true := by
        simp [isLegacyTcThrottle, haction, hreadable.throttle haction]
      simp [hlegacy, haction, Release.Action.asStr]
    · have hlegacy : isLegacyTcThrottle task = false := by simp [isLegacyTcThrottle, haction]
      have hother : ¬ task.action.asStr = "throttle" := by
        cases hcase : task.action <;> simp [Release.Action.asStr, hcase] at haction ⊢
      simp [hlegacy, hother]
  have hidentity : validateProviderReleaseIdentity bundle.execution
      (recordOf fixed6 outcome members' observedAt) = .ok () := by
    refine (validateIdentity_iff hmetadata).mpr ⟨?_, ?_, ?_, ?_, ?_, ?_⟩
    · rw [hreleaseRef, recordOf, h.taskId]
    · rw [recordOf, h.taskId, htaskId]
    · rw [recordOf, h.ownerToken, hstrip]
    · rw [recordOf, h.resourceKey, hresource]
    · intro _
      rw [recordOf, h.tcHandle]
    · intro hother
      rw [hreadable.handle fun haction => hother (by rw [recordOf, h.action, haction]; rfl)]
      rfl
  have heq := reconcile_eq
    (by rw [hdecision, recordOf, h.traceId, htraceId])
    (by rw [hdecisionId, hadapted.ids.1, hdecision, recordOf, h.traceId, htraceId])
    (by rw [hexecutionId, hadapted.ids.2])
    (by rw [hkind, recordOf, h.action, lower_small (by cases task.action <;> decide +kernel)])
    hbelongs.marked hidentity hmarker (by rw [hprobe]; rfl) (by rw [howner]; rfl)
    (by simp [getStr, getKey]) (by simp [getStr, getKey]) hstatus
    (by rw [recordOf, isVerified, getStr_ofMembers, hverified hreleased]; rfl)
    hbelongs.applied (by rw [hadapted.lifecycle, hbelongs.applied]; rfl) hbelongs.observed
  rw [heq]
  refine ⟨_, _, ok_of_bind (make_of_made hadapted.made rfl fun h => by cases h)
    (ok_of_bind (make_of_made' hbelongs.made ⟨rfl, rfl, rfl⟩ hdate) rfl), rfl, rfl⟩

omit [PyEpochs F] in
/-- A release that ends the records of its task has the ids as the task has them. -/
theorem trimmed_of_reconcile (h : Emitted tasks task nowEpoch outcome)
    (hreadable : Readable F tasks task nowEpoch)
    (hbelongs : Belongs digest task execution mechanism)
    {records : ActionExecutionReceipt F × AppliedMechanism F}
    (hok : reconcileReleaseEvidence execution mechanism
      (recordOf fixed6 outcome members observedAt) = .ok records) :
    ∀ id ∈ idsOf task, Decision.strip (pyStr id) = pyStr id := by
  have hnamed := hreadable.named
  have htrace : pyStr task.traceId ≠ [] := fun hnil => hnamed task.traceId (by simp) (by rw [hnil]; rfl)
  obtain ⟨bundle, ⟨r⟩, rfl, -, -⟩ := hbelongs.record
  obtain ⟨-, hdecision, -, hmetadata⟩ := receipt_of_record r htrace (hnamed _ (by simp))
    hbelongs.applied
  obtain ⟨hsame, hidentity⟩ := reconcile_eq_ok hbelongs.marked hok
  obtain ⟨-, htaskId, -, hresource, -, -⟩ := (validateIdentity_iff hmetadata).mp hidentity
  intro id hid
  simp only [idsOf, List.mem_cons, List.not_mem_nil, or_false] at hid
  rcases hid with rfl | rfl | rfl
  · rw [recordOf, h.taskId] at htaskId
    exact htaskId.symm
  · rw [hdecision, recordOf, h.traceId] at hsame
    exact hsame.symm
  · rw [recordOf, h.resourceKey] at hresource
    exact hresource.symm

end Reconcile

end Records

/-! ## 7. A release that happens -/

/-- A chain, or a ruleset, without rules. -/
def noRules : Reply := .ok ⟨0, .ok (.obj [("nftables", .arr [])]), ""⟩

/-- A device without qdiscs, and a deletion that was done. -/
def noQdiscs : Reply := .ok ⟨0, .ok (.arr []), ""⟩

/-- Connections that end, or that there are none of. -/
theorem cleared_run (task : ReleaseTask) :
    ∃ replies connections, (clearRedirectConnections task).run replies = some connections ∧
      connectionsCleared connections = true := by
  unfold clearRedirectConnections
  split
  · exact ⟨[], _, rfl, by decide⟩
  · split
    · exact ⟨[noRules, noQdiscs], "cleared", rfl, by decide⟩
    · exact ⟨[noQdiscs], "cleared", rfl, by decide⟩

theorem released_nftRule (task : ReleaseTask) (chain : String) (nowEpoch : Epoch) :
    ∃ replies outcome, (releaseNftRule task chain nowEpoch).run replies = some (.ok outcome) ∧
      outcome.status = .released := by
  obtain ⟨replies, connections, hrun, hcleared⟩ := cleared_run task
  have hlisted : (nftOwnedRules task chain).run [noRules] = some (.ok []) := rfl
  refine ⟨[noRules] ++ replies, ruleAbsentOutcome task nowEpoch "owned_state_already_absent" 0 0
    connections, ?_, ?_⟩
  · unfold releaseNftRule
    rw [Prog.run_bind hlisted, Prog.run_map, hrun]
    rfl
  · rw [ruleAbsentOutcome, if_pos hcleared]
    rfl

/-- A lease whose rule or qdisc is gone is released. -/
theorem released_ownedState {task : ReleaseTask} (nowEpoch : Epoch)
    (hmechanism : validateMechanism task = .ok ()) :
    ∃ replies outcome, (releaseOwnedState task nowEpoch).run replies = some (.ok outcome) ∧
      outcome.status = .released := by
  unfold releaseOwnedState
  split
  · exact ⟨[noQdiscs], _, rfl, rfl⟩
  · rename_i hlegacy
    split
    · exact released_nftRule task _ nowEpoch
    · rename_i hchain
      exfalso
      cases haction : task.action <;> cases hmech : task.mechanism <;>
        simp [ownedNftChain, isLegacyTcThrottle, validateMechanism, haction, hmech] at *

theorem released_attempt {now : LeaseNow} {audit : StartAudit} {ledger : ReleaseLedger}
    {task : ReleaseTask} {clock : ExpiryClock} (hmechanism : validateMechanism task = .ok ())
    (hyields : ¬ Yields ledger.tasks task) :
    ∃ replies result outcome, (attemptRelease now audit ledger task clock).run replies = some result ∧
      outcome ∈ result.2 ∧ outcome.status = .released := by
  obtain ⟨replies, outcome, hrun, hreleased⟩ := released_ownedState now.wallEpoch hmechanism
  unfold attemptRelease
  rw [yieldToNewer_none_iff.mpr hyields]
  exact ⟨replies, _, _, (Prog.run_map _ _ _).trans (congrArg (Option.map _) hrun),
    List.mem_singleton.mpr rfl, hreleased⟩

/-- **An attempt emits an outcome.** -/
theorem emits_attempt {now : LeaseNow} {audit : StartAudit} {ledger : ReleaseLedger}
    {task : ReleaseTask} {clock : ExpiryClock} (hmechanism : validateMechanism task = .ok ()) :
    ∃ replies result outcome, (attemptRelease now audit ledger task clock).run replies = some result ∧
      outcome ∈ result.2 := by
  by_cases hyields : Yields ledger.tasks task
  · unfold attemptRelease
    cases hcase : yieldToNewer ledger.tasks task now with
    | none => exact absurd hyields (yieldToNewer_none_iff.mp hcase)
    | some yielded => exact ⟨[], _, _, rfl, List.mem_singleton.mpr rfl⟩
  · obtain ⟨replies, result, outcome, hrun, hmem, -⟩ := released_attempt hmechanism hyields
    exact ⟨replies, result, outcome, hrun, hmem⟩

/-! ## 8. Records that belong to a task -/

theorem strip_ne_nil {s : PyStr} {c : CodePoint} (hc : c ∈ s) (hsolid : Decision.isSpace c = false) :
    Decision.strip s ≠ [] := by
  have hkeep : ∀ s : PyStr, c ∈ s → c ∈ s.dropWhile Decision.isSpace := by
    intro s hc
    induction s with
    | nil => cases hc
    | cons d s ih =>
      rw [List.dropWhile_cons]
      split
      · rename_i hd
        rcases List.mem_cons.mp hc with rfl | hc
        · rw [hsolid] at hd
          cases hd
        · exact ih hc
      · exact hc
  have hmem : c ∈ Decision.strip s := by
    rw [Decision.strip, List.mem_reverse]
    exact hkeep _ (List.mem_reverse.mpr (hkeep _ hc))
  exact List.ne_nil_of_mem hmem

/-- An id is more than blanks. -/
theorem stableId_named (digest : PyStr → PyStr) (start : String) (parts : List PyStr) :
    Decision.strip (stableId digest start parts) ≠ [] :=
  strip_ne_nil (c := 45) (by simp [stableId, pyStr]) (by decide)

/-- A command that carries a task's marker. -/
def markedCommand (task : ReleaseTask) : String :=
  " ".intercalate (if isLegacyTcThrottle task then
    ["tc", "qdisc", "replace", "root", "handle", task.tcHandle, "tbf"]
  else ["nft", "comment", task.ownerToken])

/-- The record of a task whose command was applied. -/
def markedOutcome (task : ReleaseTask) : EnforcementOutcome where
  mode := "enforced"
  traceId := task.traceId
  selectedAction := task.action.asStr
  target := ""
  policyReason := ""
  commandPlan := [markedCommand task]
  rollbackPlan := []
  executedCount := 1
  failedCount := 0
  errors := []
  result := "applied"
  release := some task
  ledgerState := "active"

def markedEvent (task : ReleaseTask) : Row F :=
  coreEvent ⟨"2023-11-14T22:13:20Z", "", "", 0, 0, "", 0⟩ ⟨task.action.asStr, "", "", 0, ""⟩
    (markedOutcome task) []

section Marked

variable [PyCase F] [PyEpochs F] {task : ReleaseTask} (digest : PyStr → PyStr)

omit [PyEpochs F] in
theorem marked_status : executionStatus (enforcementJson (markedOutcome task) [] : Row F)
    (pyStr task.action.asStr) = .ok .applied := by
  have hmode : PyConvert.lower F (strGet "mode" (enforcementJson (markedOutcome task) [] : Row F)) =
      pyStr "enforced" := by
    have hget : strGet "mode" (enforcementJson (markedOutcome task) [] : Row F) = pyStr "enforced" := by
      simp [strGet, enforcementJson, markedOutcome, getKey, jstr, strOf]
    rw [hget]
    exact lower_small (by decide +kernel)
  have hresult : PyConvert.lower F
      (strGet "result" (enforcementJson (markedOutcome task) [] : Row F)) = pyStr "applied" := by
    have hget : strGet "result" (enforcementJson (markedOutcome task) [] : Row F) = pyStr "applied" := by
      simp [strGet, enforcementJson, markedOutcome, getKey, jstr, strOf]
    rw [hget]
    exact lower_small (by decide +kernel)
  have hfailed : intOr0 (getKey (pyStr "failed_count") (enforcementJson (markedOutcome task) [] : Row F)) =
      some 0 := by
    simp [enforcementJson, markedOutcome, getKey]
  have hexecuted : intOr0 (getKey (pyStr "executed_count")
      (enforcementJson (markedOutcome task) [] : Row F)) = some 1 := by
    simp [enforcementJson, markedOutcome, getKey]
  unfold executionStatus
  simp only [hmode, hresult, hfailed, hexecuted, orRaise, bind, Except.bind]
  cases task.action <;> simp [Release.Action.asStr, disruptiveActions, pure, Except.pure]

omit [PyCase F] [PyEpochs F] in
theorem marked_summary : ∃ summary,
    providerExecutionSummary (enforcementJson (markedOutcome task) [] : Row F) = .ok summary := by
  unfold providerExecutionSummary
  have hfailed : intOr0 (getKey (pyStr "failed_count") (enforcementJson (markedOutcome task) [] : Row F)) =
      some 0 := by
    simp [enforcementJson, markedOutcome, getKey]
  have hexecuted : intOr0 (getKey (pyStr "executed_count")
      (enforcementJson (markedOutcome task) [] : Row F)) = some 1 := by
    simp [enforcementJson, markedOutcome, getKey]
  rw [hfailed, hexecuted]
  exact ⟨_, rfl⟩

omit [PyCase F] in
/-- A date for the release, when its epoch has one. -/
theorem marked_release {rollbackPlan : List PyStr} (hdue : 0 ≤ task.dueEpoch)
    (hdated : (PyDate.isoTimestamp (PyDate.ofEpoch task.dueEpoch : F)).isSome = true) :
    ∃ ref expiresAt, releaseFields (enforcementJson (markedOutcome task) [] : Row F) .applied
      rollbackPlan = .ok (ref, expiresAt) := by
  obtain ⟨date, hdate⟩ := Option.isSome_iff_exists.mp hdated
  have hget : getKey (pyStr "release_due_epoch") (asDict (getKey (pyStr "metadata")
      (enforcementJson (markedOutcome task) [] : Row F))) =
        some (.float (PyDate.ofEpoch task.dueEpoch)) := by
    simp [enforcementJson, markedOutcome, getKey, asDict, releaseMetadata]
  have hiso : epochIso (getKey (pyStr "release_due_epoch") (asDict (getKey (pyStr "metadata")
      (enforcementJson (markedOutcome task) [] : Row F)))) = .ok date := by
    have hbad : ¬ (PyDate.isFinite (PyDate.ofEpoch task.dueEpoch : F) = false ∨
        PyFloat.lt (.inr (PyDate.ofEpoch task.dueEpoch : F)) (.inr (lit "0.0")) = true) := by
      simp [PyEpochs.finite, PyEpochs.nonneg task.dueEpoch hdue]
    rw [hget]
    simp [epochIso, toFloat, hbad, hdate, orRaise]
  unfold releaseFields
  extract_lets metadata taskId ledgerState held mode result
  split
  · exact ⟨_, _, ok_of_bind hiso rfl⟩
  · split
    · exact ⟨_, _, ok_of_bind hiso rfl⟩
    · split
      · exact ⟨_, _, rfl⟩
      · exact ⟨_, _, rfl⟩

/-- **A record of the task is accepted by the adapter.** -/
theorem marked_accepted (hnamed : Decision.strip (pyStr task.traceId) ≠ []) (hdue : 0 ≤ task.dueEpoch)
    (hdated : (PyDate.isoTimestamp (PyDate.ofEpoch task.dueEpoch : F)).isSome = true) :
    ∃ bundle, fromRustEvent digest (markedEvent task : Row F) = .ok bundle := by
  have hkind : actionKind (markedEvent task : Row F) = pyStr task.action.asStr :=
    actionKind_coreEvent rfl (by cases task.action <;> decide) (by cases task.action <;> decide +kernel)
  obtain ⟨summary, hsummary⟩ := (@marked_summary F _ _ _ _ task)
  obtain ⟨ref, expiresAt, hrelease⟩ := (@marked_release F _ _ _ _ _ _ []) hdue hdated
  have henforcement : asDict (getKey (pyStr "enforcement") (markedEvent task : Row F)) =
      enforcementJson (markedOutcome task) [] := enforcement_coreEvent
  have hcommands : stringsOf (getKey (pyStr "command_plan")
      (enforcementJson (markedOutcome task) [] : Row F)) = .ok [pyStr (markedCommand task)] :=
    commands_coreEvent
  have hrollback : stringsOf (getKey (pyStr "rollback_plan")
      (enforcementJson (markedOutcome task) [] : Row F)) = .ok [] := by
    simp [enforcementJson, markedOutcome, getKey, stringsOf]
  have htrace : strOr (getKey (pyStr "trace_id") (enforcementJson (markedOutcome task) [] : Row F)) =
      pyStr task.traceId := by
    simp [enforcementJson, markedOutcome, getKey, jstr]
  have hts : strOr (getKey (pyStr "ts") (asDict (getKey (pyStr "normalized")
      (markedEvent task : Row F)))) = pyStr "2023-11-14T22:13:20Z" := by
    simp [markedEvent, coreEvent, getKey, asDict, jstr]
  cases hcase : fromRustEvent digest (markedEvent task : Row F) with
  | ok bundle => exact ⟨bundle, rfl⟩
  | error e =>
    exfalso
    unfold fromRustEvent at hcase
    extract_lets normalized defense enforcement traceId ts srcIp dstIp sid action decisionId incidentId
      actionId executionId mechanismId provider evidenceRef errorCode records dated at hcase
    have hobjects : ¬ (normalized = [] ∨ defense = [] ∨ enforcement = []) := by
      simp [normalized, defense, enforcement, markedEvent, coreEvent, enforcementJson, getKey, asDict]
    have hts' : ts = pyStr "2023-11-14T22:13:20Z" := hts
    have henf : enforcement = enforcementJson (markedOutcome task) [] := henforcement
    have hact : action = pyStr task.action.asStr := hkind
    have hdecision : decisionId = pyStr task.traceId := by
      have htraceId : traceId = pyStr task.traceId := by
        simp only [traceId, henf]
        exact htrace
      simp only [decisionId, htraceId]
      rw [if_neg fun hnil => hnamed (by rw [hnil]; rfl)]
    have hincident : Decision.strip incidentId ≠ [] := stableId_named _ _ _
    have hactionId : Decision.strip actionId ≠ [] := stableId_named _ _ _
    have hexecutionId : Decision.strip executionId ≠ [] := stableId_named _ _ _
    have hmechanismId : Decision.strip mechanismId ≠ [] := stableId_named _ _ _
    have hprovider : provider = pyStr "rust_event_engine_v1" := by
      simp [provider, markedEvent, coreEvent, getKey, strOrDefault, jstr, truthy, strOf, pyStr]
    rw [if_neg hobjects] at hcase
    simp only [dated] at hcase
    rw [if_neg (by rw [hts']; decide)] at hcase
    simp only [records, henf, hcommands, hrollback, hact, marked_status, hsummary, hrelease, bind,
      Except.bind] at hcase
    have hdecisionId : Decision.strip decisionId ≠ [] := hdecision ▸ hnamed
    have hnil : ∀ value : PyStr, Decision.strip value ≠ [] → value ≠ [] := by
      rintro value hvalue rfl
      exact hvalue rfl
    have hts : Decision.strip ts ≠ [] := by
      rw [hts']
      decide +kernel
    have haction : Decision.strip (pyStr task.action.asStr) ≠ [] := by
      cases task.action <;> decide +kernel
    have hprovided : Decision.strip provider ≠ [] := by
      rw [hprovider]
      decide +kernel
    rw [ActionExecutionReceipt.make_ok] at hcase
    · simp only at hcase
      rw [AppliedMechanism.make_ok] at hcase
      · simp only at hcase
        rw [Correlation.make_ok] at hcase
        · cases hcase
        · simp [hincident, hdecisionId, hactionId, hexecutionId, hmechanismId]
      · simp [hnil _ hmechanismId, hnil _ hexecutionId, hnil _ hdecisionId, hnil _ hts]
    · simp [hincident, hdecisionId, hactionId, hexecutionId, haction, hprovided, hts]
    · intro h
      cases h
end Marked

/-- An owner token is one word. -/
theorem ownerToken_solid {token : String} (h : validOwnerToken token = true) :
    Solid Decision.isSpace (pyStr token) := by
  obtain ⟨-, hstart⟩ := ownerToken_text h
  simp only [validOwnerToken, Bool.and_eq_true, decide_eq_true_eq] at h
  refine ⟨?_, fun c hc => ?_⟩
  · rintro hnil
    rw [hnil] at hstart
    exact absurd hstart (by decide)
  · obtain ⟨d, hd, hdc⟩ := mem_pyStr.mp hc
    exact isSpace_tokenChar hdc (List.all_eq_true.mp h.2 d hd)

/-- An owner token of the core is one to Python. -/
theorem validToken_of_owner [PyChars] {token : String} (h : validOwnerToken token = true) :
    validToken (pyStr token) = true := by
  obtain ⟨-, hstart⟩ := ownerToken_text h
  simp only [validOwnerToken, Bool.and_eq_true, decide_eq_true_eq] at h
  obtain ⟨⟨-, hsize⟩, hchars⟩ := h
  have hlength : (pyStr token).length ≤ 96 := by
    rw [pyStr, List.length_map]
    exact (length_le_utf8ByteSize token).trans hsize
  simp only [validToken, Bool.and_eq_true, decide_eq_true_eq, hstart, hlength, true_and]
  refine List.all_eq_true.mpr fun c hc => ?_
  obtain ⟨d, hd, hdc⟩ := mem_pyStr.mp hc
  rcases tokenChar_cases (List.all_eq_true.mp hchars d hd) with halnum | hcolon | hdash
  · have hsmall : c.val < 128 := by
      simp only [isAsciiAlnum, isDigit, Bool.or_eq_true, Bool.and_eq_true, decide_eq_true_eq] at halnum
      omega
    rw [PyChars.isalnum_ascii c hsmall, ← hdc, halnum]
    rfl
  · simp [← hdc, hcolon]
  · simp [← hdc, hdash]

/-- A handle of the core is one word. -/
theorem tcHandle_solid {handle : String} (h : validTcHandle handle = true) :
    Solid Decision.isSpace (pyStr handle) := by
  simp only [validTcHandle, Bool.and_eq_true, decide_eq_true_eq] at h
  obtain ⟨⟨⟨hlast, hraw⟩, -⟩, hnumber⟩ := h
  have hdigit : ∀ d : Char, (IpAddr.digitValue 16 d).isSome = true →
      Decision.isSpace (Fin.ofNat 0x110000 d.toNat) = false := by
    intro d hd
    obtain ⟨n, hn⟩ := Option.isSome_iff_exists.mp hd
    have hhex := hexVal_of_digitValue hn
    simp only [Decision.isSpace, decide_eq_false_iff_not]
    unfold hexVal at hhex
    split_ifs at hhex with h₁ h₂ h₃
    · omega
    · omega
    · omega
  have hsplit : handle.toList = handle.toList.dropLast ++ [':'] := by
    obtain ⟨init, hinit⟩ := List.getLast?_eq_some_iff.mp hlast
    rw [hinit, List.dropLast_concat]
  have hchars : ∀ d ∈ handle.toList.dropLast,
      Decision.isSpace (Fin.ofNat 0x110000 d.toNat) = false := by
    split at hnumber
    · rename_i n hread
      obtain ⟨read, hall, hdigits⟩ := IpAddr.readNumber_split hread
      rw [List.append_nil] at hall
      intro d hd
      cases hcase : handle.toList.dropLast with
      | nil => exact absurd hcase hraw
      | cons c cs =>
        rw [hcase] at hd hall
        by_cases hplus : c = '+'
        · subst hplus
          rcases List.mem_cons.mp hd with rfl | hd
          · decide
          · have hcs : cs = read := hall
            exact hdigit d (hdigits d (hcs ▸ hd))
        · have hsame : dropPlus (c :: cs) = c :: cs := by
            unfold dropPlus
            split
            · rename_i heq
              exact absurd (List.cons.inj heq).1 hplus
            · rfl
          rw [hsame] at hall
          exact hdigit d (hdigits d (hall ▸ hd))
    · cases hnumber
  constructor
  · rw [pyStr, hsplit]
    simp
  · intro c hc
    rw [pyStr, hsplit, List.map_append] at hc
    rcases List.mem_append.mp hc with hc | hc
    · obtain ⟨d, hd, rfl⟩ := List.mem_map.mp hc
      exact hchars d hd
    · obtain rfl := List.mem_singleton.mp hc
      decide

/-- The words of a command that carries a marker. -/
theorem ownersOf_marked [PyChars] {task : ReleaseTask} (hvalid : validateTask task = .ok ()) :
    ownersOf [pyStr (markedCommand task)] = .ok [markerOf task] := by
  obtain ⟨-, -, htoken, hmechanism⟩ := validateTask_ok hvalid
  by_cases hlegacy : isLegacyTcThrottle task = true
  · have htc : validTcHandle task.tcHandle = true := by
      simp only [isLegacyTcThrottle, Bool.and_eq_true, decide_eq_true_eq] at hlegacy
      rw [validateMechanism, hlegacy.1, hlegacy.2] at hmechanism
      simp only at hmechanism
      split at hmechanism
      · cases hmechanism
      · rename_i hok
        simpa using fun hbad => hok (Or.inr hbad)
    have hsolid := tcHandle_solid htc
    have hwords : split (pyStr (markedCommand task)) =
        ["tc", "qdisc", "replace", "root", "handle", task.tcHandle, "tbf"].map pyStr := by
      rw [markedCommand, if_pos hlegacy, pyStr_intercalate]
      refine split_joinSpace fun word hword => ?_
      simp only [List.map_cons, List.map_nil, List.mem_cons, List.not_mem_nil, or_false] at hword
      rcases hword with rfl | rfl | rfl | rfl | rfl | rfl | rfl
      · exact solid_of_all (by decide +kernel)
      · exact solid_of_all (by decide +kernel)
      · exact solid_of_all (by decide +kernel)
      · exact solid_of_all (by decide +kernel)
      · exact solid_of_all (by decide +kernel)
      · exact hsolid
      · exact solid_of_all (by decide +kernel)
    have hhandle : handleOwner (["tc", "qdisc", "replace", "root", "handle", task.tcHandle,
        "tbf"].map pyStr) = .ok [.tcHandle (pyStr task.tcHandle)] := by
      simp [handleOwner, validHandle_of_tc htc]
    rw [ownersOf, hwords, hhandle, markerOf, if_pos hlegacy]
    rfl
  · have hwords : split (pyStr (markedCommand task)) = ["nft", "comment", task.ownerToken].map pyStr := by
      rw [markedCommand, if_neg hlegacy, pyStr_intercalate]
      refine split_joinSpace fun word hword => ?_
      simp only [List.map_cons, List.map_nil, List.mem_cons, List.not_mem_nil, or_false] at hword
      rcases hword with rfl | rfl | rfl
      · exact solid_of_all (by decide +kernel)
      · exact solid_of_all (by decide +kernel)
      · exact ownerToken_solid htoken
    have hcomment : commentOwner (["nft", "comment", task.ownerToken].map pyStr) =
        .ok [.nftComment (pyStr task.ownerToken)] := by
      simp [commentOwner, validToken_of_owner htoken]
    have hhandle : handleOwner (["nft", "comment", task.ownerToken].map pyStr) = .ok [] := by
      simp [handleOwner]
    rw [ownersOf, hwords, hhandle, hcomment, markerOf, if_neg hlegacy]
    rfl

/-- **There are records that belong to a task**, and an observed mechanism of them. -/
theorem exists_belongs [PyCase F] [PyEpochs F] [PyChars] (digest : PyStr → PyStr) {task : ReleaseTask}
    (hvalid : validateTask task = .ok ()) (hnamed : Decision.strip (pyStr task.traceId) ≠ [])
    (hdated : (PyDate.isoTimestamp (PyDate.ofEpoch task.dueEpoch : F)).isSome = true) :
    ∃ (execution : ActionExecutionReceipt F) (mechanism : AppliedMechanism F),
      Belongs digest task execution mechanism := by
  obtain ⟨htimes, -, -, -⟩ := validateTask_ok hvalid
  obtain ⟨bundle, hbundle⟩ := marked_accepted (F := F) digest hnamed
    (htimes _ (by simp [ReleaseTask.times])) hdated
  have hadapted := fromRustEvent_adapted hbundle
  have hkind : actionKind (markedEvent task : Row F) = pyStr task.action.asStr :=
    actionKind_coreEvent rfl (by cases task.action <;> decide) (by cases task.action <;> decide +kernel)
  have henforcement : asDict (getKey (pyStr "enforcement") (markedEvent task : Row F)) =
      enforcementJson (markedOutcome task) [] := enforcement_coreEvent
  have hstatus : bundle.execution.status = .applied := by
    have hread := hadapted.status
    rw [henforcement, hkind, marked_status] at hread
    exact (Except.ok.inj hread).symm
  have hcommands : requestedCommands bundle.execution = [pyStr (markedCommand task)] := by
    have hread := hadapted.commands
    rw [henforcement] at hread
    exact Except.ok.inj (hread.symm.trans commands_coreEvent)
  refine ⟨bundle.execution,
    { bundle.mechanism with
      status := .observed
      observedParameters :=
        [(pyStr "postcondition_probe", .obj [(pyStr "ownership", (markerOf task).value)])] }, ?_⟩
  exact
    { record := ⟨bundle, ⟨⟨_, _, markedOutcome task, [], rfl, rfl, rfl, by simp [markedOutcome],
        hbundle⟩⟩, rfl, rfl, rfl⟩
      applied := hstatus
      marked := by
        rw [expectedOwnership, hcommands, ownersOf_marked hvalid]
        rfl
      observed := rfl
      owner := ⟨[(pyStr "ownership", (markerOf task).value)], by simp [getStr, getKey],
        by simp [getStr, getKey]⟩
      made := make_of_made' hadapted.mechanismMade ⟨rfl, rfl, rfl⟩ (by
        have hmade := hadapted.mechanismMade
        unfold AppliedMechanism.make at hmade
        split at hmade
        · cases hmade
        · rename_i hmissing
          exact fun hnil => hmissing (Or.inr (Or.inr (Or.inr hnil)))) }

/-! ## 9. Which releases are followed -/

section Followed

variable [PyCase F] [PyEpochs F] [PyChars]

/-- An outcome is accepted, and when it is a release, it ends every receipt and mechanism of its
task. -/
def Followed (fixed6 : F → PyStr) (digest : PyStr → PyStr) (task : ReleaseTask)
    (enforcementStatus : PyJson F) (outcome : ReleaseOutcome) : Prop :=
  ∃ record, fromRustReleaseEvent fixed6 (releaseEvent outcome enforcementStatus) = .ok record ∧
    (outcome.status = .released → ∀ execution mechanism, Belongs digest task execution mechanism →
      ∃ execution' mechanism', reconcileReleaseEvidence execution mechanism record =
          .ok (execution', mechanism') ∧
        execution'.status = .released ∧ mechanism'.status = .released)

/-- **Every outcome of a task's releases is followed downstream exactly when it can be read, and,
where a release can happen, the ids of the task have no blanks around them.** -/
theorem followed_iff (fixed6 : F → PyStr) (digest : PyStr → PyStr) (task : ReleaseTask)
    (enforcementStatus : PyJson F) (now : LeaseNow) (audit : StartAudit) (ledger : ReleaseLedger)
    (clock : ExpiryClock) (hvalid : validateTask task = .ok ()) (hnow : 0 ≤ now.wallEpoch) :
    Prog.Ensures (fun result => ∀ outcome ∈ result.2,
        Followed fixed6 digest task enforcementStatus outcome)
      (attemptRelease now audit ledger task clock) ↔
      Readable F ledger.tasks task now.wallEpoch ∧
        (¬ Yields ledger.tasks task →
          ∀ id ∈ idsOf task, Decision.strip (pyStr id) = pyStr id) := by
  obtain ⟨htimes, -, -, hmechanism⟩ := validateTask_ok hvalid
  have hemitted := emitted_attemptRelease now audit ledger task clock
  constructor
  · intro hfollowed
    obtain ⟨replies, result, outcome, hrun, hmem⟩ := emits_attempt hmechanism
    obtain ⟨record, hrecord, -⟩ := hfollowed.run hrun outcome hmem
    have hreadable : Readable F ledger.tasks task now.wallEpoch :=
      (accepted_iff (hemitted.run hrun outcome hmem) hvalid hnow).mp ⟨record, hrecord⟩
    refine ⟨hreadable, fun hyields => ?_⟩
    -- A release that happens meets records that belong to its task.
    obtain ⟨replies, result, outcome, hrun, hmem, hreleased⟩ := released_attempt hmechanism hyields
    have hout := hemitted.run hrun outcome hmem
    obtain ⟨members, observedAt, -, -, hread⟩ :=
      fromRust_of_readable enforcementStatus fixed6 hout hvalid hnow hreadable
    obtain ⟨record, hrecord, hends⟩ := hfollowed.run hrun outcome hmem
    obtain rfl := Except.ok.inj (hread.symm.trans hrecord)
    have hsuperseded : ¬ Superseded ledger.tasks task := fun ⟨hlegacy, newer, hnewer, hactive⟩ =>
      hyields ⟨hlegacy, newer, hnewer, Or.inl hactive⟩
    have hdated : (PyDate.isoTimestamp (PyDate.ofEpoch task.dueEpoch : F)).isSome = true :=
      PyEpochs.dated task.dueEpoch now.wallEpoch (htimes _ (by simp [ReleaseTask.times]))
        (hreadable.due hsuperseded) hreadable.dated
    obtain ⟨execution, mechanism, hbelongs⟩ := exists_belongs (F := F) digest hvalid
      (hreadable.named _ (by simp)) hdated
    obtain ⟨_, _, hok, -⟩ := hends hreleased execution mechanism hbelongs
    exact trimmed_of_reconcile hout hreadable hbelongs hok
  · rintro ⟨hreadable, htrimmed⟩
    refine hemitted.mono fun result hresult outcome hmem => ?_
    have hout := hresult outcome hmem
    obtain ⟨members, observedAt, hpost, hdate, hread⟩ :=
      fromRust_of_readable enforcementStatus fixed6 hout hvalid hnow hreadable
    exact ⟨_, hread, fun hreleased execution mechanism hbelongs =>
      reconcile_of_trimmed hout hvalid hreadable (htrimmed (hout.released hreleased)) hpost hreleased
        (PyEpochs.date_ne _ _ hdate) hbelongs⟩

end Followed

/-! ## 10. Samples -/

instance : PyEpochs Whole where
  finite _ := rfl
  nonneg t _ := by
    have hzero : (lit "0.0" : Whole) = ⟨0⟩ := by decide
    rw [hzero]
    exact decide_eq_false (Nat.not_lt_zero _ ∘ Int.ofNat_lt.mp)
  dated _ _ _ _ h := h
  date_ne _ _ h := by
    obtain rfl := Option.some.inj h
    decide

/-- A redirect of the sample flow. -/
def sampleRedirect : ReleaseTask :=
  (Alert.task { sampleAlert with restriction := .redirect "eth1" 2222 } 300 (sampleNow 0)).get
    (by decide +kernel)

/-- A ledger of one task. -/
def sampleHeld (task : ReleaseTask) : ReleaseLedger := ⟨[task], ⟨0, 0, 0, 0, []⟩⟩

theorem sampleRedirect_readable : Readable Whole (sampleHeld sampleRedirect).tasks sampleRedirect
    (sampleNow 301).wallEpoch := by
  refine ⟨by decide +kernel, by decide +kernel, by decide +kernel, by decide +kernel, ?_⟩
  intro _
  decide +kernel

theorem followed_iff_sample :
    Prog.Ensures (fun result => ∀ outcome ∈ result.2,
        Followed (fun _ : Whole => []) id sampleRedirect .null outcome)
      (attemptRelease (sampleNow 301) (fun _ => .ok ()) (sampleHeld sampleRedirect) sampleRedirect
        .wall) :=
  (followed_iff (fun _ : Whole => []) id sampleRedirect .null (sampleNow 301) (fun _ => .ok ())
    (sampleHeld sampleRedirect) .wall (by decide +kernel) (by decide +kernel)).mpr
      ⟨sampleRedirect_readable, fun _ => by decide +kernel⟩

/-- **The release of a flow's throttle is not accepted.** -/
theorem throttle_refused : ¬
    Prog.Ensures (fun result => ∀ outcome ∈ result.2,
        Followed (fun _ : Whole => []) id sampleTask .null outcome)
      (attemptRelease (sampleNow 301) (fun _ => .ok ()) (sampleHeld sampleTask) sampleTask
        .wall) := by
  intro hfollowed
  have hvalid : validateTask sampleTask = .ok () := by decide +kernel
  obtain ⟨-, -, -, hmechanism⟩ := validateTask_ok hvalid
  obtain ⟨replies, result, outcome, hrun, hmem⟩ := emits_attempt hmechanism
  have hout := (emitted_attemptRelease (sampleNow 301) (fun _ => .ok ()) (sampleHeld sampleTask)
    sampleTask .wall).run hrun outcome hmem
  obtain ⟨record, hrecord, -⟩ := hfollowed.run hrun outcome hmem
  have hreadable := (accepted_iff hout hvalid (by decide +kernel)).mp ⟨record, hrecord⟩
  exact absurd (hreadable.throttle (by decide +kernel)) (by decide +kernel)

end AzazelEdge.Outcome
