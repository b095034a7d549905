/-
# When an alert is reported sent

An alert should be reported sent just when an adapter took it, that is answered `ok`, and the first
that did should be named and be the last one called (`Reported`).

What is reported is what the first adapter that does not raise answers (`offer_answered`,
`offer_refused`).  So the report is right when that one, if there is one, took the alert, and
otherwise wrong, whatever the others do (`reported_iff`).  How the audit log takes the record is of
no account: the record is made once the outcome stands.
-/
import AzazelEdge.Arbiter.Decided
import AzazelEdge.Notify.Delivery

namespace AzazelEdge.Notify

open AzazelEdge.Lib AzazelEdge.Lib.Py AzazelEdge.Audit
open AzazelEdge.Arbiter (asDict orEmpty IsDictOrFalsy)

/-- All are `P`, or there is a first that is not. -/
theorem forall_or_first {α : Type} (P : α → Prop) (items : List α) :
    (∀ a ∈ items, P a) ∨
      ∃ (i : ℕ) (a : α), items[i]? = some a ∧ ¬ P a ∧ ∀ j < i, ∀ b, items[j]? = some b → P b := by
  induction items with
  | nil => exact .inl fun a ha => by cases ha
  | cons a items ih =>
    by_cases ha : P a
    · rcases ih with hall | ⟨i, b, hi, hb, hbefore⟩
      · exact .inl (List.forall_mem_cons.mpr ⟨ha, hall⟩)
      · refine .inr ⟨i + 1, b, hi, hb, fun j hj c hc => ?_⟩
        cases j with
        | zero =>
          cases hc
          exact ha
        | succ j => exact hbefore j (Nat.lt_of_succ_lt_succ hj) c hc
    · exact .inr ⟨0, a, rfl, ha, fun j hj => absurd hj (Nat.not_lt_zero j)⟩

section Reported

variable {F : Type} [PyFloat F]

/-! ## 1. What should be reported -/

/-- The adapter took the alert: it answered with an `ok` that is true. -/
def Notifier.Took (notifier : Notifier F) (payload : Payload) : Prop :=
  ∃ answer, notifier.send payload = .ok answer ∧ isTruthy (getKey (pyStr "ok") answer) = true

def Notifier.Raises (notifier : Notifier F) (payload : Payload) : Prop :=
  ∃ error, notifier.send payload = .error error

/-- The name that goes with an answer. -/
def Notifier.named (notifier : Notifier F) (answer : Row F) : Option (PyJson F) :=
  pyOr (getKey (pyStr "adapter") answer) (some (.str notifier.name))

variable (notifiers : List (Notifier F)) (payload : Payload)

/-- **An alert is reported sent just when an adapter took it.** -/
structure Reported (o : Notified F) : Prop where
  taken : ∀ (i : ℕ) (notifier : Notifier F), notifiers[i]? = some notifier →
    notifier.Took payload →
    (∀ j < i, ∀ earlier : Notifier F, notifiers[j]? = some earlier → ¬ earlier.Took payload) →
    o.result.ok = true ∧ o.entry.decision = .sent ∧ o.called = i + 1 ∧
      ∃ answer, notifier.send payload = .ok answer ∧ o.result.adapter = notifier.named answer
  refused : (∀ notifier ∈ notifiers, ¬ notifier.Took payload) →
    o.result.ok = false ∧ o.entry.decision = .failed

/-- The first adapter that does not raise, if there is one, takes the alert. -/
def FirstAnswerTakes : Prop :=
  ∀ (i : ℕ) (notifier : Notifier F), notifiers[i]? = some notifier → ¬ notifier.Raises payload →
    (∀ j < i, ∀ earlier : Notifier F, notifiers[j]? = some earlier → earlier.Raises payload) →
    notifier.Took payload

variable {notifiers payload}

omit [PyFloat F] in
/-- An adapter that does not raise answers. -/
theorem Notifier.answers {notifier : Notifier F} (h : ¬ notifier.Raises payload) :
    ∃ answer, notifier.send payload = .ok answer := by
  unfold Notifier.Raises at h
  cases hsend : notifier.send payload with
  | error error => exact absurd ⟨error, hsend⟩ h
  | ok answer => exact ⟨answer, rfl⟩

theorem Notifier.Raises.not_took {notifier : Notifier F} (h : notifier.Raises payload) :
    ¬ notifier.Took payload := by
  obtain ⟨error, herror⟩ := h
  rintro ⟨answer, hanswer, -⟩
  rw [herror] at hanswer
  cases hanswer

/-! ## 2. The loop -/

/-- **Adapters that all raise: the alert has failed.** -/
theorem offer_refused (errors : List PyStr) (attempts : List (Attempt F))
    (h : ∀ notifier ∈ notifiers, notifier.Raises payload) :
    ∃ errors' attempts', (offer payload errors attempts notifiers).1 =
      .failed errors' attempts' payload := by
  induction notifiers generalizing errors attempts with
  | nil => exact ⟨errors, attempts, rfl⟩
  | cons notifier notifiers ih =>
    obtain ⟨error, herror⟩ := h notifier List.mem_cons_self
    obtain ⟨errors', attempts', hrest⟩ := ih (errors ++ [error])
      (attempts ++ [⟨notifier.name, .error error⟩]) fun m hm => h m (List.mem_cons_of_mem _ hm)
    refine ⟨errors', attempts', ?_⟩
    rw [offer, herror]
    exact hrest

/-- **The first adapter that answers ends the loop**, and is named. -/
theorem offer_answered (errors : List PyStr) (attempts : List (Attempt F)) {i : ℕ}
    {notifier : Notifier F} {answer : Row F} (hi : notifiers[i]? = some notifier)
    (hanswer : notifier.send payload = .ok answer)
    (hbefore : ∀ j < i, ∀ earlier, notifiers[j]? = some earlier → earlier.Raises payload) :
    ∃ ack attempts', offer payload errors attempts notifiers =
      (.sent (notifier.named answer) ack attempts' payload, i + 1) := by
  induction notifiers generalizing errors attempts i with
  | nil => cases hi
  | cons first notifiers ih =>
    cases i with
    | zero =>
      cases hi
      rw [offer, hanswer]
      exact ⟨_, _, rfl⟩
    | succ i =>
      obtain ⟨error, herror⟩ := hbefore 0 (Nat.succ_pos i) first rfl
      obtain ⟨ack, attempts', hrest⟩ := ih (errors ++ [error])
        (attempts ++ [⟨first.name, .error error⟩]) hi
        fun j hj earlier hearlier => hbefore (j + 1) (Nat.succ_lt_succ hj) earlier hearlier
      refine ⟨ack, attempts', ?_⟩
      rw [offer, herror]
      simp only [hrest]

/-- **A sent alert is reported right only if its adapter took it.** -/
theorem took_of_reported {o : Notified F} {i : ℕ} {notifier : Notifier F}
    (hi : notifiers[i]? = some notifier) (hok : o.result.ok = true) (hcalled : o.called = i + 1)
    (h : Reported notifiers payload o) : notifier.Took payload := by
  rcases forall_or_first (fun n : Notifier F => ¬ n.Took payload) notifiers with
    hnone | ⟨k, taker, hk, htook, hbefore⟩
  · rw [(h.refused hnone).1] at hok
    cases hok
  · rw [not_not] at htook
    obtain ⟨-, -, hcalled', -⟩ := h.taken k taker hk htook hbefore
    have hsame : k = i := Nat.succ_injective (hcalled'.symm.trans hcalled)
    subst hsame
    rw [hi] at hk
    cases hk
    exact htook

/-- **The report is right just when the first answer takes the alert.** -/
theorem reported_iff_first {o : Notified F} (hresult : (o.result, o.called) =
    offer payload [] [] notifiers) (hdecision : o.entry.decision = o.result.recorded) :
    Reported notifiers payload o ↔ FirstAnswerTakes notifiers payload := by
  rcases forall_or_first (fun n : Notifier F => n.Raises payload) notifiers with
    hall | ⟨i, notifier, hi, hnotRaises, hbefore⟩
  · -- nobody answers, so nobody takes it
    have hraises : ∀ {i : ℕ} {m : Notifier F}, notifiers[i]? = some m → m.Raises payload :=
      fun h => hall _ (List.mem_of_getElem? h)
    obtain ⟨errors, attempts, hfailed⟩ := offer_refused [] [] hall
    rw [← hresult] at hfailed
    refine iff_of_true ⟨fun i m hm htook => absurd htook (hraises hm).not_took, fun _ => ?_⟩
      fun i m hm hnot => absurd (hraises hm) hnot
    rw [hdecision, show o.result = _ from hfailed]
    exact ⟨rfl, rfl⟩
  · obtain ⟨answer, hanswer⟩ := Notifier.answers hnotRaises
    obtain ⟨ack, attempts, hsent⟩ := offer_answered [] [] hi hanswer hbefore
    rw [← hresult, Prod.mk.injEq] at hsent
    obtain ⟨hsent, hcalled⟩ := hsent
    constructor
    · intro hreported i' notifier' hi' hnot' hbefore'
      -- the first that does not raise is the one that answered
      have hsame : i' = i := by
        rcases Nat.lt_trichotomy i' i with hlt | heq | hgt
        · exact absurd (hbefore i' hlt notifier' hi') hnot'
        · exact heq
        · exact absurd (hbefore' i hgt notifier hi) hnotRaises
      subst hsame
      rw [hi] at hi'
      cases hi'
      exact took_of_reported hi (by rw [hsent]; rfl) hcalled hreported
    · intro hfirst
      have htook := hfirst i notifier hi hnotRaises hbefore
      refine ⟨fun i' notifier' hi' htook' hbefore' => ?_, fun hnone => ?_⟩
      · have hsame : i' = i := by
          rcases Nat.lt_trichotomy i' i with hlt | heq | hgt
          · exact absurd htook' (hbefore i' hlt notifier' hi').not_took
          · exact heq
          · exact absurd htook (hbefore' i hgt notifier hi)
        subst hsame
        rw [hi] at hi'
        cases hi'
        rw [hdecision, hsent]
        exact ⟨rfl, rfl, hcalled, answer, hanswer, rfl⟩
      · exact absurd htook (hnone notifier (List.mem_of_getElem? hi))

/-! ## 3. The call -/

variable [PyRepr F] {arbiter explanation : Row F} {target decisionId : PyStr}

/-- The payload can be built: the evidence ids can be gone over, and the parts of `why_chosen` that
are read are dicts or falsy. -/
structure Buildable (arbiter explanation : Row F) : Prop where
  evidence : (iterated (getKey (pyStr "chosen_evidence_ids") arbiter)).isSome = true
  incident : IsDictOrFalsy
    (getKey (pyStr "incident_summary") (asDict (getKey (pyStr "why_chosen") explanation)))
  runbook : IsDictOrFalsy
    (getKey (pyStr "runbook_support") (asDict (getKey (pyStr "why_chosen") explanation)))

theorem whyChosen_eq_some {part key : PyStr} :
    (∃ t, whyChosen explanation part key = some t) ↔
      IsDictOrFalsy (getKey part (asDict (getKey (pyStr "why_chosen") explanation))) := by
  unfold whyChosen IsDictOrFalsy
  cases orEmpty (getKey part (asDict (getKey (pyStr "why_chosen") explanation))) with
  | error e => exact iff_of_false (by rintro ⟨t, h⟩; cases h) (by rintro ⟨members, h⟩; cases h)
  | ok members => exact iff_of_true ⟨_, rfl⟩ ⟨members, rfl⟩

theorem buildPayload_eq_some :
    (∃ payload, buildPayload arbiter explanation target decisionId = some payload) ↔
      Buildable arbiter explanation := by
  constructor
  · rintro ⟨payload, h⟩
    obtain ⟨evidenceIds, hevidence, h⟩ := Option.bind_eq_some_iff.mp h
    obtain ⟨incidentId, hincident, h⟩ := Option.bind_eq_some_iff.mp h
    obtain ⟨runbookId, hrunbook, -⟩ := Option.bind_eq_some_iff.mp h
    exact ⟨Option.isSome_iff_exists.mpr ⟨_, hevidence⟩, whyChosen_eq_some.mp ⟨_, hincident⟩,
      whyChosen_eq_some.mp ⟨_, hrunbook⟩⟩
  · intro h
    obtain ⟨evidenceIds, hevidence⟩ := Option.isSome_iff_exists.mp h.evidence
    obtain ⟨incidentId, hincident⟩ := whyChosen_eq_some.mpr h.incident
    obtain ⟨runbookId, hrunbook⟩ := whyChosen_eq_some.mpr h.runbook
    exact ⟨_, Option.bind_eq_some_iff.mpr ⟨_, hevidence, Option.bind_eq_some_iff.mpr
      ⟨_, hincident, Option.bind_eq_some_iff.mpr ⟨_, hrunbook, rfl⟩⟩⟩⟩

/-- A call on an alert that was built. -/
theorem notify_built (audit : AuditEntry F → LogAnswer) (summaryOnly : Bool)
    (haction : strOr (getKey (pyStr "action") arbiter) = pyStr "notify")
    (hbuilt : buildPayload arbiter explanation target decisionId = some payload) :
    ∃ o, notify notifiers audit summaryOnly arbiter explanation target decisionId = some o ∧
      (o.result, o.called) = offer (payload.forAdapter summaryOnly) [] [] notifiers ∧
      o.entry.decision = o.result.recorded := by
  unfold notify
  rw [if_neg (not_not.mpr haction), hbuilt]
  exact ⟨_, rfl, rfl, rfl⟩

/-- **`notify` returns, and reports the alert sent just when an adapter took it.** -/
def ReportsRight (notifiers : List (Notifier F)) (audit : AuditEntry F → LogAnswer)
    (summaryOnly : Bool) (arbiter explanation : Row F) (target decisionId : PyStr) : Prop :=
  ∃ payload o, buildPayload arbiter explanation target decisionId = some payload ∧
    notify notifiers audit summaryOnly arbiter explanation target decisionId = some o ∧
    Reported notifiers (payload.forAdapter summaryOnly) o

/-- **When the report is right.** -/
theorem reported_iff (notifiers : List (Notifier F)) (audit : AuditEntry F → LogAnswer)
    (summaryOnly : Bool) (arbiter explanation : Row F) (target decisionId : PyStr)
    (haction : strOr (getKey (pyStr "action") arbiter) = pyStr "notify") :
    ReportsRight notifiers audit summaryOnly arbiter explanation target decisionId ↔
      Buildable arbiter explanation ∧
        ∀ payload, buildPayload arbiter explanation target decisionId = some payload →
          FirstAnswerTakes notifiers (payload.forAdapter summaryOnly) := by
  rw [← buildPayload_eq_some]
  constructor
  · rintro ⟨payload, o, hbuilt, ho, hreported⟩
    refine ⟨⟨payload, hbuilt⟩, fun payload' hbuilt' => ?_⟩
    cases hbuilt.symm.trans hbuilt'
    obtain ⟨o', ho', hresult, hdecision⟩ := notify_built audit summaryOnly haction hbuilt
    cases ho.symm.trans ho'
    exact (reported_iff_first hresult hdecision).mp hreported
  · rintro ⟨⟨payload, hbuilt⟩, hfirst⟩
    obtain ⟨o, ho, hresult, hdecision⟩ := notify_built audit summaryOnly haction hbuilt
    exact ⟨payload, o, hbuilt, ho, (reported_iff_first hresult hdecision).mpr (hfirst payload hbuilt)⟩

end Reported

section Sample

/-- An adapter that takes every alert. -/
def accepting (name : String) : Notifier Whole :=
  ⟨pyStr name, fun _ => .ok [(pyStr "ok", .bool true), (pyStr "status", .int 200)]⟩

/-- An offline queue whose file cannot be replaced. -/
def fullQueue : Notifier Whole :=
  offlineQueue (fun _ => []) 10 ⟨[], 0, []⟩ .failed none (pyStr "No space left on device")

def notifyDecision : Row Whole := [(pyStr "action", .str (pyStr "notify"))]

/-- Past an adapter that raises, the next one takes the alert. -/
theorem reported_iff_sample :
    ReportsRight [⟨pyStr "ntfy", fun _ => .error (pyStr "timed out")⟩, accepting "webhook"]
      (fun _ => .fsynced) false notifyDecision [] (pyStr "10.0.0.9") [] := by
  refine (reported_iff _ _ _ _ _ _ _ (by decide +kernel)).mpr
    ⟨⟨rfl, ⟨_, rfl⟩, ⟨_, rfl⟩⟩, fun payload _ i notifier hi hnot _ => ?_⟩
  match i, hi with
  | 0, hi =>
    cases hi
    exact absurd ⟨_, rfl⟩ hnot
  | 1, hi =>
    cases hi
    exact ⟨_, rfl, rfl⟩

/-- **An alert that could not be queued is reported sent.** -/
theorem unqueued_reported_sent : ¬ ReportsRight [fullQueue] (fun _ => .fsynced) false notifyDecision
    [] (pyStr "10.0.0.9") [] := by
  rintro ⟨payload, o, hbuilt, ho, hreported⟩
  cases ho
  have hrefused := hreported.refused ?_
  · exact Bool.noConfusion hrefused.1
  · intro notifier hnotifier htook
    rw [List.mem_singleton.mp hnotifier] at htook
    obtain ⟨answer, hanswer, hok⟩ := htook
    cases hanswer
    cases hok

end Sample

end AzazelEdge.Notify
