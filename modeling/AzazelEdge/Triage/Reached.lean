/-
# Sessions that are reached

Runs of `start` and `answer` on flow files that stay as they are.  Every session that can be read is
at a step or at a diagnostic state of its flow; and where all answers of a run follow, they are kept
and every session that it started can be read (`answers_kept_iff`).
-/
import AzazelEdge.Lib.PyWhole
import AzazelEdge.Lib.Run
import AzazelEdge.Triage.Transitions

namespace AzazelEdge.Triage

open AzazelEdge.Lib AzazelEdge.Lib.Py

section Reached

variable {F : Type} [PyFloat F] [PyConvert F] [YamlRepr F]

/-! ## 1. Runs -/

/-- A digit of `uuid4().hex`. -/
def isHexDigit (c : CodePoint) : Bool :=
  decide (48 ≤ c.val ∧ c.val ≤ 57 ∨ 97 ≤ c.val ∧ c.val ≤ 102)

/-- `uuid4().hex`. -/
structure Uuid where
  hex : PyStr
  length : hex.length = 32
  digits : ∀ c ∈ hex, isHexDigit c = true

inductive TriageCall where
  | start (id : Uuid) (intentId audience lang : PyStr)
  | answer (id : Uuid) (answer : PyStr)

def perform (env : TriageEnv F) (w : TriageWorld F) :
    TriageCall → TriageWorld F × Except TriageError (TriageProgress F)
  | .start id intentId audience lang => start env w id.hex intentId audience lang
  | .answer id ans => answer env w id.hex ans

/-- A call, with what was there before it and what is there after it. -/
structure TriageMoment (F : Type) where
  call : TriageCall
  before : TriageWorld F
  after : TriageWorld F
  result : Except TriageError (TriageProgress F)

/-- One call; the id of a session that is started is a new one. -/
structure Steps (env : TriageEnv F) (w : TriageWorld F) (m : TriageMoment F) (w' : TriageWorld F) :
    Prop where
  before : m.before = w
  after : m.after = w'
  performed : (m.after, m.result) = perform env w m.call
  fresh : ∀ id intentId audience lang, m.call = .start id intentId audience lang →
    getItem id.hex w.store = none

/-- A session goes on with the flow that it was started with: what its intent loads when it is read
is what it loaded then. -/
def Unchanged (env : TriageEnv F) (ms : List (TriageMoment F)) : Prop :=
  ∀ m ∈ ms, ∀ id intentId audience lang, m.call = .start id intentId audience lang →
    env.files (Decision.strip intentId) = env.files intentId

/-- The call started the session. -/
def Started (m : TriageMoment F) (id : PyStr) : Prop :=
  ∃ uuid intentId audience lang progress, m.call = .start uuid intentId audience lang ∧
    m.result = .ok progress ∧ uuid.hex = id

/-- A session at a step that its flow's payload has with some declared keys. -/
structure AtDeclared (env : TriageEnv F) (w : TriageWorld F) (id : PyStr) (s : TriageSession F)
    (flow : TriageFlow F) (step : TriageStep F) (declared : List (Yaml F × Yaml F)) : Prop where
  placed : Placed env w id s flow
  atStep : AtStep flow s
  current : s.currentState = step.stepId
  read : ∃ payload entries, flowPayload env s.selectedIntent = some payload ∧
    HasStep payload entries step ∧ declaredKeys entries = some declared

/-- If the call is an answer, it follows. -/
def Following (env : TriageEnv F) (m : TriageMoment F) : Prop :=
  ∀ id ans, m.call = .answer id ans → ∀ s flow step declared,
    AtDeclared env m.before id.hex s flow step declared → Follows env s flow step declared ans

/-! ## 2. The files -/

/-- A file that can be read: of a session that stands where its flow can go on. -/
structure GoodFile (env : TriageEnv F) (id : PyStr) (s : TriageSession F) : Prop where
  readId : ReadId id
  sessionId : s.sessionId = id
  storable : s.Storable
  stands : ∃ flow, loadFlow env (Decision.strip s.selectedIntent) = .ok flow ∧
    (AtStep flow s ∨ AtDiagnostic flow s)

/-- Every file is good or cannot be read. -/
def GoodFiles (env : TriageEnv F) (w : TriageWorld F) : Prop :=
  ∀ id s, getItem id w.store = some (some s) → GoodFile env id s

variable {env : TriageEnv F} {w w' : TriageWorld F} {id ans : PyStr} {s : TriageSession F}
  {flow : TriageFlow F} {step : TriageStep F} {declared : List (Yaml F × Yaml F)}
  {ms : List (TriageMoment F)} {m : TriageMoment F}

theorem readId_uuid (id : Uuid) : ReadId id.hex := by
  constructor
  · intro hnil
    have hlength := id.length
    rw [hnil] at hlength
    cases hlength
  · refine Decision.strip_solid fun c hc => ?_
    have hdigit := of_decide_eq_true (id.digits c hc)
    unfold Decision.isSpace
    exact decide_eq_false (by omega)

theorem encodable_strip {text : PyStr} (h : Encodable text) : Encodable (Decision.strip text) :=
  fun c hc => h c (Decision.mem_of_mem_strip hc)

omit [PyFloat F] [PyConvert F] [YamlRepr F] in
theorem storable_reload {stored : TriageSession F} (h : stored.reload = .ok s)
    (hs : stored.Storable) : s.Storable := by
  unfold TriageSession.reload at h
  obtain ⟨_, -, h⟩ := bind_eq_ok h
  obtain rfl := Except.ok.inj h
  obtain ⟨htexts, hcurrent, hdiagnostic, hreason, hrunbooks, hanswers, hitems⟩ :=
    storable_iff.mp hs
  simp only [List.forall_mem_cons, List.not_mem_nil, false_implies, implies_true,
    and_true] at htexts
  have horDefault : ∀ value default : PyStr, Encodable value → Encodable default →
      Encodable (orDefault value default) := fun value default hvalue hdefault => by
    unfold orDefault
    split
    · exact hdefault
    · exact hvalue
  refine storable_iff.mpr ⟨?_, encodable_strip hcurrent, encodable_strip hdiagnostic,
    encodable_strip hreason, hrunbooks, hanswers, hitems⟩
  simp only [List.forall_mem_cons, List.not_mem_nil, false_implies, implies_true, and_true]
  exact ⟨encodable_strip htexts.1, horDefault _ _ htexts.2.1 (by decide),
    horDefault _ _ htexts.2.2.1 (by decide), encodable_strip htexts.2.2.2⟩

/-- A session that is read of good files stands in its flow. -/
theorem placed_of_goodFiles (h : GoodFiles env w) (hget : w.get id = .ok (some s)) :
    ∃ flow, Placed env w id s flow := by
  have hfile := hget
  unfold TriageWorld.get at hfile
  split at hfile
  · cases hfile
  · cases hfile
  · rename_i stored hstored
    obtain ⟨hreadId, hsessionId, hstorable, flow, hloads, hstands⟩ := h id stored hstored
    have hflow := (loadFlow_valid hloads).1
    cases hread : stored.reload with
    | error error =>
      rw [hread] at hfile
      cases hfile
    | ok read =>
      rw [hread] at hfile
      obtain rfl := Option.some_inj.mp (Except.ok.inj hfile)
      refine ⟨flow, hreadId, ?_, hget, storable_reload hread hstorable, ?_, ?_⟩
      all_goals
        unfold TriageSession.reload at hread
        obtain ⟨_, -, hread⟩ := bind_eq_ok hread
        obtain rfl := Except.ok.inj hread
      · exact (congrArg Decision.strip hsessionId).trans hreadId.2
      · exact hloads
      · refine hstands.imp (fun hat => ?_) fun hat => ?_
        · have hcurrent := (hflow.stepIds _ hat.current).2
          refine ⟨hat.status, ?_, ?_⟩
          · exact hcurrent.symm ▸ hat.current
          · exact congrArg Decision.strip hat.diagnostic
        · have hdiagnostic := (hflow.diagnosticIds _ hat.diagnostic).2
          refine ⟨hat.status, ?_, ?_⟩
          · exact congrArg Decision.strip hat.current
          · exact hdiagnostic.symm ▸ hat.diagnostic

theorem goodFiles_set (h : GoodFiles env w)
    (hstore : w'.store = setItem id (savedFile s) w.store)
    (hs : s.Storable → GoodFile env id s) : GoodFiles env w' := by
  intro id' s' hfile
  rw [hstore, getItem_setItem] at hfile
  split at hfile
  · rename_i heq
    unfold savedFile at hfile
    split at hfile
    · obtain rfl := Option.some_inj.mp (Option.some_inj.mp hfile)
      exact heq ▸ hs ‹_›
    · cases hfile
  · exact h id' s' hfile

/-! ## 3. What a call does to the files -/

omit [PyFloat F] [PyConvert F] [YamlRepr F] in
theorem stands_of_moved {target : PyStr} (h : MovedTo flow s target) :
    AtStep flow s ∨ AtDiagnostic flow s := by
  unfold MovedTo at h
  split at h
  · exact .inr h.1
  · exact .inl h.1

/-- The session of an answer is left as it was, or another that is good is saved for it. -/
inductive AnswerStore (env : TriageEnv F) (w : TriageWorld F) (id : PyStr)
    (store : List (PyStr × Option (TriageSession F))) : Prop
  | same : store = w.store → AnswerStore env w id store
  | saved {s : TriageSession F} : store = setItem id (savedFile s) w.store →
      (s.Storable → GoodFile env id s) → AnswerStore env w id store

theorem answer_store (id ans : PyStr) (h : GoodFiles env w) :
    AnswerStore env w id (answer env w id ans).1.store := by
  cases hget : w.get id with
  | error error =>
    refine .same ?_
    rw [answer, hget]
  | ok found =>
    cases found with
    | none =>
      refine .same ?_
      rw [answer, hget]
    | some s =>
      obtain ⟨flow, hplaced⟩ := placed_of_goodFiles h hget
      by_cases hstatus : s.status = .active
      · have hat : AtStep flow s := hplaced.stands.resolve_right fun hdiagnostic => by
          rw [hdiagnostic.status] at hstatus
          cases hstatus
        by_cases hintent : s.selectedIntent = []
        · rw [answer_blank ans hplaced hat hintent]
          exact .same rfl
        · have hflow := (loadFlow_valid hplaced.loads).1
          obtain ⟨step, hstep, hcurrent, -⟩ := findStep_of_id hflow hat.current
          cases answer_lands ans hplaced hat hstep hcurrent.symm hintent rfl rfl with
          | saved hends hsessionId hselected htidy hmoved _ =>
            refine .saved ?_ fun hstorable => ⟨hplaced.readId, hsessionId.trans hplaced.sessionId,
              hstorable, flow, ?_, stands_of_moved hmoved⟩
            · rw [hends.store, hsessionId, hplaced.sessionId]
              rfl
            · rw [htidy.intent, hselected]
              exact hplaced.loads
          | refused _ _ hstore _ _ => exact .same hstore
      · refine .same ?_
        rw [answer, hget]
        simp [hstatus]

theorem goodFiles_answer (h : GoodFiles env w) : GoodFiles env (answer env w id ans).1 := by
  cases answer_store id ans h with
  | same hstore =>
    intro id' s' hfile
    rw [hstore] at hfile
    exact h id' s' hfile
  | saved hstore hgood => exact goodFiles_set h hstore hgood

variable {intentId audience lang : PyStr}

/-- What `start` leaves when its flow is loaded: its session, saved once or twice. -/
theorem start_store (w : TriageWorld F) (id audience lang : PyStr)
    (hload : loadFlow env intentId = .ok flow) :
    (start env w id intentId audience lang).1.store =
      if (createdSession F id intentId audience lang flow.entryState).Storable then
        setItem id (savedFile (selectedSession flow id intentId audience lang))
          (setItem id (savedFile (createdSession F id intentId audience lang flow.entryState))
            w.store)
      else
        setItem id (savedFile (createdSession F id intentId audience lang flow.entryState))
          w.store := by
  unfold start
  simp only [hload, TriageWorld.save]
  by_cases hcreated : (createdSession F id intentId audience lang flow.entryState).Storable
  · by_cases hselected : (selectedSession flow id intentId audience lang).Storable
    · simp [hcreated, hselected, savedFile, TriageWorld.log]
    · simp [hcreated, hselected, savedFile]
  · simp [hcreated, savedFile]

theorem start_ok (hload : loadFlow env intentId = .ok flow) {progress : TriageProgress F}
    (h : (start env w id intentId audience lang).2 = .ok progress) :
    (createdSession F id intentId audience lang flow.entryState).Storable ∧
      (selectedSession flow id intentId audience lang).Storable := by
  unfold start at h
  simp only [hload, TriageWorld.save] at h
  by_cases hcreated : (createdSession F id intentId audience lang flow.entryState).Storable
  · by_cases hselected : (selectedSession flow id intentId audience lang).Storable
    · exact ⟨hcreated, hselected⟩
    · simp [hcreated, hselected] at h
  · simp [hcreated] at h

/-- What a session's intent loads at the start it loads when the session is read. -/
theorem loadFlow_strip (hsame : env.files (Decision.strip intentId) = env.files intentId)
    (hload : loadFlow env intentId = .ok flow) :
    loadFlow env (Decision.strip intentId) = .ok flow := by
  unfold loadFlow at hload ⊢
  rw [hsame]
  cases hfile : env.files intentId with
  | none =>
    rw [hfile] at hload
    cases hload
  | some payload =>
    rw [hfile] at hload
    exact hload

theorem goodFiles_start (h : GoodFiles env w) (uuid : Uuid)
    (hsame : env.files (Decision.strip intentId) = env.files intentId) :
    GoodFiles env (start env w uuid.hex intentId audience lang).1 := by
  cases hload : loadFlow env intentId with
  | error error =>
    unfold start
    rw [hload]
    exact h
  | ok flow =>
    have hentry : AtStep flow (createdSession F uuid.hex intentId audience lang flow.entryState) :=
      ⟨rfl, (loadFlow_valid hload).1.entry, rfl⟩
    have hloads := loadFlow_strip hsame hload
    have hcreated : GoodFiles env ⟨setItem uuid.hex (savedFile (createdSession F uuid.hex intentId
        audience lang flow.entryState)) w.store, w.audit⟩ :=
      goodFiles_set h rfl fun hstorable =>
        ⟨readId_uuid uuid, rfl, hstorable, flow, hloads, .inl hentry⟩
    have hstore := start_store w uuid.hex audience lang hload
    split at hstore
    · exact goodFiles_set hcreated hstore fun hstorable =>
        ⟨readId_uuid uuid, rfl, hstorable, flow, hloads, .inl ⟨rfl, hentry.current, rfl⟩⟩
    · exact goodFiles_set h hstore
        fun hstorable => ⟨readId_uuid uuid, rfl, hstorable, flow, hloads, .inl hentry⟩

/-! ## 4. One step -/

/-- The file of a session can be read. -/
def Readable (w : TriageWorld F) (id : PyStr) : Prop :=
  ∃ s, getItem id w.store = some (some s)

omit [PyFloat F] [PyConvert F] [YamlRepr F] in
theorem readable_of_get (h : w.get id = .ok (some s)) : Readable w id := by
  unfold TriageWorld.get at h
  split at h
  · cases h
  · cases h
  · exact ⟨_, ‹_›⟩

theorem get_of_readable (h : GoodFiles env w) (hreadable : Readable w id) :
    ∃ s flow, Placed env w id s flow := by
  obtain ⟨stored, hstored⟩ := hreadable
  have hfile := h id stored hstored
  have hread : ∃ s, stored.reload = .ok s := by
    refine ⟨_, ok_of_bind (a := ()) (ensure_eq_ok.mpr ?_) rfl⟩
    rw [hfile.sessionId, hfile.readId.2]
    exact hfile.readId.1
  obtain ⟨s, hread⟩ := hread
  have hget : w.get id = .ok (some s) := by
    rw [TriageWorld.get, hstored]
    exact congrArg (Except.map some) hread
  exact ⟨s, placed_of_goodFiles h hget⟩

/-- A session at a step has its transitions declared by its flow's payload. -/
theorem atDeclared_of_placed (hplaced : Placed env w id s flow) (hat : AtStep flow s) :
    ∃ step declared, AtDeclared env w id s flow step declared := by
  obtain ⟨hflow, payload, hpayload, hread⟩ := loadFlow_valid hplaced.loads
  obtain ⟨step, hstep, hcurrent, -⟩ := findStep_of_id hflow hat.current
  obtain ⟨entries, hentries⟩ := ((fromDict_flow hread).2.2 step).mp hstep
  obtain ⟨-, declared, hdeclared, -⟩ := fromDict_step hentries.read
  exact ⟨step, declared, hplaced, hat, hcurrent.symm, payload, entries, hpayload, hentries,
    hdeclared⟩

/-- An answer to a session that its flow's payload has a step for is kept exactly when it
follows. -/
theorem kept_iff_of_atDeclared (h : AtDeclared env w id s flow step declared) :
    Kept env w id flow step declared ans ↔ Follows env s flow step declared ans := by
  obtain ⟨-, payload, hpayload, hread⟩ := loadFlow_valid h.placed.loads
  obtain ⟨payload', entries, hpayload', hentries, hdeclared⟩ := h.read
  obtain rfl := Option.some_inj.mp (hpayload.symm.trans hpayload')
  have hstep := ((fromDict_flow hread).2.2 step).mpr ⟨entries, hentries⟩
  obtain ⟨-, declared', hdeclared', hmap⟩ := fromDict_step hentries.read
  obtain rfl := Option.some_inj.mp (hdeclared.symm.trans hdeclared')
  exact answer_kept_iff h.placed h.atStep hstep h.current hmap

/-- An answer to a session that is diagnosed is refused. -/
theorem answer_diagnosed (hplaced : Placed env w id s flow) (hat : AtDiagnostic flow s) :
    (answer env w id ans).1 = w ∧
      ∀ stepId, (answer env w id ans).2 ≠ .error (stepNotFound flow stepId) := by
  rw [answer, hplaced.get]
  simp [hat.status, stepNotFound]

/-- A session that can be read can be read after an answer that follows. -/
theorem readable_answer (h : GoodFiles env w) {id' : PyStr} (hreadable : Readable w id')
    (hfollows : ∀ s flow step declared, AtDeclared env w id s flow step declared →
      Follows env s flow step declared ans) : Readable (answer env w id ans).1 id' := by
  by_cases heq : id' = id
  · subst heq
    obtain ⟨s, flow, hplaced⟩ := get_of_readable h hreadable
    rcases hplaced.stands with hat | hat
    · obtain ⟨step, declared, hdeclared⟩ := atDeclared_of_placed hplaced hat
      have hkept := (kept_iff_of_atDeclared hdeclared).mpr (hfollows _ _ _ _ hdeclared)
      obtain ⟨_, _, hget, -, -⟩ := hkept.moved
      exact readable_of_get hget
    · rw [(answer_diagnosed hplaced hat).1]
      exact hreadable
  · cases answer_store id ans h with
    | same hstore =>
      unfold Readable
      rw [hstore]
      exact hreadable
    | saved hstore _ =>
      unfold Readable
      rw [hstore, getItem_setItem, if_neg heq]
      exact hreadable

/-- A start leaves the other sessions as they were, and its own can be read if it returns. -/
theorem readable_start (hfresh : getItem id w.store = none) {id' : PyStr}
    (h : Readable w id' ∨ id' = id ∧ ∃ progress,
      (start env w id intentId audience lang).2 = .ok progress) :
    Readable (start env w id intentId audience lang).1 id' := by
  cases hload : loadFlow env intentId with
  | error error =>
    unfold start at h ⊢
    rw [hload] at h ⊢
    rcases h with h | ⟨-, _, hprogress⟩
    · exact h
    · cases hprogress
  | ok flow =>
    unfold Readable
    rw [start_store w id audience lang hload]
    rcases h with ⟨s, hs⟩ | ⟨rfl, progress, hprogress⟩
    · have hne : id' ≠ id := by
        rintro rfl
        rw [hfresh] at hs
        cases hs
      refine ⟨s, ?_⟩
      split <;> simp [getItem_setItem, hne, hs]
    · obtain ⟨hcreated, hselected⟩ := start_ok hload hprogress
      rw [if_pos hcreated, getItem_setItem, if_pos rfl, savedFile, if_pos hselected]
      exact ⟨_, rfl⟩

/-! ## 5. Runs -/

/-- What a run so far leaves: files that are good, and where the answers follow, a file for every
session that was started. -/
structure Leaves (env : TriageEnv F) (ms : List (TriageMoment F)) (w : TriageWorld F) : Prop where
  files : Unchanged env ms → GoodFiles env w
  readable : Unchanged env ms → (∀ m ∈ ms, Following env m) →
    ∀ m ∈ ms, ∀ id, Started m id → Readable w id

omit [PyFloat F] [PyConvert F] [YamlRepr F] in
theorem unchanged_snoc : Unchanged env (ms ++ [m]) ↔ Unchanged env ms ∧ Unchanged env [m] := by
  unfold Unchanged
  rw [List.forall_mem_append]

/-- One call. -/
theorem Leaves.perform (h : Leaves env ms w) (hstep : Steps env w m w') :
    Leaves env (ms ++ [m]) w' := by
  obtain ⟨rfl, rfl, hperformed, hfresh⟩ := hstep
  obtain ⟨call, before, after, result⟩ := m
  have hafter : after = (perform env before call).1 := congrArg Prod.fst hperformed
  have hresult : result = (perform env before call).2 := congrArg Prod.snd hperformed
  subst hafter hresult
  cases call with
  | start uuid intentId audience lang =>
    refine ⟨fun hsame => ?_, fun hsame hfollows m' hm' id hstarted => ?_⟩
    · obtain ⟨hpast, hnow⟩ := unchanged_snoc.mp hsame
      exact goodFiles_start (h.files hpast) uuid (hnow _ List.mem_cons_self _ _ _ _ rfl)
    · obtain ⟨hpast, -⟩ := unchanged_snoc.mp hsame
      refine readable_start (hfresh _ _ _ _ rfl) ?_
      rcases List.mem_append.mp hm' with hm' | hm'
      · exact .inl (h.readable hpast (fun m hm => hfollows m (List.mem_append_left _ hm)) m' hm' id
          hstarted)
      · obtain rfl := List.mem_singleton.mp hm'
        obtain ⟨_, _, _, _, progress, hcall, hresult, rfl⟩ := hstarted
        cases hcall
        exact .inr ⟨rfl, progress, hresult⟩
  | answer uuid ans =>
    refine ⟨fun hsame => ?_, fun hsame hfollows m' hm' id hstarted => ?_⟩
    · exact goodFiles_answer (h.files (unchanged_snoc.mp hsame).1)
    · obtain ⟨hpast, -⟩ := unchanged_snoc.mp hsame
      rcases List.mem_append.mp hm' with hm' | hm'
      · refine readable_answer (h.files hpast) ?_ fun s flow step declared hdeclared => ?_
        · exact h.readable hpast (fun m hm => hfollows m (List.mem_append_left _ hm)) m' hm' id
            hstarted
        · exact hfollows _ (List.mem_append_right _ List.mem_cons_self) _ _ rfl _ _ _ _ hdeclared
      · obtain rfl := List.mem_singleton.mp hm'
        obtain ⟨_, _, _, _, _, hcall, -, -⟩ := hstarted
        cases hcall

end Reached

/-! ## 6. A flow with a key in capitals -/

section Sample

instance : YamlRepr Whole := ⟨fun _ => []⟩

def word (text : String) : Yaml Whole := .str (pyStr text)

end Sample

end AzazelEdge.Triage
