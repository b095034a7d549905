/-
# What the SOC evaluator takes for new exposure

`_evaluate_exposure_change_state` (`evaluators/soc.py`): the service targets, external
destinations, route markers and visible services of a call are new when they are not among the
values seen before, and of those so many of each class are kept.

The ones that are kept are the greatest in the order of texts, not the latest.  So over a run the
seen values are the `cap` greatest of all values so far (`seenAfter_eq`), and a value of the call
before is new again exactly when so many greater ones have come up (`reported_once_iff`).
-/
import AzazelEdge.Evaluators.LifeCycle
import AzazelEdge.Lib.Largest
import Mathlib.Data.List.Lex
import Mathlib.Data.List.ReduceOption

namespace AzazelEdge.Evaluators.Soc

open AzazelEdge.Lib AzazelEdge.Lib.Py AzazelEdge.Audit AzazelEdge.Arbiter AzazelEdge.EvidencePlane

/-! ## 1. What a payload shows -/

/-- What is asked of an address of `ipaddress`. -/
structure AddressFlags where
  isPrivate : Bool
  isLoopback : Bool
  isLinkLocal : Bool
  isMulticast : Bool

/-- `_is_external_ip`; `ipAddress` is `ipaddress.ip_address`, none when it raises. -/
def isExternalIp (ipAddress : PyStr → Option AddressFlags) (value : PyStr) : Bool :=
  match ipAddress (Decision.strip value) with
  | none => false
  | some addr => !(addr.isPrivate || addr.isLoopback || addr.isLinkLocal || addr.isMulticast)

/-- The four sets of values. -/
inductive ExposureClass where
  | service | external | route | visible
  deriving DecidableEq

/-- The bound of a set. -/
def ExposureClass.cap : ExposureClass → ℕ
  | .service => 2048
  | .external => 1024
  | .route => 1024
  | .visible => 512

variable {F : Type} [PyFloat F] [PyRepr F] [PyConvert F]

/-- `_is_benign_background_payload`. -/
def isBenignBackgroundPayload (payload : Row F) : Bool :=
  let category := PyConvert.lower F (Decision.strip (attrStr "category" payload))
  -- an alert whose numbers do not read has raised in the suppression already
  let sid := (intOr0 (attr "sid" payload)).getD 0
  let risk := (riskOf payload).getD 0
  decide (strField "source" payload = pyStr "suricata_eve" ∧
    category ∈ benignCategories.map pyStr ∧ risk < incidentRiskFloor ∧ sid ∉ deceptionSids)

/-- What one payload adds to the sets of a call. -/
structure Exposure where
  value : ExposureClass → Option PyStr
  expectedChange : Bool
  eventId : PyStr

/-- A text that is not empty. -/
def nonempty (text : PyStr) : Option PyStr := if text = [] then none else some text

section Digits

variable [PyDigits]

/-- The loop at one payload: none when the port raises, and nothing of one that is passed over. -/
def readExposure (ipAddress : PyStr → Option AddressFlags) (payload : Row F) :
    Option (Option Exposure) :=
  let dst := (socEndpoints payload).2
  if isBenignBackgroundPayload payload ∨ dst = [] then some none
  else (socPort payload).map fun port => some
    { value := fun
        | .service => if port = 0 then none else some (dst ++ colon :: ofText (intText port))
        | .external => if isExternalIp ipAddress dst then some dst else none
        | .route => nonempty (Decision.strip (strOr
            (pyOr (pyOr (attr "route_id" payload) (attr "route" payload)) (attr "path_id" payload))))
        | .visible => nonempty (PyConvert.lower F (Decision.strip (strOr (pyOr (pyOr
            (attr "service_name" payload) (attr "service" payload)) (attr "app_proto" payload)))))
      expectedChange := isTruthy (attr "expected_change" payload)
      eventId := strField "event_id" payload }

/-- The payloads of a call that show something. -/
def readExposures (ipAddress : PyStr → Option AddressFlags) (payloads : List (Row F)) :
    Option (List Exposure) :=
  (payloads.mapM (readExposure ipAddress)).map List.reduceOption

/-- The values of a class that a call shows. -/
def currentValues (exposures : List Exposure) (c : ExposureClass) : Finset PyStr :=
  (exposures.filterMap fun e => e.value c).toFinset

/-! ## 2. What is returned -/

/-- The values of each class that have been seen. -/
abbrev Seen := ExposureClass → Finset PyStr

/-- `sorted(values)[:12]`. -/
def listed (values : Finset PyStr) : List PyStr := (values.sort (· ≤ ·)).take 12

/-- The dict that is returned. -/
structure ExposureState where
  status : PyStr
  score : ℤ
  label : PyStr
  newExternalDestinations : List PyStr
  newServiceTargets : List PyStr
  newRouteMarkers : List PyStr
  newVisibleServices : List PyStr
  seenExternalDestinationCount : ℕ
  seenServiceTargetCount : ℕ
  reasons : List PyStr
  evidenceIds : List PyStr

/-- The values of a call that are new, the sets after it, and the dict. -/
structure Exposed where
  new : ExposureClass → Finset PyStr
  seen : Seen
  state : ExposureState

/-- A reason when it applies. -/
def reason (applies : Prop) [Decidable applies] (text : String) : List PyStr :=
  if applies then [pyStr text] else []

/-- What is made of the new values. -/
def exposureState (new : ExposureClass → Finset PyStr) (seen : Seen) (expectedChange : Bool)
    (evidenceIds : List PyStr) : ExposureState :=
  let raw : ℤ := min 100 ((new .external).card * 20 + (new .service).card * 6 +
    (new .route).card * 8 + (new .visible).card * 5)
  let score := if expectedChange then max 0 (raw - 10) else raw
  let reasons := reason (new .external ≠ ∅) "new_external_destination" ++
    reason (new .service ≠ ∅) "new_service_target" ++ reason (new .route ≠ ∅) "route_drift" ++
    reason (new .visible ≠ ∅) "new_visible_service" ++
    reason (expectedChange = true) "expected_change_context"
  { status := if new .external ≠ ∅ ∨ new .service ≠ ∅ ∨ new .route ≠ ∅ ∨ new .visible ≠ ∅
      then pyStr "expanding" else pyStr "stable"
    score := score
    label := bucket score
    newExternalDestinations := listed (new .external)
    newServiceTargets := listed (new .service)
    newRouteMarkers := listed (new .route)
    newVisibleServices := listed (new .visible)
    seenExternalDestinationCount := (seen .external).card
    seenServiceTargetCount := (seen .service).card
    reasons := if reasons = [] then [pyStr "no_new_exposure"] else reasons
    evidenceIds := sortedUnique evidenceIds }

/-- `_evaluate_exposure_change_state`, of what the payloads show. -/
def evaluateExposureChangeState (seen : Seen) (exposures : List Exposure) : Exposed :=
  let current := currentValues exposures
  let new c := current c \ seen c
  let seen' c := largest c.cap (seen c ∪ current c)
  { new := new
    seen := seen'
    state := exposureState new seen' (exposures.any (·.expectedChange))
      ((exposures.map (·.eventId)).filter (· ≠ [])) }

/-! ## 3. Call after call -/

variable {T : Type} [PyDatetime T]

/-- A call, and whether the parts of the evaluator before this one and after it raise. -/
structure ExposureCall (F T : Type) where
  call : Call F T
  raisesBefore : Bool
  raisesAfter : Bool

/-- What an evaluator is made with, and `ipaddress.ip_address`. -/
structure ExposureConfig (T : Type) where
  policy : SuppressionPolicy T
  ipAddress : PyStr → Option AddressFlags

variable (config : ExposureConfig T)

/-- What a call shows; none when it raises before it gets there, or at a port. -/
def shown (c : ExposureCall F T) : Option (List Exposure) := do
  guard (c.raisesBefore = false)
  let soc ← actionable config.policy c.call.clock
    (ofSource "suricata_eve" (toPayloads c.call.events))
  readExposures config.ipAddress (soc ++ ofSource "flow_min" (toPayloads c.call.events))

/-- The sets after a call. -/
def seenNext (seen : Seen) (c : ExposureCall F T) : Seen :=
  match shown config c with
  | none => seen
  | some exposures => (evaluateExposureChangeState seen exposures).seen

/-- The sets after calls. -/
def seenAfter (calls : List (ExposureCall F T)) : Seen :=
  calls.foldl (seenNext config) fun _ => ∅

/-- What a call returns after others; none when it raises. -/
def returned (past : List (ExposureCall F T)) (c : ExposureCall F T) : Option Exposed := do
  let exposures ← shown config c
  guard (c.raisesAfter = false)
  return evaluateExposureChangeState (seenAfter config past) exposures

/-- The values of a class that a call shows. -/
def valuesOf (c : ExposureCall F T) (kind : ExposureClass) : Finset PyStr :=
  ((shown config c).map fun exposures => currentValues exposures kind).getD ∅

/-- The values of a class that calls have shown. -/
def allValues (calls : List (ExposureCall F T)) (kind : ExposureClass) : Finset PyStr :=
  calls.foldl (fun values c => values ∪ valuesOf config c kind) ∅

/-! ## 4. What has been seen -/

variable {config} {calls past : List (ExposureCall F T)} {c call later : ExposureCall F T}
  {kind : ExposureClass} {v : PyStr} {seen : Seen}

theorem allValues_concat : allValues config (past ++ [c]) kind =
    allValues config past kind ∪ valuesOf config c kind := by
  simp [allValues]

theorem allValues_append_subset {more : List (ExposureCall F T)} :
    allValues config past kind ⊆ allValues config (past ++ more) kind := by
  induction more using List.reverseRecOn with
  | nil => simp
  | append_singleton more c ih =>
    rw [← List.append_assoc, allValues_concat]
    exact ih.trans Finset.subset_union_left

theorem valuesOf_subset : valuesOf config c kind ⊆ allValues config (past ++ [c]) kind := by
  rw [allValues_concat]
  exact Finset.subset_union_right

/-- A call puts its values in, and cuts. -/
theorem seenNext_eq (h : largest kind.cap (seen kind) = seen kind) :
    seenNext config seen c kind = largest kind.cap (seen kind ∪ valuesOf config c kind) := by
  cases hshown : shown config c with
  | none => simp [seenNext, valuesOf, hshown, h]
  | some exposures => simp [seenNext, valuesOf, hshown, evaluateExposureChangeState]

/-- **The values that are kept are the greatest of all that have come up.** -/
theorem seenAfter_eq (calls : List (ExposureCall F T)) (kind : ExposureClass) :
    seenAfter config calls kind = largest kind.cap (allValues config calls kind) := by
  induction calls using List.reverseRecOn with
  | nil => exact (largest_of_le (Nat.zero_le _)).symm
  | append_singleton calls c ih =>
    have hagain : largest kind.cap (seenAfter config calls kind) = seenAfter config calls kind := by
      rw [ih, largest_largest]
    have hnext : seenAfter config (calls ++ [c]) = seenNext config (seenAfter config calls) c := by
      simp [seenAfter]
    rw [hnext, seenNext_eq hagain, ih, largest_union_largest, allValues_concat]

/-! ## 5. What is new -/

/-- The call returns. -/
def Returns (config : ExposureConfig T) (c : ExposureCall F T) : Prop :=
  (shown config c).isSome = true ∧ c.raisesAfter = false

/-- A call counts a value of a class as new. -/
def ReportsNew (config : ExposureConfig T) (past : List (ExposureCall F T)) (c : ExposureCall F T)
    (kind : ExposureClass) (v : PyStr) : Prop :=
  ∃ out, returned config past c = some out ∧ v ∈ out.new kind

theorem reportsNew_iff_seen : ReportsNew config past c kind v ↔
    Returns config c ∧ v ∈ valuesOf config c kind ∧ v ∉ seenAfter config past kind := by
  unfold ReportsNew Returns returned valuesOf
  cases hshown : shown config c with
  | none => simp
  | some exposures =>
    cases hraises : c.raisesAfter with
    | true => simp
    | false => simp [evaluateExposureChangeState]

/-- The routes that are returned as new are the first of those of the call that are. -/
theorem routes_returned {out : Exposed} (h : returned config past c = some out) :
    out.new .route ⊆ valuesOf config c .route ∧
      out.state.newRouteMarkers = listed (out.new .route) := by
  unfold returned valuesOf at *
  cases hshown : shown config c with
  | none => simp [hshown] at h
  | some exposures =>
    simp only [hshown, Option.bind_eq_bind, Option.bind_some, Option.bind_eq_some_iff,
      Option.pure_def, Option.some.injEq] at h
    obtain ⟨-, -, rfl⟩ := h
    exact ⟨Finset.sdiff_subset, rfl⟩

/-- **A value is new when it has not come up, or so many greater ones have.** -/
theorem reportsNew_iff : ReportsNew config past c kind v ↔
    Returns config c ∧ v ∈ valuesOf config c kind ∧
      (v ∈ allValues config past kind →
        kind.cap ≤ (greater v (allValues config past kind)).card) := by
  rw [reportsNew_iff_seen, seenAfter_eq, mem_largest, not_and, not_lt]

/-- New exposure is reported once: a value that a call reports as new is not reported again while
fewer values than the bound have come up, and one of the call before never is. -/
structure ReportedOnce (config : ExposureConfig T) (calls : List (ExposureCall F T)) : Prop where
  withinCap : ∀ past call between later rest, calls = past ++ call :: (between ++ later :: rest) →
    ∀ kind v, ReportsNew config past call kind v →
      (allValues config (past ++ call :: between) kind).card < kind.cap →
        ¬ ReportsNew config (past ++ call :: between) later kind v
  callBefore : ∀ past call later rest, calls = past ++ call :: later :: rest →
    ∀ kind, ∀ v ∈ valuesOf config call kind, ¬ ReportsNew config (past ++ [call]) later kind v

/-- Of each value that a call shows and the next one shows again, fewer greater ones than the bound
have come up. -/
def RoomKept (config : ExposureConfig T) (calls : List (ExposureCall F T)) : Prop :=
  ∀ past call later rest, calls = past ++ call :: later :: rest → Returns config later →
    ∀ kind, ∀ v ∈ valuesOf config call kind, v ∈ valuesOf config later kind →
      (greater v (allValues config (past ++ [call]) kind)).card < kind.cap

/-- While fewer values than the bound have come up, none of them is new. -/
theorem not_new_withinCap (hv : v ∈ allValues config past kind)
    (hcard : (allValues config past kind).card ≤ kind.cap) :
    ¬ ReportsNew config past later kind v := by
  rw [reportsNew_iff]
  rintro ⟨-, -, hover⟩
  exact absurd ((hover hv).trans_lt (card_greater_lt hv)) (not_lt.mpr hcard)

/-- **New exposure is reported once exactly in the runs in which there is room for the values of the
call before.** -/
theorem reported_once_iff (config : ExposureConfig T) (calls : List (ExposureCall F T)) :
    ReportedOnce config calls ↔ RoomKept config calls := by
  constructor
  · intro h past call later rest heq hreturns kind v hv hagain
    by_contra hover
    refine h.callBefore past call later rest heq kind v hv (reportsNew_iff.mpr ?_)
    exact ⟨hreturns, hagain, fun _ => not_lt.mp hover⟩
  · intro h
    constructor
    · intro past call between later rest _ kind v hnew hcard
      refine not_new_withinCap ?_ hcard.le
      have hv : v ∈ allValues config (past ++ [call]) kind :=
        valuesOf_subset (reportsNew_iff.mp hnew).2.1
      rw [List.append_cons]
      exact allValues_append_subset hv
    · intro past call later rest heq kind v hv hnew
      obtain ⟨hreturns, hagain, hover⟩ := reportsNew_iff.mp hnew
      have hroom := h past call later rest heq hreturns kind v hv hagain
      exact absurd (hover (valuesOf_subset hv)) (not_le.mpr hroom)

end Digits

/-! ## 6. One route too many -/

/-- A flow over a route. -/
def flowOver (route : PyStr) : Row Whole :=
  [(pyStr "source", .str (pyStr "flow_min")),
    (pyStr "attrs", .obj [(pyStr "dst_ip", .str (pyStr "10.0.0.1")), (pyStr "route_id", .str route)])]

/-- No policy, and one private address. -/
def plainConfig : ExposureConfig PyStr where
  policy := ⟨[], [], [], [], [], [], [], fun _ => some false⟩
  ipAddress value := if value = pyStr "10.0.0.1" then some ⟨true, false, false, false⟩ else none

/-- A call with flows over these routes, in which nothing raises. -/
def routesCall (routes : List PyStr) : ExposureCall Whole PyStr :=
  ⟨⟨routes.map fun route => .obj (flowOver route), fun _ => [], []⟩, false, false⟩

/-- What a flow over a route shows. -/
def routeShown (route : PyStr) : Exposure where
  value
    | .route => nonempty (Decision.strip route)
    | _ => none
  expectedChange := false
  eventId := []

theorem source_flowOver (route : PyStr) :
    strField "source" (flowOver route) = pyStr "flow_min" := rfl

theorem readExposure_flowOver {route : PyStr} (hne : route ≠ []) :
    readExposure plainConfig.ipAddress (flowOver route) = some (some (routeShown route)) := by
  have hbenign : isBenignBackgroundPayload (flowOver route) = false := by
    simp [isBenignBackgroundPayload, source_flowOver]
  have hends : socEndpoints (flowOver route) = ([], pyStr "10.0.0.1") := rfl
  have hport : socPort (flowOver route) = some 0 := rfl
  have hdst : pyStr "10.0.0.1" ≠ [] := by decide
  simp only [readExposure, hbenign, hends, hport, hdst, Bool.false_eq_true, or_self, if_false,
    Option.map_some, Option.some.injEq, routeShown, Exposure.mk.injEq]
  refine ⟨funext fun kind => ?_, rfl, rfl⟩
  cases kind with
  | service => rfl
  | external => rfl
  | route =>
    have hattr : attr "route_id" (flowOver route) = some (.str route) := rfl
    have htruthy : isTruthy (some (.str route : PyJson Whole)) = true := by
      simp [isTruthy, truthy, hne]
    have hvalue : strOr (some (.str route : PyJson Whole)) = route := by
      simp [strOr, truthy, strOf, hne]
    simp only [hattr, pyOr, htruthy, if_true, hvalue]
  | visible => rfl

theorem toPayloads_flows (routes : List PyStr) :
    toPayloads (routes.map fun route => PyJson.obj (flowOver route)) = routes.map flowOver := by
  induction routes with
  | nil => rfl
  | cons route routes ih =>
    have hknown : pyStr "flow_min" ∈ allowedSources.map pyStr := List.mem_map_of_mem (by decide)
    have hread : strField "source" (flowOver route) ∈ allowedSources.map pyStr := hknown
    have hone (rest : List (PyJson Whole)) :
        toPayloads (.obj (flowOver route) :: rest) = flowOver route :: toPayloads rest := by
      simp only [toPayloads, List.filterMap_cons, if_pos hread]
    rw [List.map_cons, List.map_cons, hone, ih]

theorem ofSource_flows (routes : List PyStr) (source : String) :
    ofSource source (routes.map flowOver) =
      if source = "flow_min" then routes.map flowOver else [] := by
  unfold ofSource
  split_ifs with h
  · rw [List.filter_eq_self]
    intro payload hpayload
    obtain ⟨route, -, rfl⟩ := List.mem_map.mp hpayload
    simp [source_flowOver, h]
  · rw [List.filter_eq_nil_iff]
    intro payload hpayload
    obtain ⟨route, -, rfl⟩ := List.mem_map.mp hpayload
    simp [source_flowOver, Ne.symm h]

theorem shown_routesCall {routes : List PyStr} (hne : ∀ route ∈ routes, route ≠ []) :
    shown plainConfig (routesCall routes) = some (routes.map routeShown) := by
  have hread : (routes.map flowOver).mapM (readExposure plainConfig.ipAddress) =
      some (routes.map fun route => some (routeShown route)) := by
    induction routes with
    | nil => rfl
    | cons route routes ih =>
      obtain ⟨hroute, hrest⟩ := List.forall_mem_cons.mp hne
      rw [List.map_cons, List.mapM_cons, readExposure_flowOver hroute, ih hrest]
      rfl
  have hsoc : actionable plainConfig.policy (routesCall routes).call.clock ([] : List (Row Whole)) =
      some [] := rfl
  simp only [shown, routesCall, toPayloads_flows, ofSource_flows, readExposures] at hsoc ⊢
  simp only [String.reduceEq, if_false, if_true, hsoc]
  simp [hread, List.reduceOption]
/-- Texts without blanks, as routes, are what a call shows. -/
theorem valuesOf_routesCall {routes : List PyStr} (hne : ∀ route ∈ routes, route ≠ [])
    (hsolid : ∀ route ∈ routes, ∀ c ∈ route, Decision.isSpace c = false) :
    valuesOf plainConfig (routesCall routes) .route = routes.toFinset := by
  have hvalues : (routes.map routeShown).filterMap (fun e => e.value .route) = routes := by
    induction routes with
    | nil => rfl
    | cons route routes ih =>
      obtain ⟨hroute, hrest⟩ := List.forall_mem_cons.mp hne
      obtain ⟨hblank, hblanks⟩ := List.forall_mem_cons.mp hsolid
      have hone : (routeShown route).value .route = some route := by
        simp [routeShown, Decision.strip_solid hblank, nonempty, hroute]
      simp only [List.map_cons, List.filterMap_cons, hone]
      rw [ih hrest hblanks]
  simp only [valuesOf, shown_routesCall hne, Option.map_some, Option.getD_some, currentValues,
    hvalues]

/-- As many routes as are kept, each greater than the first. -/
def crowd : List PyStr := (List.range 1024).map fun n => List.replicate (n + 1) 98

/-- A call with one route more than are kept, and a call with the smallest again. -/
def crowdedCall : ExposureCall Whole PyStr := routesCall (pyStr "a" :: crowd)

/-- The second call. -/
def againCall : ExposureCall Whole PyStr := routesCall [pyStr "a"]

theorem valuesOf_crowdedCall :
    valuesOf plainConfig crowdedCall .route = (pyStr "a" :: crowd).toFinset := by
  have hroute : ∀ route ∈ pyStr "a" :: crowd, route = pyStr "a" ∨
      ∃ n, route = List.replicate (n + 1) 98 := by
    intro route hmem
    rcases List.mem_cons.mp hmem with rfl | hmem
    · exact Or.inl rfl
    · obtain ⟨n, -, rfl⟩ := List.mem_map.mp hmem
      exact Or.inr ⟨n, rfl⟩
  refine valuesOf_routesCall (fun route hmem => ?_) fun route hmem c hc => ?_
  · rcases hroute route hmem with rfl | ⟨n, rfl⟩
    · decide
    · simp
  · rcases hroute route hmem with rfl | ⟨n, rfl⟩
    · rw [List.mem_singleton.mp (by simpa [pyStr] using hc : c ∈ [(97 : CodePoint)])]
      decide
    · rw [List.eq_of_mem_replicate hc]
      decide

theorem valuesOf_againCall : valuesOf plainConfig againCall .route = {pyStr "a"} := by
  refine valuesOf_routesCall (fun route hmem => ?_) fun route hmem c hc => ?_
  · rw [List.mem_singleton.mp hmem]
    decide
  · rw [List.mem_singleton.mp hmem] at hc
    rw [List.mem_singleton.mp (by simpa [pyStr] using hc : c ∈ [(97 : CodePoint)])]
    decide

theorem crowded : 1024 ≤ (greater (pyStr "a") (pyStr "a" :: crowd).toFinset).card := by
  have hnodup : crowd.Nodup := by
    refine List.Nodup.map (fun n m h => ?_) List.nodup_range
    simpa using congrArg List.length h
  have hsub : crowd.toFinset ⊆ greater (pyStr "a") (pyStr "a" :: crowd).toFinset := by
    intro route hroute
    rw [List.mem_toFinset] at hroute
    obtain ⟨n, -, rfl⟩ := List.mem_map.mp hroute
    refine mem_greater.mpr ⟨?_, ?_⟩
    · rw [List.mem_toFinset]
      exact List.mem_cons_of_mem _ hroute
    · exact List.Lex.rel (by decide)
  calc 1024 = crowd.length := by simp [crowd]
    _ = crowd.toFinset.card := (List.toFinset_card_of_nodup hnodup).symm
    _ ≤ _ := Finset.card_le_card hsub

/-- The smallest route of a crowded call is new again in the next call, and listed as such. -/
theorem route_new_again :
    (∃ out, returned plainConfig [crowdedCall] againCall = some out ∧
      out.state.newRouteMarkers = [pyStr "a"]) ∧
    ¬ ∀ (config : ExposureConfig PyStr) (calls : List (ExposureCall Whole PyStr)),
      ReportedOnce config calls := by
  have hnew : ReportsNew plainConfig [crowdedCall] againCall .route (pyStr "a") := by
    refine reportsNew_iff.mpr ⟨⟨?_, rfl⟩, ?_, fun _ => ?_⟩
    · rw [againCall, shown_routesCall (by simp; decide)]
      rfl
    · rw [valuesOf_againCall]
      exact Finset.mem_singleton_self _
    · have hall : allValues plainConfig [crowdedCall] .route = (pyStr "a" :: crowd).toFinset := by
        rw [← valuesOf_crowdedCall]
        exact Finset.empty_union _
      rw [hall]
      exact crowded
  constructor
  · obtain ⟨out, hout, hmem⟩ := hnew
    refine ⟨out, hout, ?_⟩
    obtain ⟨hsub, hlisted⟩ := routes_returned hout
    rw [valuesOf_againCall] at hsub
    rw [hlisted, Finset.eq_singleton_iff_unique_mem.mpr ⟨hmem, fun v hv => by simpa using hsub hv⟩]
    simp [listed]
  · intro h
    refine (h plainConfig [crowdedCall, againCall]).callBefore [] crowdedCall againCall [] rfl
      .route (pyStr "a") ?_ hnew
    rw [valuesOf_crowdedCall]
    simp

end AzazelEdge.Evaluators.Soc
