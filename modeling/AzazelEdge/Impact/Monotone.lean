/-
# More evidence

What one more event, or one more device of the SoT, does to the client impact (`more_evidence`).  It
can lower it, in two ways.

The affected clients are all private addresses as long as none is a device, and only the devices
afterwards: the count falls when the first of them comes and they are fewer than the addresses were
(`Switches`).  And the first entry for an address is the one that counts: one that is put before a
critical entry hides it (`Shadows`).  Without either, nothing falls.
-/
import AzazelEdge.Impact.Client
import Mathlib.Algebra.Order.BigOperators.Group.Finset

namespace AzazelEdge.Impact

open AzazelEdge.Lib AzazelEdge.Lib.Py AzazelEdge.Audit AzazelEdge.Arbiter AzazelEdge.Evaluators
  AzazelEdge.EvidencePlane

/-! ## 1. The score of the counts -/

theorem scopePenalty_mono {clients clients' services services' : ℕ} (hc : clients ≤ clients')
    (hs : services ≤ services') :
    scopePenalty (scopeFor clients services) ≤ scopePenalty (scopeFor clients' services') := by
  unfold scopeFor
  split_ifs <;> simp only [scopePenalty] <;> omega

/-- **The score grows with every count.** -/
theorem impactScore_mono (action : PyStr)
    {affected affected' critical critical' services services' : ℕ} (ha : affected ≤ affected')
    (hc : critical ≤ critical') (hs : services ≤ services') :
    impactScore action affected critical services ≤
      impactScore action affected' critical' services' := by
  have hpenalty := scopePenalty_mono ha hs
  unfold impactScore
  split_ifs <;> omega

/-! ## 2. A count that switches -/

/-- Nothing was known, something is, and it is less than there was. -/
def Switches {α : Type} (known known' all : Finset α) : Prop :=
  known = ∅ ∧ known'.Nonempty ∧ known'.card < all.card

/-- What is known, if there is any, and all otherwise: with more of both, this falls exactly when it
switches to fewer. -/
theorem switched_lt_iff {α : Type} {known known' all all' : Finset α} (hknown : known ⊆ known')
    (hall : all ⊆ all') :
    (if known'.Nonempty then known'.card else all'.card) <
        (if known.Nonempty then known.card else all.card) ↔ Switches known known' all := by
  unfold Switches
  have hmore := Finset.card_le_card hknown
  have hwider := Finset.card_le_card hall
  rcases Finset.eq_empty_or_nonempty known with rfl | hsome
  · rw [if_neg Finset.not_nonempty_empty]
    by_cases hsome' : known'.Nonempty
    · simp [hsome']
    · rw [if_neg hsome']
      simp only [hsome', false_and, and_false, iff_false]
      omega
  · rw [if_pos hsome, if_pos (hsome.mono hknown)]
    simp only [hsome.ne_empty, false_and, iff_false]
    omega

/-! ## 3. Clients and devices -/

variable {F : Type} [PyFloat F] [PyRepr F] {isPrivate : PyStr → Bool}
  {devices devices' before after : List (PyJson F)} {ips ips' : Finset PyStr} {ip : PyStr}
  {device : PyJson F}

theorem deviceAt_eq_some {members : Row F} :
    deviceAt ip device = some members ↔ device = .obj members ∧ strField "ip" members = ip := by
  unfold deviceAt
  cases device with
  | obj item =>
    simp only [Option.ite_none_right_eq_some, Option.some.injEq, PyJson.obj.injEq]
    exact ⟨fun ⟨hip, hitem⟩ => ⟨hitem, hitem ▸ hip⟩, fun ⟨hitem, hip⟩ => ⟨hitem ▸ hip, hitem⟩⟩
  | _ => simp

/-- A device is found at one address only. -/
theorem deviceAt_inj {ip' : PyStr} {members members' : Row F}
    (h : deviceAt ip device = some members) (h' : deviceAt ip' device = some members') :
    ip = ip' := by
  obtain ⟨rfl, rfl⟩ := deviceAt_eq_some.mp h
  obtain ⟨heq, rfl⟩ := deviceAt_eq_some.mp h'
  rw [PyJson.obj.inj heq]

theorem strField_of_match {members : Row F} (h : matchDevice devices ip = some members) :
    strField "ip" members = ip := by
  obtain ⟨device, -, hat⟩ := List.exists_of_findSome?_eq_some h
  exact (deviceAt_eq_some.mp hat).2

/-- The addresses of the devices are the clients that were looked up. -/
theorem affectedClientCount_eq (h : [] ∉ ips) : affectedClientCount devices ips =
    if (matched devices ips).Nonempty then (matched devices ips).card else ips.card := by
  have himage : ((matched devices ips).image fun ip =>
      ((matchDevice devices ip).map (strField "ip")).getD []).filter (· ≠ []) =
      matched devices ips := by
    have hsame : ∀ ip ∈ matched devices ips,
        ((matchDevice devices ip).map (strField "ip")).getD [] = ip := by
      intro ip hip
      obtain ⟨members, hmembers⟩ := Option.isSome_iff_exists.mp (Finset.mem_filter.mp hip).2
      rw [hmembers]
      exact strField_of_match hmembers
    rw [Finset.image_congr fun ip hip => hsame ip hip, Finset.image_id']
    refine Finset.filter_true_of_mem fun ip hip hnil => h ?_
    exact hnil ▸ (Finset.mem_filter.mp hip).1
  rw [affectedClientCount, himage]

theorem matched_mono (hips : ips ⊆ ips')
    (hdevices : ∀ ip, (matchDevice devices ip).isSome → (matchDevice devices' ip).isSome) :
    matched devices ips ⊆ matched devices' ips' := fun ip hip =>
  Finset.mem_filter.mpr ⟨hips (Finset.mem_filter.mp hip).1, hdevices ip (Finset.mem_filter.mp hip).2⟩

theorem matchDevice_append (ip : PyStr) : matchDevice (before ++ after) ip =
    (matchDevice before ip).or (matchDevice after ip) := List.findSome?_append

theorem matchDevice_cons (ip : PyStr) : matchDevice (device :: after) ip =
    (deviceAt ip device).or (matchDevice after ip) := by
  rw [matchDevice, List.findSome?_cons]
  cases deviceAt ip device <;> rfl

theorem matchDevice_insert (h : (matchDevice (before ++ after) ip).isSome) :
    (matchDevice (before ++ device :: after) ip).isSome := by
  rw [matchDevice_append, Option.isSome_or, Bool.or_eq_true] at h ⊢
  refine h.imp_right fun hafter => ?_
  rw [matchDevice_cons, Option.isSome_or, hafter, Bool.or_true]

variable [PyConvert F]

theorem nil_not_mem_clientAt (ip : PyStr) : [] ∉ clientAt isPrivate ip := by
  unfold clientAt
  split
  · rename_i h
    rw [Finset.mem_singleton]
    exact fun hnil => h.1 hnil.symm
  · exact Finset.notMem_empty _

theorem nil_not_mem_payload {payload : Row F} {told : Affected}
    (h : readPayload isPrivate payload = some told) : [] ∉ told.ips := by
  unfold readPayload at h
  split at h
  · simp only [Option.bind_eq_bind, Option.bind_eq_some_iff, Option.pure_def,
      Option.some.injEq] at h
    obtain ⟨_, _, _, _, _, _, rfl⟩ := h
    rw [Finset.mem_union, not_or]
    exact ⟨nil_not_mem_clientAt _, nil_not_mem_clientAt _⟩
  · split at h
    · cases h
      exact nil_not_mem_clientAt _
    · cases h
      exact Finset.notMem_empty _

/-- No client has an empty address. -/
theorem nil_not_mem_ips {payloads : List (Row F)} {told : Affected}
    (h : readPayloads isPrivate payloads = some told) : [] ∉ told.ips := by
  induction payloads generalizing told with
  | nil =>
    cases h
    exact Finset.notMem_empty _
  | cons payload payloads ih =>
    simp only [readPayloads, Option.bind_eq_bind, Option.bind_eq_some_iff, Option.pure_def,
      Option.some.injEq] at h
    obtain ⟨first, hfirst, others, hothers, rfl⟩ := h
    rw [Affected.union, Finset.mem_union, not_or]
    exact ⟨nil_not_mem_payload hfirst, ih hothers⟩

/-- **What some of the payloads tell, all of them tell.** -/
theorem readPayloads_sublist {payloads payloads' : List (Row F)} {told told' : Affected}
    (hsub : payloads.Sublist payloads') (h : readPayloads isPrivate payloads = some told)
    (h' : readPayloads isPrivate payloads' = some told') :
    told.ips ⊆ told'.ips ∧ told.services ⊆ told'.services := by
  induction hsub generalizing told told' with
  | slnil =>
    rw [← Option.some.inj (h.symm.trans h')]
    exact ⟨Finset.Subset.refl _, Finset.Subset.refl _⟩
  | cons payload _ ih =>
    simp only [readPayloads, Option.bind_eq_bind, Option.bind_eq_some_iff, Option.pure_def,
      Option.some.injEq] at h'
    obtain ⟨first, -, others, hothers, rfl⟩ := h'
    obtain ⟨hips, hservices⟩ := ih h hothers
    exact ⟨hips.trans Finset.subset_union_right, hservices.trans Finset.subset_union_right⟩
  | cons_cons payload _ ih =>
    simp only [readPayloads, Option.bind_eq_bind, Option.bind_eq_some_iff, Option.pure_def,
      Option.some.injEq] at h h'
    obtain ⟨first, hfirst, others, hothers, rfl⟩ := h
    obtain ⟨first', hfirst', others', hothers', rfl⟩ := h'
    obtain ⟨hips, hservices⟩ := ih hothers hothers'
    rw [← Option.some.inj (hfirst.symm.trans hfirst')]
    exact ⟨Finset.union_subset_union_right hips, Finset.union_subset_union_right hservices⟩

/-- The weight of a client: that of its device. -/
def clientWeight (devices : List (PyJson F)) (ip : PyStr) : ℕ :=
  ((matchDevice devices ip).map weightOf).getD 0

theorem criticalClients_mono (hips : ips ⊆ ips') :
    criticalClients devices ips ≤ criticalClients devices ips' :=
  Finset.sum_le_sum_of_subset hips

/-! ## 4. One more device -/

/-- A device that comes before the first entry for a client hides that this one is critical. -/
def Shadows (before : List (PyJson F)) (device : PyJson F) (after : List (PyJson F))
    (ips : Finset PyStr) : Prop :=
  ∃ ip ∈ ips, ∃ members, deviceAt ip device = some members ∧ weightOf members = 0 ∧
    matchDevice before ip = none ∧ ∃ hidden, matchDevice after ip = some hidden ∧ weightOf hidden = 1

theorem weightOf_le_one (members : Row F) : weightOf members ≤ 1 := by
  unfold weightOf criticalityWeight
  split <;> omega

/-- **The critical clients become fewer exactly when a critical entry is hidden.** -/
theorem criticalClients_insert : criticalClients (before ++ device :: after) ips <
    criticalClients (before ++ after) ips ↔ Shadows before device after ips := by
  have hother : ∀ ip, deviceAt ip device = none →
      clientWeight (before ++ device :: after) ip = clientWeight (before ++ after) ip := by
    intro ip hnone
    rw [clientWeight, clientWeight, matchDevice_append, matchDevice_append, matchDevice_cons, hnone]
    rfl
  by_cases hfound : ∃ ip ∈ ips, ∃ members, deviceAt ip device = some members
  · obtain ⟨ip, hip, members, hat⟩ := hfound
    have hrest : ∑ other ∈ ips.erase ip, clientWeight (before ++ device :: after) other =
        ∑ other ∈ ips.erase ip, clientWeight (before ++ after) other := by
      refine Finset.sum_congr rfl fun other hmem => hother other ?_
      cases hfound : deviceAt other device with
      | none => rfl
      | some _ => exact absurd (deviceAt_inj hfound hat) (Finset.ne_of_mem_erase hmem)
    have hsum : criticalClients (before ++ device :: after) ips <
        criticalClients (before ++ after) ips ↔
        clientWeight (before ++ device :: after) ip < clientWeight (before ++ after) ip := by
      unfold criticalClients
      rw [← Finset.add_sum_erase ips _ hip, ← Finset.add_sum_erase ips _ hip]
      have hrest' := hrest
      unfold clientWeight at hrest' ⊢
      omega
    rw [hsum, clientWeight, clientWeight, matchDevice_append, matchDevice_append, matchDevice_cons,
      hat, Option.some_or]
    refine ⟨fun hless => ⟨ip, hip, members, hat, ?_⟩, ?_⟩
    · cases hbefore : matchDevice before ip with
      | some first => simp [hbefore] at hless
      | none =>
        cases hafter : matchDevice after ip with
        | none => simp [hbefore, hafter] at hless
        | some hidden =>
          simp only [hbefore, hafter, Option.none_or, Option.map_some, Option.getD_some] at hless
          have hone := weightOf_le_one hidden
          exact ⟨by omega, rfl, hidden, rfl, by omega⟩
    · rintro ⟨ip', -, members', hat', hzero, hbefore, hidden, hafter, hone⟩
      obtain rfl := deviceAt_inj hat' hat
      obtain rfl := Option.some.inj (hat'.symm.trans hat)
      simp [hbefore, hafter, hzero, hone]
  · have hsame : criticalClients (before ++ device :: after) ips =
        criticalClients (before ++ after) ips := by
      refine Finset.sum_congr rfl fun ip hip => hother ip ?_
      cases hat : deviceAt ip device with
      | none => rfl
      | some members => exact absurd ⟨ip, hip, members, hat⟩ hfound
    rw [hsame]
    refine iff_of_false (lt_irrefl _) ?_
    rintro ⟨ip, hip, members, hat, -⟩
    exact hfound ⟨ip, hip, members, hat⟩

/-! ## 5. The result -/

/-- The clients that these events tell of. -/
def ipsOf (isPrivate : PyStr → Bool) (events : List (PyJson F)) : Finset PyStr :=
  ((readPayloads isPrivate (toPayloads events)).map (·.ips)).getD ∅

variable {action : PyStr} {events : List (PyJson F)} {event : PyJson F} {sot sot' : Row F}
  {r r' : ClientImpact}

/-- What a score is made of. -/
theorem score_eq_some (h : score isPrivate action events sot = some r) :
    ∃ told, readPayloads isPrivate (toPayloads events) = some told ∧
      ipsOf isPrivate events = told.ips ∧ [] ∉ told.ips ∧
      r.criticalClientCount = criticalClients (devicesOf sot) told.ips ∧
      r.affectedClientCount = affectedClientCount (devicesOf sot) told.ips ∧
      r.score = impactScore (normalizedAction F action) r.affectedClientCount
        r.criticalClientCount told.services.card := by
  simp only [score, Option.bind_eq_bind, Option.bind_eq_some_iff, Option.pure_def,
    Option.some.injEq] at h
  obtain ⟨told, htold, rfl⟩ := h
  exact ⟨told, htold, by rw [ipsOf, htold]; rfl, nil_not_mem_ips htold, rfl, rfl, rfl⟩

/-- What one more event may do. -/
structure EventAdded (isPrivate : PyStr → Bool) (devices events events' : List (PyJson F))
    (r r' : ClientImpact) : Prop where
  critical : r.criticalClientCount ≤ r'.criticalClientCount
  affected : r'.affectedClientCount < r.affectedClientCount ↔
    Switches (matched devices (ipsOf isPrivate events)) (matched devices (ipsOf isPrivate events'))
      (ipsOf isPrivate events)
  score : r'.score < r.score → r'.affectedClientCount < r.affectedClientCount

/-- What one more device may do. -/
structure DeviceAdded (ips : Finset PyStr) (before : List (PyJson F)) (device : PyJson F)
    (after : List (PyJson F)) (r r' : ClientImpact) : Prop where
  critical : r'.criticalClientCount < r.criticalClientCount ↔ Shadows before device after ips
  affected : r'.affectedClientCount < r.affectedClientCount ↔
    Switches (matched (before ++ after) ips) (matched (before ++ device :: after) ips) ips
  score : r'.score < r.score → r'.affectedClientCount < r.affectedClientCount ∨
    r'.criticalClientCount < r.criticalClientCount

theorem event_added (h : score isPrivate action (before ++ after) sot = some r)
    (h' : score isPrivate action (before ++ event :: after) sot = some r') :
    EventAdded isPrivate (devicesOf sot) (before ++ after) (before ++ event :: after) r r' := by
  obtain ⟨told, htold, hips, hnil, hcritical, haffected, hscore⟩ := score_eq_some h
  obtain ⟨told', htold', hips', hnil', hcritical', haffected', hscore'⟩ := score_eq_some h'
  have hsub : (toPayloads (before ++ after)).Sublist (toPayloads (before ++ event :: after)) :=
    ((List.sublist_cons_self event after).append_left before).filterMap _
  obtain ⟨hmore, hservices⟩ := readPayloads_sublist hsub htold htold'
  have hcriticalLe : r.criticalClientCount ≤ r'.criticalClientCount := by
    rw [hcritical, hcritical']
    exact criticalClients_mono hmore
  refine ⟨hcriticalLe, ?_, fun hless => ?_⟩
  · rw [hips, hips', haffected, haffected', affectedClientCount_eq hnil,
      affectedClientCount_eq hnil']
    exact switched_lt_iff (matched_mono hmore fun _ hmatch => hmatch) hmore
  · by_contra hmoreAffected
    rw [hscore, hscore'] at hless
    exact absurd (impactScore_mono _ (not_lt.mp hmoreAffected) hcriticalLe
      (Finset.card_le_card hservices)) (not_le.mpr hless)

theorem device_added (hsot : getKey (pyStr "devices") sot = some (.arr (before ++ after)))
    (hsot' : getKey (pyStr "devices") sot' = some (.arr (before ++ device :: after)))
    (h : score isPrivate action events sot = some r) :
    ∃ r', score isPrivate action events sot' = some r' ∧
      DeviceAdded (ipsOf isPrivate events) before device after r r' := by
  obtain ⟨told, htold, hips, hnil, hcritical, haffected, hscore⟩ := score_eq_some h
  obtain ⟨r', h'⟩ : ∃ r', score isPrivate action events sot' = some r' := by
    rw [score, htold]
    exact ⟨_, rfl⟩
  obtain ⟨told', htold', -, -, hcritical', haffected', hscore'⟩ := score_eq_some h'
  obtain rfl := Option.some.inj (htold.symm.trans htold')
  have hdevices : devicesOf sot = before ++ after := by rw [devicesOf, hsot]; rfl
  have hdevices' : devicesOf sot' = before ++ device :: after := by rw [devicesOf, hsot']; rfl
  rw [hdevices] at hcritical haffected
  rw [hdevices'] at hcritical' haffected'
  refine ⟨r', h', ?_, ?_, fun hless => ?_⟩
  · rw [hips, hcritical, hcritical']
    exact criticalClients_insert
  · rw [hips, haffected, haffected', affectedClientCount_eq hnil, affectedClientCount_eq hnil]
    exact switched_lt_iff (matched_mono (Finset.Subset.refl _) fun _ => matchDevice_insert)
      (Finset.Subset.refl _)
  · by_contra hnone
    obtain ⟨hmoreAffected, hmoreCritical⟩ := not_or.mp hnone
    rw [hscore, hscore'] at hless
    exact absurd (impactScore_mono _ (not_lt.mp hmoreAffected) (not_lt.mp hmoreCritical) le_rfl)
      (not_le.mpr hless)

/-- **More evidence.**  One more event lowers the affected clients exactly when the first known
device comes with it and the known ones are fewer than the addresses were, and never the critical
clients.  One more device lowers the affected clients in the same case, and the critical clients
exactly when it hides a critical entry.  The score falls with one of the two counts only. -/
theorem more_evidence (isPrivate : PyStr → Bool) (action : PyStr) :
    (∀ (before : List (PyJson F)) event after sot r r',
      score isPrivate action (before ++ after) sot = some r →
      score isPrivate action (before ++ event :: after) sot = some r' →
      EventAdded isPrivate (devicesOf sot) (before ++ after) (before ++ event :: after) r r') ∧
    ∀ (before : List (PyJson F)) device after sot sot' events r,
      getKey (pyStr "devices") sot = some (.arr (before ++ after)) →
      getKey (pyStr "devices") sot' = some (.arr (before ++ device :: after)) →
      score isPrivate action events sot = some r →
      ∃ r', score isPrivate action events sot' = some r' ∧
        DeviceAdded (ipsOf isPrivate events) before device after r r' :=
  ⟨fun _ _ _ _ _ _ h h' => event_added h h', fun _ _ _ _ _ _ _ hsot hsot' h =>
    device_added hsot hsot' h⟩

/-! ## 6. Leases of one network -/

/-- An address of 192.168.0.0/16. -/
def inLan (ip : PyStr) : Bool := ip.take 8 = pyStr "192.168."

def leaseOf (ip : String) : PyJson Whole :=
  .obj [(pyStr "event_id", .str (pyStr ip)), (pyStr "source", .str (pyStr "noc_inventory")),
    (pyStr "kind", .str (pyStr "dhcp_lease")),
    (pyStr "attrs", .obj [(pyStr "ip", .str (pyStr ip))])]

def deviceOf (ip criticality : String) : PyJson Whole :=
  .obj [(pyStr "ip", .str (pyStr ip)), (pyStr "criticality", .str (pyStr criticality))]

/-- A SoT of devices. -/
def sotOf (devices : List (PyJson Whole)) : Row Whole := [(pyStr "devices", .arr devices)]

/-- Three leases of unknown clients. -/
def threeLeases : List (PyJson Whole) :=
  [leaseOf "192.168.40.11", leaseOf "192.168.40.12", leaseOf "192.168.40.13"]

def scoreThrottle (events devices : List (PyJson Whole)) : Option ClientImpact :=
  score inLan (pyStr "throttle") events (sotOf devices)

theorem more_evidence_sample : ∃ r r', scoreThrottle threeLeases [deviceOf "192.168.40.10" "core"] =
      some r ∧
    scoreThrottle (leaseOf "192.168.40.10" :: threeLeases) [deviceOf "192.168.40.10" "core"] =
      some r' ∧
    EventAdded inLan (devicesOf (sotOf [deviceOf "192.168.40.10" "core"])) threeLeases
      (leaseOf "192.168.40.10" :: threeLeases) r r' ∧
    ∃ r'', scoreThrottle threeLeases
        [deviceOf "192.168.40.11" "normal", deviceOf "192.168.40.10" "core"] = some r'' ∧
      DeviceAdded (ipsOf inLan threeLeases) [] (deviceOf "192.168.40.11" "normal")
        [deviceOf "192.168.40.10" "core"] r r'' := by
  obtain ⟨r, h⟩ : ∃ r, scoreThrottle threeLeases [deviceOf "192.168.40.10" "core"] = some r :=
    Option.isSome_iff_exists.mp (by decide +kernel)
  obtain ⟨r', h'⟩ : ∃ r', scoreThrottle (leaseOf "192.168.40.10" :: threeLeases)
      [deviceOf "192.168.40.10" "core"] = some r' :=
    Option.isSome_iff_exists.mp (by decide +kernel)
  have hboth := more_evidence inLan (pyStr "throttle") (F := Whole)
  exact ⟨r, r', h, h', hboth.1 [] _ threeLeases _ r r' h h',
    hboth.2 [] _ _ (sotOf [deviceOf "192.168.40.10" "core"]) _ threeLeases r rfl rfl h⟩

/-- No count and no score is lower. -/
def NotLower (r r' : ClientImpact) : Prop :=
  r.score ≤ r'.score ∧ r.affectedClientCount ≤ r'.affectedClientCount ∧
    r.criticalClientCount ≤ r'.criticalClientCount

/-- The score, the affected clients and the critical clients. -/
def ClientImpact.figures (r : ClientImpact) : ℕ × ℕ × ℕ :=
  (r.score, r.affectedClientCount, r.criticalClientCount)

/-- Figures that have fallen. -/
theorem not_notLower {before after : Option ClientImpact} {figures figures' : ℕ × ℕ × ℕ}
    (h : before.map (·.figures) = some figures) (h' : after.map (·.figures) = some figures')
    (hless : figures'.1 < figures.1) :
    ∃ r r', before = some r ∧ after = some r' ∧ r.figures = figures ∧ r'.figures = figures' ∧
      ¬NotLower r r' := by
  obtain ⟨r, hr, rfl⟩ := Option.map_eq_some_iff.mp h
  obtain ⟨r', hr', rfl⟩ := Option.map_eq_some_iff.mp h'
  exact ⟨r, r', hr, hr', rfl, rfl, fun hle => absurd hle.1 (not_le.mpr hless)⟩

/-- **One event, or one device, more lowers a score**: from 80 to 40 when one of the clients comes to
be known, so that the arbiter no longer holds back, and from 65 to 40 when a critical entry is
hidden. -/
theorem first_device_lowers :
    (∃ r r', scoreThrottle threeLeases [deviceOf "192.168.40.10" "normal"] = some r ∧
      scoreThrottle (leaseOf "192.168.40.10" :: threeLeases)
        [deviceOf "192.168.40.10" "normal"] = some r' ∧
      r.figures = (80, 3, 0) ∧ r'.figures = (40, 1, 0) ∧ ¬NotLower r r') ∧
    (∃ r r', scoreThrottle threeLeases [] = some r ∧
      scoreThrottle threeLeases [deviceOf "192.168.40.11" "normal"] = some r' ∧
      r.figures = (80, 3, 0) ∧ r'.figures = (40, 1, 0) ∧ ¬NotLower r r') ∧
    ∃ r r', scoreThrottle threeLeases [deviceOf "192.168.40.11" "core"] = some r ∧
      scoreThrottle threeLeases
        [deviceOf "192.168.40.11" "normal", deviceOf "192.168.40.11" "core"] = some r' ∧
      r.figures = (65, 1, 1) ∧ r'.figures = (40, 1, 0) ∧ ¬NotLower r r' :=
  ⟨not_notLower (by decide +kernel) (by decide +kernel) (by decide),
    not_notLower (by decide +kernel) (by decide +kernel) (by decide),
    not_notLower (by decide +kernel) (by decide +kernel) (by decide)⟩

end AzazelEdge.Impact
