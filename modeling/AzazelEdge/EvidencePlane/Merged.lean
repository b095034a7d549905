/-
# Devices that are merged

Whose evidence a row of the inventory has, and which rows are authorized (`inventory_kept_apart`).

As long as no event goes to a session that has another MAC (`Clash`), every row has the evidence of
one MAC, its own, and every MAC that had a lease in a managed network has a row or is ignored.  A
clash is an address that comes back with another MAC: the first session of the address takes the
event, and the device behind it has no row (`address_reused`).

A MAC that the SoT does not know is authorized by its address: where the SoT has an authorized device
of that address, and nowhere else.
-/
import AzazelEdge.EvidencePlane.Inventory
import AzazelEdge.Lib.Run
import AzazelEdge.Lib.Upsert
import Mathlib.Data.List.Dedup
import Mathlib.Data.List.ReduceOption

namespace AzazelEdge.EvidencePlane.Inventory

open AzazelEdge.Lib AzazelEdge.Lib.Py AzazelEdge.Audit AzazelEdge.Arbiter AzazelEdge.Evaluators

/-! ## 1. Sessions -/

variable {sessions sessions' : List Session} {s t : Session} {key ip mac id : PyStr}
  {f : Session → Session} {g : Sighting}

/-- The session of the key is changed, a new one if there is none. -/
def taking (key : PyStr) (f : Session → Session) (sessions : List Session) : List Session :=
  upsert (·.key) key (.new key) f sessions

/-- `ensure_session`, and what is done to the session. -/
theorem modify_ensure (f : Session → Session) (key : PyStr) (sessions : List Session) :
    modifySession key f (ensureSession sessions key) = taking key f sessions := by
  unfold modifySession ensureSession taking upsert
  split
  · rfl
  · rename_i h
    rw [List.map_append, List.map_singleton, if_pos (show (Session.new key).key = key from rfl)]
    have hother : ∀ s ∈ sessions, s.key ≠ key := fun s hs heq =>
      h (heq ▸ List.mem_map_of_mem hs)
    rw [List.map_congr_left fun s hs => if_neg (hother s hs), List.map_id']

theorem taking_eq (h : s ∈ sessions) : modifySession s.key f sessions = taking s.key f sessions := by
  rw [← modify_ensure, ensureSession, if_pos (List.mem_map_of_mem h)]

theorem modify_modify {f f' : Session → Session} (hf : ∀ s, (f s).key = s.key) :
    modifySession key f' (modifySession key f sessions) = modifySession key (f' ∘ f) sessions := by
  unfold modifySession
  rw [List.map_map]
  refine List.map_congr_left fun s _ => ?_
  by_cases h : s.key = key
  · simp [h, (hf s).trans h]
  · simp [h]

theorem findSession_eq_some (h : findSession sessions ip mac = some s) :
    s ∈ sessions ∧ s.found ip mac = true := by
  unfold findSession at h
  exact ⟨List.mem_of_find?_eq_some h, by simpa using List.find?_some h⟩

theorem orElse_self (a : PyStr) : orElse a a = a := by
  unfold orElse
  split <;> rfl

/-- An opened session is the one that its ARP entry finds. -/
theorem found_opened (hnone : findSession sessions g.ip g.mac = none) (hip : g.ip ≠ []) :
    ∃ s, findSession (taking g.sessionKey (.opened g) sessions) g.ip g.mac = some s ∧
      s.key = g.sessionKey := by
  have hupserts : Upserts (·.key) g.sessionKey (.new g.sessionKey) (Session.opened g) :=
    ⟨fun _ => rfl, rfl⟩
  have hnot : ∀ s ∈ sessions, s.found g.ip g.mac = false := by
    intro s hs
    simpa using List.find?_eq_none.mp hnone s hs
  have hopened : ∀ s : Session, (s.opened g).found g.ip g.mac = true := by
    intro s
    simp [Session.found, Session.opened, hip]
  have hkeys : g.sessionKey ∈ (taking g.sessionKey (.opened g) sessions).map (·.key) :=
    (mem_keys_upsert hupserts).mpr (.inr rfl)
  obtain ⟨s, hs, hkey⟩ := List.mem_map.mp hkeys
  have hsfound : s.found g.ip g.mac = true := by
    rcases mem_upsert hupserts hs with ⟨_, hne⟩ | ⟨_, old, _, _, rfl⟩ | ⟨_, _, rfl⟩
    · exact absurd hkey hne
    · exact hopened old
    · exact hopened _
  cases hfind : findSession (taking g.sessionKey (.opened g) sessions) g.ip g.mac with
  | none => exact absurd hsfound (by simpa using List.find?_eq_none.mp hfind s hs)
  | some other =>
    obtain ⟨hother, hotherFound⟩ := findSession_eq_some hfind
    refine ⟨other, rfl, ?_⟩
    rcases mem_upsert hupserts hother with ⟨hold, _⟩ | ⟨hkey, _⟩ | ⟨hkey, _⟩
    · exact absurd hotherFound (by simp [hnot other hold])
    · exact hkey
    · exact hkey

theorem mem_addEvidence {texts : List PyStr} {text : PyStr} :
    id ∈ addEvidence texts text ↔ id ∈ texts ∨ text ≠ [] ∧ id = text := by
  unfold addEvidence addTo
  split_ifs with hnil hmem
  · simp [hnil]
  · exact ⟨.inl, fun h => h.elim (fun hid => hid) fun ⟨_, heq⟩ => heq ▸ hmem⟩
  · simp [hnil]

theorem forall₂_mapM {α β : Type} {f : α → Option β} {xs : List α} {ys : List β}
    (h : xs.mapM f = some ys) : List.Forall₂ (fun x y => f x = some y) xs ys := by
  induction xs generalizing ys with
  | nil =>
    cases h
    exact .nil
  | cons x xs ih =>
    simp only [List.mapM_cons, Option.bind_eq_bind, Option.bind_eq_some_iff, Option.pure_def,
      Option.some.injEq] at h
    obtain ⟨y, hy, rest, hrest, rfl⟩ := h
    exact .cons hy (ih hrest)

section Loop

variable {F E : Type} [PyFloat F] [PyRepr F] [PyConvert F] [PyEpoch E]

@[simp] theorem mergeTs_key (s : Session) (ts : PyStr) : (s.mergeTs E ts).key = s.key := by
  unfold Session.mergeTs
  split <;> rfl

@[simp] theorem mergeTs_mac (s : Session) (ts : PyStr) : (s.mergeTs E ts).mac = s.mac := by
  unfold Session.mergeTs
  split <;> rfl

@[simp] theorem mergeTs_evidenceIds (s : Session) (ts : PyStr) :
    (s.mergeTs E ts).evidenceIds = s.evidenceIds := by
  unfold Session.mergeTs
  split <;> rfl

/-! ## 2. Sessions and their rows -/

/-- The device of the session is ignored. -/
def Ignored (sot : Row F) (s : Session) : Prop :=
  (sessionDevice sot s).any deviceIgnored = true

instance (sot : Row F) (s : Session) : Decidable (Ignored sot s) :=
  inferInstanceAs (Decidable (_ = true))

/-- The row of a session. -/
structure RowOf (settings : Settings E) (sot : Row F) (s : Session) (row : SessionRow) : Prop where
  key : row.sessionKey = s.key
  mac : row.mac = s.mac
  ip : row.ip = s.ip
  evidence : row.evidenceIds = sortedUnique s.evidenceIds
  state : row.sessionState = sessionState settings (sessionDevice sot s) s

variable {settings : Settings E} {sot : Row F} {result : Option Classified}
  {results : List (Option Classified)}

/-- **A session is ignored or has a row.** -/
theorem classify_cases (h : classify settings sot s = some result) :
    (Ignored sot s ∧ result = none) ∨
      (¬Ignored sot s ∧ ∃ found, result = some found ∧ RowOf settings sot s found.row) := by
  unfold classify at h
  simp only at h
  split at h
  · rename_i hignored
    exact .inl ⟨hignored, (Option.some.inj h).symm⟩
  · rename_i hpresent
    simp only [Option.bind_eq_bind, Option.bind_eq_some_iff, Option.pure_def,
      Option.some.injEq] at h
    obtain ⟨allowed, -, rfl⟩ := h
    exact .inr ⟨hpresent, _, rfl, rfl, rfl, rfl, rfl, rfl⟩

/-- A row is of a session. -/
theorem rowOf_of_mem
    (h : List.Forall₂ (fun s result => classify settings sot s = some result) sessions results)
    {found : Classified} (hfound : some found ∈ results) :
    ∃ s ∈ sessions, RowOf settings sot s found.row := by
  induction h with
  | nil => cases hfound
  | cons hclass _ ih =>
    rcases List.mem_cons.mp hfound with rfl | hrest
    · rcases classify_cases hclass with ⟨-, hnone⟩ | ⟨-, found', heq, hrow⟩
      · cases hnone
      · exact ⟨_, List.mem_cons_self, Option.some.inj heq ▸ hrow⟩
    · obtain ⟨s, hs, hrow⟩ := ih hrest
      exact ⟨s, List.mem_cons_of_mem _ hs, hrow⟩

/-- A session that is not ignored has a row. -/
theorem exists_row
    (h : List.Forall₂ (fun s result => classify settings sot s = some result) sessions results)
    (hs : s ∈ sessions) (hpresent : ¬Ignored sot s) :
    ∃ found, some found ∈ results ∧ RowOf settings sot s found.row := by
  induction h with
  | nil => cases hs
  | cons hclass _ ih =>
    rcases List.mem_cons.mp hs with rfl | hrest
    · rcases classify_cases hclass with ⟨hignored, -⟩ | ⟨-, found, rfl, hrow⟩
      · exact absurd hignored hpresent
      · exact ⟨found, List.mem_cons_self, hrow⟩
    · obtain ⟨found, hfound, hrow⟩ := ih hrest
      exact ⟨found, List.mem_cons_of_mem _ hfound, hrow⟩

/-- The ignored sessions are counted. -/
theorem count_ignored
    (h : List.Forall₂ (fun s result => classify settings sot s = some result) sessions results) :
    results.countP (·.isNone) = sessions.countP fun s => Ignored sot s := by
  induction h with
  | nil => rfl
  | cons hclass _ ih =>
    rw [List.countP_cons, List.countP_cons, ih]
    rcases classify_cases hclass with ⟨hignored, rfl⟩ | ⟨hpresent, found, rfl, -⟩
    · simp [hignored]
    · simp [hpresent]

/-- **An authorized session has an authorized device**: that of its MAC, or of its address. -/
theorem device_of_authorized (h : sessionState settings (sessionDevice sot s) s = .authorizedPresent) :
    ∃ device, sessionDevice sot s = some device ∧ deviceAuthorized device = true := by
  unfold sessionState at h
  cases hdevice : sessionDevice sot s with
  | none =>
    simp only [hdevice] at h
    split_ifs at h
  | some device =>
    refine ⟨device, rfl, ?_⟩
    by_contra hno
    simp only [hdevice, hno, if_false] at h
    split_ifs at h

omit [PyConvert F] in
theorem mem_byIp {device : Row F} (h : byIp sot ip = some device) :
    device ∈ dictsOf "devices" sot ∧ strField "ip" device = ip ∧ ip ≠ [] := by
  unfold byIp at h
  split at h
  · cases h
  · rename_i hip
    have hmem := List.mem_filter.mp (List.mem_of_getLast? h)
    exact ⟨hmem.1, by simpa using hmem.2, hip⟩

theorem byMac_eq_none (h : ∀ device ∈ dictsOf "devices" sot, deviceMac device ≠ mac) :
    byMac sot mac = none := by
  unfold byMac
  split
  · rfl
  · rw [List.getLast?_eq_none_iff, List.filter_eq_nil_iff]
    simpa using h

/-! ## 3. Where an event goes -/

variable {payload : Row F}

/-- The MAC of a lease or of an ARP entry. -/
def macOf (payload : Row F) : PyStr :=
  if strField "kind" payload ∈ [pyStr "dhcp_lease", pyStr "arp_entry"] then
    PyConvert.lower F (attrStr "mac" payload)
  else []

/-- An ARP entry that opens its session. -/
def OpensForArp (sessions : List Session) (payload : Row F) : Prop :=
  strField "kind" payload = pyStr "arp_entry" ∧
    (findSession sessions (attrStr "ip" payload) (macOf payload)).isNone = true

/-- What an event does to the session that takes its evidence. -/
structure Takes (sessions : List Session) (payload : Row F) (f : Session → Session) : Prop where
  key : ∀ s, (f s).key = s.key
  evidence : ∀ s, (f s).evidenceIds = addEvidence s.evidenceIds (strField "event_id" payload)
  /-- A session keeps the MAC that it has, unless an ARP entry means to open it. -/
  mac : (∀ s, (f s).mac = orElse s.mac (macOf payload)) ∨
    OpensForArp sessions payload ∧ ∀ s, (f s).mac = macOf payload

theorem Takes.upserts {f : Session → Session} (h : Takes sessions payload f) (key : PyStr) :
    Upserts (·.key) key (.new key) f := ⟨h.key, rfl⟩

theorem record_takes (network : PyStr) (hmac : g.mac = macOf payload)
    (hid : g.evidenceId = strField "event_id" payload) :
    Takes sessions payload (.record F E network g) where
  key s := by simp [Session.record]
  evidence s := by simp [Session.record, hid]
  mac := .inl fun s => by simp [Session.record, hmac]

theorem opened_takes (network : PyStr) (hmac : g.mac = macOf payload)
    (hid : g.evidenceId = strField "event_id" payload) (hopens : OpensForArp sessions payload) :
    Takes sessions payload (.record F E network g ∘ .opened g) where
  key s := by simp [Session.record, Session.opened]
  evidence s := by simp [Session.record, Session.opened, hid]
  mac := .inr ⟨hopens, fun s => by simp [Session.record, Session.opened, hmac, orElse_self]⟩

theorem recordFlow_takes (network ip hint : PyStr) (hmac : macOf payload = []) :
    Takes sessions payload (.recordFlow E network ip hint (strField "ts" payload)
      (strField "event_id" payload)) where
  key s := by simp [Session.recordFlow]
  evidence s := by simp [Session.recordFlow]
  mac := .inl fun s => by
    rw [hmac]
    by_cases hs : s.mac = [] <;> simp [Session.recordFlow, orElse, hs]

variable [PyIpaddress] {networks : List (Row F)}

theorem takeLease_eq (E : Type) [PyEpoch E] (networks : List (Row F)) (sessions : List Session)
    (g : Sighting) : ∃ key, takeLease E networks sessions g =
      (taking key (.record F E (networkId networks g.ip) g) sessions, key) := by
  unfold takeLease
  simp only
  split
  · rename_i s hfound
    rw [taking_eq (findSession_eq_some hfound).1]
    exact ⟨s.key, rfl⟩
  · rw [modify_ensure]
    exact ⟨_, rfl⟩

theorem takeArp_cases {next : List Session} {goes : Option PyStr} (hip : g.ip ≠ [])
    (h : takeArp settings networks sessions g = (next, goes)) :
    (goes = none ∧ next = sessions) ∨ ∃ key, goes = some key ∧
      (next = taking key (.record F E (networkId networks g.ip) g) sessions ∨
        findSession sessions g.ip g.mac = none ∧
          next = taking key (.record F E (networkId networks g.ip) g ∘ .opened g) sessions) := by
  unfold takeArp openForArp at h
  cases hfound : findSession sessions g.ip g.mac with
  | some s =>
    simp only [hfound, Prod.mk.injEq] at h
    obtain ⟨rfl, rfl⟩ := h
    exact .inr ⟨s.key, rfl, .inl (taking_eq (findSession_eq_some hfound).1)⟩
  | none =>
    rw [hfound] at h
    by_cases hiface : folded F g.iface ∈ managedClientInterfaces F settings
    · obtain ⟨s, hopened, hkey⟩ := found_opened hfound hip
      simp only [hiface, not_true_eq_false, if_false, modify_ensure, hopened, Prod.mk.injEq] at h
      obtain ⟨rfl, rfl⟩ := h
      refine .inr ⟨g.sessionKey, by rw [hkey], .inr ⟨rfl, ?_⟩⟩
      rw [hkey, ← modify_ensure, modify_modify (f := .opened g) fun _ => rfl,
        modify_ensure]
    · simp only [hiface, not_false_eq_true, if_true] at h
      obtain ⟨rfl, rfl⟩ := Prod.mk.inj h
      exact .inl ⟨rfl, rfl⟩

omit [PyEpoch E] in
theorem ne_nil_of_managed (h : ipInManagedScope settings ip = true) : ip ≠ [] := by
  rintro rfl
  cases h

/-- **What an event does**: nothing, or the session of one key takes it, which is made if it is not
there. -/
theorem observe_cases {next : List Session} {goes : Option PyStr}
    (h : observe settings networks sessions payload = some (next, goes)) :
    (goes = none ∧ next = sessions) ∨ ∃ key f, goes = some key ∧ Takes sessions payload f ∧
      next = taking key f sessions := by
  unfold observe at h
  simp only at h
  split at h
  · -- a lease
    rename_i hkind
    split at h
    · obtain ⟨rfl, rfl⟩ := Prod.mk.inj (Option.some.inj h)
      exact .inl ⟨rfl, rfl⟩
    · obtain ⟨key, hlease⟩ := takeLease_eq E networks sessions (leaseOf payload)
      rw [hlease] at h
      obtain ⟨rfl, rfl⟩ := Prod.mk.inj (Option.some.inj h)
      exact .inr ⟨key, _, rfl, record_takes _ (by simp [macOf, hkind, leaseOf]) rfl, rfl⟩
  · split at h
    · -- an ARP entry
      rename_i hkind
      have hmac : (arpOf payload).mac = macOf payload := by simp [macOf, hkind, arpOf]
      split at h
      · obtain ⟨rfl, rfl⟩ := Prod.mk.inj (Option.some.inj h)
        exact .inl ⟨rfl, rfl⟩
      · rename_i hmanaged
        have hip := ne_nil_of_managed (Bool.of_not_eq_false hmanaged)
        rcases takeArp_cases hip (Option.some.inj h) with hskip | ⟨key, rfl, hnext | ⟨hnone, hnext⟩⟩
        · exact .inl hskip
        · exact .inr ⟨key, _, rfl, record_takes _ hmac rfl, hnext⟩
        · exact .inr ⟨key, _, rfl, opened_takes _ hmac rfl ⟨hkind, by
            rw [← hmac]
            exact Option.isNone_iff_eq_none.mpr hnone⟩, hnext⟩
    · split at h
      · -- a flow
        rename_i hlease harp hkind
        have hmac : macOf payload = [] := by simp [macOf, hlease, harp]
        unfold takeFlow at h
        simp only at h
        split at h
        · obtain ⟨rfl, rfl⟩ := Prod.mk.inj (Option.some.inj h)
          exact .inl ⟨rfl, rfl⟩
        · simp only [Option.bind_eq_bind, Option.bind_eq_some_iff] at h
          obtain ⟨hint, -, h⟩ := h
          split at h
          · obtain ⟨rfl, rfl⟩ := Prod.mk.inj (Option.some.inj h)
            exact .inl ⟨rfl, rfl⟩
          · rename_i s hfound
            obtain ⟨rfl, rfl⟩ := Prod.mk.inj (Option.some.inj h)
            exact .inr ⟨s.key, _, rfl, recordFlow_takes _ _ _ hmac,
              taking_eq (findSession_eq_some hfound).1⟩
      · obtain ⟨rfl, rfl⟩ := Prod.mk.inj (Option.some.inj h)
        exact .inl ⟨rfl, rfl⟩

/-- A lease of a managed address always goes to a session. -/
theorem lease_taken {next : List Session} {goes : Option PyStr}
    (h : observe settings networks sessions payload = some (next, goes))
    (hkind : strField "kind" payload = pyStr "dhcp_lease")
    (hip : ipInManagedScope settings (attrStr "ip" payload) = true) : ∃ key, goes = some key := by
  unfold observe at h
  have hmanaged : ipInManagedScope settings (leaseOf payload).ip = true := hip
  simp only [hkind, if_true, hmanaged, Bool.true_eq_false, if_false] at h
  exact ⟨_, (Prod.mk.inj (Option.some.inj h)).2.symm⟩

/-! ## 4. The loop -/

variable {past sighted : List (Sighted F)} {g : Sighted F}

/-- A turn of the loop. -/
def step (settings : Settings E) (networks : List (Row F)) (s : List Session) (g : Sighted F)
    (t : List Session) : Prop :=
  g.before = s ∧ observe settings networks s g.payload = some (t, g.key)

theorem run_of_build {payloads : List (Row F)} {last : List Session}
    (h : buildSessions settings networks sessions payloads = some (last, sighted)) :
    Run (step settings networks) sessions sighted last ∧ sighted.map (·.payload) = payloads := by
  induction payloads generalizing sessions sighted with
  | nil =>
    obtain ⟨rfl, rfl⟩ := Prod.mk.inj (Option.some.inj h)
    exact ⟨Run.refl _, rfl⟩
  | cons payload payloads ih =>
    simp only [buildSessions, Option.bind_eq_bind, Option.bind_eq_some_iff, Option.pure_def,
      Option.some.injEq, Prod.mk.injEq, Prod.exists] at h
    obtain ⟨next, key, hobserve, last, rest, hrest, rfl, rfl⟩ := h
    obtain ⟨hrun, hpayloads⟩ := ih hrest
    exact ⟨Run.head ⟨rfl, hobserve⟩ hrun, congrArg (payload :: ·) hpayloads⟩

/-- The event goes to a session that has another MAC, or means to open it. -/
def Clash (g : Sighted F) : Prop :=
  ∃ s ∈ g.before, g.key = some s.key ∧ s.mac ≠ [] ∧ macOf g.payload ≠ s.mac ∧
    (macOf g.payload ≠ [] ∨ OpensForArp g.before g.payload)

/-- The sessions have a key each, and the evidence of the events that went to them. -/
structure Ledger (past : List (Sighted F)) (sessions : List Session) : Prop where
  nodup : (sessions.map (·.key)).Nodup
  known : ∀ g ∈ past, ∀ key, g.key = some key → key ∈ sessions.map (·.key)
  evidence : ∀ s ∈ sessions, ∀ id, id ∈ s.evidenceIds ↔
    id ≠ [] ∧ ∃ g ∈ past, g.key = some s.key ∧ strField "event_id" g.payload = id

theorem Ledger.step {next : List Session} (hledger : Ledger past sessions)
    (h : step settings networks sessions g next) : Ledger (past ++ [g]) next := by
  obtain ⟨-, hobserve⟩ := h
  rcases observe_cases hobserve with ⟨hskip, rfl⟩ | ⟨key, f, hkey, htakes, rfl⟩
  · refine ⟨hledger.nodup, fun g' hg' key hkey => ?_, fun s hs id => ?_⟩
    · rcases List.mem_append.mp hg' with hpast | hlast
      · exact hledger.known g' hpast key hkey
      · rw [List.mem_singleton.mp hlast, hskip] at hkey
        cases hkey
    · rw [hledger.evidence s hs id]
      simp [hskip]
  · have hupserts := htakes.upserts key
    refine ⟨nodup_upsert hupserts hledger.nodup, fun g' hg' key' hkey' => ?_, fun s hs id => ?_⟩
    · refine (mem_keys_upsert hupserts).mpr ?_
      rcases List.mem_append.mp hg' with hpast | hlast
      · exact .inl (hledger.known g' hpast key' hkey')
      · rw [List.mem_singleton.mp hlast, hkey] at hkey'
        exact .inr (Option.some.inj hkey').symm
    · simp only [List.mem_append, List.mem_singleton]
      rcases mem_upsert hupserts hs with ⟨hold, hne⟩ | ⟨hsame, old, hold, holdKey, rfl⟩ |
        ⟨hsame, hnew, rfl⟩
      · rw [hledger.evidence s hold id]
        refine and_congr_right fun _ => ⟨fun ⟨g', hg', hrest⟩ => ⟨g', .inl hg', hrest⟩, ?_⟩
        rintro ⟨g', hpast | rfl, hto, hid⟩
        · exact ⟨g', hpast, hto, hid⟩
        · exact absurd (Option.some.inj (hkey.symm.trans hto)).symm hne
      · rw [htakes.evidence, mem_addEvidence, hledger.evidence old hold id, hsame, holdKey]
        constructor
        · rintro (⟨hid, g', hg', hrest⟩ | ⟨hid, rfl⟩)
          · exact ⟨hid, g', .inl hg', hrest⟩
          · exact ⟨hid, g, .inr rfl, hkey, rfl⟩
        · rintro ⟨hid, g', hpast | rfl, hto, heq⟩
          · exact .inl ⟨hid, g', hpast, hto, heq⟩
          · exact .inr ⟨heq ▸ hid, heq.symm⟩
      · rw [htakes.evidence, mem_addEvidence, hsame]
        constructor
        · rintro (hnone | ⟨hid, rfl⟩)
          · cases hnone
          · exact ⟨hid, g, .inr rfl, hkey, rfl⟩
        · rintro ⟨hid, g', hpast | rfl, hto, heq⟩
          · exact absurd (hledger.known g' hpast key hto) hnew
          · exact .inr ⟨heq ▸ hid, heq.symm⟩

/-- Every MAC that went to a session is the MAC of that session. -/
def Apart (past : List (Sighted F)) (sessions : List Session) : Prop :=
  ∀ g ∈ past, ∀ key, g.key = some key → macOf g.payload ≠ [] →
    ∃ s ∈ sessions, s.key = key ∧ s.mac = macOf g.payload

/-- **An event without a clash keeps the devices apart.** -/
theorem Apart.step {next : List Session} (hapart : Apart past sessions)
    (h : step settings networks sessions g next) (hclear : ¬Clash g) : Apart (past ++ [g]) next := by
  obtain ⟨hbefore, hobserve⟩ := h
  rcases observe_cases hobserve with ⟨hskip, rfl⟩ | ⟨key, f, hkey, htakes, rfl⟩
  · intro g' hg' key hkey hmac
    rcases List.mem_append.mp hg' with hpast | hlast
    · exact hapart g' hpast key hkey hmac
    · rw [List.mem_singleton.mp hlast, hskip] at hkey
      cases hkey
  · have hupserts := htakes.upserts key
    -- a session that has a MAC keeps it
    have hkeeps : ∀ s ∈ sessions, s.key = key → s.mac ≠ [] → (f s).mac = s.mac := by
      intro s hs hskey hsmac
      rcases htakes.mac with hmac | ⟨hopens, hmac⟩
      · rw [hmac, orElse, if_neg hsmac]
      · rw [hmac]
        by_contra hne
        exact hclear ⟨s, hbefore ▸ hs, by rw [hkey, hskey], hsmac, hne, .inr (hbefore ▸ hopens)⟩
    intro g' hg' key' hkey' hmac'
    rcases List.mem_append.mp hg' with hpast | hlast
    · obtain ⟨s, hs, hskey, hsmac⟩ := hapart g' hpast key' hkey' hmac'
      refine ⟨_, upsert_of_mem hs, ?_⟩
      split
      · rename_i hsame
        exact ⟨(htakes.key s).trans hskey, (hkeeps s hs hsame (hsmac ▸ hmac')).trans hsmac⟩
      · exact ⟨hskey, hsmac⟩
    · rw [List.mem_singleton.mp hlast] at hkey' hmac' ⊢
      obtain rfl := Option.some.inj (hkey.symm.trans hkey')
      have htake : ∀ s : Session, s.mac = [] ∨ s.mac = macOf g.payload →
          (f s).mac = macOf g.payload := by
        intro s hs
        rcases htakes.mac with hmac | ⟨-, hmac⟩
        · rcases hs with hs | hs
          · rw [hmac, hs]
            rfl
          · rw [hmac, hs, orElse_self]
        · exact hmac s
      have hkeys : key ∈ (taking key f sessions).map (·.key) :=
        (mem_keys_upsert hupserts).mpr (.inr rfl)
      obtain ⟨s, hs, hskey⟩ := List.mem_map.mp hkeys
      refine ⟨s, hs, hskey, ?_⟩
      rcases mem_upsert hupserts hs with ⟨_, hne⟩ | ⟨_, old, hold, holdKey, rfl⟩ | ⟨_, _, rfl⟩
      · exact absurd hskey hne
      · refine htake old ?_
        by_contra hother
        obtain ⟨hsome, hne⟩ := not_or.mp hother
        exact hclear ⟨old, hbefore ▸ hold, by rw [hkey, holdKey], hsome, Ne.symm hne, .inl hmac'⟩
      · exact htake _ (.inl rfl)

theorem ledger_of_run (h : Run (step settings networks) [] sighted sessions) :
    Ledger sighted sessions :=
  h.history (fun _ _ _ _ hledger hstep => hledger.step hstep) ⟨List.nodup_nil, by simp, by simp⟩

theorem apart_of_run (h : Run (step settings networks) [] sighted sessions)
    (hclear : ∀ g ∈ sighted, ¬Clash g) : Apart sighted sessions := by
  refine h.history (P := fun past sessions => (∀ g ∈ past, ¬Clash g) → Apart past sessions)
    (fun past s g t hapart hstep hclear => ?_) (fun _ => by simp [Apart]) hclear
  exact (hapart fun g hg => hclear g (List.mem_append_left _ hg)).step hstep
    (hclear g (by simp))

/-! ## 5. The inventory -/

/-- The rows of sessions. -/
def ClientInventory.sessionRows (inv : ClientInventory) : List SessionRow :=
  inv.sessions.filterMap fun
    | .session row => some row
    | .missing _ => none

variable {inv : ClientInventory} {events : List (PyJson F)}

/-- What the inventory is made of. -/
theorem inventory_eq_some (h : buildClientInventory settings events sot = some inv) :
    ∃ sessions sighted results,
      buildSessions settings (dictsOf "networks" sot) [] (toPayloads events) =
        some (sessions, sighted) ∧
      List.Forall₂ (fun s result => classify settings sot s = some result) sessions results ∧
      (∀ row, row ∈ inv.sessionRows ↔ ∃ found, some found ∈ results ∧ found.row = row) ∧
      inv.summary.ignoredClientCount = results.countP (·.isNone) := by
  simp only [buildClientInventory, Option.bind_eq_bind, Option.bind_eq_some_iff, Option.pure_def,
    Option.some.injEq, Prod.exists] at h
  obtain ⟨sessions, sighted, hsessions, results, hresults, rfl⟩ := h
  refine ⟨sessions, sighted, results, hsessions, forall₂_mapM hresults, fun row => ?_, rfl⟩
  simp only [ClientInventory.sessionRows, List.mem_filterMap, List.mem_insertionSort,
    List.mem_append, List.mem_map]
  constructor
  · rintro ⟨_, ⟨found, hfound, rfl⟩ | ⟨missing, -, rfl⟩, hrow⟩
    · exact ⟨found, List.reduceOption_mem_iff.mp hfound, Option.some.inj hrow⟩
    · cases hrow
  · rintro ⟨found, hfound, rfl⟩
    exact ⟨_, .inl ⟨found, List.reduceOption_mem_iff.mpr hfound, rfl⟩, rfl⟩


/-- The evidence of a row is of the events that went to its session. -/
def EvidenceOf (sighted : List (Sighted F)) (inv : ClientInventory) : Prop :=
  ∀ row ∈ inv.sessionRows, ∀ id, id ∈ row.evidenceIds ↔
    id ≠ [] ∧ ∃ g ∈ sighted, g.key = some row.sessionKey ∧ strField "event_id" g.payload = id

/-- A row that is authorized although the SoT has not its MAC is of an authorized device's address. -/
def AuthorizedByAddress (sot : Row F) (inv : ClientInventory) : Prop :=
  ∀ row ∈ inv.sessionRows, row.sessionState = .authorizedPresent →
    (∀ device ∈ dictsOf "devices" sot, deviceMac device ≠ row.mac) →
    ∃ device ∈ dictsOf "devices" sot, strField "ip" device = row.ip ∧ row.ip ≠ [] ∧
      deviceAuthorized device = true

/-- Every MAC that a row has evidence of is its own. -/
def NoneMerged (sighted : List (Sighted F)) (inv : ClientInventory) : Prop :=
  ∀ row ∈ inv.sessionRows, ∀ g ∈ sighted, g.key = some row.sessionKey → macOf g.payload ≠ [] →
    macOf g.payload = row.mac

/-- A lease of a managed address with a MAC. -/
def ManagedLease (settings : Settings E) (payload : Row F) : Prop :=
  strField "kind" payload = pyStr "dhcp_lease" ∧
    ipInManagedScope settings (attrStr "ip" payload) = true ∧ macOf payload ≠ []

/-- Every MAC of a managed lease has a row, or its session is ignored, and counted. -/
structure NoneHidden (settings : Settings E) (sot : Row F) (events : List (PyJson F))
    (sessions : List Session) (inv : ClientInventory) : Prop where
  row : ∀ payload ∈ toPayloads events, ManagedLease settings payload →
    (∃ row ∈ inv.sessionRows, row.mac = macOf payload) ∨
      ∃ s ∈ sessions, s.mac = macOf payload ∧ Ignored sot s
  counted : inv.summary.ignoredClientCount = sessions.countP fun s => Ignored sot s

/-- **The inventory keeps devices apart** as long as no event clashes, and authorizes an unknown MAC
only at the address of an authorized device. -/
theorem inventory_kept_apart (h : buildClientInventory settings events sot = some inv) :
    ∃ sessions sighted, buildSessions settings (dictsOf "networks" sot) [] (toPayloads events) =
        some (sessions, sighted) ∧
      EvidenceOf sighted inv ∧ AuthorizedByAddress sot inv ∧
      ((∀ g ∈ sighted, ¬Clash g) →
        NoneHidden settings sot events sessions inv ∧ NoneMerged sighted inv) := by
  obtain ⟨sessions, sighted, results, hsessions, hresults, hrows, hignored⟩ := inventory_eq_some h
  obtain ⟨hrun, hpayloads⟩ := run_of_build hsessions
  have hledger := ledger_of_run hrun
  have hrowOf : ∀ row ∈ inv.sessionRows, ∃ s ∈ sessions, RowOf settings sot s row := by
    intro row hrow
    obtain ⟨found, hfound, rfl⟩ := (hrows row).mp hrow
    exact rowOf_of_mem hresults hfound
  refine ⟨sessions, sighted, hsessions, fun row hrow id => ?_, fun row hrow hstate hunknown => ?_,
    fun hclear => ⟨⟨fun payload hpayload ⟨hkind, hip, hmac⟩ => ?_, ?_⟩, ?_⟩⟩
  · obtain ⟨s, hs, hof⟩ := hrowOf row hrow
    rw [hof.evidence, hof.key, sortedUnique, List.mem_insertionSort, List.mem_dedup]
    exact hledger.evidence s hs id
  · obtain ⟨s, -, hof⟩ := hrowOf row hrow
    obtain ⟨device, hdevice, hauthorized⟩ := device_of_authorized (hof.state ▸ hstate)
    rw [sessionDevice, byMac_eq_none (hof.mac ▸ hunknown), Option.none_or] at hdevice
    obtain ⟨hmem, hip, hne⟩ := mem_byIp hdevice
    exact ⟨device, hmem, by rw [hip, hof.ip], by rwa [hof.ip], hauthorized⟩
  · -- the session of the lease has its MAC to the end
    have hapart := apart_of_run hrun hclear
    obtain ⟨g, hg, rfl⟩ := List.mem_map.mp (hpayloads ▸ hpayload)
    obtain ⟨before, rest, hsplit⟩ := List.append_of_mem hg
    rw [hsplit] at hrun
    obtain ⟨s, hbefore, hrest⟩ := hrun.split
    obtain ⟨key, hkey⟩ : ∃ key, g.key = some key := by
      cases hrest with
      | head hstep _ => exact lease_taken hstep.2 hkind hip
    obtain ⟨s, hs, -, hsmac⟩ := hapart g hg key hkey hmac
    by_cases hpresent : Ignored sot s
    · exact .inr ⟨s, hs, hsmac, hpresent⟩
    · obtain ⟨found, hfound, hof⟩ := exists_row hresults hs hpresent
      exact .inl ⟨found.row, (hrows _).mpr ⟨found, hfound, rfl⟩, hof.mac.trans hsmac⟩
  · rw [hignored]
    exact count_ignored hresults
  · intro row hrow g hg hkey hmac
    obtain ⟨s, hs, hof⟩ := hrowOf row hrow
    obtain ⟨s', hs', hkey', hmac'⟩ := apart_of_run hrun hclear g hg _ hkey hmac
    have hsame : s' = s := List.inj_on_of_nodup_map hledger.nodup hs' hs (hkey'.trans hof.key)
    rw [hof.mac, ← hmac', hsame]

instance (sessions : List Session) (payload : Row F) : Decidable (OpensForArp sessions payload) :=
  inferInstanceAs (Decidable (_ ∧ _))

instance (settings : Settings E) (payload : Row F) : Decidable (ManagedLease settings payload) :=
  inferInstanceAs (Decidable (_ ∧ _))

instance (g : Sighted F) : Decidable (Clash g) := inferInstanceAs (Decidable (∃ s ∈ g.before, _))

end Loop

/-! ## 6. One network -/

/-- Addresses of 172.16.0.0/24. -/
instance : PyIpaddress where
  isAddress s := s.take 9 = pyStr "172.16.0."
  isNetwork s := s = pyStr "172.16.0.0/24"
  inNetwork network s := network = pyStr "172.16.0.0/24" ∧ s.take 9 = pyStr "172.16.0."

/-- Seconds; of one time only. -/
instance : PyEpoch ℤ where
  ofIso s := if s = pyStr "2026-03-10T00:00:00+00:00" then some 1773100800 else none
  lt a b := a < b
  isZero a := a = 0
  older now past seconds := now - past > seconds

/-- The defaults of the environment, at the time of the events. -/
def atOnce : Settings ℤ where
  cidrs := [pyStr "172.16.0.0/24"]
  interfaces := [pyStr "eth0", pyStr "wlan0"]
  nowTs := pyStr "2026-03-10T00:00:00Z"
  clock := 1773100800

def eventOf (kind id ip mac : String) : PyJson Whole :=
  .obj [(pyStr "event_id", .str (pyStr id)), (pyStr "ts", .str (pyStr "2026-03-10T00:00:00Z")),
    (pyStr "kind", .str (pyStr kind)),
    (pyStr "attrs", .obj [(pyStr "ip", .str (pyStr ip)), (pyStr "mac", .str (pyStr mac)),
      (pyStr "interface", .str (pyStr "eth0"))])]

/-- A device of an address, whose MAC the SoT does not have. -/
def knownByAddress : Row Whole :=
  [(pyStr "devices", .arr [.obj [(pyStr "id", .str (pyStr "printer")),
    (pyStr "ip", .str (pyStr "172.16.0.20")), (pyStr "mac", .str [])]])]

/-- A lease and an ARP entry of one client, and the lease of another. -/
def twoClients : List (PyJson Whole) :=
  [eventOf "dhcp_lease" "e1" "172.16.0.20" "aa:bb:cc:dd:ee:01",
    eventOf "arp_entry" "e2" "172.16.0.20" "aa:bb:cc:dd:ee:01",
    eventOf "dhcp_lease" "e3" "172.16.0.21" "aa:bb:cc:dd:ee:02"]

theorem inventory_kept_apart_sample : ∃ inv sessions sighted,
    buildClientInventory atOnce twoClients knownByAddress = some inv ∧
    buildSessions atOnce (dictsOf "networks" knownByAddress) [] (toPayloads twoClients) =
      some (sessions, sighted) ∧
    NoneHidden atOnce knownByAddress twoClients sessions inv ∧ NoneMerged sighted inv := by
  obtain ⟨inv, hinv⟩ : ∃ inv, buildClientInventory atOnce twoClients knownByAddress = some inv :=
    Option.isSome_iff_exists.mp (by decide +kernel)
  obtain ⟨sessions, sighted, hsessions, -, -, hclear⟩ := inventory_kept_apart hinv
  have hnone : (buildSessions atOnce (dictsOf "networks" knownByAddress) []
      (toPayloads twoClients)).map (fun built => decide (∀ g ∈ built.2, ¬Clash g)) = some true := by
    decide +kernel
  rw [hsessions, Option.map_some] at hnone
  have hboth := hclear (of_decide_eq_true (Option.some.inj hnone))
  exact ⟨inv, sessions, sighted, hinv, hsessions, hboth.1, hboth.2⟩

/-- A row that is authorized has a MAC of the SoT. -/
def AuthorizedKnown (sot : Row Whole) (inv : ClientInventory) : Prop :=
  ∀ row ∈ inv.sessionRows, row.sessionState = .authorizedPresent → row.mac ≠ [] →
    ∃ device ∈ dictsOf "devices" sot, deviceMac device = row.mac

/-- An ARP entry at the address of the device. -/
def arpAtAddress : List (PyJson Whole) :=
  [eventOf "arp_entry" "e1" "172.16.0.20" "aa:bb:cc:dd:ee:01"]

/-- The address is leased again, to another MAC. -/
def leasedAgain : List (PyJson Whole) :=
  [eventOf "dhcp_lease" "e1" "172.16.0.20" "aa:bb:cc:dd:ee:01",
    eventOf "dhcp_lease" "e2" "172.16.0.20" "aa:bb:cc:dd:ee:02"]

/-- **A MAC that the SoT does not have is authorized** at the address of a device, and the second
client of an address is hidden in the row of the first. -/
theorem address_trusted_and_reused :
    (∃ inv, buildClientInventory atOnce arpAtAddress knownByAddress = some inv ∧
      ¬AuthorizedKnown knownByAddress inv) ∧
    ∃ inv sessions sighted,
      buildClientInventory atOnce leasedAgain knownByAddress = some inv ∧
      buildSessions atOnce (dictsOf "networks" knownByAddress) [] (toPayloads leasedAgain) =
        some (sessions, sighted) ∧
      ¬NoneHidden atOnce knownByAddress leasedAgain sessions inv ∧ ¬NoneMerged sighted inv := by
  refine ⟨?_, ?_⟩
  · have hrows : (buildClientInventory atOnce arpAtAddress knownByAddress).map (fun inv =>
        inv.sessionRows.map fun row => (row.mac, row.sessionState)) =
        some [(pyStr "aa:bb:cc:dd:ee:01", .authorizedPresent)] := by decide +kernel
    have hunknown : ∀ device ∈ dictsOf "devices" knownByAddress,
        deviceMac device ≠ pyStr "aa:bb:cc:dd:ee:01" := by decide +kernel
    obtain ⟨inv, hinv, hrow⟩ := Option.map_eq_some_iff.mp hrows
    obtain ⟨row, hrow, hpair⟩ := List.map_eq_singleton_iff.mp hrow
    obtain ⟨hmac, hstate⟩ := Prod.mk.inj hpair
    refine ⟨inv, hinv, fun hknown => ?_⟩
    obtain ⟨device, hdevice, hsame⟩ := hknown row (hrow ▸ List.mem_singleton_self row) hstate
      (by rw [hmac]; decide)
    exact hunknown device hdevice (hsame.trans hmac)
  · have hrows : (buildClientInventory atOnce leasedAgain knownByAddress).map (fun inv =>
        inv.sessionRows.map fun row => (row.sessionKey, row.mac)) =
        some [(pyStr "aa:bb:cc:dd:ee:01", pyStr "aa:bb:cc:dd:ee:01")] := by decide +kernel
    have hbuilt : (buildSessions atOnce (dictsOf "networks" knownByAddress) []
        (toPayloads leasedAgain)).map (fun built => (built.1.map (·.mac),
          built.2.map fun g => (g.key, macOf g.payload))) =
        some ([pyStr "aa:bb:cc:dd:ee:01"],
          [(some (pyStr "aa:bb:cc:dd:ee:01"), pyStr "aa:bb:cc:dd:ee:01"),
            (some (pyStr "aa:bb:cc:dd:ee:01"), pyStr "aa:bb:cc:dd:ee:02")]) := by decide +kernel
    obtain ⟨inv, hinv, hrow⟩ := Option.map_eq_some_iff.mp hrows
    obtain ⟨row, hrow, hpair⟩ := List.map_eq_singleton_iff.mp hrow
    obtain ⟨hkey, hmac⟩ := Prod.mk.inj hpair
    obtain ⟨⟨sessions, sighted⟩, hsessions, hbuilt⟩ := Option.map_eq_some_iff.mp hbuilt
    obtain ⟨hmacs, hsighted⟩ := Prod.mk.inj hbuilt
    have hne : pyStr "aa:bb:cc:dd:ee:01" ≠ pyStr "aa:bb:cc:dd:ee:02" := by decide
    refine ⟨inv, sessions, sighted, hinv, hsessions, fun hhidden => ?_, fun hmerged => ?_⟩
    · obtain ⟨payload, hpayload, hlease, hsecond⟩ : ∃ payload ∈ toPayloads leasedAgain,
          ManagedLease atOnce payload ∧ macOf payload = pyStr "aa:bb:cc:dd:ee:02" := by
        decide +kernel
      rcases hhidden.row payload hpayload hlease with ⟨row', hrow', hmac'⟩ | ⟨s, hs, hmac', -⟩
      · rw [hrow, List.mem_singleton] at hrow'
        exact hne (hmac.symm.trans (hrow' ▸ hmac'.trans hsecond))
      · have hfirst : s.mac ∈ sessions.map (·.mac) := List.mem_map_of_mem hs
        rw [hmacs, List.mem_singleton] at hfirst
        exact hne (hfirst.symm.trans (hmac'.trans hsecond))
    · have hsecond : (some (pyStr "aa:bb:cc:dd:ee:01"), pyStr "aa:bb:cc:dd:ee:02") ∈
          sighted.map fun g => (g.key, macOf g.payload) := by
        rw [hsighted]
        simp
      obtain ⟨g, hg, hpair'⟩ := List.mem_map.mp hsecond
      obtain ⟨hto, hmac'⟩ := Prod.mk.inj hpair'
      have hown := hmerged row (hrow ▸ List.mem_singleton_self row) g hg (by rw [hto, hkey])
        (by rw [hmac']; decide)
      exact hne (hmac.symm.trans (hown.symm.trans hmac'))

end AzazelEdge.EvidencePlane.Inventory
