/-
# A move that is started again goes on

A run of `migrate_chain` may die after any of its changes.  What it leaves is on the way from the
directories as they were (`Partway`): each name is where it was, or its file is under both names, or
under the new one.  A later run reads the same of it, so a run that gets through the moves ends in
the same names, however many did not (`Target.names_eq`).

* `Partway.exec`: one change;
* `execAll_partway`: a run that dies;
* `execAll_target`: a run that gets through.
-/
import AzazelEdge.Migrate.Chain

namespace AzazelEdge.Migrate

open AzazelEdge.Lib AzazelEdge.Lib.Py AzazelEdge.Audit AzazelEdge.Alert

variable {d x y : Disk} {name n : ChainFile} {i : ℕ} {m : Move} {ms : List Move}
  {names : List ChainFile}

/-! ## 1. What stands in the way -/

/-- The two names of one regular file. -/
def SamePair (x : Disk) (name : ChainFile) : Prop :=
  ∃ i, x.names .old name = some i ∧ x.names .new name = some i ∧ (x.nodes name i).isSome

/-- A name that `migrate_chain` does not go on with: two files of it, or one that is not regular. -/
def BlockedAt (x : Disk) (name : ChainFile) : Prop :=
  match x.names .old name, x.names .new name with
  | some i, some j => i ≠ j ∨ x.nodes name i = none
  | some i, none => x.nodes name i = none
  | none, some j => x.nodes name j = none
  | none, none => False

def Blocked (x : Disk) : Prop := ∃ name, BlockedAt x name

/-- Where a name can be, on the way from `d`. -/
def NameFrom (d x : Disk) (name : ChainFile) : Prop :=
  (∀ side, x.names side name = d.names side name) ∨
  ∃ i, d.names .old name = some i ∧ (d.nodes name i).isSome ∧
    (d.names .new name = some i ∨ d.names .new name = none ∧ ¬Blocked d) ∧
    x.names .new name = some i ∧ (x.names .old name = some i ∨ x.names .old name = none)

/-- The complete lines of a file that may have a torn tail. -/
def linesOf (file : Option Text) : Option (List Text) := file.map (completeLines nl)

/-- **On the way from `d`**, but for a torn tail of the queue. -/
structure Partway (d x : Disk) : Prop where
  nodes : ∀ name, name ≠ .queue → x.nodes name = d.nodes name
  queue : ∀ i, linesOf (x.nodes .queue i) = linesOf (d.nodes .queue i)
  segments : x.segments = d.segments
  names : ∀ name, NameFrom d x name

theorem Partway.refl (d : Disk) : Partway d d :=
  ⟨fun _ _ => rfl, fun _ => rfl, rfl, fun _ => Or.inl fun _ => rfl⟩

/-- The regular files are regular, and no others. -/
theorem Partway.none_iff (h : Partway d x) (name : ChainFile) (i : ℕ) :
    x.nodes name i = none ↔ d.nodes name i = none := by
  by_cases hname : name = .queue
  · subst hname
    have hqueue := h.queue i
    unfold linesOf at hqueue
    rw [← Option.map_eq_none_iff (f := completeLines nl), hqueue, Option.map_eq_none_iff]
  · rw [h.nodes name hname]

theorem Partway.isSome_eq (h : Partway d x) (name : ChainFile) (i : ℕ) :
    (x.nodes name i).isSome = (d.nodes name i).isSome := by
  have := h.none_iff name i
  cases hx : x.nodes name i with
  | none => rw [this.mp hx]
  | some b =>
    cases hd : d.nodes name i with
    | none => rw [this.mpr hd] at hx; cases hx
    | some b' => rfl

theorem Partway.blockedAt_iff (h : Partway d x) (name : ChainFile) :
    BlockedAt x name ↔ BlockedAt d name := by
  have hnone := h.none_iff name
  unfold BlockedAt
  obtain hsame | ⟨i, hold, hregular, hnew, hxnew, hxold⟩ := h.names name
  · rw [hsame, hsame]
    split <;> simp only [hnone]
  · have hfile : d.nodes name i ≠ none := Option.isSome_iff_ne_none.mp hregular
    have hxfile : x.nodes name i ≠ none := fun hx => hfile ((hnone i).mp hx)
    have hxfree : ¬BlockedAt x name := by
      unfold BlockedAt
      obtain hxold | hxold := hxold <;> rw [hxold, hxnew] <;> simp [hxfile]
    have hfree : ¬BlockedAt d name := by
      unfold BlockedAt
      obtain hnew | ⟨hnew, -⟩ := hnew <;> rw [hold, hnew] <;> simp [hfile]
    exact iff_of_false hxfree hfree

theorem Partway.blocked_iff (h : Partway d x) : Blocked x ↔ Blocked d :=
  exists_congr h.blockedAt_iff

/-- **Ways go on.** -/
theorem Partway.trans (h : Partway d x) (h' : Partway x y) : Partway d y where
  nodes name hname := (h'.nodes name hname).trans (h.nodes name hname)
  queue i := (h'.queue i).trans (h.queue i)
  segments := h'.segments.trans h.segments
  names name := by
    have hsome := h.isSome_eq name
    obtain hsame' | ⟨j, hold', hregular', hnew', hynew, hyold⟩ := h'.names name
    · obtain hsame | ⟨i, hold, hregular, hnew, hxnew, hxold⟩ := h.names name
      · exact Or.inl fun side => (hsame' side).trans (hsame side)
      · exact Or.inr ⟨i, hold, hregular, hnew, by rw [hsame', hxnew], by rw [hsame']; exact hxold⟩
    · obtain hsame | ⟨i, hold, hregular, hnew, hxnew, hxold⟩ := h.names name
      · refine Or.inr ⟨j, by rw [← hsame, hold'], by rw [← hsome]; exact hregular', ?_, hynew, hyold⟩
        rw [← hsame .new, ← h.blocked_iff]
        exact hnew'
      · have hij : i = j := by
          obtain hxold | hxold := hxold
          · exact Option.some.inj (hxold.symm.trans hold')
          · rw [hxold] at hold'
            cases hold'
        subst hij
        exact Or.inr ⟨i, hold, hregular, hnew, hynew, hyold⟩

/-! ## 2. One change -/

/-- When a run makes a change. -/
def Allowed (x : Disk) : Move → Prop
  | .unlink name => SamePair x name
  | .link name => (∃ i, x.names .old name = some i ∧ (x.nodes name i).isSome) ∧
      x.names .new name = none ∧ ¬Blocked x
  | .unlinkLock => True

@[simp] theorem setName_names (side : Side) (name : ChainFile) (file : Option ℕ) (side' : Side)
    (n : ChainFile) : (x.setName side name file).names side' n =
      if side' = side ∧ n = name then file else x.names side' n := by
  unfold Disk.setName
  by_cases hside : side' = side
  · subst hside
    by_cases hname : n = name
    · subst hname
      simp
    · simp [hname]
  · simp [hside]

@[simp] theorem setName_nodes (side : Side) (name : ChainFile) (file : Option ℕ) :
    (x.setName side name file).nodes = x.nodes := rfl

/-- A change of one name's places. -/
theorem partway_setName {side : Side} {file : Option ℕ}
    (hname : NameFrom x (x.setName side name file) name) : Partway x (x.setName side name file) where
  nodes _ _ := rfl
  queue _ := rfl
  segments := rfl
  names n := by
    by_cases hn : n = name
    · rw [hn]
      exact hname
    · exact Or.inl fun side' => by rw [setName_names, if_neg fun h => hn h.2]

/-- **One change is on the way.** -/
theorem partway_exec (h : Allowed x m) : Partway x (x.exec m) := by
  cases m with
  | unlink name =>
    obtain ⟨i, hold, hnew, hregular⟩ := h
    refine partway_setName (Or.inr ⟨i, hold, hregular, Or.inl hnew, ?_, Or.inr ?_⟩)
    · rw [setName_names, if_neg (by simp), hnew]
    · rw [setName_names, if_pos ⟨rfl, rfl⟩]
  | link name =>
    obtain ⟨⟨i, hold, hregular⟩, hnew, hfree⟩ := h
    have hexec : x.exec (.link name) = x.setName .new name (x.names .old name) := by
      simp [Disk.exec, Disk.present, hnew]
    rw [hexec]
    refine partway_setName (Or.inr ⟨i, hold, hregular, Or.inr ⟨hnew, hfree⟩, ?_, Or.inl ?_⟩)
    · rw [setName_names, if_pos ⟨rfl, rfl⟩, hold]
    · rw [setName_names, if_neg (by simp), hold]
  | unlinkLock => exact ⟨fun _ _ => rfl, fun _ => rfl, rfl, fun _ => Or.inl fun _ => rfl⟩

/-- Each change is one that a run makes. -/
def AllowedAll : Disk → List Move → Prop
  | _, [] => True
  | x, m :: ms => Allowed x m ∧ AllowedAll (x.exec m) ms

@[simp] theorem execAll_nil (x : Disk) : x.execAll [] = x := rfl

@[simp] theorem execAll_cons (x : Disk) (m : Move) (ms : List Move) :
    x.execAll (m :: ms) = (x.exec m).execAll ms := rfl

theorem execAll_append (x : Disk) (ms ms' : List Move) :
    x.execAll (ms ++ ms') = (x.execAll ms).execAll ms' := List.foldl_append

theorem AllowedAll.append {ms' : List Move} (h : AllowedAll x ms)
    (h' : AllowedAll (x.execAll ms) ms') : AllowedAll x (ms ++ ms') := by
  induction ms generalizing x with
  | nil => exact h'
  | cons m ms ih => exact ⟨h.1, ih h.2 h'⟩

/-- **A run that dies is on the way.** -/
theorem execAll_take_partway (h : AllowedAll x ms) (k : ℕ) : Partway x (x.execAll (ms.take k)) := by
  induction ms generalizing x k with
  | nil =>
    rw [List.take_nil]
    exact Partway.refl x
  | cons m ms ih =>
    cases k with
    | zero => exact Partway.refl x
    | succ k => exact (partway_exec h.1).trans (ih h.2 k)

theorem execAll_partway (h : AllowedAll x ms) : Partway x (x.execAll ms) := by
  have := execAll_take_partway h ms.length
  rwa [List.take_length] at this

/-! ## 3. Through all the moves -/

/-- The names of a run that got through. -/
structure Target (d x : Disk) : Prop extends Partway d x where
  finished : ∀ name, ¬SamePair x name
  moved : ¬Blocked d → ∀ name, x.names .old name = none

/-- **All runs that get through end in the same names.** -/
theorem Target.names_eq (h : Target d x) (h' : Target d y) (side : Side) (name : ChainFile) :
    x.names side name = y.names side name := by
  -- A place that is not `d`'s is that of the one file that `d` has there.
  have key : ∀ {x y : Disk}, Target d x → Target d y →
      (∀ side, x.names side name = d.names side name) → ∀ i, d.names .old name = some i →
      (d.nodes name i).isSome →
      (d.names .new name = some i ∨ d.names .new name = none ∧ ¬Blocked d) → False := by
    intro x y h h' hsame i hold hregular hnew
    obtain hnew | ⟨-, hfree⟩ := hnew
    · refine h.finished name ⟨i, by rw [hsame, hold], by rw [hsame, hnew], ?_⟩
      rw [h.isSome_eq]
      exact hregular
    · have := h.moved hfree name
      rw [hsame, hold] at this
      cases this
  have hgone : ∀ {x : Disk} {i : ℕ}, Target d x → (d.nodes name i).isSome →
      x.names .new name = some i → (x.names .old name = some i ∨ x.names .old name = none) →
      x.names .old name = none := by
    intro x i h hregular hnew hold
    refine hold.resolve_left fun hold => h.finished name ⟨i, hold, hnew, ?_⟩
    rw [h.isSome_eq]
    exact hregular
  obtain hsame | ⟨i, hold, hregular, hnew, hxnew, hxold⟩ := h.names name
  · obtain hsame' | ⟨j, hold', hregular', hnew', -, -⟩ := h'.names name
    · rw [hsame, hsame']
    · exact (key h h' hsame j hold' hregular' hnew').elim
  · obtain hsame' | ⟨j, hold', hregular', hnew', hynew, hyold⟩ := h'.names name
    · exact (key h' h hsame' i hold hregular hnew).elim
    · obtain rfl := Option.some.inj (hold.symm.trans hold')
      cases side with
      | old => rw [hgone h hregular hxnew hxold, hgone h' hregular hynew hyold]
      | new => rw [hxnew, hynew]

theorem Partway.target (h : Partway d x) (h' : Target x y) : Target d y where
  toPartway := h.trans h'.toPartway
  finished := h'.finished
  moved hfree := h'.moved fun hblocked => hfree (h.blocked_iff.mp hblocked)

/-- The files under the old name are finished. -/
theorem samePair_iff : (x.regular .old name && x.regular .new name && x.sameFile name) = true ↔
    SamePair x name := by
  simp only [Disk.regular, Disk.content, Disk.sameFile, Bool.and_eq_true, decide_eq_true_eq]
  constructor
  · rintro ⟨⟨hold, -⟩, hsame⟩
    obtain ⟨i, hi⟩ : ∃ i, x.names .old name = some i := by
      cases hi : x.names .old name with
      | none => rw [hi] at hold; cases hold
      | some i => exact ⟨i, rfl⟩
    rw [hi] at hold hsame
    exact ⟨i, hi, hsame.symm, hold⟩
  · rintro ⟨i, hold, hnew, hregular⟩
    rw [hold, hnew]
    exact ⟨⟨hregular, hregular⟩, rfl⟩

theorem finishMoves_allowed (names : List ChainFile) (x : Disk) :
    AllowedAll x (finishMoves names x) := by
  induction names generalizing x with
  | nil => exact trivial
  | cons name names ih =>
    unfold finishMoves
    split
    · rename_i hsame
      exact ⟨samePair_iff.mp hsame, ih _⟩
    · exact ih x

/-- A finished name stays so. -/
theorem finishMoves_keeps (h : ¬SamePair x n) (names : List ChainFile) :
    ¬SamePair (x.execAll (finishMoves names x)) n := by
  induction names generalizing x with
  | nil => exact h
  | cons name names ih =>
    unfold finishMoves
    split
    · refine ih ?_
      rintro ⟨i, hold, hnew, hregular⟩
      simp only [Disk.exec, setName_names] at hold hnew
      split at hold
      · cases hold
      · rw [if_neg (by simp)] at hnew
        exact h ⟨i, hold, hnew, hregular⟩
    · exact ih h

theorem finishMoves_finished (names : List ChainFile) (x : Disk) :
    ∀ n ∈ names, ¬SamePair (x.execAll (finishMoves names x)) n := by
  induction names generalizing x with
  | nil => exact fun _ h => by cases h
  | cons name names ih =>
    intro n hn
    unfold finishMoves
    split
    · obtain rfl | hn := List.mem_cons.mp hn
      · refine finishMoves_keeps ?_ names
        rintro ⟨i, hold, -, -⟩
        rw [Disk.exec, setName_names, if_pos ⟨rfl, rfl⟩] at hold
        cases hold
      · exact ih _ n hn
    · rename_i hsame
      obtain rfl | hn := List.mem_cons.mp hn
      · exact finishMoves_keeps (mt samePair_iff.mpr hsame) names
      · exact ih x n hn

/-- The moves of the names. -/
def linkMoves (names : List ChainFile) : List Move :=
  names.flatMap fun name => [.link name, .unlink name]

/-- **The names that stand in the old directory are moved.** -/
theorem linkMoves_moved (hnodup : names.Nodup) (hfree : ¬Blocked x)
    (hnames : ∀ n ∈ names, (∃ i, x.names .old n = some i ∧ (x.nodes n i).isSome) ∧
      x.names .new n = none) :
    AllowedAll x (linkMoves names) ∧
      (∀ n ∈ names, (x.execAll (linkMoves names)).names .old n = none) ∧
      ∀ side n, n ∉ names → (x.execAll (linkMoves names)).names side n = x.names side n := by
  induction names generalizing x with
  | nil => exact ⟨trivial, fun _ h => (by cases h), fun _ _ _ => rfl⟩
  | cons name names ih =>
    obtain ⟨hname, hnodup⟩ := List.nodup_cons.mp hnodup
    obtain ⟨⟨i, hold, hregular⟩, hnew⟩ := hnames name List.mem_cons_self
    have hlink : Allowed x (.link name) := ⟨⟨i, hold, hregular⟩, hnew, hfree⟩
    have hexec : x.exec (.link name) = x.setName .new name (some i) := by
      simp [Disk.exec, Disk.present, hnew, hold]
    have hunlink : Allowed (x.exec (.link name)) (.unlink name) := by
      rw [hexec]
      refine ⟨i, ?_, ?_, hregular⟩
      · rw [setName_names, if_neg (by simp), hold]
      · rw [setName_names, if_pos ⟨rfl, rfl⟩]
    have hway : Partway x ((x.exec (.link name)).exec (.unlink name)) :=
      (partway_exec hlink).trans (partway_exec hunlink)
    have hothers : ∀ side n, n ≠ name →
        ((x.exec (.link name)).exec (.unlink name)).names side n = x.names side n := by
      intro side n hn
      rw [hexec, Disk.exec, setName_names, if_neg fun h => hn h.2, setName_names,
        if_neg fun h => hn h.2]
    have hgone : ((x.exec (.link name)).exec (.unlink name)).names .old name = none := by
      rw [Disk.exec, setName_names, if_pos ⟨rfl, rfl⟩]
    obtain ⟨hallowed, hmoved, hkept⟩ := ih (x := (x.exec (.link name)).exec (.unlink name)) hnodup
      (fun hblocked => hfree (hway.blocked_iff.mp hblocked)) fun n hn => by
        have hne : n ≠ name := fun h => hname (h ▸ hn)
        obtain ⟨⟨j, hj, hregular⟩, hnone⟩ := hnames n (List.mem_cons_of_mem _ hn)
        refine ⟨⟨j, by rw [hothers _ n hne, hj], ?_⟩, by rw [hothers _ n hne, hnone]⟩
        rw [hway.isSome_eq]
        exact hregular
    refine ⟨⟨hlink, hunlink, hallowed⟩, ?_, ?_⟩
    · intro n hn
      obtain rfl | hn := List.mem_cons.mp hn
      · exact (hkept .old n hname).trans hgone
      · exact hmoved n hn
    · intro side n hn
      obtain ⟨hne, hn⟩ := not_or.mp (mt List.mem_cons.mpr hn)
      exact (hkept side n hn).trans (hothers side n hne)

/-- Whether anything stands in the way, as `migrate_chain` asks. -/
theorem not_blocked_iff (hfinished : ∀ name, ¬SamePair x name) :
    ¬Blocked x ↔
      (chainFiles.filter (x.present .old)).filter (· ∈ chainFiles.filter (x.present .new)) = [] ∧
      (chainFiles.filter (x.present .old)).filter (fun name => !x.regular .old name) ++
        (chainFiles.filter (x.present .new)).filter (fun name => !x.regular .new name) = [] := by
  have hall : ∀ name, name ∈ chainFiles := fun name => by cases name <;> decide
  simp only [List.append_eq_nil_iff, List.filter_eq_nil_iff, List.mem_filter, hall, true_and,
    Disk.present, Disk.regular, Disk.content, Blocked, not_exists, decide_eq_true_eq]
  constructor
  · intro hfree
    refine ⟨fun name hold hnew => ?_, fun name hold => ?_, fun name hnew => ?_⟩
    · obtain ⟨i, hi⟩ := Option.isSome_iff_exists.mp hold
      obtain ⟨j, hj⟩ := Option.isSome_iff_exists.mp hnew
      refine hfree name ?_
      unfold BlockedAt
      rw [hi, hj]
      refine (em (i = j)).symm.imp id fun hij => ?_
      by_contra hregular
      exact hfinished name ⟨i, hi, hij ▸ hj, Option.isSome_iff_ne_none.mpr hregular⟩
    · obtain ⟨i, hi⟩ := Option.isSome_iff_exists.mp hold
      have hname := hfree name
      unfold BlockedAt at hname
      rw [hi] at hname ⊢
      cases hnew : x.names .new name with
      | none =>
        rw [hnew] at hname
        simpa using show ¬x.nodes name _ = none from hname
      | some j =>
        rw [hnew] at hname
        simpa using fun h => hname (Or.inr h)
    · obtain ⟨j, hj⟩ := Option.isSome_iff_exists.mp hnew
      have hname := hfree name
      unfold BlockedAt at hname
      rw [hj] at hname ⊢
      cases hold : x.names .old name with
      | none =>
        rw [hold] at hname
        simpa using show ¬x.nodes name _ = none from hname
      | some i =>
        rw [hold] at hname
        obtain ⟨hij, hregular⟩ := not_or.mp hname
        rw [not_not.mp hij] at hregular
        simpa using hregular
  · rintro ⟨hclash, hbadOld, hbadNew⟩ name hname
    unfold BlockedAt at hname
    have hclash := hclash name
    have hbadOld := hbadOld name
    have hbadNew := hbadNew name
    cases hold : x.names .old name with
    | none =>
      cases hnew : x.names .new name with
      | none => rw [hold, hnew] at hname; exact hname
      | some j =>
        rw [hold, hnew] at hname
        rw [hnew] at hbadNew
        simp [show x.nodes name j = none from hname] at hbadNew
    | some i =>
      cases hnew : x.names .new name with
      | none =>
        rw [hold, hnew] at hname
        rw [hold] at hbadOld
        simp [show x.nodes name i = none from hname] at hbadOld
      | some j => exact hclash (by rw [hold]; rfl) (by rw [hnew]; rfl)

/-- **A run that gets through** is at the end of the way, and goes on to the cursor when nothing
stood in it. -/
theorem execAll_target {setting : PyStr} (hsetting : customAuditLog setting = false) (d : Disk) :
    AllowedAll d (migrateChain setting d).moves ∧
      Target d (d.execAll (migrateChain setting d).moves) ∧
      ((migrateChain setting d).carries = true ↔ ¬Blocked d) := by
  have hall : ∀ name, name ∈ chainFiles := fun name => by cases name <;> decide
  have hfinishing := finishMoves_allowed chainFiles d
  have hway := execAll_partway hfinishing
  have hfinished : ∀ name, ¬SamePair (d.execAll (finishMoves chainFiles d)) name :=
    fun name => finishMoves_finished chainFiles d name (hall name)
  have hblocked := not_blocked_iff hfinished
  have hstays : Blocked (d.execAll (finishMoves chainFiles d)) →
      AllowedAll d (finishMoves chainFiles d) ∧
      Target d (d.execAll (finishMoves chainFiles d)) ∧ (false = true ↔ ¬Blocked d) := by
    intro h
    have h' := hway.blocked_iff.mp h
    exact ⟨hfinishing, ⟨hway, hfinished, fun hfree => absurd h' hfree⟩, by simp [h']⟩
  unfold migrateChain
  rw [if_neg (by simp [hsetting])]
  dsimp only
  split
  · rename_i hclash
    exact hstays (not_not.mp fun hfree => hclash (hblocked.mp hfree).1)
  · rename_i hclash
    split
    · rename_i hbad
      exact hstays (not_not.mp fun hfree => hbad (hblocked.mp hfree).2)
    · rename_i hbad
      rw [not_not] at hclash hbad
      have hfree := hblocked.mpr ⟨hclash, hbad⟩
      generalize hy : d.execAll (finishMoves chainFiles d) = y at *
      have hplaces : ∀ n ∈ chainFiles.filter (y.present .old),
          (∃ i, y.names .old n = some i ∧ (y.nodes n i).isSome) ∧ y.names .new n = none := by
        intro n hn
        have hpresent := (List.mem_filter.mp hn).2
        obtain ⟨i, hi⟩ := Option.isSome_iff_exists.mp hpresent
        have hregular := (List.append_eq_nil_iff.mp hbad).1
        rw [List.filter_eq_nil_iff] at hregular hclash
        refine ⟨⟨i, hi, ?_⟩, ?_⟩
        · simpa [Disk.regular, Disk.content, hi, Option.isSome_iff_ne_none] using hregular n hn
        · by_contra hnew
          refine hclash n hn ?_
          simp [hall, Disk.present, Option.isSome_iff_ne_none, hnew]
      obtain ⟨hallowed, hmoved, hkept⟩ :=
        linkMoves_moved (List.Nodup.filter _ (by decide)) hfree hplaces
      have hlinked := hway.trans (execAll_partway hallowed)
      have hold : ∀ name, (y.execAll (linkMoves (chainFiles.filter (y.present .old)))).names
          .old name = none := by
        intro name
        by_cases hname : name ∈ chainFiles.filter (y.present .old)
        · exact hmoved name hname
        · rw [hkept .old name hname]
          simpa [hall, Disk.present] using hname
      refine ⟨?_, ?_, ?_⟩
      · refine (hfinishing.append ?_).append ⟨trivial, trivial⟩
        rw [hy]
        exact hallowed
      · rw [execAll_append, execAll_append, hy]
        refine ⟨hlinked.trans (partway_exec (m := .unlinkLock) trivial), ?_, fun _ => hold⟩
        rintro name ⟨i, hi, -⟩
        have := hold name
        rw [show (y.execAll (linkMoves (chainFiles.filter (y.present .old)))).names .old name =
          some i from hi] at this
        cases this
      · rw [← hway.blocked_iff]
        simp [hfree]

end AzazelEdge.Migrate
