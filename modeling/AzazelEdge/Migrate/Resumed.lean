/-
# Moving the audit chain is crash safe

Runs of `migrate_chain` that die anywhere, one after the other, leave the directories on the way
from what they were, with a torn tail of the queue at most, or with the cursor carried.  A run that
completes ends where a single one would.

* `run_partway`, `run_carried`: what one run leaves;
* `chain_moved`: what is there when the last one has completed.

The queue is not left alone: its append cuts a torn tail off and compacts a queue that is full
(`torn_tail_lost`), and a queue may hold rows of earlier moves.
-/
import AzazelEdge.Migrate.Moved
import AzazelEdge.Migrate.Carried

namespace AzazelEdge.Migrate

open AzazelEdge.Lib AzazelEdge.Lib.Py AzazelEdge.Audit AzazelEdge.Alert

/-! ## 1. What is held under either name -/

/-- The bytes of the file that stands in the new directory, or else in the old one. -/
def Disk.held (d : Disk) (name : ChainFile) : Option Text :=
  ((d.names .new name).or (d.names .old name)).bind (d.nodes name)

/-- The chain as it is held. -/
def Disk.heldDir (d : Disk) : Dir where
  name := "core-decision-audit.jsonl"
  active := d.held .chain
  segment n := if n = 1 then d.held .rotated else d.segments n

variable {d x y : Disk} {name : ChainFile} {ino : ℕ}

theorem Partway.place_eq (h : Partway d x) (name : ChainFile) :
    (x.names .new name).or (x.names .old name) = (d.names .new name).or (d.names .old name) := by
  obtain hsame | ⟨i, hold, -, hnew, hxnew, -⟩ := h.names name
  · rw [hsame, hsame]
  · rw [hxnew, hold]
    obtain hnew | ⟨hnew, -⟩ := hnew
    · rw [hnew]
      rfl
    · rw [hnew]
      rfl

theorem Partway.held_eq (h : Partway d x) (hname : name ≠ .queue) : x.held name = d.held name := by
  rw [Disk.held, h.place_eq, h.nodes name hname]
  rfl

theorem Partway.lines_eq (h : Partway d x) :
    linesOf (x.held .queue) = linesOf (d.held .queue) := by
  rw [Disk.held, Disk.held, h.place_eq]
  cases (d.names .new .queue).or (d.names .old .queue) with
  | none => rfl
  | some i => exact h.queue i

/-- Behind the moves everything held is in the new directory. -/
theorem Target.content_eq (h : Target d x) (hfree : ¬Blocked d) (name : ChainFile) :
    x.content .new name = x.held name := by
  rw [Disk.content, Disk.held, h.moved hfree name, Option.or_none]

theorem Target.chainDir_eq (h : Target d x) (hfree : ¬Blocked d) : x.chainDir = d.heldDir := by
  rw [Disk.chainDir, Disk.heldDir, h.content_eq hfree, h.content_eq hfree,
    h.held_eq (by decide), h.held_eq (by decide), h.segments]

theorem execAll_nodes (ms : List Move) (x : Disk) :
    (x.execAll ms).nodes = x.nodes ∧ (x.execAll ms).segments = x.segments := by
  induction ms generalizing x with
  | nil => exact ⟨rfl, rfl⟩
  | cons m ms ih =>
    obtain ⟨hnodes, hsegments⟩ := ih (x.exec m)
    have hexec : (x.exec m).nodes = x.nodes ∧ (x.exec m).segments = x.segments := by
      cases m with
      | unlink name => exact ⟨rfl, rfl⟩
      | link name =>
        unfold Disk.exec
        dsimp only
        split
        · exact ⟨rfl, rfl⟩
        · exact ⟨rfl, rfl⟩
      | unlinkLock => exact ⟨rfl, rfl⟩
    exact ⟨hnodes.trans hexec.1, hsegments.trans hexec.2⟩

/-! ## 2. The carrying -/

variable {F : Type} [PyFloat F] [PyRepr F] {wide : Text → Option Text} {job : Job} {old : Scoped}
  {a : Alert.Answers} {queue queue' : Text} {ending : Ending} {endings : List Ending}

/-- The cursor that is to be carried. -/
def carryOf (F : Type) [PyFloat F] [PyRepr F] (wide : Text → Option Text) (job : Job) (d : Disk) :
    Option Scoped :=
  match d.held .queue, d.held .chain with
  | some queue, some _ =>
    match carryCursor F wide queue d.heldDir job.oldId job.newId with
    | .carried old => some old
    | _ => none
  | _, _ => none

theorem carryCursor_congr {dir : Dir} (h : completeLines nl queue = completeLines nl queue') :
    carryCursor F wide queue dir job.oldId job.newId =
      carryCursor F wide queue' dir job.oldId job.newId := by
  unfold carryCursor
  rw [readEntries_eq, readEntries_eq, h]

/-- **What is pending behind the moves** is to be carried, whatever tail the queue has. -/
theorem pending_target (h : Target d x) (hfree : ¬Blocked d) {course : Course}
    (hcarries : course.carries = true) :
    pending F wide job course x = none ∧ carryOf F wide job d = none ∨
      ∃ ino queue old held, x.names .new .queue = some ino ∧ x.nodes .queue ino = some queue ∧
        d.held .queue = some held ∧ completeLines nl queue = completeLines nl held ∧
        carryOf F wide job d = some old ∧
        pending F wide job course x =
          some (⟨ino, queue⟩, carriedStatus job.oldId job.newId old) := by
  have hchain : x.content .new .chain = d.held .chain := by
    rw [h.content_eq hfree, h.held_eq (by decide)]
  have hlines : linesOf (x.content .new .queue) = linesOf (d.held .queue) := by
    rw [h.content_eq hfree, h.lines_eq]
  unfold pending carryOf
  rw [hchain, h.chainDir_eq hfree]
  cases hname : x.names .new .queue with
  | none =>
    refine Or.inl ⟨rfl, ?_⟩
    rw [Disk.content, hname] at hlines
    rw [show d.held .queue = none from Option.map_eq_none_iff.mp hlines.symm]
  | some ino =>
    rw [Disk.content, hname] at hlines
    dsimp only [Option.bind_some] at hlines
    rw [Disk.content, hname, Option.bind_some]
    cases hqueue : x.nodes .queue ino with
    | none =>
      rw [hqueue] at hlines
      refine Or.inl ⟨rfl, ?_⟩
      rw [show d.held .queue = none from Option.map_eq_none_iff.mp hlines.symm]
    | some queue =>
      rw [hqueue] at hlines
      obtain ⟨held, hheld, hsame⟩ := Option.map_eq_some_iff.mp hlines.symm
      rw [hheld]
      cases d.held .chain with
      | none => exact Or.inl ⟨rfl, rfl⟩
      | some bytes =>
        dsimp only
        rw [if_pos hcarries, ← carryCursor_congr hsame]
        cases carryCursor F wide held d.heldDir job.oldId job.newId with
        | carried old => exact Or.inr ⟨ino, queue, old, held, rfl, hqueue, rfl, hsame.symm, rfl, rfl⟩
        | _ => exact Or.inl ⟨rfl, rfl⟩

/-- The cursor is carried. -/
structure Carried (F : Type) [PyFloat F] [PyRepr F] (wide : Text → Option Text) (job : Job)
    (d x : Disk) (old : Scoped) : Prop where
  carries : carryOf F wide job d = some old
  free : ¬Blocked d
  names_old : ∀ name, x.names .old name = none
  names_new : ∀ name, name ≠ .queue →
    x.names .new name = (d.names .new name).or (d.names .old name)
  nodes : ∀ name, name ≠ .queue → x.nodes name = d.nodes name
  segments : x.segments = d.segments
  queue : ∃ held bytes a, d.held .queue = some held ∧
    completeLines nl bytes = completeLines nl held ∧
    x.content .new .queue = some (appended F wide job old bytes a)

/-- What `carry_cursor` found before it carried. -/
theorem carryCursor_carried {dir : Dir}
    (h : carryCursor F wide queue dir job.oldId job.newId = .carried old) :
    lastScopedCursor job.newId (readEntries (F := F) wide queue) = none ∧
      lastScopedCursor job.oldId (readEntries (F := F) wide queue) = some old ∧
      (readChain F wide dir none).chainId = old.chainId ∧
      old.cursor ∈ chainHashes F wide (readChain F wide dir none).lines := by
  unfold carryCursor at h
  split at h
  · cases h
  · dsimp only at h
    split at h
    · cases h
    · rename_i hnew
      split at h
      · cases h
      · rename_i old' hold
        split_ifs at h with hchain hcursor
        obtain rfl : old' = old := by injection h
        exact ⟨by simpa using hnew, hold, not_not.mp hchain, hcursor⟩

theorem carryOf_carried (h : carryOf F wide job d = some old) :
    ∃ held, d.held .queue = some held ∧
      carryCursor F wide held d.heldDir job.oldId job.newId = .carried old := by
  unfold carryOf at h
  split at h
  · rename_i held _ hheld _
    split at h
    · rename_i old' hcarry
      obtain rfl := Option.some.inj h
      exact ⟨held, hheld, hcarry⟩
    · cases h
  · cases h

/-- **The queue has the cursor for the new path.** -/
theorem appended_rows (hcursor : old.cursor ≠ []) (hchainId : old.chainId ≠ []) (bytes : Text) :
    ∃ rows row, readEntries (F := F) wide (appended F wide job old bytes a) = rows ++ [row] ∧
      scopedAt job.newId row = some old.back ∧
      rows.countP isMigrated ≤ (readEntries (F := F) wide bytes).countP isMigrated := by
  obtain ⟨rows, entry, hentry, hrows, hcount⟩ :=
    (isAppend_plan (F := F) (a := a)
      ⟨0, bytes⟩).after_rows (a := a) (no_newline_completeLines bytes)
  exact ⟨rows, rowOf entry, hrows, scopedAt_rowOf hentry hcursor hchainId, hcount⟩

/-! ## 3. One run -/

/-- On the way, and with all bytes as they were unless there is a cursor to carry. -/
structure Underway (F : Type) [PyFloat F] [PyRepr F] (wide : Text → Option Text) (job : Job)
    (d x : Disk) : Prop extends Partway d x where
  kept : Blocked d ∨ carryOf F wide job d = none → x.nodes = d.nodes

theorem Underway.refl : Underway F wide job d d := ⟨Partway.refl d, fun _ => rfl⟩

theorem Carried.cursor (h : Carried F wide job d x old) :
    ∃ queue, x.content .new .queue = some queue ∧
      lastScopedCursor job.newId (readEntries (F := F) wide queue) = some old.back := by
  obtain ⟨held, bytes, a, -, -, hqueue⟩ := h.queue
  obtain ⟨held', -, hcarry⟩ := carryOf_carried h.carries
  obtain ⟨hcursor, hchainId⟩ := lastScopedCursor_ne_nil (carryCursor_carried hcarry).2.1
  obtain ⟨rows, row, hrows, hscoped, -⟩ := appended_rows (F := F)
    (a := a) hcursor hchainId bytes
  refine ⟨_, hqueue, ?_⟩
  rw [hrows, lastScopedCursor_concat, hscoped, Option.some_or]

theorem Carried.congr (h : Carried F wide job d x old)
    (hnames : ∀ side name, y.names side name = x.names side name) (hnodes : y.nodes = x.nodes)
    (hsegments : y.segments = x.segments) : Carried F wide job d y old where
  carries := h.carries
  free := h.free
  names_old name := (hnames .old name).trans (h.names_old name)
  names_new name hname := (hnames .new name).trans (h.names_new name hname)
  nodes name hname := by rw [hnodes, h.nodes name hname]
  segments := hsegments.trans h.segments
  queue := by
    obtain ⟨held, bytes, a, hheld, hlines, hqueue⟩ := h.queue
    refine ⟨held, bytes, a, hheld, hlines, ?_⟩
    rw [Disk.content, hnames, hnodes]
    exact hqueue

/-- **Once the cursor is carried, nothing more is changed.** -/
theorem run_carried (hsetting : customAuditLog job.setting = false)
    (h : Carried F wide job d x old) (ending : Ending) :
    Carried F wide job d (run F wide job x ending) old := by
  obtain ⟨hallowed, htarget, -⟩ := execAll_target hsetting x
  have hsame : ∀ {y : Disk}, Partway x y →
      ∀ side name, y.names side name = x.names side name := by
    intro y hway side name
    obtain hsame | ⟨i, hold, -⟩ := hway.names name
    · exact hsame side
    · rw [h.names_old] at hold
      cases hold
  have hmoved : Carried F wide job d (x.execAll (migrateChain job.setting x).moves) old :=
    h.congr (hsame htarget.toPartway) (execAll_nodes _ x).1 (execAll_nodes _ x).2
  have hpending : pending F wide job (migrateChain job.setting x)
      (x.execAll (migrateChain job.setting x).moves) = none := by
    obtain ⟨queue, hqueue, hcursor⟩ := hmoved.cursor
    have hcarry : carryCursor F wide queue
        (x.execAll (migrateChain job.setting x).moves).chainDir job.oldId job.newId = .samePath ∨
        carryCursor F wide queue (x.execAll (migrateChain job.setting x).moves).chainDir
          job.oldId job.newId = .newPathAlreadyHasACursor := by
      unfold carryCursor
      split
      · exact Or.inl rfl
      · exact Or.inr (if_pos (by rw [hcursor]; rfl))
    unfold pending
    split
    · rename_i ino queue' _ _ hqueue' _
      obtain rfl := Option.some.inj (hqueue.symm.trans hqueue')
      split
      · obtain hcarry | hcarry := hcarry <;> rw [hcarry]
      · rfl
    · rfl
  cases ending with
  | crashedMoving moves =>
    have hway := execAll_take_partway hallowed moves
    exact h.congr (hsame hway) (execAll_nodes _ x).1 (execAll_nodes _ x).2
  | crashedAppending a bytes replaced =>
    unfold run
    dsimp only
    rw [hpending]
    exact hmoved
  | completed a =>
    unfold run
    dsimp only
    rw [hpending]
    exact hmoved

theorem writeQueue_names (file : File) (side : Side) (name : ChainFile) :
    (x.writeQueue file).names side name =
      if side = .new ∧ name = .queue then some file.ino else x.names side name :=
  setName_names .new .queue _ side name

theorem writeQueue_nodes (file : File) (hname : name ≠ .queue) :
    (x.writeQueue file).nodes name = x.nodes name :=
  Function.update_of_ne hname _ _

theorem writeQueue_queue (file : File) (i : ℕ) :
    (x.writeQueue file).nodes .queue i =
      if i = file.ino then some file.bytes else x.nodes .queue i := by
  unfold Disk.writeQueue
  dsimp only
  rw [Function.update_self, Function.update_apply]

/-- The queue's file keeps its number and its complete lines. -/
theorem partway_writeQueue {file : File} (hname : x.names .new .queue = some file.ino)
    (hqueue : x.nodes .queue file.ino = some queue)
    (hlines : completeLines nl file.bytes = completeLines nl queue) :
    Partway x (x.writeQueue file) where
  nodes name hne := writeQueue_nodes file hne
  queue i := by
    rw [writeQueue_queue]
    split
    · rename_i hi
      rw [hi, hqueue, linesOf, linesOf, Option.map_some, Option.map_some, hlines]
    · rfl
  segments := rfl
  names name := Or.inl fun side => by
    rw [writeQueue_names]
    split
    · rename_i h
      rw [h.1, h.2, hname]
    · rfl

theorem Target.names_new (h : Target d x) (hfree : ¬Blocked d) (name : ChainFile) :
    x.names .new name = (d.names .new name).or (d.names .old name) := by
  rw [← h.place_eq, h.moved hfree, Option.or_none]

/-- **The append carries the cursor.** -/
theorem carried_writeQueue (h : Target d x) (hfree : ¬Blocked d)
    (hcarry : carryOf F wide job d = some old) {held : Text} (hheld : d.held .queue = some held)
    {file : File} (hlines : completeLines nl file.bytes = completeLines nl held)
    (a : Alert.Answers) :
    Carried F wide job d (x.writeQueue ((plan (F := F) wide defaultQueue none file
      (.appendStatus (carriedStatus job.oldId job.newId old)) a).after a)) old where
  carries := hcarry
  free := hfree
  names_old name := by
    rw [writeQueue_names, if_neg (by simp)]
    exact h.moved hfree name
  names_new name hname := by
    rw [writeQueue_names, if_neg fun h => hname h.2]
    exact h.names_new hfree name
  nodes name hname := (writeQueue_nodes _ hname).trans (h.nodes name hname)
  segments := h.segments
  queue := by
    refine ⟨held, file.bytes, a, hheld, hlines, ?_⟩
    rw [Disk.content, writeQueue_names, if_pos ⟨rfl, rfl⟩, Option.bind_some, writeQueue_queue,
      if_pos rfl]
    exact congrArg some (plan_bytes file)

/-- **One run** goes on, or carries the cursor; when it completes, it is through. -/
theorem run_underway (hsetting : customAuditLog job.setting = false)
    (h : Underway F wide job d x) (ending : Ending) :
    Underway F wide job d (run F wide job x ending) ∧
        ((∃ a, ending = .completed a) → Target d (run F wide job x ending) ∧
          (Blocked d ∨ carryOf F wide job d = none)) ∨
      ∃ old, Carried F wide job d (run F wide job x ending) old := by
  obtain ⟨hallowed, htarget, hcarries⟩ := execAll_target hsetting x
  have htarget' := h.toPartway.target htarget
  have hmoved : Underway F wide job d (x.execAll (migrateChain job.setting x).moves) :=
    ⟨htarget'.toPartway, fun hkept => (execAll_nodes _ x).1.trans (h.kept hkept)⟩
  rw [h.blocked_iff] at hcarries
  -- Nothing is appended unless there is a cursor to carry.
  have hpending : pending F wide job (migrateChain job.setting x)
        (x.execAll (migrateChain job.setting x).moves) = none ∧
        (Blocked d ∨ carryOf F wide job d = none) ∨
      ¬Blocked d ∧ ∃ ino queue old held,
        (x.execAll (migrateChain job.setting x).moves).names .new .queue = some ino ∧
        (x.execAll (migrateChain job.setting x).moves).nodes .queue ino = some queue ∧
        d.held .queue = some held ∧ completeLines nl queue = completeLines nl held ∧
        carryOf F wide job d = some old ∧
        pending F wide job (migrateChain job.setting x)
          (x.execAll (migrateChain job.setting x).moves) =
            some (⟨ino, queue⟩, carriedStatus job.oldId job.newId old) := by
    by_cases hfree : Blocked d
    · refine Or.inl ⟨?_, Or.inl hfree⟩
      have hno : ¬(migrateChain job.setting x).carries = true := fun h => hcarries.mp h hfree
      unfold pending
      split
      · exact if_neg hno
      · rfl
    · obtain ⟨hnone, hcarry⟩ | hsome :=
        pending_target (F := F) htarget' hfree (hcarries.mpr hfree)
      · exact Or.inl ⟨hnone, Or.inr hcarry⟩
      · exact Or.inr ⟨hfree, hsome⟩
  cases ending with
  | crashedMoving moves =>
    refine Or.inl ⟨⟨h.toPartway.trans (execAll_take_partway hallowed moves), fun hkept => ?_⟩,
      fun ⟨_, he⟩ => by cases he⟩
    exact (execAll_nodes _ x).1.trans (h.kept hkept)
  | crashedAppending a bytes replaced =>
    unfold run
    dsimp only
    obtain ⟨hnone, -⟩ | ⟨hfree, ino, queue, old, held, hname, hqueue, hheld, hlines, hcarry, hsome⟩ :=
      hpending
    · rw [hnone]
      exact Or.inl ⟨hmoved, fun ⟨_, he⟩ => by cases he⟩
    · rw [hsome]
      dsimp only
      have hplan := (@isAppend_plan F _ _ wide job old a)
        ⟨ino, queue⟩
      obtain ⟨hino, hcut⟩ | hafter :=
        hplan.cut_or_after (a := a) (no_newline_completeLines queue) bytes replaced
      · refine Or.inl ⟨⟨htarget'.trans (partway_writeQueue ?_ ?_ hcut), fun hkept => ?_⟩,
          fun ⟨_, he⟩ => by cases he⟩
        · rw [hino, hname]
        · rw [hino, hqueue]
        · obtain hblocked | hnone := hkept
          · exact absurd hblocked hfree
          · rw [hcarry] at hnone
            cases hnone
      · rw [hafter]
        exact Or.inr ⟨old, carried_writeQueue htarget' hfree hcarry hheld hlines a⟩
  | completed a =>
    unfold run
    dsimp only
    obtain ⟨hnone, hkept⟩ | ⟨hfree, ino, queue, old, held, -, -, hheld, hlines, hcarry, hsome⟩ :=
      hpending
    · rw [hnone]
      exact Or.inl ⟨hmoved, fun _ => ⟨htarget', hkept⟩⟩
    · rw [hsome]
      exact Or.inr ⟨old, carried_writeQueue htarget' hfree hcarry hheld hlines a⟩

/-- **Runs that die anywhere.** -/
theorem runs_underway (hsetting : customAuditLog job.setting = false)
    (h : Underway F wide job d x ∨ ∃ old, Carried F wide job d x old) (endings : List Ending) :
    Underway F wide job d (runs F wide job x endings) ∨
      ∃ old, Carried F wide job d (runs F wide job x endings) old := by
  induction endings generalizing x with
  | nil => exact h
  | cons ending endings ih =>
    refine ih ?_
    obtain h | ⟨old, h⟩ := h
    · exact (run_underway hsetting h ending).imp And.left id
    · exact Or.inr ⟨old, run_carried hsetting h ending⟩

/-! ## 4. Moving the audit chain is crash safe -/

/-- The entries of the queue, wherever it stands. -/
def queueEntries (F : Type) [PyFloat F] [PyRepr F] (wide : Text → Option Text) (d : Disk) :
    List (Row F) :=
  readEntries wide ((d.held .queue).getD [])

/-- The files of a name have their bytes, and each is found under one of its two names. -/
def Untouched (d t : Disk) (name : ChainFile) : Prop :=
  t.nodes name = d.nodes name ∧ ∀ side i, d.names side name = some i →
    t.names .old name = some i ∨ t.names .new name = some i

/-- What the moves and the carrying promise of the disk `t`, given the disk `d` from before, when
a single run would leave `u`. -/
structure Safe (F : Type) [PyFloat F] [PyRepr F] (wide : Text → Option Text) (job : Job)
    (d t u : Disk) : Prop where
  kept : ∀ name, name ≠ .queue → Untouched d t name
  /-- The queue is left alone, or the append made it what it is. -/
  queue : Untouched d t .queue ∨ ∃ old held bytes a, d.held .queue = some held ∧
    completeLines nl bytes = completeLines nl held ∧
    t.held .queue = some (appended F wide job old bytes a)
  twice : ∀ name, t.present .old name = true → t.present .new name = true →
    d.present .old name = true ∧ d.present .new name = true
  same : ∀ name, name ≠ .queue → ∀ side, t.names side name = u.names side name
  sameQueue : ∀ side, t.present side .queue = u.present side .queue
  cursor : lastScopedCursor job.newId (queueEntries F wide t) =
    lastScopedCursor job.newId (queueEntries F wide u)
  rows : (queueEntries F wide t).countP isMigrated ≤ (queueEntries F wide d).countP isMigrated + 1
  carried : lastScopedCursor job.newId (queueEntries F wide d) = none →
    ∀ c, lastScopedCursor job.newId (queueEntries F wide t) = some c →
      ∃ old, lastScopedCursor job.oldId (queueEntries F wide d) = some old ∧ c = old.back ∧
        (readChain F wide t.chainDir none).chainId = old.chainId ∧
        old.cursor ∈ chainHashes F wide (readChain F wide t.chainDir none).lines

theorem Partway.untouched (h : Partway d x) (hnodes : x.nodes name = d.nodes name) :
    Untouched d x name := by
  refine ⟨hnodes, fun side i hi => ?_⟩
  obtain hsame | ⟨j, hold, -, hnew, hxnew, -⟩ := h.names name
  · cases side with
    | old => exact Or.inl ((hsame .old).trans hi)
    | new => exact Or.inr ((hsame .new).trans hi)
  · have hij : i = j := by
      cases side with
      | old => exact Option.some.inj (hi.symm.trans hold)
      | new =>
        obtain hnew | ⟨hnew, -⟩ := hnew
        · exact Option.some.inj (hi.symm.trans hnew)
        · rw [hnew] at hi
          cases hi
    exact Or.inr (hij ▸ hxnew)

/-- **When nothing is carried**, the disk has its bytes. -/
theorem safe_target {t u : Disk} (ht : Target d t) (hu : Target d u) (htnodes : t.nodes = d.nodes)
    (hunodes : u.nodes = d.nodes) : Safe F wide job d t u := by
  have hheld : ∀ {x : Disk}, Target d x → x.nodes = d.nodes → ∀ name, x.held name = d.held name := by
    intro x hx hnodes name
    rw [Disk.held, hx.place_eq, hnodes]
    rfl
  have hentries : ∀ {x : Disk}, Target d x → x.nodes = d.nodes →
      queueEntries F wide x = queueEntries F wide d := by
    intro x hx hnodes
    rw [queueEntries, queueEntries, hheld hx hnodes]
  have hsame := ht.names_eq hu
  refine ⟨fun name _ => ht.untouched (by rw [htnodes]), Or.inl (ht.untouched (by rw [htnodes])), ?_,
    fun name _ side => hsame side name, fun side => ?_, ?_, ?_, ?_⟩
  · intro name hold hnew
    obtain hname | ⟨i, hiold, hregular, hinew, htnew, htold⟩ := ht.names name
    · rw [Disk.present, hname] at hold hnew
      exact ⟨hold, hnew⟩
    · refine absurd ?_ (ht.finished name)
      refine ⟨i, htold.resolve_right fun hnone => ?_, htnew, by rw [htnodes]; exact hregular⟩
      rw [Disk.present, hnone] at hold
      cases hold
  · rw [Disk.present, Disk.present, hsame]
  · rw [hentries ht htnodes, hentries hu hunodes]
  · rw [hentries ht htnodes]
    exact Nat.le_succ _
  · intro hnone c hc
    rw [hentries ht htnodes, hnone] at hc
    cases hc

theorem Carried.held_queue (h : Carried F wide job d x old) :
    ∃ held bytes a, d.held .queue = some held ∧ completeLines nl bytes = completeLines nl held ∧
      x.held .queue = some (appended F wide job old bytes a) := by
  obtain ⟨held, bytes, a, hheld, hlines, hqueue⟩ := h.queue
  refine ⟨held, bytes, a, hheld, hlines, ?_⟩
  rw [Disk.held, h.names_old, Option.or_none]
  exact hqueue

theorem Carried.lastScopedCursor_eq (h : Carried F wide job d x old) :
    lastScopedCursor job.newId (queueEntries F wide x) = some old.back := by
  obtain ⟨queue, hqueue, hcursor⟩ := h.cursor
  rw [Disk.content, ← Option.or_none (o := x.names .new .queue), ← h.names_old .queue] at hqueue
  rw [queueEntries, show x.held .queue = some queue from hqueue]
  exact hcursor

theorem Carried.chainDir_eq (h : Carried F wide job d x old) : x.chainDir = d.heldDir := by
  have hcontent : ∀ name, name ≠ .queue → x.content .new name = d.held name := by
    intro name hname
    rw [Disk.content, h.names_new name hname, h.nodes name hname]
    rfl
  rw [Disk.chainDir, Disk.heldDir, hcontent _ (by decide), hcontent _ (by decide), h.segments]

/-- **When the cursor is carried.** -/
theorem safe_carried {t u : Disk} (ht : Carried F wide job d t old)
    (hu : Carried F wide job d u old) : Safe F wide job d t u := by
  obtain ⟨held, hheld, hcarry⟩ := carryOf_carried ht.carries
  obtain ⟨-, hold, hchain, hcursor⟩ := carryCursor_carried hcarry
  obtain ⟨hcursorNil, hchainNil⟩ := lastScopedCursor_ne_nil hold
  have hentries : queueEntries F wide d = readEntries (F := F) wide held := by
    rw [queueEntries, hheld]
    rfl
  constructor
  · intro name hname
    refine ⟨ht.nodes name hname, fun side i hi => Or.inr ?_⟩
    rw [ht.names_new name hname]
    cases side with
    | new => rw [hi, Option.some_or]
    | old =>
      -- Both names of a file that is not in the way are those of one file.
      have hfree : ¬BlockedAt d name := fun h => ht.free ⟨name, h⟩
      cases hnew : d.names .new name with
      | none => rw [hi, Option.none_or]
      | some j =>
        unfold BlockedAt at hfree
        rw [hi, hnew] at hfree
        rw [not_not.mp (not_or.mp hfree).1, Option.some_or]
  · obtain ⟨held, bytes, a, hheld, hlines, hqueue⟩ := ht.held_queue
    exact Or.inr ⟨old, held, bytes, a, hheld, hlines, hqueue⟩
  · intro name hpresent
    rw [Disk.present, ht.names_old] at hpresent
    cases hpresent
  · intro name hname side
    cases side with
    | old => rw [ht.names_old, hu.names_old]
    | new => rw [ht.names_new name hname, hu.names_new name hname]
  · have hnew : ∀ {x : Disk}, Carried F wide job d x old → x.present .new .queue = true := by
      intro x hx
      obtain ⟨queue, hqueue, -⟩ := hx.cursor
      obtain ⟨i, hi, -⟩ := Option.bind_eq_some_iff.mp hqueue
      rw [Disk.present, hi]
      rfl
    intro side
    cases side with
    | old => rw [Disk.present, Disk.present, ht.names_old, hu.names_old]
    | new => rw [hnew ht, hnew hu]
  · rw [ht.lastScopedCursor_eq, hu.lastScopedCursor_eq]
  · obtain ⟨held', bytes, a, hheld', hlines, hqueue⟩ := ht.held_queue
    obtain rfl := Option.some.inj (hheld.symm.trans hheld')
    obtain ⟨rows, row, hrows, -, hcount⟩ := appended_rows (F := F)
      (a := a) hcursorNil hchainNil bytes
    rw [queueEntries, hqueue, Option.getD_some, hrows, List.countP_append, List.countP_singleton,
      hentries]
    rw [readEntries_eq bytes, hlines, ← readEntries_eq] at hcount
    split <;> omega
  · intro _ c hc
    rw [ht.lastScopedCursor_eq] at hc
    obtain rfl := Option.some.inj hc
    rw [ht.chainDir_eq, hentries]
    exact ⟨old, hold, rfl, hchain, hcursor⟩

theorem run_custom (hsetting : customAuditLog job.setting = true) (d : Disk) (ending : Ending) :
    run F wide job d ending = d := by
  have hcourse : migrateChain job.setting d = ⟨[], .customAuditLog, false⟩ := by
    rw [migrateChain, if_pos hsetting]
  have hpending : pending F wide job ⟨[], .customAuditLog, false⟩ d = none := by
    unfold pending
    split <;> rfl
  unfold run
  rw [hcourse]
  cases ending with
  | crashedMoving moves =>
    dsimp only
    rw [List.take_nil]
    rfl
  | crashedAppending a bytes replaced =>
    dsimp only
    rw [execAll_nil, hpending]
  | completed a =>
    dsimp only
    rw [execAll_nil, hpending]

/-- **Moving the audit chain is crash safe.**  However many runs end anywhere, when a last one
completes: no file but the queue is changed, each is under one of its names, and none is under both
that was not before; the queue is what it was, or what its own append made of its complete lines;
the names, and the cursor for the new path, are those that a single run would leave; the queue has
one `audit_path_migrated` row more at most; and a cursor for the new path that was not there before
is the old path's last one, in the chain that was moved. -/
theorem chain_moved (job : Job) (d : Disk) (endings : List Ending) (a a' : Alert.Answers) :
    Safe F wide job d (run F wide job (runs F wide job d endings) (.completed a))
      (run F wide job d (.completed a')) := by
  by_cases hsetting : customAuditLog job.setting = true
  · have hruns : ∀ d : Disk, runs F wide job d endings = d := by
      induction endings with
      | nil => exact fun d => rfl
      | cons ending endings ih =>
        intro d
        refine Eq.trans ?_ (ih d)
        exact congrArg (fun d => runs F wide job d endings) (run_custom hsetting d ending)
    rw [hruns, run_custom hsetting, run_custom hsetting]
    have huntouched : ∀ name, Untouched d d name := fun name => (Partway.refl d).untouched rfl
    refine ⟨fun name _ => huntouched name, Or.inl (huntouched _), fun name h h' => ⟨h, h'⟩,
      fun _ _ _ => rfl, fun _ => rfl, rfl, Nat.le_succ _, fun hnone c hc => ?_⟩
    rw [hnone] at hc
    cases hc
  · have hsetting' : customAuditLog job.setting = false := by simpa using hsetting
    have hcompleted : ∀ {x : Disk} (a : Alert.Answers), Underway F wide job d x ∨
        (∃ old, Carried F wide job d x old) →
        (Target d (run F wide job x (.completed a)) ∧
          (run F wide job x (.completed a)).nodes = d.nodes ∧
          (Blocked d ∨ carryOf F wide job d = none)) ∨
        ∃ old, Carried F wide job d (run F wide job x (.completed a)) old := by
      rintro x a (hx | ⟨old, hx⟩)
      · refine (run_underway hsetting' hx (.completed a)).imp (fun h => ?_) id
        obtain ⟨htarget, hkept⟩ := h.2 ⟨a, rfl⟩
        exact ⟨htarget, h.1.kept hkept, hkept⟩
      · exact Or.inr ⟨old, run_carried hsetting' hx _⟩
    have hnot : ∀ {x : Disk} {old : Scoped}, Carried F wide job d x old →
        ¬(Blocked d ∨ carryOf F wide job d = none) := by
      rintro x old hx (hblocked | hnone)
      · exact hx.free hblocked
      · rw [hx.carries] at hnone
        cases hnone
    have hstart : Underway F wide job d d ∨ ∃ old, Carried F wide job d d old :=
      Or.inl Underway.refl
    obtain ⟨ht, htnodes, hkept⟩ | ⟨old, ht⟩ :=
      hcompleted a (runs_underway hsetting' hstart endings)
    · obtain ⟨hu, hunodes, -⟩ | ⟨old, hu⟩ := hcompleted a' hstart
      · exact safe_target ht hu htnodes hunodes
      · exact absurd hkept (hnot hu)
    · obtain ⟨-, -, hkept⟩ | ⟨old', hu⟩ := hcompleted a' hstart
      · exact absurd hkept (hnot ht)
      · obtain rfl := Option.some.inj (ht.carries.symm.trans hu.carries)
        exact safe_carried ht hu

/-! ## 5. A queue with a torn tail -/

/-- The queue of an earlier move, whose last append did not get through. -/
def sampleQueueBytes : Text :=
  ascii "\x7b\"record_type\":\"relay_status\",\"event\":\"audit_path_migrated\"," ++
    ascii "\"audit_cursor_chain_hash\":\"c\",\"audit_chain_id\":\"c\",\"audit_path\":\"/o\"\x7d\nx"

def sampleChain : Text := ascii "\x7b\"chain_hash\":\"c\"\x7d\n"

def sampleDisk : Disk where
  names side name :=
    if side = .old then (match name with | .chain => some 1 | .queue => some 2 | _ => none) else none
  nodes name i := if name = .chain ∧ i = 1 then some sampleChain
    else if name = .queue ∧ i = 2 then some sampleQueueBytes else none
  lock := false
  segments _ := none

def sampleJob : Job := ⟨[], pyStr "/o", pyStr "/n", by simp⟩

/-- **The append of the queue cuts a torn tail off**, and adds a row to that of an earlier move. -/
theorem torn_tail_lost :
    let t := run NaN sampleWide sampleJob sampleDisk (.completed ⟨0, 3, 0, [], [], true⟩)
    (∃ bytes, t.held .queue = some bytes ∧ ¬sampleQueueBytes <+: bytes) ∧
      (queueEntries NaN sampleWide t).countP isMigrated = 2 := by
  have h : ((run NaN sampleWide sampleJob sampleDisk (.completed ⟨0, 3, 0, [], [], true⟩)).held
      .queue).map (fun bytes => (sampleQueueBytes.isPrefixOf bytes,
        (readEntries (F := NaN) sampleWide bytes).countP isMigrated)) = some (false, 2) := by
    decide +kernel
  obtain ⟨bytes, hbytes, hparts⟩ := Option.map_eq_some_iff.mp h
  obtain ⟨hstart, hcount⟩ := Prod.mk.inj hparts
  refine ⟨⟨bytes, hbytes, fun hno => ?_⟩, ?_⟩
  · rw [List.isPrefixOf_iff_prefix.mpr hno] at hstart
    cases hstart
  · rw [queueEntries, hbytes]
    exact hcount

end AzazelEdge.Migrate
