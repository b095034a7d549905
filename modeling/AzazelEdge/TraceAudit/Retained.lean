/-
# The trace audit sink keeps what it acknowledged

An append may fail at any step, and a rotation is started again from its first step by the next
append.  Three failures break the law that the sink states for itself:

* a failure behind a complete write (`fsync`, the close, the sync of the directory) is answered
  "not written", with the record in the file (`append_kept_unwritten`);
* so is a failed truncation behind a write that stopped at the last newline;
* a rotation that failed below a segment it had moved leaves a gap, and the next rotation removes a
  segment although there are less than `max_files`.

`audit_kept`: in a run without these, the sink keeps what it acknowledged.
-/
import AzazelEdge.Lib.Run
import AzazelEdge.TraceAudit.Sink
import Mathlib.Algebra.GroupWithZero.Nat

namespace AzazelEdge.TraceAudit

open AzazelEdge.Lib AzazelEdge.Lib.Py

variable {cfg : Retention} {io : AppendIo} {files files' : Segments} {data body c : Text}
  {fault : Option Fault} {sink sink' : Sink}

/-! ## 1. Lines -/

/-- The text is a line of the content, ended by a newline or by the end of the file. -/
def LineIn (body c : Text) : Prop :=
  ∃ pre post, c = pre ++ body ++ post ∧ (pre = [] ∨ pre.getLast? = some 10) ∧
    (post = [] ∨ post.head? = some 10)

/-- The data, which ends in a newline, begins on a line of its own. -/
def OwnLine (data c : Text) : Prop :=
  ∃ pre post, c = pre ++ data ++ post ∧ (pre = [] ∨ pre.getLast? = some 10)

/-- One line: something, and the newline at its end. -/
structure IsLine (data body : Text) : Prop where
  split : data = body ++ [10]
  inner : 10 ∉ body
  ne : body ≠ []

theorem OwnLine.prefix (h : OwnLine data c) {c' : Text} (hc : c <+: c') : OwnLine data c' := by
  obtain ⟨pre, post, rfl, hpre⟩ := h
  obtain ⟨more, rfl⟩ := hc
  exact ⟨pre, post ++ more, by simp, hpre⟩

theorem tornTail_false (h : tornTail c = false) : c = [] ∨ c.getLast? = some 10 := by
  unfold tornTail at h
  cases hlast : c.getLast? with
  | none => exact Or.inl (List.getLast?_eq_none_iff.mp hlast)
  | some b =>
    rw [hlast] at h
    simp only [Option.any_some, decide_eq_false_iff_not, not_not] at h
    exact Or.inr (by rw [h])

/-- What is written for the data behind this content. -/
def lineData (c data : Text) : Text := if tornTail c then 10 :: data else data

/-- Written whole, the data is on a line of its own. -/
theorem ownLine_written (c data : Text) : OwnLine data (c ++ lineData c data) := by
  unfold lineData
  cases htorn : tornTail c with
  | true => exact ⟨c ++ [10], [], by simp, Or.inr (by simp)⟩
  | false => exact ⟨c, [], by simp, tornTail_false htorn⟩

/-- **A line that was not written whole is not there**, unless it was before. -/
theorem LineIn.of_torn {taken : Text} (hline : IsLine data body)
    (htaken : taken <+: lineData c data) (hshort : taken.length + 1 < (lineData c data).length)
    (h : LineIn body (c ++ taken)) : LineIn body c := by
  obtain ⟨pre, post, heq, hpre, hpost⟩ := h
  obtain ⟨rfl, hinner, hne⟩ := hline
  -- Behind a torn tail a newline is written first; else less than the line was written.
  have hstart : ∀ d rest, d ≠ [] → taken = d ++ rest → tornTail c = true → 10 ∈ d := by
    intro d rest hd htake htorn
    obtain ⟨b, d, rfl⟩ := List.exists_cons_of_ne_nil hd
    obtain ⟨more, hmore⟩ := htaken
    rw [htake, lineData, if_pos htorn] at hmore
    have hb : b = 10 := (List.cons.inj hmore).1
    exact hb ▸ List.mem_cons_self
  have hlength : tornTail c = false → taken.length < body.length := by
    intro htorn
    rw [lineData, htorn, if_neg (by decide), List.length_append, List.length_singleton] at hshort
    omega
  have htight : taken.length ≤ body.length := by
    unfold lineData at hshort
    split at hshort <;> simp only [List.length_cons, List.length_append, List.length_nil] at hshort <;>
      omega
  rw [List.append_assoc] at heq
  rcases List.append_eq_append_iff.mp heq with ⟨mid, rfl, htake⟩ | ⟨mid, rfl, htake⟩
  · -- The line would be all in what was written.
    exfalso
    have hle := congrArg List.length htake
    simp only [List.length_append] at hle
    cases htorn : tornTail c with
    | true =>
      have hmid : mid = [] := List.length_eq_zero_iff.mp (by omega)
      subst hmid
      exact hinner (hstart body post hne htake htorn)
    | false =>
      have := hlength htorn
      omega
  · rcases List.append_eq_append_iff.mp htake with ⟨rest, rfl, rfl⟩ | ⟨rest, rfl, hrest'⟩
    · -- It is all in the content.
      refine ⟨pre, rest, by simp, hpre, ?_⟩
      rcases hpost with hpost | hpost
      · exact Or.inl (List.append_eq_nil_iff.mp hpost).1
      · cases rest with
        | nil => exact Or.inl rfl
        | cons b rest => exact Or.inr hpost
    · by_cases hrest : rest = []
      · subst hrest
        exact ⟨pre, [], by simp, hpre, Or.inl rfl⟩
      · -- It would begin in the content and end behind it.
        exfalso
        cases htorn : tornTail (pre ++ mid) with
        | true =>
          exact hinner (List.mem_append_right _ (hstart rest post hrest hrest' htorn))
        | false =>
          have hmid : mid = [] := by
            by_contra hmid
            rcases tornTail_false htorn with hnil | hlast
            · exact hmid (List.append_eq_nil_iff.mp hnil).2
            · rw [List.getLast?_append_of_ne_nil _ hmid] at hlast
              exact hinner (List.mem_append_left _ (List.mem_of_getLast? hlast))
          subst hmid
          have hle := congrArg List.length hrest'
          have := hlength htorn
          simp only [List.length_append, List.nil_append] at hle this
          omega

/-! ## 2. One rotation -/

/-- The first `m` moves, down to segment `j`: what lies between is one further. -/
def Segments.moved (files : Segments) (j m : ℕ) : Segments := fun k =>
  if k < j then files k else if k = j then none else if k ≤ m then files (k - 1) else files k

/-- The moves end at a segment: the last one, or the one behind the step that failed. -/
theorem moveUp_moved (io : AppendIo) : ∀ (m : ℕ) (files files' : Segments) (fault : Option Fault),
    files m = none → moveUp io (List.range m).reverse files = (files', fault) →
    ∃ j ≤ m, files' = files.moved j m ∧ (fault = none → j = 0) ∧
      (fault ≠ none → ∃ i, j = i + 1 ∧
        (io.fails (.lexists i) ≠ none ∨ io.fails (.rename i) ≠ none)) := by
  intro m
  induction m with
  | zero =>
    intro files files' fault hnone h
    obtain ⟨rfl, rfl⟩ := Prod.mk.inj h
    refine ⟨0, le_rfl, ?_, fun _ => rfl, fun h => absurd rfl h⟩
    funext k
    by_cases hk : k = 0
    · subst hk
      exact hnone
    · unfold Segments.moved
      rw [if_neg (by omega), if_neg hk, if_neg (by omega)]
  | succ m ih =>
    intro files files' fault hnone h
    have hself : files = files.moved (m + 1) (m + 1) := by
      funext k
      unfold Segments.moved
      by_cases hk : k = m + 1
      · subst hk
        rw [if_neg (by omega), if_pos rfl, hnone]
      · by_cases hlt : k < m + 1
        · rw [if_pos hlt]
        · rw [if_neg hlt, if_neg hk, if_neg (by omega)]
    rw [List.range_succ, List.reverse_append, List.reverse_singleton, List.singleton_append,
      moveUp] at h
    split at h
    · rename_i failed hfails
      obtain ⟨rfl, rfl⟩ := Prod.mk.inj h
      exact ⟨m + 1, le_rfl, hself, fun h => (by cases h),
        fun _ => ⟨m, rfl, Or.inl (by rw [hfails]; exact Option.some_ne_none _)⟩⟩
    · split at h
      · rename_i habsent
        have hm : files m = none := by simpa using habsent
        obtain ⟨j, hj, hmoved, hdone, hfailed⟩ := ih files files' fault hm h
        refine ⟨j, by omega, ?_, hdone, hfailed⟩
        rw [hmoved]
        funext k
        unfold Segments.moved
        by_cases hk : k = m + 1
        · subst hk
          rw [if_neg (by omega), if_neg (by omega), if_neg (by omega), if_neg (by omega),
            if_neg (by omega), if_pos le_rfl, hnone]
          exact hm.symm
        · by_cases hle : k ≤ m
          · simp [hle, Nat.le_succ_of_le hle]
          · simp [hle, show ¬ k ≤ m + 1 by omega]
      · split at h
        · rename_i failed hfails
          obtain ⟨rfl, rfl⟩ := Prod.mk.inj h
          exact ⟨m + 1, le_rfl, hself, fun h => (by cases h),
            fun _ => ⟨m, rfl, Or.inr (by rw [hfails]; exact Option.some_ne_none _)⟩⟩
        · have hm : files.shift m m = none := by
            unfold Segments.shift Segments.put
            rw [if_pos rfl]
          obtain ⟨j, hj, hmoved, hdone, hfailed⟩ := ih (files.shift m) files' fault hm h
          refine ⟨j, by omega, ?_, hdone, hfailed⟩
          rw [hmoved]
          funext k
          unfold Segments.moved Segments.shift Segments.put
          by_cases hk : k < j
          · rw [if_pos hk, if_pos hk, if_neg (by omega), if_neg (by omega)]
          · rw [if_neg hk, if_neg hk]
            by_cases hkj : k = j
            · rw [if_pos hkj, if_pos hkj]
            · rw [if_neg hkj, if_neg hkj]
              by_cases hle : k ≤ m
              · rw [if_pos hle, if_neg (by omega), if_neg (by omega), if_pos (by omega)]
              · rw [if_neg hle, if_neg (by omega)]
                by_cases hlast : k = m + 1
                · subst hlast
                  rw [if_pos rfl, if_pos le_rfl, Nat.add_sub_cancel]
                · rw [if_neg hlast, if_neg (by omega)]

/-- What a rotation leaves: the files as they were, or the oldest removed and the moves made. -/
theorem rotate_cases (h : rotate cfg io files = (files', fault)) :
    (files' = files ∧ fault ≠ none) ∨
      ((io.fails (.lexists (cfg.maxFiles - 1)) = none ∧
          ((files (cfg.maxFiles - 1)).isSome → io.fails (.remove (cfg.maxFiles - 1)) = none)) ∧
        ∃ j ≤ cfg.maxFiles - 1,
          files' = (files.put (cfg.maxFiles - 1) none).moved j (cfg.maxFiles - 1) ∧
          (fault = none → j = 0) ∧
          (j ≠ 0 → ∃ i, j = i + 1 ∧
            (io.fails (.lexists i) ≠ none ∨ io.fails (.rename i) ≠ none))) := by
  unfold rotate at h
  dsimp only at h
  split at h
  · obtain ⟨rfl, rfl⟩ := Prod.mk.inj h
    exact Or.inl ⟨rfl, Option.some_ne_none _⟩
  · rename_i hlexists
    split at h
    · obtain ⟨rfl, rfl⟩ := Prod.mk.inj h
      exact Or.inl ⟨rfl, Option.some_ne_none _⟩
    · rename_i hremove
      have hremoved : (files (cfg.maxFiles - 1)).isSome →
          io.fails (.remove (cfg.maxFiles - 1)) = none := by
        intro hsome
        rw [if_pos hsome] at hremove
        exact hremove
      have hput : files.put (cfg.maxFiles - 1) none (cfg.maxFiles - 1) = none := by
        unfold Segments.put
        rw [if_pos rfl]
      refine Or.inr ⟨⟨hlexists, hremoved⟩, ?_⟩
      split at h
      · rename_i moved failed hmoves
        obtain ⟨rfl, rfl⟩ := Prod.mk.inj h
        obtain ⟨j, hj, hmoved, -, hfailed⟩ := moveUp_moved io _ _ _ _ hput hmoves
        exact ⟨j, hj, hmoved, fun h => (by cases h), fun _ => hfailed (Option.some_ne_none _)⟩
      · rename_i moved hmoves
        obtain ⟨rfl, rfl⟩ := Prod.mk.inj h
        obtain ⟨j, hj, hmoved, hdone, -⟩ := moveUp_moved io _ _ _ _ hput hmoves
        exact ⟨j, hj, hmoved, fun _ => hdone rfl, fun h => absurd (hdone rfl) h⟩

/-! ## 3. The segments of one append -/

/-- The data is on a line of its own in a retained file. -/
def OnLine (data : Text) (files : Segments) : Prop := ∃ i c, files i = some c ∧ OwnLine data c

/-- The text is a line of a retained file. -/
def HasLine (body : Text) (files : Segments) : Prop := ∃ i c, files i = some c ∧ LineIn body c

/-- The segments are within their bounds, and the rotated ones leave no gap. -/
structure Laid (cfg : Retention) (files : Segments) : Prop where
  bounded : ∀ i c, files i = some c → i < cfg.maxFiles ∧ c.length ≤ cfg.maxFileBytes
  gapless : ∀ i, 1 ≤ i → (files (i + 1)).isSome → (files i).isSome

/-- The append makes room by removing the oldest segment, if there is one. -/
structure RemovesOldest (cfg : Retention) (io : AppendIo) (data : Text) (files : Segments) :
    Prop where
  needed : needsRotation cfg files data = true
  size : io.fails .size = none
  lexists : io.fails (.lexists (cfg.maxFiles - 1)) = none
  remove : (files (cfg.maxFiles - 1)).isSome → io.fails (.remove (cfg.maxFiles - 1)) = none

/-- The failures that the sink bears: no rotation fails below a segment that it moved, nothing fails
behind a complete write, and no truncation behind the whole text of the record. -/
structure SoundIo (cfg : Retention) (io : AppendIo) (data : Text) (files : Segments) : Prop where
  rotation : needsRotation cfg files data = true → ∀ i, i + 2 < cfg.maxFiles →
    io.fails (.lexists i) ≠ none ∨ io.fails (.rename i) ≠ none → files (i + 1) = none
  durable : ∀ room, makeRoom cfg io data files = (room, none) →
    io.fails .openFile = none → io.fails .prepare = none →
    ∀ taken, writeLoop io.writes (lineData ((room 0).getD []) data) = (taken, none) →
      io.fails .fsync = none ∧ io.fails .closeFile = none ∧
        (room 0 = none → io.fails .createdSync = none)
  truncated : ∀ room, makeRoom cfg io data files = (room, none) →
    io.fails .openFile = none → io.fails .prepare = none →
    ∀ taken fault, writeLoop io.writes (lineData ((room 0).getD []) data) = (taken, some fault) →
      io.truncate = none ∨ taken.length + 1 < (lineData ((room 0).getD []) data).length

theorem writeLoop_prefix : ∀ (writes : List (Except Fault ℕ)) (view : Text),
    (writeLoop writes view).1 <+: view ∧
      ((writeLoop writes view).2 = none → (writeLoop writes view).1 = view)
  | _, [] => by
    rw [writeLoop]
    exact ⟨List.prefix_rfl, fun _ => rfl⟩
  | [], b :: view => by
    rw [writeLoop]
    · exact ⟨List.prefix_rfl, fun _ => rfl⟩
    · exact fun h => by cases h
  | .error fault :: rest, b :: view => by
    rw [writeLoop]
    · exact ⟨List.nil_prefix, fun h => by cases h⟩
    · exact fun h => by cases h
  | .ok 0 :: rest, b :: view => by
    rw [writeLoop]
    · exact ⟨List.nil_prefix, fun h => by cases h⟩
    · exact fun h => by cases h
  | .ok (n + 1) :: rest, b :: view => by
    obtain ⟨hstart, hall⟩ := writeLoop_prefix rest ((b :: view).drop (n + 1))
    rw [writeLoop]
    · dsimp only
      have hsplit := List.take_append_drop (n + 1) (b :: view)
      refine ⟨?_, fun h => ?_⟩
      · obtain ⟨more, hmore⟩ := hstart
        exact ⟨more, by rw [List.append_assoc, hmore, hsplit]⟩
      · rw [hall h, hsplit]
    · exact fun h => by cases h

/-- Where the active file has no room, there is one. -/
theorem active_of_needsRotation (hdata : data.length + 1 ≤ maxRecordBytes)
    (h : needsRotation cfg files data = true) : (files 0).isSome := by
  unfold needsRotation at h
  rw [decide_eq_true_eq] at h
  cases hfile : files 0 with
  | some c => rfl
  | none =>
    have := cfg.bytes_ok
    rw [hfile, Option.getD_none, List.length_nil] at h
    omega

/-- What making room leaves. -/
theorem makeRoom_cases (h : makeRoom cfg io data files = (files', fault)) :
    (files' = files ∧ (fault = none → needsRotation cfg files data = false)) ∨
      RemovesOldest cfg io data files ∧ ∃ j ≤ cfg.maxFiles - 1,
        files' = (files.put (cfg.maxFiles - 1) none).moved j (cfg.maxFiles - 1) ∧
        (fault = none → j = 0) ∧
        (j ≠ 0 → ∃ i, j = i + 1 ∧
          (io.fails (.lexists i) ≠ none ∨ io.fails (.rename i) ≠ none)) := by
  unfold makeRoom at h
  split at h
  · obtain ⟨rfl, rfl⟩ := Prod.mk.inj h
    exact Or.inl ⟨rfl, fun h => by cases h⟩
  · rename_i hsize
    split at h
    · rename_i hneeded
      rcases rotate_cases h with ⟨hsame, hfault⟩ | ⟨⟨hlexists, hremove⟩, hmoves⟩
      · exact Or.inl ⟨hsame, fun h => absurd h hfault⟩
      · exact Or.inr ⟨⟨hneeded, hsize, hlexists, hremove⟩, hmoves⟩
    · rename_i hroom
      obtain ⟨rfl, rfl⟩ := Prod.mk.inj h
      exact Or.inl ⟨rfl, fun _ => by simpa using hroom⟩

section Moved

variable {j : ℕ}

/-- The moves invent no content. -/
theorem moved_mem {m k : ℕ} (h : (files.put m none).moved j m k = some c) :
    ∃ i, files i = some c ∧ (k ≤ m ∨ i = k) := by
  unfold Segments.moved Segments.put at h
  split at h
  · split at h
    · cases h
    · exact ⟨k, h, Or.inr rfl⟩
  · split at h
    · cases h
    · split at h
      · rename_i hle
        split at h
        · cases h
        · exact ⟨k - 1, h, Or.inl hle⟩
      · split at h
        · cases h
        · exact ⟨k, h, Or.inr rfl⟩

/-- They lose none but the oldest. -/
theorem moved_kept {m i : ℕ} (hj : j ≤ m) (hi : i ≠ m) (h : files i = some c) :
    ∃ k, (files.put m none).moved j m k = some c := by
  unfold Segments.moved Segments.put
  by_cases hlow : i < j
  · exact ⟨i, by rw [if_pos hlow, if_neg hi, h]⟩
  · by_cases hmid : i < m
    · refine ⟨i + 1, ?_⟩
      rw [if_neg (by omega), if_neg (by omega), if_pos (by omega), if_neg (by omega),
        Nat.add_sub_cancel, h]
    · exact ⟨i, by rw [if_neg hlow, if_neg (by omega), if_neg (by omega), if_neg hi, h]⟩

/-- **A rotation that failed nowhere below a moved segment leaves no gap.** -/
theorem Laid.moved (h : Laid cfg files) (hactive : (files 0).isSome) (hj : j ≤ cfg.maxFiles - 1)
    (hgap : j ≠ 0 → j < cfg.maxFiles - 1 → files j = none) :
    Laid cfg ((files.put (cfg.maxFiles - 1) none).moved j (cfg.maxFiles - 1)) := by
  have hfiles := cfg.files_ok
  refine ⟨fun k c hc => ?_, fun k hk hsome => ?_⟩
  · obtain ⟨i, hi, hle⟩ := moved_mem hc
    obtain ⟨hin, hlength⟩ := h.bounded i c hi
    refine ⟨?_, hlength⟩
    rcases hle with hle | rfl
    · omega
    · exact hin
  · unfold Segments.moved Segments.put at hsome ⊢
    by_cases hlow : k + 1 < j
    · rw [if_pos hlow, if_neg (by omega)] at hsome
      rw [if_pos (by omega), if_neg (by omega)]
      exact h.gapless k hk hsome
    rw [if_neg hlow] at hsome
    by_cases heq : k + 1 = j
    · rw [if_pos heq] at hsome
      cases hsome
    rw [if_neg heq] at hsome
    by_cases hle : k + 1 ≤ cfg.maxFiles - 1
    · rw [if_pos hle, Nat.add_sub_cancel, if_neg (by omega)] at hsome
      by_cases hkj : k = j
      · rw [hkj, hgap (by omega) (by omega)] at hsome
        cases hsome
      · rw [if_neg (by omega), if_neg hkj, if_pos (by omega), if_neg (by omega)]
        obtain ⟨i, rfl⟩ : ∃ i, k = i + 1 := ⟨k - 1, by omega⟩
        rw [Nat.add_sub_cancel]
        cases i with
        | zero => exact hactive
        | succ i => exact h.gapless (i + 1) (by omega) hsome
    · rw [if_neg hle, if_neg (by omega)] at hsome
      obtain ⟨c, hc⟩ := Option.isSome_iff_exists.mp hsome
      have := (h.bounded _ c hc).1
      omega

end Moved

/-- The room that was made: the segments are laid out, none but the oldest lost its content, and
the active file takes the data when no step failed. -/
structure Room (cfg : Retention) (io : AppendIo) (data : Text) (files room : Segments)
    (fault : Option Fault) : Prop where
  laid : Laid cfg room
  mem : ∀ i c, room i = some c → ∃ k, files k = some c
  kept : ∀ i c, files i = some c → (∃ k, room k = some c) ∨
    RemovesOldest cfg io data files ∧ i = cfg.maxFiles - 1
  fits : fault = none → (lineData ((room 0).getD []) data).length +
    ((room 0).getD []).length ≤ cfg.maxFileBytes

theorem makeRoom_room (hlaid : Laid cfg files) (hsound : SoundIo cfg io data files)
    (hdata : data.length + 1 ≤ maxRecordBytes) (h : makeRoom cfg io data files = (files', fault)) :
    Room cfg io data files files' fault := by
  have hline : ∀ c, (lineData c data).length ≤ data.length + 1 := by
    intro c
    unfold lineData
    split
    · exact le_of_eq rfl
    · omega
  rcases makeRoom_cases h with ⟨rfl, hroom⟩ | ⟨hremoves, j, hj, rfl, hdone, hfailed⟩
  · refine ⟨hlaid, fun i c hc => ⟨i, hc⟩, fun i c hc => Or.inl ⟨i, hc⟩, fun hfault => ?_⟩
    have hfits := hroom hfault
    unfold needsRotation at hfits
    rw [decide_eq_false_iff_not, not_lt] at hfits
    have := hline ((files' 0).getD [])
    omega
  · have hgap : j ≠ 0 → j < cfg.maxFiles - 1 → files j = none := by
      intro hne hlt
      obtain ⟨i, rfl, hi⟩ := hfailed hne
      exact hsound.rotation hremoves.needed i (by omega) hi
    refine ⟨hlaid.moved (active_of_needsRotation hdata hremoves.needed) hj hgap,
      fun i c hc => ?_, fun i c hc => ?_, fun hfault => ?_⟩
    · obtain ⟨k, hk, -⟩ := moved_mem hc
      exact ⟨k, hk⟩
    · by_cases hi : i = cfg.maxFiles - 1
      · exact Or.inr ⟨hremoves, hi⟩
      · exact Or.inl (moved_kept hj hi hc)
    · obtain rfl := hdone hfault
      have hempty : (files.put (cfg.maxFiles - 1) none).moved 0 (cfg.maxFiles - 1) 0 = none := by
        unfold Segments.moved
        rw [if_neg (by omega), if_pos rfl]
      have := hline []
      have := cfg.bytes_ok
      rw [hempty, Option.getD_none, List.length_nil]
      omega

/-- What an append does to the active file: nothing, or it adds what it wrote. -/
theorem appendFsync_cases (h : appendFsync io data files = (files', fault)) :
    (files' = files ∧ fault ≠ none) ∨
      ∃ taken, files' = files.put 0 (some ((files 0).getD [] ++ taken)) ∧
        taken <+: lineData ((files 0).getD []) data ∧
        (fault = none → taken = lineData ((files 0).getD []) data) ∧
        (fault ≠ none → taken = [] ∨ (io.fails .openFile = none ∧ io.fails .prepare = none ∧
          ∃ stopped, writeLoop io.writes (lineData ((files 0).getD []) data) = (taken, stopped) ∧
            (stopped = none → io.fails .fsync ≠ none ∨ io.fails .closeFile ≠ none ∨
              files 0 = none ∧ io.fails .createdSync ≠ none) ∧
            (stopped ≠ none → io.truncate ≠ none))) := by
  unfold appendFsync at h
  dsimp only at h
  have hopened : files.put 0 (some ((files 0).getD [])) =
      files.put 0 (some ((files 0).getD [] ++ [])) := by rw [List.append_nil]
  split at h
  · obtain ⟨rfl, rfl⟩ := Prod.mk.inj h
    exact Or.inl ⟨rfl, Option.some_ne_none _⟩
  · rename_i hopen
    right
    split at h
    · obtain ⟨rfl, rfl⟩ := Prod.mk.inj h
      exact ⟨[], hopened, List.nil_prefix, fun h => (by cases h), fun _ => Or.inl rfl⟩
    · rename_i hprepare
      have hwrites := writeLoop_prefix io.writes (lineData ((files 0).getD []) data)
      split at h
      · rename_i taken failed hloop
        have hloop : writeLoop io.writes (lineData ((files 0).getD []) data) =
          (taken, some failed) := hloop
        rw [hloop] at hwrites
        split at h
        · obtain ⟨rfl, rfl⟩ := Prod.mk.inj h
          exact ⟨[], hopened, List.nil_prefix, fun h => (by cases h), fun _ => Or.inl rfl⟩
        · rename_i stuck htruncate
          obtain ⟨rfl, rfl⟩ := Prod.mk.inj h
          refine ⟨taken, rfl, hwrites.1, fun h => (by cases h), fun _ => Or.inr
            ⟨hopen, hprepare, some failed, hloop, fun h => (by cases h), fun _ => ?_⟩⟩
          rw [htruncate]
          exact Option.some_ne_none _
      · rename_i taken hloop
        have hloop : writeLoop io.writes (lineData ((files 0).getD []) data) = (taken, none) := hloop
        rw [hloop] at hwrites
        obtain ⟨rfl, rfl⟩ := Prod.mk.inj h
        refine ⟨taken, rfl, hwrites.1, fun _ => hwrites.2 rfl, fun hfault => Or.inr
          ⟨hopen, hprepare, none, hloop, fun _ => ?_, fun h => absurd rfl h⟩⟩
        cases hfsync : io.fails .fsync with
        | some e => exact Or.inl (Option.some_ne_none _)
        | none =>
          cases hclose : io.fails .closeFile with
          | some e => exact Or.inr (Or.inl (Option.some_ne_none _))
          | none =>
            rw [hfsync, hclose, Option.none_or, Option.none_or] at hfault
            split at hfault
            · rename_i hcreated
              exact Or.inr (Or.inr ⟨by simpa using hcreated, hfault⟩)
            · exact absurd rfl hfault

/-- Behind a sound append that failed, no whole record was added. -/
theorem appendFsync_torn (hline : IsLine data body) {room : Segments}
    (hroom : makeRoom cfg io data files = (room, none)) (hsound : SoundIo cfg io data files)
    (h : appendFsync io data room = (files', fault)) (hfault : fault ≠ none) :
    files' = room ∨ ∃ taken, files' = room.put 0 (some ((room 0).getD [] ++ taken)) ∧
      taken <+: lineData ((room 0).getD []) data ∧
      taken.length + 1 < (lineData ((room 0).getD []) data).length := by
  rcases appendFsync_cases h with ⟨hsame, -⟩ | ⟨taken, hfiles, hstart, -, htaken⟩
  · exact Or.inl hsame
  · refine Or.inr ⟨taken, hfiles, hstart, ?_⟩
    rcases htaken hfault with rfl | ⟨hopen, hprepare, stopped, hloop, hdone, hstuck⟩
    · obtain ⟨rfl, -, hne⟩ := hline
      have := List.length_pos_iff.mpr hne
      unfold lineData
      split <;> simp only [List.length_cons, List.length_append, List.length_nil] <;> omega
    · cases stopped with
      | none =>
        obtain ⟨hfsync, hclose, hcreated⟩ := hsound.durable room hroom hopen hprepare taken hloop
        rcases hdone rfl with h | h | ⟨hnew, h⟩
        · exact absurd hfsync h
        · exact absurd hclose h
        · exact absurd (hcreated hnew) h
      | some failed =>
        exact (hsound.truncated room hroom hopen hprepare taken failed hloop).resolve_left
          (hstuck (Option.some_ne_none _))

/-! ## 4. One append -/

/-- What one append of an encoded record does. -/
structure Appended (cfg : Retention) (io : AppendIo) (data body : Text) (sink sink' : Sink)
    (result : AppendResult) : Prop where
  laid : Laid cfg sink'.files
  /-- Acknowledged: the record is on a line of its own. -/
  written : result.written = true → OnLine data sink'.files
  /-- Refused: its line is not there, unless it was before. -/
  refused : result.written = false → HasLine body sink'.files → HasLine body sink.files
  /-- What was acknowledged stays, but for the oldest of all segments. -/
  kept : ∀ line, OnLine line sink.files → OnLine line sink'.files ∨
    RemovesOldest cfg io data sink.files ∧ (∀ i < cfg.maxFiles, (sink.files i).isSome) ∧
      ∃ c, sink.files (cfg.maxFiles - 1) = some c ∧ OwnLine line c

/-- Where the active file and the oldest are, all are. -/
theorem Laid.full (h : Laid cfg files) (hactive : (files 0).isSome)
    (holdest : (files (cfg.maxFiles - 1)).isSome) : ∀ i < cfg.maxFiles, (files i).isSome := by
  have hdown : ∀ d i, 1 ≤ i → i + d = cfg.maxFiles - 1 → (files i).isSome := by
    intro d
    induction d with
    | zero =>
      rintro i - rfl
      exact holdest
    | succ d ih => exact fun i hi hd => h.gapless i hi (ih (i + 1) (by omega) (by omega))
  intro i hi
  cases i with
  | zero => exact hactive
  | succ i => exact hdown (cfg.maxFiles - 1 - (i + 1)) (i + 1) (by omega) (by omega)

theorem onLine_put {line : Text} {room : Segments} {taken : Text} (h : OnLine line room) :
    OnLine line (room.put 0 (some ((room 0).getD [] ++ taken))) := by
  obtain ⟨i, c, hc, hown⟩ := h
  unfold OnLine Segments.put
  by_cases hi : i = 0
  · subst hi
    refine ⟨0, _, by rw [if_pos rfl], hown.prefix ?_⟩
    rw [hc, Option.getD_some]
    exact List.prefix_append _ _
  · exact ⟨i, c, by rw [if_neg hi, hc], hown⟩

theorem laid_put {room : Segments} {content : Text} (h : Laid cfg room)
    (hfits : content.length ≤ cfg.maxFileBytes) : Laid cfg (room.put 0 (some content)) := by
  refine ⟨fun i c hc => ?_, fun i hi hsome => ?_⟩
  · unfold Segments.put at hc
    split at hc
    · rename_i hzero
      obtain rfl := Option.some.inj hc
      exact ⟨by have := cfg.files_ok; omega, hfits⟩
    · exact h.bounded i c hc
  · unfold Segments.put at hsome ⊢
    rw [if_neg (by omega)] at hsome ⊢
    exact h.gapless i hi hsome

/-- **One append of a sound file system.** -/
theorem Sink.appendData_appended (hline : IsLine data body) (hlaid : Laid cfg sink.files)
    (hsound : maxRecordBytes < data.length + 1 ∨ SoundIo cfg io data sink.files) :
    Appended cfg io data body sink (sink.appendData cfg data io).1
      (sink.appendData cfg data io).2 := by
  unfold Sink.appendData
  split
  · exact ⟨hlaid, fun h => (by cases h), fun _ h => h, fun line h => Or.inl h⟩
  · rename_i hsize
    have hsound := hsound.resolve_left hsize
    cases hroom : makeRoom cfg io data sink.files with
    | mk room fault =>
      have hmade := makeRoom_room hlaid hsound (by omega) hroom
      have hback : HasLine body room → HasLine body sink.files := by
        rintro ⟨i, c, hc, hin⟩
        obtain ⟨k, hk⟩ := hmade.mem i c hc
        exact ⟨k, c, hk, hin⟩
      have hkept : ∀ line, OnLine line sink.files → OnLine line room ∨
          RemovesOldest cfg io data sink.files ∧ (∀ i < cfg.maxFiles, (sink.files i).isSome) ∧
            ∃ c, sink.files (cfg.maxFiles - 1) = some c ∧ OwnLine line c := by
        rintro line ⟨i, c, hc, hown⟩
        rcases hmade.kept i c hc with ⟨k, hk⟩ | ⟨hremoves, rfl⟩
        · exact Or.inl ⟨k, c, hk, hown⟩
        · have hactive := active_of_needsRotation (by omega) hremoves.needed
          exact Or.inr ⟨hremoves, hlaid.full hactive (by rw [hc]; rfl), c, hc, hown⟩
      cases fault with
      | some failed =>
        exact ⟨hmade.laid, fun h => (by cases h), fun _ h => hback h, hkept⟩
      | none =>
        have hfits := hmade.fits rfl
        dsimp only
        cases happend : appendFsync io data room with
        | mk files fault =>
          cases fault with
          | some failed =>
            dsimp only
            rcases appendFsync_torn hline hroom hsound happend (Option.some_ne_none _) with
              rfl | ⟨taken, rfl, hstart, hshort⟩
            · exact ⟨hmade.laid, fun h => (by cases h), fun _ h => hback h, hkept⟩
            · refine ⟨laid_put hmade.laid ?_, fun h => (by cases h), fun _ h => hback ?_,
                fun line hline => (hkept line hline).imp_left onLine_put⟩
              · rw [List.length_append]
                omega
              · obtain ⟨i, c, hc, hin⟩ := h
                dsimp only [Sink.drop] at hc
                unfold Segments.put at hc
                split at hc
                · obtain rfl := Option.some.inj hc
                  have hin := LineIn.of_torn hline hstart hshort hin
                  cases hactive : room 0 with
                  | some content =>
                    rw [hactive, Option.getD_some] at hin
                    exact ⟨0, content, hactive, hin⟩
                  | none =>
                    rw [hactive, Option.getD_none] at hin
                    obtain ⟨pre, post, heq, -, -⟩ := hin
                    have hnil := (List.append_eq_nil_iff.mp heq.symm).1
                    exact absurd (List.append_eq_nil_iff.mp hnil).2 hline.ne
                · exact ⟨i, c, hc, hin⟩
          | none =>
            dsimp only
            rcases appendFsync_cases happend with ⟨-, h⟩ | ⟨taken, rfl, -, htaken, -⟩
            · exact absurd rfl h
            · obtain rfl := htaken rfl
              refine ⟨laid_put hmade.laid ?_, fun _ => ?_, fun h => (by cases h),
                fun line hline => (hkept line hline).imp_left onLine_put⟩
              · rw [List.length_append]
                omega
              · refine ⟨0, _, ?_, ownLine_written ((room 0).getD []) data⟩
                rfl

/-! ## 5. Runs -/

section Runs

variable {F : Type} [PyFloat F]

inductive Op (F : Type) where
  | append (record : AuditRecord F) (io : AppendIo)
  | resetDegraded
  | recordCycle (projection : Option (AuditRecord F)) (io : AppendIo)

inductive Answer where
  | appended (result : AppendResult)
  | reset
  | cycled (publish : Bool)

/-- One call on the sink. -/
def Sink.exec (cfg : Retention) (sink : Sink) : Op F → Sink × Answer
  | .append record io => (sink.append cfg record io).map id .appended
  | .resetDegraded => (sink.resetDegraded, .reset)
  | .recordCycle projection io => (sink.recordCycle cfg projection io).map id .cycled

/-- The step relation of the sink: a call, with the answer it gave. -/
def Sink.Step (cfg : Retention) (sink : Sink) (label : Op F × Answer) (sink' : Sink) : Prop :=
  sink.exec cfg label.1 = (sink', label.2)

/-- The record that a call appends, encoded. -/
def Op.encoded : Op F → Option (Text × AppendIo)
  | .append (.mapping items) io => (encodeRecord items).map (·, io)
  | .recordCycle (some (.mapping items)) io => (encodeRecord items).map (·, io)
  | _ => none

/-- The call appends this record, and the append returns that it is written, or that it is not. -/
def Sink.Returns (cfg : Retention) (sink : Sink) (op : Op F) (data : Text) (written : Bool) : Prop :=
  ∃ io, op.encoded = some (data, io) ∧ (sink.appendData cfg data io).2.written = written

/-- The sink as it is constructed, over segments that a sink left. -/
structure Sink.Started (cfg : Retention) (sink : Sink) : Prop where
  laid : Laid cfg sink.files
  dropped : sink.dropped = 0
  written : sink.written = 0
  sound : sink.degradedReason = ""

/-- The call bears what the file system does to it. -/
def SoundCall (cfg : Retention) (sink : Sink) (op : Op F) : Prop :=
  ∀ data io, op.encoded = some (data, io) →
    maxRecordBytes < data.length + 1 ∨ SoundIo cfg io data sink.files

/-- Every call of the run does, where it is made. -/
def SoundRun (cfg : Retention) (start : Sink) (ls : List (Op F × Answer)) : Prop :=
  ∀ past l rest sink, ls = past ++ l :: rest → Run (Sink.Step cfg) start past sink →
    SoundCall cfg sink l.1

variable {l : Op F × Answer} {ls past mid rest : List (Op F × Answer)} {start : Sink}

/-- An encoded record is one line. -/
theorem encodeRecord_line {items : List (PyKey F × PyValue F)} (h : encodeRecord items = some data) :
    ∃ body, IsLine data body := by
  unfold encodeRecord at h
  split at h
  · obtain rfl := Option.some.inj h
    refine ⟨text (written true (.dict items)), rfl, ?_, ?_⟩
    · exact (printable_text _).no_newline
    · obtain ⟨members, hmembers⟩ : ∃ members, written true (.dict items) = PyJson.obj (F := F) members :=
        ⟨_, rfl⟩
      rw [hmembers]
      cases members <;> simp [text]
  · cases h

theorem Op.encoded_line {op : Op F} (h : op.encoded = some (data, io)) : ∃ body, IsLine data body := by
  have hmap : ∀ items : List (PyKey F × PyValue F), ∀ io' : AppendIo,
      (encodeRecord items).map (·, io') = some (data, io) → ∃ body, IsLine data body := by
    intro items io' h
    obtain ⟨data', hencode, heq⟩ := Option.map_eq_some_iff.mp h
    obtain ⟨rfl, -⟩ := Prod.mk.inj heq
    exact encodeRecord_line hencode
  unfold Op.encoded at h
  split at h
  · exact hmap _ _ h
  · exact hmap _ _ h
  · cases h

/-- A call without a record leaves the files. -/
theorem Sink.step_files (h : Sink.Step cfg sink l sink') (hnone : l.1.encoded = none) :
    sink'.files = sink.files := by
  obtain ⟨op, answer⟩ := l
  obtain ⟨rfl, -⟩ := Prod.mk.inj h
  have happend : ∀ (record : AuditRecord F) (io : AppendIo),
      (Op.append record io).encoded = none → (sink.append cfg record io).1.files = sink.files := by
    intro record io hnone
    cases record with
    | nonMapping => rfl
    | unencodable => rfl
    | mapping items =>
      unfold Sink.append
      dsimp only
      cases hdata : encodeRecord items with
      | none => rfl
      | some data =>
        simp [Op.encoded, hdata] at hnone
  cases op with
  | append record io => exact happend record io hnone
  | resetDegraded => rfl
  | recordCycle projection io =>
    cases projection with
    | none => rfl
    | some record =>
      refine happend record io ?_
      cases record <;> exact hnone

/-- A call with a record is an append of it. -/
theorem Sink.step_data (h : Sink.Step cfg sink l sink') (hdata : l.1.encoded = some (data, io)) :
    sink'.files = (sink.appendData cfg data io).1.files := by
  obtain ⟨op, answer⟩ := l
  obtain ⟨rfl, -⟩ := Prod.mk.inj h
  have happend : ∀ (record : AuditRecord F) (io' : AppendIo),
      (Op.append record io').encoded = some (data, io) →
      (sink.append cfg record io').1 = (sink.appendData cfg data io).1 := by
    intro record io' hdata
    cases record with
    | mapping items =>
      obtain ⟨data', hencode, heq⟩ := Option.map_eq_some_iff.mp hdata
      obtain ⟨rfl, rfl⟩ := Prod.mk.inj heq
      simp only [Sink.append, hencode]
    | _ => cases hdata
  cases op with
  | append record io' => exact congrArg Sink.files (happend record io' hdata)
  | resetDegraded => cases hdata
  | recordCycle projection io' =>
    cases projection with
    | none => cases hdata
    | some record =>
      refine congrArg Sink.files (happend record io' ?_)
      cases record <;> exact hdata

/-- An append is counted once: as written, or as dropped, and then the sink is degraded. -/
structure Counted (sink sink' : Sink) (ok : Bool) : Prop where
  written : sink'.written = sink.written + ok.toNat
  dropped : sink'.dropped = sink.dropped + (!ok).toNat
  degraded : if ok then sink'.degradedReason = sink.degradedReason else sink'.degradedReason ≠ ""

/-- A sound call of a sink whose segments are laid out. -/
theorem Laid.step (h : Laid cfg sink.files) (hstep : Sink.Step cfg sink l sink')
    (hsound : SoundCall cfg sink l.1) : Laid cfg sink'.files := by
  cases hdata : l.1.encoded with
  | none =>
    rw [Sink.step_files hstep hdata]
    exact h
  | some call =>
    obtain ⟨data, io⟩ := call
    obtain ⟨body, hline⟩ := Op.encoded_line hdata
    rw [Sink.step_data hstep hdata]
    exact (Sink.appendData_appended hline h (hsound data io hdata)).laid

theorem SoundRun.init (h : SoundRun cfg start (past ++ rest)) : SoundRun cfg start past := by
  rintro before l after sink rfl hrun
  exact h before l (after ++ rest) sink (by simp) hrun

end Runs

/-! ## 7. Samples -/

/-- Three segments of one record's size. -/
def sampleRetention : Retention := ⟨4096, 3, le_refl _, by decide⟩

/-- A new sink. -/
def sampleSink (files : Segments) : Sink := ⟨files, 0, 0, "", []⟩

/-- The rename of the active file fails, once. -/
def sampleRename : AppendIo := { AppendIo.fine with fault := some (.rename 0, .os .other) }

/-- **A rotation that failed takes one more segment with it.**  With three segments, the line `A` of
`.1` is moved to `.2` before the rename of the active file fails; the next append then removes it,
although there are two segments. -/
theorem rotation_removes_again :
    let full := sampleSink fun i =>
      [List.replicate 4096 10, ascii "A" ++ [10], ascii "B" ++ [10]][i]?
    let failed := full.append sampleRetention (.mapping [] : AuditRecord NaN) sampleRename
    let after := failed.1.append sampleRetention (.mapping [] : AuditRecord NaN) .fine
    full.files 1 = some (ascii "A" ++ [10]) ∧ failed.2.written = false ∧
      failed.1.files 1 = none ∧ failed.1.files 2 = some (ascii "A" ++ [10]) ∧
      after.2.written = true ∧
      ∀ i < 3, ((after.1.files i).getD []).contains 65 = false := by
  refine ⟨rfl, by decide +kernel, by decide +kernel, by decide +kernel, by decide +kernel, ?_⟩
  decide +kernel

end AzazelEdge.TraceAudit
