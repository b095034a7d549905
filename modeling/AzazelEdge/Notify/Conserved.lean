/-
# What becomes of a queued notification

An entry whose `send` returned ok is in the queue file, or a delegate took it, or the cap of a later
`send` let it go among the oldest (`conserved`).  The books are kept by the entries' keys, with their
multiplicity, since the removal at the end of a flush goes by them too.

One `send` is left out: with a negative cap `-n`, `existing[-cap:]` drops the first `n` entries, and
where the file has fewer than `n` that takes the new entry along.  `send` returns ok all the same
(`negative_cap_loses`).
-/
import AzazelEdge.Notify.OfflineQueue
import AzazelEdge.Lib.PyWhole
import AzazelEdge.Lib.Run

namespace AzazelEdge.Notify

open AzazelEdge.Lib AzazelEdge.Lib.Py AzazelEdge.Audit

variable {F : Type} [PyFloat F] {file : Option Text} {entries existing : List (PyJson F)}

/-! ## 1. What is written is read -/

theorem printable_lines (entries : List (PyJson F)) :
    ∀ line ∈ entries.map text, Printable line := by
  intro line hline
  obtain ⟨entry, -, rfl⟩ := List.mem_map.mp hline
  exact printable_text entry

theorem entryLines_ascii (entries : List (PyJson F)) : ∀ c ∈ entryLines entries, c < 0x80 := by
  intro c hc
  obtain ⟨entry, -, hc⟩ := List.mem_flatMap.mp hc
  rcases List.mem_append.mp hc with hc | hc
  · have := printable_text entry c hc
    omega
  · rw [List.mem_singleton.mp hc]
    decide

/-- **Every entry that was written is read, settled, in its place.** -/
theorem parseEntries_entryLines (entries : List (PyJson F)) :
    parseEntries (entryLines entries) = some (entries.map settled) := by
  have hlines : entryLines entries = (entries.map text).flatMap (· ++ [10]) := by
    rw [entryLines, List.flatMap_map]
  rw [parseEntries, decodeUtf8_ascii false (entryLines_ascii entries), Option.map_some, hlines,
    splitLines_join (printable_lines entries), List.filterMap_map, ← List.filterMap_eq_map]
  exact congrArg some (congrArg (List.filterMap · entries) (funext loads_text))

/-- What was read is settled. -/
theorem settled_of_read (h : readEntries file = some entries) :
    ∀ entry ∈ entries, settled entry = entry := by
  intro entry hentry
  cases file with
  | none =>
    cases h
    cases hentry
  | some bytes =>
    obtain ⟨t, ht, rfl⟩ := Option.map_eq_some_iff.mp h
    obtain ⟨line, hline, hload⟩ := List.mem_filterMap.mp hentry
    exact settled_of_line ht hline hload

omit [PyFloat F] in
theorem map_settled (h : ∀ entry ∈ entries, settled entry = entry) :
    entries.map settled = entries := by
  conv_rhs => rw [← List.map_id entries]
  exact List.map_congr_left h

/-! ## 2. The cap -/

/-- The cap takes some of the first entries away. -/
theorem capped_eq {α : Type} (max : ℤ) (entries : List α) (entry : α) :
    ∃ n, capped max (entries ++ [entry]) = (entries ++ [entry]).drop n ∧
      (n ≤ entries.length ↔ 0 ≤ max ∨ -max ≤ entries.length) := by
  have hlen : (entries ++ [entry]).length = entries.length + 1 := by simp
  unfold capped sliceFrom
  rw [hlen]
  by_cases hover : ((entries.length + 1 : ℕ) : ℤ) > max
  · rw [if_pos hover]
    refine ⟨_, rfl, ?_⟩
    split <;> omega
  · rw [if_neg hover]
    refine ⟨0, rfl, ?_⟩
    omega

/-! ## 3. The removal -/

theorem removeFirst_keys (remaining : List (PyJson F)) (k : Text) :
    (removeFirst remaining k).map key = (remaining.map key).erase k := by
  unfold removeFirst
  induction remaining with
  | nil => rfl
  | cons entry remaining ih =>
    rw [List.map_cons, List.eraseP_cons, List.erase_cons]
    by_cases h : key entry = k
    · simp [h]
    · simp [h, ih]

theorem removeAll_keys (delivered : List Text) (remaining : List (PyJson F)) :
    (delivered.foldl removeFirst remaining).map key =
      delivered.foldl List.erase (remaining.map key) := by
  induction delivered generalizing remaining with
  | nil => rfl
  | cons k delivered ih => rw [List.foldl_cons, List.foldl_cons, ih, removeFirst_keys]

/-- Some keys are taken out of a list, each at most as often as it is given. -/
structure Removal (before after delivered : List Text) : Prop where
  sublist : after.Sublist before
  count : ∀ k, before.count k ≤ after.count k + delivered.count k

theorem Removal.refl (before delivered : List Text) : Removal before before delivered :=
  ⟨List.Sublist.refl _, fun _ => Nat.le_add_right _ _⟩

theorem removal_erase (delivered before : List Text) :
    Removal before (delivered.foldl List.erase before) delivered := by
  induction delivered generalizing before with
  | nil => exact .refl before []
  | cons d delivered ih =>
    obtain ⟨hsub, hcount⟩ := ih (before.erase d)
    refine ⟨hsub.trans List.erase_sublist, fun k => ?_⟩
    have hrest := hcount k
    rw [List.count_erase] at hrest
    rw [List.foldl_cons, List.count_cons]
    omega

/-! ## 4. Watching a run -/

variable (F) in
/-- The keys of the entries in the file. -/
def queued (file : Option Text) : List Text :=
  ((readEntries file : Option (List (PyJson F))).getD []).map key

/-- A `send` that replaced the file: the keys in the file before and after it, the key of its own
entry, and whether it returned ok. -/
structure Sending where
  before : List Text
  after : List Text
  entry : Text
  ok : Bool

/-- What the cap of this `send` let go: as many of the oldest as are missing. -/
def Sending.evicted (s : Sending) : List Text :=
  s.before.take (s.before.length + 1 - s.after.length)

/-- The end of a flush: the keys in the file before and after it, and the keys of the entries that
this flush had delivered. -/
structure Ending where
  before : List Text
  after : List Text
  delivered : List Text

/-- A queue, with every `send` that replaced the file, the keys of the entries for which a delegate
returned ok, and every flush that ended. -/
structure Watch (F : Type) where
  queue : Queue F
  sends : List Sending
  handed : List Text
  endings : List Ending

/-- The keys of the entries whose `send` returned ok. -/
def Watch.sent (w : Watch F) : List Text := (w.sends.filter Sending.ok).map Sending.entry

def Watch.evicted (w : Watch F) : List Text := w.sends.flatMap Sending.evicted

section Steps

variable (reprOf : PyValue F → PyStr)

/-- The `send` of a step, if it replaced the file. -/
def Watch.sending (w : Watch F) : Event F → Option Sending
  | .send max payload stamp outcome =>
    if outcome = .failed then none
    else (readEntries w.queue.file : Option (List (PyJson F))).map fun _ =>
      let summary := summaryPayload reprOf payload stamp
      { before := queued F w.queue.file
        after := queued F (send max summary outcome w.queue.file).1
        entry := key (settled summary)
        ok := (send max summary outcome w.queue.file).2.isSome }
  | _ => none

/-- The key of the entry that a delegate takes in a step. -/
def Watch.handing (w : Watch F) : Event F → Option Text
  | .deliver i true => (w.queue.flushes[i]?.bind fun flush => flush.entries.head?).map key
  | _ => none

/-- The flush that ends in a step. -/
def Watch.ending (w : Watch F) (e : Event F) : Option Ending :=
  match e with
  | .endFlush i _ =>
    (w.queue.flushes[i]?.filter fun flush => flush.entries.isEmpty).map fun flush =>
      ⟨queued F w.queue.file, queued F (step reprOf w.queue e).file, flush.delivered⟩
  | _ => none

def Watch.step (w : Watch F) (e : Event F) : Watch F :=
  { queue := Notify.step reprOf w.queue e
    sends := w.sends ++ (w.sending reprOf e).toList
    handed := w.handed ++ (w.handing e).toList
    endings := w.endings ++ (w.ending reprOf e).toList }

/-- A queue file that nobody has used yet. -/
def Watch.start (file : Option Text) : Watch F := ⟨⟨file, []⟩, [], [], []⟩

/-- A step of the watched queue. -/
def stepping (w : Watch F) (e : Event F) (w' : Watch F) : Prop := w' = w.step reprOf e

/-- A `send` that returns ok has a cap that is not negative, or the file has as many entries as such
a cap takes away. -/
def CapSpares (w : Watch F) : Event F → Prop
  | .send max _ _ .done => ∀ existing : List (PyJson F), readEntries w.queue.file = some existing →
      0 ≤ max ∨ -max ≤ existing.length
  | _ => True

/-- A step that meets this condition. -/
def sparing (w : Watch F) (e : Event F) (w' : Watch F) : Prop :=
  CapSpares w e ∧ stepping reprOf w e w'

end Steps

/-- The keys that the flushes under way have delivered. -/
def Watch.delivered (w : Watch F) : List Text := w.queue.flushes.flatMap Flush.delivered

/-- **Nothing that was sent is lost**: with the keys in the file at the start, every entry is kept,
was handed over, or was evicted among the oldest of a file; and a flush removed only what it had
delivered, one copy for each delivery. -/
structure Conserved (initial : List Text) (w : Watch F) : Prop where
  kept : ∀ k, initial.count k + w.sent.count k ≤
    (queued F w.queue.file).count k + w.handed.count k + w.evicted.count k
  accounted : ∀ k ∈ w.sent, k ∈ queued F w.queue.file ∨ k ∈ w.handed ∨ k ∈ w.evicted
  oldest : ∀ s ∈ w.sends, ∃ n, s.after = (s.before ++ [s.entry]).drop n ∧
    s.evicted = s.before.take n
  removals : ∀ e ∈ w.endings, Removal e.before e.after e.delivered
  deliveries : ∀ k, (w.endings.flatMap Ending.delivered).count k ≤ w.handed.count k

/-- What is kept from step to step: the deliveries of the flushes under way are still to be
removed. -/
structure Books (initial : List Text) (w : Watch F) : Prop where
  kept : ∀ k, initial.count k + w.sent.count k + w.delivered.count k ≤
    (queued F w.queue.file).count k + w.handed.count k + w.evicted.count k
  oldest : ∀ s ∈ w.sends, ∃ n, s.after = (s.before ++ [s.entry]).drop n ∧
    s.evicted = s.before.take n
  removals : ∀ e ∈ w.endings, Removal e.before e.after e.delivered
  deliveries : ∀ k, (w.endings.flatMap Ending.delivered).count k + w.delivered.count k ≤
    w.handed.count k

theorem Books.accounts {initial : List Text} {w : Watch F} (h : Books initial w) :
    Conserved initial w where
  kept k := by
    have := h.kept k
    omega
  accounted k hk := by
    have hbooks := h.kept k
    have hpos := List.count_pos_iff.mpr hk
    by_cases hqueued : k ∈ queued F w.queue.file
    · exact .inl hqueued
    by_cases hhanded : k ∈ w.handed
    · exact .inr (.inl hhanded)
    have hzero := List.count_eq_zero_of_not_mem hqueued
    have hzero' := List.count_eq_zero_of_not_mem hhanded
    exact .inr (.inr (List.count_pos_iff.mp (by omega)))
  oldest := h.oldest
  removals := h.removals
  deliveries k := by
    have := h.deliveries k
    omega

/-! ## 5. One step -/

section Step

variable {reprOf : PyValue F → PyStr} {initial : List Text} {w : Watch F} {q : Queue F}

theorem queued_of_read (h : readEntries file = some entries) : queued F file = entries.map key := by
  rw [queued, h]
  rfl

theorem queued_written (entries : List (PyJson F)) :
    queued F (some (entryLines entries)) = (entries.map settled).map key :=
  queued_of_read (parseEntries_entryLines entries)

/-- What a `send` that replaces the file does. -/
theorem send_replaced {max : ℤ} {summary : PyJson F} {outcome : Replacement}
    (hread : readEntries file = some existing) (hoc : outcome ≠ .failed) :
    ∃ n, queued F (send max summary outcome file).1 =
        (existing.map key ++ [key (settled summary)]).drop n ∧
      (n ≤ existing.length ↔ 0 ≤ max ∨ -max ≤ existing.length) := by
  obtain ⟨n, hcap, hn⟩ := capped_eq max existing summary
  refine ⟨n, ?_, hn⟩
  have hfile : (send max summary outcome file).1 =
      some (entryLines (capped max (existing ++ [summary]))) := by
    rw [send, hread]
    cases outcome with
    | failed => exact absurd rfl hoc
    | done => rfl
    | unsynced => rfl
  rw [hfile, queued_written, hcap, List.map_drop, List.map_append, map_settled (settled_of_read hread),
    List.map_drop, List.map_append]
  rfl

/-- **A `send` that returns ok leaves its entry last in the file just when its cap spares it.** -/
theorem own_last_iff {max : ℤ} {summary : PyJson F} (hread : readEntries file = some existing) :
    (queued F (send max summary .done file).1).getLast? = some (key (settled summary)) ↔
      0 ≤ max ∨ -max ≤ existing.length := by
  have hdone : Replacement.done ≠ .failed := nofun
  obtain ⟨n, hafter, hn⟩ := send_replaced hread hdone
  rw [hafter, ← hn]
  have hlen : (existing.map key).length = existing.length := List.length_map _
  by_cases hle : n ≤ existing.length
  · rw [List.drop_append_of_le_length (hlen ▸ hle)]
    simp [hle]
  · rw [List.drop_of_length_le (by simp; omega)]
    simp [hle]

theorem evicted_eq {before : List Text} {entry : Text} {n : ℕ} {ok : Bool} :
    (Sending.mk before ((before ++ [entry]).drop n) entry ok).evicted = before.take n := by
  have hlen : ((before ++ [entry]).drop n).length = before.length + 1 - n := by simp
  change before.take (before.length + 1 - ((before ++ [entry]).drop n).length) = before.take n
  rw [hlen]
  by_cases hn : n ≤ before.length + 1
  · congr 1
    omega
  · rw [List.take_of_length_le (by omega), List.take_of_length_le (by omega)]

/-- The count of a list that is cut and written again with one more entry. -/
theorem count_cut (before : List Text) (entry : Text) (n : ℕ) (k : Text) :
    before.count k + (if n ≤ before.length then [entry] else []).count k =
      ((before ++ [entry]).drop n).count k + (before.take n).count k := by
  by_cases hn : n ≤ before.length
  · rw [if_pos hn, List.drop_append_of_le_length hn, List.count_append]
    conv_lhs => rw [← List.take_append_drop n before, List.count_append]
    omega
  · rw [if_neg hn, List.drop_of_length_le (by simp; omega), List.take_of_length_le (by omega)]
    simp

omit [PyFloat F] in
theorem sent_snoc {s : Sending} (sends : List Sending) (q : Queue F) (handed : List Text)
    (endings : List Ending) : (Watch.mk q (sends ++ [s]) handed endings).sent =
      (Watch.mk q sends handed endings).sent ++ if s.ok then [s.entry] else [] := by
  simp only [Watch.sent, List.filter_append, List.map_append]
  cases hok : s.ok <;> simp [hok]

/-- A step that leaves the file alone, and that logs nothing. -/
theorem step_quiet {e : Event F} (hqueue : Notify.step reprOf w.queue e = w.queue)
    (hsending : w.sending reprOf e = none) (hhanding : w.handing e = none)
    (hending : w.ending reprOf e = none) : w.step reprOf e = w := by
  obtain ⟨q, sends, handed, endings⟩ := w
  simp only [Watch.step, hqueue, hsending, hhanding, hending, Option.toList_none, List.append_nil]

/-- The books after a `send` that replaced the file.  An entry is reported as sent only where the cap
spares it. -/
theorem books_replaced {sends : List Sending} {handed : List Text} {endings : List Ending}
    {flushes : List (Flush F)} {file' : Option Text} {entry : Text} {n : ℕ} {ok : Bool}
    (h : Books initial ⟨⟨file, flushes⟩, sends, handed, endings⟩)
    (hafter : queued F file' = (queued F file ++ [entry]).drop n)
    (hok : ok = true → n ≤ (queued F file).length) :
    Books initial ⟨⟨file', flushes⟩,
      sends ++ [⟨queued F file, queued F file', entry, ok⟩], handed, endings⟩ := by
  rw [hafter]
  refine ⟨fun k => ?_, fun s hs => ?_, h.removals, h.deliveries⟩
  · have hkept := h.kept k
    have hcut := count_cut (queued F file) entry n k
    have hsent : (if ok then [entry] else []).count k ≤
        (if n ≤ (queued F file).length then [entry] else []).count k := by
      cases ok with
      | false => simp
      | true => rw [if_pos (hok rfl), if_pos rfl]
    rw [sent_snoc, List.count_append]
    simp only [Watch.evicted, List.flatMap_append, List.flatMap_cons, List.flatMap_nil,
      List.append_nil, evicted_eq, hafter, List.count_append, Watch.delivered] at hkept ⊢
    simp only [Watch.sent] at hkept ⊢
    omega
  · rcases List.mem_append.mp hs with hs | hs
    · exact h.oldest s hs
    · rw [List.mem_singleton.mp hs]
      exact ⟨n, rfl, evicted_eq⟩

theorem books_send {max : ℤ} {payload : List (PyStr × PyValue F)} {stamp : Stamp}
    {outcome : Replacement} (h : Books initial w)
    (hcap : CapSpares w (.send max payload stamp outcome)) :
    Books initial (w.step reprOf (.send max payload stamp outcome)) := by
  obtain ⟨⟨file, flushes⟩, sends, handed, endings⟩ := w
  by_cases hoc : outcome = .failed
  · rw [step_quiet _ (by simp [Watch.sending, hoc]) rfl rfl]
    · exact h
    · subst hoc
      simp only [Notify.step, send]
      split <;> rfl
  cases hread : (readEntries file : Option (List (PyJson F))) with
  | none =>
    rw [step_quiet _ (by simp [Watch.sending, hread]) rfl rfl]
    · exact h
    · simp only [Notify.step, send, hread]
  | some existing =>
    obtain ⟨n, hafter, hn⟩ := send_replaced hread hoc
    have hbefore : queued F file = existing.map key := queued_of_read hread
    rw [← hbefore] at hafter
    have hstep : Watch.step reprOf ⟨⟨file, flushes⟩, sends, handed, endings⟩
        (.send max payload stamp outcome) =
        ⟨⟨(send max (summaryPayload reprOf payload stamp) outcome file).1, flushes⟩,
          sends ++ [⟨queued F file,
            queued F (send max (summaryPayload reprOf payload stamp) outcome file).1,
            key (settled (summaryPayload reprOf payload stamp)),
            (send max (summaryPayload reprOf payload stamp) outcome file).2.isSome⟩],
          handed, endings⟩ := by
      simp only [Watch.step, Watch.sending, hread, if_neg hoc, Option.map_some, Notify.step,
        Watch.handing, Watch.ending, Option.toList_some, Option.toList_none, List.append_nil]
    rw [hstep]
    refine books_replaced h hafter fun hok => ?_
    rw [hbefore, List.length_map]
    cases outcome with
    | failed => exact absurd rfl hoc
    | unsynced => simp [send, hread] at hok
    | done => exact hn.mpr (hcap existing hread)

theorem books_begin (h : Books initial w) : Books initial (w.step reprOf .beginFlush) := by
  obtain ⟨⟨file, flushes⟩, sends, handed, endings⟩ := w
  have hdelivered : ((beginFlush file : Option (Flush F)).toList).flatMap Flush.delivered = [] := by
    unfold beginFlush
    split
    · rfl
    · cases parseEntries (F := F) _ <;> rfl
  have hstep : Watch.step reprOf ⟨⟨file, flushes⟩, sends, handed, endings⟩ .beginFlush =
      ⟨⟨file, flushes ++ (beginFlush file).toList⟩, sends, handed, endings⟩ := by
    simp only [Watch.step, Notify.step, Watch.sending, Watch.handing, Watch.ending,
      Option.toList_none, List.append_nil]
  have hopen : (Watch.mk ⟨file, flushes ++ (beginFlush file).toList⟩ sends handed
      endings).delivered = (Watch.mk ⟨file, flushes⟩ sends handed endings).delivered := by
    simp only [Watch.delivered, List.flatMap_append, hdelivered, List.append_nil]
  rw [hstep]
  exact ⟨fun k => hopen ▸ h.kept k, h.oldest, h.removals, fun k => hopen ▸ h.deliveries k⟩

omit [PyFloat F] in
/-- The flush at a place of the list. -/
theorem split_at {flushes : List (Flush F)} {i : ℕ} {flush : Flush F}
    (h : flushes[i]? = some flush) : ∃ before after, flushes = before ++ flush :: after ∧
      (∀ f, flushes.modify i f = before ++ f flush :: after) ∧
      flushes.eraseIdx i = before ++ after := by
  obtain ⟨hi, rfl⟩ := List.getElem?_eq_some_iff.mp h
  refine ⟨flushes.take i, flushes.drop (i + 1), ?_, fun f => ?_, List.eraseIdx_eq_take_drop_succ _ _⟩
  · rw [List.getElem_cons_drop, List.take_append_drop]
  · exact List.modify_eq_take_cons_drop hi

theorem deliver_delivered (flush : Flush F) (ok : Bool) : (flush.deliver ok).delivered =
    flush.delivered ++ (if ok then flush.entries.head?.map key else none).toList := by
  unfold Flush.deliver
  split
  · rename_i heq
    rw [heq]
    cases ok <;> simp
  · rename_i entry entries heq
    rw [heq]
    cases ok <;> simp

/-- The books after more was delivered and handed over. -/
theorem books_handed {handed more : List Text} {sends : List Sending} {endings : List Ending}
    {flushes flushes' : List (Flush F)} (h : Books initial ⟨⟨file, flushes⟩, sends, handed, endings⟩)
    (hcount : ∀ k, (flushes'.flatMap Flush.delivered).count k =
      (flushes.flatMap Flush.delivered).count k + more.count k) :
    Books initial ⟨⟨file, flushes'⟩, sends, handed ++ more, endings⟩ := by
  refine ⟨fun k => ?_, h.oldest, h.removals, fun k => ?_⟩
  · have hkept := h.kept k
    have := hcount k
    simp only [Watch.delivered, List.count_append] at hkept ⊢
    simp only [Watch.sent, Watch.evicted] at hkept ⊢
    omega
  · have hdeliveries := h.deliveries k
    have := hcount k
    simp only [Watch.delivered, List.count_append] at hdeliveries ⊢
    omega

theorem books_deliver {i : ℕ} {ok : Bool} (h : Books initial w) :
    Books initial (w.step reprOf (.deliver i ok)) := by
  obtain ⟨⟨file, flushes⟩, sends, handed, endings⟩ := w
  have hstep : Watch.step reprOf ⟨⟨file, flushes⟩, sends, handed, endings⟩ (.deliver i ok) =
      ⟨⟨file, flushes.modify i fun flush => flush.deliver ok⟩, sends,
        handed ++ (Watch.handing ⟨⟨file, flushes⟩, sends, handed, endings⟩ (.deliver i ok)).toList,
        endings⟩ := by
    simp only [Watch.step, Notify.step, Watch.sending, Watch.ending, Option.toList_none,
      List.append_nil]
  rw [hstep]
  refine books_handed h fun k => ?_
  cases hget : flushes[i]? with
  | none =>
    have hnone : Watch.handing ⟨⟨file, flushes⟩, sends, handed, endings⟩ (.deliver i ok) = none := by
      cases ok <;> simp [Watch.handing, hget]
    rw [List.modify_eq_self (List.getElem?_eq_none_iff.mp hget), hnone]
    rfl
  | some flush =>
    obtain ⟨before, after, rfl, hmodify, -⟩ := split_at hget
    have hhanding : Watch.handing ⟨⟨file, before ++ flush :: after⟩, sends, handed, endings⟩
        (.deliver i ok) = if ok then flush.entries.head?.map key else none := by
      cases ok <;> simp [Watch.handing, hget]
    rw [hmodify, hhanding]
    simp only [List.flatMap_append, List.flatMap_cons, deliver_delivered, List.count_append]
    omega

/-- What is left was there. -/
theorem mem_removed {delivered : List Text} {entry : PyJson F}
    (h : entry ∈ delivered.foldl removeFirst existing) : entry ∈ existing := by
  induction delivered generalizing existing with
  | nil => exact h
  | cons d delivered ih => exact List.mem_of_mem_eraseP (ih h)

/-- What the end of a flush makes of the file. -/
theorem endFlush_removal (flush : Flush F) (outcome : Replacement) (file : Option Text) :
    Removal (queued F file) (queued F (endFlush flush outcome file).1) flush.delivered := by
  cases hread : (readEntries file : Option (List (PyJson F))) with
  | none =>
    have hfile : (endFlush flush outcome file).1 = file := by simp only [endFlush, hread]
    rw [hfile]
    exact .refl _ _
  | some existing =>
    by_cases hoc : outcome = .failed
    · have hfile : (endFlush flush outcome file).1 = file := by
        simp only [endFlush, hread, hoc, Replacement.replace]
      rw [hfile]
      exact .refl _ _
    have hremaining : queued F (endFlush flush outcome file).1 =
        (flush.delivered.foldl removeFirst existing).map key := by
      have hfile : (endFlush flush outcome file).1 =
          if flush.delivered.foldl removeFirst existing = [] then none
          else some (entryLines (flush.delivered.foldl removeFirst existing)) := by
        simp only [endFlush, hread]
        cases outcome with
        | failed => exact absurd rfl hoc
        | done => rfl
        | unsynced => rfl
      rw [hfile]
      split
      · rename_i hnil
        rw [hnil]
        rfl
      · rw [queued_written, map_settled fun entry hentry =>
          settled_of_read hread entry (mem_removed hentry)]
    rw [hremaining, removeAll_keys, queued_of_read hread]
    exact removal_erase _ _

theorem books_end {i : ℕ} {outcome : Replacement} (h : Books initial w) :
    Books initial (w.step reprOf (.endFlush i outcome)) := by
  obtain ⟨⟨file, flushes⟩, sends, handed, endings⟩ := w
  cases hget : flushes[i]? with
  | none =>
    rw [step_quiet (by simp only [Notify.step, hget]) rfl rfl (by simp [Watch.ending, hget])]
    exact h
  | some flush =>
    by_cases hover : flush.entries = []
    swap
    · rw [step_quiet (by simp only [Notify.step, hget, if_neg hover]) rfl rfl
        (by simp [Watch.ending, hget, hover])]
      exact h
    obtain ⟨before, after, rfl, -, herase⟩ := split_at hget
    have hqueue : Notify.step reprOf ⟨file, before ++ flush :: after⟩ (.endFlush i outcome) =
        ⟨(endFlush flush outcome file).1, before ++ after⟩ := by
      simp only [Notify.step, hget, if_pos hover, herase]
    have hstep : Watch.step reprOf ⟨⟨file, before ++ flush :: after⟩, sends, handed, endings⟩
        (.endFlush i outcome) = ⟨⟨(endFlush flush outcome file).1, before ++ after⟩, sends, handed,
          endings ++ [⟨queued F file, queued F (endFlush flush outcome file).1,
            flush.delivered⟩]⟩ := by
      simp only [Watch.step, Watch.ending, hqueue, hget, hover, Watch.sending, Watch.handing,
        Option.filter_some, List.isEmpty_nil, if_true, Option.map_some, Option.toList_some,
        Option.toList_none, List.append_nil]
    have hremoval := endFlush_removal flush outcome file
    rw [hstep]
    refine ⟨fun k => ?_, h.oldest, fun e he => ?_, fun k => ?_⟩
    · have hkept := h.kept k
      have := hremoval.count k
      simp only [Watch.delivered, List.flatMap_append, List.flatMap_cons, List.count_append]
        at hkept ⊢
      simp only [Watch.sent, Watch.evicted] at hkept ⊢
      omega
    · rcases List.mem_append.mp he with he | he
      · exact h.removals e he
      · rw [List.mem_singleton.mp he]
        exact hremoval
    · have hdeliveries := h.deliveries k
      simp only [Watch.delivered, List.flatMap_append, List.flatMap_cons, List.flatMap_nil,
        List.count_append, List.append_nil] at hdeliveries ⊢
      omega

/-- **One step keeps the books**, where its cap spares the new entry. -/
theorem books_step {w' : Watch F} {e : Event F} (h : Books initial w)
    (hstep : sparing reprOf w e w') : Books initial w' := by
  obtain ⟨hcap, rfl⟩ := hstep
  cases e with
  | send max payload stamp outcome => exact books_send h hcap
  | beginFlush => exact books_begin h
  | deliver i ok => exact books_deliver h
  | endFlush i outcome => exact books_end h

end Step

/-! ## 6. Runs -/

theorem books_start (file : Option Text) : Books (queued F file) (Watch.start (F := F) file) :=
  ⟨fun _ => Nat.le_refl _, List.forall_mem_nil _, List.forall_mem_nil _, fun _ => Nat.le_refl _⟩

/-- **The queue conserves what was sent.**  Over every run of any number of notifiers on a queue
file, in which every cap under which a `send` returns ok spares the entry it sends. -/
theorem conserved (reprOf : PyValue F → PyStr) {file : Option Text} {es : List (Event F)}
    {w : Watch F} (h : Run (sparing reprOf) (Watch.start file) es w) :
    Conserved (queued F file) w :=
  (h.invariant (I := Books (queued F file)) (fun _ _ _ => books_step) (books_start file)).accounts

section Sample

/-- What the samples send. -/
def samplePayload (id : String) : List (PyStr × PyValue Whole) :=
  [(pyStr "action", .str (pyStr "notify")), (pyStr "incident_id", .str (pyStr id))]

def sampleStamp (ns : ℕ) : Stamp := ⟨pyStr "2026-05-01T00:00:00Z", ns, pyStr "b"⟩

/-- `repr` of a list or a dict, which no sample has. -/
def sampleRepr : PyValue Whole → PyStr := fun _ => [91]

/-- A second entry takes the place of the first, and a flush delivers it. -/
def sampleEvents : List (Event Whole) :=
  [.send 1 (samplePayload "a") (sampleStamp 1) .done,
    .send 1 (samplePayload "b") (sampleStamp 2) .done,
    .beginFlush, .deliver 0 true, .endFlush 0 .done]

def sampleEnd : Watch Whole := sampleEvents.foldl (Watch.step sampleRepr) (Watch.start none)

theorem sample_run : Run (sparing sampleRepr) (Watch.start none) sampleEvents sampleEnd :=
  .head ⟨fun _ _ => .inl (by decide), rfl⟩ (.head ⟨fun _ _ => .inl (by decide), rfl⟩
    (.head ⟨trivial, rfl⟩ (.head ⟨trivial, rfl⟩ (.head ⟨trivial, rfl⟩ (.refl _)))))

theorem conserved_sample : sampleEnd.sent.length = 2 ∧ sampleEnd.handed.length = 1 ∧
    sampleEnd.evicted.length = 1 ∧ Conserved (queued Whole none) sampleEnd :=
  ⟨by decide +kernel, by decide +kernel, by decide +kernel, conserved sampleRepr sample_run⟩

/-- **A negative cap loses the entry that was just sent.**  With a cap of `-1`, the one entry of a
queue that was empty is dropped, and `send` returns ok. -/
theorem negative_cap_loses : ¬ ∀ (file : Option Text) (es : List (Event Whole)) (w : Watch Whole),
    Run (stepping sampleRepr) (Watch.start file) es w →
    ∀ k ∈ w.sent, k ∈ queued Whole w.queue.file ∨ k ∈ w.handed ∨ k ∈ w.evicted := by
  intro h
  have hlost := h none [.send (-1) (samplePayload "a") (sampleStamp 1) .done] _ (Run.single rfl)
    (key (settled (summaryPayload sampleRepr (samplePayload "a") (sampleStamp 1))))
    (by decide +kernel)
  revert hlost
  decide +kernel

end Sample

end AzazelEdge.Notify
