/-
# Where inode numbers are not used again

An instance trusts what it remembers of a file by the file's inode number and size.  As long as no
file gets an inode number that some instance remembers of another one, that is right: the file that
has it is the one the instance knew, and only grew since (`trusting_of_new_inodes`).
-/
import AzazelEdge.Alert.Bounded

namespace AzazelEdge.Alert

open AzazelEdge.Lib AzazelEdge.Lib.Py AzazelEdge.Audit

variable {F : Type} [PyFloat F] {wide : Text → Option Text} {a : Answers}
  {rows rows' : List (Row F)} {bytes : Text} {cache : Option Cache} {file : File} {c : Cache}

/-! ## 1. What an instance remembers -/

/-- The file begins with what the instance left of it. -/
structure Remembers (F : Type) [PyFloat F] (wide : Text → Option Text) (file : File) (c : Cache) :
    Prop where
  within : c.size ≤ file.bytes.length
  rows : ∃ rows : List (Row F), HoldsWhole wide (file.bytes.take c.size) rows ∧
    (∀ row ∈ rows, Good row) ∧ c.lineCount = rows.length ∧ c.seq = lastSeq rows ∧
    c.evictedTotal = lastTotal rows

theorem lineTail_fileOf {lines : List Text} (h : ∀ line ∈ lines, nl ∉ line) :
    lineTail nl (fileOf lines) = [] := by
  have hcut := cutLines_fileOf h List.not_mem_nil
  rw [List.append_nil] at hcut
  rw [lineTail, hcut]

theorem HoldsWhole.lineTail (h : HoldsWhole wide bytes rows) : lineTail nl bytes = [] := by
  obtain ⟨lines, rfl, hlines⟩ := h
  exact lineTail_fileOf (forall₂_no_newline (hlines.imp fun _ _ h => h.1))

/-- `_scan` cuts nothing off a whole beginning. -/
theorem take_scan {n : ℕ} (h : HoldsWhole wide (bytes.take n) rows) (hn : n ≤ bytes.length) :
    n ≤ (scan F wide bytes).data.length ∧ (scan F wide bytes).data.take n = bytes.take n := by
  have htail : (lineTail nl bytes).length ≤ bytes.length - n := by
    have hcut : lineTail nl bytes = lineTail nl (bytes.drop n) := by
      conv_lhs => rw [← List.take_append_drop n bytes, lineTail_append, h.lineTail]
      rfl
    have hjoin := congrArg List.length (cutLines_join nl (bytes.drop n))
    rw [List.length_append, List.length_drop] at hjoin
    rw [hcut]
    omega
  simp only [scan]
  split_ifs
  · rw [upToNewline, List.length_take, List.take_take]
    exact ⟨by omega, by rw [Nat.min_eq_left (by omega)]⟩
  · exact ⟨hn, rfl⟩

/-- **What is remembered of the whole file is what `_scan` would find.** -/
theorem Remembers.trusted (h : Remembers F wide file c) (hsize : c.size = file.bytes.length) :
    let s := scan F wide file.bytes
    s.data = file.bytes ∧ c.lineCount = s.lineCount ∧ c.seq = s.seq ∧
      c.evictedTotal = s.evictedTotal := by
  obtain ⟨rows, hrows, hgood, hcount, hseq, htotal⟩ := h.rows
  have hsame := take_scan hrows h.within
  rw [hsize, List.take_length] at hrows hsame
  obtain ⟨-, hcount', -, hseq', htotal'⟩ := scan_holds hrows.holds hgood
  have hlength : (scan F wide file.bytes).data.length ≤ file.bytes.length := by
    simp only [scan]
    split_ifs
    · exact List.length_take_le' _ _
    · exact le_refl _
  have hdata := hsame.2
  rw [List.take_of_length_le hlength] at hdata
  exact ⟨hdata, hcount.trans hcount'.symm, hseq.trans hseq'.symm, htotal.trans htotal'.symm⟩

/-! ## 2. What a write leaves of it -/

section Write

variable [PyRepr F] {q : Queue} {r : Request F}

/-- The entries of a plan are numbered. -/
theorem numbered_plan (wide : Text → Option Text) (q : Queue) (cache : Option Cache) (file : File)
    (r : Request F) (a : Answers) :
    ∃ total seq, Numbered r.type total seq (plan wide q cache file r a).entries := by
  unfold plan
  simp only []
  split_ifs
  · exact ⟨_, _, numbered_withRepaired _ (numbered_build a r _ _ _).1⟩
  · exact ⟨_, _, numbered_withRepaired _ (numbered_build a r _ _ _).1⟩

omit [PyRepr F] in
theorem entryInt_numbered {type : PyStr} {total seq : ℤ} {entries : List (Record F)}
    (htype : Plain type) (h : Numbered type total seq entries) :
    ∀ entry ∈ entries, entryInt kSeq entry = some (seqOf (rowOf entry)) ∧
      entryInt kTotal entry = some (totalOf (rowOf entry)) := by
  induction entries generalizing seq with
  | nil => exact List.forall_mem_nil _
  | cons entry entries ih =>
    have hread := reads_rowOf htype h.1
    refine List.forall_mem_cons.mpr ⟨⟨?_, ?_⟩, ih h.2⟩
    · rw [entryInt, h.1.seq, hread.seq]
    · rw [entryInt, h.1.total, hread.total]

/-- **An instance remembers the file that its write leaves.** -/
theorem remembers_after {p : Plan F} {new : List (Row F)} (hbase : HoldsWhole wide p.base.bytes rows)
    (hlines : p.totalLines = rows'.length) (hplans : Plans wide q r p rows new rows')
    (hnext : Next q r rows new rows') (hnew : p.entries.map rowOf = new)
    (hentries : ∃ total seq, Numbered r.type total seq p.entries) (hcache : p.cache a = some c) :
    c.ino = (p.after a).ino ∧ Remembers F wide (p.after a) c := by
  obtain ⟨total, seq, hnumbered⟩ := hentries
  obtain ⟨hafter, -⟩ := left_returned hbase hplans hnext a
  rw [Plan.cache] at hcache
  split_ifs at hcache
  obtain ⟨last, hlast, rfl⟩ := Option.map_eq_some_iff.mp hcache
  obtain ⟨hseq, htotal⟩ := entryInt_numbered (plain_type r) hnumbered last (List.mem_of_getLast? hlast)
  obtain ⟨front, hfront⟩ := hnext.ends
  have hrow : rows'.getLast? = some (rowOf last) := by
    have hne : new ≠ [] := by
      rintro rfl
      rw [List.map_eq_nil_iff] at hnew
      rw [hnew] at hlast
      cases hlast
    rw [hfront, List.getLast?_append_of_ne_nil _ hne, ← hnew, List.getLast?_map, hlast]
    rfl
  refine ⟨rfl, le_refl _, rows', ?_, hnext.ordered.good, hlines, ?_, ?_⟩
  · rw [List.take_length]
    exact hafter
  · rw [hseq, lastSeq, hrow]
    rfl
  · rw [htotal, lastTotal, hrow]
    rfl

/-- The bytes a write goes on from begin with what an instance left. -/
theorem remembers_base (h : Remembers F wide file c) (q : Queue) (cache : Option Cache)
    (r : Request F) (a : Answers) (more : Text) (ino : ℕ) :
    Remembers F wide ⟨ino, (plan wide q cache file r a).base.bytes ++ more⟩ c := by
  obtain ⟨rows, hrows, hgood⟩ := h.rows
  have hscan := take_scan hrows h.within
  have hfind : c.size ≤ (find F wide cache file).data.length ∧
      (find F wide cache file).data.take c.size = file.bytes.take c.size := by
    unfold find
    split
    · split_ifs
      · exact ⟨h.within, rfl⟩
      · exact hscan
    · exact hscan
  have hbase : c.size ≤ (plan wide q cache file r a).base.bytes.length ∧
      (plan wide q cache file r a).base.bytes.take c.size = file.bytes.take c.size := by
    unfold plan
    simp only []
    split_ifs
    · exact hscan
    · exact hfind
  refine ⟨?_, rows, ?_, hgood⟩
  · rw [List.length_append]
    omega
  · rw [List.take_append_of_le_length hbase.1, hbase.2]
    exact hrows

theorem base_ino (wide : Text → Option Text) (q : Queue) (cache : Option Cache) (file : File)
    (r : Request F) (a : Answers) : (plan wide q cache file r a).base.ino = file.ino := by
  unfold plan
  simp only []
  split_ifs <;> rfl

end Write

/-! ## 3. Every run -/

section Watch

variable [PyRepr F] {I : Type} [DecidableEq I] {q : Queue}

/-- No file that this write may make has an inode number that some instance remembers. -/
def NewInodes (w : World I) (a : Answers) : Prop :=
  ∀ i c, w.cache i = some c → (w.file = none → c.ino ≠ a.createIno) ∧ c.ino ≠ a.rewriteIno

/-- A step of a run in which no remembered inode number is used again. -/
def renewing (wide : Text → Option Text) (q : Queue) (w : Watch I) (e : Event I F) (w' : Watch I) :
    Prop :=
  (∀ i r a o, e = .write i r a o → NewInodes w.world a) ∧ w' = w.step wide q e

/-- What the instances know of the file. -/
def Known (F : Type) [PyFloat F] (wide : Text → Option Text) (w : World I) : Prop :=
  ∀ i c file, w.cache i = some c → w.file = some file → c.ino = file.ino → Remembers F wide file c

omit [PyRepr F] [DecidableEq I] in
theorem trusted_of_known {w : World I} (hknown : Known F wide w) (hnew : NewInodes w a) (i : I) :
    Trusted F wide (w.cache i) (openFile w.file a) := by
  intro c hc hino hsize
  cases hfile : w.file with
  | none =>
    rw [hfile] at hino
    exact absurd hino ((hnew i c hc).1 hfile)
  | some file =>
    rw [hfile] at hino hsize
    exact (hknown i c file hc hfile hino).trusted hsize

omit [DecidableEq I] in
/-- An instance that remembers the file remembers what a write leaves of it. -/
theorem known_left {w : World I} (hknown : Known F wide w) (hnew : NewInodes w a) {i : I}
    (hi : w.cache i = some c) (file' : File) {p : Plan F} {r : Request F} {j : I}
    (hp : p = w.plan wide q j r a) (hino : c.ino = file'.ino)
    (hfile : file' = p.after a ∨ ∃ more, file' = ⟨p.base.ino, p.base.bytes ++ more⟩) :
    Remembers F wide file' c := by
  have hkept : ∀ more, c.ino = p.base.ino → Remembers F wide ⟨p.base.ino, p.base.bytes ++ more⟩ c := by
    intro more hino
    rw [hp, World.plan, base_ino] at hino
    cases hw : w.file with
    | none =>
      rw [hw] at hino
      exact absurd hino ((hnew i c hi).1 hw)
    | some file =>
      rw [hw] at hino
      rw [hp, World.plan, hw]
      exact remembers_base (hknown i c file hi hw hino) q (w.cache j) r a more _
  rcases hfile with rfl | ⟨more, rfl⟩
  · cases hreplaces : p.replaces with
    | true =>
      rw [Plan.after, hreplaces, if_pos rfl] at hino
      exact absurd hino (hnew i c hi).2
    | false =>
      rw [Plan.after, hreplaces, if_neg (by decide)] at hino ⊢
      exact hkept _ hino
  · exact hkept more hino

theorem known_step {w w' : Watch I} {e : Event I F} (hkept : Kept F wide q w rows)
    (hknown : Known F wide w.world) (hstep : renewing wide q w e w') : Known F wide w'.world := by
  obtain ⟨hnew, rfl⟩ := hstep
  cases e with
  | reopen i =>
    intro j c file hj hfile
    refine hknown j c file ?_ hfile
    by_cases hij : j = i
    · subst hij
      simp [Watch.step, Alert.step] at hj
    · simpa [Watch.step, Alert.step, Function.update, hij] using hj
  | write i r a o =>
    have hfresh := hnew i r a o rfl
    cases hreq : refused q r with
    | true => simpa only [Watch.step, hreq, if_true] using hknown
    | false =>
      obtain ⟨rows', hbase, hlines, hplans, hnext⟩ := plan_spec (a := a)
        (holds_openFile wide hkept.holds a) hkept.ordered (trusted_of_known hknown hfresh i) hreq
      cases o with
      | unopened =>
        intro j c file hj hfile
        simp only [Watch.step, hreq, Bool.false_eq_true, if_false, Alert.step] at hj hfile
        exact hknown j c file hj hfile
      | opened =>
        intro j c file hj hfile hino
        simp only [Watch.step, hreq, Bool.false_eq_true, if_false, Alert.step] at hj hfile
        cases hw : w.world.file with
        | none =>
          rw [hw] at hfile
          rw [← Option.some.inj hfile] at hino
          exact absurd hino ((hfresh j c hj).1 hw)
        | some file' =>
          rw [hw] at hfile
          exact hknown j c file hj (hw.trans hfile) hino
      | cut k replaced =>
        intro j c file hj hfile hino
        simp only [Watch.step, hreq, Bool.false_eq_true, if_false, Alert.step] at hj hfile
        refine known_left (q := q) (r := r) hknown hfresh hj file (j := i) rfl hino ?_
        rw [← Option.some.inj hfile, Plan.cut]
        split_ifs
        · exact .inl rfl
        · exact .inr ⟨[], by rw [List.append_nil]; rfl⟩
        · exact .inr ⟨_, rfl⟩
      | returned =>
        intro j c file hj hfile hino
        simp only [Watch.step, hreq, Bool.false_eq_true, if_false, Alert.step] at hj hfile
        by_cases hij : j = i
        · subst hij
          rw [Function.update_self] at hj
          rw [← Option.some.inj hfile]
          exact (remembers_after hbase hlines hplans hnext rfl
            (numbered_plan wide q _ _ r a) hj).2
        · rw [Function.update_of_ne hij] at hj
          exact known_left (q := q) (r := r) hknown hfresh hj file (j := i) rfl hino
            (.inl (Option.some.inj hfile).symm)

/-- **Where no remembered inode number is used again, every instance knows its file.** -/
theorem trusting_of_new_inodes {ls : List (Event I F)} {w : Watch I}
    (hrun : Run (renewing wide q) (Watch.start I) ls w) :
    Run (trusting wide q) (Watch.start I) ls w := by
  have hlift : ∀ {s t : Watch I} {ls : List (Event I F)}, Run (renewing wide q) s ls t →
      (∃ rows, Kept F wide q s rows) → Known F wide s.world → Run (trusting wide q) s ls t := by
    intro s t ls hrun
    induction hrun with
    | refl => exact fun _ _ => .refl _
    | head hstep _ ih =>
      rintro ⟨rows, hkept⟩ hknown
      have htrust : trusting wide q _ _ _ := ⟨fun i r a o he =>
        trusted_of_known hknown (hstep.1 i r a o he) i, hstep.2⟩
      exact .head htrust (ih (kept_step hkept htrust) (known_step hkept hknown hstep))
  exact hlift hrun ⟨[], kept_start⟩ (fun _ _ _ h => by cases h)

end Watch

end AzazelEdge.Alert
