/-
# Alerts are read once, in order

Of a file that only grows, the reader has at every moment seen the bytes from its start up to its
offset.  What those bytes hold of complete lines has been decided or skipped; what is left of them
is nothing, or the first part of a line already too long (`Taken`).  Each turn only extends the
bytes seen, by a line, by the start of an oversized line or by more of one, so the invariant goes
through without a word on budgets, tokens, shed levels or the clock.
-/
import AzazelEdge.Lib.Run
import AzazelEdge.Lib.Lines
import AzazelEdge.Ingress.Reader

namespace AzazelEdge.Ingress

open AzazelEdge.Lib

variable {F : Type} [F64 F] {fromStr : List Char → Option Json} {maxLine start : ℕ}
  {id : ℕ × ℕ} {c c' c'' bytes l seen : List UInt8} {d : List Json} {skipping : Bool}

/-! ## 1. A file that grows -/

/-- `take(n).read_until(b'\\n')`. -/
def readUntil : ℕ → List UInt8 → List UInt8
  | 0, _ => []
  | _, [] => []
  | n + 1, b :: bs => if b = newline then [b] else b :: readUntil n bs

/-- The answer to a read, from the file as it is when the answer is complete. -/
def Answers (r : IngressReader F) (content : List UInt8) (read : Option (List UInt8)) : Prop :=
  ∀ bytes, read = some bytes →
    if r.skipping then
      bytes <+: content.drop r.offset ∧ (bytes = [] → content.length ≤ r.offset)
    else bytes = readUntil r.limits.takeBytes (content.drop r.offset)

/-- The turns of a loop over a file that grows from the first content to the last. -/
inductive Follows (fromStr : List Char → Option Json) :
    List UInt8 → Loop F → List Turn → List UInt8 → Prop
  | stop {c c' : List UInt8} {s : Loop F} {t : Turn} {stop : PollStop} (rest : List Turn)
      (hgrows : c <+: c') (hanswers : Answers s.reader c' t.read)
      (hstop : s.turn fromStr t = .stop stop) : Follows fromStr c s (t :: rest) c'
  | next {c c' c'' : List UInt8} {s s' : Loop F} {t : Turn} {rest : List Turn}
      (hgrows : c <+: c') (hanswers : Answers s.reader c' t.read)
      (hnext : s.turn fromStr t = .next s') (hrest : Follows fromStr c' s' rest c'') :
      Follows fromStr c s (t :: rest) c''

/-- The file, its reader, and what the reader has handed to `decide`. -/
structure Feed (F : Type) where
  content : List UInt8
  reader : IngressReader F
  decided : List Json

/-- A poll of a file that is never truncated or replaced.  Its length is taken when it is opened;
it may grow before that and between any two reads. -/
inductive Polled (fromStr : List Char → Option Json) (id : ℕ × ℕ) :
    Feed F → PollCall → Feed F → Prop
  | poll {c c' c'' : List UInt8} {r r' : IngressReader F} {d handed : List Json} {call : PollCall}
      {report : PollReport} (hgrows : c <+: c') (hgrows' : c' <+: c'')
      (hopened : ∀ file, call.opened = some file → file.id = id ∧ file.len = c'.length)
      (hreads : ∀ file, call.opened = some file → file.seekOk = true →
        Follows fromStr c' (((r.refill call.now).begin file).loopStart file) call.turns c'')
      (hpoll : r.poll fromStr call = some (r', report, handed)) :
      Polled fromStr id ⟨c, r, d⟩ call ⟨c'', r', d ++ handed⟩

/-! ## 2. What is to be decided -/

/-- The value of a line, when it parses and its `event_type` is `alert`. -/
def alertOf (fromStr : List Char → Option Json) (line : List UInt8) : Option Json :=
  match readLine fromStr (line ++ [newline]) with
  | some (some value) => if classify (some value) = none then some value else none
  | _ => none

/-- The alerts among the complete lines of at most `maxLine` bytes, in order. -/
def alertsIn (fromStr : List Char → Option Json) (maxLine : ℕ) (bytes : List UInt8) : List Json :=
  ((completeLines newline bytes).filter fun line => line.length ≤ maxLine).filterMap
    (alertOf fromStr)

/-- The alerts among the values handed over. -/
def alertValues (decided : List Json) : List Json :=
  decided.filter fun value => classify (some value) = none

/-- What the reader has seen, and what it has made of it. -/
structure Taken (fromStr : List Char → Option Json) (maxLine : ℕ) (seen : List UInt8)
    (skipping : Bool) (decided : List Json) : Prop where
  alerts : alertValues decided = alertsIn fromStr maxLine seen
  /-- Between two lines nothing is left; inside an oversized one, too much. -/
  tail : if skipping then maxLine < (lineTail newline seen).length else lineTail newline seen = []

/-- A line was read to its end. -/
theorem Taken.line (h : Taken fromStr maxLine seen false d) (hl : newline ∉ l)
    (hshort : l.length ≤ maxLine) (handed : List Json)
    (hhanded : alertValues handed = (alertOf fromStr l).toList) :
    Taken fromStr maxLine (seen ++ (l ++ [newline])) false (d ++ handed) := by
  have htail : lineTail newline seen = [] := by simpa using h.tail
  refine ⟨?_, by simpa using lineTail_ended hl seen⟩
  rw [alertsIn, completeLines_ended hl, htail, List.nil_append, List.filter_append,
    List.filterMap_append, alertValues, List.filter_append]
  rw [← alertValues, ← alertsIn, h.alerts, ← alertValues, hhanded]
  simp only [List.filter_cons, hshort, decide_true, if_true, List.filter_nil]
  cases halert : alertOf fromStr l with
  | none => simp [halert]
  | some value => simp [halert]

/-- The first part of an oversized line was read. -/
theorem Taken.oversize (h : Taken fromStr maxLine seen false d) (hbytes : newline ∉ bytes)
    (hlong : maxLine < bytes.length) : Taken fromStr maxLine (seen ++ bytes) true d := by
  have htail : lineTail newline seen = [] := by simpa using h.tail
  refine ⟨?_, ?_⟩
  · rw [alertsIn, completeLines_open hbytes, ← alertsIn, h.alerts]
  · rw [lineTail_open hbytes, htail]
    simpa using hlong

/-- More of it was discarded. -/
theorem Taken.more (h : Taken fromStr maxLine seen true d) (hbytes : newline ∉ bytes) :
    Taken fromStr maxLine (seen ++ bytes) true d := by
  have htail : maxLine < (lineTail newline seen).length := by simpa using h.tail
  refine ⟨?_, ?_⟩
  · rw [alertsIn, completeLines_open hbytes, ← alertsIn, h.alerts]
  · rw [lineTail_open hbytes, if_pos rfl, List.length_append]
    omega

/-- Its end was discarded: a complete line, but none of those to be decided. -/
theorem Taken.ended (h : Taken fromStr maxLine seen true d) (hl : newline ∉ l) :
    Taken fromStr maxLine (seen ++ (l ++ [newline])) false d := by
  have htail : maxLine < (lineTail newline seen).length := by simpa using h.tail
  refine ⟨?_, by simpa using lineTail_ended hl seen⟩
  have hlong : decide ((lineTail newline seen ++ l).length ≤ maxLine) = false := by
    rw [List.length_append]
    exact decide_eq_false (by omega)
  rw [h.alerts, alertsIn, alertsIn, completeLines_ended hl, List.filter_append,
    List.filter_cons_of_neg (by simp only [hlong, Bool.false_eq_true, not_false_iff]),
    List.filter_nil, List.append_nil]

/-! ## 3. What a read brings -/

/-- `read_until` answers with a line, or with bytes that hold no newline. -/
theorem readUntil_cases : ∀ (n : ℕ) (content : List UInt8),
    readUntil n content <+: content ∧
      ((∃ l, newline ∉ l ∧ l.length + 1 ≤ n ∧ readUntil n content = l ++ [newline]) ∨
        newline ∉ readUntil n content)
  | 0, content => ⟨List.nil_prefix, Or.inr List.not_mem_nil⟩
  | n + 1, [] => ⟨List.nil_prefix, Or.inr List.not_mem_nil⟩
  | n + 1, b :: bs => by
    rw [readUntil]
    split
    · rename_i hb
      subst hb
      exact ⟨⟨bs, rfl⟩, Or.inl ⟨[], List.not_mem_nil, by simp, rfl⟩⟩
    · rename_i hb
      obtain ⟨hstart, hcases⟩ := readUntil_cases n bs
      refine ⟨List.cons_prefix_cons.mpr ⟨rfl, hstart⟩, ?_⟩
      rcases hcases with ⟨l, hl, hlength, heq⟩ | hnone
      · refine Or.inl ⟨b :: l, ?_, by simpa using hlength, by rw [heq]; rfl⟩
        exact fun hmem => (List.mem_cons.mp hmem).elim (fun h => hb h.symm) hl
      · exact Or.inr fun hmem => (List.mem_cons.mp hmem).elim (fun h => hb h.symm) hnone

omit [F64 F] in
/-- Bytes without a newline are discarded whole. -/
theorem skip_open (s : Loop F) (h : newline ∉ bytes) :
    (s.skip bytes).reader =
      { s.reader with offset := s.reader.offset + bytes.length, skipping := true } := by
  have hall : bytes.takeWhile (· != newline) = bytes := by
    have hother : ∀ b ∈ bytes, (b != newline) = true := fun b hb => by
      simpa using fun hsame : b = newline => h (hsame ▸ hb)
    have happend := @List.takeWhile_append_of_pos _ (· != newline) bytes [] hother
    simpa using happend
  simp [Loop.skip, hall]

omit [F64 F] in
/-- Of others, those up to the first newline. -/
theorem skip_ended (s : Loop F) (hl : newline ∉ l) (rest : List UInt8) :
    (s.skip (l ++ newline :: rest)).reader =
      { s.reader with offset := s.reader.offset + (l ++ [newline]).length, skipping := false } := by
  have hline : (l ++ newline :: rest).takeWhile (· != newline) = l := by
    rw [List.takeWhile_append_of_pos fun b hb => by
      simpa using fun hsame : b = newline => hl (hsame ▸ hb)]
    simp
  simp [Loop.skip, hline]

/-! ## 4. One turn -/

/-- The reader of a file that grows: where it is, and what it has made of the bytes it has seen. -/
structure Reads (fromStr : List Char → Option Json) (maxLine start : ℕ) (content : List UInt8)
    (r : IngressReader F) (decided : List Json) : Prop where
  limit : r.limits.maxLineBytes = maxLine
  after : start ≤ r.offset
  before : r.offset ≤ content.length
  taken : Taken fromStr maxLine ((content.take r.offset).drop start) r.skipping decided

variable {r : IngressReader F} {s s' : Loop F} {t : Turn}

omit [F64 F] in
/-- What is appended changes nothing that was seen. -/
theorem Reads.grows (h : Reads fromStr maxLine start c r d) (hgrows : c <+: c') :
    Reads fromStr maxLine start c' r d := by
  obtain ⟨rest, rfl⟩ := hgrows
  refine ⟨h.limit, h.after, ?_, ?_⟩
  · have := h.before
    rw [List.length_append]
    omega
  · rw [List.take_append_of_le_length h.before]
    exact h.taken

omit [F64 F] in
/-- What the refill and the opening of the file change does not matter, nor what hands over
nothing. -/
theorem Reads.congr (h : Reads fromStr maxLine start c r d) {r' : IngressReader F}
    (hlimits : r'.limits = r.limits) (hoffset : r'.offset = r.offset)
    (hskipping : r'.skipping = r.skipping) : Reads fromStr maxLine start c r' (d ++ []) := by
  refine ⟨(congrArg _ hlimits).trans h.limit, hoffset ▸ h.after, hoffset ▸ h.before, ?_⟩
  rw [hoffset, hskipping, List.append_nil]
  exact h.taken

omit [F64 F] in
/-- Past the bytes that come next in the file, exactly they have been seen besides. -/
theorem Reads.extend (h : Reads fromStr maxLine start c r d) (hbytes : bytes <+: c.drop r.offset)
    (r' : IngressReader F) (d' : List Json) (hlimits : r'.limits = r.limits)
    (hoffset : r'.offset = r.offset + bytes.length)
    (htaken : Taken fromStr maxLine ((c.take r.offset).drop start ++ bytes) r'.skipping d') :
    Reads fromStr maxLine start c r' d' := by
  obtain ⟨rest, hrest⟩ := hbytes
  have hlength := congrArg List.length hrest
  rw [List.length_append, List.length_drop] at hlength
  have hafter := h.after
  have hbefore := h.before
  have hseen : (c.take r'.offset).drop start = (c.take r.offset).drop start ++ bytes := by
    have htake : c.take r'.offset = c.take r.offset ++ bytes := by
      rw [hoffset, List.take_add, ← hrest, List.take_left']
      rfl
    rw [htake, List.drop_append_of_le_length (by rw [List.length_take]; omega)]
  exact ⟨(congrArg _ hlimits).trans h.limit, by omega, by omega, hseen ▸ htaken⟩

/-- What a complete line hands over, alerts apart from the rest. -/
theorem examine_hands (s : Loop F) (line : List UInt8) :
    ∃ handed, (s.examine fromStr line).decided = s.decided ++ handed ∧
      alertValues handed = (match readLine fromStr line with
        | some (some value) => if classify (some value) = none then some value else none
        | _ => none).toList ∧
      (s.examine fromStr line).reader.limits = s.reader.limits ∧
      (s.examine fromStr line).reader.offset = s.reader.offset + line.length ∧
      (s.examine fromStr line).reader.skipping = s.reader.skipping := by
  rcases Loop.examine_cases fromStr s line with ⟨hnone, heq⟩ | ⟨parsed, hsome, hclass, heq⟩ |
    ⟨parsed, cls, tokens, hsome, hclass, heq⟩ | ⟨parsed, cls, byBacklog, hsome, hclass, heq⟩
  · refine ⟨[], ?_, ?_, ?_⟩
    · simp [heq, Loop.advance]
    · simp [hnone, alertValues]
    · rw [heq]
      exact ⟨rfl, rfl, rfl⟩
  · refine ⟨parsed.toList, by rw [heq]; rfl, ?_, by rw [heq]; exact ⟨rfl, rfl, rfl⟩⟩
    cases parsed with
    | none => cases hclass
    | some value => simp [hsome, alertValues, hclass]
  · refine ⟨parsed.toList, by rw [heq]; rfl, ?_, by rw [heq]; exact ⟨rfl, rfl, rfl⟩⟩
    cases parsed with
    | none => simp [hsome, alertValues]
    | some value => simp [hsome, alertValues, hclass]
  · refine ⟨[], ?_, ?_, ?_⟩
    · rw [heq]
      simp [Loop.shed, Loop.advance]
    · cases parsed with
      | none => simp [hsome, alertValues]
      | some value => simp [hsome, alertValues, hclass]
    · rw [heq]
      exact ⟨rfl, rfl, rfl⟩

/-- **One turn**, whatever the file grew by before its read. -/
theorem Reads.turn (h : Reads fromStr maxLine start c s.reader (d ++ s.decided))
    (hanswers : Answers s.reader c t.read) (hnext : s.turn fromStr t = .next s') :
    Reads fromStr maxLine start c s'.reader (d ++ s'.decided) := by
  obtain ⟨bytes, hread, ⟨hskipping, rfl⟩ | ⟨hskipping, hended, rfl⟩ | ⟨hskipping, hopen, hlong, rfl⟩⟩ :=
    Loop.turn_next fromStr hnext
  · obtain ⟨hstart, -⟩ : bytes <+: c.drop s.reader.offset ∧ _ := by
      simpa [hskipping] using hanswers bytes hread
    have htaken := h.taken
    rw [hskipping] at htaken
    have hdecided : (s.skip bytes).decided = s.decided := rfl
    by_cases hmem : newline ∈ bytes
    · obtain ⟨l, rest, hcut, hl⟩ := List.eq_append_cons_of_mem hmem
      subst hcut
      rw [hdecided, skip_ended s hl rest]
      refine h.extend (List.IsPrefix.trans ⟨rest, by simp⟩ hstart) _ _ rfl rfl ?_
      exact htaken.ended hl
    · rw [hdecided, skip_open s hmem]
      exact h.extend hstart _ _ rfl rfl (htaken.more hmem)
  · have hbytes : bytes = readUntil s.reader.limits.takeBytes (c.drop s.reader.offset) := by
      simpa [hskipping] using hanswers bytes hread
    have htaken := h.taken
    rw [hskipping] at htaken
    obtain ⟨hstart, ⟨l, hl, hlength, heq⟩ | hnone⟩ :=
      readUntil_cases s.reader.limits.takeBytes (c.drop s.reader.offset)
    · rw [← hbytes] at hstart heq
      subst heq
      obtain ⟨handed, hdecided, hhanded, hlimits, hoffset, hskip⟩ :=
        examine_hands s (l ++ [newline])
      have hshort : l.length ≤ maxLine := by
        rw [← h.limit]
        have := Nat.mod_le (s.reader.limits.maxLineBytes + 1) (2 ^ 64)
        unfold IngressLimits.takeBytes at hlength
        omega
      rw [hdecided, ← List.append_assoc]
      refine h.extend hstart _ _ hlimits hoffset ?_
      rw [hskip, hskipping]
      exact htaken.line hl hshort handed hhanded
    · rw [← hbytes] at hnone
      exact absurd (List.mem_of_getLast? hended) hnone
  · have hbytes : bytes = readUntil s.reader.limits.takeBytes (c.drop s.reader.offset) := by
      simpa [hskipping] using hanswers bytes hread
    have htaken := h.taken
    rw [hskipping] at htaken
    obtain ⟨hstart, ⟨l, hl, hlength, heq⟩ | hnone⟩ :=
      readUntil_cases s.reader.limits.takeBytes (c.drop s.reader.offset)
    · rw [← hbytes] at heq
      exact absurd (by simp [heq]) hopen
    · rw [← hbytes] at hstart hnone
      exact h.extend hstart _ _ rfl rfl (htaken.oversize hnone (h.limit ▸ hlong))

/-- A whole loop. -/
theorem Reads.loop {stop : PollStop} {turns : List Turn} (hfollows : Follows fromStr c s turns c')
    (h : Reads fromStr maxLine start c s.reader (d ++ s.decided))
    (hrun : s.run fromStr turns = some (s', stop)) :
    Reads fromStr maxLine start c' s'.reader (d ++ s'.decided) := by
  induction hfollows with
  | stop rest hgrows hanswers hstop =>
    rw [Loop.run, hstop] at hrun
    obtain ⟨rfl, -⟩ := Prod.ext_iff.mp (Option.some.inj hrun)
    exact h.grows hgrows
  | next hgrows hanswers hnext hrest ih =>
    rw [Loop.run, hnext] at hrun
    exact ih ((h.grows hgrows).turn hanswers hnext) hrun

/-! ## 5. Polls -/

/-- The reader of this file: it has seen no other. -/
def SameFile (id : ℕ × ℕ) (r : IngressReader F) : Prop := r.inode = none ∨ r.inode = some id

omit [F64 F] in
/-- A file that grows is not taken for another one, nor for a shorter one. -/
theorem SameFile.begin (h : SameFile id r) {file : Opened} (hid : file.id = id)
    (hlen : r.offset ≤ file.len) :
    r.begin file = { r with inode := some id, lastLen := file.len } := by
  have hnone : r.restarts file = none := by
    unfold IngressReader.restarts
    rcases h with h | h <;> rw [h]
    · exact if_neg (by omega)
    · simp only
      rw [if_neg (by simp [hid]), if_neg (by omega)]
  rw [IngressReader.begin, hnone, hid]

/-- A loop leaves the inode alone. -/
theorem Loop.run_inode {stop : PollStop} : ∀ {turns : List Turn} {s s' : Loop F},
    s.run fromStr turns = some (s', stop) → s'.reader.inode = s.reader.inode
  | [], _, _, hrun => by cases hrun
  | t :: rest, s, s', hrun => by
    rw [Loop.run] at hrun
    split at hrun
    · obtain ⟨rfl, -⟩ := Prod.ext_iff.mp (Option.some.inj hrun)
      rfl
    · rename_i next hturn
      rw [Loop.run_inode hrun]
      obtain ⟨bytes, -, ⟨-, rfl⟩ | ⟨-, -, rfl⟩ | ⟨-, -, -, rfl⟩⟩ := Loop.turn_next fromStr hturn
      · rfl
      · rcases Loop.examine_cases fromStr s bytes with ⟨-, heq⟩ | ⟨_, -, -, heq⟩ |
          ⟨_, _, _, -, -, heq⟩ | ⟨_, _, _, -, -, heq⟩ <;> rw [heq] <;> rfl
      · rfl

/-- **One poll.** -/
theorem Polled.reads {f f' : Feed F} {call : PollCall} (hpolled : Polled fromStr id f call f')
    (h : Reads fromStr maxLine start f.content f.reader f.decided ∧ SameFile id f.reader) :
    Reads fromStr maxLine start f'.content f'.reader f'.decided ∧ SameFile id f'.reader := by
  obtain ⟨hreads, hsame⟩ := h
  cases hpolled with
  | @poll c c' c'' r r' d handed call report hgrows hgrows' hopened hloop hpoll =>
  have hstart := hreads.grows hgrows
  unfold IngressReader.poll at hpoll
  cases hfile : call.opened with
  | none =>
    simp only [hfile, Option.some.injEq, Prod.mk.injEq] at hpoll
    obtain ⟨rfl, -, rfl⟩ := hpoll
    exact ⟨(hstart.grows hgrows').congr rfl rfl rfl, hsame⟩
  | some file =>
    obtain ⟨hid, hlen⟩ := hopened file hfile
    have hbegin := SameFile.begin (r := r.refill call.now) hsame hid (hlen ▸ hstart.before)
    simp only [hfile, hbegin] at hpoll
    split at hpoll
    · simp only [Option.some.injEq, Prod.mk.injEq] at hpoll
      obtain ⟨rfl, -, rfl⟩ := hpoll
      exact ⟨(hstart.grows hgrows').congr rfl rfl rfl, Or.inr rfl⟩
    · rename_i hseek
      have hfollows := hloop file hfile (by simpa using hseek)
      rw [hbegin] at hfollows
      cases hrun : (({ r.refill call.now with
          inode := some id, lastLen := file.len } : IngressReader F).loopStart file).run fromStr
          call.turns with
      | none => rw [hrun] at hpoll; cases hpoll
      | some ended =>
        obtain ⟨s, stop⟩ := ended
        rw [hrun] at hpoll
        simp only [Option.map_some, Option.some.injEq, Prod.mk.injEq] at hpoll
        obtain ⟨rfl, -, rfl⟩ := hpoll
        have hbefore : Reads fromStr maxLine start c'
            (({ r.refill call.now with
              inode := some id, lastLen := file.len } : IngressReader F).loopStart file).reader
            (d ++ (({ r.refill call.now with
              inode := some id, lastLen := file.len } : IngressReader F).loopStart file).decided) :=
          hstart.congr rfl rfl rfl
        have hend := hbefore.loop hfollows hrun
        exact ⟨⟨hend.limit, hend.after, hend.before, hend.taken⟩, Or.inr (Loop.run_inode hrun)⟩

/-- **Alerts are never lost, duplicated, reordered or rate-limited by the reader.**  Of a file that
only grows, the alerts handed over so far are those of the complete lines of at most
`max_line_bytes` bytes between the reader's start and its offset, each once and in order. -/
theorem alerts_read_once (fromStr : List Char → Option Json) (limits : IngressLimits)
    {content : List UInt8} {calls : List PollCall} {f : Feed F} (hstart : start ≤ content.length)
    (h : Run (Polled fromStr id) ⟨content, IngressReader.new start limits, []⟩ calls f) :
    alertValues f.decided =
      alertsIn fromStr limits.maxLineBytes ((f.content.take f.reader.offset).drop start) := by
  have hnew : Reads fromStr limits.maxLineBytes start content
      (IngressReader.new start limits : IngressReader F) [] := by
    have hnone : ((content.take start).drop start) = [] := by simp
    refine ⟨rfl, le_rfl, hstart, ?_⟩
    show Taken fromStr limits.maxLineBytes ((content.take start).drop start) false []
    rw [hnone]
    exact ⟨rfl, rfl⟩
  exact (h.invariant
    (I := fun f => Reads fromStr limits.maxLineBytes start f.content f.reader f.decided ∧
      SameFile id f.reader)
    (fun _ _ _ hf hstep => hstep.reads hf) ⟨hnew, Or.inl rfl⟩).1.taken.alerts

/-! ### A file with one alert -/

/-- The line `{"event_type":"alert"}`. -/
def sampleAlertLine : List UInt8 :=
  [123, 34, 101, 118, 101, 110, 116, 95, 116, 121, 112, 101, 34, 58, 34, 97, 108, 101, 114, 116, 34,
    125]

def sampleAlert : Json := .obj [("event_type", .str "alert")]

/-- The parser on the one text of the sample. -/
def sampleAlertParse (text : List Char) : Option Json :=
  if text = fromUtf8Lossy sampleAlertLine then some sampleAlert else none

/-- The line, and the first bytes of the next. -/
def sampleContent : List UInt8 := sampleAlertLine ++ [newline, 123, 34]

def sampleAlertLimits : IngressLimits :=
  ⟨0, 0, 10, 10, 500000000, 1048576, 8388608, 268435456, 1000000000⟩

def sampleAlertReader : IngressReader ℚ := .new 0 sampleAlertLimits

/-- The file was empty when it was opened. -/
def sampleFile : Opened := ⟨(1, 1), 0, true⟩

def sampleAlertCall : PollCall where
  now := 0
  opened := some sampleFile
  turns := [⟨false, some (sampleAlertLine ++ [newline])⟩, ⟨false, some [123, 34]⟩]

theorem sampleAlertPolled_isSome :
    (sampleAlertReader.poll sampleAlertParse sampleAlertCall).isSome = true := by decide +kernel

def sampleAlertPolled : IngressReader ℚ × PollReport × List Json :=
  (sampleAlertReader.poll sampleAlertParse sampleAlertCall).get sampleAlertPolled_isSome

/-- The loop before and after its one line. -/
def sampleLoop : Loop ℚ := ((sampleAlertReader.refill 0).begin sampleFile).loopStart sampleFile

def sampleLoopRead : Loop ℚ := sampleLoop.examine sampleAlertParse (sampleAlertLine ++ [newline])

theorem sampleFollows :
    Follows sampleAlertParse [] sampleLoop sampleAlertCall.turns sampleContent := by
  have hfirst : Answers sampleLoop.reader sampleContent (some (sampleAlertLine ++ [newline])) := by
    intro bytes hbytes
    obtain rfl := Option.some.inj hbytes
    show sampleAlertLine ++ [newline] = readUntil 1048577 sampleContent
    decide +kernel
  have hsecond : Answers sampleLoopRead.reader sampleContent (some [123, 34]) := by
    intro bytes hbytes
    obtain rfl := Option.some.inj hbytes
    have hreads : sampleLoopRead.reader.skipping = false ∧
        [123, 34] = readUntil sampleLoopRead.reader.limits.takeBytes
          (sampleContent.drop sampleLoopRead.reader.offset) := by decide +kernel
    rw [hreads.1]
    exact hreads.2
  have hstop : ∃ stop, sampleLoopRead.turn sampleAlertParse ⟨false, some [123, 34]⟩ = .stop stop := by
    have hreads : sampleLoopRead.reader.skipping = false ∧
        sampleLoopRead.reader.limits.maxLineBytes = 1048576 := by decide +kernel
    cases hturn : sampleLoopRead.turn sampleAlertParse ⟨false, some [123, 34]⟩ with
    | stop stop => exact ⟨stop, rfl⟩
    | next s' =>
      obtain ⟨bytes, hread, ⟨hskipping, -⟩ | ⟨-, hended, -⟩ | ⟨-, -, hlong, -⟩⟩ :=
        Loop.turn_next sampleAlertParse hturn <;> obtain rfl := Option.some.inj hread
      · rw [hreads.1] at hskipping
        cases hskipping
      · exact absurd hended (by decide)
      · rw [hreads.2] at hlong
        exact absurd hlong (by decide)
  obtain ⟨stop, hstop⟩ := hstop
  exact Follows.next List.nil_prefix hfirst rfl
    (Follows.stop [] (List.prefix_refl _) hsecond hstop)

theorem alerts_read_once_sample :
    (alertValues sampleAlertPolled.2.2).length = 1 ∧
      alertValues sampleAlertPolled.2.2 = alertsIn sampleAlertParse 1048576
        ((sampleContent.take sampleAlertPolled.1.offset).drop 0) := by
  have hpolled : Polled sampleAlertParse (1, 1) ⟨[], sampleAlertReader, []⟩ sampleAlertCall
      ⟨sampleContent, sampleAlertPolled.1, [] ++ sampleAlertPolled.2.2⟩ := by
    refine Polled.poll (List.prefix_refl []) List.nil_prefix ?_ ?_
      (Option.some_get sampleAlertPolled_isSome).symm
    · rintro file hfile
      obtain rfl := Option.some.inj hfile
      exact ⟨rfl, rfl⟩
    · rintro file hfile -
      obtain rfl := Option.some.inj hfile
      exact sampleFollows
  exact ⟨by decide +kernel, alerts_read_once sampleAlertParse sampleAlertLimits le_rfl
    (Run.single hpolled)⟩

end AzazelEdge.Ingress
