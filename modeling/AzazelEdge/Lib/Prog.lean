/-
# Programs that issue commands

A function that takes a command runner is a tree: it ends with a value, or it issues a command
and goes on with whatever the runner answered.  The runner itself is left open, so one tree
serves every runner: a scripted one, an adversary, a kernel whose state other parties change
between two commands.

`Prog.Meets` is the rule of pre- and postconditions for such trees.  A contract follows a run with
a state of its own (what the environment is in, or what is known of it), says which commands may be
issued in it, which answers the environment can give and what they leave it in, and what must hold
of the result.  `Prog.onHistory` is the contract whose state is the run so far.
-/
import Mathlib.Logic.Basic

namespace AzazelEdge.Lib

universe u

variable {κ ρ α β : Type} {σ : Type*}

/-- A program: `κ` are its commands, `ρ` the answers, `α` its result. -/
inductive Prog (κ ρ α : Type) where
  | done (a : α)
  | call (c : κ) (next : ρ → Prog κ ρ α)

namespace Prog

/-- Run `p`, then go on with its result. -/
def bind : Prog κ ρ α → (α → Prog κ ρ β) → Prog κ ρ β
  | done a, f => f a
  | call c next, f => call c fun r => (next r).bind f

/-- Run `p` and change its result. -/
def map (f : α → β) (p : Prog κ ρ α) : Prog κ ρ β := p.bind fun a => done (f a)

@[simp] theorem done_bind (a : α) (f : α → Prog κ ρ β) : (done a : Prog κ ρ α).bind f = f a := rfl

@[simp] theorem call_bind (c : κ) (next : ρ → Prog κ ρ α) (f : α → Prog κ ρ β) :
    (call c next).bind f = call c fun r => (next r).bind f := rfl

/-- What is left of the program after these answers; `none` when it ended before the last. -/
def resume : Prog κ ρ α → List ρ → Option (Prog κ ρ α)
  | p, [] => some p
  | done _, _ :: _ => none
  | call _ next, r :: rs => (next r).resume rs

/-- The result of the program on exactly these answers. -/
def run : Prog κ ρ α → List ρ → Option α
  | done a, [] => some a
  | done _, _ :: _ => none
  | call _ _, [] => none
  | call _ next, r :: rs => (next r).run rs

@[simp] theorem run_map (f : α → β) : ∀ (p : Prog κ ρ α) (rs : List ρ),
    (p.map f).run rs = (p.run rs).map f
  | done _, [] => rfl
  | done _, _ :: _ => rfl
  | call _ _, [] => rfl
  | call _ next, r :: rs => run_map f (next r) rs

/-- A run of two programs in sequence. -/
theorem run_bind {f : α → Prog κ ρ β} {a : α} {ss : List ρ} : ∀ {p : Prog κ ρ α} {rs : List ρ},
    p.run rs = some a → (p.bind f).run (rs ++ ss) = (f a).run ss
  | done _, [], h => by cases h; rfl
  | done _, _ :: _, h => by cases h
  | call _ _, [], h => by cases h
  | call _ next, r :: rs, h => run_bind (p := next r) h

/-- What a run of a program is held to. -/
structure Contract (σ κ ρ α : Type*) where
  /-- The commands the program may issue. -/
  may : σ → κ → Prop
  /-- The answers the environment can give to a command, and the state they leave it in. -/
  env : σ → κ → ρ → σ → Prop
  /-- What must hold at the end. -/
  post : σ → α → Prop

/-- **`p` meets the contract from `s` on**, whatever the environment answers. -/
def Meets (C : Contract σ κ ρ α) : σ → Prog κ ρ α → Prop
  | s, done a => C.post s a
  | s, call c next => C.may s c ∧ ∀ r t, C.env s c r t → Meets C t (next r)

variable {C : Contract σ κ ρ α} {s t : σ}

@[simp] theorem meets_done (a : α) : Meets C s (done a) ↔ C.post s a := Iff.rfl

@[simp] theorem meets_call (c : κ) (next : ρ → Prog κ ρ α) :
    Meets C s (call c next) ↔ C.may s c ∧ ∀ r t, C.env s c r t → Meets C t (next r) := Iff.rfl

/-- **The rule for sequencing.**  If `p` meets the contract whose postcondition is that the rest
of the program meets its own, then the two in sequence meet the latter. -/
theorem Meets.bind {D : Contract σ κ ρ β} {f : α → Prog κ ρ β} :
    ∀ {p : Prog κ ρ α} {s : σ}, Meets ⟨D.may, D.env, fun s a => Meets D s (f a)⟩ s p →
      Meets D s (p.bind f)
  | done _, _, h => h
  | call _ _, _, h => ⟨h.1, fun r t ht => Meets.bind (h.2 r t ht)⟩

theorem Meets.map {D : Contract σ κ ρ β} {f : α → β} {p : Prog κ ρ α}
    (h : Meets ⟨D.may, D.env, fun s a => D.post s (f a)⟩ s p) : Meets D s (p.map f) :=
  Meets.bind h

/-- The rule of consequence: a weaker postcondition. -/
theorem Meets.post {Q : σ → α → Prop} (hpost : ∀ s a, C.post s a → Q s a) :
    ∀ {p : Prog κ ρ α} {s : σ}, Meets C s p → Meets ⟨C.may, C.env, Q⟩ s p
  | done _, _, h => hpost _ _ h
  | call _ _, _, h => ⟨h.1, fun r t ht => Meets.post hpost (h.2 r t ht)⟩

/-- Two postconditions of one environment, the first with its leave to issue commands. -/
theorem Meets.and {D : Contract σ κ ρ α} (henv : D.env = C.env) :
    ∀ {p : Prog κ ρ α} {s : σ}, Meets C s p → Meets D s p →
      Meets ⟨C.may, C.env, fun s a => C.post s a ∧ D.post s a⟩ s p
  | done _, _, h, hd => ⟨h, hd⟩
  | call _ _, _, h, hd =>
    ⟨h.1, fun r t ht => Meets.and henv (h.2 r t ht) (hd.2 r t (by rw [henv]; exact ht))⟩

/-! ## Results under any environment -/

/-- **Whatever is answered, the result satisfies `Q`.** -/
def Ensures (Q : α → Prop) (p : Prog κ ρ α) : Prop :=
  Meets (⟨fun _ _ => True, fun _ _ _ _ => True, fun _ a => Q a⟩ : Contract Unit κ ρ α) () p

variable {Q : α → Prop}

@[simp] theorem ensures_done (a : α) : Ensures Q (done a : Prog κ ρ α) ↔ Q a := Iff.rfl

theorem ensures_call {c : κ} {next : ρ → Prog κ ρ α} (h : ∀ r, Ensures Q (next r)) :
    Ensures Q (call c next) := ⟨trivial, fun r _ _ => h r⟩

theorem Ensures.of_forall (h : ∀ a, Q a) : ∀ p : Prog κ ρ α, Ensures Q p
  | done a => h a
  | call _ next => ensures_call fun r => Ensures.of_forall h (next r)

theorem Ensures.bind {R : β → Prop} {f : α → Prog κ ρ β} :
    ∀ {p : Prog κ ρ α}, Ensures Q p → (∀ a, Q a → Ensures R (f a)) → Ensures R (p.bind f)
  | done a, h, hf => hf a h
  | call _ _, h, hf => ensures_call fun r => Ensures.bind (h.2 r () trivial) hf

theorem Ensures.map {R : β → Prop} {f : α → β} {p : Prog κ ρ α} (h : Ensures Q p)
    (hf : ∀ a, Q a → R (f a)) : Ensures R (p.map f) :=
  h.bind fun a ha => (ensures_done _).mpr (hf a ha)

/-- Whatever a program does, the rest of it decides the result. -/
theorem ensures_bind {R : β → Prop} (p : Prog κ ρ α) {f : α → Prog κ ρ β}
    (h : ∀ a, Ensures R (f a)) : Ensures R (p.bind f) :=
  (Ensures.of_forall (Q := fun _ => True) (fun _ => trivial) p).bind fun a _ => h a

theorem ensures_map {R : β → Prop} (p : Prog κ ρ α) {f : α → β} (h : ∀ a, R (f a)) :
    Ensures R (p.map f) :=
  ensures_bind p h

/-- The rule of consequence. -/
theorem Ensures.mono {R : α → Prop} {p : Prog κ ρ α} (h : Ensures Q p) (hQ : ∀ a, Q a → R a) :
    Ensures R p :=
  Meets.post (fun _ a => hQ a) h

/-- The result on a list of answers is one of them. -/
theorem Ensures.run : ∀ {p : Prog κ ρ α} {rs : List ρ} {a : α}, Ensures Q p →
    p.run rs = some a → Q a
  | done _, [], _, h, hr => by cases hr; exact h
  | done _, _ :: _, _, _, hr => by cases hr
  | call _ _, [], _, _, hr => by cases hr
  | call _ _, r :: _, _, h, hr => Ensures.run (h.2 r () trivial) hr

/-- A program that meets a contract meets it together with what it ensures. -/
theorem Meets.and_ensures :
    ∀ {p : Prog κ ρ α} {s : σ}, Meets C s p → Ensures Q p →
      Meets ⟨C.may, C.env, fun s a => C.post s a ∧ Q a⟩ s p
  | done _, _, h, hq => ⟨h, hq⟩
  | call _ _, _, h, hq =>
    ⟨h.1, fun r t ht => Meets.and_ensures (h.2 r t ht) (hq.2 r () trivial)⟩

/-- Once nothing is left to run, the answers were exactly the program's. -/
theorem run_of_resume : ∀ (p : Prog κ ρ α) (rs : List ρ) {a : α}, p.resume rs = some (done a) →
    p.run rs = some a
  | done _, [], _, h => by cases h; rfl
  | done _, _ :: _, _, h => by cases h
  | call _ _, [], _, h => by cases h
  | call _ next, r :: rs, _, h => run_of_resume (next r) rs h

@[simp] theorem resume_nil (p : Prog κ ρ α) : p.resume [] = some p := by
  cases p <;> rfl

/-- One answer further on. -/
theorem resume_snoc : ∀ (p : Prog κ ρ α) (rs : List ρ) {c : κ} {next : ρ → Prog κ ρ α} (r : ρ),
    p.resume rs = some (call c next) → p.resume (rs ++ [r]) = some (next r)
  | done _, [], _, _, _, h => by cases h
  | done _, _ :: _, _, _, _, h => by cases h
  | call _ _, [], _, _, r, h => by cases h; exact resume_nil _
  | call _ next, x :: rs, _, _, r, h => resume_snoc (next x) rs r h

/-! ## The commands of a run -/

variable {P : κ → Prop}

/-- **Whatever is answered, every command the program issues satisfies `P`.** -/
def Issues (P : κ → Prop) (p : Prog κ ρ α) : Prop :=
  ∀ rs c next, p.resume rs = some (call c next) → P c

@[simp] theorem issues_done (a : α) : Issues P (done a : Prog κ ρ α) := by
  intro rs c next h
  cases rs <;> cases h

theorem issues_call {c : κ} {next : ρ → Prog κ ρ α} (hc : P c) (hnext : ∀ r, Issues P (next r)) :
    Issues P (call c next) := by
  intro rs d next' h
  cases rs with
  | nil => cases h; exact hc
  | cons r rs => exact hnext r rs d next' h

theorem Issues.first {c : κ} {next : ρ → Prog κ ρ α} (h : Issues P (call c next)) : P c :=
  h [] c next rfl

theorem Issues.rest {c : κ} {next : ρ → Prog κ ρ α} (h : Issues P (call c next)) (r : ρ) :
    Issues P (next r) :=
  fun rs d next' hrest => h (r :: rs) d next' hrest

/-- The commands of two programs in sequence, where the first ensures what the second needs. -/
theorem Issues.bind {f : α → Prog κ ρ β} :
    ∀ {p : Prog κ ρ α}, Issues P p → Ensures Q p → (∀ a, Q a → Issues P (f a)) →
      Issues P (p.bind f)
  | done a, _, hq, hf => hf a hq
  | call _ _, hp, hq, hf =>
    issues_call hp.first fun r => Issues.bind (hp.rest r) (hq.2 r () trivial) hf

theorem Issues.map {f : α → β} {p : Prog κ ρ α} (h : Issues P p) : Issues P (p.map f) :=
  h.bind (Ensures.of_forall (Q := fun _ => True) (fun _ => trivial) p) fun _ _ => issues_done _

/-- The program ends in `a` when the runner answers each command as `answers` allows. -/
inductive Yields (answers : κ → ρ → Prop) : Prog κ ρ α → α → Prop
  | done (a : α) : Yields answers (done a) a
  | call {c : κ} {next : ρ → Prog κ ρ α} {r : ρ} {a : α} (hr : answers c r)
      (h : Yields answers (next r) a) : Yields answers (call c next) a

variable {answers : κ → ρ → Prop}

theorem Yields.bind {f : α → Prog κ ρ β} {a : α} {b : β} {p : Prog κ ρ α} (h : Yields answers p a)
    (hf : Yields answers (f a) b) : Yields answers (p.bind f) b := by
  induction h with
  | done => exact hf
  | call hr _ ih => exact .call hr (ih hf)

theorem Yields.map {f : α → β} {a : α} {p : Prog κ ρ α} (h : Yields answers p a) :
    Yields answers (p.map f) (f a) :=
  h.bind (.done (f a))

/-- A program that meets a contract on these answers ends in nothing else. -/
theorem Yields.post {p : Prog κ ρ α} {a : α} (h : Yields answers p a)
    (hp : Meets (⟨fun _ _ => True, fun _ c r _ => answers c r, fun _ a => Q a⟩ :
      Contract Unit κ ρ α) () p) : Q a := by
  induction h with
  | done => exact hp
  | call hr _ ih => exact ih (hp.2 _ () hr)

/-! ## Histories -/

/-- The commands of a run with their answers. -/
def trace : Prog κ ρ α → List ρ → List (κ × ρ)
  | call c next, r :: rs => (c, r) :: (next r).trace rs
  | done _, _ => []
  | call _ _, [] => []

/-- **A contract on histories**: which command may follow which commands and answers, and what
must hold of the result after all of them.  The environment answers as it likes. -/
def onHistory (may : List (κ × ρ) → κ → Prop) (post : List (κ × ρ) → α → Prop) :
    Contract (List (κ × ρ)) κ ρ α :=
  ⟨may, fun history c r next => next = history ++ [(c, r)], post⟩

variable {may : List (κ × ρ) → κ → Prop} {post : List (κ × ρ) → α → Prop}

theorem Meets.issued : ∀ {p : Prog κ ρ α} {history : List (κ × ρ)} {rs : List ρ} {c : κ}
    {next : ρ → Prog κ ρ α}, Meets (onHistory may post) history p →
      p.resume rs = some (Prog.call c next) → may (history ++ p.trace rs) c
  | done _, _, [], _, _, _, hr => by cases hr
  | done _, _, _ :: _, _, _, _, hr => by cases hr
  | call _ _, _, [], _, _, h, hr => by
    cases hr
    rw [trace, List.append_nil]
    exact h.1
  | call c next, history, r :: rs, _, _, h, hr => by
    have hlater := Meets.issued (h.2 r _ rfl) hr
    rwa [List.append_assoc] at hlater

theorem Meets.ended : ∀ {p : Prog κ ρ α} {history : List (κ × ρ)} {rs : List ρ} {a : α},
    Meets (onHistory may post) history p → p.run rs = some a → post (history ++ p.trace rs) a
  | done _, _, [], _, h, hr => by
    cases hr
    rw [trace, List.append_nil]
    exact h
  | done _, _, _ :: _, _, _, hr => by cases hr
  | call _ _, _, [], _, _, hr => by cases hr
  | call c next, history, r :: rs, _, h, hr => by
    have hlater := Meets.ended (h.2 r _ rfl) hr
    rwa [List.append_assoc] at hlater

end Prog

end AzazelEdge.Lib
