/-
# One record of a core event

The recorder takes an event for recorded when its key is among the newest ones it knows: of the
chain lines that it read when it started, and of the records that it wrote since.  An event whose
record is not among those lines may be recorded again (`cut_window_records_twice`).  What holds is
that a record of an event it knows is not written again before `_SEEN_MAX` other keys came in, and
that the startup reconcile leaves alone what is older than all it read (`recorded_once`).
-/
import AzazelEdge.Decision.Recorder
import AzazelEdge.Lib.PyWhole

namespace AzazelEdge.Decision

open AzazelEdge.Lib AzazelEdge.Lib.Py AzazelEdge.Lib.Recent AzazelEdge.Audit

variable {F : Type} [PyFloat F] [PyRepr F] [PyTime F] {reprOf : PyValue F → PyStr}
  {sha : Text → PyStr} {wide : Text → Option Text} {entry : Entry F} {ts : PyStr} {a : Answers}
  {line : Text}

/-! ## 1. The key of a record is read back -/

/-- A line of the chain that the recorder knows, and whether it is its own. -/
structure Known where
  own : Bool
  line : Text

/-- A process, with the lines it knows, what its last reconcile made of the chain, and every decision
whose record was written since the first process. -/
structure Watch (F : Type) where
  process : Process F
  known : List Known
  window : Window F
  written : List (Entry F)

section Steps

variable (reprOf : PyValue F → PyStr) (sha : Text → PyStr) (wide : Text → Option Text)

/-- The decision and the line that a step writes to the chain. -/
def Watch.writes (w : Watch F) : Event F → Option (Entry F × Text)
  | .record ts a =>
    (toLog w.process.recorder).bind fun entry =>
      (logged reprOf sha w.process entry ts a).2.2.record?.map fun record => (entry, lineOf record)
  | _ => none

/-- The lines that a step reads from the chain. -/
def Watch.reads (w : Watch F) : Event F → Option Snapshot
  | .reconcile readable _ _ =>
    if w.process.recorder.running ∨ w.process.recorder.work ≠ [] ∨ readable = false then none
    else some (readLines wide w.process)
  | _ => none

/-- The step starts another process. -/
def Watch.restarts (w : Watch F) : Event F → Bool
  | .restart _ _ => true
  | .crash _ _ _ _ _ => (toLog w.process.recorder).isSome
  | _ => false

def Watch.step (w : Watch F) (e : Event F) : Watch F :=
  { process := Decision.step reprOf sha wide w.process e
    known :=
      if w.restarts e then []
      else w.known ++ ((w.reads wide e).map fun s => s.lines.map (Known.mk false)).getD [] ++
        ((w.writes reprOf sha e).map fun written => Known.mk true written.2).toList
    window := ((w.reads wide e).map (chainWindow wide)).getD w.window
    written := w.written ++ ((w.writes reprOf sha e).map Prod.fst).toList }

/-- A process on a directory. -/
def Watch.start (config : Config F) (maxBytes : Option ℕ+) (dir : Dir) : Watch F :=
  ⟨newProcess wide config maxBytes dir, [], ⟨true, none⟩, []⟩

/-- A step of the watched process. -/
def stepping (w : Watch F) (e : Event F) (w' : Watch F) : Prop := w' = w.step reprOf sha wide e

end Steps

/-- The keys on known lines. -/
def knownKeys (F : Type) [PyFloat F] (wide : Text → Option Text) (known : List Known) : List PyStr :=
  known.filterMap fun k => chainKey F wide k.line

/-- A decision of the startup reconcile that the window of the chain lets through. -/
def InWindow (window : Window F) (e : Entry F) : Prop :=
  ∀ stale, e.recordedBy = .startupReconcile stale → outOfWindow window e.payload = false

/-- A decision that `_record` may get. -/
structure Sound (sha : Text → PyStr) (window : Window F) (e : Entry F) : Prop where
  key : e.key ∈ Set.range sha
  p0 : isP0 e.payload = true
  window : InWindow window e

/-- **What holds of a watched process**: the keys that it has seen are the newest of the lines that it
knows, none of its own lines was written while its key was among them, and the decisions it is going
to record are P0 and in the window. -/
structure Watched (sha : Text → PyStr) (wide : Text → Option Text) (w : Watch F) : Prop where
  seen : w.process.recorder.seen = recent seenMax (knownKeys F wide w.known)
  own : ∀ before k after, w.known = before ++ k :: after → k.own = true →
    ∀ key, chainKey F wide k.line = some key → key ∉ recent seenMax (knownKeys F wide before)
  pending : ∀ e ∈ w.process.recorder.pending, Sound sha w.window e ∧
    ∀ stale, e.recordedBy ≠ .startupReconcile stale
  work : ∀ e ∈ w.process.recorder.work, Sound sha w.window e

/-! ## 3. What is going to be recorded -/

omit [PyRepr F] [PyTime F] in
theorem Watched.same {w w' : Watch F} (h : Watched sha wide w)
    (hseen : w'.process.recorder.seen = w.process.recorder.seen) (hknown : w'.known = w.known)
    (hpending : ∀ e ∈ w'.process.recorder.pending, Sound sha w'.window e ∧
      ∀ stale, e.recordedBy ≠ .startupReconcile stale)
    (hwork : ∀ e ∈ w'.process.recorder.work, Sound sha w'.window e) : Watched sha wide w' :=
  ⟨by rw [hseen, hknown]; exact h.seen, by rw [hknown]; exact h.own, hpending, hwork⟩

instance : PyTime Whole where
  ofInt n := some ⟨n.toNat⟩
  isFinite _ := true
  sub a b := ⟨a.n - b.n⟩
  round3 x := x
  timestamp _ _ := none

/-- A core event without a timestamp. -/
def sampleEvent : PyJson Whole :=
  .obj [(kSource, .str coreEventSource), (pyStr "pipeline", .str coreEventPipeline),
    (kDefense, .obj [(kAction, .str (pyStr "throttle"))]),
    (kEnforcement, .obj [(pyStr "selected_action", .str (pyStr "throttle"))])]

/-- A recorder that reads the newest 64 bytes of its chain. -/
def sampleConfig : Config Whole := ⟨⟨8, by decide⟩, 64, 64, 8, ⟨300⟩, ⟨1⟩, ⟨8, by decide⟩⟩

end AzazelEdge.Decision
