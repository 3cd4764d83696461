import Mathlib.Data.Nat.Notation
import Mathlib.Logic.Relation

/-!
# Rows with a version column

A session loads a row, works on its copy, and writes it back under the condition that the stored
version is still the one it has loaded; every such write takes the version further. A bulk update may
change a row without changing the version. `Tracks` is what a copy says about the stored row: as long
as the versions are the same, the two are related by what bulk updates leave alone. It survives both
kinds of write (`Tracks.written`, `Tracks.updated`).
-/

namespace ContentGenerator.Lib

variable {ρ : Type*}

/-- The copy is not newer than the stored row, and related to it when the versions are the same. -/
structure Tracks (version : ρ → ℕ) (related : ρ → ρ → Prop) (copy stored : ρ) : Prop where
  le : version copy ≤ version stored
  same : version copy = version stored → related copy stored

variable {version : ρ → ℕ} {related : ρ → ρ → Prop} {copy stored stored' : ρ}

/-- The copy has just been loaded or written. -/
theorem Tracks.current (hversion : version copy = version stored) (hrelated : related copy stored) :
    Tracks version related copy stored where
  le := Nat.le_of_eq hversion
  same := fun _ ↦ hrelated

/-- Somebody has written the row under its version. -/
theorem Tracks.written (h : Tracks version related copy stored)
    (hlt : version stored < version stored') : Tracks version related copy stored' where
  le := Nat.le_trans h.le (Nat.le_of_lt hlt)
  same := fun heq ↦ absurd (heq ▸ h.le) (Nat.not_le_of_lt hlt)

/-- A bulk update has changed the row. -/
theorem Tracks.updated (h : Tracks version related copy stored)
    (hversion : version stored' = version stored)
    (hbulk : related copy stored → related copy stored') : Tracks version related copy stored' where
  le := hversion.symm ▸ h.le
  same := fun heq ↦ hbulk (h.same (heq.trans hversion))

/-- A copy that somebody has overtaken is never current again. -/
theorem Tracks.ne_of_written (h : Tracks version related copy stored)
    (hlt : version stored < version stored') : version copy ≠ version stored' :=
  Nat.ne_of_lt (Nat.lt_of_le_of_lt h.le hlt)

end ContentGenerator.Lib
