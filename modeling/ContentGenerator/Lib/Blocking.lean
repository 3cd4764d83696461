import Mathlib.Logic.Relation
import Mathlib.Order.WellFounded

/-!
# Waiting in an acyclic graph

Nodes that wait for each other: one kind needs all the nodes it waits for, the other kind any one of
them. A node is blocked when it is dead, when it needs all and one of them is blocked, and when it
needs one and all of them are. Where waiting is well founded, some node that is not blocked is free,
that is not dead and waiting for nothing: `exists_not_blocked_iff`.
-/

namespace ContentGenerator.Lib

structure WaitsFor (α : Type*) where
  dead : α → Prop
  needsAll : α → Prop
  waits : α → α → Prop

namespace WaitsFor

variable {α : Type*} {w : WaitsFor α}

/-- Nothing the node waits for can release it. -/
inductive Blocked (w : WaitsFor α) : α → Prop
  | dead (a : α) (hdead : w.dead a) : Blocked w a
  | one (a b : α) (hall : w.needsAll a) (hwaits : w.waits a b) (hblocked : Blocked w b) : Blocked w a
  | every (a : α) (hone : ¬ w.needsAll a) (hwaits : ∃ b, w.waits a b)
      (hblocked : ∀ b, w.waits a b → Blocked w b) : Blocked w a

def Free (w : WaitsFor α) (a : α) : Prop := ¬ w.dead a ∧ ∀ b, ¬ w.waits a b

theorem Free.not_blocked {a : α} (h : w.Free a) : ¬ w.Blocked a := by
  rintro (⟨_, hdead⟩ | ⟨_, b, _, hwaits, _⟩ | ⟨_, _, ⟨b, hwaits⟩, _⟩)
  · exact h.1 hdead
  · exact h.2 b hwaits
  · exact h.2 b hwaits

/-- From a node that is not blocked, waiting leads to a free one. Assumes: waiting is well founded. -/
theorem exists_free (hwf : WellFounded fun b a ↦ w.waits a b) {a : α} (h : ¬ w.Blocked a) :
    ∃ b, Relation.ReflTransGen w.waits a b ∧ w.Free b := by
  induction a using hwf.induction with
  | _ a ih =>
    have hdead : ¬ w.dead a := fun hdead ↦ h (.dead a hdead)
    by_cases hnext : ∃ b, w.waits a b ∧ ¬ w.Blocked b
    · obtain ⟨b, hwaits, hblocked⟩ := hnext
      obtain ⟨c, hchain, hfree⟩ := ih b hwaits hblocked
      exact ⟨c, .head hwaits hchain, hfree⟩
    · -- whatever the node waits for is blocked, so it waits for nothing
      have hall : ∀ b, w.waits a b → w.Blocked b := fun b hwaits ↦
        not_not.mp fun hblocked ↦ hnext ⟨b, hwaits, hblocked⟩
      refine ⟨a, .refl, hdead, fun b hwaits ↦ h ?_⟩
      by_cases hneeds : w.needsAll a
      · exact .one a b hneeds hwaits (hall b hwaits)
      · exact .every a hneeds ⟨b, hwaits⟩ hall

/-- Among nodes that wait for each other only, some is not blocked exactly when some is free.
Assumes: waiting is well founded. -/
theorem exists_not_blocked_iff {P : α → Prop} (hwf : WellFounded fun b a ↦ w.waits a b)
    (hclosed : ∀ a b, P a → w.waits a b → P b) :
    (∃ a, P a ∧ ¬ w.Blocked a) ↔ ∃ a, P a ∧ w.Free a := by
  constructor
  · rintro ⟨a, ha, hblocked⟩
    obtain ⟨b, hchain, hfree⟩ := exists_free hwf hblocked
    have hb : P b := by
      clear hfree
      induction hchain with
      | refl => exact ha
      | tail _ hwaits ih => exact hclosed _ _ ih hwaits
    exact ⟨b, hb, hfree⟩
  · rintro ⟨a, ha, hfree⟩
    exact ⟨a, ha, hfree.not_blocked⟩

end WaitsFor

end ContentGenerator.Lib
