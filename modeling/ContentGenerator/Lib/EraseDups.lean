import Mathlib.Data.List.Nodup

/-!
# Lists without repetitions

`List.eraseDups` keeps every element at its first place. What is left has no repetition
(`nodup_eraseDups`), a list without repetitions is kept (`eraseDups_of_nodup`), and how many elements are
left does not depend on the order (`length_eraseDups_perm`).
-/

namespace ContentGenerator.Lib

open List

variable {N : Type*} [DecidableEq N]

theorem nodup_eraseDups : (nodes : List N) → nodes.eraseDups.Nodup
  | [] => nodup_nil
  | node :: rest => by
    rw [eraseDups_cons, nodup_cons, mem_eraseDups]
    exact ⟨by simp, nodup_eraseDups _⟩
termination_by nodes => nodes.length
decreasing_by exact Nat.lt_succ_of_le (length_filter_le _ _)

theorem eraseDups_of_nodup {nodes : List N} (h : nodes.Nodup) : nodes.eraseDups = nodes := by
  induction nodes with
  | nil => rfl
  | cons node rest ih =>
    rw [nodup_cons] at h
    have hrest : (rest.filter fun other ↦ !other == node) = rest := by
      refine filter_eq_self.mpr fun other hother ↦ ?_
      have hne : other ≠ node := fun heq ↦ h.1 (heq ▸ hother)
      simpa using hne
    rw [eraseDups_cons, hrest, ih h.2]

/-- The number of distinct elements does not depend on the order. -/
theorem length_eraseDups_perm {nodes nodes' : List N} (h : nodes.Perm nodes') :
    nodes.eraseDups.length = nodes'.eraseDups.length := by
  refine ((perm_ext_iff_of_nodup (nodup_eraseDups nodes) (nodup_eraseDups nodes')).mpr
    fun node ↦ ?_).length_eq
  rw [mem_eraseDups, mem_eraseDups, h.mem_iff]

end ContentGenerator.Lib
