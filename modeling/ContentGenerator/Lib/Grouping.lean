import Mathlib.Data.List.Nodup
import Mathlib.Data.List.Perm.Basic

/-!
# Lists grouped by a key

`groupsOf` is the dictionary of lists that `setdefault(key, []).append(value)` fills: every key once
(`Grouped.nodup`), the values of a key in its list (`Grouped.key_eq`), and all values in some list
(`perm_groupsOf`). `Grouped.foldl_induction` is the induction rule of a loop over the groups with a loop over
the values of each group in it: one invariant between the groups, one inside of a group, and a local state that
every group starts afresh.
-/

namespace ContentGenerator.Lib

open List

open Prod (fst snd)

variable {A κ σ τ : Type*} [DecidableEq κ] {key : A → κ}

/-- `groups.setdefault(k, []).append(a)`. -/
def addToGroup (k : κ) (a : A) : List (κ × List A) → List (κ × List A)
  | [] => [(k, [a])]
  | group :: rest => if group.1 = k then (k, group.2 ++ [a]) :: rest else group :: addToGroup k a rest

def groupsOf (key : A → κ) (values : List A) : List (κ × List A) :=
  values.foldl (fun groups a ↦ addToGroup (key a) a groups) []

structure Grouped (key : A → κ) (groups : List (κ × List A)) : Prop where
  nodup : (groups.map fst).Nodup
  key_eq : ∀ group ∈ groups, ∀ a ∈ group.2, key a = group.1

theorem mem_keys_addToGroup {k k' : κ} {a : A} {groups : List (κ × List A)} :
    k' ∈ (addToGroup k a groups).map fst ↔ k' = k ∨ k' ∈ groups.map fst := by
  induction groups with
  | nil => simp [addToGroup]
  | cons group rest ih =>
    unfold addToGroup
    by_cases hkey : group.1 = k
    · rw [if_pos hkey, map_cons, map_cons, mem_cons, mem_cons, hkey, or_self_left]
    · rw [if_neg hkey, map_cons, map_cons, mem_cons, mem_cons, ih, or_left_comm]

theorem perm_addToGroup (k : κ) (a : A) (groups : List (κ × List A)) :
    ((addToGroup k a groups).flatMap snd).Perm (groups.flatMap snd ++ [a]) := by
  induction groups with
  | nil => exact List.Perm.refl _
  | cons group rest ih =>
    unfold addToGroup
    by_cases hkey : group.1 = k
    · rw [if_pos hkey, flatMap_cons, flatMap_cons, append_assoc, append_assoc]
      exact perm_append_comm.append_left _
    · rw [if_neg hkey, flatMap_cons, flatMap_cons, append_assoc]
      exact ih.append_left _

theorem Grouped.addToGroup {groups : List (κ × List A)} (h : Grouped key groups) (a : A) :
    Grouped key (addToGroup (key a) a groups) := by
  induction groups with
  | nil => exact ⟨nodup_singleton _, by simp [Lib.addToGroup]⟩
  | cons group rest ih =>
    have hnodup := nodup_cons.mp h.nodup
    have hrest : Grouped key rest := ⟨hnodup.2, fun other hother ↦ h.key_eq other (mem_cons_of_mem _ hother)⟩
    have hgroup := h.key_eq group mem_cons_self
    unfold Lib.addToGroup
    by_cases hkey : group.1 = key a
    · rw [if_pos hkey]
      refine ⟨by simpa [← hkey] using hnodup, fun other hother b hb ↦ ?_⟩
      rcases mem_cons.mp hother with rfl | hother
      · rcases mem_append.mp hb with hb | hb
        · exact (hgroup b hb).trans hkey
        · rw [mem_singleton.mp hb]
      · exact hrest.key_eq other hother b hb
    · rw [if_neg hkey]
      refine ⟨nodup_cons.mpr ⟨?_, (ih hrest).nodup⟩, fun other hother ↦ ?_⟩
      · rw [mem_keys_addToGroup, not_or]
        exact ⟨hkey, hnodup.1⟩
      · rcases mem_cons.mp hother with rfl | hother
        · exact hgroup
        · exact (ih hrest).key_eq other hother

theorem grouped_groupsOf (key : A → κ) (values : List A) : Grouped key (groupsOf key values) := by
  unfold groupsOf
  refine foldlRecOn values _ ⟨nodup_nil, by simp⟩ ?_
  exact fun groups hgroups a _ ↦ hgroups.addToGroup a

/-- Every value is in a group, as often as it is in the list. -/
theorem perm_groupsOf (key : A → κ) (values : List A) : ((groupsOf key values).flatMap snd).Perm values := by
  have hloop : ∀ groups : List (κ × List A),
      ((values.foldl (fun groups a ↦ addToGroup (key a) a groups) groups).flatMap snd).Perm
        (groups.flatMap snd ++ values) := by
    induction values with
    | nil => exact fun groups ↦ by rw [append_nil]; exact List.Perm.refl _
    | cons a rest ih =>
      intro groups
      refine (ih _).trans (((perm_addToGroup (key a) a groups).append_right rest).trans ?_)
      rw [append_assoc]
      exact List.Perm.refl _
  exact hloop []

omit [DecidableEq κ] in
theorem Grouped.perm {groups groups' : List (κ × List A)} (h : Grouped key groups) (hperm : groups.Perm groups') :
    Grouped key groups' where
  nodup := (hperm.map fst).nodup_iff.mp h.nodup
  key_eq := fun group hgroup ↦ h.key_eq group (hperm.mem_iff.mpr hgroup)

omit [DecidableEq κ] in
/-- The values of every group in another order. -/
theorem Grouped.mapValues {groups : List (κ × List A)} (h : Grouped key groups) {f : List A → List A}
    (hf : ∀ values, (f values).Perm values) : Grouped key (groups.map fun group ↦ (group.1, f group.2)) where
  nodup := by
    rw [map_map]
    exact h.nodup
  key_eq := by
    intro group hgroup a ha
    obtain ⟨old, hold, rfl⟩ := mem_map.mp hgroup
    exact h.key_eq old hold a ((hf old.2).mem_iff.mp ha)

omit [DecidableEq κ] in
theorem perm_flatMap_mapValues (groups : List (κ × List A)) {f : List A → List A}
    (hf : ∀ values, (f values).Perm values) :
    ((groups.map fun group ↦ (group.1, f group.2)).flatMap snd).Perm (groups.flatMap snd) := by
  rw [flatMap_map]
  exact List.Perm.flatMap_left groups fun group _ ↦ hf group.2

omit [DecidableEq κ] in
/-- A loop over the groups with a loop over the values of each: `between` holds of the state and of the values
done whenever a group is finished, `inside` within a group, where the local state starts with `fresh`. -/
theorem Grouped.foldl_induction {groups : List (κ × List A)} (h : Grouped key groups)
    (step : κ → σ × τ → A → σ × τ) (fresh : τ) (between : List A → σ → Prop) (inside : κ → List A → σ × τ → Prop)
    (henter : ∀ k done s, between done s → (∀ a ∈ done, key a ≠ k) → inside k done (s, fresh))
    (hstep : ∀ k done a rest st, groups.flatMap snd = done ++ a :: rest → key a = k → inside k done st →
      inside k (done ++ [a]) (step k st a))
    (hleave : ∀ k done st, inside k done st → between done st.1) {start : σ} (hstart : between [] start) :
    between (groups.flatMap snd)
      (groups.foldl (fun s group ↦ (group.2.foldl (step group.1) (s, fresh)).1) start) := by
  -- one group, whose values follow those that are done
  have hgroup : ∀ k values done rest st, groups.flatMap snd = done ++ (values ++ rest) →
      (∀ a ∈ values, key a = k) → inside k done st → inside k (done ++ values) (values.foldl (step k) st) := by
    intro k values
    induction values with
    | nil =>
      intro done rest st _ _ hinside
      rw [append_nil]
      exact hinside
    | cons a values ih =>
      intro done rest st hall hkeys hinside
      rw [foldl_cons, append_cons]
      refine ih (done ++ [a]) rest _ (by rw [hall, cons_append, append_cons]) (fun b hb ↦
        hkeys b (mem_cons_of_mem a hb)) ?_
      exact hstep k done a (values ++ rest) st (by rw [hall, cons_append]) (hkeys a mem_cons_self) hinside
  have hloop : ∀ after before s, groups = before ++ after → between (before.flatMap snd) s →
      between (groups.flatMap snd)
        (after.foldl (fun s group ↦ (group.2.foldl (step group.1) (s, fresh)).1) s) := by
    intro after
    induction after with
    | nil =>
      intro before s hall hbetween
      rw [hall, append_nil]
      exact hbetween
    | cons group after ih =>
      intro before s hall hbetween
      rw [foldl_cons]
      refine ih (before ++ [group]) _ (by rw [hall, append_cons]) ?_
      rw [flatMap_append, flatMap_singleton]
      have hmem : group ∈ groups := hall ▸ mem_append_right before mem_cons_self
      refine hleave group.1 _ _ (hgroup group.1 group.2 _ (after.flatMap snd) _ ?_ (h.key_eq group hmem)
        (henter group.1 _ s hbetween ?_))
      · rw [hall, flatMap_append, flatMap_cons]
      · -- an earlier group has another key
        intro a ha hkey
        obtain ⟨other, hother, haother⟩ := mem_flatMap.mp ha
        have hnodup := h.nodup
        rw [hall, map_append, map_cons] at hnodup
        have hapart := disjoint_of_nodup_append hnodup
        refine hapart (mem_map_of_mem hother) ?_
        rw [← h.key_eq other (hall ▸ mem_append_left _ hother) a haother, hkey]
        exact mem_cons_self
  exact hloop groups [] start rfl hstart

end ContentGenerator.Lib
