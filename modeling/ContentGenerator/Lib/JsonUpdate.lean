import ContentGenerator.Lib.JsonMerge

/-!
# What an update holds under a key

`d.update(patch)` holds under a key what the patch does, else what the dictionary did (`get_update`). No
dictionary holds itself (`get_ne_self`).
-/

namespace ContentGenerator.Lib.JsonObject

open List Option

variable {field : String × Json} {value : Json} {d patch : JsonObject} {key : String}

theorem get_isSome_iff : (get d key).isSome ↔ key ∈ d.map Prod.fst := by
  rw [← ne_none_iff_isSome, Ne, get_eq_none_iff, List.mem_map]
  simp only [ne_eq, not_forall, not_not, exists_prop]

theorem mem_of_get (h : get d key = some value) : (key, value) ∈ d := by
  obtain ⟨field, hfield, rfl⟩ := map_eq_some_iff.mp h
  have hmatch := find?_some hfield
  rw [← of_decide_eq_true hmatch]
  exact mem_of_find?_eq_some hfield

/-- A dictionary is not among its own values. -/
theorem get_ne_self (d : JsonObject) (key : String) : get d key ≠ some (.obj d) := by
  intro hself
  have hlt := sizeOf_lt_of_mem (mem_of_get hself)
  simp only [Prod.mk.sizeOf_spec, Json.obj.sizeOf_spec] at hlt
  omega

/-! ### Updates -/

theorem Distinct.update (h : Distinct d) (patch : JsonObject) : Distinct (d.update patch) := by
  induction patch generalizing d with
  | nil => exact h
  | cons field rest ih =>
    rw [update_cons]
    exact ih (h.set _ _)

theorem get_update (hpatch : Distinct patch) (d : JsonObject) (key : String) :
    get (update d patch) key = (get patch key).or (get d key) := by
  induction patch generalizing d with
  | nil => rfl
  | cons field rest ih =>
    rw [update_cons, ih hpatch.tail, get_set, get_cons]
    by_cases hkey : field.1 = key
    · have hrest : get rest key = none := hkey ▸ hpatch.get_tail
      rw [hrest, none_or, if_pos hkey.symm, if_pos hkey, some_or]
    · rw [if_neg (Ne.symm hkey), if_neg hkey]

/-- The fields of a dictionary after an assignment. -/
theorem mem_set (h : field ∈ set d key value) :
    field ∈ d ∨ field = (key, value) := by
  unfold set at h
  split_ifs at h
  · obtain ⟨old, hold, rfl⟩ := List.mem_map.mp h
    split_ifs
    · exact .inr rfl
    · exact .inl hold
  · rcases mem_append.mp h with hold | hnew
    · exact .inl hold
    · exact .inr (mem_singleton.mp hnew)

theorem mem_update (h : field ∈ update d patch) : field ∈ d ∨ field ∈ patch := by
  induction patch generalizing d with
  | nil => exact .inl h
  | cons head rest ih =>
    rw [update_cons] at h
    rcases ih h with hset | hrest
    · rcases mem_set hset with hold | rfl
      · exact .inl hold
      · exact .inr mem_cons_self
    · exact .inr (mem_cons_of_mem _ hrest)

end ContentGenerator.Lib.JsonObject
