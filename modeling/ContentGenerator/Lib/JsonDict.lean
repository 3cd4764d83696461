import ContentGenerator.Lib.PyValue

/-!
# What a dictionary holds under a key

`JsonObject.Holds d key value`: the key is there and every entry of it is the value. For a dictionary without
duplicate keys this is `get d key = some value`; as a statement about all entries it goes through assignment,
`update` and `setdefault` whatever the other fields are.
-/

namespace ContentGenerator.Lib.JsonObject

open List Option

def Holds (d : JsonObject) (key : String) (value : Json) : Prop :=
  (∃ field ∈ d, field.1 = key) ∧ ∀ field ∈ d, field.1 = key → field.2 = value

variable {d patch : JsonObject} {key key' : String} {value : Json}

theorem Holds.get (h : Holds d key value) : get d key = some value := by
  obtain ⟨⟨field, hfield, hkey⟩, hall⟩ := h
  unfold JsonObject.get
  cases hfind : d.find? fun field ↦ field.1 = key with
  | none => exact absurd (decide_eq_true hkey) (find?_eq_none.mp hfind field hfield)
  | some found =>
    have hmatch := find?_some hfind
    exact congrArg some (hall found (mem_of_find?_eq_some hfind) (of_decide_eq_true hmatch))

theorem get_eq_none_iff : d.get key = none ↔ ∀ field ∈ d, field.1 ≠ key := by
  simp only [JsonObject.get, map_eq_none_iff, find?_eq_none, decide_eq_true_eq, ne_eq]

theorem holds_set_self (d : JsonObject) (key : String) (value : Json) : Holds (set d key value) key value := by
  unfold JsonObject.set
  split_ifs with hpresent
  · have hmapped : ∀ field ∈ d.map (fun field ↦ if field.1 = key then (key, value) else field),
        field.1 = key → field.2 = value := by
      intro field hfield hkey
      obtain ⟨old, -, rfl⟩ := List.mem_map.mp hfield
      by_cases hold : old.1 = key
      · rw [if_pos hold]
      · rw [if_neg hold] at hkey
        exact absurd hkey hold
    obtain ⟨found, hfound⟩ := isSome_iff_exists.mp hpresent
    obtain ⟨field, hfind, -⟩ := map_eq_some_iff.mp hfound
    have hmatch := find?_some hfind
    refine ⟨⟨(key, value), List.mem_map.mpr ⟨field, mem_of_find?_eq_some hfind, ?_⟩, rfl⟩, hmapped⟩
    exact if_pos (of_decide_eq_true hmatch)
  · rw [not_isSome_iff_eq_none, get_eq_none_iff] at hpresent
    refine ⟨⟨(key, value), mem_append_right _ (mem_singleton_self _), rfl⟩, ?_⟩
    intro field hfield hkey
    rcases mem_append.mp hfield with hold | hnew
    · exact absurd hkey (hpresent field hold)
    · rw [mem_singleton.mp hnew]

theorem Holds.set (h : Holds d key value) (value' : Json) (hkey : key ≠ key') :
    Holds (set d key' value') key value := by
  obtain ⟨⟨field, hfield, hfieldKey⟩, hall⟩ := h
  unfold JsonObject.set
  split_ifs
  · refine ⟨⟨field, List.mem_map.mpr ⟨field, hfield, if_neg ?_⟩, hfieldKey⟩, ?_⟩
    · rw [hfieldKey]
      exact hkey
    · intro mapped hmapped hmappedKey
      obtain ⟨old, hold, rfl⟩ := List.mem_map.mp hmapped
      by_cases holdKey : old.1 = key'
      · rw [if_pos holdKey] at hmappedKey
        exact absurd hmappedKey.symm hkey
      · rw [if_neg holdKey] at hmappedKey ⊢
        exact hall old hold hmappedKey
  · refine ⟨⟨field, mem_append_left _ hfield, hfieldKey⟩, fun other hother hotherKey ↦ ?_⟩
    rcases mem_append.mp hother with hold | hnew
    · exact hall other hold hotherKey
    · rw [mem_singleton.mp hnew] at hotherKey
      exact absurd hotherKey.symm hkey

theorem update_cons (d : JsonObject) (field : String × Json) (rest : JsonObject) :
    update d (field :: rest) = update (set d field.1 field.2) rest := rfl

theorem Holds.update (h : Holds d key value) (hpatch : patch.get key = none) :
    Holds (update d patch) key value := by
  rw [get_eq_none_iff] at hpatch
  induction patch generalizing d with
  | nil => exact h
  | cons field rest ih =>
    refine ih (h.set field.2 (Ne.symm (hpatch field mem_cons_self))) fun other hother ↦ ?_
    exact hpatch other (mem_cons_of_mem _ hother)

theorem Holds.update_patch (h : Holds patch key value) (d : JsonObject) :
    Holds (d.update patch) key value := by
  obtain ⟨hmem, hall⟩ := h
  induction patch generalizing d with
  | nil =>
    obtain ⟨field, hfield, -⟩ := hmem
    simp at hfield
  | cons head rest ih =>
    rw [update_cons]
    by_cases hrest : ∃ field ∈ rest, field.1 = key
    · exact ih _ hrest fun other hother ↦ hall other (mem_cons_of_mem _ hother)
    · obtain ⟨field, hfield, hkey⟩ := hmem
      have hlast : field = head := (mem_cons.mp hfield).resolve_right fun hin ↦ hrest ⟨field, hin, hkey⟩
      rw [← hlast, hkey, hall field hfield hkey]
      refine (holds_set_self d key value).update (get_eq_none_iff.mpr fun other hother hotherKey ↦ ?_)
      exact hrest ⟨other, hother, hotherKey⟩

theorem Holds.setDefault (h : Holds d key value) (default : Json) :
    Holds (setDefault d key' default) key value := by
  unfold JsonObject.setDefault
  split_ifs with hpresent
  · exact h
  · have hne : key ≠ key' := by
      rintro rfl
      rw [h.get] at hpresent
      exact hpresent rfl
    have hset : Holds (d.set key' default) key value := h.set default hne
    rw [JsonObject.set, if_neg hpresent] at hset
    exact hset

end ContentGenerator.Lib.JsonObject
