import ContentGenerator.Lib.JsonDict
import ContentGenerator.Lib.JsonKeys

/-!
# Merging dictionaries

`mergeFields old new` is `old` with the fields of `new` written over it, dictionaries under the same key
merged in turn; `mergeAll` merges a list of layers, the later over the earlier. A dictionary has one entry for
a key (`Distinct`), which every merge keeps.

Main results: `get_mergeFields`, what a merge has under a key; `get_mergeAll`, that a merge of layers has the
last value under a key, unless it is a dictionary; `dropFields_update`, that dropping unwanted keys goes
through an update.
-/

namespace ContentGenerator.Lib

open List Option Prod

variable {field : String × Json} {key : String} {new : JsonObject}

/-! ### One entry for a key -/

namespace JsonObject

/-- The keys are distinct, as those of a `dict` are. -/
def Distinct (d : JsonObject) : Prop := (d.map fst).Nodup

variable {d : JsonObject}

theorem distinct_nil : Distinct [] := nodup_nil

theorem Distinct.set (h : Distinct d) (key : String) (value : Json) : Distinct (set d key value) := by
  unfold JsonObject.set
  split_ifs with hpresent
  · have hkeys : (d.map fun field ↦ if field.1 = key then (key, value) else field).map fst =
        d.map fst := by
      rw [List.map_map]
      refine map_congr_left fun field _ ↦ ?_
      rw [Function.comp_apply]
      split_ifs with hkey
      · exact hkey.symm
      · rfl
    exact (congrArg List.Nodup hkeys).mpr h
  · rw [not_isSome_iff_eq_none, get_eq_none_iff] at hpresent
    unfold Distinct
    rw [map_append, nodup_append]
    refine ⟨h, nodup_singleton _, fun name hname name' hlast ↦ ?_⟩
    obtain ⟨field, hfield, rfl⟩ := List.mem_map.mp hname
    rw [mem_singleton.mp hlast]
    exact hpresent field hfield

theorem Distinct.tail (h : Distinct (field :: d)) : Distinct d :=
  (nodup_cons.mp h).2

/-- The first key of a dictionary does not come again. -/
theorem Distinct.get_tail (h : Distinct (field :: d)) : get d field.1 = none := by
  rw [get_eq_none_iff]
  exact fun other hother hkey ↦ (nodup_cons.mp h).1 (hkey ▸ List.mem_map_of_mem hother)

end JsonObject

open JsonObject

namespace Json

/-! ### Merging -/

mutual

/-- A value written over another: two dictionaries are merged. -/
def mergeValue (old : Json) : Json → Json
  | .obj fields =>
    match old with
    | .obj oldFields => .obj (mergeFields oldFields fields)
    | _ => .obj fields
  | .arr items => .arr items
  | .null => .null
  | .bool value => .bool value
  | .int value => .int value
  | .float value => .float value
  | .str value => .str value

/-- The fields of a dictionary written over another one. -/
def mergeFields (old : JsonObject) : JsonObject → JsonObject
  | [] => old
  | (key, value) :: fields =>
    mergeFields (old.set key
      (match old.get key with
        | some previous => mergeValue previous value
        | none => value)) fields

end

def mergeAll (layers : List JsonObject) : JsonObject := layers.foldl mergeFields []

def IsObj : Json → Prop
  | .obj _ => True
  | _ => False

instance : DecidablePred IsObj := fun value ↦
  match value with
  | .obj _ => .isTrue trivial
  | .arr _ | .null | .bool _ | .int _ | .float _ | .str _ => .isFalse id

theorem mergeValue_of_not_isObj (old : Json) {value : Json} (h : ¬ IsObj value) : mergeValue old value = value := by
  cases value with
  | obj fields => exact absurd trivial h
  | _ => rw [mergeValue]

theorem distinct_mergeFields {old : JsonObject} (h : Distinct old) (new : JsonObject) :
    Distinct (mergeFields old new) := by
  induction new generalizing old with
  | nil =>
    rw [mergeFields]
    exact h
  | cons field rest ih =>
    obtain ⟨key, value⟩ := field
    rw [mergeFields]
    exact ih (h.set key _)

theorem distinct_mergeAll (layers : List JsonObject) : Distinct (mergeAll layers) := by
  unfold mergeAll
  induction layers using reverseRecOn with
  | nil => exact distinct_nil
  | append_singleton before layer ih =>
    rw [foldl_append]
    exact distinct_mergeFields ih layer

theorem get_mergeFields (h : Distinct new) (old : JsonObject) (key : String) :
    (mergeFields old new).get key =
      match new.get key with
      | none => old.get key
      | some value => some (match old.get key with
        | some previous => mergeValue previous value
        | none => value) := by
  induction new generalizing old with
  | nil => rw [mergeFields, get_nil]
  | cons field rest ih =>
    obtain ⟨name, value⟩ := field
    have hrest := h.get_tail
    rw [mergeFields, ih h.tail, get_cons]
    by_cases hkey : name = key
    · subst hkey
      rw [hrest, if_pos rfl, get_set_self]
    · rw [if_neg hkey, get_set_of_ne _ _ (Ne.symm hkey)]

/-- Under a key at which the new dictionary holds no dictionary, its value wins. -/
theorem get_mergeFields_of_not_isObj (h : Distinct new) (old : JsonObject)
    (hplain : ∀ value, new.get key = some value → ¬ IsObj value) :
    (mergeFields old new).get key = (new.get key).or (old.get key) := by
  rw [get_mergeFields h]
  cases hnew : new.get key with
  | none => rfl
  | some value =>
    cases old.get key with
    | none => rfl
    | some previous => exact congrArg some (mergeValue_of_not_isObj previous (hplain value hnew))

def lastOf (layers : List JsonObject) (key : String) : Option Json :=
  layers.foldl (fun last layer ↦ (layer.get key).or last) none

theorem get_mergeAll {layers : List JsonObject} (hdistinct : ∀ layer ∈ layers, Distinct layer)
    (hplain : ∀ value, lastOf layers key = some value → ¬ IsObj value) :
    (mergeAll layers).get key = lastOf layers key := by
  unfold mergeAll lastOf at *
  induction layers using reverseRecOn with
  | nil => rfl
  | append_singleton before layer ih =>
    have hlast : Distinct layer := hdistinct layer (mem_append_right _ (mem_singleton_self layer))
    rw [foldl_append, foldl_cons, foldl_nil] at hplain ⊢
    rw [foldl_append, foldl_cons, foldl_nil]
    cases hget : layer.get key with
    | some value =>
      rw [get_mergeFields_of_not_isObj hlast, hget]
      · rfl
      · intro other hother
        rw [hother] at hplain
        exact hplain other rfl
    | none =>
      rw [hget, none_or] at hplain
      rw [get_mergeFields hlast, hget, none_or]
      exact ih (fun other hother ↦ hdistinct other (mem_append_left _ hother)) hplain

/-! ### Dropping keys from a dictionary -/

variable (unwanted : String → Bool)

theorem distinct_dropFields {d : JsonObject} (h : Distinct d) : Distinct (dropFields unwanted d) := by
  have hsublist : ((dropFields unwanted d).map fst).Sublist (d.map fst) := by
    clear h
    induction d with
    | nil =>
      rw [dropFields]
    | cons field rest ih =>
      obtain ⟨key, value⟩ := field
      rw [dropFields]
      split_ifs
      · exact ih.cons _
      · exact ih.cons_cons _
  exact hsublist.nodup h

theorem dropFields_append (d d' : JsonObject) :
    dropFields unwanted (d ++ d') = dropFields unwanted d ++ dropFields unwanted d' := by
  induction d with
  | nil => rw [dropFields, nil_append, nil_append]
  | cons field rest ih =>
    obtain ⟨key, value⟩ := field
    rw [cons_append, dropFields, dropFields, ih]
    split_ifs
    · rfl
    · rw [cons_append]

theorem dropFields_map_replace (d : JsonObject) (key : String) (value : Json) :
    dropFields unwanted (d.map fun field ↦ if field.1 = key then (key, value) else field) =
      if unwanted key then dropFields unwanted d
      else (dropFields unwanted d).map fun field ↦
        if field.1 = key then (key, dropKeys unwanted value) else field := by
  induction d with
  | nil =>
    rw [map_nil, dropFields, map_nil, ite_self]
  | cons field rest ih =>
    obtain ⟨name, old⟩ := field
    rw [map_cons]
    by_cases hname : name = key
    · subst hname
      rw [if_pos rfl, dropFields, dropFields, ih]
      split_ifs with hunwanted
      · rfl
      · rw [map_cons, if_pos rfl]
    · rw [if_neg hname, dropFields, dropFields, ih]
      by_cases hunwanted : unwanted name = true
      · rw [if_pos hunwanted, if_pos hunwanted]
      · rw [if_neg hunwanted, if_neg hunwanted]
        split_ifs
        · rfl
        · rw [map_cons, if_neg hname]

/-- Dropping goes through an assignment. -/
theorem dropFields_set (d : JsonObject) (key : String) (value : Json) :
    dropFields unwanted (d.set key value) =
      if unwanted key then dropFields unwanted d
      else (dropFields unwanted d).set key (dropKeys unwanted value) := by
  by_cases hunwanted : unwanted key = true
  · rw [if_pos hunwanted]
    unfold JsonObject.set
    split_ifs
    · rw [dropFields_map_replace, if_pos hunwanted]
    · rw [dropFields_append, dropFields, if_pos hunwanted, dropFields, append_nil]
  · rw [if_neg hunwanted]
    have hpresent : ((dropFields unwanted d).get key).isSome = (d.get key).isSome := by
      rw [get_dropFields unwanted (Bool.not_eq_true _ ▸ hunwanted), isSome_map]
    unfold JsonObject.set
    rw [hpresent]
    split_ifs
    · rw [dropFields_map_replace, if_neg hunwanted]
    · rw [dropFields_append, dropFields, if_neg hunwanted, dropFields]

/-- Dropping goes through an update. -/
theorem dropFields_update (d patch : JsonObject) :
    dropFields unwanted (d.update patch) =
      (dropFields unwanted d).update (dropFields unwanted patch) := by
  induction patch generalizing d with
  | nil =>
    rw [dropFields]
    rfl
  | cons field rest ih =>
    obtain ⟨key, value⟩ := field
    rw [update_cons, ih, dropFields_set, dropFields]
    split_ifs
    · rfl
    · rw [update_cons]

end Json

end ContentGenerator.Lib
