import Mathlib.Data.List.Sort
import ContentGenerator.Lib.PyValue

/-!
# Dropping keys from JSON values

`dropKeys` removes, at every depth, the fields whose key is unwanted; `avoidsKeys` says that there are
none. The number of keys does not depend on their order and drops with every field that is removed, so a
value that is unchanged, even up to the order of its keys, has had no unwanted key.

Main results: `avoidsKeys_dropKeys`, `dropKeys_eq_self_iff`, `keyCount_dropKeys_eq_iff`,
`keyCount_sortKeys`.
-/

namespace ContentGenerator.Lib

open JsonObject (get_cons)

variable {fields : JsonObject} {key : String} {value : Json}

namespace Json

variable (unwanted : String → Bool)

mutual

/-- The value without the unwanted keys. -/
def dropKeys : Json → Json
  | .arr items => .arr (dropItems items)
  | .obj fields => .obj (dropFields fields)
  | .null => .null
  | .bool value => .bool value
  | .int value => .int value
  | .float value => .float value
  | .str value => .str value

/-- `dropKeys` on the items of an array. -/
def dropItems : List Json → List Json
  | [] => []
  | item :: items => dropKeys item :: dropItems items

/-- `dropKeys` on the fields of an object. -/
def dropFields : JsonObject → JsonObject
  | [] => []
  | (key, value) :: fields =>
    if unwanted key then dropFields fields else (key, dropKeys value) :: dropFields fields

end

mutual

def avoidsKeys : Json → Bool
  | .arr items => avoidsItems items
  | .obj fields => avoidsFields fields
  | _ => true

/-- `avoidsKeys` on the items of an array. -/
def avoidsItems : List Json → Bool
  | [] => true
  | item :: items => avoidsKeys item && avoidsItems items

/-- `avoidsKeys` on the fields of an object. -/
def avoidsFields : JsonObject → Bool
  | [] => true
  | (key, value) :: fields => !unwanted key && avoidsKeys value && avoidsFields fields

end

mutual

def keyCount : Json → ℕ
  | .arr items => itemCount items
  | .obj fields => fieldCount fields
  | _ => 0

/-- `keyCount` on the items of an array. -/
def itemCount : List Json → ℕ
  | [] => 0
  | item :: items => keyCount item + itemCount items

/-- `keyCount` on the fields of an object. -/
def fieldCount : JsonObject → ℕ
  | [] => 0
  | (_, value) :: fields => 1 + keyCount value + fieldCount fields

end

mutual

/-- The value with the fields of every object in the order of their keys. -/
def sortKeys : Json → Json
  | .arr items => .arr (sortItems items)
  | .obj fields => .obj ((sortFields fields).insertionSort fun a b ↦ a.1 ≤ b.1)
  | .null => .null
  | .bool value => .bool value
  | .int value => .int value
  | .float value => .float value
  | .str value => .str value

/-- `sortKeys` on the items of an array. -/
def sortItems : List Json → List Json
  | [] => []
  | item :: items => sortKeys item :: sortItems items

/-- `sortKeys` on the values of the fields of an object. -/
def sortFields : JsonObject → JsonObject
  | [] => []
  | (key, value) :: fields => (key, sortKeys value) :: sortFields fields

end

theorem avoidsItems_iff {items : List Json} :
    avoidsItems unwanted items ↔ ∀ item ∈ items, avoidsKeys unwanted item := by
  induction items with
  | nil => simp [avoidsItems]
  | cons item rest ih => simp [avoidsItems, ih]

theorem avoidsFields_iff :
    avoidsFields unwanted fields ↔
      ∀ field ∈ fields, unwanted field.1 = false ∧ avoidsKeys unwanted field.2 := by
  induction fields with
  | nil => simp [avoidsFields]
  | cons field rest ih => simp [avoidsFields, ih]

/-! ### What is left has no unwanted key -/

mutual

theorem avoidsKeys_dropKeys : (value : Json) → avoidsKeys unwanted (dropKeys unwanted value)
  | .arr items => by simpa [dropKeys, avoidsKeys] using avoidsItems_dropItems items
  | .obj fields => by simpa [dropKeys, avoidsKeys] using avoidsFields_dropFields fields
  | .null | .bool _ | .int _ | .float _ | .str _ => rfl

theorem avoidsItems_dropItems : (items : List Json) → avoidsItems unwanted (dropItems unwanted items)
  | [] => rfl
  | item :: items => by
    simp [dropItems, avoidsItems, avoidsKeys_dropKeys item, avoidsItems_dropItems items]

theorem avoidsFields_dropFields :
    (fields : JsonObject) → avoidsFields unwanted (dropFields unwanted fields)
  | [] => rfl
  | (key, value) :: fields => by
    unfold dropFields
    split_ifs with hkey
    · exact avoidsFields_dropFields fields
    · simp [avoidsFields, hkey, avoidsKeys_dropKeys value, avoidsFields_dropFields fields]

end

mutual

/-- Without an unwanted key nothing is dropped. -/
theorem dropKeys_of_avoidsKeys :
    (value : Json) → avoidsKeys unwanted value → dropKeys unwanted value = value
  | .arr items, h => by
    rw [dropKeys, dropItems_of_avoidsItems items (by simpa [avoidsKeys] using h)]
  | .obj fields, h => by
    rw [dropKeys, dropFields_of_avoidsFields fields (by simpa [avoidsKeys] using h)]
  | .null, _ | .bool _, _ | .int _, _ | .float _, _ | .str _, _ => rfl

theorem dropItems_of_avoidsItems :
    (items : List Json) → avoidsItems unwanted items → dropItems unwanted items = items
  | [], _ => rfl
  | item :: items, h => by
    have hboth : avoidsKeys unwanted item ∧ avoidsItems unwanted items := by
      simpa [avoidsItems] using h
    rw [dropItems, dropKeys_of_avoidsKeys item hboth.1, dropItems_of_avoidsItems items hboth.2]

theorem dropFields_of_avoidsFields :
    (fields : JsonObject) → avoidsFields unwanted fields → dropFields unwanted fields = fields
  | [], _ => rfl
  | (key, value) :: fields, h => by
    have hall : (unwanted key = false ∧ avoidsKeys unwanted value) ∧ avoidsFields unwanted fields := by
      simpa [avoidsFields] using h
    rw [dropFields, if_neg (by simp [hall.1.1]), dropKeys_of_avoidsKeys value hall.1.2,
      dropFields_of_avoidsFields fields hall.2]

end

/-! ### Counting keys -/

mutual

/-- Dropping keys leaves fewer of them, or as many when there is none to drop. -/
theorem keyCount_dropKeys (value : Json) :
    keyCount (dropKeys unwanted value) ≤ keyCount value ∧
      (keyCount (dropKeys unwanted value) = keyCount value → avoidsKeys unwanted value) :=
  match value with
  | .arr items => by simpa [dropKeys, keyCount, avoidsKeys] using itemCount_dropItems items
  | .obj fields => by simpa [dropKeys, keyCount, avoidsKeys] using fieldCount_dropFields fields
  | .null | .bool _ | .int _ | .float _ | .str _ => ⟨le_rfl, fun _ ↦ rfl⟩

theorem itemCount_dropItems (items : List Json) :
    itemCount (dropItems unwanted items) ≤ itemCount items ∧
      (itemCount (dropItems unwanted items) = itemCount items → avoidsItems unwanted items) :=
  match items with
  | [] => ⟨le_rfl, fun _ ↦ rfl⟩
  | item :: rest => by
    obtain ⟨hitem, hitem'⟩ := keyCount_dropKeys item
    obtain ⟨hrest, hrest'⟩ := itemCount_dropItems rest
    rw [dropItems, itemCount, itemCount]
    refine ⟨by omega, fun heq ↦ ?_⟩
    simp [avoidsItems, hitem' (by omega), hrest' (by omega)]

theorem fieldCount_dropFields (fields : JsonObject) :
    fieldCount (dropFields unwanted fields) ≤ fieldCount fields ∧
      (fieldCount (dropFields unwanted fields) = fieldCount fields → avoidsFields unwanted fields) :=
  match fields with
  | [] => ⟨le_rfl, fun _ ↦ rfl⟩
  | (key, value) :: rest => by
    obtain ⟨hvalue, hvalue'⟩ := keyCount_dropKeys value
    obtain ⟨hrest, hrest'⟩ := fieldCount_dropFields rest
    rw [dropFields]
    split_ifs with hkey
    · rw [fieldCount]
      exact ⟨by omega, fun heq ↦ by omega⟩
    · rw [fieldCount, fieldCount]
      refine ⟨by omega, fun heq ↦ ?_⟩
      simp [avoidsFields, hkey, hvalue' (by omega), hrest' (by omega)]

end

theorem keyCount_dropKeys_eq_iff :
    keyCount (dropKeys unwanted value) = keyCount value ↔ avoidsKeys unwanted value := by
  refine ⟨(keyCount_dropKeys unwanted value).2, fun h ↦ ?_⟩
  rw [dropKeys_of_avoidsKeys unwanted value h]

theorem dropKeys_eq_self_iff :
    dropKeys unwanted value = value ↔ avoidsKeys unwanted value :=
  ⟨fun h ↦ (keyCount_dropKeys_eq_iff unwanted).mp (by rw [h]), dropKeys_of_avoidsKeys unwanted value⟩

/-- Dropping the keys again drops nothing. -/
@[simp] theorem dropFields_dropFields (fields : JsonObject) :
    dropFields unwanted (dropFields unwanted fields) = dropFields unwanted fields :=
  dropFields_of_avoidsFields unwanted _ (avoidsFields_dropFields unwanted fields)

theorem fieldCount_perm {fields' : JsonObject} (h : fields.Perm fields') :
    fieldCount fields = fieldCount fields' := by
  induction h with
  | nil => rfl
  | cons field _ ih => rw [fieldCount, fieldCount, ih]
  | swap field field' rest =>
    simp only [fieldCount]
    omega
  | trans _ _ ih ih' => exact ih.trans ih'

mutual

/-- The number of keys does not depend on their order. -/
theorem keyCount_sortKeys : (value : Json) → keyCount (sortKeys value) = keyCount value
  | .arr items => by simpa [sortKeys, keyCount] using itemCount_sortItems items
  | .obj fields => by
    rw [sortKeys, keyCount, keyCount, fieldCount_perm (List.perm_insertionSort _ _),
      fieldCount_sortFields fields]
  | .null | .bool _ | .int _ | .float _ | .str _ => rfl

theorem itemCount_sortItems : (items : List Json) → itemCount (sortItems items) = itemCount items
  | [] => rfl
  | item :: items => by
    rw [sortItems, itemCount, itemCount, keyCount_sortKeys item, itemCount_sortItems items]

theorem fieldCount_sortFields :
    (fields : JsonObject) → fieldCount (sortFields fields) = fieldCount fields
  | [] => rfl
  | (_, value) :: fields => by
    rw [sortFields, fieldCount, fieldCount, keyCount_sortKeys value, fieldCount_sortFields fields]

end

/-! ### Looking up -/

/-- What a key that is kept holds. -/
theorem get_dropFields (hkey : unwanted key = false) (fields : JsonObject) :
    (dropFields unwanted fields).get key =
      (fields.get key).map (dropKeys unwanted) := by
  induction fields with
  | nil => rfl
  | cons field rest ih =>
    obtain ⟨name, value⟩ := field
    rw [dropFields, get_cons]
    split_ifs with hname hsame hsame
    · obtain rfl : name = key := hsame
      exact absurd hname (by simp [hkey])
    · exact ih
    · rw [get_cons, if_pos hsame]
      rfl
    · rw [get_cons, if_neg hsame, ih]

theorem get_dropFields_of_unwanted (hkey : unwanted key) (fields : JsonObject) :
    (dropFields unwanted fields).get key = none := by
  induction fields with
  | nil => rfl
  | cons field rest ih =>
    obtain ⟨name, value⟩ := field
    rw [dropFields]
    split_ifs with hname
    · exact ih
    · rw [get_cons, if_neg (by rintro rfl; exact hname hkey), ih]

end Json

end ContentGenerator.Lib
