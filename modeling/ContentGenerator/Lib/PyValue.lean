import Mathlib.Data.List.DropRight
import Mathlib.Data.Rat.Defs

/-!
# Strings and JSON values with Python's operations

The values a JSON column holds and the operations Python code performs on them: truthiness, `dict`
lookup, assignment, `update` and `setdefault` in insertion order, and on strings `strip`, `lower`,
slicing to a maximal length, splitting, prefixes and substring search. A `float` is the rational
number it denotes.

`Json.text` is `str(value)`. Its result on strings, integers, booleans and `None` is fixed; the
rendering of floats and containers is a parameter, because no statement depends on it.
-/

namespace ContentGenerator.Lib

open List

open String (ofList)

/-! ### Strings -/

/-- `str.isspace` on one character. -/
def pySpace (c : Char) : Bool :=
  c.toNat ∈ ([0x09, 0x0a, 0x0b, 0x0c, 0x0d, 0x1c, 0x1d, 0x1e, 0x1f, 0x20, 0x85, 0xa0, 0x1680,
    0x2000, 0x2001, 0x2002, 0x2003, 0x2004, 0x2005, 0x2006, 0x2007, 0x2008, 0x2009, 0x200a,
    0x2028, 0x2029, 0x202f, 0x205f, 0x3000] : List ℕ)

/-- `str.strip()`. -/
def pyStrip (s : String) : String :=
  ofList (((s.toList.dropWhile pySpace).reverse.dropWhile pySpace).reverse)

/-- `str.lower()`, exact in the ASCII letters of its result: the letters `A` to `Z` and the two other
characters whose lower case holds an ASCII letter, U+0130 and U+212A. -/
def pyLower (s : String) : String :=
  ofList (s.toList.flatMap fun c ↦
    if c.toNat = 0x130 then ['i', Char.ofNat 0x307]
    else if c.toNat = 0x212a then ['k']
    else [c.toLower])

/-- `s[:n]`. -/
def pyTake (n : ℕ) (s : String) : String :=
  ofList (s.toList.take n)

/-- `needle in s`. -/
def pyIn (needle s : String) : Bool :=
  s.toList.tails.any fun suffix ↦ needle.toList.isPrefixOf suffix

/-- `s.split(separator)` for a separator of one character. -/
def pySplit (separator : Char) (s : String) : List String :=
  (s.toList.splitOnP (· = separator)).map ofList

/-- `s.split()`. -/
def pyWords (s : String) : List String :=
  ((s.toList.splitOnP pySpace).filter (· ≠ [])).map ofList

/-- `s.startswith(start)`. -/
def pyStartsWith (start s : String) : Bool := start.toList.isPrefixOf s.toList

/-- `s.removeprefix(start)`. -/
def pyRemoveStart (start s : String) : String :=
  if pyStartsWith start s then ofList (s.toList.drop start.toList.length) else s

theorem toList_pyStrip (s : String) :
    (pyStrip s).toList = (s.toList.dropWhile pySpace).rdropWhile pySpace := by
  rw [pyStrip, String.toList_ofList]
  rfl

/-- What has been stripped has nothing more to strip. -/
@[simp] theorem pyStrip_pyStrip (s : String) : pyStrip (pyStrip s) = pyStrip s := by
  have hfront : ((pyStrip s).toList.dropWhile pySpace) = (pyStrip s).toList := by
    rw [toList_pyStrip, dropWhile_eq_self_iff]
    intro hpos
    have hprefix := rdropWhile_prefix pySpace (s.toList.dropWhile pySpace)
    have hlong : 0 < (s.toList.dropWhile pySpace).length := lt_of_lt_of_le hpos hprefix.length_le
    have hhead := List.IsPrefix.getElem hprefix hpos
    rw [hhead]
    exact dropWhile_get_zero_not _ _ hlong
  have hlist : (pyStrip (pyStrip s)).toList = (pyStrip s).toList := by
    rw [toList_pyStrip (pyStrip s), hfront, toList_pyStrip s, rdropWhile_idempotent]
  exact String.toList_injective hlist

theorem length_pyStrip_le (s : String) : (pyStrip s).length ≤ s.length := by
  rw [← String.length_toList, ← String.length_toList, toList_pyStrip]
  exact (List.rdropWhile_prefix _ _).length_le.trans (dropWhile_suffix _).length_le

/-! ### JSON values -/

inductive Json
  | null
  | bool (value : Bool)
  | int (value : ℤ)
  | float (value : ℚ)
  | str (value : String)
  | arr (items : List Json)
  | obj (fields : List (String × Json))

/-! ### Equality of values -/

mutual

/-- Whether two values are the same, field by field and in the same order. -/
def Json.beq : Json → Json → Bool
  | .null, .null => true
  | .bool a, .bool b => a = b
  | .int a, .int b => a = b
  | .float a, .float b => a = b
  | .str a, .str b => a = b
  | .arr a, .arr b => Json.beqItems a b
  | .obj a, .obj b => Json.beqFields a b
  | _, _ => false

/-- `Json.beq` on the items of two arrays. -/
def Json.beqItems : List Json → List Json → Bool
  | [], [] => true
  | a :: as, b :: bs => Json.beq a b && Json.beqItems as bs
  | _, _ => false

/-- `Json.beq` on the fields of two objects. -/
def Json.beqFields : List (String × Json) → List (String × Json) → Bool
  | [], [] => true
  | (key, a) :: as, (key', b) :: bs => key = key' && Json.beq a b && Json.beqFields as bs
  | _, _ => false

end

mutual

theorem Json.beq_iff : (a b : Json) → (Json.beq a b ↔ a = b)
  | .null, b => by cases b <;> simp [Json.beq]
  | .bool _, b => by cases b <;> simp [Json.beq]
  | .int _, b => by cases b <;> simp [Json.beq]
  | .float _, b => by cases b <;> simp [Json.beq]
  | .str _, b => by cases b <;> simp [Json.beq]
  | .arr items, b => by cases b <;> simp [Json.beq, Json.beqItems_iff items]
  | .obj fields, b => by cases b <;> simp [Json.beq, Json.beqFields_iff fields]

theorem Json.beqItems_iff : (a b : List Json) → (Json.beqItems a b ↔ a = b)
  | [], b => by cases b <;> simp [Json.beqItems]
  | item :: items, b => by
    cases b <;> simp [Json.beqItems, Json.beq_iff item, Json.beqItems_iff items]

theorem Json.beqFields_iff : (a b : List (String × Json)) → (Json.beqFields a b ↔ a = b)
  | [], b => by cases b <;> simp [Json.beqFields]
  | (key, value) :: fields, b => by
    cases b with
    | nil => simp [Json.beqFields]
    | cons field rest =>
      simp [Json.beqFields, Json.beq_iff value, Json.beqFields_iff fields, Prod.ext_iff]

end

instance : DecidableEq Json := fun a b ↦ decidable_of_iff _ (Json.beq_iff a b)

/-- A Python `dict` with string keys, in insertion order. -/
abbrev JsonObject := List (String × Json)

namespace Json

/-- `bool(value)`. -/
def truthy : Json → Bool
  | .null => false
  | .bool value => value
  | .int value => value ≠ 0
  | .float value => value ≠ 0
  | .str value => value ≠ ""
  | .arr items => !items.isEmpty
  | .obj fields => !fields.isEmpty

/-- `list(value)`, when the value can be iterated over. -/
def pyList : Json → Option (List Json)
  | .arr items => some items
  | .str text => some (text.toList.map fun c ↦ .str (String.singleton c))
  | .obj fields => some (fields.map fun field ↦ .str field.1)
  | _ => none

/-- `str(value)`, with the rendering of floats and containers given by `render`. -/
def text (render : Json → String) : Json → String
  | .null => "None"
  | .bool true => "True"
  | .bool false => "False"
  | .int value => toString value
  | .str value => value
  | other => render other

end Json

namespace JsonObject

/-- `d.get(key)`. -/
def get (d : JsonObject) (key : String) : Option Json :=
  (d.find? fun field ↦ field.1 = key).map Prod.snd

/-- `d[key] = value`. -/
def set (d : JsonObject) (key : String) (value : Json) : JsonObject :=
  if (get d key).isSome then d.map fun field ↦ if field.1 = key then (key, value) else field
  else d ++ [(key, value)]

/-- `d.update(patch)`, equally `{**d, **patch}`. -/
def update (d patch : JsonObject) : JsonObject :=
  patch.foldl (fun acc field ↦ set acc field.1 field.2) d

/-- `d.setdefault(key, value)`. -/
def setDefault (d : JsonObject) (key : String) (value : Json) : JsonObject :=
  if (get d key).isSome then d else d ++ [(key, value)]

/-- `d.get(key)` when it is truthy, which is what `d.get(key) or …` keeps. -/
def getTruthy (d : JsonObject) (key : String) : Option Json :=
  (get d key).filter Json.truthy

@[simp] theorem get_nil (key : String) : get [] key = none := rfl

theorem get_cons (field : String × Json) (d : JsonObject) (key : String) :
    get (field :: d) key = if field.1 = key then some field.2 else get d key := by
  unfold get
  by_cases h : field.1 = key
  · rw [find?_cons_of_pos (by simpa using h), if_pos h]
    rfl
  · rw [find?_cons_of_neg (by simpa using h), if_neg h]

theorem get_append_singleton (d : JsonObject) (field : String × Json) (key : String) :
    get (d ++ [field]) key =
      (get d key).or (if field.1 = key then some field.2 else none) := by
  induction d with
  | nil => simp [get_cons]
  | cons head rest ih =>
    rw [cons_append, get_cons, get_cons, ih]
    split_ifs <;> rfl

@[simp] theorem get_set_self (d : JsonObject) (key : String) (value : Json) :
    get (set d key value) key = some value := by
  unfold set
  split_ifs with hpresent
  · induction d with
    | nil => simp at hpresent
    | cons head rest ih =>
      rw [map_cons, get_cons]
      by_cases hkey : head.1 = key
      · simp [hkey]
      · rw [get_cons, if_neg hkey] at hpresent
        simpa [hkey] using ih hpresent
  · rw [get_append_singleton, Option.not_isSome_iff_eq_none.mp hpresent]
    simp

theorem get_map_of_ne (d : JsonObject) {key key' : String} (value : Json) (h : key' ≠ key) :
    get (d.map fun field ↦ if field.1 = key then (key, value) else field) key' = get d key' := by
  induction d with
  | nil => rfl
  | cons head rest ih =>
    rw [map_cons, get_cons, get_cons, ih]
    by_cases hhead : head.1 = key
    · simp [hhead, h.symm]
    · simp [hhead]

theorem get_set_of_ne (d : JsonObject) {key key' : String} (value : Json) (h : key' ≠ key) :
    get (set d key value) key' = get d key' := by
  unfold set
  split_ifs
  · exact get_map_of_ne d value h
  · rw [get_append_singleton, if_neg (Ne.symm h), Option.or_none]

theorem get_set (d : JsonObject) (key key' : String) (value : Json) :
    get (set d key value) key' = if key' = key then some value else get d key' := by
  split_ifs with h
  · rw [h, get_set_self]
  · exact get_set_of_ne d value h

end JsonObject

end ContentGenerator.Lib
