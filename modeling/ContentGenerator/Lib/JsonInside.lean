import ContentGenerator.Lib.PyValue

/-!
# The values inside a value

`Json.Inside outer inner`: the inner value is the outer one, or it is met in it at some depth. `Json.visit` checks
every object of a value, an object before the values in it, and stops at the first failure; `visit_ok_iff` says
that it passes exactly when every object inside does.
-/

namespace ContentGenerator.Lib.Json

open List

/-- The value itself, or a value inside one of its items or fields. -/
inductive Inside : Json → Json → Prop
  | self (value : Json) : Inside value value
  | item {items : List Json} {item inner : Json} (hmem : item ∈ items) (h : Inside item inner) :
      Inside (.arr items) inner
  | field {fields : JsonObject} {field : String × Json} {inner : Json} (hmem : field ∈ fields)
      (h : Inside field.2 inner) : Inside (.obj fields) inner

variable {ε : Type} (check : JsonObject → Except ε Unit)

mutual

/-- The check on every object of the value. -/
def visit : Json → Except ε Unit
  | .obj fields =>
    match check fields with
    | .ok () => visitFields fields
    | .error exc => .error exc
  | .arr items => visitItems items
  | _ => .ok ()

/-- `visit` on the items of an array. -/
def visitItems : List Json → Except ε Unit
  | [] => .ok ()
  | item :: items =>
    match visit item with
    | .ok () => visitItems items
    | .error exc => .error exc

/-- `visit` on the values of an object. -/
def visitFields : JsonObject → Except ε Unit
  | [] => .ok ()
  | (_, value) :: fields =>
    match visit value with
    | .ok () => visitFields fields
    | .error exc => .error exc

end

variable {check}

/-- A check is followed by another one. -/
theorem match_ok_iff {first second : Except ε Unit} :
    (match first with
      | .ok () => second
      | .error exc => .error exc) = .ok () ↔ first = .ok () ∧ second = .ok () := by
  cases first <;> simp

def Passes (check : JsonObject → Except ε Unit) (value : Json) : Prop :=
  ∀ fields, Inside value (.obj fields) → check fields = .ok ()

theorem passes_arr {items : List Json} : Passes check (.arr items) ↔ ∀ item ∈ items, Passes check item := by
  refine ⟨fun h item hitem fields hinside ↦ h fields (.item hitem hinside), fun h fields hinside ↦ ?_⟩
  cases hinside with
  | item hitem hrest => exact h _ hitem fields hrest

theorem passes_obj {fields : JsonObject} :
    Passes check (.obj fields) ↔ check fields = .ok () ∧ ∀ field ∈ fields, Passes check field.2 := by
  constructor
  · exact fun h ↦ ⟨h fields (.self _), fun field hfield inner hinside ↦ h inner (.field hfield hinside)⟩
  · rintro ⟨hself, hfields⟩ inner hinside
    cases hinside with
    | self => exact hself
    | field hfield hrest => exact hfields _ hfield inner hrest

mutual

theorem visit_ok_iff : (value : Json) → (visit check value = .ok () ↔ Passes check value)
  | .null => iff_of_true rfl fun _ hinside ↦ by cases hinside
  | .bool _ => iff_of_true rfl fun _ hinside ↦ by cases hinside
  | .int _ => iff_of_true rfl fun _ hinside ↦ by cases hinside
  | .float _ => iff_of_true rfl fun _ hinside ↦ by cases hinside
  | .str _ => iff_of_true rfl fun _ hinside ↦ by cases hinside
  | .arr items => (visitItems_ok_iff items).trans passes_arr.symm
  | .obj fields => (match_ok_iff.trans (and_congr_right fun _ ↦ visitFields_ok_iff fields)).trans passes_obj.symm

theorem visitItems_ok_iff : (items : List Json) →
    (visitItems check items = .ok () ↔ ∀ item ∈ items, Passes check item)
  | [] => iff_of_true rfl fun _ hitem ↦ absurd hitem not_mem_nil
  | item :: items => by
    rw [forall_mem_cons, ← visit_ok_iff item, ← visitItems_ok_iff items]
    exact match_ok_iff

theorem visitFields_ok_iff : (fields : JsonObject) →
    (visitFields check fields = .ok () ↔ ∀ field ∈ fields, Passes check field.2)
  | [] => iff_of_true rfl fun _ hfield ↦ absurd hfield not_mem_nil
  | (key, value) :: fields => by
    rw [forall_mem_cons, ← visit_ok_iff value, ← visitFields_ok_iff fields]
    exact match_ok_iff

end

end ContentGenerator.Lib.Json
