import Mathlib.Data.List.Basic

/-!
# Overlapping sessions

Two sessions work on one store. A schedule is a list of their events, each marked with the session it
belongs to; `interleavings` lists the schedules of two sequences of events, and `mem_interleavings`
says that these are all lists with the two sequences as their parts.

A session writes a column at commit when the value it holds differs from the value it last loaded:
`flushColumn`. A commit to a store that still holds what was loaded is a plain write
(`flushColumn_self`).
-/

namespace ContentGenerator.Lib

open List

variable {α : Type*}

/-! ### Schedules -/

/-- The schedules of two sequences of events; the events of the first are marked `true`. -/
def interleavings : List α → List α → List (List (Bool × α))
  | [], right => [right.map fun event ↦ (false, event)]
  | left, [] => [left.map fun event ↦ (true, event)]
  | a :: left, b :: right =>
    (interleavings left (b :: right)).map (fun rest ↦ (true, a) :: rest) ++
      (interleavings (a :: left) right).map (fun rest ↦ (false, b) :: rest)

def eventsOf (who : Bool) (schedule : List (Bool × α)) : List α :=
  schedule.filterMap fun entry ↦ if entry.1 = who then some entry.2 else none

@[simp] theorem eventsOf_nil (who : Bool) : eventsOf who ([] : List (Bool × α)) = [] := rfl

@[simp] theorem eventsOf_cons (who : Bool) (entry : Bool × α) (schedule : List (Bool × α)) :
    eventsOf who (entry :: schedule) =
      if entry.1 = who then entry.2 :: eventsOf who schedule else eventsOf who schedule := by
  unfold eventsOf
  rw [filterMap_cons]
  split_ifs <;> rfl

/-- A list of marked events without an event of the other session. -/
theorem eq_map_of_eventsOf_eq_nil {who : Bool} {schedule : List (Bool × α)}
    (h : eventsOf (!who) schedule = []) :
    schedule = (eventsOf who schedule).map fun event ↦ (who, event) := by
  induction schedule with
  | nil => rfl
  | cons entry rest ih =>
    obtain ⟨mark, event⟩ := entry
    rw [eventsOf_cons] at h
    by_cases hmark : mark = who
    · rw [if_neg (by simp [hmark])] at h
      rw [eventsOf_cons, if_pos hmark, map_cons, ← ih h, hmark]
    · have hother : mark = !who := by
        cases mark <;> cases who <;> simp_all
      rw [if_pos hother] at h
      simp at h

theorem eventsOf_map (who mark : Bool) (events : List α) :
    eventsOf who (events.map fun event ↦ (mark, event)) = if mark = who then events else [] := by
  induction events with
  | nil => simp
  | cons event rest ih =>
    rw [map_cons, eventsOf_cons, ih]
    split_ifs <;> rfl

/-- The schedules of two sessions are the lists that hold the events of each in order. -/
theorem mem_interleavings (left right : List α) (schedule : List (Bool × α)) :
    schedule ∈ interleavings left right ↔
      eventsOf true schedule = left ∧ eventsOf false schedule = right := by
  induction left, right using interleavings.induct generalizing schedule with
  | case1 right =>
    rw [interleavings, mem_singleton]
    constructor
    · rintro rfl
      simp [eventsOf_map]
    · rintro ⟨hleft, hright⟩
      rw [@eq_map_of_eventsOf_eq_nil α false schedule hleft, hright]
  | case2 left hleft =>
    rw [interleavings, mem_singleton]
    · constructor
      · rintro rfl
        simp [eventsOf_map]
      · rintro ⟨hleft, hright⟩
        rw [@eq_map_of_eventsOf_eq_nil α true schedule hright, hleft]
    · exact hleft
  | case3 a left b right ihleft ihright =>
    rw [interleavings, mem_append, mem_map, mem_map]
    constructor
    · rintro (⟨rest, hrest, rfl⟩ | ⟨rest, hrest, rfl⟩)
      · obtain ⟨hl, hr⟩ := (ihleft rest).mp hrest
        simp [hl, hr]
      · obtain ⟨hl, hr⟩ := (ihright rest).mp hrest
        simp [hl, hr]
    · rintro ⟨hl, hr⟩
      cases schedule with
      | nil => simp at hl
      | cons entry rest =>
        obtain ⟨mark, event⟩ := entry
        cases mark with
        | true =>
          simp only [eventsOf_cons, if_true, Bool.true_eq_false, if_false, List.cons.injEq] at hl hr
          exact .inl ⟨rest, (ihleft rest).mpr ⟨hl.2, hr⟩, by rw [hl.1]⟩
        | false =>
          simp only [eventsOf_cons, if_true, Bool.false_eq_true, if_false, List.cons.injEq] at hl hr
          exact .inr ⟨rest, (ihright rest).mpr ⟨hl, hr.2⟩, by rw [hr.1]⟩

/-! ### Columns -/

/-- The stored value of a column after a commit of a session that loaded `base` and holds `new`. -/
def flushColumn [DecidableEq α] (base new stored : α) : α := if new = base then stored else new

/-- Nobody else wrote the column. -/
@[simp] theorem flushColumn_self [DecidableEq α] (base new : α) : flushColumn base new base = new := by
  unfold flushColumn
  split_ifs with h
  · exact h.symm
  · rfl

/-- The session did not change the column. -/
@[simp] theorem flushColumn_unchanged [DecidableEq α] (base stored : α) :
    flushColumn base base stored = stored :=
  if_pos rfl

/-- The session changed the column. -/
theorem flushColumn_of_ne [DecidableEq α] {base new : α} (h : new ≠ base) (stored : α) :
    flushColumn base new stored = new :=
  if_neg h

/-- The commit leaves the stored value alone. -/
theorem flushColumn_eq_stored_iff [DecidableEq α] {base new stored : α} :
    flushColumn base new stored = stored ↔ new = base ∨ new = stored := by
  unfold flushColumn
  split_ifs with h
  · exact iff_of_true rfl (.inl h)
  · exact (or_iff_right h).symm

/-! ### Two sessions on one column -/

/-- What a session does with the column: load it, reload the object it is a column of, commit. The
value it has read stays in a local variable when the object is reloaded. -/
inductive ColumnEvent
  | read | refresh | commit
  deriving DecidableEq

/-- The committed value of the column, and for each session the value it has read and the value it
last loaded. -/
structure Column (α : Type*) where
  committed : α
  session : Bool → Option (α × α)

/-- The column before either session has read it. -/
def Column.start (value : α) : Column α := ⟨value, fun _ ↦ none⟩

section Column

variable [DecidableEq α] (write : Bool → α → Option α)

/-- One event; `write` is what a session makes of the value it has read, if it writes at all. -/
def Column.step (column : Column α) : Bool × ColumnEvent → Column α
  | (who, .read) =>
    { column with
      session := Function.update column.session who (some (column.committed, column.committed)) }
  | (who, .refresh) =>
    { column with
      session := Function.update column.session who
        ((column.session who).map fun loaded ↦ (loaded.1, column.committed)) }
  | (who, .commit) =>
    { column with
      committed := ((column.session who).bind fun loaded ↦ (write who loaded.1).map fun new ↦
        flushColumn loaded.2 new column.committed).getD column.committed }

def Column.play (schedule : List (Bool × ColumnEvent)) (column : Column α) : Column α :=
  schedule.foldl (Column.step write) column

end Column

def readModifyWrite : List ColumnEvent := [.read, .refresh, .commit]

def lastCommitter (schedule : List (Bool × ColumnEvent)) : Bool :=
  (schedule.getLast?.map Prod.fst).getD true

/-- The event of the last committer stands after the commit of the other session. -/
def sees (event : ColumnEvent) (schedule : List (Bool × ColumnEvent)) : Bool :=
  (lastCommitter schedule, event) ∈ schedule.dropWhile fun entry ↦ entry.2 ≠ .commit

/-- The two sessions of a schedule: what each has read and, when the last committer writes, what is
committed in the end. It works on the other's value when it reads after the other's commit. Otherwise
its own write stands, or, when it changed nothing and did not reload, the other's. -/
theorem Column.play_interleaving [DecidableEq α] (write : Bool → α → Option α)
    {schedule : List (Bool × ColumnEvent)}
    (hschedule : schedule ∈ interleavings readModifyWrite readModifyWrite) (value : α) :
    let late := lastCommitter schedule
    let early := (write (!late) value).getD value
    let seen := if sees .read schedule then early else value
    let column := (Column.start value).play write schedule
    ((column.session !late).map Prod.fst = some value ∧
      (column.session late).map Prod.fst = some seen) ∧
      ∀ new, write late seen = some new → column.committed =
        if sees .read schedule ∨ sees .refresh schedule then new
        else flushColumn value new early := by
  -- twenty schedules: in each the commits are evaluated, and `flushColumn` goes where a session
  -- writes over the value it last loaded
  simp only [readModifyWrite, interleavings, map_cons, map_nil, cons_append,
    nil_append, mem_cons, not_mem_nil, or_false] at hschedule
  cases hearly : write (!lastCommitter schedule) value <;>
    rcases hschedule with rfl | rfl | rfl | rfl | rfl | rfl | rfl | rfl | rfl | rfl | rfl | rfl |
      rfl | rfl | rfl | rfl | rfl | rfl | rfl | rfl <;>
    simp only [lastCommitter, getLast?_cons_cons, getLast?_singleton, Option.map_some,
      Option.getD_some, Bool.not_true, Bool.not_false] at hearly <;>
    simp +contextual [lastCommitter, sees, Column.play, Column.step, Column.start, hearly]

end ContentGenerator.Lib
