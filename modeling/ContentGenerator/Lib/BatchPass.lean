import Mathlib.Data.List.Sort
import ContentGenerator.Lib.KeyedTable

/-!
# Passes over a bounded window of a table

A maintenance pass asks a database for the oldest rows under a limit, walks over them, rewrites those
that need it and stops once a batch has been rewritten. `OrderBy` is the order the database returns
the rows in: by time, ties in an order of its own. `scan` is the walk, over the rows as they were
read, and `pass` the whole pass over a `KeyedTable`.

`clears_pass_iff` is when a pass clears a row that is due. `due_count_pass_lt` makes that a measure, and
`no_due_after` is the run: passes each of which clears a due row as long as there is one leave none.
-/

namespace ContentGenerator.Lib

open List Option KeyedTable

open Prod (fst)

/-- How a database returns rows by time: sorted, rows of one time in any order. -/
structure OrderBy (R : Type*) (time : R → ℕ) where
  sort : List R → List R
  perm : ∀ rows, (sort rows).Perm rows
  sorted : ∀ rows, (sort rows).Pairwise fun a b ↦ time a ≤ time b

namespace OrderBy

variable {R : Type*} {time : R → ℕ}

theorem mem_sort (order : OrderBy R time) {rows : List R} {row : R} : row ∈ order.sort rows ↔ row ∈ rows :=
  (order.perm rows).mem_iff

def stable (time : R → ℕ) : OrderBy R time where
  sort := insertionSort fun a b ↦ time a ≤ time b
  perm := perm_insertionSort _
  sorted := by
    have htotal : Std.Total fun a b : R ↦ time a ≤ time b := ⟨fun a b ↦ Nat.le_total (time a) (time b)⟩
    have htrans : IsTrans R fun a b ↦ time a ≤ time b := ⟨fun _ _ _ hab hbc ↦ Nat.le_trans hab hbc⟩
    exact pairwise_insertionSort _

end OrderBy

/-- A query for the oldest rows that are eligible, and what to write on a row it returns. -/
structure BatchPass (K V : Type*) where
  eligible : V → Bool
  time : K × V → ℕ
  order : OrderBy (K × V) time
  rewrite : K → V → Option V

namespace BatchPass

variable {K V : Type*} [DecidableEq K]

def window (p : BatchPass K V) (limit : ℕ) (table : KeyedTable K V) : List (K × V) :=
  (p.order.sort (table.entries.filter fun row ↦ p.eligible row.2)).take limit

/-- The walk over the rows that were read: a row that needs no rewriting is passed over, and the walk
breaks once a batch of rows has been rewritten. -/
def scan (p : BatchPass K V) (batch : ℕ) :
    List (K × V) → KeyedTable K V → ℕ → KeyedTable K V × ℕ
  | [], table, count => (table, count)
  | row :: rest, table, count =>
    if batch ≤ count then (table, count)
    else match p.rewrite row.1 row.2 with
      | none => scan p batch rest table count
      | some value => scan p batch rest (table.modify row.1 fun _ ↦ value) (count + 1)

/-- One pass: the query and the walk over its rows. -/
def pass (p : BatchPass K V) (limit batch : ℕ) (table : KeyedTable K V) : KeyedTable K V × ℕ :=
  p.scan batch (p.window limit table) table 0

/-! ### What a walk rewrites -/

def needs (p : BatchPass K V) (row : K × V) : Bool := (p.rewrite row.1 row.2).isSome

/-- The rows that a walk rewrites when so many have been rewritten before. -/
def selected (p : BatchPass K V) (batch count : ℕ) (rows : List (K × V)) : List (K × V) :=
  (rows.filter p.needs).take (batch - count)

def written (p : BatchPass K V) (rows : List (K × V)) (key : K) (value : V) : V :=
  if key ∈ rows.map fst then (p.rewrite key value).getD value else value

theorem scan_eq (p : BatchPass K V) (batch : ℕ) {rows : List (K × V)} {table : KeyedTable K V}
    (count : ℕ) (hnodup : (rows.map fst).Nodup)
    (hrows : ∀ row ∈ rows, table.find row.1 = some row.2) :
    p.scan batch rows table count =
      (table.mapValues (p.written (p.selected batch count rows)),
        count + (p.selected batch count rows).length) := by
  induction rows generalizing table count with
  | nil =>
    have hnone : p.selected batch count [] = [] := take_nil
    rw [hnone]
    refine Prod.ext (ext_entries ?_) rfl
    simp [scan, mapValues, written]
  | cons row rest ih =>
    rw [map_cons, nodup_cons] at hnodup
    have hrest : ∀ other ∈ rest, table.find other.1 = some other.2 :=
      fun other hother ↦ hrows other (mem_cons_of_mem _ hother)
    unfold scan
    split_ifs with hfull
    · have hnone : p.selected batch count (row :: rest) = [] := by
        rw [selected, Nat.sub_eq_zero_of_le hfull, take_zero]
      rw [hnone]
      refine Prod.ext (ext_entries ?_) rfl
      simp [mapValues, written]
    · cases hvalue : p.rewrite row.1 row.2 with
      | none =>
        have hselected : p.selected batch count (row :: rest) = p.selected batch count rest := by
          unfold selected
          rw [filter_cons_of_neg (by simp [needs, hvalue])]
        rw [hselected]
        exact ih count hnodup.2 hrest
      | some value =>
        have hselected : p.selected batch count (row :: rest) =
            row :: p.selected batch (count + 1) rest := by
          unfold selected
          rw [filter_cons_of_pos (by simp [needs, hvalue]),
            show batch - count = (batch - (count + 1)) + 1 by omega, take_succ_cons]
        have hkeep : ∀ other ∈ rest,
            (table.modify row.1 fun _ ↦ value).find other.1 = some other.2 := by
          intro other hother
          rw [find_modify_of_ne, hrest other hother]
          intro hkey
          exact hnodup.1 (hkey ▸ List.mem_map_of_mem (f := fst) hother)
        have hfresh : row.1 ∉ (p.selected batch (count + 1) rest).map fst := by
          intro hmem
          obtain ⟨other, hother, hkey⟩ := List.mem_map.mp hmem
          refine hnodup.1 (hkey ▸ List.mem_map_of_mem (f := fst) ?_)
          exact mem_of_mem_filter (mem_of_mem_take hother)
        refine (ih (count + 1) hnodup.2 hkeep).trans (Prod.ext (ext_entries ?_) ?_)
        · simp only [mapValues, KeyedTable.modify, List.map_map, hselected]
          refine map_congr_left fun entry hentry ↦ ?_
          simp only [Function.comp_apply, Prod.mk.injEq, true_and, written, map_cons,
            mem_cons]
          by_cases hkey : entry.1 = row.1
          · -- the row itself: it is rewritten from the value that was read
            have hsame : entry.2 = row.2 := by
              have hfind := (table.find_eq_some_iff entry.1 entry.2).mpr hentry
              rw [hkey, hrows row mem_cons_self] at hfind
              exact (Option.some.inj hfind).symm
            rw [if_pos hkey, hkey, if_neg hfresh, if_pos (.inl rfl), hsame, hvalue,
              getD_some]
          · rw [if_neg hkey]
            simp only [hkey, false_or]
        · rw [hselected, length_cons]
          omega

omit [DecidableEq K] in
theorem window_nodup (p : BatchPass K V) (limit : ℕ) (table : KeyedTable K V) :
    ((p.window limit table).map fst).Nodup := by
  have hentries : ((table.entries.filter fun row ↦ p.eligible row.2).map fst).Nodup :=
    table.nodupKeys.sublist (filter_sublist.map fst)
  have hsort := ((p.order.perm (table.entries.filter fun row ↦ p.eligible row.2)).map
    fst).nodup_iff.mpr hentries
  exact hsort.sublist ((take_sublist limit _).map fst)

theorem mem_of_mem_window {p : BatchPass K V} {limit : ℕ} {table : KeyedTable K V} {row : K × V}
    (h : row ∈ p.window limit table) : p.eligible row.2 ∧ table.find row.1 = some row.2 := by
  have hmem := p.order.mem_sort.mp (mem_of_mem_take h)
  obtain ⟨hentry, heligible⟩ := mem_filter.mp hmem
  exact ⟨heligible, (table.find_eq_some_iff _ _).mpr hentry⟩

/-- What a pass leaves and how many rows it counts. -/
theorem pass_eq (p : BatchPass K V) (limit batch : ℕ) (table : KeyedTable K V) :
    p.pass limit batch table =
      (table.mapValues (p.written (p.selected batch 0 (p.window limit table))),
        (p.selected batch 0 (p.window limit table)).length) := by
  refine (p.scan_eq batch 0 (p.window_nodup limit table)
    fun row hrow ↦ (mem_of_mem_window hrow).2).trans ?_
  rw [Nat.zero_add]

omit [DecidableEq K] in
/-- Rows that need no rewriting do not use up the batch. -/
theorem exists_selected (p : BatchPass K V) {batch : ℕ} (hbatch : 0 < batch) {rows : List (K × V)}
    (h : ∃ row ∈ rows, p.needs row) : ∃ row, row ∈ p.selected batch 0 rows := by
  obtain ⟨row, hrow, hneeds⟩ := h
  have hmem : row ∈ rows.filter p.needs := mem_filter.mpr ⟨hrow, hneeds⟩
  unfold selected
  cases hlist : rows.filter p.needs with
  | nil => exact absurd (hlist ▸ hmem) not_mem_nil
  | cons first rest =>
    rw [show batch - 0 = (batch - 1) + 1 by omega, take_succ_cons]
    exact ⟨first, mem_cons_self⟩

/-! ### Clearing due rows -/

/-- An eligible row that is to be cleared is in the table. -/
def HasDue (due : V → Bool) (table : KeyedTable K V) : Prop :=
  ∃ key value, table.find key = some value ∧ due value

/-- One table comes from the other with a due row cleared. -/
def ClearsOne (due : V → Bool) (table table' : KeyedTable K V) : Prop :=
  ∃ key value value', table.find key = some value ∧ due value ∧ table'.find key = some value' ∧ ¬ due value'

/-- What is due gets rewritten, and is no longer due then. -/
structure Clears (p : BatchPass K V) (due : V → Bool) : Prop where
  needs : ∀ key value, due value → (p.rewrite key value).isSome
  cleared : ∀ key value value', p.rewrite key value = some value' → ¬ due value'

variable {p : BatchPass K V} {due : V → Bool} {limit batch : ℕ} {table : KeyedTable K V}

omit [DecidableEq K] in
theorem mem_window_of_selected {row : K × V} (h : row ∈ p.selected batch 0 (p.window limit table)) :
    row ∈ p.window limit table :=
  mem_of_mem_filter (mem_of_mem_take h)

/-- A pass clears a due row exactly when one is among the rows that it rewrites. -/
theorem clears_pass_iff (h : p.Clears due) (limit batch : ℕ) (table : KeyedTable K V) :
    ClearsOne due table (p.pass limit batch table).1 ↔
      ∃ row ∈ p.selected batch 0 (p.window limit table), due row.2 := by
  rw [pass_eq]
  constructor
  · rintro ⟨key, value, value', hfind, hdue, hfind', hclear⟩
    rw [find_mapValues, hfind, map_some, Option.some.injEq] at hfind'
    unfold written at hfind'
    split_ifs at hfind' with hkey
    · obtain ⟨row, hrow, rfl⟩ := List.mem_map.mp hkey
      have hread := (mem_of_mem_window (mem_window_of_selected hrow)).2
      rw [hread, Option.some.injEq] at hfind
      exact ⟨row, hrow, hfind ▸ hdue⟩
    · exact absurd (hfind' ▸ hdue) hclear
  · rintro ⟨row, hrow, hdue⟩
    have hread := (mem_of_mem_window (mem_window_of_selected hrow)).2
    obtain ⟨value', hvalue⟩ := isSome_iff_exists.mp (h.needs row.1 row.2 hdue)
    refine ⟨row.1, row.2, value', hread, hdue, ?_, h.cleared _ _ _ hvalue⟩
    rw [find_mapValues, hread, map_some, written,
      if_pos (List.mem_map_of_mem (f := fst) hrow), hvalue, getD_some]

/-- Where only due rows get rewritten, other rows never use up the batch. -/
theorem clears_pass_iff_window (h : p.Clears due)
    (hneeds : ∀ key value, p.eligible value → (p.rewrite key value).isSome → due value)
    (hbatch : 0 < batch) (limit : ℕ) (table : KeyedTable K V) :
    ClearsOne due table (p.pass limit batch table).1 ↔ ∃ row ∈ p.window limit table, due row.2 := by
  rw [clears_pass_iff h]
  constructor
  · rintro ⟨row, hrow, hdue⟩
    exact ⟨row, mem_window_of_selected hrow, hdue⟩
  · rintro ⟨row, hrow, hdue⟩
    obtain ⟨first, hfirst⟩ := p.exists_selected hbatch ⟨row, hrow, h.needs row.1 row.2 hdue⟩
    have heligible := (mem_of_mem_window (mem_window_of_selected hfirst)).1
    have hneed : p.needs first := of_mem_filter (p := p.needs) (mem_of_mem_take hfirst)
    exact ⟨first, hfirst, hneeds _ _ heligible hneed⟩

/-! ### Runs of passes -/

/-- How many due rows a table holds. -/
def dueCount (due : V → Bool) (table : KeyedTable K V) : ℕ := table.entries.countP fun row ↦ due row.2

theorem hasDue_iff (due : V → Bool) (table : KeyedTable K V) : HasDue due table ↔ 0 < dueCount due table := by
  unfold dueCount
  rw [countP_pos_iff]
  constructor
  · rintro ⟨key, value, hfind, hdue⟩
    exact ⟨(key, value), (table.find_eq_some_iff key value).mp hfind, hdue⟩
  · rintro ⟨row, hrow, hdue⟩
    exact ⟨row.1, row.2, (table.find_eq_some_iff _ _).mpr hrow, hdue⟩

omit [DecidableEq K] in
theorem countP_map_lt {R : Type*} {f : R → R} {q : R → Bool} {rows : List R}
    (hkeep : ∀ row ∈ rows, q (f row) → q row) (hdrop : ∃ row ∈ rows, q row ∧ ¬ q (f row)) :
    (rows.map f).countP q < rows.countP q := by
  rw [countP_map]
  induction rows with
  | nil =>
    obtain ⟨row, hrow, -⟩ := hdrop
    simp at hrow
  | cons first rest ih =>
    have hrest : ∀ row ∈ rest, q (f row) → q row :=
      fun row hrow ↦ hkeep row (mem_cons_of_mem _ hrow)
    have hle : rest.countP (q ∘ f) ≤ rest.countP q := countP_mono_left hrest
    have hfirst := hkeep first mem_cons_self
    obtain ⟨row, hrow, hq, hq'⟩ := hdrop
    rw [countP_cons, countP_cons]
    rcases mem_cons.mp hrow with rfl | hrow
    · rw [if_pos hq, if_neg (by simpa using hq')]
      omega
    · have hlt := ih hrest ⟨row, hrow, hq, hq'⟩
      by_cases hcase : q (f first)
      · rw [if_pos (hfirst hcase), if_pos (by simpa using hcase)]
        omega
      · rw [if_neg (by simpa using hcase)]
        omega

/-- A pass makes no row due. -/
theorem due_of_written (h : p.Clears due) {rows : List (K × V)} {key : K} {value : V}
    (hdue : due (p.written rows key value)) : due value := by
  unfold written at hdue
  split_ifs at hdue with hkey
  · cases hvalue : p.rewrite key value with
    | none => simpa [hvalue] using hdue
    | some value' =>
      rw [hvalue, getD_some] at hdue
      exact absurd hdue (h.cleared _ _ _ hvalue)
  · exact hdue

theorem due_count_pass_le (h : p.Clears due) (limit batch : ℕ) (table : KeyedTable K V) :
    dueCount due (p.pass limit batch table).1 ≤ dueCount due table := by
  rw [pass_eq]
  unfold dueCount mapValues
  rw [countP_map]
  exact countP_mono_left fun row _ hrow ↦ due_of_written h hrow

/-- A pass that clears a due row leaves fewer of them. -/
theorem due_count_pass_lt (h : p.Clears due) (hclears : ClearsOne due table (p.pass limit batch table).1) :
    dueCount due (p.pass limit batch table).1 < dueCount due table := by
  obtain ⟨key, value, value', hfind, hdue, hfind', hclear⟩ := hclears
  rw [pass_eq] at hfind' ⊢
  unfold dueCount
  refine countP_map_lt (fun row _ hrow ↦ due_of_written h hrow)
    ⟨(key, value), (table.find_eq_some_iff key value).mp hfind, hdue, ?_⟩
  rw [find_mapValues, hfind, map_some, Option.some.injEq] at hfind'
  exact fun hrow ↦ hclear (hfind' ▸ hrow)

/-- Passes each of which clears a due row as long as there is one leave none: as many passes suffice as
there were due rows. -/
theorem no_due_after (passes : ℕ → BatchPass K V) (tables : ℕ → KeyedTable K V)
    (hnext : ∀ n, tables (n + 1) = ((passes n).pass limit batch (tables n)).1)
    (hclears : ∀ n, (passes n).Clears due)
    (hstep : ∀ n, HasDue due (tables n) → ClearsOne due (tables n) (tables (n + 1)))
    {n : ℕ} (hn : dueCount due (tables 0) ≤ n) : ¬ HasDue due (tables n) := by
  -- each pass lowers the number of due rows until there is none, and none brings one back
  have hbound : ∀ m, dueCount due (tables m) ≤ dueCount due (tables 0) - m := by
    intro m
    induction m with
    | zero => exact Nat.le_refl _
    | succ m ih =>
      rcases Nat.eq_zero_or_pos (dueCount due (tables m)) with hcase | hcase
      · have hle := due_count_pass_le (hclears m) limit batch (tables m)
        rw [← hnext m] at hle
        omega
      · have hclear := hstep m ((hasDue_iff due (tables m)).mpr hcase)
        rw [hnext m] at hclear
        have hlt := due_count_pass_lt (hclears m) hclear
        rw [← hnext m] at hlt
        omega
  rw [hasDue_iff]
  have := hbound n
  omega

end BatchPass

end ContentGenerator.Lib
