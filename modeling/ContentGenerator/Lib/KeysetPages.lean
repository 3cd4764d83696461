import Mathlib.Data.List.Nodup
import Mathlib.Data.List.TakeDrop

/-!
# Keyset pagination

Pages of a fixed list of rows: a page holds the first rows that a cursor leaves, and where more rows are
left the next cursor is taken from the last row of the page. `Keyset` is the test of a cursor and the cursor
of a row; a row does not pass the cursor of its own, and what passes the cursor of a row passes every cursor
that the row passes.

`follow_isSome` is that the cursors come to an end. `follow_eq_rest_iff` is that the pages together are the list
of rows exactly when at every boundary the cursor of the last row of a page leaves the rows after it.
-/

namespace ContentGenerator.Lib

open List Option

/-- The test of a cursor and the cursor of a row. -/
structure Keyset (R C : Type*) where
  after : C → R → Bool
  cursorOf : R → C
  irrefl : ∀ row, after (cursorOf row) row = false
  trans : ∀ cursor row next, after cursor row → after (cursorOf row) next → after cursor next

namespace Keyset

variable {R C : Type*} (keyset : Keyset R C) (limit : ℕ) (rows : List R)

/-- The rows that a cursor leaves; all of them without a cursor. -/
def rest : Option C → List R
  | none => rows
  | some cursor => rows.filter (keyset.after cursor)

/-- The rows of the pages one after the other, from a cursor on; given up after a number of pages. -/
def follow : ℕ → Option C → Option (List R)
  | 0, _ => none
  | fuel + 1, cursor =>
    let page := (keyset.rest rows cursor).take limit
    if limit < (keyset.rest rows cursor).length then
      match page.getLast? with
      | some last => (follow fuel (some (keyset.cursorOf last))).map (page ++ ·)
      | none => some page
    else some page

/-- At every boundary between two pages the cursor of the last row leaves the rows after it. -/
def Splits (found : List R) : Prop :=
  ∀ count last, 0 < count → count * limit < found.length → found[count * limit - 1]? = some last →
    rows.filter (keyset.after (keyset.cursorOf last)) = found.drop (count * limit)

variable {keyset limit rows}

variable {cursor : Option C} {last : R} {found out : List R} {fuel : ℕ}

theorem mem_rest_cursorOf {row : R} (hlast : last ∈ keyset.rest rows cursor)
    (hrow : row ∈ keyset.rest rows (some (keyset.cursorOf last))) : row ∈ keyset.rest rows cursor := by
  obtain ⟨hmem, hafter⟩ := mem_filter.mp hrow
  cases cursor with
  | none => exact hmem
  | some cursor =>
    exact mem_filter.mpr ⟨hmem, keyset.trans _ _ _ (mem_filter.mp hlast).2 hafter⟩

/-- The rows after a row that is left are a part of what is left. -/
theorem rest_cursorOf_eq (hlast : last ∈ keyset.rest rows cursor) :
    keyset.rest rows (some (keyset.cursorOf last)) =
      (keyset.rest rows cursor).filter (keyset.after (keyset.cursorOf last)) := by
  cases cursor with
  | none => rfl
  | some cursor =>
    unfold rest
    rw [List.filter_filter]
    refine filter_congr fun row _ ↦ ?_
    cases hafter : keyset.after (keyset.cursorOf last) row with
    | false => rfl
    | true => rw [keyset.trans _ _ _ (mem_filter.mp hlast).2 hafter, Bool.and_true]

theorem length_rest_cursorOf_lt (hlast : last ∈ keyset.rest rows cursor) :
    (keyset.rest rows (some (keyset.cursorOf last))).length < (keyset.rest rows cursor).length := by
  rw [rest_cursorOf_eq hlast]
  refine length_filter_lt_length_iff_exists.mpr ⟨last, hlast, ?_⟩
  rw [keyset.irrefl]
  exact Bool.false_ne_true

/-- The last row of a full page. -/
theorem exists_last (hlimit : 0 < limit) (hmore : limit < found.length) :
    ∃ last, (found.take limit).getLast? = some last ∧ found[limit - 1]? = some last ∧ last ∈ found := by
  obtain ⟨last, hlast⟩ : ∃ last, found[limit - 1]? = some last :=
    ⟨found[limit - 1], getElem?_eq_getElem (by omega)⟩
  refine ⟨last, ?_, hlast, mem_of_getElem? hlast⟩
  rw [getLast?_eq_getElem?, length_take, Nat.min_eq_left (Nat.le_of_lt hmore),
    getElem?_take_of_lt (by omega), hlast]

/-- The cursors come to an end. -/
theorem follow_isSome (hlimit : 0 < limit)
    (hfuel : (keyset.rest rows cursor).length < fuel) : ∃ out, keyset.follow limit rows fuel cursor = some out := by
  induction fuel generalizing cursor with
  | zero => exact absurd hfuel (Nat.not_lt_zero _)
  | succ fuel ih =>
    unfold follow
    dsimp only
    split_ifs with hmore
    · obtain ⟨last, hgetLast, -, hmem⟩ := exists_last hlimit hmore
      have hless := length_rest_cursorOf_lt hmem
      have hnext : ∃ out, keyset.follow limit rows fuel (some (keyset.cursorOf last)) = some out :=
        ih (by omega)
      obtain ⟨out, hout⟩ := hnext
      refine ⟨(keyset.rest rows cursor).take limit ++ out, ?_⟩
      simp only [hgetLast, hout, map_some]
    · exact ⟨_, rfl⟩

theorem follow_mono {more : ℕ} (hle : fuel ≤ more)
    (h : keyset.follow limit rows fuel cursor = some out) : keyset.follow limit rows more cursor = some out := by
  induction fuel generalizing more cursor out with
  | zero => cases h
  | succ fuel ih =>
    obtain ⟨more, rfl⟩ : ∃ m, more = m + 1 := ⟨more - 1, by omega⟩
    unfold follow at h ⊢
    dsimp only at h ⊢
    split_ifs at h ⊢ with hmore
    · split at h
      · rename_i last hlast
        obtain ⟨later, hlater, rfl⟩ := map_eq_some_iff.mp h
        rw [ih (Nat.le_of_succ_le_succ hle) hlater, map_some]
      · exact h
    · exact h

/-- What the pages return is left by the cursor. -/
theorem mem_rest_of_follow
    (h : keyset.follow limit rows fuel cursor = some out) : ∀ row ∈ out, row ∈ keyset.rest rows cursor := by
  induction fuel generalizing cursor out with
  | zero => cases h
  | succ fuel ih =>
    unfold follow at h
    dsimp only at h
    have hpage : ∀ row ∈ (keyset.rest rows cursor).take limit, row ∈ keyset.rest rows cursor :=
      fun row hrow ↦ mem_of_mem_take hrow
    split_ifs at h with hmore
    · split at h
      · rename_i last hlast
        obtain ⟨later, hlater, rfl⟩ := map_eq_some_iff.mp h
        intro row hrow
        rcases mem_append.mp hrow with hfirst | hlater'
        · exact hpage row hfirst
        · exact mem_rest_cursorOf (hpage last (mem_of_getLast? hlast)) (ih hlater row hlater')
      · cases h
        exact hpage
    · cases h
      exact hpage

/-- The pages start with what the cursor leaves first. -/
theorem head?_follow (hlimit : 0 < limit)
    (h : keyset.follow limit rows fuel cursor = some out) : out.head? = (keyset.rest rows cursor).head? := by
  have hpage : ((keyset.rest rows cursor).take limit).head? = (keyset.rest rows cursor).head? := by
    cases keyset.rest rows cursor with
    | nil => rw [take_nil]
    | cons first found =>
      obtain ⟨below, rfl⟩ : ∃ below, limit = below + 1 := ⟨limit - 1, by omega⟩
      rw [take_succ_cons, head?_cons, head?_cons]
  cases fuel with
  | zero => cases h
  | succ fuel =>
    unfold follow at h
    dsimp only at h
    split_ifs at h with hmore
    · split at h
      · rename_i last hlast
        obtain ⟨later, -, rfl⟩ := map_eq_some_iff.mp h
        rw [head?_append, hpage]
        cases hhead : (keyset.rest rows cursor).head? with
        | some first => rfl
        | none =>
          rw [head?_eq_none_iff] at hhead
          rw [hhead] at hmore
          exact absurd hmore (Nat.not_lt_zero _)
      · cases h
        exact hpage
    · cases h
      exact hpage

theorem splits_of_length_le (h : found.length ≤ limit) :
    keyset.Splits limit rows found := by
  intro count last hcount hless
  have hle : limit ≤ count * limit := Nat.le_mul_of_pos_left limit hcount
  omega

/-- The boundaries of a list are the first one and those of what comes after it. -/
theorem splits_iff (hlimit : 0 < limit) (hmore : limit < found.length) (hlast : found[limit - 1]? = some last) :
    keyset.Splits limit rows found ↔
      keyset.rest rows (some (keyset.cursorOf last)) = found.drop limit ∧
        keyset.Splits limit rows (found.drop limit) := by
  have hshift : ∀ count, 0 < count → limit + (count * limit - 1) = (count + 1) * limit - 1 := by
    intro count hcount
    have hpos : 0 < count * limit := Nat.mul_pos hcount hlimit
    rw [Nat.succ_mul]
    omega
  constructor
  · intro hsplits
    refine ⟨?_, fun count next hcount hless hnext ↦ ?_⟩
    · have hfirst := hsplits 1 last Nat.one_pos (by rwa [Nat.one_mul]) (by rwa [Nat.one_mul])
      rwa [Nat.one_mul] at hfirst
    · rw [length_drop] at hless
      rw [getElem?_drop, hshift count hcount] at hnext
      rw [hsplits (count + 1) next (Nat.succ_pos count) (by rw [Nat.succ_mul]; omega) hnext, drop_drop,
        Nat.succ_mul, Nat.add_comm]
  · rintro ⟨hfirst, hsplits⟩ count next hcount hless hnext
    obtain ⟨below, rfl⟩ : ∃ below, count = below + 1 := ⟨count - 1, by omega⟩
    rcases Nat.eq_zero_or_pos below with rfl | hbelow
    · rw [Nat.zero_add, Nat.one_mul] at hnext ⊢
      rw [hnext, Option.some.injEq] at hlast
      rw [hlast]
      exact hfirst
    · have hdrop := hsplits below next hbelow
        (by rw [length_drop]; rw [Nat.succ_mul] at hless; omega)
        (by rw [getElem?_drop, hshift below hbelow]; exact hnext)
      rw [hdrop, drop_drop, Nat.succ_mul, Nat.add_comm]

/-- The pages are what the cursor leaves exactly when it splits at every boundary. -/
theorem follow_eq_rest_iff (hlimit : 0 < limit) (hnodup : rows.Nodup)
    (h : keyset.follow limit rows fuel cursor = some out) :
    out = keyset.rest rows cursor ↔ keyset.Splits limit rows (keyset.rest rows cursor) := by
  induction fuel generalizing cursor out with
  | zero => cases h
  | succ fuel ih =>
    have hfound : (keyset.rest rows cursor).Nodup := by
      cases cursor with
      | none => exact hnodup
      | some cursor => exact hnodup.filter _
    unfold follow at h
    dsimp only at h
    by_cases hmore : limit < (keyset.rest rows cursor).length
    · obtain ⟨last, hgetLast, hlast, hmem⟩ := exists_last hlimit hmore
      rw [if_pos hmore, hgetLast] at h
      obtain ⟨later, hlater, rfl⟩ := map_eq_some_iff.mp h
      have hout : (keyset.rest rows cursor).take limit ++ later = keyset.rest rows cursor ↔
          later = (keyset.rest rows cursor).drop limit := by
        have hwhole := take_append_drop limit (keyset.rest rows cursor)
        refine ⟨fun heq ↦ append_cancel_left (heq.trans hwhole.symm), ?_⟩
        rintro rfl
        exact hwhole
      rw [hout, splits_iff hlimit hmore hlast]
      constructor
      · intro heq
        -- what the first page holds does not come back, since no row comes twice
        have hnext : keyset.rest rows (some (keyset.cursorOf last)) = (keyset.rest rows cursor).drop limit := by
          have hafter : ∀ row ∈ (keyset.rest rows cursor).drop limit,
              keyset.after (keyset.cursorOf last) row = true := by
            intro row hrow
            exact (mem_filter.mp (mem_rest_of_follow hlater row (heq ▸ hrow))).2
          have hparts : keyset.rest rows (some (keyset.cursorOf last)) =
              ((keyset.rest rows cursor).take limit).filter (keyset.after (keyset.cursorOf last)) ++
                (keyset.rest rows cursor).drop limit := by
            rw [rest_cursorOf_eq hmem]
            conv_lhs => rw [← take_append_drop limit (keyset.rest rows cursor)]
            rw [filter_append, filter_eq_self.mpr hafter]
          have hhead := head?_follow hlimit hlater
          rw [hparts] at hhead ⊢
          cases hfirst : ((keyset.rest rows cursor).take limit).filter (keyset.after (keyset.cursorOf last)) with
          | nil => rfl
          | cons first more =>
            rw [hfirst, cons_append, head?_cons, heq] at hhead
            have hdrop : first ∈ (keyset.rest rows cursor).drop limit := mem_of_head? hhead
            have htake : first ∈ (keyset.rest rows cursor).take limit :=
              mem_of_mem_filter (hfirst ▸ mem_cons_self)
            exact absurd hdrop (disjoint_take_drop hfound (Nat.le_refl limit) htake)
        exact ⟨hnext, hnext ▸ (ih hlater).mp (heq.trans hnext.symm)⟩
      · rintro ⟨hnext, hsplits⟩
        rw [← hnext]
        exact (ih hlater).mpr (hnext ▸ hsplits)
    · rw [if_neg hmore] at h
      cases h
      rw [take_of_length_le (Nat.not_lt.mp hmore)]
      exact iff_of_true rfl (splits_of_length_le (Nat.not_lt.mp hmore))

/-- A filter that leaves the end of a list. -/
theorem filter_eq_drop_iff {p : R → Bool} (count : ℕ) :
    found.filter p = found.drop count ↔
      (∀ row ∈ found.take count, p row = false) ∧ ∀ row ∈ found.drop count, p row = true := by
  have hparts : found.filter p = (found.take count).filter p ++ (found.drop count).filter p := by
    rw [← filter_append, take_append_drop]
  constructor
  · intro heq
    have hdrop : ∀ row ∈ found.drop count, p row = true := fun row hrow ↦ of_mem_filter (heq ▸ hrow)
    rw [hparts, filter_eq_self.mpr hdrop] at heq
    have hnil := append_left_eq_self.mp heq
    exact ⟨fun row hrow ↦ eq_false_of_ne_true (filter_eq_nil_iff.mp hnil row hrow), hdrop⟩
  · rintro ⟨htake, hdrop⟩
    rw [hparts, filter_eq_self.mpr hdrop,
      filter_eq_nil_iff.mpr fun row hrow ↦ by simp [htake row hrow], nil_append]

end Keyset

end ContentGenerator.Lib
