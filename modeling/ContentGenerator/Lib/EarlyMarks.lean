import Mathlib.Data.List.Perm.Lattice

/-!
# Marked elements at the front, in any order of the blocks

Blocks of elements are laid out one after the other and only the first `limit` elements are looked at.
Whether a marked element is among them depends on the order of the blocks. `seenEarly_perm_iff` says when
it does not: a block with a marked element, put behind all blocks without one, still has its first mark
within the limit.
-/

namespace ContentGenerator.Lib

open List

variable {A α : Type*} (block : A → List α) (marked : α → Bool) (limit : ℕ)

def seenEarly (items : List A) : Bool := ((items.flatMap block).take limit).any marked

def isClear (item : A) : Bool := !(block item).any marked

/-- The number of elements in the blocks without a marked one. -/
def clearLength (items : List A) : ℕ := ((items.filter (isClear block marked)).flatMap block).length

/-- Every block with a marked element has its first one within the limit, also behind all clear blocks. -/
def AlwaysEarly (items : List A) : Prop :=
  ∀ item ∈ items, (block item).any marked →
    clearLength block marked items + (block item).findIdx marked < limit

theorem any_take_iff {marked : α → Bool} (elements : List α) (limit : ℕ) :
    (elements.take limit).any marked ↔ elements.any marked ∧ elements.findIdx marked < limit := by
  induction elements generalizing limit with
  | nil => simp
  | cons first rest ih =>
    cases limit with
    | zero => simp
    | succ limit =>
      rw [take_succ_cons, any_cons, any_cons, findIdx_cons]
      cases hfirst : marked first with
      | true => simp
      | false =>
        simp only [Bool.false_or, cond_false, Nat.succ_lt_succ_iff]
        exact ih limit

variable {block marked limit}

theorem clear_flatMap {items : List A} (h : ∀ item ∈ items, isClear block marked item) :
    ¬ ∃ element, element ∈ items.flatMap block ∧ marked element = true := by
  rintro ⟨element, helement, hmarked⟩
  obtain ⟨item, hitem, hmem⟩ := mem_flatMap.mp helement
  have hclear := h item hitem
  rw [isClear, Bool.not_eq_true', any_eq_false] at hclear
  exact hclear element hmem hmarked

/-- Behind clear blocks a block with a marked element has the first mark of all. -/
theorem seenEarly_append (clear : List A) (hclear : ∀ item ∈ clear, isClear block marked item) {item : A}
    (hitem : (block item).any marked) (rest : List A) :
    seenEarly block marked limit (clear ++ item :: rest) ↔
      (clear.flatMap block).length + (block item).findIdx marked < limit := by
  have hfirst : ∃ element, element ∈ block item ∧ marked element = true := any_eq_true.mp hitem
  obtain ⟨element, hmem, hmarked⟩ := hfirst
  have hsome : ((clear ++ item :: rest).flatMap block).any marked = true := by
    refine any_eq_true.mpr ⟨element, mem_flatMap.mpr ⟨item, ?_, hmem⟩, hmarked⟩
    exact mem_append_right _ mem_cons_self
  unfold seenEarly
  rw [any_take_iff, hsome, flatMap_append, flatMap_cons, findIdx_append,
    if_neg fun h ↦ clear_flatMap hclear (findIdx_lt_length.mp h), findIdx_append,
    if_pos (findIdx_lt_length.mpr ⟨element, hmem, hmarked⟩), Nat.add_comm]
  exact and_iff_right rfl

theorem clearLength_append (items rest : List A) :
    clearLength block marked (items ++ rest) = clearLength block marked items + clearLength block marked rest := by
  unfold clearLength
  rw [filter_append, flatMap_append, length_append]

theorem clearLength_of_clear {items : List A} (h : ∀ item ∈ items, isClear block marked item) :
    clearLength block marked items = (items.flatMap block).length := by
  rw [clearLength, filter_eq_self.mpr h]

theorem clearLength_cons_marked {item : A} (h : (block item).any marked) (items : List A) :
    clearLength block marked (item :: items) = clearLength block marked items := by
  rw [clearLength, filter_cons_of_neg (by simp [isClear, h]), clearLength]

theorem clearLength_perm {items items' : List A} (h : items.Perm items') :
    clearLength block marked items = clearLength block marked items' :=
  ((h.filter _).flatMap_right block).length_eq

theorem AlwaysEarly.perm {items items' : List A} (h : AlwaysEarly block marked limit items)
    (hperm : items'.Perm items) : AlwaysEarly block marked limit items' := by
  intro item hitem hmarked
  rw [clearLength_perm hperm]
  exact h item (hperm.mem_iff.mp hitem) hmarked

theorem AlwaysEarly.seen {items : List A} (h : AlwaysEarly block marked limit items)
    (hmarked : (items.flatMap block).any marked) : seenEarly block marked limit items := by
  obtain ⟨element, helement, hmark⟩ := any_eq_true.mp hmarked
  obtain ⟨item, hitem, hmem⟩ := mem_flatMap.mp helement
  have hany : (block item).any marked = true := any_eq_true.mpr ⟨element, hmem, hmark⟩
  have hfound : (items.find? fun other ↦ (block other).any marked).isSome :=
    find?_isSome.mpr ⟨item, hitem, hany⟩
  obtain ⟨first, hfirst⟩ := Option.isSome_iff_exists.mp hfound
  obtain ⟨hfirstMarked, before, rest, rfl, hbefore⟩ := find?_eq_some_iff_append.mp hfirst
  have hclear : ∀ other ∈ before, isClear block marked other := hbefore
  rw [seenEarly_append before hclear hfirstMarked]
  have hearly := h first (mem_append_right _ mem_cons_self) hfirstMarked
  rw [clearLength_append, clearLength_of_clear hclear] at hearly
  omega

/-- What is seen does not depend on the order of the blocks exactly if every mark comes early. -/
theorem seenEarly_perm_iff {items : List A} (hlimit : ∀ item ∈ items, (block item).length ≤ limit) :
    (∀ items', items'.Perm items → seenEarly block marked limit items' = seenEarly block marked limit items) ↔
      AlwaysEarly block marked limit items := by
  constructor
  · intro hsame item hitem hmarked
    obtain ⟨before, rest, rfl⟩ := append_of_mem hitem
    -- in front of all other blocks the block shows its mark
    have hfront : seenEarly block marked limit (item :: (before ++ rest)) := by
      refine (seenEarly_append [] (by simp) hmarked _).mpr ?_
      rw [flatMap_nil, length_nil, Nat.zero_add]
      exact Nat.lt_of_lt_of_le (findIdx_lt_length.mpr (any_eq_true.mp hmarked)) (hlimit item hitem)
    rw [hsame _ perm_middle.symm] at hfront
    -- behind all clear blocks its mark is the first, so it has to be within the limit
    have hclear : ∀ other ∈ (before ++ rest).filter (isClear block marked), isClear block marked other :=
      fun other hother ↦ of_mem_filter hother
    have hperm : ((before ++ rest).filter (isClear block marked) ++
        item :: (before ++ rest).filter fun other ↦ !isClear block marked other).Perm (before ++ item :: rest) :=
      perm_middle.trans (((filter_append_perm _ _).cons item).trans perm_middle.symm)
    have hlast := (seenEarly_append _ hclear hmarked _).mp ((hsame _ hperm).trans hfront)
    rw [clearLength_perm perm_middle, clearLength_cons_marked hmarked]
    exact hlast
  · intro hearly items' hperm
    refine Bool.eq_iff_iff.mpr ⟨fun hseen ↦ hearly.seen ?_, fun hseen ↦ (hearly.perm hperm).seen ?_⟩
    · rw [← (hperm.flatMap_right block).any_eq]
      exact ((any_take_iff _ _).mp hseen).1
    · rw [(hperm.flatMap_right block).any_eq]
      exact ((any_take_iff _ _).mp hseen).1

end ContentGenerator.Lib
