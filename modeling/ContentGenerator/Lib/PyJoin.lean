import Mathlib.Data.List.Infix
import ContentGenerator.Lib.PyValue

/-!
# Splitting a text and joining it again

`pyJoin separator parts` is `separator.join(parts)` for a separator of one character. Joining the parts of a
text gives the text back (`pyJoin_pySplit`); splitting a joined text gives the parts back when none of them
holds the separator (`pySplit_pyJoin`), and the parts of a split never do (`notMem_of_mem_pySplit`). A text
without a blank is found in texts joined by blanks exactly where it is found in one of them
(`pyIn_pyLower_intercalate`).
-/

namespace ContentGenerator.Lib

open List

variable {needle : String}

open String (ofList ofList_toList toList toList_append toList_ofList)

/-- `separator.join(parts)` for a separator of one character. -/
def pyJoin (separator : Char) (parts : List String) : String :=
  ofList ([separator].intercalate (parts.map toList))

variable {separator : Char} {parts : List String} {s part : String}

theorem pySplit_eq_splitOn (separator : Char) (s : String) :
    pySplit separator s = (s.toList.splitOn separator).map ofList := by
  unfold pySplit
  rw [splitOn_eq_splitOnP]
  rfl

@[simp] theorem pyJoin_pySplit (separator : Char) (s : String) :
    pyJoin separator (pySplit separator s) = s := by
  have htexts : (pySplit separator s).map toList = s.toList.splitOn separator := by
    rw [pySplit_eq_splitOn, map_map]
    refine map_id'' (fun chars ↦ ?_) _
    exact toList_ofList
  unfold pyJoin
  rw [htexts, intercalate_splitOn, ofList_toList]

theorem pySplit_pyJoin (hfree : ∀ part ∈ parts, separator ∉ part.toList) (hparts : parts ≠ []) :
    pySplit separator (pyJoin separator parts) = parts := by
  have hchars : ∀ chars ∈ parts.map toList, separator ∉ chars := by
    intro chars hmem
    obtain ⟨part, hpart, rfl⟩ := mem_map.mp hmem
    exact hfree part hpart
  rw [pySplit_eq_splitOn, pyJoin, toList_ofList,
    splitOn_intercalate separator hchars (by simpa using hparts), map_map]
  refine map_id'' (fun part ↦ ?_) _
  exact ofList_toList

theorem notMem_of_mem_splitOn {text chars : List Char} (h : chars ∈ text.splitOn separator) :
    separator ∉ chars := by
  induction text generalizing chars with
  | nil =>
    rw [splitOn_nil, mem_singleton] at h
    rw [h]
    exact not_mem_nil
  | cons c rest ih =>
    rw [splitOn_cons_eq_if_modifyHead] at h
    split_ifs at h with hc
    · rcases mem_cons.mp h with rfl | hrest
      · exact not_mem_nil
      · exact ih hrest
    · obtain ⟨first, others, hsplit⟩ := exists_cons_of_ne_nil (splitOn_ne_nil separator rest)
      rw [hsplit] at h ih
      rw [modifyHead_cons] at h
      rcases mem_cons.mp h with rfl | hothers
      · have hfirst := ih mem_cons_self
        exact not_mem_cons_of_ne_of_not_mem (fun heq ↦ hc (beq_iff_eq.mpr heq.symm)) hfirst
      · exact ih (mem_cons_of_mem _ hothers)

/-- The parts of a split do not hold the separator. -/
theorem notMem_of_mem_pySplit (h : part ∈ pySplit separator s) : separator ∉ part.toList := by
  rw [pySplit_eq_splitOn] at h
  obtain ⟨chars, hchars, rfl⟩ := mem_map.mp h
  rw [toList_ofList]
  exact notMem_of_mem_splitOn hchars

theorem pyJoin_singleton (separator : Char) (only : String) : pyJoin separator [only] = only := by
  rw [pyJoin, map_singleton, intercalate_singleton, ofList_toList]

theorem pyJoin_cons_cons (separator : Char) (first second : String) (rest : List String) :
    pyJoin separator (first :: second :: rest) =
      first ++ String.singleton separator ++ pyJoin separator (second :: rest) := by
  refine String.toList_injective ?_
  rw [toList_append, toList_append, String.toList_singleton, pyJoin, pyJoin, toList_ofList,
    toList_ofList, map_cons, map_cons, intercalate_cons_cons]

/-! ### Finding a text in a joined text -/

theorem pyIn_iff : pyIn needle s ↔ needle.toList <:+: s.toList := by
  unfold pyIn
  rw [any_eq_true, infix_iff_prefix_suffix]
  refine exists_congr fun suffix ↦ ?_
  rw [mem_tails, isPrefixOf_iff_prefix, and_comm]

theorem infix_append_cons_iff {α : Type*} {needle left right : List α} {middle : α} (h : middle ∉ needle) :
    needle <:+: left ++ middle :: right ↔ needle <:+: left ∨ needle <:+: right := by
  constructor
  · rintro ⟨before, after, heq⟩
    rw [append_assoc] at heq
    rcases append_eq_append_iff.mp heq with ⟨rest, hleft, hrest⟩ | ⟨rest, hbefore, hrest⟩
    · rcases append_eq_append_iff.mp hrest with ⟨tail, rfl, -⟩ | ⟨tail, hneedle, htail⟩
      · exact .inl ⟨before, tail, by rw [hleft, append_assoc]⟩
      · cases tail with
        | nil => exact .inl ⟨before, [], by rw [hleft, hneedle, append_nil, append_nil]⟩
        | cons c tail =>
          rw [cons_append, List.cons.injEq] at htail
          rw [hneedle, ← htail.1] at h
          exact absurd (mem_append_right _ mem_cons_self) h
    · cases rest with
      | nil =>
        cases needle with
        | nil => exact .inr nil_infix
        | cons c needle =>
          rw [nil_append, cons_append, List.cons.injEq] at hrest
          exact absurd (hrest.1 ▸ mem_cons_self) h
      | cons c rest =>
        rw [cons_append, List.cons.injEq] at hrest
        exact .inr ⟨rest, after, by rw [hrest.2, append_assoc]⟩
  · rintro (hleft | hright)
    · exact hleft.trans (prefix_append _ _).isInfix
    · exact hright.trans ((suffix_cons _ _).trans (suffix_append _ _)).isInfix

/-- A text without a blank is found on one side of it. -/
theorem pyIn_blank {left right : String} (hblank : ' ' ∉ needle.toList) :
    pyIn needle (left ++ " " ++ right) ↔ pyIn needle left ∨ pyIn needle right := by
  have hchars : (left ++ " " ++ right).toList = left.toList ++ ' ' :: right.toList := by
    rw [toList_append, toList_append, append_assoc]
    rfl
  rw [pyIn_iff, pyIn_iff, pyIn_iff, hchars]
  exact infix_append_cons_iff hblank

theorem pyLower_append (left right : String) : pyLower (left ++ right) = pyLower left ++ pyLower right := by
  refine String.toList_injective ?_
  simp only [pyLower, toList_append, toList_ofList, flatMap_append]

/-- A text without a blank is found in the lower case of a joined text exactly if it is found in that of a
part. -/
theorem pyIn_pyLower_intercalate (hblank : ' ' ∉ needle.toList) (hneedle : needle ≠ "") :
    pyIn needle (pyLower (" ".intercalate parts)) ↔ ∃ part ∈ parts, pyIn needle (pyLower part) := by
  induction parts with
  | nil =>
    rw [String.intercalate_nil, pyIn_iff]
    constructor
    · intro h
      exact absurd (String.toList_eq_nil_iff.mp (infix_nil.mp h)) hneedle
    · rintro ⟨part, hpart, -⟩
      simp at hpart
  | cons first rest ih =>
    cases rest with
    | nil => rw [String.intercalate_singleton]; simp
    | cons second rest =>
      have hlower : pyLower " " = " " := rfl
      rw [String.intercalate_cons_cons, pyLower_append, pyLower_append, hlower, pyIn_blank hblank, ih]
      exact (exists_mem_cons_iff (fun part ↦ pyIn needle (pyLower part) = true) _ _).symm

end ContentGenerator.Lib
