import Mathlib.Data.List.Basic

/-!
# The first element of every key

What a list leaves in a store that refuses a second entry of a key: `firstOf` keeps an element when its key
is neither taken before nor the key of an element kept before it. A list in two parts is kept part by part,
with the keys of the first one taken (`firstOf_append`), and leaving out elements changes nothing exactly when
no kept one is left out (`firstOf_filter_eq_iff`).
-/

namespace ContentGenerator.Lib

open List

variable {A B κ : Type*} [DecidableEq κ]

/-- The elements whose keys are neither taken nor those of kept elements before them. -/
def firstOf (key : A → κ) (taken : List κ) : List A → List A
  | [] => []
  | a :: rest => if key a ∈ taken then firstOf key taken rest else a :: firstOf key (key a :: taken) rest

variable {key : A → κ} {taken : List κ} {a b : A}

theorem firstOf_cons_of_mem {rest : List A} (h : key a ∈ taken) :
    firstOf key taken (a :: rest) = firstOf key taken rest := by
  rw [firstOf, if_pos h]

theorem firstOf_cons_of_notMem {rest : List A} (h : key a ∉ taken) :
    firstOf key taken (a :: rest) = a :: firstOf key (key a :: taken) rest := by
  rw [firstOf, if_neg h]

/-- Only which keys are taken matters. -/
theorem firstOf_congr {taken' : List κ} (h : ∀ k, k ∈ taken ↔ k ∈ taken') (values : List A) :
    firstOf key taken values = firstOf key taken' values := by
  induction values generalizing taken taken' with
  | nil => rfl
  | cons a rest ih =>
    by_cases ha : key a ∈ taken
    · rw [firstOf_cons_of_mem ha, firstOf_cons_of_mem ((h _).mp ha), ih h]
    · rw [firstOf_cons_of_notMem ha, firstOf_cons_of_notMem fun ha' ↦ ha ((h _).mpr ha')]
      refine congrArg (a :: ·) (ih fun k ↦ ?_)
      rw [mem_cons, mem_cons, h]

theorem firstOf_append (values rest : List A) :
    firstOf key taken (values ++ rest) =
      firstOf key taken values ++ firstOf key (taken ++ (firstOf key taken values).map key) rest := by
  induction values generalizing taken with
  | nil => rw [nil_append, firstOf, nil_append, map_nil, append_nil]
  | cons a values ih =>
    rw [cons_append]
    by_cases ha : key a ∈ taken
    · rw [firstOf_cons_of_mem ha, firstOf_cons_of_mem ha, ih]
    · rw [firstOf_cons_of_notMem ha, firstOf_cons_of_notMem ha, ih, cons_append, map_cons]
      refine congrArg (fun kept ↦ a :: (_ ++ kept)) (firstOf_congr (fun k ↦ ?_) rest)
      exact perm_middle.symm.mem_iff

theorem firstOf_map (f : B → A) (values : List B) :
    firstOf key taken (values.map f) = (firstOf (key ∘ f) taken values).map f := by
  induction values generalizing taken with
  | nil => rfl
  | cons b rest ih =>
    rw [map_cons]
    by_cases hb : key (f b) ∈ taken
    · have hcomp : (key ∘ f) b ∈ taken := hb
      rw [firstOf_cons_of_mem hb, firstOf_cons_of_mem hcomp, ih]
    · have hcomp : (key ∘ f) b ∉ taken := hb
      rw [firstOf_cons_of_notMem hb, firstOf_cons_of_notMem hcomp, ih]
      rfl

/-- An element is kept exactly when its key is not taken and it is the first one with it. -/
theorem mem_firstOf_iff {values : List A} :
    a ∈ firstOf key taken values ↔ key a ∉ taken ∧ values.find? (fun b ↦ key b = key a) = some a := by
  induction values generalizing taken with
  | nil => simp [firstOf]
  | cons b rest ih =>
    by_cases hkey : key b = key a
    · rw [find?_cons_of_pos (by simpa using hkey), Option.some.injEq]
      by_cases hb : key b ∈ taken
      · rw [firstOf_cons_of_mem hb, ih]
        exact iff_of_false (fun h ↦ h.1 (hkey ▸ hb)) fun h ↦ h.1 (hkey ▸ hb)
      · rw [firstOf_cons_of_notMem hb, mem_cons, ih, hkey, eq_comm (a := a)]
        refine ⟨?_, fun h ↦ .inl h.2⟩
        rintro (rfl | h)
        · exact ⟨hb, rfl⟩
        · exact absurd mem_cons_self h.1
    · rw [find?_cons_of_neg (by simpa using hkey)]
      have hne : a ≠ b := fun h ↦ hkey (congrArg key h.symm)
      by_cases hb : key b ∈ taken
      · rw [firstOf_cons_of_mem hb, ih]
      · rw [firstOf_cons_of_notMem hb, mem_cons, or_iff_right hne, ih, mem_cons, not_or]
        exact and_congr_left fun _ ↦ and_iff_right (Ne.symm hkey)

theorem mem_of_mem_firstOf {values : List A} (h : a ∈ firstOf key taken values) : a ∈ values :=
  mem_of_find?_eq_some (mem_firstOf_iff.mp h).2

theorem mem_taken_or_kept {values : List A} (h : a ∈ values) :
    key a ∈ taken ∨ ∃ b ∈ firstOf key taken values, key b = key a := by
  by_cases htaken : key a ∈ taken
  · exact .inl htaken
  · cases hfirst : values.find? (fun b ↦ key b = key a) with
    | none => exact absurd (find?_eq_none.mp hfirst a h) (by simp)
    | some b =>
      have hkey : key b = key a := by simpa using find?_some hfirst
      refine .inr ⟨b, mem_firstOf_iff.mpr ⟨?_, ?_⟩, hkey⟩
      · rw [hkey]
        exact htaken
      · rw [hkey]
        exact hfirst

theorem firstOf_eq_nil_iff {values : List A} : firstOf key taken values = [] ↔ ∀ a ∈ values, key a ∈ taken := by
  refine ⟨fun h a ha ↦ (mem_taken_or_kept ha).resolve_right ?_, fun h ↦ ?_⟩
  · rw [h]
    rintro ⟨b, hb, -⟩
    exact not_mem_nil hb
  · refine eq_nil_iff_forall_not_mem.mpr fun a ha ↦ ?_
    exact (mem_firstOf_iff.mp ha).1 (h a (mem_of_mem_firstOf ha))

/-- Leaving out elements changes nothing exactly when no kept one is left out. -/
theorem firstOf_filter_eq_iff {values : List A} (keep : A → Bool) :
    firstOf key taken (values.filter keep) = firstOf key taken values ↔
      ∀ a ∈ firstOf key taken values, keep a = true := by
  constructor
  · intro h a ha
    rw [← h] at ha
    exact (mem_filter.mp (mem_of_mem_firstOf ha)).2
  · intro h
    induction values generalizing taken with
    | nil => rfl
    | cons a rest ih =>
      by_cases ha : key a ∈ taken
      · rw [firstOf_cons_of_mem ha] at h ⊢
        rw [← ih h]
        cases hkeep : keep a with
        | false => rw [filter_cons_of_neg (by simp [hkeep])]
        | true => rw [filter_cons_of_pos hkeep, firstOf_cons_of_mem ha]
      · rw [firstOf_cons_of_notMem ha] at h ⊢
        rw [filter_cons_of_pos (h a mem_cons_self), firstOf_cons_of_notMem ha,
          ih fun b hb ↦ h b (mem_cons_of_mem a hb)]

theorem firstOf_sublist_filter (values : List A) :
    (firstOf key taken values).Sublist (values.filter fun a ↦ key a ∉ taken) := by
  induction values generalizing taken with
  | nil => exact List.Sublist.slnil
  | cons a rest ih =>
    by_cases ha : key a ∈ taken
    · rw [firstOf_cons_of_mem ha, filter_cons_of_neg (by simpa using ha)]
      exact ih
    · rw [firstOf_cons_of_notMem ha, filter_cons_of_pos (by simpa using ha)]
      refine (ih.trans (monotone_filter_right rest fun b hb ↦ ?_)).cons_cons a
      simp only [mem_cons, not_or, decide_eq_true_eq] at hb ⊢
      exact hb.2

theorem nodup_map_firstOf (values : List A) : ((firstOf key taken values).map key).Nodup := by
  induction values generalizing taken with
  | nil => exact nodup_nil
  | cons a rest ih =>
    by_cases ha : key a ∈ taken
    · rw [firstOf_cons_of_mem ha]
      exact ih
    · rw [firstOf_cons_of_notMem ha, map_cons, nodup_cons]
      refine ⟨fun hmem ↦ ?_, ih⟩
      obtain ⟨b, hb, hkey⟩ := mem_map.mp hmem
      exact (mem_firstOf_iff.mp hb).1 (hkey ▸ mem_cons_self)

/-- As many elements are kept as have new keys exactly when no new key occurs twice. -/
theorem length_firstOf_eq_iff (values : List A) :
    (firstOf key taken values).length = (values.filter fun a ↦ key a ∉ taken).length ↔
      ((values.filter fun a ↦ key a ∉ taken).map key).Nodup := by
  constructor
  · intro h
    rw [← (firstOf_sublist_filter values).eq_of_length h]
    exact nodup_map_firstOf values
  · intro h
    refine congrArg length ?_
    induction values generalizing taken with
    | nil => rfl
    | cons a rest ih =>
      by_cases ha : key a ∈ taken
      · rw [filter_cons_of_neg (by simpa using ha)] at h ⊢
        rw [firstOf_cons_of_mem ha, ih h]
      · rw [filter_cons_of_pos (by simpa using ha), map_cons, nodup_cons] at h
        have hrest : rest.filter (fun b ↦ key b ∉ key a :: taken) = rest.filter fun b ↦ key b ∉ taken := by
          refine filter_congr fun b hb ↦ decide_eq_decide.mpr ?_
          rw [mem_cons, not_or]
          refine and_iff_right_of_imp fun hnew hsame ↦ h.1 (hsame ▸ ?_)
          exact mem_map_of_mem (mem_filter.mpr ⟨hb, decide_eq_true hnew⟩)
        rw [firstOf_cons_of_notMem ha, filter_cons_of_pos (by simpa using ha), ih (by rw [hrest]; exact h.2),
          hrest]

theorem firstOf_firstOf (values : List A) : firstOf key [] (firstOf key [] values) = firstOf key [] values := by
  have hlength : (firstOf key [] (firstOf key [] values)).length = _ :=
    (length_firstOf_eq_iff _).mpr (by simpa using nodup_map_firstOf values)
  simpa using (firstOf_sublist_filter (firstOf key [] values)).eq_of_length hlength

end ContentGenerator.Lib
