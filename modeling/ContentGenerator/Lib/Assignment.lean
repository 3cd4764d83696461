import Mathlib.Data.List.Nodup
import Mathlib.Data.Set.Basic

/-!
# Members of labelled classes

A table of classes, each with a set of members and a label. A write replaces one class: its members and its
label. `Latest` says that nothing is a member of two classes and that everything some write named is a member
of a class that carries the label of the last write naming it.

A write knows only its own class, so it can leave a member behind in another class, or drop one that no class
takes over. `Keeps` excludes both for a batch of writes, and `latest_assignAll_iff` shows that it is exactly
what a batch has to meet.
-/

namespace ContentGenerator.Lib

open List

variable {κ α τ : Type*}

structure Classes (κ α τ : Type*) where
  members : κ → Set α
  label : κ → Option τ

structure Assign (κ α τ : Type*) where
  key : κ
  members : Set α
  label : τ

/-- The table without members. -/
def Classes.empty : Classes κ α τ where
  members := fun _ ↦ ∅
  label := fun _ ↦ none

open Classical in
noncomputable def Classes.assign (t : Classes κ α τ) (w : Assign κ α τ) : Classes κ α τ where
  members := fun k ↦ if k = w.key then w.members else t.members k
  label := fun k ↦ if k = w.key then some w.label else t.label k

/-- The table after a batch of writes. -/
noncomputable def Classes.assignAll (t : Classes κ α τ) (ws : List (Assign κ α τ)) : Classes κ α τ :=
  ws.foldl Classes.assign t

/-- The write is the last of the list that names the element. -/
def IsLast (ws : List (Assign κ α τ)) (a : α) (w : Assign κ α τ) : Prop :=
  a ∈ w.members ∧ ∃ before after, ws = before ++ w :: after ∧ ∀ later ∈ after, a ∉ later.members

/-- Nothing is in two classes, and what has been named is in a class with the label of the last write naming
it. -/
structure Latest (t : Classes κ α τ) (past : List (Assign κ α τ)) : Prop where
  one : ∀ a k k', a ∈ t.members k → a ∈ t.members k' → k = k'
  latest : ∀ a w, IsLast past a w → ∃ k, a ∈ t.members k ∧ t.label k = some w.label

/-- Members come from writes. -/
def Known (t : Classes κ α τ) (past : List (Assign κ α τ)) : Prop :=
  ∀ a k, a ∈ t.members k → ∃ w ∈ past, a ∈ w.members

/-- A batch names nothing twice, names nothing that another class keeps, and drops nothing it does not
name. -/
structure Keeps (t : Classes κ α τ) (ws : List (Assign κ α τ)) : Prop where
  apart : ∀ w ∈ ws, ∀ w' ∈ ws, ∀ a, a ∈ w.members → a ∈ w'.members → w.key = w'.key
  moved : ∀ w ∈ ws, ∀ a ∈ w.members, ∀ k, a ∈ t.members k → ∃ w' ∈ ws, w'.key = k
  named : ∀ w ∈ ws, ∀ a ∈ t.members w.key, ∃ w' ∈ ws, a ∈ w'.members

variable {t : Classes κ α τ} {w : Assign κ α τ} {ws past : List (Assign κ α τ)} {a : α} {k : κ}

/-! ### A batch of writes -/

theorem Classes.assign_self (t : Classes κ α τ) (w : Assign κ α τ) :
    (t.assign w).members w.key = w.members ∧ (t.assign w).label w.key = some w.label :=
  ⟨if_pos rfl, if_pos rfl⟩

theorem Classes.assign_of_ne (t : Classes κ α τ) (hkey : k ≠ w.key) :
    (t.assign w).members k = t.members k ∧ (t.assign w).label k = t.label k :=
  ⟨if_neg hkey, if_neg hkey⟩

/-- A class the batch does not write. -/
theorem Classes.assignAll_of_forall_ne (t : Classes κ α τ) (hkeys : ∀ w ∈ ws, w.key ≠ k) :
    (t.assignAll ws).members k = t.members k ∧ (t.assignAll ws).label k = t.label k := by
  induction ws generalizing t with
  | nil => exact ⟨rfl, rfl⟩
  | cons w rest ih =>
    obtain ⟨hmembers, hlabel⟩ := t.assign_of_ne (Ne.symm (hkeys w mem_cons_self))
    obtain ⟨hmembers', hlabel'⟩ := ih (t.assign w) fun w' hw' ↦ hkeys w' (mem_cons_of_mem _ hw')
    exact ⟨hmembers'.trans hmembers, hlabel'.trans hlabel⟩

/-- A class the batch writes once. -/
theorem Classes.assignAll_of_mem (t : Classes κ α τ) (hkeys : (ws.map Assign.key).Nodup) (hw : w ∈ ws) :
    (t.assignAll ws).members w.key = w.members ∧ (t.assignAll ws).label w.key = some w.label := by
  induction ws generalizing t with
  | nil => simp at hw
  | cons first rest ih =>
    rw [map_cons, nodup_cons] at hkeys
    rcases mem_cons.mp hw with rfl | hrest
    · -- the rest of the batch writes other classes
      have hothers : ∀ w' ∈ rest, w'.key ≠ w.key := fun w' hw' hkey ↦
        hkeys.1 (hkey ▸ mem_map_of_mem hw')
      obtain ⟨hmembers, hlabel⟩ := (t.assign w).assignAll_of_forall_ne hothers
      exact ⟨hmembers.trans (t.assign_self w).1, hlabel.trans (t.assign_self w).2⟩
    · exact ih (t.assign first) hkeys.2 hrest

/-- What is a member after the batch: of a class it writes, or of one it leaves. -/
theorem Classes.mem_assignAll (t : Classes κ α τ) (hkeys : (ws.map Assign.key).Nodup) :
    a ∈ (t.assignAll ws).members k ↔
      (∃ w ∈ ws, w.key = k ∧ a ∈ w.members) ∨ (∀ w ∈ ws, w.key ≠ k) ∧ a ∈ t.members k := by
  by_cases hwritten : ∃ w ∈ ws, w.key = k
  · obtain ⟨w, hw, rfl⟩ := hwritten
    rw [(t.assignAll_of_mem hkeys hw).1]
    constructor
    · exact fun ha ↦ .inl ⟨w, hw, rfl, ha⟩
    · rintro (⟨w', hw', hkey, ha⟩ | ⟨hnone, -⟩)
      · rwa [← inj_on_of_nodup_map hkeys hw' hw hkey]
      · exact absurd rfl (hnone w hw)
  · have hnone : ∀ w ∈ ws, w.key ≠ k := fun w hw hkey ↦ hwritten ⟨w, hw, hkey⟩
    rw [(t.assignAll_of_forall_ne hnone).1]
    constructor
    · exact fun ha ↦ .inr ⟨hnone, ha⟩
    · rintro (⟨w, hw, hkey, -⟩ | ⟨-, ha⟩)
      · exact absurd hkey (hnone w hw)
      · exact ha

/-- What has been named has a last write naming it. -/
theorem exists_isLast (hnamed : ∃ w ∈ ws, a ∈ w.members) : ∃ w, IsLast ws a w := by
  induction ws with
  | nil =>
    obtain ⟨w, hw, -⟩ := hnamed
    simp at hw
  | cons first rest ih =>
    by_cases hrest : ∃ w ∈ rest, a ∈ w.members
    · obtain ⟨w, ha, before, after, hsplit, hlater⟩ := ih hrest
      exact ⟨w, ha, first :: before, after, congrArg (List.cons first) hsplit, hlater⟩
    · obtain ⟨w, hw, ha⟩ := hnamed
      rcases mem_cons.mp hw with rfl | hin
      · exact ⟨w, ha, [], rest, rfl, fun later hlater hin ↦ hrest ⟨later, hlater, hin⟩⟩
      · exact absurd ⟨w, hin, ha⟩ hrest

/-- The last write of a run is in its last batch, or that batch does not name the element. -/
theorem isLast_append : IsLast (past ++ ws) a w ↔ IsLast ws a w ∨ IsLast past a w ∧ ∀ w' ∈ ws, a ∉ w'.members := by
  constructor
  · rintro ⟨ha, before, after, hsplit, hlater⟩
    rcases append_eq_append_iff.mp hsplit with ⟨middle, hbefore, hws⟩ | ⟨middle, hpast, hrest⟩
    · exact .inl ⟨ha, middle, after, hws, hlater⟩
    · cases middle with
      | nil =>
        rw [nil_append] at hrest
        exact .inl ⟨ha, [], after, hrest.symm, hlater⟩
      | cons head middle =>
        obtain ⟨rfl, rfl⟩ := List.cons.inj hrest
        refine .inr ⟨⟨ha, before, middle, hpast, fun later hmem ↦ ?_⟩, fun later hmem ↦ ?_⟩
        · exact hlater later (mem_append_left _ hmem)
        · exact hlater later (mem_append_right _ hmem)
  · rintro (⟨ha, before, after, rfl, hlater⟩ | ⟨⟨ha, before, after, rfl, hlater⟩, hnone⟩)
    · exact ⟨ha, past ++ before, after, (append_assoc _ _ _).symm, hlater⟩
    · refine ⟨ha, before, after ++ ws, append_assoc _ _ _, fun later hmem ↦ ?_⟩
      rcases mem_append.mp hmem with hold | hnew
      · exact hlater later hold
      · exact hnone later hnew

theorem IsLast.mem (h : IsLast ws a w) : w ∈ ws := by
  obtain ⟨-, before, after, rfl, -⟩ := h
  exact mem_append_right _ mem_cons_self

/-! ### What a batch keeps -/

theorem Known.assignAll (h : Known t past) (hkeys : (ws.map Assign.key).Nodup) :
    Known (t.assignAll ws) (past ++ ws) := by
  intro a k ha
  rcases (t.mem_assignAll hkeys).mp ha with ⟨w, hw, -, hin⟩ | ⟨-, hold⟩
  · exact ⟨w, mem_append_right _ hw, hin⟩
  · obtain ⟨w, hw, hin⟩ := h a k hold
    exact ⟨w, mem_append_left _ hw, hin⟩

theorem Latest.assignAll (h : Latest t past) (hkeys : (ws.map Assign.key).Nodup) (hkeeps : Keeps t ws) :
    Latest (t.assignAll ws) (past ++ ws) where
  one := by
    intro a k k' ha ha'
    rcases (t.mem_assignAll hkeys).mp ha with ⟨w, hw, rfl, hin⟩ | ⟨hnone, hold⟩
    · rcases (t.mem_assignAll hkeys).mp ha' with ⟨w', hw', rfl, hin'⟩ | ⟨hnone', hold'⟩
      · exact hkeeps.apart w hw w' hw' a hin hin'
      · obtain ⟨w', hw', hkey⟩ := hkeeps.moved w hw a hin k' hold'
        exact absurd hkey (hnone' w' hw')
    · rcases (t.mem_assignAll hkeys).mp ha' with ⟨w', hw', rfl, hin'⟩ | ⟨-, hold'⟩
      · obtain ⟨w, hw, hkey⟩ := hkeeps.moved w' hw' a hin' k hold
        exact absurd hkey (hnone w hw)
      · exact h.one a k k' hold hold'
  latest := by
    intro a w hlast
    rcases isLast_append.mp hlast with hnew | ⟨hold, hunnamed⟩
    · obtain ⟨hmembers, hlabel⟩ := t.assignAll_of_mem hkeys hnew.mem
      exact ⟨w.key, hmembers ▸ hnew.1, hlabel⟩
    · -- the class that holds the element is not written: it would have to name it
      obtain ⟨k, hin, hlabel⟩ := h.latest a w hold
      have hnone : ∀ w' ∈ ws, w'.key ≠ k := by
        rintro w' hw' rfl
        obtain ⟨other, hother, hnamed⟩ := hkeeps.named w' hw' a hin
        exact hunnamed other hother hnamed
      obtain ⟨hmembers, hlabel'⟩ := t.assignAll_of_forall_ne hnone
      exact ⟨k, hmembers ▸ hin, hlabel'.trans hlabel⟩

theorem Latest.keeps (h : Latest (t.assignAll ws) (past ++ ws)) (hbefore : Latest t past) (hknown : Known t past)
    (hkeys : (ws.map Assign.key).Nodup) : Keeps t ws where
  apart := fun w hw w' hw' a hin hin' ↦
    h.one a w.key w'.key ((t.mem_assignAll hkeys).mpr (.inl ⟨w, hw, rfl, hin⟩))
      ((t.mem_assignAll hkeys).mpr (.inl ⟨w', hw', rfl, hin'⟩))
  moved := by
    intro w hw a hin k hold
    by_contra hnone
    have hkept : ∀ w' ∈ ws, w'.key ≠ k := fun w' hw' hkey ↦ hnone ⟨w', hw', hkey⟩
    have hkey := h.one a w.key k ((t.mem_assignAll hkeys).mpr (.inl ⟨w, hw, rfl, hin⟩))
      ((t.mem_assignAll hkeys).mpr (.inr ⟨hkept, hold⟩))
    exact hkept w hw hkey
  named := by
    intro w hw a hold
    obtain ⟨named, hmem, hin⟩ := hknown a w.key hold
    obtain ⟨last, hlast⟩ := exists_isLast ⟨named, mem_append_left ws hmem, hin⟩
    obtain ⟨k, hafter, -⟩ := h.latest a last hlast
    rcases (t.mem_assignAll hkeys).mp hafter with ⟨w', hw', -, hin'⟩ | ⟨hnone, hstill⟩
    · exact ⟨w', hw', hin'⟩
    · exact absurd (hbefore.one a w.key k hold hstill) (hnone w hw)

/-- A batch keeps every member with its latest label exactly when it names nothing twice, nothing another
class keeps, and everything it drops. -/
theorem latest_assignAll_iff (hbefore : Latest t past) (hknown : Known t past)
    (hkeys : (ws.map Assign.key).Nodup) : Latest (t.assignAll ws) (past ++ ws) ↔ Keeps t ws :=
  ⟨fun h ↦ h.keeps hbefore hknown hkeys, hbefore.assignAll hkeys⟩

end ContentGenerator.Lib
