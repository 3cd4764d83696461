import Mathlib.Data.List.Basic

/-!
# Operations one after the other

A system with a total step function `apply : σ → ο → σ` and the list of the operations of a run.
`Along` says of every operation of the run what it finds when it is its turn. `Along.invariant` is the
invariant rule, `along_congr` compares two conditions under an invariant, `along_apply_iff` turns a fact
about every step into one about every state of the run, and `along_related_iff` a fact about the two
states of every step into one about any two moments.
-/

namespace ContentGenerator.Lib

open List

variable {σ ο : Type*} (apply : σ → ο → σ)

def play (ops : List ο) (s : σ) : σ := ops.foldl apply s

/-- Every operation finds `P` when it is its turn. -/
def Along (P : σ → ο → Prop) : List ο → σ → Prop
  | [], _ => True
  | op :: rest, s => P s op ∧ Along P rest (apply s op)

variable {apply}

/-- Whether the operations of a run find a decidable condition can be evaluated. -/
instance instDecidableAlong {P : σ → ο → Prop} [∀ s op, Decidable (P s op)] :
    (ops : List ο) → (s : σ) → Decidable (Along apply P ops s)
  | [], _ => .isTrue trivial
  | op :: rest, s => @instDecidableAnd _ _ _ (instDecidableAlong rest (apply s op))

@[simp] theorem play_nil (s : σ) : play apply [] s = s := rfl

@[simp] theorem play_cons (op : ο) (rest : List ο) (s : σ) :
    play apply (op :: rest) s = play apply rest (apply s op) := rfl

theorem play_append (first second : List ο) (s : σ) :
    play apply (first ++ second) s = play apply second (play apply first s) :=
  foldl_append

variable {P Q : σ → ο → Prop} {Inv : σ → Prop}

/-- What every operation preserves that finds `P` holds at the end. -/
theorem Along.invariant {ops : List ο} {s : σ} (h : Along apply P ops s)
    (hstep : ∀ s op, Inv s → P s op → Inv (apply s op)) (hstart : Inv s) : Inv (play apply ops s) := by
  induction ops generalizing s with
  | nil => exact hstart
  | cons op rest ih => exact ih h.2 (hstep s op hstart h.1)

theorem Along.mono {ops : List ο} {s : σ} (h : Along apply P ops s) (hmono : ∀ s op, P s op → Q s op) :
    Along apply Q ops s := by
  induction ops generalizing s with
  | nil => trivial
  | cons op rest ih => exact ⟨hmono s op h.1, ih h.2⟩

/-- An invariant of the run may be used to weaken what the operations find. -/
theorem Along.mono_invariant {ops : List ο} {s : σ} (h : Along apply P ops s)
    (hstep : ∀ s op, Inv s → P s op → Inv (apply s op)) (hmono : ∀ s op, Inv s → P s op → Q s op)
    (hstart : Inv s) : Along apply Q ops s := by
  induction ops generalizing s with
  | nil => trivial
  | cons op rest ih => exact ⟨hmono s op hstart h.1, ih h.2 (hstep s op hstart h.1)⟩

/-- What holds of every operation of the list holds when it is its turn. -/
theorem Along.and_mem {ops : List ο} {s : σ} {R : ο → Prop} (h : Along apply P ops s) (hmem : ∀ op ∈ ops, R op) :
    Along apply (fun s op ↦ P s op ∧ R op) ops s := by
  induction ops generalizing s with
  | nil => trivial
  | cons op rest ih =>
    exact ⟨⟨h.1, hmem op mem_cons_self⟩, ih h.2 fun other hother ↦ hmem other (mem_cons_of_mem _ hother)⟩

theorem along_true (ops : List ο) (s : σ) : Along apply (fun _ _ ↦ True) ops s := by
  induction ops generalizing s with
  | nil => trivial
  | cons op rest ih => exact ⟨trivial, ih _⟩

/-- What every operation preserves holds at the end. -/
theorem play_invariant (hstep : ∀ s op, Inv s → Inv (apply s op)) (ops : List ο) {s : σ}
    (hstart : Inv s) : Inv (play apply ops s) :=
  (along_true ops s).invariant (fun s op hs _ ↦ hstep s op hs) hstart

theorem along_append (first second : List ο) (s : σ) :
    Along apply P (first ++ second) s ↔
      Along apply P first s ∧ Along apply P second (play apply first s) := by
  induction first generalizing s with
  | nil => exact (and_iff_right trivial).symm
  | cons op rest ih =>
    rw [cons_append]
    refine (and_congr_right fun _ ↦ ih (apply s op)).trans ?_
    exact and_assoc.symm

/-- An invariant of the run may be assumed of every state in which an operation has its turn. -/
theorem along_congr (hstep : ∀ s op, Inv s → P s op → Inv (apply s op))
    (hiff : ∀ s op, Inv s → (P s op ↔ Q s op)) (ops : List ο) {s : σ} (hstart : Inv s) :
    Along apply P ops s ↔ Along apply Q ops s := by
  induction ops generalizing s with
  | nil => exact Iff.rfl
  | cons op rest ih =>
    refine (and_congr_left fun _ ↦ hiff s op hstart).trans (and_congr_right fun hq ↦ ?_)
    exact ih (hstep s op hstart ((hiff s op hstart).mpr hq))

/-- What holds at the start holds after every step of the run if and only if it holds in every state the
run reaches. -/
theorem along_apply_iff (ops : List ο) {s : σ} (hstart : Inv s) :
    Along apply (fun s op ↦ Inv (apply s op)) ops s ↔
      ∀ before after, ops = before ++ after → Inv (play apply before s) := by
  induction ops generalizing s with
  | nil =>
    refine iff_of_true trivial fun before after hnil ↦ ?_
    rw [(append_eq_nil_iff.mp hnil.symm).1]
    exact hstart
  | cons op rest ih =>
    constructor
    · rintro ⟨hstep, hrest⟩ before after hops
      cases before with
      | nil => exact hstart
      | cons head before =>
        obtain ⟨rfl, rfl⟩ := List.cons.inj hops
        exact (ih hstep).mp hrest before after rfl
    · intro h
      have hstep : Inv (apply s op) := h [op] rest rfl
      refine ⟨hstep, (ih hstep).mpr fun before after hrest ↦ ?_⟩
      exact h (op :: before) after (congrArg (List.cons op) hrest)

/-- A reflexive and transitive relation holds between the two states of every step when it holds
between any two moments of the run. -/
theorem along_related_iff {R : σ → σ → Prop} (hrefl : ∀ s, R s s)
    (htrans : ∀ {s t u}, R s t → R t u → R s u) (ops : List ο) (s : σ) :
    Along apply (fun s op ↦ R s (apply s op)) ops s ↔
      ∀ before between after, ops = before ++ between ++ after →
        R (play apply before s) (play apply between (play apply before s)) := by
  constructor
  · rintro h before between after rfl
    rw [append_assoc, along_append, along_append] at h
    have hinv : R (play apply before s) (play apply between (play apply before s)) :=
      h.2.1.invariant (fun _ _ hpast hstep ↦ htrans hpast hstep) (hrefl _)
    exact hinv
  · intro h
    induction ops generalizing s with
    | nil => trivial
    | cons op rest ih =>
      refine ⟨h [] [op] rest rfl, ih _ fun before between after hrest ↦ ?_⟩
      refine h (op :: before) between after ?_
      rw [hrest, cons_append, cons_append]

end ContentGenerator.Lib
