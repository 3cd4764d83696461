import Mathlib.Logic.Relation
import Mathlib.Data.List.Basic

/-!
# Runs, folds and worklists

Three ways a program takes step after step, each with its invariant rule: a run of a step relation
(`Relation.ReflTransGen`), a `for` loop written as a left fold, and a loop over a queue that its own
body extends. `ReflTransGen.invariant` and `foldl_invariant` are the rules for the first two;
`foldl_reflTransGen` reads a loop as a run of the relation its body refines.

A queue loop takes a fuel argument. `worklist_invariant` carries an invariant of queue and state
through it, and `worklist_drained` shows that the queue is empty at the end when a variant bounds the
entries that can still be pushed.
-/

namespace ContentGenerator.Lib

open List

variable {α β σ : Type*}

/-! ### Runs -/

/-- What every step preserves holds along a run. -/
theorem ReflTransGen.invariant {r : σ → σ → Prop} {P : σ → Prop}
    (hstep : ∀ a b, P a → r a b → P b) {a b : σ} (hrun : Relation.ReflTransGen r a b)
    (ha : P a) : P b := by
  induction hrun with
  | refl => exact ha
  | tail _ hlast ih => exact hstep _ _ ih hlast

/-! ### Folds -/

/-- What the body of a loop preserves holds after the loop. -/
theorem foldl_invariant {P : β → Prop} {f : β → α → β} {l : List α} {acc : β}
    (hstep : ∀ acc, ∀ a ∈ l, P acc → P (f acc a)) (hacc : P acc) : P (l.foldl f acc) := by
  induction l generalizing acc with
  | nil => exact hacc
  | cons a rest ih =>
    rw [foldl_cons]
    refine ih (fun acc b hb ↦ hstep acc b (mem_cons_of_mem a hb)) ?_
    exact hstep acc a mem_cons_self hacc

/-- A loop whose body makes a run of `r` on a component of the loop state is itself such a run. -/
theorem foldl_reflTransGen {r : σ → σ → Prop} (view : β → σ) {f : β → α → β} {l : List α}
    (acc : β) (hstep : ∀ acc, ∀ a ∈ l, Relation.ReflTransGen r (view acc) (view (f acc a))) :
    Relation.ReflTransGen r (view acc) (view (l.foldl f acc)) := by
  refine foldl_invariant (P := fun b ↦ Relation.ReflTransGen r (view acc) (view b)) ?_ .refl
  intro b a ha hrun
  exact hrun.trans (hstep b a ha)

/-! ### Worklists -/

/-- A loop over a queue: pop an entry, run the body on it, push what the body returns. The result
is the final state with the entries the fuel did not reach. -/
def worklist (body : α → σ → σ × List α) : ℕ → List α → σ → σ × List α
  | 0, queue, state => (state, queue)
  | _ + 1, [], state => (state, [])
  | fuel + 1, a :: queue, state =>
    worklist body fuel (queue ++ (body a state).2) (body a state).1

/-- What one pop preserves of queue and state holds at the end of the loop. -/
theorem worklist_invariant {P : List α → σ → Prop} {body : α → σ → σ × List α}
    (hstep : ∀ a queue state, P (a :: queue) state →
      P (queue ++ (body a state).2) (body a state).1)
    (fuel : ℕ) (queue : List α) (state : σ) (h : P queue state) :
    P (worklist body fuel queue state).2 (worklist body fuel queue state).1 := by
  induction fuel generalizing queue state with
  | zero => exact h
  | succ fuel ih =>
    cases queue with
    | nil => exact h
    | cons a queue => exact ih _ _ (hstep a queue state h)

/-- The queue is empty at the end when a variant of the state pays for every push. -/
theorem worklist_drained {body : α → σ → σ × List α} (variant : σ → ℕ)
    (hbody : ∀ a state, variant (body a state).1 + (body a state).2.length ≤ variant state)
    (fuel : ℕ) (queue : List α) (state : σ) (hfuel : queue.length + variant state ≤ fuel) :
    (worklist body fuel queue state).2 = [] := by
  induction fuel generalizing queue state with
  | zero =>
    have hempty : queue.length = 0 := by omega
    exact length_eq_zero_iff.mp hempty
  | succ fuel ih =>
    cases queue with
    | nil => rfl
    | cons a queue =>
      refine ih _ _ ?_
      have hpaid := hbody a state
      rw [length_append]
      rw [length_cons] at hfuel
      omega

end ContentGenerator.Lib
