import ContentGenerator.Lib.EraseDups

/-!
# Breadth-first search by levels

The breadth-first order of a graph given by its ordered link lists. `front n` is the list of links found
at distance `n`, a link repeated as often as it is found; the level itself is the front with each node
at its first place, and `before n` lists the levels below `n` one after the other. No node is listed
twice (`before_nodup`), and past an empty front nothing more is found (`before_of_front_nil`).
-/

namespace ContentGenerator.Lib.LevelSearch

open List

variable {N : Type*} [DecidableEq N] (links : N → List N) (root : N)

/-- The nodes of the levels below `n` in order, and the links found at distance `n`. -/
def search : ℕ → List N × List N
  | 0 => ([], [root])
  | n + 1 =>
    let level := (search n).2.eraseDups
    let found := (search n).1 ++ level
    (found, (level.flatMap links).filter fun node ↦ node ∉ found)

/-- The nodes at a distance below `n`, in breadth-first order. -/
def before (n : ℕ) : List N := (search links root n).1

/-- The links found at distance `n`, with repetitions. -/
def front (n : ℕ) : List N := (search links root n).2

@[simp] theorem before_zero : before links root 0 = [] := rfl

@[simp] theorem front_zero : front links root 0 = [root] := rfl

theorem before_succ (n : ℕ) :
    before links root (n + 1) = before links root n ++ (front links root n).eraseDups := rfl

theorem front_succ (n : ℕ) :
    front links root (n + 1) =
      ((front links root n).eraseDups.flatMap links).filter (· ∉ before links root (n + 1)) := rfl

theorem before_initial (n : ℕ) : before links root n <+: before links root (n + 1) :=
  ⟨(front links root n).eraseDups, rfl⟩

theorem before_prefix_of_le {m n : ℕ} (h : m ≤ n) : before links root m <+: before links root n := by
  induction h with
  | refl => exact prefix_rfl
  | step _ ih => exact ih.trans (before_initial links root _)

theorem notMem_before_of_mem_front {n : ℕ} {node : N} (h : node ∈ front links root n) :
    node ∉ before links root n := by
  cases n with
  | zero => exact not_mem_nil
  | succ n =>
    rw [front_succ] at h
    simpa using of_mem_filter h

theorem before_nodup (n : ℕ) : (before links root n).Nodup := by
  induction n with
  | zero => exact nodup_nil
  | succ n ih =>
    rw [before_succ]
    refine List.Nodup.append ih (nodup_eraseDups _) fun node hbefore hlevel ↦ ?_
    exact notMem_before_of_mem_front links root (mem_eraseDups.mp hlevel) hbefore

/-! ### Distance -/

/-- A path of so many links leads from the root to the node. -/
inductive Path : ℕ → N → Prop
  | root : Path 0 root
  | step {n : ℕ} {node next : N} (path : Path n node) (link : next ∈ links node) : Path (n + 1) next

/-- Past an empty front nothing more is found. -/
theorem before_of_front_nil {m n : ℕ} (hmn : m ≤ n) (h : front links root m = []) :
    before links root n = before links root m ∧ front links root n = [] := by
  induction hmn with
  | refl => exact ⟨rfl, h⟩
  | step _ ih =>
    refine ⟨?_, ?_⟩
    · rw [before_succ, ih.2, eraseDups_nil, append_nil]
      exact ih.1
    · rw [front_succ, ih.2]
      rfl

end ContentGenerator.Lib.LevelSearch
