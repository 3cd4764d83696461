import Mathlib.Order.Bounds.Defs
import ContentGenerator.Workflows.RowSteps

/-!
# The closure a cascade computes

`cascade_skip` on a table with one row per node, seen through the statuses alone. `SkipClosed` says
what a set of nodes must contain once a node is to be skipped: the node itself, and every skippable
successor of a member whose predecessors are all members or skipped before. The cascade skips the
least such set, promotes the pending successors of its members that are ready in the end, and
changes nothing else (`cascadeSkip_closure`); none of this mentions the order of the edges.

The loop tests readiness while rows are still being skipped, so its invariant `Cascading` speaks of the
current statuses: what the tests have not settled yet is still in the queue.
-/

namespace ContentGenerator.Workflows

open Lib List Option NodeStatus
open Function (update update_of_ne update_self)
open WorkflowGraph (mem_predecessors mem_successors predecessors)

variable {acc : NodeTable × List String}

/-! ### One row per node -/

/-- No node has iteration rows. -/
def NodeTable.OneRow (t : NodeTable) : Prop := ∀ entry ∈ t.entries, entry.1.iterationKey = ""

instance (t : NodeTable) : Decidable t.OneRow := inferInstanceAs (Decidable (∀ _ ∈ _, _))

/-- The status of the non-iterated row of a node. -/
def NodeTable.statusOf (t : NodeTable) (nodeId : String) : Option NodeStatus :=
  (t.find ⟨nodeId, ""⟩).map NodeRun.status

variable {g : WorkflowGraph} {t : NodeTable} {now : Time} {n start : String}

theorem NodeTable.OneRow.modify (h : t.OneRow) (id : RowId) (f : NodeRun → NodeRun) :
    NodeTable.OneRow (t.modify id f) := by
  intro entry hentry
  obtain ⟨old, hold, rfl⟩ := List.mem_map.mp hentry
  exact h old hold

theorem NodeTable.OneRow.rowsOf_eq (h : t.OneRow) (n : String) :
    t.rowsOf n = ((t.find ⟨n, ""⟩).map fun row ↦ ((⟨n, ""⟩ : RowId), row)).toList := by
  have hmem : ∀ entry ∈ t.rowsOf n, entry.1 = ⟨n, ""⟩ ∧ t.find ⟨n, ""⟩ = some entry.2 := by
    rintro ⟨⟨node, key⟩, row⟩ hentry
    obtain ⟨hfind, rfl⟩ := NodeTable.mem_rowsOf.mp hentry
    obtain rfl : key = "" := h _ ((KeyedTable.find_eq_some_iff _ _ _).mp hfind)
    exact ⟨rfl, hfind⟩
  have hnodup : (t.rowsOf n).Nodup :=
    (perm_insertionSort _ _).nodup_iff.mpr (t.nodupKeys.of_map.filter _)
  cases hfind : t.find ⟨n, ""⟩ with
  | none =>
    refine eq_nil_iff_forall_not_mem.mpr fun entry hentry ↦ ?_
    exact some_ne_none _ ((hmem entry hentry).2.symm.trans hfind)
  | some row =>
    refine perm_singleton.mp ((perm_ext_iff_of_nodup hnodup (nodup_singleton _)).mpr
      fun entry ↦ ⟨fun hentry ↦ ?_, fun hentry ↦ ?_⟩)
    · obtain ⟨hkey, hrow⟩ := hmem entry hentry
      exact mem_singleton.mpr (Prod.ext hkey (mem_unique hrow hfind))
    · rw [mem_singleton.mp hentry]
      exact NodeTable.mem_rowsOf.mpr ⟨hfind, rfl⟩

theorem NodeTable.OneRow.get_eq (h : t.OneRow) (n : String) :
    t.get n = (t.find ⟨n, ""⟩).map fun row ↦ (⟨n, ""⟩, row) := by
  rw [NodeTable.get, h.rowsOf_eq]
  cases t.find ⟨n, ""⟩ <;> simp

theorem NodeTable.OneRow.iterations_eq (h : t.OneRow) (n : String) :
    t.iterations n = ((t.find ⟨n, ""⟩).map fun row ↦ ((⟨n, ""⟩ : RowId), row)).toList := by
  rw [NodeTable.iterations, h.rowsOf_eq]
  cases t.find ⟨n, ""⟩ <;> simp

theorem statusOf_modify {f : NodeRun → NodeRun} {status : NodeStatus}
    (hf : ∀ row, (f row).status = status) (hrow : (t.statusOf n).isSome) :
    NodeTable.statusOf (t.modify ⟨n, ""⟩ f) = update t.statusOf n (some status) := by
  funext other
  obtain ⟨old, hold⟩ := isSome_iff_exists.mp hrow
  obtain ⟨row, hfind, -⟩ := map_eq_some_iff.mp hold
  rcases eq_or_ne other n with rfl | hne
  · simp [NodeTable.statusOf, hfind, hf]
  · rw [update_of_ne hne, NodeTable.statusOf, KeyedTable.find_modify_of_ne _ _ (by simpa),
      NodeTable.statusOf]

/-! ### The tests of the cascade, on statuses -/

variable {σ σ' σ₀ : String → Option NodeStatus}

def CanSkip (σ : String → Option NodeStatus) (n : String) : Prop :=
  ∃ status, σ n = some status ∧ status.isSkippable

def PredsSkipped (g : WorkflowGraph) (σ : String → Option NodeStatus) (n : String) : Prop :=
  g.predecessors n ≠ [] ∧ ∀ edge ∈ g.predecessors n, σ edge.source = some .skipped

def ReadyBy (g : WorkflowGraph) (σ : String → Option NodeStatus) (n : String) : Prop :=
  CanSkip σ n ∧ (g.predecessors n = [] ∨
    if mergeMode g n = some "any" then ∃ edge ∈ g.predecessors n, σ edge.source = some .succeeded
    else ∀ edge ∈ g.predecessors n, ∃ status, σ edge.source = some status ∧
      branchSatisfied edge status)

theorem predsSkipped_iff (h : t.OneRow) : allPredsSkipped g t n ↔ PredsSkipped g t.statusOf n := by
  rw [allPredsSkipped_iff]
  refine and_congr_right fun _ ↦ forall₂_congr fun edge _ ↦ ?_
  rw [h.rowsOf_eq, NodeTable.statusOf]
  cases t.find ⟨edge.source, ""⟩ <;> simp

theorem canSkip_iff_get (h : t.OneRow) :
    CanSkip t.statusOf n ↔ ∃ row, t.get n = some (⟨n, ""⟩, row) ∧ row.status.isSkippable := by
  rw [h.get_eq]
  simp [CanSkip, NodeTable.statusOf]

theorem isReady_iff (h : t.OneRow) : isReady g t n ↔ ReadyBy g t.statusOf n := by
  have hsucceeded : mergeAnyReady t (g.predecessors n) ↔
      ∃ edge ∈ g.predecessors n, t.statusOf edge.source = some .succeeded := by
    simp [mergeAnyReady, h.iterations_eq, NodeTable.statusOf]
  have hbranches : branchesReady t (g.predecessors n) ↔ ∀ edge ∈ g.predecessors n,
      ∃ status, t.statusOf edge.source = some status ∧ branchSatisfied edge status := by
    rw [branchesReady, List.all_eq_true]
    refine forall₂_congr fun edge _ ↦ ?_
    rw [h.iterations_eq, NodeTable.statusOf]
    cases t.find ⟨edge.source, ""⟩ <;> simp
  rw [ReadyBy, ← hsucceeded, ← hbranches, canSkip_iff_get h]
  unfold isReady
  rw [h.get_eq]
  cases t.find ⟨n, ""⟩ with
  | none => simp
  | some row =>
    by_cases hskippable : row.status.isSkippable <;>
      by_cases hany : mergeMode g n = some "any" <;>
      by_cases hpreds : g.predecessors n = [] <;>
      simp [hskippable, hany, hpreds, mergeAllReady_eq_branchesReady]

/-- The tests see which nodes can be skipped and which have finished well. -/
def Alike (σ σ' : String → Option NodeStatus) : Prop :=
  ∀ n, (CanSkip σ n ↔ CanSkip σ' n) ∧
    ∀ status : NodeStatus, status.isSuccess → (σ n = some status ↔ σ' n = some status)

theorem Alike.predsSkipped_iff (h : Alike σ σ') (n : String) :
    PredsSkipped g σ n ↔ PredsSkipped g σ' n :=
  and_congr_right fun _ ↦ forall₂_congr fun edge _ ↦ (h edge.source).2 _ rfl

theorem ReadyBy.mono (h : ReadyBy g σ n) (hnode : CanSkip σ n → CanSkip σ' n)
    (hpreds : ∀ edge ∈ g.predecessors n, ∀ status : NodeStatus, status.isSuccess →
      σ edge.source = some status → σ' edge.source = some status) : ReadyBy g σ' n := by
  refine ⟨hnode h.1, h.2.imp id fun hready ↦ ?_⟩
  split_ifs at hready ⊢
  · obtain ⟨edge, hedge, hsucceeded⟩ := hready
    exact ⟨edge, hedge, hpreds edge hedge _ rfl hsucceeded⟩
  · intro edge hedge
    obtain ⟨status, hstatus, hsatisfied⟩ := hready edge hedge
    exact ⟨status, hpreds edge hedge _ (branchSatisfied_isSuccess hsatisfied) hstatus, hsatisfied⟩

theorem Alike.readyBy_iff (h : Alike σ σ') (n : String) : ReadyBy g σ n ↔ ReadyBy g σ' n :=
  ⟨fun hready ↦ hready.mono (h n).1.mp fun edge _ _ hstatus ↦ ((h edge.source).2 _ hstatus).mp,
    fun hready ↦ hready.mono (h n).1.mpr fun edge _ _ hstatus ↦ ((h edge.source).2 _ hstatus).mpr⟩

/-- Some pending nodes have become ready. -/
theorem alike_of (h : ∀ n, σ' n = σ n ∨ σ n = some .pending ∧ σ' n = some .ready) : Alike σ σ' := by
  intro n
  rcases h n with hsame | ⟨hpending, hready⟩
  · rw [CanSkip, CanSkip, hsame]
    exact ⟨Iff.rfl, fun _ _ ↦ Iff.rfl⟩
  · refine ⟨by simp [CanSkip, hpending, hready, isSkippable], fun status hstatus ↦ ?_⟩
    rw [hpending, hready]
    cases status <;> simp_all [isSuccess]

theorem promotable_iff (h : t.OneRow) {id : RowId} :
    promotable g t n = some id ↔
      id = ⟨n, ""⟩ ∧ t.statusOf n = some .pending ∧ ReadyBy g t.statusOf n := by
  rw [← isReady_iff h]
  unfold promotable
  rw [h.get_eq]
  cases hfind : t.find ⟨n, ""⟩ with
  | none => simp [NodeTable.statusOf, hfind]
  | some row =>
    simp only [NodeTable.statusOf, hfind, map_some, Option.some.injEq, ite_none_right_eq_some]
    tauto

/-! ### The queue loop -/

/-- Some node of a list has an edge to the node. -/
def NextOf (g : WorkflowGraph) (ids : List String) (n : String) : Prop :=
  ∃ edge ∈ g.edges, edge.source ∈ ids ∧ edge.target = n

instance (g : WorkflowGraph) (ids : List String) (n : String) : Decidable (NextOf g ids n) :=
  inferInstanceAs (Decidable (∃ _ ∈ _, _))

/-- What a set of skippable nodes must contain once `start` is to be skipped. -/
structure SkipClosed (g : WorkflowGraph) (σ : String → Option NodeStatus) (start : String)
    (S : Set String) : Prop where
  canSkip : ∀ n ∈ S, CanSkip σ n
  start : CanSkip σ start → start ∈ S
  successor : ∀ edge ∈ g.edges, edge.source ∈ S → CanSkip σ edge.target →
    (∀ pred ∈ g.predecessors edge.target, pred.source ∈ S ∨ σ pred.source = some .skipped) →
    edge.target ∈ S

/-- The loop from the statuses `σ₀`: the out-edges of skipped nodes it has still to look at, its
queue, the nodes skipped, and the statuses now. -/
structure Cascading (g : WorkflowGraph) (σ₀ : String → Option NodeStatus) (start : String)
    (agenda : List GraphEdge) (queue ids : List String) (σ : String → Option NodeStatus) : Prop where
  nodup : ids.Nodup
  outs : ∀ edge ∈ agenda, edge ∈ g.edges ∧ edge.source ∈ ids
  skipped : ∀ n ∈ ids, CanSkip σ₀ n ∧ σ n = some .skipped
  kept : ∀ n ∉ ids, σ n = σ₀ n ∨ σ₀ n = some .pending ∧ σ n = some .ready ∧ NextOf g ids n ∧
    ReadyBy g σ n
  least : ∀ S, SkipClosed g σ₀ start S →
    (∀ n ∈ ids, n ∈ S) ∧ ∀ n ∈ queue, CanSkip σ₀ n → n ∈ S
  start : start ∈ queue ∨ ¬ CanSkip σ start
  settled : ∀ n, NextOf g ids n → (∃ edge ∈ agenda, edge.target = n) ∨
    (PredsSkipped g σ n → n ∈ queue ∨ ¬ CanSkip σ n) ∧
      (σ n = some .pending → ReadyBy g σ n → PredsSkipped g σ n)

variable {agenda : List GraphEdge} {edge : GraphEdge} {queue ids : List String} {current : String}

theorem not_canSkip_of_skipped (h : σ n = some .skipped) : ¬ CanSkip σ n := by
  simp [CanSkip, h, isSkippable]

theorem Cascading.canSkip_of (h : Cascading g σ₀ start agenda queue ids σ) (hskip : CanSkip σ n) :
    n ∉ ids ∧ CanSkip σ₀ n := by
  have hids : n ∉ ids := fun hmem ↦ not_canSkip_of_skipped (h.skipped n hmem).2 hskip
  refine ⟨hids, ?_⟩
  rcases h.kept n hids with hsame | ⟨hpending, -⟩
  · rwa [CanSkip, ← hsame]
  · exact ⟨_, hpending, rfl⟩

theorem Cascading.skipped_iff (h : Cascading g σ₀ start agenda queue ids σ) :
    σ n = some .skipped ↔ n ∈ ids ∨ σ₀ n = some .skipped := by
  by_cases hids : n ∈ ids
  · simp [hids, (h.skipped n hids).2]
  · rcases h.kept n hids with hsame | ⟨hpending, hready, -⟩
    · simp [hids, hsame]
    · simp [hids, hpending, hready]

/-- An edge of the agenda has been looked at, and its target is settled. -/
theorem Cascading.settle (h : Cascading g σ₀ start (edge :: agenda) queue ids σ)
    (hpreds : PredsSkipped g σ edge.target → edge.target ∈ queue)
    (hready : σ edge.target = some .pending → ReadyBy g σ edge.target →
      PredsSkipped g σ edge.target) : Cascading g σ₀ start agenda queue ids σ := by
  refine { h with outs := fun e he ↦ h.outs e (mem_cons_of_mem _ he), settled := ?_ }
  intro n hnext
  rcases h.settled n hnext with ⟨e, he, rfl⟩ | hsettled
  · rcases mem_cons.mp he with rfl | hrest
    · exact .inr ⟨fun hskipped ↦ .inl (hpreds hskipped), hready⟩
    · exact .inl ⟨e, hrest, rfl⟩
  · exact .inr hsettled

/-- The target of an edge of the agenda is pushed. -/
theorem Cascading.push (h : Cascading g σ₀ start (edge :: agenda) queue ids σ)
    (hpreds : PredsSkipped g σ edge.target) :
    Cascading g σ₀ start agenda (queue ++ [edge.target]) ids σ := by
  have hold : ∀ n, n ∈ queue ∨ ¬ CanSkip σ n → n ∈ queue ++ [edge.target] ∨ ¬ CanSkip σ n :=
    fun n ↦ Or.imp_left (mem_append_left _)
  have hpushed : Cascading g σ₀ start (edge :: agenda) (queue ++ [edge.target]) ids σ := by
    refine { h with
      start := hold start h.start
      settled := fun n hnext ↦ (h.settled n hnext).imp_right fun hsettled ↦
        ⟨fun hskipped ↦ hold n (hsettled.1 hskipped), hsettled.2⟩
      least := fun S hS ↦ ?_ }
    obtain ⟨hmembers, hqueue⟩ := h.least S hS
    refine ⟨hmembers, fun n hn hskip ↦ ?_⟩
    rcases mem_append.mp hn with hbefore | hnew
    · exact hqueue n hbefore hskip
    · obtain rfl := mem_singleton.mp hnew
      obtain ⟨hmem, hsource⟩ := h.outs edge mem_cons_self
      exact hS.successor edge hmem (hmembers _ hsource) hskip fun pred hpred ↦
        (h.skipped_iff.mp (hpreds.2 pred hpred)).imp_left (hmembers _)
  exact hpushed.settle (fun _ ↦ mem_append_right _ (mem_singleton_self _)) fun _ _ ↦ hpreds

/-- The target of an edge of the agenda is promoted. -/
theorem Cascading.promote (h : Cascading g σ₀ start (edge :: agenda) queue ids σ)
    (hpending : σ edge.target = some .pending) (hready : ReadyBy g σ edge.target)
    (hpreds : ¬ PredsSkipped g σ edge.target) :
    Cascading g σ₀ start agenda queue ids (update σ edge.target (some .ready)) := by
  have halike : Alike σ (update σ edge.target (some .ready)) := by
    refine alike_of fun n ↦ ?_
    rcases eq_or_ne n edge.target with rfl | hne
    · exact .inr ⟨hpending, update_self ..⟩
    · exact .inl (update_of_ne hne ..)
  obtain ⟨hmem, hsource⟩ := h.outs edge mem_cons_self
  suffices hready' : Cascading g σ₀ start (edge :: agenda) queue ids
      (update σ edge.target (some .ready)) from
    hready'.settle (fun hskipped ↦ absurd ((halike.predsSkipped_iff _).mpr hskipped) hpreds) (by simp)
  refine { h with skipped := ?_, kept := ?_, start := ?_, settled := ?_ }
  · exact fun n hn ↦ ⟨(h.skipped n hn).1, ((halike n).2 _ rfl).mp (h.skipped n hn).2⟩
  · intro n hn
    rw [← halike.readyBy_iff]
    rcases eq_or_ne n edge.target with rfl | hne
    · refine .inr ⟨?_, update_self .., ⟨edge, hmem, hsource, rfl⟩, hready⟩
      rcases h.kept _ hn with hsame | ⟨-, hnow, -⟩
      · rw [← hsame, hpending]
      · exact absurd (hpending.symm.trans hnow) (by simp)
    · rw [update_of_ne hne]
      exact h.kept n hn
  · rw [← (halike start).1]
    exact h.start
  · intro n hnext
    rw [← halike.predsSkipped_iff, ← halike.readyBy_iff, ← (halike n).1]
    refine (h.settled n hnext).imp_right fun hsettled ↦ ⟨hsettled.1, fun hstill ↦ hsettled.2 ?_⟩
    rcases eq_or_ne n edge.target with rfl | hne
    · exact hpending
    · rwa [update_of_ne hne] at hstill

/-- A popped node that cannot be skipped is dropped. -/
theorem Cascading.drop (h : Cascading g σ₀ start [] (current :: queue) ids σ)
    (hcurrent : ¬ CanSkip σ current) : Cascading g σ₀ start [] queue ids σ := by
  have hpop : ∀ n, n ∈ current :: queue ∨ ¬ CanSkip σ n → n ∈ queue ∨ ¬ CanSkip σ n := by
    rintro n (hmem | hskip)
    · rcases mem_cons.mp hmem with rfl | hrest
      · exact .inr hcurrent
      · exact .inl hrest
    · exact .inr hskip
  exact { h with
    least := fun S hS ↦ ⟨(h.least S hS).1, fun n hn ↦ (h.least S hS).2 n (mem_cons_of_mem _ hn)⟩
    start := hpop start h.start
    settled := fun n hnext ↦ (h.settled n hnext).imp_right fun hsettled ↦
      ⟨fun hpreds ↦ hpop n (hsettled.1 hpreds), hsettled.2⟩ }

/-- A popped node that can be skipped is skipped, and its out-edges are the agenda. -/
theorem Cascading.skip (h : Cascading g σ₀ start [] (current :: queue) ids σ)
    (hcurrent : CanSkip σ current) :
    Cascading g σ₀ start (g.successors current) queue (ids ++ [current])
      (update σ current (some .skipped)) := by
  obtain ⟨hids, hskip₀⟩ := h.canSkip_of hcurrent
  have hsame : ∀ n, n ≠ current → update σ current (some .skipped) n = σ n :=
    fun n hne ↦ update_of_ne hne ..
  have hpop : ∀ n, n ∈ current :: queue ∨ ¬ CanSkip σ n →
      n ∈ queue ∨ ¬ CanSkip (update σ current (some .skipped)) n := by
    intro n hn
    rcases eq_or_ne n current with rfl | hne
    · exact .inr (not_canSkip_of_skipped (update_self ..))
    · rw [CanSkip, hsame n hne]
      exact hn.imp_left fun hmem ↦ (mem_cons.mp hmem).resolve_left hne
  refine ⟨?_, fun edge hedge ↦ ?_, fun n hn ↦ ?_, fun n hn ↦ ?_, fun S hS ↦ ?_, hpop start h.start,
    fun n hnext ↦ ?_⟩
  · exact nodup_append.mpr ⟨h.nodup, nodup_singleton _, by
      rintro n hn _ hcur rfl
      exact hids (mem_singleton.mp hcur ▸ hn)⟩
  · obtain ⟨hmem, rfl⟩ := mem_successors.mp hedge
    exact ⟨hmem, mem_append_right _ (mem_singleton_self _)⟩
  · rcases mem_append.mp hn with hold | hnew
    · rw [hsame n fun heq ↦ hids (heq ▸ hold)]
      exact h.skipped n hold
    · obtain rfl := mem_singleton.mp hnew
      exact ⟨hskip₀, update_self ..⟩
  · simp only [mem_append, mem_singleton, not_or] at hn
    rw [hsame n hn.2]
    refine (h.kept n hn.1).imp_right fun ⟨hpending, hready, ⟨edge, hedge, hsource, htarget⟩, hby⟩ ↦
      ⟨hpending, hready, ⟨edge, hedge, mem_append_left _ hsource, htarget⟩, ?_⟩
    -- a satisfied predecessor is not the node that is skipped
    refine hby.mono (by simp [CanSkip, hsame n hn.2]) fun edge _ status hsuccess hstatus ↦ ?_
    rw [hsame, hstatus]
    intro heq
    obtain ⟨own, hown, hskippable⟩ := hcurrent
    obtain rfl := mem_unique (heq ▸ hstatus) hown
    revert hsuccess hskippable
    cases status <;> decide
  · obtain ⟨hmembers, hqueue⟩ := h.least S hS
    refine ⟨fun n hn ↦ ?_, fun n hn hskip ↦ hqueue n (mem_cons_of_mem _ hn) hskip⟩
    rcases mem_append.mp hn with hold | hnew
    · exact hmembers n hold
    · obtain rfl := mem_singleton.mp hnew
      exact hqueue n mem_cons_self hskip₀
  · by_cases htarget : ∃ edge ∈ g.successors current, edge.target = n
    · exact .inl htarget
    -- a node that `current` does not lead to is tested as before
    have hfar : ∀ edge ∈ g.predecessors n,
        update σ current (some .skipped) edge.source = σ edge.source := by
      refine fun edge hedge ↦ hsame _ fun hsource ↦ htarget ⟨edge, ?_⟩
      obtain ⟨hmem, htarget⟩ := mem_predecessors.mp hedge
      exact ⟨mem_successors.mpr ⟨hmem, hsource⟩, htarget⟩
    have hpreds : PredsSkipped g (update σ current (some .skipped)) n ↔ PredsSkipped g σ n :=
      and_congr_right fun _ ↦ forall₂_congr fun edge hedge ↦ by rw [hfar edge hedge]
    obtain ⟨edge, hedge, hsource, rfl⟩ := hnext
    have hnext : NextOf g ids edge.target := by
      refine ⟨edge, hedge, (mem_append.mp hsource).resolve_right fun hcur ↦ htarget ?_, rfl⟩
      exact ⟨edge, mem_successors.mpr ⟨hedge, mem_singleton.mp hcur⟩, rfl⟩
    obtain ⟨hjoin, hpromoted⟩ := (h.settled _ hnext).resolve_left (by simp)
    refine .inr ⟨fun hskipped ↦ hpop _ (hjoin (hpreds.mp hskipped)), fun hpending hready ↦ ?_⟩
    have hne : edge.target ≠ current := by
      intro heq
      rw [heq, update_self] at hpending
      exact absurd hpending (by simp)
    rw [hsame _ hne] at hpending
    refine hpreds.mpr (hpromoted hpending (hready.mono (by simp [CanSkip, hsame _ hne]) ?_))
    exact fun pred hpred status _ hstatus ↦ (hfar pred hpred).symm.trans hstatus

theorem cascadeEdge_cascading (h : acc.1.OneRow)
    (hinv : Cascading g σ₀ start (edge :: agenda) (queue ++ acc.2) ids acc.1.statusOf) :
    NodeTable.OneRow (cascadeEdge g acc edge).1 ∧
      Cascading g σ₀ start agenda (queue ++ (cascadeEdge g acc edge).2) ids
        (NodeTable.statusOf (cascadeEdge g acc edge).1) := by
  unfold cascadeEdge
  split_ifs with hpreds
  · rw [predsSkipped_iff h] at hpreds
    refine ⟨h, ?_⟩
    rw [← append_assoc]
    exact hinv.push hpreds
  · rw [predsSkipped_iff h] at hpreds
    cases hpromotable : promotable g acc.1 edge.target with
    | none =>
      refine ⟨h, hinv.settle (fun hskipped ↦ absurd hskipped hpreds) fun hpending hready ↦ ?_⟩
      have hsome : promotable g acc.1 edge.target = some ⟨edge.target, ""⟩ :=
        (promotable_iff h).mpr ⟨rfl, hpending, hready⟩
      exact absurd (hpromotable.symm.trans hsome) (by simp)
    | some id =>
      obtain ⟨rfl, hpending, hready⟩ := (promotable_iff h).mp hpromotable
      have hnow : NodeTable.statusOf (acc.1.setStatus ⟨edge.target, ""⟩ .ready) =
          update acc.1.statusOf edge.target (some .ready) :=
        statusOf_modify (fun _ ↦ rfl) (by rw [hpending]; rfl)
      refine ⟨h.modify _ _, ?_⟩
      dsimp only
      rw [hnow]
      exact hinv.promote hpending hready hpreds

theorem foldl_cascading (outs : List GraphEdge) (h : acc.1.OneRow)
    (hinv : Cascading g σ₀ start outs (queue ++ acc.2) ids acc.1.statusOf) :
    NodeTable.OneRow (outs.foldl (cascadeEdge g) acc).1 ∧
      Cascading g σ₀ start [] (queue ++ (outs.foldl (cascadeEdge g) acc).2) ids
        (NodeTable.statusOf (outs.foldl (cascadeEdge g) acc).1) := by
  induction outs generalizing acc with
  | nil => exact ⟨h, hinv⟩
  | cons edge rest ih =>
    obtain ⟨hrow, hstep⟩ := cascadeEdge_cascading h hinv
    exact ih hrow hstep

theorem cascadeSkip_cascading (g : WorkflowGraph) (now : Time) (h : t.OneRow) (start : String) :
    NodeTable.OneRow (cascadeSkip g now t start).nodes ∧
      Cascading g t.statusOf start [] [] (cascadeSkip g now t start).ids
        (NodeTable.statusOf (cascadeSkip g now t start).nodes) := by
  rw [← cascadeSkip_drained g now t start]
  refine worklist_invariant (P := fun queue (acc : Unlocked) ↦ NodeTable.OneRow acc.nodes ∧
    Cascading g t.statusOf start [] queue acc.ids (NodeTable.statusOf acc.nodes)) ?_ _ _ _ ?_
  · rintro current queue acc ⟨hrow, hinv⟩
    unfold cascadeBody
    cases hget : acc.nodes.get current with
    | none =>
      refine ⟨hrow, ?_⟩
      dsimp only
      rw [append_nil]
      exact hinv.drop (by simp [canSkip_iff_get hrow, hget])
    | some entry =>
      obtain ⟨row, -, rfl⟩ := map_eq_some_iff.mp ((hrow.get_eq current).symm.trans hget)
      by_cases hskippable : row.status.isSkippable
      · have hcurrent := (canSkip_iff_get hrow).mpr ⟨row, hget, hskippable⟩
        have hnow : NodeTable.statusOf (acc.nodes.modify ⟨current, ""⟩ (NodeRun.skip now)) =
            update acc.nodes.statusOf current (some .skipped) :=
          statusOf_modify (fun _ ↦ rfl) (by obtain ⟨_, hstatus, -⟩ := hcurrent; rw [hstatus]; rfl)
        simp only [hskippable, not_true_eq_false, if_false]
        refine foldl_cascading _ (hrow.modify _ _) ?_
        rw [append_nil, hnow]
        exact hinv.skip hcurrent
      · simp only [hskippable, Bool.false_eq_true, not_false_eq_true, if_true, append_nil]
        exact ⟨hrow, hinv.drop (by simp [canSkip_iff_get hrow, hget, hskippable])⟩
  · refine ⟨h, nodup_nil, by simp, by simp, fun _ _ ↦ .inl rfl, fun S hS ↦ ⟨by simp, ?_⟩,
      .inl (mem_singleton_self _), by simp [NextOf]⟩
    intro n hn hskip
    rw [mem_singleton.mp hn] at hskip ⊢
    exact hS.start hskip

/-! ### The end of the loop -/

variable {ids' : List String} {edges : List GraphEdge}

theorem Cascading.isLeast (h : Cascading g σ₀ start [] [] ids σ) :
    IsLeast {S | SkipClosed g σ₀ start S} {n | n ∈ ids} := by
  have hdone : ∀ n, CanSkip σ₀ n → ¬ CanSkip σ n → n ∈ ids := by
    intro n hskip hnot
    by_contra hids
    rcases h.kept n hids with hsame | ⟨-, hready, -⟩
    · rw [CanSkip, hsame] at hnot
      exact hnot hskip
    · exact hnot ⟨_, hready, rfl⟩
  refine ⟨⟨fun n hn ↦ (h.skipped n hn).1, fun hskip ↦ ?_, fun edge hedge hsource hskip hpreds ↦ ?_⟩,
    fun S hS ↦ (h.least S hS).1⟩
  · exact hdone start hskip (h.start.resolve_left not_mem_nil)
  · have hsettled := (h.settled _ ⟨edge, hedge, hsource, rfl⟩).resolve_left (by simp)
    refine hdone _ hskip ((hsettled.1 ⟨?_, ?_⟩).resolve_left not_mem_nil)
    · exact ne_nil_of_mem (mem_predecessors.mpr ⟨hedge, rfl⟩)
    · exact fun pred hpred ↦ h.skipped_iff.mpr (hpreds pred hpred)

/-- What a node outside the closure has become. -/
theorem Cascading.status_eq (h : Cascading g σ₀ start [] [] ids σ) (hids : n ∉ ids)
    [Decidable (ReadyBy g σ n)] : σ n =
      if σ₀ n = some .pending ∧ NextOf g ids n ∧ ReadyBy g σ n then some .ready else σ₀ n := by
  split_ifs with hall
  · obtain ⟨hpending, hnext, hby⟩ := hall
    rcases h.kept n hids with hsame | ⟨-, hready, -⟩
    · obtain ⟨hjoin, hpromoted⟩ := (h.settled n hnext).resolve_left (by simp)
      exact absurd hby.1 ((hjoin (hpromoted (hsame.trans hpending) hby)).resolve_left not_mem_nil)
    · exact hready
  · rcases h.kept n hids with hsame | ⟨hpending, -, hnext, hby⟩
    · exact hsame
    · exact absurd ⟨hpending, hnext, hby⟩ hall

/-- A cascade ends like the statuses in which its nodes are skipped and nothing else is done. -/
theorem Cascading.alike (h : Cascading g σ₀ start [] [] ids σ) :
    Alike (fun n ↦ if n ∈ ids then some .skipped else σ₀ n) σ := by
  refine alike_of fun n ↦ ?_
  by_cases hids : n ∈ ids
  · rw [if_pos hids]
    exact .inl (h.skipped n hids).2
  · rw [if_neg hids]
    exact (h.kept n hids).imp_right fun hpromoted ↦ ⟨hpromoted.1, hpromoted.2.1⟩

theorem mem_predecessors_of_perm (hedges : edges.Perm g.edges) (n : String) (edge : GraphEdge) :
    edge ∈ predecessors { g with edges := edges } n ↔ edge ∈ g.predecessors n := by
  simp only [mem_predecessors, hedges.mem_iff]

theorem readyBy_of_perm (hedges : edges.Perm g.edges) :
    ReadyBy { g with edges := edges } σ n ↔ ReadyBy g σ n := by
  have hnil : predecessors { g with edges := edges } n = [] ↔
      g.predecessors n = [] := by
    simp only [eq_nil_iff_forall_not_mem, mem_predecessors_of_perm hedges]
  simp only [ReadyBy, mem_predecessors_of_perm hedges, hnil]
  rfl

theorem skipClosed_of_perm (hedges : edges.Perm g.edges) {S : Set String} :
    SkipClosed { g with edges := edges } σ start S ↔ SkipClosed g σ start S := by
  constructor <;> exact fun ⟨hskip, hstart, hsuccessor⟩ ↦ ⟨hskip, hstart, by
    simpa only [mem_predecessors_of_perm hedges, hedges.mem_iff] using hsuccessor⟩

/-- The cascade ends, skips exactly the least closed set, each node once, promotes exactly the
pending successors of the skipped nodes that are ready in the end, and leaves every other status;
the statuses do not depend on the order of the edges. -/
theorem cascadeSkip_closure (h : t.OneRow) (start : String) :
    let done := cascadeSkip g now t start
    (cascadeLoop g now t start).2 = [] ∧ done.ids.Nodup ∧
      IsLeast {S | SkipClosed g t.statusOf start S} {n | n ∈ done.ids} ∧
      (∀ n, done.nodes.statusOf n = if n ∈ done.ids then some .skipped
        else if t.statusOf n = some .pending ∧ NextOf g done.ids n ∧ isReady g done.nodes n then
          some .ready
        else t.statusOf n) ∧
      ∀ edges : List GraphEdge, edges.Perm g.edges → ∀ now' n,
        (cascadeSkip { g with edges := edges } now' t start).nodes.statusOf n =
          done.nodes.statusOf n := by
  intro done
  obtain ⟨hrow, hdone⟩ : NodeTable.OneRow done.nodes ∧
      Cascading g t.statusOf start [] [] done.ids done.nodes.statusOf :=
    cascadeSkip_cascading g now h start
  refine ⟨cascadeSkip_drained g now t start, hdone.nodup, hdone.isLeast, fun n ↦ ?_,
    fun edges hedges now' n ↦ ?_⟩
  · split_ifs with hids hpromoted
    · exact (hdone.skipped n hids).2
    · rw [isReady_iff hrow] at hpromoted
      classical rw [hdone.status_eq hids, if_pos hpromoted]
    · rw [isReady_iff hrow] at hpromoted
      classical rw [hdone.status_eq hids, if_neg hpromoted]
  · obtain ⟨-, hdone'⟩ := cascadeSkip_cascading { g with edges := edges } now' h start
    have hsets := hdone'.isLeast
    simp only [skipClosed_of_perm hedges] at hsets
    have hids : ∀ n, n ∈ (cascadeSkip { g with edges := edges } now' t start).ids ↔ n ∈ done.ids :=
      Set.ext_iff.mp (hsets.unique hdone.isLeast)
    by_cases hmem : n ∈ done.ids
    · rw [(hdone'.skipped n ((hids n).mpr hmem)).2, (hdone.skipped n hmem).2]
    · classical
      rw [hdone.status_eq hmem, hdone'.status_eq (mt (hids n).mp hmem)]
      have halike := hdone'.alike
      simp only [hids] at halike
      simp only [NextOf, hedges.mem_iff, hids, readyBy_of_perm hedges, ← halike.readyBy_iff,
        ← hdone.alike.readyBy_iff]

/-- The skip of an approval closes over the publication behind it. -/
theorem closure_of_branch :
    let g : WorkflowGraph :=
      { nodes := [{ id := "a", type := "approval" }, { id := "p", type := "publish" }]
        edges := [{ source := "a", target := "p" }] }
    let row (nodeType : String) : NodeRun := { nodeType, nodeVersion := 1, status := .pending }
    let t : NodeTable := ⟨[(⟨"a", ""⟩, row "approval"), (⟨"p", ""⟩, row "publish")], by decide⟩
    IsLeast {S | SkipClosed g t.statusOf "a" S} {n | n ∈ (cascadeSkip g 0 t "a").ids} :=
  (cascadeSkip_closure (by decide) "a").2.2.1

end ContentGenerator.Workflows
