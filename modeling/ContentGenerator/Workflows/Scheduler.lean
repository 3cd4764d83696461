import Mathlib.Data.List.Basic
import ContentGenerator.Lib.KeyedTable
import ContentGenerator.Lib.Play
import ContentGenerator.Workflows.Schedule

/-!
# The automation scheduler

A tick locks the due automations that nobody else has locked, and fires one after the other: it claims the
occurrence of the slot in `next_run_at`, moves `next_run_at` on, and starts a run. All of it is written when
the transaction of the tick commits. Any number of ticks go on at the same time.

Main result: `slots_in_order`, the slots are processed in the order in which `compute_next_run_at`
enumerates them, each once, with one occurrence and at most one run.
-/

namespace ContentGenerator.Workflows

open Lib List Option KeyedTable Prod
open Function (update update_apply)

variable {id : ℕ} {slot : ℤ}

/-! ### Tables -/

inductive AutomationTriggerType
  | manual | schedule | webhook | event
  deriving DecidableEq

/-- The columns of an automation that the scheduler reads or writes. -/
structure AutomationRow where
  enabled : Bool
  triggerType : AutomationTriggerType
  deleted : Bool := false
  triggerConfig : TriggerConfig
  timezone : String := "UTC"
  nextRunAt : Option ℤ := none
  lastRunAt : Option ℤ := none

/-- `AutomationOccurrenceStatus`. -/
inductive OccurrenceStatus
  | claimed | started | succeeded | skipped | failed
  deriving DecidableEq

inductive OccurrenceError
  | computeFailed (error : ScheduleError)
  | startFailed (detail : String)

/-- An occurrence; automation and key are the key of the table. -/
structure OccurrenceRow where
  scheduledFor : ℤ
  status : OccurrenceStatus := .claimed
  errorMessage : Option OccurrenceError := none
  workflowRunId : Option ℕ := none

/-- A run of the scheduler. Automation and occurrence make up its correlation id. -/
structure ScheduledRun where
  automationId : ℕ
  scheduledOccurrence : ℤ
  scheduledFor : ℤ

/-- What has been committed: the tables, and the slots in the order in which they were processed. -/
structure ScheduleTables where
  automations : KeyedTable ℕ AutomationRow
  occurrences : KeyedTable (ℕ × ℤ) OccurrenceRow := ⟨[], nodup_nil⟩
  runs : List (ℕ × ScheduledRun) := []
  processed : List (ℕ × ℤ) := []

variable (resolveTz : String → Option Timezone)

def AutomationRow.computeNext (row : AutomationRow) (after : ℤ) : Except ScheduleError ℤ :=
  computeNextRunAt resolveTz row.triggerConfig
    (if row.timezone = "" then "UTC" else row.timezone) after

/-- `sync_schedule_state` with `force_recompute`. -/
def AutomationRow.syncScheduleState (row : AutomationRow) (now : ℤ) :
    Except ScheduleError AutomationRow :=
  if !row.enabled then .ok { row with nextRunAt := none }
  else if row.triggerType ≠ .schedule then .ok { row with nextRunAt := none }
  else (row.computeNext resolveTz now).map fun next ↦ { row with nextRunAt := some next }

/-! ### Firing -/

/-- What a transaction will write about one automation. -/
structure Firing where
  automationId : ℕ
  scheduledFor : ℤ
  occurrence : Option OccurrenceRow
  run : Option (ℕ × ScheduledRun)
  row : AutomationRow

/-- A tick: its clock, the automations it has still to fire, and what it has fired. -/
structure TickSession where
  asOf : ℤ
  due : List ℕ
  fired : List Firing

/-- How `start_run` goes: what the checks before and after the lookup of the correlation id say, the id of
the new run, and what happens once it has been added. -/
structure StartAttempt where
  version : Except String Unit
  checks : Except String Unit
  id : ℕ
  added : Except String Unit

namespace ScheduleTables

variable (t : ScheduleTables)

/-- The run with the correlation id, among the committed ones and those of the transaction. -/
def runByCorrelation (fired : List Firing) (automationId : ℕ) (key : ℤ) : Option ℕ :=
  ((t.runs ++ fired.filterMap Firing.run).find? fun entry ↦
    entry.2.automationId = automationId ∧ entry.2.scheduledOccurrence = key).map fst

/-- `_start_scheduled_run`: the run it adds, and what it returns. -/
def startScheduledRun (fired : List Firing) (automationId : ℕ) (scheduledFor : ℤ)
    (attempt : StartAttempt) : Option (ℕ × ScheduledRun) × Except String ℕ :=
  let key := occurrenceKey scheduledFor
  match attempt.version, t.runByCorrelation fired automationId key, attempt.checks with
  | .error detail, _, _ => (none, .error detail)
  | .ok (), some id, _ => (none, .ok id)
  | .ok (), none, .error detail => (none, .error detail)
  | .ok (), none, .ok () =>
    (some (attempt.id, ⟨automationId, key, scheduledFor⟩), attempt.added.map fun _ ↦ attempt.id)

/-- `claim_occurrence` finds no row with the key. -/
def claimOccurrence (fired : List Firing) (automationId : ℕ) (key : ℤ) : Bool :=
  (t.occurrences.find (automationId, key)).isNone &&
    !fired.any fun firing ↦ firing.automationId = automationId &&
      occurrenceKey firing.scheduledFor = key

def fireOne (session : TickSession) (automationId : ℕ) (row : AutomationRow) (attempt : StartAttempt) :
    Firing :=
  let scheduledFor := row.nextRunAt.getD session.asOf
  let occ : Option OccurrenceRow :=
    if t.claimOccurrence session.fired automationId (occurrenceKey scheduledFor) then some { scheduledFor }
    else none
  match row.computeNext resolveTz scheduledFor with
  | .error error =>
    { automationId, scheduledFor
      occurrence := occ.map fun occ ↦
        { occ with status := .failed, errorMessage := some (.computeFailed error) }
      run := none
      row := { row with enabled := false, nextRunAt := none } }
  | .ok next =>
    match occ with
    | none =>
      { automationId, scheduledFor, occurrence := none, run := none
        row := { row with nextRunAt := some next } }
    | some occ =>
      let (run, result) := t.startScheduledRun session.fired automationId scheduledFor attempt
      { automationId, scheduledFor, run
        occurrence := some <| match result with
          | .error detail => { occ with status := .failed, errorMessage := some (.startFailed detail) }
          | .ok id => { occ with status := .started, workflowRunId := some id }
        row := { row with nextRunAt := some next, lastRunAt := some session.asOf } }

def applyFiring (firing : Firing) : ScheduleTables where
  automations := t.automations.modify firing.automationId fun _ ↦ firing.row
  occurrences :=
    match firing.occurrence with
    | some occ => t.occurrences.insertNew (firing.automationId, occurrenceKey firing.scheduledFor) occ
    | none => t.occurrences
  runs := t.runs ++ firing.run.toList
  processed := t.processed ++ [(firing.automationId, firing.scheduledFor)]

def slots (id : ℕ) : List ℤ := (t.processed.filter fun entry ↦ entry.1 = id).map snd

end ScheduleTables

/-! ### Ticks -/

/-- The tables, the locked automations with the ticks that have locked them, and the open ticks. -/
structure SchedulerState where
  tables : ScheduleTables
  lock : ℕ → Option ℕ := fun _ ↦ none
  session : ℕ → Option TickSession := fun _ ↦ none

inductive TickOp
  | claim (who : ℕ) (now : ℤ) (limit : ℕ)
  | fire (who : ℕ) (attempt : StartAttempt)
  | commit (who : ℕ)
  | rollback (who : ℕ)

namespace SchedulerState

/-- The conditions of `claim_due_automations`. -/
def isDue (asOf : ℤ) (row : AutomationRow) : Bool :=
  row.enabled && row.triggerType = .schedule && !row.deleted && row.nextRunAt.any (· ≤ asOf)

/-- `claim_due_automations`: the first due automations that nobody has locked. -/
def claimDueAutomations (s : SchedulerState) (asOf : ℤ) (limit : ℕ) : List ℕ :=
  ((((s.tables.automations.entries.filter fun entry ↦ isDue asOf entry.2 && (s.lock entry.1).isNone).mergeSort
    fun first second ↦ first.2.nextRunAt.getD asOf ≤ second.2.nextRunAt.getD asOf).take limit).map fst)

/-- The transaction of a tick is over, and its locks are free. -/
def close (s : SchedulerState) (who : ℕ) : SchedulerState :=
  { s with
    lock := fun id ↦ if s.lock id = some who then none else s.lock id
    session := update s.session who none }

/-- The step. A step the tick is not ready for does nothing; a tick commits once it has fired all its
automations. -/
def apply (s : SchedulerState) : TickOp → SchedulerState
  | .claim who now limit =>
    match s.session who with
    | some _ => s
    | none =>
      let due := s.claimDueAutomations now limit
      { s with
        lock := fun id ↦ if id ∈ due then some who else s.lock id
        session := update s.session who (some ⟨now, due, []⟩) }
  | .fire who attempt =>
    match s.session who with
    | some ⟨asOf, id :: due, fired⟩ =>
      match s.tables.automations.find id with
      | some row =>
        let firing := s.tables.fireOne resolveTz ⟨asOf, id :: due, fired⟩ id row attempt
        { s with session := update s.session who (some ⟨asOf, due, fired ++ [firing]⟩) }
      | none => s
    | _ => s
  | .commit who =>
    match s.session who with
    | some ⟨_, [], fired⟩ =>
      { s with tables := fired.foldl ScheduleTables.applyFiring s.tables }.close who
    | _ => s
  | .rollback who => s.close who

end SchedulerState

/-! ### The enumeration of the slots -/

/-- The automations at the start: every `next_run_at` comes from `compute_next_run_at`. -/
structure SyncedAutomations where
  table : KeyedTable ℕ AutomationRow
  synced : ∀ id row slot, table.find id = some row → row.nextRunAt = some slot →
    ∃ after, row.computeNext resolveTz after = .ok slot

variable {resolveTz}

namespace AutomationRow

variable (resolveTz) (row : AutomationRow)

/-- The slots in the order of `compute_next_run_at`. -/
def slotAt : ℕ → Option ℤ
  | 0 => row.nextRunAt
  | n + 1 => (slotAt n).bind fun slot ↦ (row.computeNext resolveTz slot).toOption

variable {resolveTz row}

theorem computeNext_ok {after : ℤ} (h : row.computeNext resolveTz after = .ok slot) :
    ∃ tz, resolveTz (if row.timezone = "" then "UTC" else row.timezone) = some tz ∧
      row.triggerConfig.nextIn tz after = .ok slot := by
  unfold computeNext computeNextRunAt at h
  split at h
  · exact ⟨_, ‹_›, h⟩
  · cases h

theorem slotAt_succ_eq_some {n : ℕ} {later : ℤ} (h : row.slotAt resolveTz (n + 1) = some later) :
    ∃ slot, row.slotAt resolveTz n = some slot ∧ row.computeNext resolveTz slot = .ok later := by
  obtain ⟨slot, hslot, hnext⟩ := bind_eq_some_iff.mp h
  refine ⟨slot, hslot, ?_⟩
  cases hlater : row.computeNext resolveTz slot with
  | error error =>
    rw [hlater] at hnext
    cases hnext
  | ok next =>
    rw [hlater] at hnext
    exact congrArg Except.ok (Option.some.inj hnext)

/-- Every slot comes from `compute_next_run_at`. -/
theorem slotAt_computed (hsynced : ∀ slot, row.nextRunAt = some slot →
    ∃ after, row.computeNext resolveTz after = .ok slot) {n : ℕ}
    (h : row.slotAt resolveTz n = some slot) : ∃ after, row.computeNext resolveTz after = .ok slot := by
  cases n with
  | zero => exact hsynced slot h
  | succ n =>
    obtain ⟨before, -, hnext⟩ := slotAt_succ_eq_some h
    exact ⟨before, hnext⟩

theorem slotAt_key_lt (hsynced : ∀ slot, row.nextRunAt = some slot →
    ∃ after, row.computeNext resolveTz after = .ok slot) {i j : ℕ} (hij : i < j) {later : ℤ}
    (hslot : row.slotAt resolveTz i = some slot) (hlater : row.slotAt resolveTz j = some later) :
    occurrenceKey slot < occurrenceKey later := by
  induction j generalizing later with
  | zero => exact absurd hij (Nat.not_lt_zero i)
  | succ j ih =>
    obtain ⟨before, hbefore, hnext⟩ := slotAt_succ_eq_some hlater
    have hstep : occurrenceKey before < occurrenceKey later := by
      obtain ⟨after, hafter⟩ := slotAt_computed hsynced hbefore
      obtain ⟨tz, htz, hcomputed⟩ := computeNext_ok hafter
      obtain ⟨tz', htz', hnext'⟩ := computeNext_ok hnext
      obtain rfl := mem_unique htz htz'
      exact (isSlot_of_nextIn hcomputed).key_lt hnext'
    rcases Nat.lt_succ_iff_lt_or_eq.mp hij with hlt | rfl
    · exact (ih hlt hbefore).trans hstep
    · obtain rfl := mem_unique hslot hbefore
      exact hstep

end AutomationRow

/-! ### Slots in order -/

namespace ScheduleTables

variable (start : SyncedAutomations resolveTz) (t : ScheduleTables)

/-- The slots processed so far are the first ones of the enumeration, and `next_run_at` is the one after
them; the occurrences are theirs, one each, and the runs are among theirs. -/
structure InOrder : Prop where
  kept : ∀ id, (t.automations.find id).isSome = (start.table.find id).isSome
  enumerated : ∀ id first row, start.table.find id = some first → t.automations.find id = some row →
    row.triggerConfig = first.triggerConfig ∧ row.timezone = first.timezone ∧
      (∀ n (hn : n < (t.slots id).length), first.slotAt resolveTz n = some (t.slots id)[n]) ∧
      first.slotAt resolveTz (t.slots id).length = row.nextRunAt
  occurrences : ∀ id,
    (t.occurrences.entries.filter fun entry ↦ entry.1.1 = id).map
      (fun entry ↦ (entry.1.2, entry.2.scheduledFor)) =
      (t.slots id).map fun slot ↦ (occurrenceKey slot, slot)
  runs : ∀ id,
    ((t.runs.filter fun entry ↦ entry.2.automationId = id).map fun entry ↦
      (entry.2.scheduledOccurrence, entry.2.scheduledFor)).Sublist
      ((t.slots id).map fun slot ↦ (occurrenceKey slot, slot))

variable {start t}

/-- What the firing of an automation is, when nobody else has written it. -/
structure Next (resolveTz : String → Option Timezone) (t : ScheduleTables) (firing : Firing) : Prop where
  row : ∃ row, t.automations.find firing.automationId = some row ∧
    row.nextRunAt = some firing.scheduledFor ∧ firing.row.triggerConfig = row.triggerConfig ∧
      firing.row.timezone = row.timezone ∧
      firing.row.nextRunAt = (row.computeNext resolveTz firing.scheduledFor).toOption
  occurrence : ∃ occ, firing.occurrence = some occ ∧ occ.scheduledFor = firing.scheduledFor
  run : ∀ id run, firing.run = some (id, run) →
    run = ⟨firing.automationId, occurrenceKey firing.scheduledFor, firing.scheduledFor⟩

/-- The keys of the processed slots and of `next_run_at` increase. -/
theorem InOrder.increasing (h : t.InOrder start) {row : AutomationRow}
    (hrow : t.automations.find id = some row) :
    (t.slots id ++ row.nextRunAt.toList).Pairwise fun slot later ↦
      occurrenceKey slot < occurrenceKey later := by
  have hsome : (start.table.find id).isSome := by
    rw [← h.kept, hrow]
    rfl
  obtain ⟨first, hfirst⟩ := isSome_iff_exists.mp hsome
  obtain ⟨-, -, hslots, hnext⟩ := h.enumerated id first row hfirst hrow
  have hlt : ∀ {i j : ℕ} {slot later : ℤ}, i < j → first.slotAt resolveTz i = some slot →
      first.slotAt resolveTz j = some later → occurrenceKey slot < occurrenceKey later :=
    fun hij ↦ AutomationRow.slotAt_key_lt (fun slot hslot ↦ start.synced id first slot hfirst hslot) hij
  rw [pairwise_append]
  refine ⟨?_, ?_, ?_⟩
  · rw [pairwise_iff_getElem]
    intro i j hi hj hij
    exact hlt hij (hslots i hi) (hslots j hj)
  · cases row.nextRunAt with
    | none => exact List.Pairwise.nil
    | some next => exact pairwise_singleton _ _
  · intro slot hslot later hlater
    obtain ⟨n, hn, rfl⟩ := getElem_of_mem hslot
    exact hlt hn (hslots n hn) (hnext.trans (mem_toList.mp hlater))

theorem slots_applyFiring (t : ScheduleTables) (firing : Firing) (id : ℕ) :
    (t.applyFiring firing).slots id =
      if firing.automationId = id then t.slots id ++ [firing.scheduledFor] else t.slots id := by
  unfold slots applyFiring
  dsimp only
  rw [filter_append, map_append]
  split_ifs with hsame
  · rw [filter_cons_of_pos (by simpa using hsame)]
    rfl
  · rw [filter_cons_of_neg (by simpa using hsame)]
    exact append_nil _

theorem InOrder.occurrence_none (h : t.InOrder start) {row : AutomationRow}
    (hrow : t.automations.find id = some row) (hslot : row.nextRunAt = some slot) :
    t.occurrences.find (id, occurrenceKey slot) = none := by
  by_contra hfound
  obtain ⟨occ, hocc⟩ := ne_none_iff_exists'.mp hfound
  have hmem := (find_eq_some_iff _ _ _).mp hocc
  have hpair : (occurrenceKey slot, occ.scheduledFor) ∈
      (t.slots id).map fun slot ↦ (occurrenceKey slot, slot) := by
    rw [← h.occurrences id]
    exact List.mem_map_of_mem (f := fun entry : (ℕ × ℤ) × OccurrenceRow ↦
      (entry.1.2, entry.2.scheduledFor)) (mem_filter.mpr ⟨hmem, by simp⟩)
  obtain ⟨past, hpast, heq⟩ := List.mem_map.mp hpair
  have hlt := (pairwise_append.mp (h.increasing hrow)).2.2 past hpast slot
    (mem_toList.mpr hslot)
  exact absurd (Prod.mk.inj heq).1 hlt.ne

/-- A firing processes the next slot. -/
theorem InOrder.applyFiring (h : t.InOrder start) {firing : Firing}
    (hnext : t.Next resolveTz firing) :
    (t.applyFiring firing).InOrder start := by
  obtain ⟨row, hrow, hslot, hconfig, htimezone, hlater⟩ := hnext.row
  obtain ⟨occ, hocc, hscheduled⟩ := hnext.occurrence
  have hfresh := h.occurrence_none hrow hslot
  constructor
  · intro id
    rw [← h.kept id]
    change ((t.automations.modify _ _).find id).isSome = _
    rw [find_modify]
    split_ifs
    · rw [isSome_map]
    · rfl
  · intro id first row' hfirst hrow'
    replace hrow' : (t.automations.modify firing.automationId fun _ ↦ firing.row).find id = some row' := hrow'
    rw [slots_applyFiring]
    by_cases hsame : firing.automationId = id
    · subst hsame
      rw [find_modify_self, hrow] at hrow'
      cases hrow'
      obtain ⟨hsameConfig, hsameTimezone, hslots, hat⟩ := h.enumerated _ first row hfirst hrow
      rw [if_pos rfl]
      refine ⟨hconfig.trans hsameConfig, htimezone.trans hsameTimezone, fun n hn ↦ ?_, ?_⟩
      · rw [getElem_append]
        split_ifs with hbefore
        · exact hslots n hbefore
        · rw [length_append, length_singleton] at hn
          have hlast : n = (t.slots firing.automationId).length := by omega
          rw [getElem_singleton, hlast, hat, hslot]
      · rw [length_append, length_singleton, AutomationRow.slotAt, hat, hslot, hlater]
        unfold AutomationRow.computeNext
        rw [hsameConfig, hsameTimezone]
        rfl
    · rw [find_modify_of_ne _ _ (Ne.symm hsame)] at hrow'
      rw [if_neg hsame]
      exact h.enumerated id first row' hfirst hrow'
  · intro id
    have hentries : (t.applyFiring firing).occurrences.entries =
        t.occurrences.entries ++ [((firing.automationId, occurrenceKey firing.scheduledFor), occ)] := by
      unfold ScheduleTables.applyFiring
      dsimp only
      rw [hocc]
      exact entries_insertNew _ occ hfresh
    rw [hentries, slots_applyFiring, filter_append, map_append, h.occurrences id]
    split_ifs with hsame
    · rw [filter_cons_of_pos (by simpa using hsame), map_append, ← hscheduled]
      rfl
    · rw [filter_cons_of_neg (by simpa using hsame)]
      exact append_nil _
  · intro id
    change ((((t.runs ++ firing.run.toList).filter _).map _).Sublist _)
    rw [slots_applyFiring, filter_append, map_append]
    cases hrun : firing.run with
    | none =>
      refine (append_nil _).symm ▸ (h.runs id).trans ?_
      split_ifs
      · rw [map_append]
        exact sublist_append_left _ _
      · exact List.Sublist.refl _
    | some run =>
      obtain ⟨runId, run⟩ := run
      obtain rfl := hnext.run runId run hrun
      rw [toList_some]
      split_ifs with hsame
      · rw [filter_cons_of_pos (by simpa using hsame), map_append]
        exact (h.runs id).append (List.Sublist.refl _)
      · rw [filter_cons_of_neg (by simpa using hsame)]
        exact (append_nil _).symm ▸ h.runs id

/-- The firing of another automation is still what it was. -/
theorem Next.applyFiring {firing other : Firing} (h : t.Next resolveTz firing)
    (hne : firing.automationId ≠ other.automationId) :
    (t.applyFiring other).Next resolveTz firing := by
  obtain ⟨row, hrow, hrest⟩ := h.row
  refine ⟨⟨row, ?_, hrest⟩, h.occurrence, h.run⟩
  exact (find_modify_of_ne _ _ hne).trans hrow

theorem InOrder.applyFirings (h : t.InOrder start) {fired : List Firing}
    (hnodup : (fired.map Firing.automationId).Nodup)
    (hnext : ∀ firing ∈ fired, t.Next resolveTz firing) :
    (fired.foldl ScheduleTables.applyFiring t).InOrder start := by
  induction fired generalizing t with
  | nil => exact h
  | cons firing fired ih =>
    obtain ⟨hnot, hrest⟩ := nodup_cons.mp hnodup
    refine ih (h.applyFiring (hnext firing mem_cons_self)) hrest fun later hlater ↦ ?_
    refine (hnext later (mem_cons_of_mem _ hlater)).applyFiring fun hsame ↦ hnot ?_
    rw [← hsame]
    exact List.mem_map_of_mem hlater

/-- Rows of other automations are left alone. -/
theorem find_applyFirings (t : ScheduleTables) (fired : List Firing)
    (hid : id ∉ fired.map Firing.automationId) :
    (fired.foldl ScheduleTables.applyFiring t).automations.find id = t.automations.find id := by
  induction fired generalizing t with
  | nil => rfl
  | cons firing fired ih =>
    rw [map_cons, mem_cons, not_or] at hid
    exact (ih (t.applyFiring firing) hid.2).trans (find_modify_of_ne _ _ hid.1)

/-- Processed slots stay. -/
theorem slots_prefix_applyFirings (t : ScheduleTables) (fired : List Firing) (id : ℕ) :
    t.slots id <+: (fired.foldl ScheduleTables.applyFiring t).slots id := by
  induction fired generalizing t with
  | nil => exact prefix_rfl
  | cons firing fired ih =>
    refine List.IsPrefix.trans ?_ (ih (t.applyFiring firing))
    rw [slots_applyFiring]
    split_ifs
    · exact prefix_append _ _
    · exact prefix_rfl

/-- A run that is added has the automation and the slot in its correlation id. -/
theorem startScheduledRun_run {fired : List Firing} {automationId : ℕ} {scheduledFor : ℤ}
    {attempt : StartAttempt} {run : ScheduledRun}
    (h : (t.startScheduledRun fired automationId scheduledFor attempt).1 = some (id, run)) :
    run = ⟨automationId, occurrenceKey scheduledFor, scheduledFor⟩ := by
  unfold startScheduledRun at h
  dsimp only at h
  split at h
  · cases h
  · cases h
  · cases h
  · exact (Prod.mk.inj (Option.some.inj h)).2.symm

/-- What a tick fires is the next slot: nobody has claimed its occurrence. -/
theorem InOrder.fireOne_next (h : t.InOrder start) {session : TickSession} {row : AutomationRow}
    (attempt : StartAttempt) (hrow : t.automations.find id = some row)
    (hslot : row.nextRunAt = some slot) (hfired : id ∉ session.fired.map Firing.automationId) :
    t.Next resolveTz (t.fireOne resolveTz session id row attempt) := by
  have hclaimed : t.claimOccurrence session.fired id (occurrenceKey slot) = true := by
    unfold claimOccurrence
    rw [h.occurrence_none hrow hslot, Bool.and_eq_true, Bool.not_eq_true']
    refine ⟨rfl, List.any_eq_false.mpr fun firing hfiring hsame ↦ hfired ?_⟩
    rw [Bool.and_eq_true, decide_eq_true_eq] at hsame
    rw [← hsame.1]
    exact List.mem_map_of_mem hfiring
  unfold fireOne
  rw [hslot, getD_some]
  dsimp only
  rw [if_pos hclaimed]
  cases hnext : row.computeNext resolveTz slot with
  | error error =>
    dsimp only
    refine ⟨⟨row, hrow, hslot, rfl, rfl, ?_⟩, ⟨_, rfl, rfl⟩, fun _ _ hrun ↦ absurd hrun (by simp)⟩
    rw [hnext]
    rfl
  | ok next =>
    dsimp only
    refine ⟨⟨row, hrow, hslot, rfl, rfl, ?_⟩, ⟨_, rfl, ?_⟩, fun _ _ hrun ↦ startScheduledRun_run hrun⟩
    · rw [hnext]
      rfl
    · split <;> rfl

@[simp] theorem automationId_fireOne (session : TickSession) (id : ℕ) (row : AutomationRow)
    (attempt : StartAttempt) : (t.fireOne resolveTz session id row attempt).automationId = id := by
  unfold fireOne
  dsimp only
  split
  · rfl
  · split <;> rfl

end ScheduleTables

namespace SchedulerState

variable {start : SyncedAutomations resolveTz} {s s' : SchedulerState} {who : ℕ}

/-! ### Runs of ticks -/

/-- A tick has locked its automations, each once; those it has still to fire have a `next_run_at`, and
those it has fired have not changed since. -/
structure SessionSound (resolveTz : String → Option Timezone) (s : SchedulerState) (who : ℕ)
    (session : TickSession) : Prop where
  held : ∀ id ∈ session.due ++ session.fired.map Firing.automationId, s.lock id = some who
  nodup : (session.due ++ session.fired.map Firing.automationId).Nodup
  due : ∀ id ∈ session.due, ∃ row slot, s.tables.automations.find id = some row ∧
    row.nextRunAt = some slot
  fired : ∀ firing ∈ session.fired, s.tables.Next resolveTz firing

/-- The tables are in order, and so are the open ticks. -/
structure Sound (start : SyncedAutomations resolveTz) (s : SchedulerState) : Prop where
  inOrder : s.tables.InOrder start
  sessions : ∀ who session, s.session who = some session → s.SessionSound resolveTz who session

/-- A tick does not notice what happens to other automations. -/
theorem SessionSound.frame {session : TickSession} (h : s.SessionSound resolveTz who session)
    (hlock : ∀ id, s.lock id = some who → s'.lock id = some who)
    (hrows : ∀ id, s.lock id = some who →
      s'.tables.automations.find id = s.tables.automations.find id) :
    s'.SessionSound resolveTz who session := by
  refine ⟨fun id hid ↦ hlock id (h.held id hid), h.nodup, fun id hid ↦ ?_, fun firing hfiring ↦ ?_⟩
  · rw [hrows id (h.held id (mem_append_left _ hid))]
    exact h.due id hid
  · obtain ⟨⟨row, hrow, hrest⟩, hoccurrence, hrun⟩ := h.fired firing hfiring
    have hheld := h.held firing.automationId (mem_append_right _ (List.mem_map_of_mem hfiring))
    exact ⟨⟨row, (hrows _ hheld).trans hrow, hrest⟩, hoccurrence, hrun⟩

/-- The end of a tick. -/
theorem Sound.close (h : s.Sound start) {t : ScheduleTables} (hinOrder : t.InOrder start)
    (hrows : ∀ id, s.lock id ≠ some who → t.automations.find id = s.tables.automations.find id) :
    ({ s with tables := t }.close who).Sound start := by
  refine ⟨hinOrder, fun other session hsession ↦ ?_⟩
  have hother : other ≠ who ∧ s.session other = some session := by
    replace hsession : update s.session who none other = some session := hsession
    rw [update_apply] at hsession
    split_ifs at hsession with hsame
    exact ⟨hsame, hsession⟩
  have hne : ∀ id, s.lock id = some other → s.lock id ≠ some who :=
    fun id hheld hwho ↦ hother.1 (mem_unique hheld hwho)
  refine (h.sessions other session hother.2).frame (fun id hheld ↦ ?_) fun id hheld ↦ hrows id (hne id hheld)
  exact (if_neg (hne id hheld)).trans hheld

theorem mem_claimDueAutomations {asOf : ℤ} {limit : ℕ} (h : id ∈ s.claimDueAutomations asOf limit) :
    s.lock id = none ∧ ∃ row slot, s.tables.automations.find id = some row ∧ row.nextRunAt = some slot := by
  obtain ⟨entry, hentry, rfl⟩ := List.mem_map.mp h
  have hmem := mem_filter.mp ((mergeSort_perm _ _).mem_iff.mp (mem_of_mem_take hentry))
  rw [Bool.and_eq_true, isNone_iff_eq_none] at hmem
  obtain ⟨hentries, hdue, hlock⟩ := hmem
  unfold isDue at hdue
  rw [Bool.and_eq_true] at hdue
  refine ⟨hlock, entry.2, ?_⟩
  cases hslot : entry.2.nextRunAt with
  | none =>
    rw [hslot] at hdue
    exact absurd hdue.2 (by simp)
  | some slot => exact ⟨slot, (find_eq_some_iff _ _ _).mpr hentries, rfl⟩

theorem nodup_claimDueAutomations (s : SchedulerState) (asOf : ℤ) (limit : ℕ) :
    (s.claimDueAutomations asOf limit).Nodup := by
  unfold claimDueAutomations
  refine List.Nodup.sublist ((take_sublist _ _).map _) ?_
  refine ((mergeSort_perm _ _).map fst).nodup_iff.mpr ?_
  exact s.tables.automations.nodupKeys.sublist (filter_sublist.map _)

/-- Every step keeps the tables and the ticks in order. -/
theorem Sound.apply (h : s.Sound start) (op : TickOp) : (s.apply resolveTz op).Sound start := by
  cases op with
  | claim who now limit =>
    unfold SchedulerState.apply
    dsimp only
    split
    · exact h
    · rename_i hnone
      refine ⟨h.inOrder, fun other session hsession ↦ ?_⟩
      dsimp only at hsession
      rw [update_apply] at hsession
      split_ifs at hsession with hsame
      · subst hsame
        cases hsession
        refine ⟨fun id hid ↦ ?_, ?_, fun id hid ↦ (mem_claimDueAutomations hid).2,
          by simp⟩
        · rw [map_nil, append_nil] at hid
          exact if_pos hid
        · rw [map_nil, append_nil]
          exact s.nodup_claimDueAutomations now limit
      · refine (h.sessions other session hsession).frame (fun id hheld ↦ ?_) fun _ _ ↦ rfl
        refine (if_neg fun hid ↦ ?_).trans hheld
        exact absurd (hheld.symm.trans (mem_claimDueAutomations hid).1) (by simp)
  | fire who attempt =>
    unfold SchedulerState.apply
    dsimp only
    split
    · rename_i asOf id due fired hopen
      split
      · rename_i row hrow
        refine ⟨h.inOrder, fun other session hsession ↦ ?_⟩
        dsimp only at hsession
        rw [update_apply] at hsession
        split_ifs at hsession with hsame
        · subst hsame
          cases hsession
          have hbefore := h.sessions other _ hopen
          obtain ⟨row', slot, hrow', hslot⟩ := hbefore.due id mem_cons_self
          obtain rfl := mem_unique hrow hrow'
          have hnot : id ∉ fired.map Firing.automationId := fun hfired ↦
            (nodup_cons.mp hbefore.nodup).1 (mem_append_right due hfired)
          have hids : (due ++ (fired ++ [s.tables.fireOne resolveTz ⟨asOf, id :: due, fired⟩ id row
              attempt]).map Firing.automationId).Perm
              (id :: due ++ fired.map Firing.automationId) := by
            rw [map_append, map_singleton, ScheduleTables.automationId_fireOne, ← append_assoc]
            exact perm_append_singleton _ _
          refine ⟨fun other hid ↦ hbefore.held other (hids.mem_iff.mp hid), hids.nodup_iff.mpr hbefore.nodup,
            fun other hdue ↦ hbefore.due other (mem_cons_of_mem id hdue), fun firing hfiring ↦ ?_⟩
          rcases mem_append.mp hfiring with hpast | hnew
          · exact hbefore.fired firing hpast
          · obtain rfl := mem_singleton.mp hnew
            exact h.inOrder.fireOne_next attempt hrow hslot hnot
        · exact (h.sessions other session hsession).frame (fun _ hheld ↦ hheld) fun _ _ ↦ rfl
      · exact h
    · exact h
  | commit who =>
    unfold SchedulerState.apply
    dsimp only
    split
    · rename_i asOf fired hopen
      have hsession := h.sessions who _ hopen
      refine h.close (h.inOrder.applyFirings hsession.nodup hsession.fired) fun id hfree ↦ ?_
      exact ScheduleTables.find_applyFirings _ _ fun hid ↦ hfree (hsession.held id hid)
    · exact h
  | rollback who => exact h.close h.inOrder fun _ _ ↦ rfl

/-- Processed slots stay. -/
theorem slots_prefix_apply (s : SchedulerState) (op : TickOp) (id : ℕ) :
    s.tables.slots id <+: (s.apply resolveTz op).tables.slots id := by
  cases op with
  | commit who =>
    unfold SchedulerState.apply
    dsimp only
    split
    · exact ScheduleTables.slots_prefix_applyFirings _ _ id
    · exact prefix_rfl
  | claim who now limit =>
    unfold SchedulerState.apply
    dsimp only
    split <;> exact prefix_rfl
  | fire who attempt =>
    unfold SchedulerState.apply
    dsimp only
    split
    · split <;> exact prefix_rfl
    · exact prefix_rfl
  | rollback who => exact prefix_rfl

def initial (start : SyncedAutomations resolveTz) : SchedulerState where
  tables := { automations := start.table }

theorem sound_initial (start : SyncedAutomations resolveTz) : (initial start).Sound start where
  inOrder := by
    refine ⟨fun _ ↦ rfl, fun id first row hfirst hrow ↦ ?_, fun _ ↦ rfl, fun _ ↦ List.Sublist.refl _⟩
    obtain rfl := mem_unique hfirst hrow
    exact ⟨rfl, rfl, fun n hn ↦ absurd hn (Nat.not_lt_zero n), rfl⟩
  sessions := fun _ _ hsession ↦ absurd hsession (by simp [initial])

/-- The slots between two moments of a run: at the later one the tables are in order, the slots and
`next_run_at` increase strictly and so do their keys, the slots of the earlier moment come first, and
`next_run_at` is the same only if nothing has been processed. -/
structure SlotsInOrder (start : SyncedAutomations resolveTz) (earlier later : ScheduleTables) : Prop where
  inOrder : later.InOrder start
  increasing : ∀ id row, later.automations.find id = some row →
    (later.slots id ++ row.nextRunAt.toList).Pairwise fun slot next ↦
      slot < next ∧ occurrenceKey slot < occurrenceKey next
  grows : ∀ id, earlier.slots id <+: later.slots id
  next : ∀ id row row' slot slot', earlier.automations.find id = some row →
    later.automations.find id = some row' → row.nextRunAt = some slot → row'.nextRunAt = some slot' →
      slot < slot' ∨ slot = slot' ∧ earlier.slots id = later.slots id

/-- Between two moments with tables in order the slots are in order. -/
theorem slotsInOrder_of_prefix {earlier later : ScheduleTables} (hearlier : earlier.InOrder start)
    (hlater : later.InOrder start) (hgrows : ∀ id, earlier.slots id <+: later.slots id) :
    SlotsInOrder start earlier later := by
  have hincreasing : ∀ id row, later.automations.find id = some row →
      (later.slots id ++ row.nextRunAt.toList).Pairwise fun slot next ↦
        slot < next ∧ occurrenceKey slot < occurrenceKey next := fun id row hrow ↦
    (hlater.increasing hrow).imp fun hkey ↦ ⟨lt_of_occurrenceKey_lt hkey, hkey⟩
  refine ⟨hlater, hincreasing, hgrows, fun id row row' slot slot' hrow hrow' hslot hslot' ↦ ?_⟩
  have hsome : (start.table.find id).isSome := by
    rw [← hlater.kept, hrow']
    rfl
  obtain ⟨first, hfirst⟩ := isSome_iff_exists.mp hsome
  obtain ⟨-, -, -, hnext⟩ := hearlier.enumerated id first row hfirst hrow
  obtain ⟨-, -, hslots, hnext'⟩ := hlater.enumerated id first row' hfirst hrow'
  rcases (hgrows id).length_le.lt_or_eq with hlt | heq
  · -- the slot of the earlier moment has been processed
    left
    have hprocessed : slot = (later.slots id)[(earlier.slots id).length] := by
      have hat := hslots _ hlt
      rw [hnext, hslot] at hat
      exact Option.some.inj hat
    have hpair := (pairwise_append.mp (hincreasing id row' hrow')).2.2 slot
      (hprocessed ▸ getElem_mem hlt) slot' (mem_toList.mpr hslot')
    exact hpair.1
  · right
    refine ⟨?_, (hgrows id).eq_of_length heq⟩
    rw [heq, hnext', hslot'] at hnext
    exact (Option.some.inj (hnext.trans hslot)).symm

/-- In every run of ticks the slots of every automation are processed in the order in which
`compute_next_run_at` enumerates them, each once, with one occurrence and at most one run, and `next_run_at`
increases strictly. -/
theorem slots_in_order (start : SyncedAutomations resolveTz) (before between : List TickOp) :
    SlotsInOrder start (play (apply resolveTz) before (initial start)).tables
      (play (apply resolveTz) (before ++ between) (initial start)).tables := by
  have hsound : ∀ ops, (play (apply resolveTz) ops (initial start)).Sound start := fun ops ↦
    play_invariant (fun (s : SchedulerState) op (hs : s.Sound start) ↦ hs.apply op) ops (sound_initial start)
  rw [play_append]
  refine slotsInOrder_of_prefix (hsound before).inOrder (play_append before between _ ▸
    (hsound (before ++ between)).inOrder) fun id ↦ ?_
  have hgrows : ∀ (s : SchedulerState) op,
      (play (apply resolveTz) before (initial start)).tables.slots id <+: s.tables.slots id →
        (play (apply resolveTz) before (initial start)).tables.slots id <+:
          (s.apply resolveTz op).tables.slots id :=
    fun s op hprefix ↦ hprefix.trans (slots_prefix_apply s op id)
  exact play_invariant hgrows between prefix_rfl

end SchedulerState

end ContentGenerator.Workflows
