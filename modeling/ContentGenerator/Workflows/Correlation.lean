import Mathlib.Data.List.MinMax
import ContentGenerator.Lib.KeyedTable
import ContentGenerator.Lib.Play
import ContentGenerator.Workflows.Nodes

/-!
# Correlation ids

`start_run` looks for a run with the correlation id and, when there is none, adds one at the end of the
call. Between the two lie the checks of the compiler and the configuration of the run, and no constraint
of the table stands behind the lookup. A caller may hold the lock of another row meanwhile: a webhook that
of its inbox row, the scheduler that of its automation; a request of the API holds none.

Main result: `oneRun_iff`, a correlation id gets one run if and only if nobody else commits one between a
lookup and its commit.
-/

namespace ContentGenerator.Workflows

open Lib List Option KeyedTable

/-! ### Calls of `start_run` -/

/-- What `start_run` is called with, as far as it decides about the run, and the row the caller has
locked. -/
structure StartRequest where
  tenantId : ℕ
  workflowVersionId : ℕ
  correlationId : Option String := none
  automationId : Option ℕ := none
  triggerType : String := "manual"
  dryRun : Bool := false
  lock : Option ℕ := none

/-- The columns `start_run` gives a `WorkflowRun`. -/
structure StartedRun where
  tenantId : ℕ
  workflowVersionId : ℕ
  correlationId : Option String
  automationId : Option ℕ
  triggerType : String
  createdAt : ℕ

/-- The correlation id, unless it is missing or empty. -/
def StartRequest.key (request : StartRequest) : Option (ℕ × String) :=
  (request.correlationId.filter (· ≠ "")).map fun correlationId ↦ (request.tenantId, correlationId)

/-- Tenant and correlation id of a run, unless that is missing or empty. -/
def StartedRun.key (run : StartedRun) : Option (ℕ × String) :=
  (run.correlationId.filter (· ≠ "")).map fun correlationId ↦ (run.tenantId, correlationId)

def StartRequest.storedTriggerType (request : StartRequest) : String :=
  if request.dryRun && request.triggerType = "manual" then "dry_run"
  else if request.triggerType = "" then "manual"
  else request.triggerType

def StartRequest.run (request : StartRequest) (now : ℕ) : StartedRun where
  tenantId := request.tenantId
  workflowVersionId := request.workflowVersionId
  correlationId := request.correlationId
  automationId := request.automationId
  triggerType := request.storedTriggerType
  createdAt := now

@[simp] theorem StartRequest.key_run (request : StartRequest) (now : ℕ) :
    (request.run now).key = request.key := rfl

def checkVersion : Option Bool → Except PyException Unit
  | none => .error (httpException 404 "Workflow version not found")
  | some false => .error (httpException 400 "Workflow version is not published")
  | some true => .ok ()

/-- How far a call has come: it has begun; no run was found among so many committed ones; the run has been
added; the call has a run to return. -/
inductive StartSession
  | begun (request : StartRequest)
  | deciding (request : StartRequest) (seen : ℕ)
  | added (request : StartRequest) (seen id : ℕ) (run : StartedRun)
  | returning (request : StartRequest) (id : ℕ)

def StartSession.request : StartSession → StartRequest
  | .begun request | .deciding request _ | .added request _ _ _ | .returning request _ => request

/-- The committed runs in the order of their commits, the locked rows with their owners, the open calls,
and the runs that callers have been given. -/
structure StartState where
  runs : KeyedTable ℕ StartedRun := ⟨[], nodup_nil⟩
  lock : ℕ → Option ℕ := fun _ ↦ none
  session : ℕ → Option StartSession := fun _ ↦ none
  given : List (StartRequest × ℕ) := []

/-- A step of a call. What the reads of the version and the checks before `add_run` come to is part of the
step. -/
inductive StartOp
  | startRun (who : ℕ) (request : StartRequest)
  | lookUp (who : ℕ) (version : Option Bool)
  | add (who id now : ℕ) (checks : Except PyException Unit)
  | commit (who : ℕ)
  | rollback (who : ℕ)

namespace StartState

/-- `get_run_by_correlation`. -/
def runByCorrelation (s : StartState) (key : ℕ × String) : Option (ℕ × StartedRun) :=
  (s.runs.entries.filter fun entry ↦ entry.2.key = some key).argmax fun entry ↦ entry.2.createdAt

/-- The call has come further. -/
def proceed (s : StartState) (who : ℕ) (session : StartSession) : StartState :=
  { s with session := Function.update s.session who (some session) }

/-- The transaction of the call is over, and its lock is free. -/
def close (s : StartState) (who : ℕ) (request : StartRequest) : StartState :=
  { s with
    lock := fun row ↦ if request.lock = some row then none else s.lock row
    session := Function.update s.session who none }

def commit (s : StartState) (who : ℕ) : StartSession → StartState
  | .added request _ id run =>
    if (s.runs.find id).isSome then s.close who request
    else
      { s with
        runs := s.runs.insertNew id run
        given := (request, id) :: s.given }.close who request
  | .returning request id => { s with given := (request, id) :: s.given }.close who request
  | _ => s

/-- The step. A step the call is not ready for does nothing; a call waits for its lock. -/
def apply (s : StartState) : StartOp → StartState
  | .startRun who request =>
    match s.session who, request.lock with
    | none, none => s.proceed who (.begun request)
    | none, some row =>
      if (s.lock row).isSome then s
      else { s with lock := Function.update s.lock row (some who) }.proceed who (.begun request)
    | some _, _ => s
  | .lookUp who version =>
    match s.session who with
    | some (.begun request) =>
      match checkVersion version, request.key.bind s.runByCorrelation with
      | .error _, _ => s.close who request
      | .ok (), some (id, _) => s.proceed who (.returning request id)
      | .ok (), none => s.proceed who (.deciding request s.runs.entries.length)
    | _ => s
  | .add who id now checks =>
    match s.session who with
    | some (.deciding request seen) =>
      match checks with
      | .ok () => s.proceed who (.added request seen id (request.run now))
      | .error _ => s.close who request
    | _ => s
  | .commit who =>
    match s.session who with
    | some session => s.commit who session
    | none => s
  | .rollback who =>
    match s.session who with
    | some session => s.close who session.request
    | none => s

/-! ### What a step can do -/

variable {s s' : StartState} {who : ℕ}

/-- What each step can do, with the guards it has passed. -/
inductive Effect (s : StartState) : StartOp → StartState → Prop
  | idle (op : StartOp) : Effect s op s
  | closed (op : StartOp) (who : ℕ) (session : StartSession) (hsession : s.session who = some session) :
      Effect s op (s.close who session.request)
  | begins (who : ℕ) (request : StartRequest) (hfree : s.session who = none)
      (hlock : request.lock = none) :
      Effect s (.startRun who request) (s.proceed who (.begun request))
  | locks (who row : ℕ) (request : StartRequest) (hfree : s.session who = none)
      (hlock : request.lock = some row) (hrow : s.lock row = none) :
      Effect s (.startRun who request)
        ({ s with lock := Function.update s.lock row (some who) }.proceed who (.begun request))
  | finds (who id : ℕ) (request : StartRequest) (version : Option Bool)
      (hsession : s.session who = some (.begun request)) (run : StartedRun)
      (hfind : s.runs.find id = some run) (hkey : run.key = request.key) :
      Effect s (.lookUp who version) (s.proceed who (.returning request id))
  | misses (who : ℕ) (request : StartRequest) (version : Option Bool)
      (hsession : s.session who = some (.begun request))
      (hnone : ∀ key, request.key = some key → ∀ entry ∈ s.runs.entries, entry.2.key ≠ some key) :
      Effect s (.lookUp who version) (s.proceed who (.deciding request s.runs.entries.length))
  | adds (who id now seen : ℕ) (request : StartRequest) (checks : Except PyException Unit)
      (hsession : s.session who = some (.deciding request seen)) :
      Effect s (.add who id now checks) (s.proceed who (.added request seen id (request.run now)))
  | commits (who id seen : ℕ) (request : StartRequest) (run : StartedRun)
      (hsession : s.session who = some (.added request seen id run)) (hid : s.runs.find id = none) :
      Effect s (.commit who)
        ({ s with
            runs := s.runs.insertNew id run
            given := (request, id) :: s.given }.close who request)
  | returns (who id : ℕ) (request : StartRequest)
      (hsession : s.session who = some (.returning request id)) :
      Effect s (.commit who) ({ s with given := (request, id) :: s.given }.close who request)

/-- The run that is found has the correlation id. -/
theorem runByCorrelation_eq_some {key : ℕ × String} {entry : ℕ × StartedRun}
    (h : s.runByCorrelation key = some entry) :
    s.runs.find entry.1 = some entry.2 ∧ entry.2.key = some key := by
  have hmem := mem_filter.mp (argmax_mem h)
  exact ⟨(find_eq_some_iff _ _ _).mpr hmem.1, of_decide_eq_true hmem.2⟩

theorem runByCorrelation_eq_none {key : ℕ × String} (h : s.runByCorrelation key = none) :
    ∀ entry ∈ s.runs.entries, entry.2.key ≠ some key := by
  intro entry hentry hkey
  have hnil := argmax_eq_none.mp h
  have hmem : entry ∈ s.runs.entries.filter fun entry ↦ entry.2.key = some key :=
    mem_filter.mpr ⟨hentry, decide_eq_true hkey⟩
  rw [hnil] at hmem
  simp at hmem

/-- The inversion of the steps. -/
theorem apply_effect (s : StartState) (op : StartOp) : Effect s op (s.apply op) := by
  cases op with
  | startRun who request =>
    unfold apply
    dsimp only
    split
    · rename_i hfree hlock
      exact .begins who request hfree hlock
    · rename_i row hfree hlock
      split_ifs with hrow
      · exact .idle _
      · exact .locks who row request hfree hlock (not_isSome_iff_eq_none.mp hrow)
    · exact .idle _
  | lookUp who version =>
    unfold apply
    dsimp only
    split
    · rename_i request hsession
      split
      · exact .closed _ who _ hsession
      · rename_i id run _ hfound
        obtain ⟨key, hkey, hrun⟩ := bind_eq_some_iff.mp hfound
        obtain ⟨hfind, hsame⟩ := runByCorrelation_eq_some hrun
        exact .finds who id request version hsession run hfind (hsame.trans hkey.symm)
      · rename_i hmissing
        refine .misses who request version hsession fun key hkey ↦ runByCorrelation_eq_none ?_
        rw [hkey] at hmissing
        exact hmissing
    · exact .idle _
  | add who id now checks =>
    unfold apply
    dsimp only
    split
    · rename_i request seen hsession
      split
      · exact .adds who id now seen request _ hsession
      · exact .closed _ who _ hsession
    · exact .idle _
  | commit who =>
    unfold apply
    dsimp only
    split
    · rename_i session hsession
      cases session with
      | begun request | deciding request seen => exact .idle _
      | added request seen id run =>
        unfold commit
        dsimp only
        split_ifs with htaken
        · exact .closed _ who _ hsession
        · exact .commits who id seen request run hsession (not_isSome_iff_eq_none.mp htaken)
      | returning request id => exact .returns who id request hsession
    · exact .idle _
  | rollback who =>
    unfold apply
    dsimp only
    split
    · rename_i session hsession
      exact .closed _ who session hsession
    · exact .idle _

/-! ### What is known about the calls -/

/-- The call has looked up its correlation id among so many committed runs, and found none. -/
def Missed (s : StartState) (who : ℕ) (request : StartRequest) (seen : ℕ) : Prop :=
  s.session who = some (.deciding request seen) ∨
    ∃ id run, s.session who = some (.added request seen id run)

/-- The runs a call has looked at do not have its correlation id; the run it has added has it, and so
has the run it is given. -/
structure Sound (s : StartState) : Prop where
  missed : ∀ who request seen, s.Missed who request seen → seen ≤ s.runs.entries.length ∧
    ∀ key, request.key = some key → ∀ entry ∈ s.runs.entries.take seen, entry.2.key ≠ some key
  added : ∀ who request seen id run, s.session who = some (.added request seen id run) →
    run.key = request.key
  returning : ∀ who request id, s.session who = some (.returning request id) →
    ∃ run, s.runs.find id = some run ∧ run.key = request.key
  given : ∀ request id, (request, id) ∈ s.given →
    ∃ run, s.runs.find id = some run ∧ run.key = request.key

theorem session_proceed (s : StartState) (who other : ℕ) (session : StartSession) :
    (s.proceed who session).session other = if other = who then some session else s.session other := by
  unfold proceed
  dsimp only
  rw [Function.update_apply]

theorem session_close (s : StartState) (who other : ℕ) (request : StartRequest) :
    (s.close who request).session other = if other = who then none else s.session other := by
  unfold close
  dsimp only
  rw [Function.update_apply]

/-- The committed runs grow at the end, and the sessions of the others stay. -/
theorem Sound.step (h : s.Sound) {later : List (ℕ × StartedRun)}
    (hentries : s'.runs.entries = s.runs.entries ++ later) (who : ℕ)
    (hothers : ∀ other, other ≠ who → s'.session other = s.session other)
    (hmissed : ∀ request seen, s'.Missed who request seen → seen ≤ s'.runs.entries.length ∧
      ∀ key, request.key = some key → ∀ entry ∈ s'.runs.entries.take seen, entry.2.key ≠ some key)
    (hadded : ∀ request seen id run, s'.session who = some (.added request seen id run) →
      run.key = request.key)
    (hreturning : ∀ request id, s'.session who = some (.returning request id) →
      ∃ run, s'.runs.find id = some run ∧ run.key = request.key)
    (hgiven : ∀ request id, (request, id) ∈ s'.given → (request, id) ∈ s.given ∨
      ∃ run, s'.runs.find id = some run ∧ run.key = request.key) : s'.Sound := by
  have hkept : ∀ id run, s.runs.find id = some run → s'.runs.find id = some run := by
    intro id run hfind
    rw [find_eq_some_iff] at hfind ⊢
    rw [hentries]
    exact mem_append_left _ hfind
  constructor
  · intro other request seen hother
    by_cases hsame : other = who
    · subst hsame
      exact hmissed request seen hother
    · unfold Missed at hother
      rw [hothers other hsame] at hother
      obtain ⟨hle, hnone⟩ := h.missed other request seen hother
      rw [hentries, length_append, take_append_of_le_length hle]
      exact ⟨hle.trans (Nat.le_add_right _ _), hnone⟩
  · intro other request seen id run hother
    by_cases hsame : other = who
    · subst hsame
      exact hadded request seen id run hother
    · rw [hothers other hsame] at hother
      exact h.added other request seen id run hother
  · intro other request id hother
    by_cases hsame : other = who
    · subst hsame
      exact hreturning request id hother
    · rw [hothers other hsame] at hother
      obtain ⟨run, hfind, hkey⟩ := h.returning other request id hother
      exact ⟨run, hkept id run hfind, hkey⟩
  · intro request id hmem
    rcases hgiven request id hmem with hbefore | hnew
    · obtain ⟨run, hfind, hkey⟩ := h.given request id hbefore
      exact ⟨run, hkept id run hfind, hkey⟩
    · exact hnew

/-- A step that changes one session only. -/
theorem Sound.update (h : s.Sound) (who : ℕ) (hruns : s'.runs = s.runs) (hgiven : s'.given = s.given)
    (hothers : ∀ other, other ≠ who → s'.session other = s.session other)
    (hmissed : ∀ request seen, s'.Missed who request seen → seen ≤ s.runs.entries.length ∧
      ∀ key, request.key = some key → ∀ entry ∈ s.runs.entries.take seen, entry.2.key ≠ some key)
    (hadded : ∀ request seen id run, s'.session who = some (.added request seen id run) →
      run.key = request.key)
    (hreturning : ∀ request id, s'.session who = some (.returning request id) →
      ∃ run, s.runs.find id = some run ∧ run.key = request.key) : s'.Sound := by
  have hentries : s'.runs.entries = s.runs.entries ++ [] := by rw [hruns, append_nil]
  refine h.step hentries who hothers ?_ hadded ?_ ?_
  · rw [hruns]
    exact hmissed
  · rw [hruns]
    exact hreturning
  · rw [hgiven]
    exact fun _ _ hmem ↦ .inl hmem

/-- The call is over, and its transaction has written nothing. -/
theorem Sound.close (h : s.Sound) (who : ℕ) (request : StartRequest) : (s.close who request).Sound := by
  have hover : (s.close who request).session who = none := (session_close s who who request).trans (if_pos rfl)
  refine h.update who rfl rfl (fun other hother ↦ (session_close s who other request).trans (if_neg hother))
    ?_ ?_ ?_
  · rintro request' seen (hmissed | ⟨id, run, hmissed⟩) <;> exact absurd (hover.symm.trans hmissed) (by simp)
  · exact fun _ _ _ _ hadded ↦ absurd (hover.symm.trans hadded) (by simp)
  · exact fun _ _ hreturning ↦ absurd (hover.symm.trans hreturning) (by simp)

/-- Every step keeps what is known. -/
theorem Sound.apply (h : s.Sound) (op : StartOp) : (s.apply op).Sound := by
  have heffect := apply_effect s op
  generalize s.apply op = s' at heffect ⊢
  -- the session of the call after the step
  have hnow : ∀ (t : StartState) (who : ℕ) (session : StartSession), t.session = s.session →
      (t.proceed who session).session who = some session ∧
        ∀ other, other ≠ who → (t.proceed who session).session other = s.session other := by
    intro t who session hsame
    refine ⟨(session_proceed t who who session).trans (if_pos rfl), fun other hother ↦ ?_⟩
    rw [session_proceed, if_neg hother, hsame]
  cases heffect with
  | idle op => exact h
  | closed op who session hsession => exact h.close who session.request
  | begins who request hfree hlock =>
    obtain ⟨hown, hothers⟩ := hnow s who (.begun request) rfl
    refine h.update who rfl rfl hothers ?_ ?_ ?_
    · rintro request' seen (hmissed | ⟨id, run, hmissed⟩) <;> exact absurd (hown.symm.trans hmissed) (by simp)
    · exact fun _ _ _ _ hadded ↦ absurd (hown.symm.trans hadded) (by simp)
    · exact fun _ _ hreturning ↦ absurd (hown.symm.trans hreturning) (by simp)
  | locks who row request hfree hlock hrow =>
    obtain ⟨hown, hothers⟩ :=
      hnow { s with lock := Function.update s.lock row (some who) } who (.begun request) rfl
    refine h.update who rfl rfl hothers ?_ ?_ ?_
    · rintro request' seen (hmissed | ⟨id, run, hmissed⟩) <;> exact absurd (hown.symm.trans hmissed) (by simp)
    · exact fun _ _ _ _ hadded ↦ absurd (hown.symm.trans hadded) (by simp)
    · exact fun _ _ hreturning ↦ absurd (hown.symm.trans hreturning) (by simp)
  | finds who id request version hsession run hfind hkey =>
    obtain ⟨hown, hothers⟩ := hnow s who (.returning request id) rfl
    refine h.update who rfl rfl hothers ?_ ?_ ?_
    · rintro request' seen (hmissed | ⟨id, run, hmissed⟩) <;> exact absurd (hown.symm.trans hmissed) (by simp)
    · exact fun _ _ _ _ hadded ↦ absurd (hown.symm.trans hadded) (by simp)
    · intro request' id' hreturning
      obtain ⟨rfl, rfl⟩ := StartSession.returning.inj (mem_unique hown hreturning)
      exact ⟨run, hfind, hkey⟩
  | misses who request version hsession hnone =>
    obtain ⟨hown, hothers⟩ := hnow s who (.deciding request s.runs.entries.length) rfl
    refine h.update who rfl rfl hothers ?_ ?_ ?_
    · rintro request' seen (hmissed | ⟨id, run, hmissed⟩)
      · obtain ⟨rfl, rfl⟩ := StartSession.deciding.inj (mem_unique hown hmissed)
        rw [take_length]
        exact ⟨le_rfl, hnone⟩
      · exact absurd (hown.symm.trans hmissed) (by simp)
    · exact fun _ _ _ _ hadded ↦ absurd (hown.symm.trans hadded) (by simp)
    · exact fun _ _ hreturning ↦ absurd (hown.symm.trans hreturning) (by simp)
  | adds who id now seen request checks hsession =>
    obtain ⟨hown, hothers⟩ := hnow s who (.added request seen id (request.run now)) rfl
    refine h.update who rfl rfl hothers ?_ ?_ ?_
    · rintro request' seen' (hmissed | ⟨id', run, hmissed⟩)
      · exact absurd (hown.symm.trans hmissed) (by simp)
      · obtain ⟨rfl, rfl, -⟩ := StartSession.added.inj (mem_unique hown hmissed)
        exact h.missed who request seen (.inl hsession)
    · intro request' seen' id' run hadded
      obtain ⟨rfl, -, -, rfl⟩ := StartSession.added.inj (mem_unique hown hadded)
      exact request.key_run now
    · exact fun _ _ hreturning ↦ absurd (hown.symm.trans hreturning) (by simp)
  | commits who id seen request run hsession hid =>
    have hkey := h.added who request seen id run hsession
    suffices hstep : ({ s with
        runs := s.runs.insertNew id run
        given := (request, id) :: s.given } : StartState).Sound from hstep.close who request
    refine h.step (entries_insertNew _ run hid) who (fun _ _ ↦ rfl) ?_ ?_ ?_ ?_
    · rintro request' seen' (hmissed | ⟨id', run', hmissed⟩)
      · exact absurd (hsession.symm.trans hmissed) (by simp)
      · obtain ⟨rfl, rfl, -⟩ := StartSession.added.inj (mem_unique hsession hmissed)
        obtain ⟨hle, hnone⟩ := h.missed who request seen (.inr ⟨id, run, hsession⟩)
        rw [entries_insertNew _ run hid, length_append,
          take_append_of_le_length hle]
        exact ⟨hle.trans (Nat.le_add_right _ _), hnone⟩
    · intro request' seen' id' run' hadded
      exact h.added who request' seen' id' run' hadded
    · exact fun _ _ hreturning ↦ absurd (hsession.symm.trans hreturning) (by simp)
    · intro request' id' hmem
      rcases mem_cons.mp hmem with hnew | hbefore
      · cases hnew
        exact .inr ⟨run, find_insertNew_self _ run hid, hkey⟩
      · exact .inl hbefore
  | returns who id request hsession =>
    obtain ⟨run, hfind, hkey⟩ := h.returning who request id hsession
    have hentries : s.runs.entries = s.runs.entries ++ [] := (append_nil _).symm
    suffices hstep : ({ s with given := (request, id) :: s.given } : StartState).Sound from hstep.close who request
    refine h.step hentries who (fun _ _ ↦ rfl) (h.missed who) (h.added who) (h.returning who) ?_
    intro request' id' hmem
    rcases mem_cons.mp hmem with hnew | hbefore
    · cases hnew
      exact .inr ⟨run, hfind, hkey⟩
    · exact .inl hbefore

/-! ### One run for a correlation id -/

/-- No two runs have the same tenant and correlation id, and every caller that has been given a run for a
correlation id has been given the one with that id. -/
structure OneRun (s : StartState) : Prop where
  unique : ∀ id run id' run' key, s.runs.find id = some run → s.runs.find id' = some run' →
    run.key = some key → run'.key = some key → id = id'
  given : ∀ request id key, (request, id) ∈ s.given → request.key = some key →
    ∃ run, s.runs.find id = some run ∧ run.key = some key

/-- A call that adds a run commits before anybody has committed another one for its correlation id since
it looked. -/
def InTurn (s : StartState) : StartOp → Prop
  | .commit who =>
    ∀ request seen id run key, s.session who = some (.added request seen id run) →
      s.runs.find id = none → request.key = some key →
      ∀ entry ∈ s.runs.entries.drop seen, entry.2.key ≠ some key
  | _ => True

/-- The correlation ids stay unique if and only if the step is in turn. -/
theorem oneRun_apply_iff (hsound : s.Sound) (hone : s.OneRun) (op : StartOp) :
    (s.apply op).OneRun ↔ s.InTurn op := by
  have hgiven : ∀ request id key, (request, id) ∈ (s.apply op).given → request.key = some key →
      ∃ run, (s.apply op).runs.find id = some run ∧ run.key = some key := by
    intro request id key hmem hkey
    obtain ⟨run, hfind, hsame⟩ := (hsound.apply op).given request id hmem
    exact ⟨run, hfind, hsame.trans hkey⟩
  constructor
  · intro hafter
    cases op with
    | commit who =>
      intro request seen id run key hsession hid hkey entry hentry hsame
      have hruns : (s.apply (.commit who)).runs = s.runs.insertNew id run := by
        unfold apply
        dsimp only
        rw [hsession]
        dsimp only
        unfold commit
        dsimp only
        rw [if_neg (by rw [hid]; simp)]
        rfl
      have hfind := (find_eq_some_iff _ entry.1 entry.2).mpr (mem_of_mem_drop hentry)
      have hne : entry.1 ≠ id := by
        rintro heq
        rw [heq, hid] at hfind
        simp at hfind
      refine hne (hafter.unique entry.1 entry.2 id run key ?_ ?_ hsame ?_)
      · rw [hruns, find_insertNew_of_ne _ _ hne]
        exact hfind
      · rw [hruns, find_insertNew_self _ _ hid]
      · exact (hsound.added who request seen id run hsession).trans hkey
    | _ => trivial
  · intro hturn
    refine ⟨?_, hgiven⟩
    have heffect := apply_effect s op
    generalize s.apply op = s' at heffect
    cases heffect with
    | commits who id seen request run hsession hid =>
      have hkey := hsound.added who request seen id run hsession
      obtain ⟨-, hseen⟩ := hsound.missed who request seen (.inr ⟨id, run, hsession⟩)
      -- no run before had the correlation id: neither when the call looked nor since
      have hnone : ∀ other run' key, s.runs.find other = some run' → run.key = some key →
          run'.key ≠ some key := by
        intro other run' key hfind hsome
        have hmem := (find_eq_some_iff _ _ _).mp hfind
        rw [← take_append_drop seen s.runs.entries, mem_append] at hmem
        rcases hmem with htake | hdrop
        · exact hseen key (hkey.symm.trans hsome) _ htake
        · exact hturn request seen id run key hsession hid (hkey.symm.trans hsome) _ hdrop
      intro first run₁ second run₂ key hfirst hsecond hkey₁ hkey₂
      replace hfirst : (s.runs.insertNew id run).find first = some run₁ := hfirst
      replace hsecond : (s.runs.insertNew id run).find second = some run₂ := hsecond
      rw [find_insertNew] at hfirst hsecond
      split_ifs at hfirst hsecond with hnew₁ hnew₂ hnew₂
      · exact hnew₁.1.trans hnew₂.1.symm
      · cases hfirst
        exact absurd hkey₂ (hnone second run₂ key hsecond hkey₁)
      · cases hsecond
        exact absurd hkey₁ (hnone first run₁ key hfirst hkey₂)
      · exact hone.unique first run₁ second run₂ key hfirst hsecond hkey₁ hkey₂
    | _ => exact hone.unique

theorem sound_start : Sound {} where
  missed := by rintro who request seen (hsession | ⟨id, run, hsession⟩) <;> exact absurd hsession (by simp)
  added := fun _ _ _ _ _ hsession ↦ absurd hsession (by simp)
  returning := fun _ _ _ hsession ↦ absurd hsession (by simp)
  given := fun _ _ hmem ↦ absurd hmem (by simp)

theorem oneRun_start : OneRun {} where
  unique := fun _ _ _ _ _ hfind ↦ absurd hfind (by simp [find])
  given := fun _ _ _ hmem ↦ absurd hmem (by simp)

/-- In every run of calls of `start_run`: in every state at most one run with a tenant and a correlation
id is committed, and every caller has been given it, if and only if every call that adds a run commits in
turn. -/
theorem oneRun_iff (ops : List StartOp) :
    (∀ before after, ops = before ++ after → (play apply before {}).OneRun) ↔
      Along apply InTurn ops {} := by
  rw [← along_apply_iff ops oneRun_start]
  have hstep : ∀ (s : StartState) (op : StartOp), s.Sound ∧ s.OneRun → (s.apply op).OneRun →
      (s.apply op).Sound ∧ (s.apply op).OneRun :=
    fun s op hs hafter ↦ ⟨hs.1.apply op, hafter⟩
  have hiff : ∀ (s : StartState) (op : StartOp), s.Sound ∧ s.OneRun →
      ((s.apply op).OneRun ↔ s.InTurn op) :=
    fun s op hs ↦ oneRun_apply_iff hs.1 hs.2 op
  exact along_congr hstep hiff ops ⟨sound_start, oneRun_start⟩

/-- Two requests of the API at the same time. -/
def twoRequests : List StartOp :=
  let request : StartRequest := { tenantId := 1, workflowVersionId := 1, correlationId := some "order-1" }
  [.startRun 0 request, .startRun 1 request, .lookUp 0 (some true), .lookUp 1 (some true),
    .add 0 10 0 (.ok ()), .add 1 11 0 (.ok ()), .commit 0, .commit 1]

/-- Both find nothing, and both add a run. -/
theorem twoRequests_two_runs :
    let s := play apply twoRequests {}
    (s.runs.find 10).map StartedRun.key = some (some (1, "order-1")) ∧
      (s.runs.find 11).map StartedRun.key = some (some (1, "order-1")) ∧
      s.given.map Prod.snd = [11, 10] ∧ ¬ s.OneRun := by
  refine ⟨by decide +kernel, by decide +kernel, by decide +kernel, fun hone ↦ ?_⟩
  obtain ⟨first, hfirst, hkey₁⟩ := map_eq_some_iff.mp
    (by decide +kernel : ((play apply twoRequests {}).runs.find 10).map StartedRun.key =
      some (some (1, "order-1")))
  obtain ⟨second, hsecond, hkey₂⟩ := map_eq_some_iff.mp
    (by decide +kernel : ((play apply twoRequests {}).runs.find 11).map StartedRun.key =
      some (some (1, "order-1")))
  exact absurd (hone.unique 10 first 11 second _ hfirst hsecond hkey₁ hkey₂) (by decide)

end StartState

end ContentGenerator.Workflows
