import Mathlib.Logic.Basic

/-!
# Stateful computations that can raise

An action runs on a state and ends with a value or an exception; what it has done to the state stays
either way. `Keeps` says that an action keeps an invariant however it ends, `Triple` what holds when it
returns and when it raises. There is one rule for each way of putting actions together.
-/

namespace ContentGenerator.Lib

open List

variable {σ ε α β : Type}

/-- A computation on a state that returns a value or raises an exception. -/
def Action (σ ε α : Type) : Type := σ → Except ε α × σ

namespace Action

/-- The computation that returns a value. -/
protected def pure (a : α) : Action σ ε α := fun s ↦ (.ok a, s)

/-- One computation and then another one, unless the first one raises. -/
protected def bind (act : Action σ ε α) (next : α → Action σ ε β) : Action σ ε β := fun s ↦
  match act s with
  | (.ok a, s') => next a s'
  | (.error e, s') => (.error e, s')

instance : Monad (Action σ ε) where
  pure := Action.pure
  bind := Action.bind

def raise (e : ε) : Action σ ε α := fun s ↦ (.error e, s)

def read (f : σ → α) : Action σ ε α := fun s ↦ (.ok (f s), s)

def readOr (f : σ → Except ε α) : Action σ ε α := fun s ↦ (f s, s)

def modify (f : σ → σ) : Action σ ε Unit := fun s ↦ (.ok (), f s)

/-- `try` with an `except` that takes every exception. -/
def tryCatch (act : Action σ ε α) (handler : ε → Action σ ε α) : Action σ ε α := fun s ↦
  match act s with
  | (.ok a, s') => (.ok a, s')
  | (.error e, s') => handler e s'

def forEach (items : List β) (body : β → Action σ ε Unit) : Action σ ε Unit :=
  match items with
  | [] => Action.pure ()
  | item :: rest => Action.bind (body item) fun _ ↦ forEach rest body

/-- A unit of work: what it has done is kept when it returns and undone when it raises. -/
def atomically (act : Action σ ε α) : Action σ ε α := fun s ↦
  match act s with
  | (.ok a, s') => (.ok a, s')
  | (.error e, _) => (.error e, s)

/-! ### Running an action -/

@[simp] theorem pure_apply (a : α) (s : σ) : (pure a : Action σ ε α) s = (.ok a, s) := rfl

@[simp] theorem raise_apply (e : ε) (s : σ) : (raise e : Action σ ε α) s = (.error e, s) := rfl

@[simp] theorem read_bind (f : σ → α) (next : α → Action σ ε β) (s : σ) :
    ((read f : Action σ ε α) >>= next) s = next (f s) s := rfl

@[simp] theorem modify_bind (f : σ → σ) (next : Unit → Action σ ε β) (s : σ) :
    ((modify f : Action σ ε Unit) >>= next) s = next () (f s) := rfl

@[simp] theorem modify_apply (f : σ → σ) (s : σ) : (modify f : Action σ ε Unit) s = (.ok (), f s) := rfl

variable {s s' : σ} {a : α} {e : ε} {act' : Action σ ε α}

theorem readOr_bind_of_ok {f : σ → Except ε α} {next : α → Action σ ε β} (h : f s = .ok a) :
    (readOr f >>= next) s = next a s := by
  change Action.bind (readOr f) next s = _
  unfold Action.bind readOr
  rw [h]

theorem readOr_bind_of_error {f : σ → Except ε α} {next : α → Action σ ε β}
    (h : f s = .error e) : (readOr f >>= next) s = (.error e, s) := by
  change Action.bind (readOr f) next s = _
  unfold Action.bind readOr
  rw [h]

theorem atomically_of_ok {act : Action σ ε α} (h : act s = (.ok a, s')) :
    atomically act s = (.ok a, s') := by
  unfold atomically
  rw [h]

theorem atomically_of_error {act : Action σ ε α} (h : act s = (.error e, s')) :
    atomically act s = (.error e, s) := by
  unfold atomically
  rw [h]

/-- A unit of work matters only in the state it starts in. -/
theorem atomically_congr {act : Action σ ε α} (h : act s = act' s) :
    atomically act s = atomically act' s := by
  unfold atomically
  rw [h]

/-- What an action does after one that has returned. -/
theorem bind_of_ok {act : Action σ ε α} {next : α → Action σ ε β}
    (h : act s = (.ok a, s')) : (act >>= next) s = next a s' := by
  change Action.bind act next s = _
  unfold Action.bind
  rw [h]

/-- An exception ends the sequence. -/
theorem bind_of_error {act : Action σ ε α} {next : α → Action σ ε β}
    (h : act s = (.error e, s')) : (act >>= next) s = (.error e, s') := by
  change Action.bind act next s = _
  unfold Action.bind
  rw [h]

theorem tryCatch_of_error {act : Action σ ε α} {handler : ε → Action σ ε α}
    (h : act s = (.error e, s')) : tryCatch act handler s = handler e s' := by
  unfold tryCatch
  rw [h]

/-- The loop up to the first item that raises. -/
theorem forEach_of_error {before after : List β} {item : β} {body : β → Action σ ε Unit} {s₁ s₂ : σ}
    (hbefore : forEach before body s = (.ok (), s₁)) (hitem : body item s₁ = (.error e, s₂)) :
    forEach (before ++ item :: after) body s = (.error e, s₂) := by
  induction before generalizing s with
  | nil =>
    obtain rfl : s = s₁ := (Prod.mk.inj hbefore).2
    exact bind_of_error hitem
  | cons head rest ih =>
    change (body head >>= fun _ ↦ forEach rest body) s = _ at hbefore
    change (body head >>= fun _ ↦ forEach (rest ++ item :: after) body) s = _
    cases hresult : body head s with
    | mk result s' =>
      cases result with
      | error e' =>
        rw [bind_of_error hresult] at hbefore
        exact absurd (Prod.mk.inj hbefore).1 nofun
      | ok u =>
        rw [bind_of_ok hresult] at hbefore ⊢
        exact ih hbefore

/-- A loop under an invariant of the items that are done: either every item has been good at its turn and
the loop returns, or one of them has not and the loop raises. -/
theorem forEach_cases (body : β → Action σ ε Unit) {all : List β} {I : List β → σ → Prop} {G : List β → β → Prop}
    (hgood : ∀ before item after s, all = before ++ item :: after → I before s → G before item →
      ∃ s', body item s = (.ok (), s') ∧ I (before ++ [item]) s')
    (hbad : ∀ before item after s, all = before ++ item :: after → I before s → ¬ G before item →
      ∃ e s', body item s = (.error e, s'))
    {before items : List β} (hall : all = before ++ items) (hs : I before s) :
    (∃ s', forEach items body s = (.ok (), s') ∧ I all s' ∧
        ∀ done item after, items = done ++ item :: after → G (before ++ done) item) ∨
      (∃ e s', forEach items body s = (.error e, s')) ∧
        ∃ done item after, items = done ++ item :: after ∧ ¬ G (before ++ done) item := by
  induction items generalizing before s with
  | nil =>
    rw [append_nil] at hall
    exact .inl ⟨s, rfl, hall ▸ hs, fun done item after h ↦ absurd h (by simp)⟩
  | cons item rest ih =>
    by_cases hitem : G before item
    · obtain ⟨s₁, hbody, hs₁⟩ := hgood before item rest s hall hs hitem
      have hrun : forEach (item :: rest) body s = forEach rest body s₁ := bind_of_ok hbody
      have hrest : all = (before ++ [item]) ++ rest := by rw [hall, append_assoc, singleton_append]
      have hsplit : ∀ done, before ++ [item] ++ done = before ++ item :: done := fun done ↦ by
        rw [append_assoc, singleton_append]
      rw [hrun]
      rcases ih hrest hs₁ with ⟨s', hfinal, hinv, hitems⟩ | ⟨hraises, done, other, after, hsplits, hother⟩
      · refine .inl ⟨s', hfinal, hinv, fun done other after h ↦ ?_⟩
        cases done with
        | nil =>
          obtain ⟨rfl, -⟩ := List.cons.inj h
          rwa [append_nil]
        | cons head done =>
          obtain ⟨rfl, htail⟩ := List.cons.inj h
          exact hsplit done ▸ hitems done other after htail
      · refine .inr ⟨hraises, item :: done, other, after, by rw [hsplits, cons_append], ?_⟩
        exact hsplit done ▸ hother
    · obtain ⟨e, s₁, hbody⟩ := hbad before item rest s hall hs hitem
      refine .inr ⟨⟨e, s₁, bind_of_error hbody⟩, [], item, rest, rfl, ?_⟩
      rwa [append_nil]

def final (act : Action σ ε α) (s : σ) : σ := (act s).2

/-! ### Invariants -/

/-- The action keeps the invariant, whether it returns or raises. -/
def Keeps (Inv : σ → Prop) (act : Action σ ε α) : Prop := ∀ s, Inv s → Inv (act s).2

variable {Inv : σ → Prop} {act : Action σ ε α} {next : α → Action σ ε β}

theorem keeps_pure (a : α) : Keeps Inv (pure a : Action σ ε α) := fun _ hs ↦ hs

theorem keeps_raise (e : ε) : Keeps Inv (raise e : Action σ ε α) := fun _ hs ↦ hs

theorem keeps_read (f : σ → α) : Keeps Inv (read f : Action σ ε α) := fun _ hs ↦ hs

theorem keeps_readOr (f : σ → Except ε α) : Keeps Inv (readOr f) := fun _ hs ↦ hs

theorem keeps_modify {f : σ → σ} (h : ∀ s, Inv s → Inv (f s)) :
    Keeps Inv (modify f : Action σ ε Unit) := h

theorem keeps_bind (hact : Keeps Inv act) (hnext : ∀ a, Keeps Inv (next a)) :
    Keeps Inv (act >>= next) := by
  intro s hs
  have hs' := hact s hs
  change Inv (Action.bind act next s).2
  unfold Action.bind
  cases hresult : act s with
  | mk result s' =>
    rw [hresult] at hs'
    cases result with
    | ok a => exact hnext a s' hs'
    | error e => exact hs'

/-- What follows may use that the value has been read in a state under the invariant. -/
theorem keeps_read_bind {f : σ → α} (h : ∀ s, Inv s → Keeps Inv (next (f s))) :
    Keeps Inv ((read f : Action σ ε α) >>= next) := fun s hs ↦ h s hs s hs

theorem keeps_tryCatch {handler : ε → Action σ ε α} (hact : Keeps Inv act)
    (hhandler : ∀ e, Keeps Inv (handler e)) : Keeps Inv (tryCatch act handler) := by
  intro s hs
  have hs' := hact s hs
  unfold tryCatch
  cases hresult : act s with
  | mk result s' =>
    rw [hresult] at hs'
    cases result with
    | ok a => exact hs'
    | error e => exact hhandler e s' hs'

theorem keeps_atomically (hact : Keeps Inv act) : Keeps Inv (atomically act) := by
  intro s hs
  unfold atomically
  have hstate := hact s hs
  cases hresult : act s with
  | mk result s' =>
    rw [hresult] at hstate
    cases result with
    | ok a => exact hstate
    | error e => exact hs

theorem keeps_forEach {items : List β} {body : β → Action σ ε Unit}
    (h : ∀ item ∈ items, Keeps Inv (body item)) : Keeps Inv (forEach items body) := by
  induction items with
  | nil => exact keeps_pure ()
  | cons item rest ih =>
    exact keeps_bind (h item mem_cons_self) fun _ ↦
      ih fun other hother ↦ h other (mem_cons_of_mem item hother)

/-- A loop under an invariant, when each item keeps it in the state in which it has its turn. -/
theorem forEach_turns {items : List β} {body : β → Action σ ε Unit} (hs : Inv s)
    (h : ∀ before item after s₁, items = before ++ item :: after → forEach before body s = (.ok (), s₁) →
      Inv s₁ → Inv (body item s₁).2) : Inv (forEach items body s).2 := by
  induction items generalizing s with
  | nil => exact hs
  | cons head rest ih =>
    have hhead := h [] head rest s rfl rfl hs
    change Inv (Action.bind (body head) (fun _ ↦ forEach rest body) s).2
    unfold Action.bind
    cases hresult : body head s with
    | mk result s' =>
      rw [hresult] at hhead
      cases result with
      | error e => exact hhead
      | ok u =>
        refine ih hhead fun before item after s₁ hrest hbefore ↦ h (head :: before) item after s₁ ?_ ?_
        · rw [hrest, cons_append]
        · exact (bind_of_ok hresult).trans hbefore

theorem keeps_ite {p : Prop} [Decidable p] {act : Action σ ε α} (h : p → Keeps Inv act)
    (h' : ¬ p → Keeps Inv act') : Keeps Inv (if p then act else act') := by
  by_cases hp : p
  · rw [if_pos hp]
    exact h hp
  · rw [if_neg hp]
    exact h' hp

/-! ### Conditions before and after -/

/-- Started under `pre`, the action returns under `post` or raises under `err`. -/
def Triple (pre : σ → Prop) (act : Action σ ε α) (post : α → σ → Prop) (err : σ → Prop) : Prop :=
  ∀ s, pre s →
    match act s with
    | (.ok a, s') => post a s'
    | (.error _, s') => err s'

variable {pre : σ → Prop} {post : α → σ → Prop} {err : σ → Prop}

theorem Keeps.triple (h : Keeps Inv act) : Triple Inv act (fun _ ↦ Inv) Inv := by
  intro s hs
  have hs' := h s hs
  cases hresult : act s with
  | mk result s' =>
    rw [hresult] at hs'
    cases result <;> exact hs'

/-- A condition on one state. -/
theorem at_state (hs : Inv s) : ∀ s', s' = s → Inv s' := by
  rintro s' rfl
  exact hs

/-- What holds afterwards either way. -/
theorem Triple.state (h : Triple pre act (fun _ ↦ Inv) Inv) (hs : pre s) : Inv (act s).2 := by
  have hs' := h s hs
  cases hresult : act s with
  | mk result s' =>
    rw [hresult] at hs'
    cases result <;> exact hs'

theorem Triple.keeps (h : Triple Inv act (fun _ ↦ Inv) Inv) : Keeps Inv act := fun _ hs ↦ h.state hs

theorem Triple.mono {pre' : σ → Prop} {post' : α → σ → Prop} {err' : σ → Prop}
    (h : Triple pre act post err) (hpre : ∀ s, pre' s → pre s) (hpost : ∀ a s, post a s → post' a s)
    (herr : ∀ s, err s → err' s) : Triple pre' act post' err' := by
  intro s hs
  have hs' := h s (hpre s hs)
  cases hresult : act s with
  | mk result s' =>
    rw [hresult] at hs'
    cases result with
    | ok a => exact hpost a s' hs'
    | error e => exact herr s' hs'

/-- What keeps an invariant keeps it from any condition that gives it. -/
theorem triple_of_keeps (hpre : ∀ s, pre s → Inv s) (h : Keeps Inv act) : Triple pre act (fun _ ↦ Inv) Inv :=
  h.triple.mono hpre (fun _ _ hs ↦ hs) fun _ hs ↦ hs

theorem triple_pure (h : ∀ s, pre s → post a s) :
    Triple pre (pure a : Action σ ε α) post err := h

theorem triple_modify {f : σ → σ} {q : Unit → σ → Prop} (h : ∀ s, pre s → q () (f s)) :
    Triple pre (modify f : Action σ ε Unit) q err := h

theorem triple_bind {m : α → σ → Prop} {post : β → σ → Prop} (hact : Triple pre act m err)
    (hnext : ∀ a, Triple (m a) (next a) post err) : Triple pre (act >>= next) post err := by
  intro s hs
  have hs' := hact s hs
  change match Action.bind act next s with
    | (.ok b, s') => post b s'
    | (.error _, s') => err s'
  unfold Action.bind
  cases hresult : act s with
  | mk result s' =>
    rw [hresult] at hs'
    cases result with
    | ok a => exact hnext a s' hs'
    | error e => exact hs'

/-- What follows may use that the value has been read in a state under the condition. -/
theorem triple_read_bind {f : σ → α} {post : β → σ → Prop}
    (h : ∀ s, pre s → Triple pre (next (f s)) post err) :
    Triple pre ((read f : Action σ ε α) >>= next) post err := fun s hs ↦ h s hs s hs

/-- What follows runs in the state the value has been read in. -/
theorem triple_read_bind_eq {f : σ → α} {post : β → σ → Prop}
    (h : ∀ s, pre s → Triple (fun s' ↦ s' = s) (next (f s)) post err) :
    Triple pre ((read f : Action σ ε α) >>= next) post err := fun s hs ↦ h s hs s rfl

theorem triple_raise (h : ∀ s, pre s → err s) :
    Triple pre (raise e : Action σ ε α) post err := h

/-- A value read from the state, or an exception. -/
theorem triple_readOr {f : σ → Except ε α} (h : ∀ s, pre s → err s) :
    Triple pre (readOr f) (fun _ ↦ pre) err := by
  intro s hs
  change match (f s, s) with
    | (.ok _, s') => pre s'
    | (.error _, s') => err s'
  cases f s with
  | ok a => exact hs
  | error e => exact h s hs

theorem triple_readOr_bind {f : σ → Except ε α} {post : β → σ → Prop}
    (herr : ∀ s e, pre s → f s = .error e → err s)
    (h : ∀ s a, pre s → f s = .ok a → Triple pre (next a) post err) :
    Triple pre (readOr f >>= next) post err := by
  intro s hs
  change match Action.bind (readOr f) next s with
    | (.ok b, s') => post b s'
    | (.error _, s') => err s'
  unfold Action.bind readOr
  cases hresult : f s with
  | ok a => exact h s a hs hresult s hs
  | error e => exact herr s e hs hresult

theorem triple_ite {p : Prop} [Decidable p] {act : Action σ ε α}
    (h : p → Triple pre act post err) (h' : ¬ p → Triple pre act' post err) :
    Triple pre (if p then act else act') post err := by
  by_cases hp : p
  · rw [if_pos hp]
    exact h hp
  · rw [if_neg hp]
    exact h' hp

theorem triple_tryCatch {handler : ε → Action σ ε α} {m : σ → Prop} (hact : Triple pre act post m)
    (hhandler : ∀ e, Triple m (handler e) post err) : Triple pre (tryCatch act handler) post err := by
  intro s hs
  have hs' := hact s hs
  unfold tryCatch
  cases hresult : act s with
  | mk result s' =>
    rw [hresult] at hs'
    cases result with
    | ok a => exact hs'
    | error e => exact hhandler e s' hs'

theorem triple_forEach {items : List β} {body : β → Action σ ε Unit}
    (h : ∀ item, Triple Inv (body item) (fun _ ↦ Inv) err) :
    Triple Inv (forEach items body) (fun _ ↦ Inv) err := by
  induction items with
  | nil => exact triple_pure fun _ hs ↦ hs
  | cons item rest ih => exact triple_bind (h item) fun _ ↦ ih

/-- A part of the condition that does not speak of the state. -/
theorem triple_of_pure {c : Prop} (h : c → Triple pre act post err) :
    Triple (fun s ↦ pre s ∧ c) act post err := fun s hs ↦ h hs.2 s hs.1

end Action

end ContentGenerator.Lib
