import ContentGenerator.Lib.Play
import Mathlib.Logic.Function.Basic

/-!
# A memo by keys

A function is computed through a memo under a key of its argument. A call whose key cannot be computed fails and
leaves the memo alone. The calls come one after the other (`recallAll`), or as tasks that look into the memo at one
moment and write into it at a later one (`Tasks.step`).

The memo is right when the function depends on the key alone, on the arguments that are met: `recallAll_eq_iff` says
that calls one after the other give what the function gives exactly then, and `Tasks.answers_direct` that tasks do
in every interleaving.
-/

namespace ContentGenerator.Lib.Memo

open List Option

open Function (update update_of_ne update_self)

variable {α κ β : Type} [DecidableEq κ] (key : α → Option κ) (f : α → β)

/-- A call without the memo. -/
def direct (a : α) : Option β := (key a).map fun _ ↦ f a

/-- A call through the memo: its result, and the memo after it. -/
def recallOne (memo : κ → Option β) (a : α) : Option β × (κ → Option β) :=
  match key a with
  | none => (none, memo)
  | some k =>
    match memo k with
    | some b => (some b, memo)
    | none => (some (f a), update memo k (some (f a)))

/-- The results of calls one after the other. -/
def recallAll : List α → (κ → Option β) → List (Option β)
  | [], _ => []
  | a :: rest, memo => (recallOne key f memo a).1 :: recallAll rest (recallOne key f memo a).2

/-- On these arguments the function depends on the key alone. -/
def DependsOnKey (items : List α) : Prop :=
  ∀ a ∈ items, ∀ b ∈ items, key a = key b → direct key f a = direct key f b

/-- The memo gives for every one of these arguments what the function gives. -/
def Right (memo : κ → Option β) (items : List α) : Prop :=
  ∀ a ∈ items, ∀ k b, key a = some k → memo k = some b → f a = b

variable {key f} {memo : κ → Option β} {items : List α} {a : α}

omit [DecidableEq κ] in
theorem dependsOnKey_iff : DependsOnKey key f items ↔
    ∀ a ∈ items, ∀ b ∈ items, ∀ k, key a = some k → key b = some k → f a = f b := by
  constructor
  · intro h a ha b hb k hka hkb
    have hsame := h a ha b hb (hka.trans hkb.symm)
    rw [direct, direct, hka, hkb] at hsame
    exact Option.some.inj hsame
  · intro h a ha b hb hkey
    unfold direct
    cases hka : key a with
    | none => rw [← hkey, hka]; rfl
    | some k =>
      have hkb : key b = some k := hkey ▸ hka
      rw [hkb, map_some, map_some, h a ha b hb k hka hkb]

/-- A memo with a new value under the key of an argument. -/
theorem right_update_iff {k : κ} (hkey : key a = some k) (hfree : memo k = none) :
    Right key f (update memo k (some (f a))) items ↔
      Right key f memo items ∧ ∀ b ∈ items, key b = some k → f b = f a := by
  constructor
  · intro h
    refine ⟨fun b hb k' value hkb hvalue ↦ h b hb k' value hkb ?_, fun b hb hkb ↦ ?_⟩
    · have hne : k' ≠ k := by
        rintro rfl
        rw [hfree] at hvalue
        exact absurd hvalue.symm (some_ne_none _)
      rwa [update_of_ne hne]
    · exact h b hb k (f a) hkb (update_self _ _ _)
  · rintro ⟨hright, hsame⟩ b hb k' value hkb hvalue
    by_cases hk : k' = k
    · subst hk
      rw [update_self] at hvalue
      rw [hsame b hb hkb, Option.some.inj hvalue]
    · rw [update_of_ne hk] at hvalue
      exact hright b hb k' value hkb hvalue

omit [DecidableEq κ] in
theorem right_cons_iff : Right key f memo (a :: items) ↔
    (∀ k b, key a = some k → memo k = some b → f a = b) ∧ Right key f memo items :=
  forall_mem_cons

omit [DecidableEq κ] in
theorem dependsOnKey_cons_iff : DependsOnKey key f (a :: items) ↔
    (∀ b ∈ items, ∀ k, key a = some k → key b = some k → f b = f a) ∧ DependsOnKey key f items := by
  simp only [dependsOnKey_iff, forall_mem_cons]
  constructor
  · rintro ⟨⟨-, hfirst⟩, hrest⟩
    exact ⟨fun b hb k hka hkb ↦ (hfirst b hb k hka hkb).symm, fun b hb ↦ (hrest b hb).2⟩
  · rintro ⟨hfirst, hrest⟩
    refine ⟨⟨fun _ _ _ ↦ trivial, fun b hb k hka hkb ↦ (hfirst b hb k hka hkb).symm⟩, fun b hb ↦ ⟨?_, hrest b hb⟩⟩
    exact fun k hkb hka ↦ hfirst b hb k hka hkb

/-- The calls give what the function gives exactly when the memo is right to begin with and the function depends on
the key alone. -/
theorem recallAll_eq_iff_of_memo (items : List α) (memo : κ → Option β) :
    recallAll key f items memo = items.map (direct key f) ↔ Right key f memo items ∧ DependsOnKey key f items := by
  induction items generalizing memo with
  | nil =>
    refine iff_of_true rfl ⟨fun a ha ↦ absurd ha not_mem_nil, fun a ha ↦ absurd ha not_mem_nil⟩
  | cons a rest ih =>
    rw [recallAll, map_cons, List.cons.injEq, ih, right_cons_iff, dependsOnKey_cons_iff]
    unfold recallOne direct
    cases hka : key a with
    | none => simp
    | some k =>
      dsimp only
      cases hmemo : memo k with
      | some b =>
        have hfirst : (∀ k' b', some k = some k' → memo k' = some b' → f a = b') ↔ b = f a := by
          constructor
          · exact fun h ↦ (h k b rfl hmemo).symm
          · rintro rfl k' b' hk hb'
            rw [← Option.some.inj hk, hmemo] at hb'
            exact Option.some.inj hb'
        rw [hfirst, map_some, Option.some.injEq]
        constructor
        · rintro ⟨rfl, hright, hdepends⟩
          refine ⟨⟨rfl, hright⟩, fun c hc k' hk hkc ↦ ?_, hdepends⟩
          exact hright c hc k _ (Option.some.inj hk ▸ hkc) hmemo
        · rintro ⟨⟨hb, hright⟩, -, hdepends⟩
          exact ⟨hb, hright, hdepends⟩
      | none =>
        have hfirst : ∀ k' b', some k = some k' → memo k' = some b' → f a = b' := by
          intro k' b' hk hb'
          rw [← Option.some.inj hk, hmemo] at hb'
          exact absurd hb'.symm (some_ne_none _)
        rw [right_update_iff hka hmemo, map_some]
        constructor
        · rintro ⟨-, ⟨hright, hsame⟩, hdepends⟩
          exact ⟨⟨hfirst, hright⟩, fun c hc k' hk hkc ↦ hsame c hc (Option.some.inj hk ▸ hkc), hdepends⟩
        · rintro ⟨⟨-, hright⟩, hsame, hdepends⟩
          exact ⟨rfl, ⟨hright, fun c hc hkc ↦ hsame c hc k rfl hkc⟩, hdepends⟩

/-- From an empty memo, the calls give what the function gives exactly when it depends on the key alone. -/
theorem recallAll_eq_iff (items : List α) :
    recallAll key f items (fun _ ↦ none) = items.map (direct key f) ↔ DependsOnKey key f items := by
  rw [recallAll_eq_iff_of_memo]
  refine and_iff_right fun a _ k b _ hmemo ↦ ?_
  exact absurd hmemo.symm (some_ne_none _)

/-! ### Tasks -/

/-- A task looks into the memo, or gets the result it has been waiting for. -/
inductive TaskEvent
  | looks (task : ℕ)
  | gets (task : ℕ)

/-- The memo, the tasks that wait for the function, and the results of the others. -/
structure Tasks (κ β : Type) where
  memo : κ → Option β := fun _ ↦ none
  waiting : ℕ → Bool := fun _ ↦ false
  answer : ℕ → Option (Option β) := fun _ ↦ none

namespace Tasks

variable (key f)

/-- An event. A task looks once; a result goes into the memo whatever is there by then. -/
def step (items : List α) (s : Tasks κ β) : TaskEvent → Tasks κ β
  | .looks task =>
    match items[task]?, s.waiting task, s.answer task with
    | some a, false, none =>
      match key a with
      | none => { s with answer := update s.answer task (some none) }
      | some k =>
        match s.memo k with
        | some b => { s with answer := update s.answer task (some (some b)) }
        | none => { s with waiting := update s.waiting task true }
    | _, _, _ => s
  | .gets task =>
    match items[task]?, s.waiting task with
    | some a, true =>
      match key a with
      | none => s
      | some k =>
        { memo := update s.memo k (some (f a))
          waiting := update s.waiting task false
          answer := update s.answer task (some (some (f a))) }
    | _, _ => s

variable {key f} {s : Tasks κ β}

/-- The memo holds values of the function, and the answers are right. -/
structure Sound (key : α → Option κ) (f : α → β) (items : List α) (s : Tasks κ β) : Prop where
  memo : ∀ k b, s.memo k = some b → ∃ a ∈ items, key a = some k ∧ f a = b
  answer : ∀ task a result, items[task]? = some a → s.answer task = some result → result = direct key f a

omit [DecidableEq κ] in
/-- A task gets its answer. -/
theorem Sound.answers (h : Sound key f items s) {task : ℕ} {result : Option β} {waiting : ℕ → Bool}
    (hitem : items[task]? = some a) (hresult : result = direct key f a) :
    Sound key f items { s with waiting, answer := update s.answer task (some result) } where
  memo := h.memo
  answer := by
    intro other b found hb hfound
    change update s.answer task (some result) other = some found at hfound
    by_cases hother : other = task
    · subst hother
      rw [update_self] at hfound
      rw [← Option.some.inj hfound, ← mem_unique hitem hb]
      exact hresult
    · rw [update_of_ne hother] at hfound
      exact h.answer other b found hb hfound

theorem Sound.step (hdepends : DependsOnKey key f items) (h : Sound key f items s) (event : TaskEvent) :
    Sound key f items (s.step key f items event) := by
  cases event with
  | looks task =>
    unfold Tasks.step
    dsimp only
    split
    · rename_i a hitem _ _
      cases hka : key a with
      | none => exact h.answers hitem (by rw [direct, hka]; rfl)
      | some k =>
        dsimp only
        cases hmemo : s.memo k with
        | some b =>
          obtain ⟨a', ha', hka', rfl⟩ := h.memo k b hmemo
          refine h.answers hitem ?_
          rw [direct, hka, map_some,
            dependsOnKey_iff.mp hdepends a (mem_of_getElem? hitem) a' ha' k hka hka']
        | none => exact ⟨h.memo, h.answer⟩
    · exact h
  | gets task =>
    unfold Tasks.step
    dsimp only
    split
    · rename_i a hitem _
      cases hka : key a with
      | none => exact h
      | some k =>
        have hanswered : Sound key f items
            { s with
              waiting := update s.waiting task false
              answer := update s.answer task (some (some (f a))) } :=
          h.answers hitem (by rw [direct, hka]; rfl)
        refine ⟨fun k' b hb ↦ ?_, hanswered.answer⟩
        change update s.memo k (some (f a)) k' = some b at hb
        by_cases hk : k' = k
        · subst hk
          rw [update_self] at hb
          exact ⟨a, mem_of_getElem? hitem, hka, Option.some.inj hb⟩
        · rw [update_of_ne hk] at hb
          exact h.memo k' b hb
    · exact h

/-- In every interleaving of the tasks, an answer is what the function gives, when it depends on the key alone. -/
theorem answers_direct (hdepends : DependsOnKey key f items) (events : List TaskEvent) {task : ℕ} {a : α}
    {result : Option β} (hitem : items[task]? = some a)
    (hanswer : (play (step key f items) events {}).answer task = some result) : result = direct key f a := by
  have hstart : Sound key f items ({} : Tasks κ β) :=
    ⟨fun _ _ hmemo ↦ absurd hmemo.symm (some_ne_none _),
      fun _ _ _ _ hnone ↦ absurd hnone.symm (some_ne_none _)⟩
  have hstep : ∀ (s : Tasks κ β) (event : TaskEvent), Sound key f items s →
      Sound key f items (s.step key f items event) := fun _ event hs ↦ hs.step hdepends event
  exact (play_invariant hstep events hstart).answer task a result hitem hanswer

end Tasks

end ContentGenerator.Lib.Memo
