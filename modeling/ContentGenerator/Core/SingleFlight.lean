import ContentGenerator.Core.TenantCache
import ContentGenerator.Lib.Play
import Mathlib.Algebra.Order.BigOperators.Group.List
import Mathlib.Algebra.Order.Ring.Nat

/-!
# Callers of the cache that share a fill

`CallsFinish` says of a state that every call which has not been cancelled itself has ended with what its own
lookup has read or with what the fill for it has ended with, or is still on its way. Four kinds of events break
this, each after a cancellation of one of the calls that share a Future (`Harmless`): the call that fills ends
by cancellation while others wait, a joined call is cancelled together with the shared Future, a fill returns
to a Future that has been cancelled, and a call joins such a Future.

`getOrSet_calls_finish_iff` is the exact condition on a run.
-/

namespace ContentGenerator.Core

open Lib List Option FillPoint
open Call (finish)
open Function (update update_of_ne update_self)
open Bool (eq_false_iff not_eq_true)

variable {T E : Type}

/-! ### What a call is owed -/

/-- What a fill under a policy can end with: Redis raises only when the policy is fail-closed. -/
def Permitted (policy : CachePolicy) : Outcome T E → Prop
  | .raised .cache => policy.failMode = .failClosed
  | .raised .invalidState => False
  | _ => True

namespace CacheState

variable {s s' : CacheState T E} {id : ℕ} {c c' : Call T E}

/-- The fill of a call has ended with an outcome of its own. -/
def HasFilled (s : CacheState T E) (id : ℕ) (outcome : Outcome T E) : Prop :=
  ∃ filler, s.call id = some filler ∧ filler.filled = some outcome ∧ Permitted filler.policy outcome

/-- The outcome is what the lookup of the call has read, or the value or exception of the fill for it. -/
def Delivers (s : CacheState T E) (c : Call T E) (outcome : Outcome T E) : Prop :=
  match c.origin with
  | .undecided => False
  | .cached value => outcome = .returned (some value)
  | .unreadable => outcome = .raised .cache ∧ c.policy.failMode = .failClosed
  | .fill owner => outcome ≠ .cancelled ∧ s.HasFilled owner outcome

/-- The Future has a result or an exception, or a call is filling it. -/
def Answers (s : CacheState T E) (waiter : ℕ) : Prop :=
  match s.future waiter with
  | none => ∃ owner filler point, s.call owner = some filler ∧ filler.point = .fills (some waiter) point
  | some outcome => outcome ≠ .cancelled

def Finishes (s : CacheState T E) (c : Call T E) : Prop :=
  match c.point with
  | .finished outcome => s.Delivers c outcome
  | .joins waiter => s.Answers waiter
  | _ => True

def CallsFinish (s : CacheState T E) : Prop :=
  ∀ id c, s.call id = some c → c.requested = false → s.Finishes c

/-- The other calls that wait for a Future have been cancelled themselves. -/
def Abandoned (s : CacheState T E) (waiter id : ℕ) : Prop :=
  ∀ other joined, other ≠ id → s.call other = some joined → joined.point = .joins waiter →
    joined.requested = true

/-- Nothing is left to run: every call has finished or waits for a pending Future. -/
def Idle (s : CacheState T E) : Prop :=
  ∀ id c, s.call id = some c →
    (∃ outcome, c.point = .finished outcome) ∨ ∃ waiter, c.point = .joins waiter ∧ s.future waiter = none

end CacheState

/-- The lookup ends without a value and without an exception. -/
def Call.Misses (c : Call T E) : Answer T E → Prop
  | .read none => True
  | .redisError => c.policy.failMode = .failOpen
  | _ => False

namespace CacheState

/-- What the end of a fill finds: its Future is pending when it returns, unless its own call has been cancelled,
and no call waits that has not been cancelled too when it is cancelled itself. -/
def FillHarmless (s : CacheState T E) (id : ℕ) (c : Call T E) (waiter : ℕ) : Outcome T E → Prop
  | .returned _ => s.future waiter = none ∨ c.requested = true
  | .raised _ => True
  | .cancelled => s.Abandoned waiter id

/-- What the turn of a call finds: a call that joins finds a pending Future, and a fill that ends what it needs. -/
def TurnHarmless (s : CacheState T E) (id : ℕ) (c : Call T E) (answer : Answer T E) : Prop :=
  match c.point with
  | .lookup => c.requested = false → c.Misses answer → c.policy.singleflight = true →
      ∀ waiter, s.inflight = some waiter → s.future waiter = none
  | .fills waiter point =>
    match c.resume point answer, waiter with
    | some (.inr outcome), some waiter => s.FillHarmless id c waiter outcome
    | _, _ => True
  | _ => True

/-- A turn finds what it needs, and a call that is cancelled while it waits for a pending Future is the last one
that waits for it. -/
def Harmless (s : CacheState T E) : CallEvent T E → Prop
  | .starts _ _ => True
  | .turn id answer => ∀ c, s.call id = some c → s.TurnHarmless id c answer
  | .cancels id => ∀ c waiter, s.call id = some c → c.point = .joins waiter → s.future waiter = none →
      s.Abandoned waiter id

end CacheState

/-! ### Fills -/

/-- The end of a fill is one of its own, and it is cancelled only when its call is. -/
def OutcomeSound (c : Call T E) (outcome : Outcome T E) : Prop :=
  Permitted c.policy outcome ∧ (outcome = .cancelled → c.requested = true)

/-- What `release_lock` is to be followed by is sound. -/
def PointSound (c : Call T E) (point : FillPoint T E) : Prop :=
  ∀ outcome, point = .releaseLock outcome → OutcomeSound c outcome

def NextSound (c : Call T E) : FillPoint T E ⊕ Outcome T E → Prop
  | .inl point => PointSound c point
  | .inr outcome => OutcomeSound c outcome

theorem nextSound_leaveFill {c : Call T E} {outcome : Outcome T E} (h : OutcomeSound c outcome) (token : Bool) :
    NextSound c (leaveFill token outcome) := by
  cases token with
  | false => exact h
  | true =>
    intro other hother
    obtain rfl := releaseLock.inj hother
    exact h

theorem pointSound_acquireLock (c : Call T E) : PointSound c .acquireLock :=
  fun _ hreleases ↦ by cases hreleases

theorem pointSound_factory (c : Call T E) (token : Bool) : PointSound c (.factory token) :=
  fun _ hreleases ↦ by cases hreleases

/-- Without a cancellation a fill ends with a value, with the exception of its factory, or with one of Redis when
the policy is fail-closed. -/
theorem nextSound_fillPoint_resume {c : Call T E} {point : FillPoint T E} {answer : Answer T E}
    {next : FillPoint T E ⊕ Outcome T E} (hpoint : PointSound c point)
    (h : point.resume c.policy answer = some next) : NextSound c next := by
  have hvalue : ∀ value : Option T, OutcomeSound c (.returned value) := fun value ↦
    ⟨trivial, fun hcancelled ↦ by cases hcancelled⟩
  have hfactory : ∀ exc : E, OutcomeSound c (.raised (.factory exc)) := fun exc ↦
    ⟨trivial, fun hcancelled ↦ by cases hcancelled⟩
  have hcache : c.policy.failMode = .failClosed → OutcomeSound c (.raised .cache) := fun hclosed ↦
    ⟨hclosed, fun hcancelled ↦ by cases hcancelled⟩
  unfold resume at h
  split at h
  · cases h
    exact fun _ hreleases ↦ by cases hreleases
  · cases h
    exact fun _ hreleases ↦ by cases hreleases
  · cases h
    exact fun _ hreleases ↦ by cases hreleases
  · cases h
    exact hvalue _
  · cases h
    exact fun _ hreleases ↦ by cases hreleases
  · cases hmode : c.policy.failMode with
    | failOpen =>
      rw [hmode] at h
      cases h
      exact fun _ hreleases ↦ by cases hreleases
    | failClosed =>
      rw [hmode] at h
      cases h
      exact hcache hmode
  · cases h
    exact fun _ hreleases ↦ by cases hreleases
  · cases h
    exact nextSound_leaveFill (hfactory _) _
  · cases h
    exact nextSound_leaveFill (hvalue _) _
  · cases hmode : c.policy.failMode with
    | failOpen =>
      rw [hmode] at h
      cases h
      exact nextSound_leaveFill (hvalue _) _
    | failClosed =>
      rw [hmode] at h
      cases h
      exact nextSound_leaveFill (hcache hmode) _
  · cases h
    exact hpoint _ rfl
  · cases h

theorem nextSound_cancel {c : Call T E} (hrequested : c.requested = true) (point : FillPoint T E) :
    NextSound c point.cancel := by
  have hcancelled : OutcomeSound c .cancelled := ⟨trivial, fun _ ↦ hrequested⟩
  cases point with
  | factory token | store token value => exact nextSound_leaveFill hcancelled token
  | _ => exact hcancelled

theorem nextSound_resume {c : Call T E} {point : FillPoint T E} {answer : Answer T E}
    {next : FillPoint T E ⊕ Outcome T E} (hpoint : PointSound c point)
    (hrequested : c.mustCancel = true → c.requested = true) (h : c.resume point answer = some next) :
    NextSound c next := by
  unfold Call.resume at h
  by_cases hmust : c.mustCancel = true
  · rw [if_pos hmust] at h
    split at h
    · exact nextSound_fillPoint_resume (fun _ hreleases ↦ by cases hreleases) h
    · cases h
      exact nextSound_cancel (hrequested hmust) _
  · rw [if_neg hmust] at h
    exact nextSound_fillPoint_resume hpoint h

/-! ### What holds whatever is cancelled -/

namespace CacheState

variable {s s' : CacheState T E} {id other waiter : ℕ} {c c' : Call T E} {outcome : Outcome T E}
  {point : FillPoint T E}

/-- What holds of a call: a fill that has a Future is the one in `_inflight`, and a joined call has its origin
in the call that has created the Future. -/
structure CallSound (s : CacheState T E) (id : ℕ) (c : Call T E) : Prop where
  started : id ∈ s.started
  requested : c.mustCancel = true → c.requested = true
  unfilled : (∀ outcome, c.point ≠ .finished outcome) → c.filled = none
  permitted : ∀ outcome, c.filled = some outcome → Permitted c.policy outcome
  joins : ∀ waiter, c.point = .joins waiter → waiter < s.futures ∧ c.origin = .fill (s.owner waiter)
  fills : ∀ waiter point, c.point = .fills waiter point → c.origin = .fill id ∧ PointSound c point ∧
    ∀ future, waiter = some future → s.inflight = some future ∧ s.owner future = id

/-- What holds in every state: the Future in `_inflight` is being filled and has no result, and a result of a
Future is what the fill of its owner has ended with. -/
structure Sound (s : CacheState T E) : Prop where
  call : ∀ id c, s.call id = some c → s.CallSound id c
  inflight : ∀ waiter, s.inflight = some waiter → waiter < s.futures ∧
    (∃ filler point, s.call (s.owner waiter) = some filler ∧ filler.point = .fills (some waiter) point) ∧
    (s.future waiter = none ∨ s.future waiter = some .cancelled)
  future : ∀ waiter outcome, s.future waiter = some outcome → waiter < s.futures ∧
    (outcome = .cancelled ∨ s.HasFilled (s.owner waiter) outcome)

theorem CallSound.congr (h : s.CallSound id c) (hstarted : id ∈ s'.started)
    (hjoins : ∀ waiter, c.point = .joins waiter → waiter < s'.futures ∧ s'.owner waiter = s.owner waiter)
    (hfills : ∀ waiter point, c.point = .fills (some waiter) point →
      s'.inflight = some waiter ∧ s'.owner waiter = s.owner waiter) : s'.CallSound id c := by
  refine ⟨hstarted, h.requested, h.unfilled, h.permitted, fun waiter hpoint ↦ ?_, fun waiter point hpoint ↦ ?_⟩
  · obtain ⟨hlt, howner⟩ := hjoins waiter hpoint
    rw [howner]
    exact ⟨hlt, (h.joins waiter hpoint).2⟩
  · obtain ⟨horigin, hsound, hwaiter⟩ := h.fills waiter point hpoint
    refine ⟨horigin, hsound, fun future hfuture ↦ ?_⟩
    subst hfuture
    obtain ⟨hinflight, howner⟩ := hfills future point hpoint
    rw [howner]
    exact ⟨hinflight, (hwaiter future rfl).2⟩

/-- Calls and Futures do not matter for what holds of one call. -/
theorem CallSound.of_same (h : s.CallSound id c) (call : ℕ → Option (Call T E)) (future : ℕ → Option (Outcome T E)) :
    { s with call := call, future := future }.CallSound id c :=
  h.congr h.started (fun waiter hpoint ↦ ⟨(h.joins waiter hpoint).1, rfl⟩) fun waiter point hpoint ↦
    ⟨((h.fills _ point hpoint).2.2 waiter rfl).1, rfl⟩

/-- What a fill has ended with stays when a call changes that has not filled anything. -/
theorem HasFilled.update (h : s.HasFilled other outcome) (hcall : s'.call = update s.call id (some c'))
    (hopen : ∀ c, s.call id = some c → c.filled = none) : s'.HasFilled other outcome := by
  obtain ⟨filler, hfiller, hfilled, hpermitted⟩ := h
  have hother : other ≠ id := by
    rintro rfl
    rw [hopen filler hfiller] at hfilled
    cases hfilled
  refine ⟨filler, ?_, hfilled, hpermitted⟩
  rw [hcall, update_of_ne hother]
  exact hfiller

/-- A Future stays answered when the call that changes does not leave the fill of it. -/
theorem Answers.update (h : s.Answers waiter) (hcall : s'.call = update s.call id (some c'))
    (hfuture : s'.future waiter = s.future waiter)
    (hfills : ∀ c point, s.call id = some c → c.point = .fills (some waiter) point →
      ∃ next, c'.point = .fills (some waiter) next) : s'.Answers waiter := by
  unfold Answers at h ⊢
  rw [hfuture]
  cases hwaiter : s.future waiter with
  | some outcome =>
    rw [hwaiter] at h
    exact h
  | none =>
    rw [hwaiter] at h
    obtain ⟨owner, filler, point, hfiller, hpoint⟩ := h
    rw [hcall]
    by_cases howner : owner = id
    · subst howner
      obtain ⟨next, hnext⟩ := hfills filler point hfiller hpoint
      exact ⟨owner, c', next, update_self .., hnext⟩
    · refine ⟨owner, filler, point, ?_, hpoint⟩
      rw [update_of_ne howner]
      exact hfiller

theorem Finishes.mono (h : s.Finishes c) (hfilled : ∀ owner outcome, s.HasFilled owner outcome → s'.HasFilled owner outcome)
    (hanswers : ∀ waiter, c.point = .joins waiter → s.Answers waiter → s'.Answers waiter) : s'.Finishes c := by
  unfold Finishes at h ⊢
  cases hpoint : c.point with
  | finished outcome =>
    rw [hpoint] at h
    dsimp only [Delivers] at h ⊢
    cases horigin : c.origin with
    | fill owner =>
      rw [horigin] at h
      exact ⟨h.1, hfilled owner outcome h.2⟩
    | _ =>
      rw [horigin] at h
      exact h
  | joins waiter =>
    rw [hpoint] at h
    exact hanswers waiter hpoint h
  | _ => trivial

/-! ### One call changes -/

theorem put_call_self (s : CacheState T E) (id : ℕ) (c : Call T E) : (s.put id c).call id = some c :=
  update_self ..

theorem put_call_of_ne (s : CacheState T E) (c : Call T E) (h : other ≠ id) :
    (s.put id c).call other = s.call other :=
  update_of_ne h ..

/-- A call changes that has not finished and does not leave the fill of a Future. -/
theorem Sound.put (h : s.Sound) (hopen : ∀ c, s.call id = some c → c.filled = none)
    (hfills : ∀ waiter c point, s.call id = some c → c.point = .fills (some waiter) point →
      ∃ next, c'.point = .fills (some waiter) next) (hc : s.CallSound id c') : (s.put id c').Sound := by
  refine ⟨fun other changed hcall ↦ ?_, fun waiter hinflight ↦ ?_, fun waiter outcome hfuture ↦ ?_⟩
  · by_cases hother : other = id
    · subst hother
      rw [put_call_self] at hcall
      cases hcall
      exact hc.of_same _ _
    · rw [put_call_of_ne s c' hother] at hcall
      exact (h.call other changed hcall).of_same _ _
  · obtain ⟨hlt, ⟨filler, point, hfiller, hpoint⟩, hunset⟩ := h.inflight waiter hinflight
    refine ⟨hlt, ?_, hunset⟩
    change ∃ filler point, (s.put id c').call (s.owner waiter) = some filler ∧ _
    by_cases howner : s.owner waiter = id
    · obtain ⟨next, hnext⟩ := hfills waiter filler point (howner ▸ hfiller) hpoint
      rw [howner, put_call_self]
      exact ⟨c', next, rfl, hnext⟩
    · rw [put_call_of_ne s c' howner]
      exact ⟨filler, point, hfiller, hpoint⟩
  · obtain ⟨hlt, hanswer⟩ := h.future waiter outcome hfuture
    exact ⟨hlt, hanswer.imp_right fun hfilled ↦ hfilled.update rfl hopen⟩

/-- A shared Future is cancelled. -/
theorem Sound.cancelsFuture (h : s.Sound) (hlt : waiter < s.futures) :
    { s with future := update s.future waiter (some .cancelled) }.Sound := by
  refine ⟨fun other changed hcall ↦ ?_, fun future hinflight ↦ ?_, fun future outcome hfuture ↦ ?_⟩
  · exact (h.call other changed hcall).of_same _ _
  · obtain ⟨hbound, hfiller, hunset⟩ := h.inflight future hinflight
    refine ⟨hbound, hfiller, ?_⟩
    dsimp only
    by_cases hsame : future = waiter
    · rw [hsame, update_self]
      exact .inr rfl
    · rw [update_of_ne hsame]
      exact hunset
  · dsimp only at hfuture
    by_cases hsame : future = waiter
    · rw [hsame, update_self] at hfuture
      rw [hsame]
      exact ⟨hlt, .inl (Option.some.inj hfuture).symm⟩
    · rw [update_of_ne hsame] at hfuture
      exact h.future future outcome hfuture

theorem Sound.endsFill (h : s.Sound) (hcall : s.call id = some c) (hpoint : c.point = .fills (some waiter) point)
    (hc : s.CallSound id c') (hfinished : c'.point = .finished outcome) :
    { s.put id c' with inflight := none }.Sound := by
  have hsound := h.call id c hcall
  have hopen : ∀ c, s.call id = some c → c.filled = none := fun c' hcall' ↦
    (h.call id c' hcall').unfilled fun outcome hfinished ↦ by
      rw [mem_unique hcall hcall', hfinished] at hpoint
      cases hpoint
  refine ⟨fun other changed hchanged ↦ ?_, fun future hinflight ↦ ?_, fun future outcome hfuture ↦ ?_⟩
  · by_cases hother : other = id
    · subst hother
      change (s.put other c').call other = some changed at hchanged
      rw [put_call_self] at hchanged
      cases hchanged
      refine hc.congr hc.started (fun waiter hjoins ↦ ?_) fun waiter point hfills ↦ ?_
      · rw [hfinished] at hjoins
        cases hjoins
      · rw [hfinished] at hfills
        cases hfills
    · change (s.put id c').call other = some changed at hchanged
      rw [put_call_of_ne s c' hother] at hchanged
      have hold := h.call other changed hchanged
      refine hold.congr hold.started (fun waiter hjoins ↦ ⟨(hold.joins waiter hjoins).1, rfl⟩)
        fun future next hfills ↦ ?_
      -- two fills would have the same Future, and so the same owner
      obtain ⟨hmine, howner⟩ := (hsound.fills _ point hpoint).2.2 waiter rfl
      obtain ⟨htheirs, howner'⟩ := (hold.fills _ next hfills).2.2 future rfl
      obtain rfl : waiter = future := mem_unique hmine htheirs
      exact absurd (howner'.symm.trans howner) hother
  · cases hinflight
  · obtain ⟨hlt, hanswer⟩ := h.future future outcome hfuture
    exact ⟨hlt, hanswer.imp_right fun hfilled ↦ hfilled.update rfl hopen⟩

/-- A Future that is not in `_inflight` any more gets what its fill has ended with. -/
theorem Sound.answersFuture (h : s.Sound) (hinflight : s.inflight = none) (hlt : waiter < s.futures)
    (hfilled : s.HasFilled (s.owner waiter) outcome) :
    { s with future := update s.future waiter (some outcome) }.Sound := by
  refine ⟨fun other changed hcall ↦ ?_, fun future hfuture ↦ ?_, fun future result hfuture ↦ ?_⟩
  · exact (h.call other changed hcall).of_same _ _
  · exact absurd (hinflight.symm.trans hfuture).symm (some_ne_none future)
  · dsimp only at hfuture
    by_cases hsame : future = waiter
    · rw [hsame, update_self] at hfuture
      rw [hsame, ← Option.some.inj hfuture]
      exact ⟨hlt, .inr hfilled⟩
    · rw [update_of_ne hsame] at hfuture
      exact h.future future result hfuture

/-- When one call changes and no Future does, only this call can fail to finish. -/
theorem callsFinish_put_iff (h : s.CallsFinish) (hopen : ∀ c, s.call id = some c → c.filled = none)
    (hfills : ∀ waiter c point, s.call id = some c → c.point = .fills (some waiter) point →
      ∃ next, c'.point = .fills (some waiter) next) :
    (s.put id c').CallsFinish ↔ (c'.requested = false → (s.put id c').Finishes c') := by
  constructor
  · intro hfinish hrequested
    exact hfinish id c' (put_call_self s id c') hrequested
  · intro hself other changed hcall hrequested
    by_cases hother : other = id
    · subst hother
      rw [put_call_self] at hcall
      cases hcall
      exact hself hrequested
    · rw [put_call_of_ne s c' hother] at hcall
      refine (h other changed hcall hrequested).mono (fun owner outcome hfilled ↦ hfilled.update rfl hopen)
        fun waiter hpoint hanswers ↦ hanswers.update rfl rfl (hfills waiter)

/-- When a call and a Future that it alone may fill change, the call can fail to finish and those that wait for
the Future. -/
theorem callsFinish_waiter_iff (h : s.CallsFinish) (hcall : s'.call = update s.call id (some c'))
    (hopen : ∀ c, s.call id = some c → c.filled = none)
    (hfuture : ∀ future, future ≠ waiter → s'.future future = s.future future)
    (hfills : ∀ future c point, future ≠ waiter → s.call id = some c → c.point ≠ .fills (some future) point) :
    s'.CallsFinish ↔
      (c'.requested = false → s'.Finishes c') ∧ (s.Abandoned waiter id ∨ s'.Answers waiter) := by
  constructor
  · intro hfinish
    refine ⟨fun hrequested ↦ hfinish id c' (by rw [hcall, update_self]) hrequested, ?_⟩
    refine or_iff_not_imp_right.mpr fun hunanswered other joined hother hjoined hpoint ↦ ?_
    by_contra hrequested
    rw [not_eq_true] at hrequested
    have hjoined' : s'.call other = some joined := by
      rw [hcall, update_of_ne hother]
      exact hjoined
    have hfinishes := hfinish other joined hjoined' hrequested
    unfold Finishes at hfinishes
    rw [hpoint] at hfinishes
    exact hunanswered hfinishes
  · rintro ⟨hself, hwaiting⟩ other changed hchanged hrequested
    by_cases hother : other = id
    · subst hother
      rw [hcall, update_self] at hchanged
      cases hchanged
      exact hself hrequested
    · rw [hcall, update_of_ne hother] at hchanged
      refine (h other changed hchanged hrequested).mono (fun owner outcome hfilled ↦ hfilled.update hcall hopen)
        fun future hpoint hanswers ↦ ?_
      by_cases hsame : future = waiter
      · subst hsame
        rcases hwaiting with habandoned | hanswered
        · rw [habandoned other changed hother hchanged hpoint] at hrequested
          cases hrequested
        · exact hanswered
      · exact hanswers.update hcall (hfuture future hsame) fun c point hcall hpoint ↦
          absurd hpoint (hfills future c point hsame hcall)

/-! ### Turns -/

theorem Sound.unfilled (h : s.Sound) (hcall : s.call id = some c) (hpoint : ∀ outcome, c.point ≠ .finished outcome) :
    ∀ c, s.call id = some c → c.filled = none := by
  intro other hother
  obtain rfl := mem_unique hcall hother
  exact (h.call id c hcall).unfilled hpoint

/-- A call that does not fill a Future has none to leave. -/
theorem free_of_point (hcall : s.call id = some c) (hfree : ∀ waiter point, c.point ≠ .fills (some waiter) point)
    (c' : Call T E) : ∀ waiter c point, s.call id = some c → c.point = .fills (some waiter) point →
      ∃ next, c'.point = .fills (some waiter) next := by
  intro waiter other point hother hpoint
  obtain rfl := mem_unique hcall hother
  exact absurd hpoint (hfree waiter point)

theorem callSound_finish (hstarted : id ∈ s.started)
    (hpermitted : ∀ outcome, c.filled = some outcome → Permitted c.policy outcome) (outcome : Outcome T E) :
    s.CallSound id (c.finish outcome) where
  started := hstarted
  requested := fun hmust ↦ by cases hmust
  unfilled := fun hunfinished ↦ absurd rfl (hunfinished outcome)
  permitted := hpermitted
  joins := fun waiter hpoint ↦ by cases hpoint
  fills := fun waiter point hpoint ↦ by cases hpoint

theorem Sound.finish (h : s.Sound) (hcall : s.call id = some c) (hunfinished : ∀ outcome, c.point ≠ .finished outcome)
    (hfree : ∀ waiter point, c.point ≠ .fills (some waiter) point)
    (hpermitted : ∀ outcome, c'.filled = some outcome → Permitted c'.policy outcome) (outcome : Outcome T E) :
    (s.put id (c'.finish outcome)).Sound :=
  h.put (h.unfilled hcall hunfinished) (free_of_point hcall hfree _)
    (callSound_finish (h.call id c hcall).started hpermitted outcome)

theorem Sound.misses (h : s.Sound) (hcall : s.call id = some c) (hpoint : c.point = .lookup) :
    (s.misses id c).Sound := by
  have hsound := h.call id c hcall
  have hunfinished : ∀ outcome, c.point ≠ .finished outcome := by simp [hpoint]
  have hfree : ∀ waiter point, c.point ≠ .fills (some waiter) point := by simp [hpoint]
  have hunfilled : c.filled = none := hsound.unfilled hunfinished
  have hopen := h.unfilled hcall hunfinished
  unfold CacheState.misses
  by_cases hsingle : c.policy.singleflight = true
  · rw [if_pos hsingle]
    cases hinflight : s.inflight with
    | some waiter =>
      dsimp only
      cases hfuture : s.future waiter with
      | none =>
        refine h.put hopen (free_of_point hcall hfree _) ⟨hsound.started, hsound.requested, fun _ ↦ hunfilled,
          hsound.permitted, fun joined hjoins ↦ ?_, fun joined point hfills ↦ by cases hfills⟩
        obtain rfl := Point.joins.inj hjoins
        exact ⟨(h.inflight waiter hinflight).1, rfl⟩
      | some outcome =>
        refine h.finish hcall hunfinished hfree ?_ outcome
        exact hsound.permitted
    | none =>
      -- the new Future is one that no call knows yet
      dsimp only
      refine ⟨fun other changed hchanged ↦ ?_, fun waiter hwaiter ↦ ?_, fun waiter outcome hfuture ↦ ?_⟩
      · by_cases hother : other = id
        · subst hother
          rw [put_call_self] at hchanged
          cases hchanged
          refine ⟨hsound.started, hsound.requested, fun _ ↦ hunfilled, hsound.permitted,
            (fun joined hjoins ↦ by cases hjoins), fun waiter point hfills ↦ ?_⟩
          obtain ⟨rfl, rfl⟩ := Point.fills.inj hfills
          refine ⟨rfl, pointSound_acquireLock _, fun future hfuture ↦ ?_⟩
          cases hfuture
          exact ⟨rfl, update_self ..⟩
        · rw [put_call_of_ne s _ hother] at hchanged
          have hold := h.call other changed hchanged
          refine hold.congr hold.started (fun waiter hjoins ↦ ?_) fun waiter point hfills ↦ ?_
          · have hlt := (hold.joins waiter hjoins).1
            exact ⟨Nat.lt_succ_of_lt hlt, update_of_ne (Nat.ne_of_lt hlt) ..⟩
          · have hnone := ((hold.fills _ point hfills).2.2 waiter rfl).1
            rw [hinflight] at hnone
            cases hnone
      · cases hwaiter
        refine ⟨Nat.lt_succ_self _, ?_, .inl ?_⟩
        · dsimp only
          rw [update_self, put_call_self]
          exact ⟨_, _, rfl, rfl⟩
        · change s.future s.futures = none
          refine eq_none_iff_forall_ne_some.mpr fun outcome hfuture ↦ ?_
          exact absurd (h.future s.futures outcome hfuture).1 (Nat.lt_irrefl _)
      · obtain ⟨hlt, hanswer⟩ := h.future waiter outcome hfuture
        refine ⟨Nat.lt_succ_of_lt hlt, hanswer.imp_right fun hfilled ↦ ?_⟩
        dsimp only
        rw [update_of_ne (Nat.ne_of_lt hlt)]
        exact hfilled.update rfl hopen
  · rw [if_neg hsingle]
    refine h.put hopen (free_of_point hcall hfree _) ⟨hsound.started, hsound.requested, fun _ ↦ hunfilled,
      hsound.permitted, (fun joined hjoins ↦ by cases hjoins), fun waiter point hfills ↦ ?_⟩
    obtain ⟨rfl, rfl⟩ := Point.fills.inj hfills
    exact ⟨rfl, pointSound_factory _ _, fun future hfuture ↦ by cases hfuture⟩

/-- A call that has found nothing goes on to finish, unless it joins a Future that has been cancelled. -/
theorem callsFinish_misses_iff (h : s.Sound) (hfinish : s.CallsFinish) (hcall : s.call id = some c)
    (hpoint : c.point = .lookup) :
    (s.misses id c).CallsFinish ↔ (c.requested = false → c.policy.singleflight = true →
      ∀ waiter, s.inflight = some waiter → s.future waiter = none) := by
  have hunfinished : ∀ outcome, c.point ≠ .finished outcome := by simp [hpoint]
  have hfree : ∀ waiter point, c.point ≠ .fills (some waiter) point := by simp [hpoint]
  have hopen := h.unfilled hcall hunfinished
  unfold CacheState.misses
  by_cases hsingle : c.policy.singleflight = true
  · rw [if_pos hsingle]
    cases hinflight : s.inflight with
    | some waiter =>
      obtain ⟨-, ⟨filler, point, hfiller, hfills⟩, hunset⟩ := h.inflight waiter hinflight
      dsimp only
      cases hfuture : s.future waiter with
      | none =>
        refine (callsFinish_put_iff hfinish hopen (free_of_point hcall hfree _)).trans
          (iff_of_true (fun _ ↦ ?_) fun _ _ other hother ↦ ?_)
        · have hanswers : s.Answers waiter := by
            unfold Answers
            rw [hfuture]
            exact ⟨_, filler, point, hfiller, hfills⟩
          exact hanswers.update rfl rfl (free_of_point hcall hfree _ waiter)
        · rw [← Option.some.inj hother]
          exact hfuture
      | some outcome =>
        rw [hfuture] at hunset
        obtain rfl : outcome = .cancelled :=
          hunset.elim (fun hnone ↦ absurd hnone (some_ne_none _)) Option.some.inj
        refine (callsFinish_put_iff hfinish hopen (free_of_point hcall hfree _)).trans
          (imp_congr_right fun _ ↦ iff_of_false (fun hdelivers ↦ hdelivers.1 rfl) fun hpending ↦ ?_)
        rw [hpending hsingle waiter rfl] at hfuture
        cases hfuture
    | none =>
      refine (callsFinish_put_iff hfinish hopen (free_of_point hcall hfree _)).trans
        (iff_of_true (fun _ ↦ trivial) fun _ _ other hother ↦ by cases hother)
  · rw [if_neg hsingle]
    refine (callsFinish_put_iff hfinish hopen (free_of_point hcall hfree _)).trans
      (iff_of_true (fun _ ↦ trivial) fun _ hsingle' ↦ absurd hsingle' hsingle)

/-- A call at its lookup: it can finish with what it has read, and it can go on to fill or to join. -/
theorem sound_looksUp (h : s.Sound) (hcall : s.call id = some c) (hpoint : c.point = .lookup)
    (answer : Answer T E) : (s.looksUp id c answer).Sound := by
  have hunfinished : ∀ outcome, c.point ≠ .finished outcome := by simp [hpoint]
  have hfree : ∀ waiter point, c.point ≠ .fills (some waiter) point := by simp [hpoint]
  have hpermitted := (h.call id c hcall).permitted
  unfold looksUp
  by_cases hmust : c.mustCancel = true
  · rw [if_pos hmust]
    exact h.finish hcall hunfinished hfree hpermitted .cancelled
  · rw [if_neg hmust]
    split
    · refine h.finish hcall hunfinished hfree ?_ _
      exact hpermitted
    · exact h.misses hcall hpoint
    · split
      · exact h.misses hcall hpoint
      · refine h.finish hcall hunfinished hfree ?_ _
        exact hpermitted
    · exact h

/-- A lookup harms its own call only, by joining a Future that has been cancelled. -/
theorem callsFinish_looksUp_iff (h : s.Sound) (hfinish : s.CallsFinish) (hcall : s.call id = some c)
    (hpoint : c.point = .lookup) (answer : Answer T E) :
    (s.looksUp id c answer).CallsFinish ↔ (c.requested = false → c.Misses answer → c.policy.singleflight = true →
      ∀ waiter, s.inflight = some waiter → s.future waiter = none) := by
  have hunfinished : ∀ outcome, c.point ≠ .finished outcome := by simp [hpoint]
  have hfree : ∀ waiter point, c.point ≠ .fills (some waiter) point := by simp [hpoint]
  have hput : ∀ c', (s.put id c').CallsFinish ↔ (c'.requested = false → (s.put id c').Finishes c') := fun c' ↦
    callsFinish_put_iff hfinish (h.unfilled hcall hunfinished) (free_of_point hcall hfree c')
  have hmisses := callsFinish_misses_iff h hfinish hcall hpoint
  unfold looksUp
  by_cases hmust : c.mustCancel = true
  · rw [if_pos hmust]
    have hrequested := (h.call id c hcall).requested hmust
    refine (hput _).trans (iff_of_true (fun huncancelled ↦ ?_) fun huncancelled ↦ ?_)
    · exact absurd hrequested (eq_false_iff.mp huncancelled)
    · exact absurd hrequested (eq_false_iff.mp huncancelled)
  · rw [if_neg hmust]
    cases answer with
    | read value =>
      cases value with
      | some value => exact (hput _).trans (iff_of_true (fun _ ↦ rfl) fun _ hmissed ↦ hmissed.elim)
      | none => exact hmisses.trans (imp_congr_right fun _ ↦ (true_imp_iff).symm)
    | redisError =>
      dsimp only [Call.Misses]
      cases hmode : c.policy.failMode with
      | failOpen => exact hmisses.trans (imp_congr_right fun _ ↦ ⟨fun hpending _ ↦ hpending, fun hpending ↦ hpending rfl⟩)
      | failClosed =>
        refine (hput _).trans (iff_of_true (fun _ ↦ ⟨rfl, hmode⟩) fun _ hopen ↦ ?_)
        cases hopen
    | _ => exact iff_of_true hfinish fun _ hmissed ↦ hmissed.elim

/-! ### The end of a fill -/

theorem sound_fillEnds (h : s.Sound) (hcall : s.call id = some c) (hpoint : c.point = .fills (some waiter) point)
    (houtcome : OutcomeSound c outcome) : (s.fillEnds id c waiter outcome).Sound := by
  have hsound := h.call id c hcall
  obtain ⟨-, -, hwaiter⟩ := hsound.fills _ point hpoint
  obtain ⟨hinflight, howner⟩ := hwaiter waiter rfl
  have hended : ∀ result, { s.put id ({ c with filled := some outcome }.finish result) with inflight := none }.Sound :=
    fun result ↦ h.endsFill hcall hpoint (callSound_finish hsound.started (fun filled hfilled ↦
      Option.some.inj hfilled ▸ houtcome.1) result) rfl
  have hfilled : ∀ result, (s.put id ({ c with filled := some outcome }.finish result)).HasFilled (s.owner waiter) outcome := by
    intro result
    rw [howner]
    exact ⟨_, put_call_self .., rfl, houtcome.1⟩
  have hanswered : ∀ result, { s.put id ({ c with filled := some outcome }.finish result) with
      future := update s.future waiter (some outcome)
      inflight := none }.Sound := fun result ↦
    (hended result).answersFuture rfl (h.inflight waiter hinflight).1 (hfilled result)
  unfold fillEnds
  cases outcome with
  | returned value =>
    cases s.future waiter with
    | none => exact hanswered _
    | some result => exact hended _
  | raised exc =>
    cases s.future waiter with
    | none => exact hanswered _
    | some result => exact hended _
  | cancelled => exact hended _

theorem answers_ends_iff (h : s.Sound) (hcall : s.call id = some c) (hpoint : c.point = .fills (some waiter) point)
    (hfinished : c'.point = .finished outcome) (future : ℕ → Option (Outcome T E)) :
    { s.put id c' with future := future, inflight := none }.Answers waiter ↔
      ∃ answer, future waiter = some answer ∧ answer ≠ .cancelled := by
  unfold Answers
  dsimp only
  cases future waiter with
  | some answer =>
    refine ⟨fun hanswer ↦ ⟨answer, rfl, hanswer⟩, ?_⟩
    rintro ⟨other, hother, hanswer⟩
    cases hother
    exact hanswer
  | none =>
    refine iff_of_false ?_ ?_
    · rintro ⟨owner, filler, next, hfiller, hfills⟩
      by_cases howner : owner = id
      · rw [howner, put_call_self] at hfiller
        cases hfiller
        rw [hfinished] at hfills
        cases hfills
      · -- the owner of the Future is the call that has ended
        rw [put_call_of_ne s c' howner] at hfiller
        have hother := (((h.call owner filler hfiller).fills _ next hfills).2.2 waiter rfl).2
        have hself := (((h.call id c hcall).fills _ point hpoint).2.2 waiter rfl).2
        exact howner (hother.symm.trans hself)
    · rintro ⟨answer, hanswer, -⟩
      cases hanswer

/-- After the end of a fill its own call has finished as it should when it has what the fill has ended with, and
those that wait for its Future when the Future has a result. -/
theorem callsFinish_ends_iff (h : s.Sound) (hfinish : s.CallsFinish) (hcall : s.call id = some c)
    (hpoint : c.point = .fills (some waiter) point) (hpermitted : Permitted c.policy outcome)
    {future : ℕ → Option (Outcome T E)} (hfuture : ∀ other, other ≠ waiter → future other = s.future other)
    (result : Outcome T E) :
    { s.put id ({ c with filled := some outcome }.finish result) with
        future := future, inflight := none }.CallsFinish ↔
      (c.requested = false → result = outcome ∧ outcome ≠ .cancelled) ∧
        (s.Abandoned waiter id ∨ ∃ answer, future waiter = some answer ∧ answer ≠ .cancelled) := by
  have hopen := h.unfilled hcall (by simp [hpoint])
  have hother : ∀ future c point, future ≠ waiter → s.call id = some c → c.point ≠ .fills (some future) point := by
    rintro future other next hne hother' hfills
    obtain rfl := mem_unique hcall hother'
    obtain ⟨hsame, -⟩ := Point.fills.inj (hpoint.symm.trans hfills)
    exact hne (Option.some.inj hsame).symm
  refine Iff.trans (callsFinish_waiter_iff hfinish rfl hopen hfuture hother) ?_
  refine and_congr (imp_congr_right fun _ ↦ ?_) (or_congr_right (answers_ends_iff h hcall hpoint rfl future))
  change CacheState.Delivers _ _ _ ↔ _
  unfold Delivers finish
  dsimp only
  rw [((h.call id c hcall).fills _ point hpoint).1]
  constructor
  · rintro ⟨hne, filler, hfiller, hfilled, -⟩
    dsimp only at hfiller
    rw [put_call_self] at hfiller
    cases hfiller
    cases hfilled
    exact ⟨rfl, hne⟩
  · rintro ⟨rfl, hne⟩
    exact ⟨hne, _, put_call_self .., rfl, hpermitted⟩

/-- The end of a fill harms its own call when it returns to a Future that has been cancelled, and the calls that
wait when it is cancelled itself. -/
theorem callsFinish_fillEnds_iff (h : s.Sound) (hfinish : s.CallsFinish) (hcall : s.call id = some c)
    (hpoint : c.point = .fills (some waiter) point) (houtcome : OutcomeSound c outcome) :
    (s.fillEnds id c waiter outcome).CallsFinish ↔ s.FillHarmless id c waiter outcome := by
  have hinflight := (((h.call id c hcall).fills _ point hpoint).2.2 waiter rfl).1
  have hunset := (h.inflight waiter hinflight).2.2
  -- who waits for a Future that has been cancelled has been cancelled too
  have habandoned : s.future waiter = some .cancelled → s.Abandoned waiter id := by
    intro hfuture other joined _ hjoined hjoins
    by_contra hrequested
    have hanswers := hfinish other joined hjoined (not_eq_true _ ▸ hrequested)
    unfold Finishes at hanswers
    rw [hjoins] at hanswers
    dsimp only [Answers] at hanswers
    rw [hfuture] at hanswers
    exact hanswers rfl
  have hset : ∀ result other, other ≠ waiter → update s.future waiter result other = s.future other :=
    fun result other hne ↦ update_of_ne hne ..
  have hends := fun {future : ℕ → Option (Outcome T E)}
      (hfuture : ∀ other, other ≠ waiter → future other = s.future other) result ↦
    callsFinish_ends_iff h hfinish hcall hpoint houtcome.1 hfuture result
  unfold fillEnds
  cases outcome with
  | returned value =>
    dsimp only
    cases hfuture : s.future waiter with
    | none =>
      refine (hends (hset _) _).trans (iff_of_true ⟨fun _ ↦ ⟨rfl, fun hne ↦ by cases hne⟩, .inr ?_⟩ (.inl hfuture))
      exact ⟨_, update_self .., fun hne ↦ by cases hne⟩
    | some result =>
      rw [hfuture] at hunset
      obtain rfl : result = .cancelled := hunset.elim (fun hnone ↦ by cases hnone) Option.some.inj
      refine (hends (fun _ _ ↦ rfl) _).trans ?_
      rw [and_iff_left (.inl (habandoned hfuture))]
      dsimp only [FillHarmless]
      rw [hfuture, or_iff_right (some_ne_none _)]
      constructor
      · intro hself
        by_contra hrequested
        have hinvalid := (hself (not_eq_true _ ▸ hrequested)).1
        cases hinvalid
      · intro hrequested huncancelled
        exact absurd hrequested (eq_false_iff.mp huncancelled)
  | raised exc =>
    dsimp only
    cases hfuture : s.future waiter with
    | none =>
      refine (hends (hset _) _).trans (iff_of_true ⟨fun _ ↦ ⟨rfl, fun hne ↦ by cases hne⟩, .inr ?_⟩ trivial)
      exact ⟨_, update_self .., fun hne ↦ by cases hne⟩
    | some result =>
      rw [hfuture] at hunset
      obtain rfl : result = .cancelled := hunset.elim (fun hnone ↦ by cases hnone) Option.some.inj
      exact (hends (fun _ _ ↦ rfl) _).trans
        (iff_of_true ⟨fun _ ↦ ⟨rfl, fun hne ↦ by cases hne⟩, .inl (habandoned hfuture)⟩ trivial)
  | cancelled =>
    refine (hends (fun _ _ ↦ rfl) _).trans ?_
    rw [and_iff_right fun huncancelled ↦ absurd (houtcome.2 rfl) (eq_false_iff.mp huncancelled)]
    refine or_iff_left_of_imp ?_
    rintro ⟨answer, hanswer, hne⟩
    rcases hunset with hnone | hcancelled
    · exact absurd (hnone.symm.trans hanswer).symm (some_ne_none answer)
    · exact absurd (mem_unique hanswer hcancelled) hne

/-! ### One event -/

theorem sound_turn (h : s.Sound) (hcall : s.call id = some c) (answer : Answer T E) : (s.turn id c answer).Sound := by
  have hsound := h.call id c hcall
  unfold turn
  cases hpoint : c.point with
  | lookup => exact sound_looksUp h hcall hpoint answer
  | joins waiter =>
    dsimp only
    cases s.future waiter with
    | none => exact h
    | some outcome =>
      refine h.finish hcall (fun outcome hfinished ↦ ?_) (fun waiter point hfills ↦ ?_) hsound.permitted _
      · rw [hpoint] at hfinished
        cases hfinished
      · rw [hpoint] at hfills
        cases hfills
  | fills waiter point =>
    have hunfinished : ∀ outcome, c.point ≠ .finished outcome := by simp [hpoint]
    obtain ⟨horigin, hpointSound, hwaiter⟩ := hsound.fills waiter point hpoint
    dsimp only
    cases hresume : c.resume point answer with
    | none => exact h
    | some next =>
      have hnext := nextSound_resume hpointSound hsound.requested hresume
      cases next with
      | inl next =>
        refine h.put (h.unfilled hcall hunfinished) (fun future other point hother hfills ↦ ?_)
          ⟨hsound.started, (fun hmust ↦ by cases hmust), fun _ ↦ hsound.unfilled hunfinished, hsound.permitted,
            (fun joined hjoins ↦ by cases hjoins), fun future next hfills ↦ ?_⟩
        · obtain rfl := mem_unique hcall hother
          obtain ⟨rfl, -⟩ := Point.fills.inj (hpoint.symm.trans hfills)
          exact ⟨next, rfl⟩
        · obtain ⟨rfl, rfl⟩ := Point.fills.inj hfills
          exact ⟨horigin, hnext, hwaiter⟩
      | inr outcome =>
        cases waiter with
        | none =>
          refine h.finish hcall hunfinished (fun waiter point hfills ↦ ?_) (fun filled hfilled ↦ ?_) outcome
          · rw [hpoint] at hfills
            cases hfills
          · cases hfilled
            exact hnext.1
        | some waiter => exact sound_fillEnds h hcall hpoint hnext
  | finished outcome => exact h

/-- After a turn every call still finishes exactly when the turn has found what it needs. -/
theorem callsFinish_turn_iff (h : s.Sound) (hfinish : s.CallsFinish) (hcall : s.call id = some c)
    (answer : Answer T E) : (s.turn id c answer).CallsFinish ↔ s.TurnHarmless id c answer := by
  have hsound := h.call id c hcall
  unfold turn TurnHarmless
  cases hpoint : c.point with
  | lookup => exact callsFinish_looksUp_iff h hfinish hcall hpoint answer
  | joins waiter =>
    dsimp only
    cases hfuture : s.future waiter with
    | none => exact iff_of_true hfinish trivial
    | some outcome =>
      have hput : (s.put id (c.finish (if c.mustCancel then .cancelled else outcome))).CallsFinish ↔ _ :=
        callsFinish_put_iff hfinish (h.unfilled hcall (by simp [hpoint])) (free_of_point hcall (by simp [hpoint]) _)
      refine iff_of_true (hput.mpr fun huncancelled ↦ ?_) trivial
      have hmust : ¬ c.mustCancel = true := fun hmust ↦
        absurd (hsound.requested hmust) (eq_false_iff.mp huncancelled)
      have hanswers := hfinish id c hcall huncancelled
      unfold Finishes at hanswers
      rw [hpoint] at hanswers
      dsimp only [Answers] at hanswers
      rw [hfuture] at hanswers
      rw [if_neg hmust]
      change CacheState.Delivers _ _ _
      unfold Delivers finish
      dsimp only
      rw [(hsound.joins waiter hpoint).2]
      refine ⟨hanswers, ((h.future waiter outcome hfuture).2.resolve_left hanswers).update rfl ?_⟩
      exact h.unfilled hcall (by simp [hpoint])
  | fills waiter point =>
    have hunfinished : ∀ outcome, c.point ≠ .finished outcome := by simp [hpoint]
    obtain ⟨horigin, hpointSound, -⟩ := hsound.fills waiter point hpoint
    dsimp only
    cases hresume : c.resume point answer with
    | none => exact iff_of_true hfinish trivial
    | some next =>
      have hnext := nextSound_resume hpointSound hsound.requested hresume
      cases next with
      | inl next =>
        have hput : (s.put id { c with point := .fills waiter next, mustCancel := false }).CallsFinish ↔ _ :=
          callsFinish_put_iff hfinish (h.unfilled hcall hunfinished) fun future other point hother hfills ↦ by
            obtain rfl := mem_unique hcall hother
            obtain ⟨rfl, -⟩ := Point.fills.inj (hpoint.symm.trans hfills)
            exact ⟨next, rfl⟩
        exact iff_of_true (hput.mpr fun _ ↦ trivial) trivial
      | inr outcome =>
        cases waiter with
        | none =>
          have hput : (s.put id ({ c with filled := some outcome }.finish outcome)).CallsFinish ↔ _ :=
            callsFinish_put_iff hfinish (h.unfilled hcall hunfinished) (free_of_point hcall (by simp [hpoint]) _)
          refine iff_of_true (hput.mpr fun huncancelled ↦ ?_) trivial
          change CacheState.Delivers _ _ _
          unfold Delivers finish
          dsimp only
          rw [horigin]
          refine ⟨fun hcancelled ↦ ?_, _, put_call_self .., rfl, hnext.1⟩
          exact absurd (hnext.2 hcancelled) (eq_false_iff.mp huncancelled)
        | some waiter => exact callsFinish_fillEnds_iff h hfinish hcall hpoint hnext
  | finished outcome => exact iff_of_true hfinish trivial

/-- A cancellation is noted, and it does not matter at which await. -/
theorem CallSound.cancelled (h : s.CallSound id c) (must : Bool) :
    s.CallSound id { c with mustCancel := must, requested := true } where
  started := h.started
  requested := fun _ ↦ rfl
  unfilled := h.unfilled
  permitted := h.permitted
  joins := h.joins
  fills := fun waiter point hpoint ↦ by
    obtain ⟨horigin, hsound, hwaiter⟩ := h.fills waiter point hpoint
    exact ⟨horigin, fun outcome hreleases ↦ ⟨(hsound outcome hreleases).1, fun _ ↦ rfl⟩, hwaiter⟩

theorem sound_cancel (h : s.Sound) (hcall : s.call id = some c) : (s.cancel id c).Sound := by
  have hsound := h.call id c hcall
  have hput : ∀ must, (∀ outcome, c.point ≠ .finished outcome) →
      (s.put id { c with mustCancel := must, requested := true }).Sound := by
    intro must hunfinished
    refine h.put (h.unfilled hcall hunfinished) (fun waiter other point hother hfills ↦ ?_) (hsound.cancelled must)
    obtain rfl := mem_unique hcall hother
    exact ⟨point, hfills⟩
  unfold cancel
  cases hpoint : c.point with
  | finished outcome => exact h
  | joins waiter =>
    dsimp only
    cases s.future waiter with
    | none =>
      have hrequested := hput c.mustCancel (by simp [hpoint])
      rw [hpoint] at hrequested
      exact hrequested.cancelsFuture (hsound.joins waiter hpoint).1
    | some outcome =>
      have hrequested := hput true (by simp [hpoint])
      rw [hpoint] at hrequested
      exact hrequested
  | _ =>
    have hrequested := hput true (by simp [hpoint])
    rw [hpoint] at hrequested
    exact hrequested

/-- A cancellation harms the other calls that wait for the same pending Future. -/
theorem callsFinish_cancel_iff (h : s.Sound) (hfinish : s.CallsFinish) (hcall : s.call id = some c) :
    (s.cancel id c).CallsFinish ↔
      ∀ waiter, c.point = .joins waiter → s.future waiter = none → s.Abandoned waiter id := by
  have hput : ∀ must, (∀ outcome, c.point ≠ .finished outcome) →
      (s.put id { c with mustCancel := must, requested := true }).CallsFinish := by
    intro must hunfinished
    refine (callsFinish_put_iff hfinish (h.unfilled hcall hunfinished) fun waiter other point hother hfills ↦ ?_).mpr
      fun huncancelled ↦ by cases huncancelled
    obtain rfl := mem_unique hcall hother
    exact ⟨point, hfills⟩
  unfold cancel
  cases hpoint : c.point with
  | finished outcome => exact iff_of_true hfinish fun waiter hjoins ↦ by cases hjoins
  | joins waiter =>
    have hunfinished : ∀ outcome, c.point ≠ .finished outcome := by simp [hpoint]
    dsimp only
    cases hfuture : s.future waiter with
    | none =>
      refine Iff.trans (callsFinish_waiter_iff hfinish rfl (h.unfilled hcall hunfinished)
        (fun other hother ↦ update_of_ne hother ..) fun future other point _ hother hfills ↦ ?_) ?_
      · obtain rfl := mem_unique hcall hother
        rw [hpoint] at hfills
        cases hfills
      · have hcancelled : ¬ { s.put id { c with point := .joins waiter, requested := true } with
            future := update s.future waiter (some .cancelled) }.Answers waiter := by
          unfold Answers
          dsimp only
          rw [update_self]
          exact fun hanswers ↦ hanswers rfl
        refine (and_iff_right fun huncancelled ↦ by cases huncancelled).trans ((or_iff_left hcancelled).trans ?_)
        constructor
        · intro habandoned other hjoins _
          obtain rfl := Point.joins.inj hjoins
          exact habandoned
        · intro hall
          exact hall waiter rfl hfuture
    | some outcome =>
      have hrequested := hput true hunfinished
      rw [hpoint] at hrequested
      refine iff_of_true hrequested fun other hjoins hpending ↦ ?_
      obtain rfl := Point.joins.inj hjoins
      exact absurd (hfuture.symm.trans hpending) (some_ne_none outcome)
  | _ =>
    have hrequested := hput true (by simp [hpoint])
    rw [hpoint] at hrequested
    exact iff_of_true hrequested fun waiter hjoins ↦ by cases hjoins

theorem sound_step (h : s.Sound) (event : CallEvent T E) : (s.step event).Sound := by
  cases event with
  | starts id policy =>
    dsimp only [step]
    cases hcall : s.call id with
    | some c => exact h
    | none =>
      have hstarted : { s with started := id :: s.started }.Sound :=
        ⟨fun other c hother ↦ (h.call other c hother).congr (mem_cons_of_mem _ (h.call other c hother).started)
          (fun waiter hjoins ↦ ⟨((h.call other c hother).joins waiter hjoins).1, rfl⟩) fun waiter point hfills ↦
            ⟨(((h.call other c hother).fills _ point hfills).2.2 waiter rfl).1, rfl⟩, h.inflight, h.future⟩
      refine hstarted.put (fun c hc ↦ ?_) (fun waiter c point hc ↦ ?_) ⟨mem_cons_self, (fun hmust ↦ by cases hmust),
        fun _ ↦ rfl, (fun outcome hfilled ↦ by cases hfilled), (fun waiter hjoins ↦ by cases hjoins),
        fun waiter point hfills ↦ by cases hfills⟩
      · exact absurd (hcall.symm.trans hc).symm (some_ne_none c)
      · exact absurd (hcall.symm.trans hc).symm (some_ne_none c)
  | turn id answer =>
    dsimp only [step]
    cases hcall : s.call id with
    | none => exact h
    | some c => exact sound_turn h hcall answer
  | cancels id =>
    dsimp only [step]
    cases hcall : s.call id with
    | none => exact h
    | some c => exact sound_cancel h hcall

/-- After an event every call that is not cancelled itself still finishes exactly when the event is harmless. -/
theorem callsFinish_step_iff (h : s.Sound) (hfinish : s.CallsFinish) (event : CallEvent T E) :
    (s.step event).CallsFinish ↔ s.Harmless event := by
  cases event with
  | starts id policy =>
    dsimp only [step, Harmless]
    cases hcall : s.call id with
    | some c => exact iff_of_true hfinish trivial
    | none =>
      have hnone : ∀ c, s.call id = some c → False := fun c hc ↦
        absurd (hcall.symm.trans hc).symm (some_ne_none c)
      have hput : (s.put id { policy := policy }).CallsFinish ↔ _ :=
        callsFinish_put_iff hfinish (fun c hc ↦ (hnone c hc).elim) fun waiter c point hc ↦ (hnone c hc).elim
      exact iff_of_true (hput.mpr fun _ ↦ trivial) trivial
  | turn id answer =>
    dsimp only [step, Harmless]
    cases hcall : s.call id with
    | none => exact iff_of_true hfinish fun c hc ↦ by cases hc
    | some c =>
      refine (callsFinish_turn_iff h hfinish hcall answer).trans ⟨fun hharmless other hother ↦ ?_, fun hall ↦ hall c rfl⟩
      cases hother
      exact hharmless
  | cancels id =>
    dsimp only [step, Harmless]
    cases hcall : s.call id with
    | none => exact iff_of_true hfinish fun c waiter hc ↦ by cases hc
    | some c =>
      refine (callsFinish_cancel_iff h hfinish hcall).trans ⟨fun hharmless other waiter hother ↦ ?_, fun hall waiter ↦
        hall c waiter rfl⟩
      cases hother
      exact hharmless waiter

end CacheState

/-! ### Turns come to an end -/

/-- How many turns a fill can take before its last one. -/
@[simp] def FillPoint.work : FillPoint T E → ℕ
  | .acquireLock => 6
  | .waitForFill => 5
  | .recheck => 4
  | .factory _ => 3
  | .store _ _ => 2
  | .releaseLock _ => 1

/-- How many turns a call can take. -/
@[simp] def Point.work : Point T E → ℕ
  | .lookup => 8
  | .joins _ => 1
  | .fills _ point => point.work + 1
  | .finished _ => 0

theorem work_leaveFill {token : Bool} {outcome : Outcome T E} {next : FillPoint T E}
    (h : leaveFill token outcome = .inl next) : next.work = 1 := by
  cases token with
  | false => cases h
  | true =>
    obtain rfl := Sum.inl.inj h
    rfl

theorem work_fillPoint_resume {policy : CachePolicy} {point next : FillPoint T E} {answer : Answer T E}
    (h : point.resume policy answer = some (.inl next)) : next.work < point.work := by
  unfold resume at h
  split at h
  · obtain rfl := Sum.inl.inj (Option.some.inj h)
    simp
  · obtain rfl := Sum.inl.inj (Option.some.inj h)
    simp
  · obtain rfl := Sum.inl.inj (Option.some.inj h)
    simp
  · cases h
  · obtain rfl := Sum.inl.inj (Option.some.inj h)
    simp
  · split at h
    · obtain rfl := Sum.inl.inj (Option.some.inj h)
      simp
    · cases h
  · obtain rfl := Sum.inl.inj (Option.some.inj h)
    simp
  · rw [work_leaveFill (Option.some.inj h)]
    simp
  · rw [work_leaveFill (Option.some.inj h)]
    simp
  · split at h
    · rw [work_leaveFill (Option.some.inj h)]
      simp
    · rw [work_leaveFill (Option.some.inj h)]
      simp
  · cases h
  · cases h

theorem work_resume {c : Call T E} {point next : FillPoint T E} {answer : Answer T E}
    (h : c.resume point answer = some (.inl next)) : next.work < point.work := by
  unfold Call.resume at h
  by_cases hmust : c.mustCancel = true
  · rw [if_pos hmust] at h
    split at h
    · exact work_fillPoint_resume h
    · have hcancel := Option.some.inj h
      cases point with
      | factory token =>
        rw [work_leaveFill hcancel]
        simp
      | store token value =>
        rw [work_leaveFill hcancel]
        simp
      | _ => cases hcancel
  · rw [if_neg hmust] at h
    exact work_fillPoint_resume h

namespace CacheState

variable {s s' : CacheState T E} {id waiter : ℕ} {c c' : Call T E}

/-- How many turns there can be in all without another call. -/
def work (s : CacheState T E) : ℕ :=
  (s.started.map fun id ↦ (s.call id).elim 0 fun c ↦ c.point.work).sum

/-- One call has come nearer to its end, and the others stay where they are. -/
def Progresses (s s' : CacheState T E) (id : ℕ) (c : Call T E) : Prop :=
  ∃ c', s'.call = update s.call id (some c') ∧ s'.started = s.started ∧ c'.point.work < c.point.work

theorem Progresses.work_lt (h : Progresses s s' id c) (hcall : s.call id = some c) (hstarted : id ∈ s.started) :
    s'.work < s.work := by
  obtain ⟨c', hcall', hsame, hlt⟩ := h
  unfold work
  rw [hsame]
  refine sum_lt_sum _ _ (fun other _ ↦ ?_) ⟨id, hstarted, ?_⟩
  · rw [hcall']
    by_cases hother : other = id
    · rw [hother, update_self, hcall]
      exact hlt.le
    · rw [update_of_ne hother]
  · rw [hcall', update_self, hcall]
    exact hlt

theorem progresses_misses (s : CacheState T E) (id : ℕ) (hpoint : c.point = .lookup) :
    Progresses s (s.misses id c) id c := by
  unfold misses
  by_cases hsingle : c.policy.singleflight = true
  · rw [if_pos hsingle]
    cases s.inflight with
    | some waiter =>
      dsimp only
      cases s.future waiter with
      | none => exact ⟨_, rfl, rfl, by simp [hpoint]⟩
      | some outcome => exact ⟨_, rfl, rfl, by simp [hpoint, finish]⟩
    | none => exact ⟨_, rfl, rfl, by simp [hpoint]⟩
  · rw [if_neg hsingle]
    exact ⟨_, rfl, rfl, by simp [hpoint]⟩

theorem progresses_fillEnds (s : CacheState T E) (id waiter : ℕ) {point : FillPoint T E}
    (hpoint : c.point = .fills (some waiter) point) (outcome : Outcome T E) :
    Progresses s (s.fillEnds id c waiter outcome) id c := by
  have hpos : ∀ result, ({ c with filled := some outcome }.finish result).point.work < c.point.work := fun result ↦ by
    simp [hpoint, finish]
  unfold fillEnds
  cases outcome with
  | returned value =>
    cases s.future waiter with
    | none | some result => exact ⟨_, rfl, rfl, hpos _⟩
  | raised exc =>
    cases s.future waiter with
    | none | some result => exact ⟨_, rfl, rfl, hpos _⟩
  | cancelled => exact ⟨_, rfl, rfl, hpos _⟩

/-- A turn does nothing or brings its call nearer to its end. -/
theorem turn_eq_or_progresses (s : CacheState T E) (id : ℕ) (c : Call T E) (answer : Answer T E) :
    s.turn id c answer = s ∨ Progresses s (s.turn id c answer) id c := by
  unfold turn
  cases hpoint : c.point with
  | lookup =>
    dsimp only [looksUp]
    by_cases hmust : c.mustCancel = true
    · rw [if_pos hmust]
      exact .inr ⟨_, rfl, rfl, by simp [hpoint, finish]⟩
    · rw [if_neg hmust]
      split
      · exact .inr ⟨_, rfl, rfl, by simp [hpoint, finish]⟩
      · exact .inr (progresses_misses s id hpoint)
      · split
        · exact .inr (progresses_misses s id hpoint)
        · exact .inr ⟨_, rfl, rfl, by simp [hpoint, finish]⟩
      · exact .inl rfl
  | joins waiter =>
    dsimp only
    cases s.future waiter with
    | none => exact .inl rfl
    | some outcome => exact .inr ⟨_, rfl, rfl, by simp [hpoint, finish]⟩
  | fills waiter point =>
    dsimp only
    cases hresume : c.resume point answer with
    | none => exact .inl rfl
    | some next =>
      cases next with
      | inl next => exact .inr ⟨_, rfl, rfl, by simpa [hpoint] using work_resume hresume⟩
      | inr outcome =>
        cases waiter with
        | none => exact .inr ⟨_, rfl, rfl, by simp [hpoint, finish]⟩
        | some waiter => exact .inr (progresses_fillEnds s id waiter hpoint outcome)
  | finished outcome => exact .inl rfl

theorem work_turn_lt (h : s.Sound) {answer : Answer T E} (hmoves : s.step (.turn id answer) ≠ s) :
    (s.step (.turn id answer)).work < s.work := by
  dsimp only [step] at hmoves ⊢
  cases hcall : s.call id with
  | none =>
    rw [hcall] at hmoves
    exact absurd rfl hmoves
  | some c =>
    rw [hcall] at hmoves
    exact ((turn_eq_or_progresses s id c answer).resolve_left hmoves).work_lt hcall (h.call id c hcall).started

/-- The tasks can take only so many turns. -/
theorem length_le_work (h : s.Sound) {turns : List (CallEvent T E)}
    (hturns : ∀ event ∈ turns, ∃ id answer, event = .turn id answer)
    (hmoves : Along step (fun s event ↦ s.step event ≠ s) turns s) : turns.length ≤ s.work := by
  induction turns generalizing s with
  | nil => exact Nat.zero_le _
  | cons event rest ih =>
    obtain ⟨hfirst, hrest⟩ := hmoves
    obtain ⟨id, answer, rfl⟩ := hturns event mem_cons_self
    have hlength := ih (sound_step h _) (fun other hother ↦ hturns other (mem_cons_of_mem _ hother)) hrest
    rw [length_cons]
    exact lt_of_le_of_lt hlength (work_turn_lt h hfirst)

/-- When nothing is left to run, every call that is not cancelled itself has finished. -/
theorem finished_of_idle (hfinish : s.CallsFinish) (hidle : s.Idle) (hcall : s.call id = some c)
    (hrequested : c.requested = false) : ∃ outcome, c.point = .finished outcome ∧ s.Delivers c outcome := by
  have hfinishes := hfinish id c hcall hrequested
  unfold Finishes at hfinishes
  rcases hidle id c hcall with ⟨outcome, hpoint⟩ | ⟨waiter, hpoint, hpending⟩
  · rw [hpoint] at hfinishes
    exact ⟨outcome, hpoint, hfinishes⟩
  · rw [hpoint] at hfinishes
    dsimp only [Answers] at hfinishes
    rw [hpending] at hfinishes
    -- the call that fills the Future would be left to run
    obtain ⟨owner, filler, point, hfiller, hfills⟩ := hfinishes
    rcases hidle owner filler hfiller with ⟨outcome, hother⟩ | ⟨future, hother, -⟩
    · rw [hother] at hfills
      cases hfills
    · rw [hother] at hfills
      cases hfills

theorem sound_empty : ({} : CacheState T E).Sound where
  call := fun id c hcall ↦ by cases hcall
  inflight := fun waiter hinflight ↦ by cases hinflight
  future := fun waiter outcome hfuture ↦ by cases hfuture

theorem callsFinish_empty : ({} : CacheState T E).CallsFinish :=
  fun id c hcall ↦ by cases hcall

/-- The registered Future is being filled, and no two calls fill one at a time. -/
theorem one_filler (events : List (CallEvent T E)) : let s := play step events {}
    (∀ w, s.inflight = some w → ∃ c p, s.call (s.owner w) = some c ∧ c.point = .fills (some w) p) ∧
      ∀ i i' c c' w w' p p', s.call i = some c → s.call i' = some c' → c.point = .fills (some w) p →
        c'.point = .fills (some w') p' → i = i' := by
  have h : (play step events ({} : CacheState T E)).Sound :=
    play_invariant (fun s event (hs : s.Sound) ↦ sound_step hs event) events sound_empty
  refine ⟨fun w hw ↦ (h.inflight w hw).2.1, fun i i' c c' w w' p p' hc hc' hp hp' ↦ ?_⟩
  obtain ⟨hw, rfl⟩ := ((h.call i c hc).fills _ p hp).2.2 w rfl
  obtain ⟨hw', rfl⟩ := ((h.call i' c' hc').fills _ p' hp').2.2 w' rfl
  cases hw.symm.trans hw'
  rfl

end CacheState

/-! ### Runs -/

/-- In a run of calls on one key every call that is not cancelled itself finishes, in every state reached, exactly
when no cancellation hits a fill or a Future that another such call shares. When nothing is left to run then,
every such call has the value or the exception that it is owed; and without further calls and cancellations
this is so after a bounded number of turns. -/
theorem getOrSet_calls_finish_iff (events : List (CallEvent T E)) :
    ((∀ before after, events = before ++ after → (play CacheState.step before {}).CallsFinish) ↔
        Along CacheState.step CacheState.Harmless events {}) ∧
      (Along CacheState.step CacheState.Harmless events {} → (play CacheState.step events {}).Idle →
        ∀ id c, (play CacheState.step events {}).call id = some c → c.requested = false →
          ∃ outcome, c.point = .finished outcome ∧ (play CacheState.step events {}).Delivers c outcome) ∧
      ∀ turns, (∀ event ∈ turns, ∃ id answer, event = .turn id answer) →
        Along CacheState.step (fun s event ↦ s.step event ≠ s) turns (play CacheState.step events {}) →
          turns.length ≤ (play CacheState.step events {}).work := by
  have hiff : (∀ before after, events = before ++ after → (play CacheState.step before {}).CallsFinish) ↔
      Along CacheState.step CacheState.Harmless events {} := by
    rw [← along_apply_iff events CacheState.callsFinish_empty]
    refine along_congr (fun s event (hs : s.Sound ∧ s.CallsFinish) hafter ↦ ?_) (fun s event hs ↦ ?_) events
      ⟨CacheState.sound_empty, CacheState.callsFinish_empty⟩
    · exact ⟨CacheState.sound_step hs.1 event, hafter⟩
    · exact CacheState.callsFinish_step_iff hs.1 hs.2 event
  have hsound : (play CacheState.step events ({} : CacheState T E)).Sound :=
    play_invariant (fun s event (hs : s.Sound) ↦ CacheState.sound_step hs event) events CacheState.sound_empty
  refine ⟨hiff, fun hharmless hidle id c hcall hrequested ↦ ?_, fun turns hturns hmoves ↦ ?_⟩
  · exact CacheState.finished_of_idle (hiff.mpr hharmless events [] (append_nil events).symm) hidle hcall hrequested
  · exact CacheState.length_le_work hsound hturns hmoves

/-- A call fills, a second one joins, and the first one is cancelled in its factory. -/
def cancelledOwner : List (CallEvent ℕ ℕ) :=
  [.starts 1 {}, .turn 1 (.read none), .turn 1 (.acquired true), .starts 2 {}, .turn 2 (.read none), .cancels 1,
    .turn 1 .done, .turn 1 .done]

/-- A call fills, a second one joins and is cancelled, and the factory of the first one returns. -/
def cancelledJoiner : List (CallEvent ℕ ℕ) :=
  [.starts 1 {}, .turn 1 (.read none), .turn 1 (.acquired true), .starts 2 {}, .turn 2 (.read none), .cancels 2,
    .turn 1 (.made (.ok (some 7))), .turn 1 .done, .turn 1 .done]

/-- The joined call waits for ever, and the call that has filled raises InvalidStateError. -/
theorem shared_future_strands_callers :
    ¬ (play CacheState.step cancelledOwner {}).CallsFinish ∧
      ¬ (play CacheState.step cancelledJoiner {}).CallsFinish := by
  constructor
  · intro hfinish
    obtain ⟨owner, filler, point, hfiller, hfills⟩ := hfinish 2 _ rfl rfl
    have hsound := play_invariant (fun s event (hs : s.Sound) ↦ CacheState.sound_step hs event) cancelledOwner
      CacheState.sound_empty
    have hinflight := (((hsound.call owner filler hfiller).fills _ point hfills).2.2 0 rfl).1
    cases hinflight
  · intro hfinish
    obtain ⟨-, filler, hfiller, hfilled, -⟩ := hfinish 1 _ rfl rfl
    cases hfiller
    cases hfilled

end ContentGenerator.Core
