import Mathlib.Logic.Function.Basic
import Mathlib.Data.List.Basic

/-!
# The calls of `get_or_set` on one key in one process

A call of `TenantCache.get_or_set` is a task that is suspended at an await: at the reads of the cache, at the
Future of another call, or inside `_fill` or `_distributed_fill`. A turn of a task runs it from one await to
the next one with the answer of what it has awaited. Neither block under `_inflight_lock` awaits anything, so
the lock is never contended and each block is part of one turn.

A Future is shared by the call that has created it and by the calls that have found it in `_inflight`. A
cancellation of a task that awaits a pending Future cancels the Future; at any other await it is raised there
at the next turn of the task.
-/

namespace ContentGenerator.Core

open Function (update)

variable {T E : Type}

inductive CacheFailMode where
  | failOpen
  | failClosed
deriving DecidableEq

/-- The fields of `CachePolicy` that decide how a call goes on. -/
structure CachePolicy where
  failMode : CacheFailMode := .failOpen
  singleflight : Bool := true
deriving DecidableEq

/-- The exceptions other than `CancelledError`: one of the factory, one of Redis that a fail-closed policy lets
through, and the one of `set_result` on a Future that is done. -/
inductive Raised (E : Type) where
  | factory (exc : E)
  | cache
  | invalidState
deriving DecidableEq

/-- How a coroutine or a Future ends. -/
inductive Outcome (T E : Type) where
  | returned (value : Option T)
  | raised (exc : Raised E)
  | cancelled
deriving DecidableEq

/-- The awaits of `_distributed_fill` and of the `_fill` in it; `token` says whether `release_lock` is to follow.
`releaseLock` is in the `finally` block and keeps what `_fill` has ended with. -/
inductive FillPoint (T E : Type) where
  | acquireLock
  | waitForFill
  | recheck
  | factory (token : Bool)
  | store (token : Bool) (value : Option T)
  | releaseLock (outcome : Outcome T E)
deriving DecidableEq

/-- What an await gives: the value that `get_json` has read, an error of Redis in `get_json` or `set_json`, the
answer of `acquire_lock`, what the factory does, or the end of a call without a result. -/
inductive Answer (T E : Type) where
  | read (value : Option T)
  | redisError
  | acquired (token : Bool)
  | made (result : Except E (Option T))
  | done

/-- The end of `_fill` under the `finally` of `_distributed_fill`. -/
def leaveFill (token : Bool) (outcome : Outcome T E) : FillPoint T E ⊕ Outcome T E :=
  if token then .inl (.releaseLock outcome) else .inr outcome

/-- From one await of a fill to the next one or to its end; nothing happens on an answer to another await. -/
def FillPoint.resume (policy : CachePolicy) :
    FillPoint T E → Answer T E → Option (FillPoint T E ⊕ Outcome T E)
  | .acquireLock, .acquired true => some (.inl (.factory true))
  | .acquireLock, .acquired false => some (.inl .waitForFill)
  | .waitForFill, .done => some (.inl .recheck)
  | .recheck, .read (some value) => some (.inr (.returned (some value)))
  | .recheck, .read none => some (.inl (.factory false))
  | .recheck, .redisError =>
    match policy.failMode with
    | .failOpen => some (.inl (.factory false))
    | .failClosed => some (.inr (.raised .cache))
  | .factory token, .made (.ok value) => some (.inl (.store token value))
  | .factory token, .made (.error exc) => some (leaveFill token (.raised (.factory exc)))
  | .store token value, .done => some (leaveFill token (.returned value))
  | .store token value, .redisError =>
    match policy.failMode with
    | .failOpen => some (leaveFill token (.returned value))
    | .failClosed => some (leaveFill token (.raised .cache))
  | .releaseLock outcome, .done => some (.inr outcome)
  | _, _ => none

/-- `CancelledError` raised at an await of a fill. Only the `finally` block catches it. -/
def FillPoint.cancel : FillPoint T E → FillPoint T E ⊕ Outcome T E
  | .factory token => leaveFill token .cancelled
  | .store token _ => leaveFill token .cancelled
  | _ => .inr .cancelled

/-- Where a call of `get_or_set` is suspended: at the reads of the key and of its legacy keys, at the Future of
another call, in a fill (with its own Future under single-flight), or nowhere any more. -/
inductive Point (T E : Type) where
  | lookup
  | joins (waiter : ℕ)
  | fills (waiter : Option ℕ) (point : FillPoint T E)
  | finished (outcome : Outcome T E)
deriving DecidableEq

/-- Where the answer of a call is to come from; the code does not store it. -/
inductive Origin (T : Type) where
  | undecided
  | cached (value : T)
  | unreadable
  | fill (owner : ℕ)
deriving DecidableEq

/-- A call of `get_or_set`. `mustCancel` is a cancellation that is still to be raised; `requested`, `origin` and
`filled` are the history of the call: whether it has been cancelled before it was done, where its answer comes
from, and what its own fill has ended with. -/
structure Call (T E : Type) where
  policy : CachePolicy
  point : Point T E := .lookup
  mustCancel : Bool := false
  requested : Bool := false
  origin : Origin T := .undecided
  filled : Option (Outcome T E) := none
deriving DecidableEq

/-- The calls on one key, the Futures they have created (`none` is pending) and the entry of `_inflight`. `owner`
is the call that has created a Future. -/
structure CacheState (T E : Type) where
  call : ℕ → Option (Call T E) := fun _ ↦ none
  started : List ℕ := []
  future : ℕ → Option (Outcome T E) := fun _ ↦ none
  futures : ℕ := 0
  owner : ℕ → ℕ := fun _ ↦ 0
  inflight : Option ℕ := none

/-- A call is made, a task takes its turn, or a task is cancelled. -/
inductive CallEvent (T E : Type) where
  | starts (id : ℕ) (policy : CachePolicy)
  | turn (id : ℕ) (answer : Answer T E)
  | cancels (id : ℕ)

/-- A fill goes on: a pending cancellation is raised, unless the factory catches it and goes on itself. -/
def Call.resume (c : Call T E) (point : FillPoint T E) (answer : Answer T E) :
    Option (FillPoint T E ⊕ Outcome T E) :=
  if c.mustCancel then
    match point, answer with
    | .factory token, .made result => (FillPoint.factory token).resume c.policy (.made result)
    | _, _ => some point.cancel
  else point.resume c.policy answer

def Call.finish (c : Call T E) (outcome : Outcome T E) : Call T E :=
  { c with point := .finished outcome, mustCancel := false }

namespace CacheState

def put (s : CacheState T E) (id : ℕ) (c : Call T E) : CacheState T E :=
  { s with call := update s.call id (some c) }

/-- A call that has found nothing in the cache: without single-flight it fills the cache by itself, under
single-flight it awaits the Future in `_inflight` or puts a new one there. -/
def misses (s : CacheState T E) (id : ℕ) (c : Call T E) : CacheState T E :=
  if c.policy.singleflight then
    match s.inflight with
    | some waiter =>
      let joined := { c with origin := .fill (s.owner waiter) }
      match s.future waiter with
      | none => s.put id { joined with point := .joins waiter }
      | some outcome => s.put id (joined.finish outcome)
    | none =>
      { s.put id { c with point := .fills (some s.futures) .acquireLock, origin := .fill id } with
        inflight := some s.futures
        owner := update s.owner s.futures id
        futures := s.futures + 1 }
  else s.put id { c with point := .fills none (.factory false), origin := .fill id }

def looksUp (s : CacheState T E) (id : ℕ) (c : Call T E) (answer : Answer T E) : CacheState T E :=
  if c.mustCancel then s.put id (c.finish .cancelled)
  else
    match answer with
    | .read (some value) => s.put id ({ c with origin := .cached value }.finish (.returned (some value)))
    | .read none => s.misses id c
    | .redisError =>
      match c.policy.failMode with
      | .failOpen => s.misses id c
      | .failClosed => s.put id ({ c with origin := .unreadable }.finish (.raised .cache))
    | _ => s

/-- The end of a call whose fill has ended: `set_result` raises on a Future that is done, an exception is passed
on to a pending Future, and `CancelledError` is not an `Exception`. -/
def fillEnds (s : CacheState T E) (id : ℕ) (c : Call T E) (waiter : ℕ) (outcome : Outcome T E) :
    CacheState T E :=
  let ended := { c with filled := some outcome }
  match outcome, s.future waiter with
  | .returned value, none =>
    { s.put id (ended.finish (.returned value)) with
      future := update s.future waiter (some (.returned value))
      inflight := none }
  | .returned _, some _ => { s.put id (ended.finish (.raised .invalidState)) with inflight := none }
  | .raised exc, none =>
    { s.put id (ended.finish (.raised exc)) with
      future := update s.future waiter (some (.raised exc))
      inflight := none }
  | .raised exc, some _ => { s.put id (ended.finish (.raised exc)) with inflight := none }
  | .cancelled, _ => { s.put id (ended.finish .cancelled) with inflight := none }

def turn (s : CacheState T E) (id : ℕ) (c : Call T E) (answer : Answer T E) : CacheState T E :=
  match c.point with
  | .lookup => s.looksUp id c answer
  | .joins waiter =>
    match s.future waiter with
    | none => s
    | some outcome => s.put id (c.finish (if c.mustCancel then .cancelled else outcome))
  | .fills waiter point =>
    match c.resume point answer with
    | none => s
    | some (.inl next) => s.put id { c with point := .fills waiter next, mustCancel := false }
    | some (.inr outcome) =>
      match waiter with
      | none => s.put id ({ c with filled := some outcome }.finish outcome)
      | some waiter => s.fillEnds id c waiter outcome
  | .finished _ => s

def cancel (s : CacheState T E) (id : ℕ) (c : Call T E) : CacheState T E :=
  match c.point with
  | .finished _ => s
  | .joins waiter =>
    match s.future waiter with
    | none =>
      { s.put id { c with requested := true } with
        future := update s.future waiter (some .cancelled) }
    | some _ => s.put id { c with mustCancel := true, requested := true }
  | _ => s.put id { c with mustCancel := true, requested := true }

/-- An event; nothing happens when a call is made under a number that is taken, or when there is no such call. -/
def step (s : CacheState T E) : CallEvent T E → CacheState T E
  | .starts id policy =>
    match s.call id with
    | none => { s.put id { policy := policy } with started := id :: s.started }
    | some _ => s
  | .turn id answer =>
    match s.call id with
    | none => s
    | some c => s.turn id c answer
  | .cancels id =>
    match s.call id with
    | none => s
    | some c => s.cancel id c

end CacheState

end ContentGenerator.Core
