import DocFlow.Lib.Machine

/-!
# A task that awaits a shield

One task runs a coroutine beside an inner future.  The coroutine awaits `asyncio.shield(inner)` as often
as it likes and may look at the state of the inner future.  The loop calls what is ready in order; at
any moment the inner future may finish and the task may be asked to cancel.

`shield` gives the inner future itself when that is done, else an outer future that is told when the
inner one is done.  A request to cancel goes to the future that the task waits for; when that is done
already, or the task waits for none, the error is thrown at its next step.
-/

namespace DocFlow.Asyncio

variable {κ ν ε ω : Type}

inductive Outcome (ν ε : Type)
  | result (value : ν)
  | exception (error : ε)
  | cancelled
deriving DecidableEq

def Outcome.isCancelled : Outcome ν ε → Bool
  | .cancelled => true
  | _ => false

inductive Fut
  | inner
  /-- the outer future of the nth shield -/
  | shield (n : Nat)
deriving DecidableEq

/-- A callback of a future; the loop calls it when the future is done. -/
inductive Handle
  /-- `_inner_done_callback` of the nth shield -/
  | innerDone (n : Nat)
  /-- `_outer_done_callback` of the nth shield -/
  | outerDone (n : Nat)
  /-- `Task.__wakeup`, with the future that is done -/
  | wakeup (f : Fut)
deriving DecidableEq

structure Future (ν ε : Type) where
  outcome : Option (Outcome ν ε)
  callbacks : List Handle

/-- What a coroutine does at a point, and where it goes on. -/
inductive Op (κ ν ε ω : Type)
  /-- `await asyncio.shield(inner)` -/
  | awaitShield (next : Outcome ν ε → κ)
  /-- `inner.done()`, `inner.cancelled()`, `inner.exception()` -/
  | inspect (next : Option (Outcome ν ε) → κ)
  | finish (w : ω)

inductive Mode
  | running
  /-- `_fut_waiter` -/
  | waiting (f : Fut)
  | ended
deriving DecidableEq

structure Loop (κ ν ε : Type) where
  inner : Future ν ε
  shields : List (Future ν ε)
  ready : List Handle
  mode : Mode
  /-- where the coroutine stands -/
  point : κ
  mustCancel : Bool
  /-- the futures that a request has gone to -/
  requested : List Fut
  /-- whether a request has come to the coroutine as an error -/
  delivered : Bool

namespace Loop

def start (entry : κ) (first : Option (Outcome ν ε)) (mustCancel : Bool) : Loop κ ν ε :=
  { inner := ⟨first, []⟩, shields := [], ready := [], mode := .running, point := entry, mustCancel,
    requested := [], delivered := false }

/-! ## Futures -/

def outcome? (s : Loop κ ν ε) : Fut → Option (Outcome ν ε)
  | .inner => s.inner.outcome
  | .shield n => (s.shields[n]?).bind Future.outcome

/-- An outer future is done: its callbacks are scheduled. -/
def settle (s : Loop κ ν ε) (n : Nat) (o : Outcome ν ε) : Loop κ ν ε :=
  match s.shields[n]? with
  | some outer =>
    { s with shields := s.shields.set n ⟨some o, []⟩, ready := s.ready ++ outer.callbacks }
  | none => s

def addCallback (s : Loop κ ν ε) (h : Handle) : Fut → Loop κ ν ε
  | .inner => { s with inner := { s.inner with callbacks := s.inner.callbacks ++ [h] } }
  | .shield n =>
    match s.shields[n]? with
    | some outer =>
      { s with shields := s.shields.set n { outer with callbacks := outer.callbacks ++ [h] } }
    | none => s

/-- `Future.cancel()`, when it answers `True`.  What an inner task makes of it is left open. -/
def cancelFuture (s : Loop κ ν ε) (f : Fut) : Option (Loop κ ν ε) :=
  if (s.outcome? f).isSome then none
  else match f with
    | .inner => some { s with requested := .inner :: s.requested }
    | .shield n => some (settle { s with requested := .shield n :: s.requested } n .cancelled)

/-- `Task.cancel()`. -/
def cancel (s : Loop κ ν ε) : Loop κ ν ε :=
  match s.mode with
  | .waiting f => (s.cancelFuture f).getD { s with mustCancel := true }
  | _ => { s with mustCancel := true }

/-- `asyncio.shield(inner)`. -/
def shield (s : Loop κ ν ε) : Loop κ ν ε × Fut :=
  if s.inner.outcome.isSome then (s, .inner)
  else ({ s with
    inner := { s.inner with callbacks := s.inner.callbacks ++ [.innerDone s.shields.length] }
    shields := s.shields ++ [⟨none, [.outerDone s.shields.length]⟩] }, .shield s.shields.length)

/-! ## The task -/

/-- `await f`: the future is yielded unless it is done. -/
def await (s : Loop κ ν ε) (f : Fut) (next : Outcome ν ε → κ) : Loop κ ν ε :=
  match s.outcome? f with
  | some o => { s with point := next o }
  | none =>
    let waiting := { s.addCallback (.wakeup f) f with mode := .waiting f }
    if s.mustCancel then
      match waiting.cancelFuture f with
      | some cancelled => { cancelled with mustCancel := false }
      | none => waiting
    else waiting

/-- `Task.__wakeup` and `Task.__step`: the coroutine goes on with the outcome, or with the error that a
request has left. -/
def wakeup (op : κ → Op κ ν ε ω) (s : Loop κ ν ε) (f : Fut) : Loop κ ν ε :=
  match op s.point, s.outcome? f with
  | .awaitShield next, some o =>
    { s with
      mode := .running
      point := next (if s.mustCancel then .cancelled else o)
      mustCancel := false
      delivered := s.delivered || s.mustCancel || (o.isCancelled && decide (f ∈ s.requested)) }
  | _, _ => s

def execute (op : κ → Op κ ν ε ω) (s : Loop κ ν ε) : Loop κ ν ε :=
  match op s.point with
  | .awaitShield next => s.shield.1.await s.shield.2 next
  | .inspect next => { s with point := next s.inner.outcome }
  | .finish _ => { s with mode := .ended }

def call (op : κ → Op κ ν ε ω) (s : Loop κ ν ε) : Handle → Loop κ ν ε
  | .innerDone n =>
    match s.outcome? (.shield n), s.inner.outcome with
    | none, some o => s.settle n o
    | _, _ => s
  | .outerDone n =>
    if s.inner.outcome.isSome then s
    else { s with
      inner := { s.inner with callbacks := s.inner.callbacks.filter (· ≠ .innerDone n) } }
  | .wakeup f => s.wakeup op f

end Loop

/-! ## Runs -/

inductive LoopAction (ν ε : Type)
  /-- the next operation of the coroutine, or the next call of the loop -/
  | own
  /-- a request to cancel the task -/
  | cancel
  /-- the inner future is done -/
  | finish (o : Outcome ν ε)

def LoopAction.isOwn : LoopAction ν ε → Bool
  | .own => true
  | _ => false

/-- Requests and the end of the inner future may come between any two operations. -/
def step (op : κ → Op κ ν ε ω) (s : Loop κ ν ε) : LoopAction ν ε → Option (Loop κ ν ε)
  | .own =>
    match s.mode, s.ready with
    | .running, _ => some (s.execute op)
    | .waiting _, h :: ready => some ({ s with ready }.call op h)
    | _, _ => none
  | .cancel => if s.mode = .ended then none else some s.cancel
  | .finish o =>
    if s.inner.outcome.isSome then none
    else some { s with inner := ⟨some o, []⟩, ready := s.ready ++ s.inner.callbacks }

/-- The inner future may be done at the start, and a request may have been left. -/
def machine (op : κ → Op κ ν ε ω) (entry : κ) : Machine (Loop κ ν ε) (LoopAction ν ε) where
  init s := ∃ first mustCancel, s = Loop.start entry first mustCancel
  step := step op

/-- What the coroutine has handed back. -/
def handedBack (op : κ → Op κ ν ε ω) (s : Loop κ ν ε) : Option ω :=
  match s.mode, op s.point with
  | .ended, .finish w => some w
  | _, _ => none

end DocFlow.Asyncio
