import DocFlow.Lib.AsyncioProgress

/-!
# Waiting for side effects to come to rest

`await_side_effect_quiescence` runs an awaitable behind a shield.  When the caller is cancelled it goes
on waiting until the awaitable is done, however often the request is repeated, and only then ends with
`CancelledError`.

It tells a request from a cancellation of the awaitable itself by nothing but `task.done()`; the
assertion `Drains` says why that is enough.
-/

namespace DocFlow.TaskRuntime

open Asyncio

variable {ν ε : Type}

/-! ## The code -/

/-- How the call ends. -/
inductive Ending (ν ε : Type)
  /-- it returns the result, or raises the exception or `CancelledError` -/
  | yields (o : Outcome ν ε)
  /-- `task.exception()` of a task that is not done raises `InvalidStateError` -/
  | invalidState
deriving DecidableEq

inductive DrainPoint (ν ε : Type)
  /-- `return await asyncio.shield(task)` -/
  | enter
  /-- `while not task.done()` -/
  | loop
  /-- `await asyncio.shield(task)`, in the loop -/
  | drain
  /-- `if not task.cancelled()` -/
  | consume
  /-- `task.exception()` -/
  | exception
  | ended (e : Ending ν ε)
deriving DecidableEq

def awaitSideEffectQuiescence : DrainPoint ν ε → Op (DrainPoint ν ε) ν ε (Ending ν ε)
  | .enter => .awaitShield fun
    | .cancelled => .loop
    | o => .ended (.yields o)
  | .loop => .inspect fun task => if task.isSome then .consume else .drain
  | .drain => .awaitShield fun
    | .cancelled => .loop
    | .exception _ => .consume
    | .result _ => .loop
  | .consume => .inspect fun
    | some .cancelled => .ended (.yields .cancelled)
    | _ => .exception
  | .exception => .inspect fun
    | none => .ended .invalidState
    | some _ => .ended (.yields .cancelled)
  | .ended e => .finish e

abbrev quiescenceMachine (ν ε : Type) : Machine (Loop (DrainPoint ν ε) ν ε) (LoopAction ν ε) :=
  machine awaitSideEffectQuiescence .enter

/-! ## What holds at its points -/

/-- A cancellation that has been caught is a request, or the awaitable's own. -/
def Caught (task : Option (Outcome ν ε)) (delivered : Bool) : Prop :=
  delivered = true ∨ task = some .cancelled

/-- The end of a call. -/
def Faithful (task : Option (Outcome ν ε)) (delivered : Bool) (e : Ending ν ε) : Prop :=
  ∃ o, task = some o ∧ ∃ w, e = .yields w ∧ (delivered = false → w = o) ∧
    (delivered = true → w = .cancelled)

def Drains : DrainPoint ν ε → Option (Outcome ν ε) → Bool → Prop
  | .enter, _, delivered => delivered = false
  | .loop, task, delivered | .drain, task, delivered => Caught task delivered
  | .consume, task, delivered | .exception, task, delivered =>
    task.isSome = true ∧ Caught task delivered
  | .ended e, task, delivered => Faithful task delivered e

theorem caught_finishes {o : Outcome ν ε} {delivered : Bool}
    (h : Caught (none : Option (Outcome ν ε)) delivered) : Caught (some o) delivered := by
  rcases h with h | h
  · exact .inl h
  · cases h

/-- What has been caught is raised again. -/
theorem faithful_cancelled {task : Option (Outcome ν ε)} {delivered : Bool}
    (hdone : task.isSome = true) (h : Caught task delivered) :
    Faithful task delivered (.yields .cancelled) := by
  obtain ⟨o, rfl⟩ := Option.isSome_iff_exists.mp hdone
  refine ⟨o, rfl, .cancelled, rfl, fun hnot => ?_, fun _ => rfl⟩
  rcases h with h | h
  · rw [hnot] at h
    cases h
  · exact (Option.some.inj h).symm

theorem drains_enter (task : Option (Outcome ν ε)) : Drains .enter task false := rfl

theorem asserts_drains : Asserts awaitSideEffectQuiescence (Drains (ν := ν) (ε := ε)) where
  finishes p o d h := by
    cases p with
    | enter => exact h
    | loop => exact caught_finishes h
    | drain => exact caught_finishes h
    | consume => cases h.1
    | exception => cases h.1
    | ended e =>
      obtain ⟨o', ho', -⟩ := h
      cases ho'
  awaits p next o d hop h := by
    cases p with
    | enter =>
      cases hop
      have h : d = false := h
      subst h
      cases o with
      | cancelled => exact .inr rfl
      | result v => exact ⟨_, rfl, _, rfl, fun _ => rfl, fun hd => by cases hd⟩
      | exception e => exact ⟨_, rfl, _, rfl, fun _ => rfl, fun hd => by cases hd⟩
    | drain =>
      cases hop
      cases o with
      | cancelled => exact h
      | result v => exact h
      | exception e => exact ⟨rfl, h⟩
    | loop | consume | exception | ended e => cases hop
  delivers p next i d hop h := by
    cases p with
    | enter | drain =>
      cases hop
      exact .inl rfl
    | loop | consume | exception | ended e => cases hop
  inspects p next i d hop h := by
    cases p with
    | loop =>
      cases hop
      cases i with
      | none => exact h
      | some o => exact ⟨rfl, h⟩
    | consume =>
      cases hop
      obtain ⟨hdone, hcaught⟩ := h
      obtain ⟨o, rfl⟩ := Option.isSome_iff_exists.mp hdone
      cases o with
      | cancelled => exact faithful_cancelled rfl hcaught
      | result v => exact ⟨rfl, hcaught⟩
      | exception e => exact ⟨rfl, hcaught⟩
    | exception =>
      cases hop
      obtain ⟨hdone, hcaught⟩ := h
      obtain ⟨o, rfl⟩ := Option.isSome_iff_exists.mp hdone
      exact faithful_cancelled rfl hcaught
    | enter | drain | ended e => cases hop

/-- Once the awaitable is done, the points come in this order. -/
def drainRank : DrainPoint ν ε → Nat
  | .enter => 5
  | .drain => 4
  | .loop => 3
  | .consume => 2
  | .exception => 1
  | .ended _ => 0

theorem ranked_drainRank : Ranked awaitSideEffectQuiescence (drainRank (ν := ν) (ε := ε)) where
  awaits p next o hop := by
    cases p with
    | enter | drain =>
      cases hop
      cases o <;> simp [drainRank]
    | loop | consume | exception | ended e => cases hop
  inspects p next o hop := by
    cases p with
    | loop =>
      cases hop
      exact Nat.lt_succ_self 2
    | consume | exception =>
      cases hop
      cases o <;> simp [drainRank]
    | enter | drain | ended e => cases hop

/-! ## The call -/

theorem faithful_of_handedBack {s : Loop (DrainPoint ν ε) ν ε} {e : Ending ν ε}
    (h : (quiescenceMachine ν ε).Reachable s)
    (he : handedBack awaitSideEffectQuiescence s = some e) :
    Faithful s.inner.outcome s.delivered e := by
  have hpoint := (holds_of_reachable asserts_drains drains_enter h).point
  unfold handedBack at he
  split at he
  · next w _ hop =>
    cases hp : s.point with
    | ended e' =>
      rw [hp] at hop hpoint
      cases hop
      cases he
      exact hpoint
    | enter | loop | drain | consume | exception =>
      rw [hp] at hop
      cases hop
  · cases he

/-- **Cancellation is drained**: nothing is handed back before the awaitable is done, and then its own
outcome, or `CancelledError` when a request has been delivered.  No request goes to the awaitable.  Once
it is done, the call comes to its end, whatever else comes. -/
theorem cancellation_drained {s : Loop (DrainPoint ν ε) ν ε}
    (h : (quiescenceMachine ν ε).Reachable s) :
    (∀ e, handedBack awaitSideEffectQuiescence s = some e → ∃ o, s.inner.outcome = some o ∧
        ∃ w, e = .yields w ∧ (s.delivered = false → w = o) ∧
          (s.delivered = true → w = .cancelled)) ∧
      Fut.inner ∉ s.requested ∧
      (s.inner.outcome.isSome = true → ∃ bound, ∀ actions s',
        (quiescenceMachine ν ε).run s actions = some s' →
          actions.countP LoopAction.isOwn ≤ bound ∧
            (handedBack awaitSideEffectQuiescence s' = none →
              ((quiescenceMachine ν ε).step s' .own).isSome = true)) := by
  refine ⟨fun e he => faithful_of_handedBack h he, not_requested_inner h, fun hdone => ?_⟩
  obtain ⟨o, ho⟩ := Option.isSome_iff_exists.mp hdone
  refine ⟨remaining drainRank s, fun actions s' hrun => ?_⟩
  obtain ⟨hcount, hnext⟩ := ends_of_ranked ranked_drainRank h ho hrun
  refine ⟨hcount, fun hnone => hnext fun hended => ?_⟩
  obtain ⟨e, he⟩ :=
    (holds_of_reachable asserts_drains drains_enter (h.run hrun)).ended hended
  rw [handedBack, hended, he] at hnone
  cases hnone

/-- Two requests, and the awaitable ends after the second. -/
def twoRequests : List (LoopAction Nat Nat) :=
  [.own, .cancel, .own, .own, .own, .own, .cancel, .finish (.result 7), .own, .own, .own, .own, .own,
    .own]

theorem cancellation_drained_twoRequests : ∃ s : Loop (DrainPoint Nat Nat) Nat Nat,
    (quiescenceMachine Nat Nat).run (Loop.start .enter none false) twoRequests = some s ∧
      handedBack awaitSideEffectQuiescence s = some (.yields .cancelled) ∧
      s.delivered = true ∧ Fut.inner ∉ s.requested := by
  have hinit : (quiescenceMachine Nat Nat).Reachable (Loop.start .enter none false) :=
    .init ⟨none, false, rfl⟩
  have hback : ((quiescenceMachine Nat Nat).run (Loop.start .enter none false) twoRequests).map
      (fun s => (handedBack awaitSideEffectQuiescence s, s.delivered)) =
        some (some (.yields .cancelled), true) := by rfl
  obtain ⟨s, hrun, hs⟩ := Option.map_eq_some_iff.mp hback
  obtain ⟨hback, hdelivered⟩ := Prod.ext_iff.mp hs
  exact ⟨s, hrun, hback, hdelivered, (cancellation_drained (hinit.run hrun)).2.1⟩

end DocFlow.TaskRuntime
