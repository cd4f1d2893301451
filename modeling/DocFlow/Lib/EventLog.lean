import Mathlib.Data.List.Basic

/-!
# Keyed event logs

A log is a list of events, oldest first; a `Projection` says under which key an event is filed
and what it does to the value under that key.  `eventsAt` selects the events of a key, `value` folds
them.

* `value_concat` is the rule for one more event: only the value under its key changes.
* `FirstThen first later` is the shape of a life: nothing, or one event that satisfies `first` and
  then only events that satisfy `later`.
-/

namespace DocFlow

universe u v w

/-- How the events of a log determine the value under each key. -/
structure Projection (ε : Type u) (κ : Type v) (σ : Type w) where
  key : ε → κ
  apply : Option σ → ε → Option σ

namespace Projection

variable {ε : Type u} {κ : Type v} {σ : Type w} [DecidableEq κ]

/-- The events filed under a key. -/
def eventsAt (P : Projection ε κ σ) (log : List ε) (k : κ) : List ε := log.filter fun e => P.key e = k

/-- The value under a key: its events, folded in order. -/
def value (P : Projection ε κ σ) (log : List ε) (k : κ) : Option σ :=
  (P.eventsAt log k).foldl P.apply none

variable {P : Projection ε κ σ} {log : List ε} {k : κ} {e : ε}

@[simp] theorem eventsAt_nil : P.eventsAt [] k = [] := rfl

@[simp] theorem value_nil : P.value [] k = none := rfl

theorem eventsAt_concat_self (h : P.key e = k) : P.eventsAt (log ++ [e]) k = P.eventsAt log k ++ [e] := by
  simp [eventsAt, h]

theorem eventsAt_concat_ne (h : P.key e ≠ k) : P.eventsAt (log ++ [e]) k = P.eventsAt log k := by
  simp [eventsAt, h]

/-- **One more event** is applied to the value under its key. -/
theorem value_concat_self (h : P.key e = k) :
    P.value (log ++ [e]) k = P.apply (P.value log k) e := by
  rw [value, eventsAt_concat_self h, List.foldl_append]
  rfl

/-- **One more event** leaves the other keys alone. -/
theorem value_concat_ne (h : P.key e ≠ k) : P.value (log ++ [e]) k = P.value log k := by
  rw [value, eventsAt_concat_ne h, value]

end Projection

/-! ## Lives -/

/-- Nothing, or one event that satisfies `first` and then only events that satisfy `later`. -/
inductive FirstThen {ε : Type u} (first later : ε → Prop) : List ε → Prop
  | nil : FirstThen first later []
  | cons {e : ε} {es : List ε} : first e → (∀ x ∈ es, later x) → FirstThen first later (e :: es)

namespace FirstThen

variable {ε : Type u} {first later : ε → Prop} {es : List ε} {e : ε}

theorem concat (h : FirstThen first later es) (hfirst : es = [] → first e)
    (hlater : es ≠ [] → later e) : FirstThen first later (es ++ [e]) := by
  cases h with
  | nil => exact .cons (hfirst rfl) (by simp)
  | cons hf hl =>
    refine .cons hf fun x hx => ?_
    rcases List.mem_append.mp hx with hx | hx
    · exact hl x hx
    · rw [List.mem_singleton.mp hx]
      exact hlater (by simp)

end FirstThen

end DocFlow
