import Mathlib.Init

/-!
# Graphs of nodes that pass a state on

`Run ω ε` is a computation that changes a world and may raise; what it has changed stays when it raises.
`Meets` are the pre- and postconditions of a run, one for its result and one for its exception, with a
rule for each way to put runs together.

A `StateGraph` runs one node after the other and takes the edge that its state selects, up to a limit of
nodes.
-/

namespace DocFlow

universe u

/-! ## Runs -/

/-- A computation on a world that may raise. -/
abbrev Run (ω ε α : Type) := ExceptT ε (StateM ω) α

namespace Run

variable {ω ε α β : Type}

/-- How a run ends, and the world it leaves. -/
def exec (x : Run ω ε α) (w : ω) : Except ε α × ω := x w

def raise (e : ε) : Run ω ε α := fun w => (.error e, w)

@[simp] theorem exec_pure (a : α) (w : ω) : (pure a : Run ω ε α).exec w = (.ok a, w) := rfl

@[simp] theorem exec_raise (e : ε) (w : ω) : (raise e : Run ω ε α).exec w = (.error e, w) := rfl

theorem exec_bind (x : Run ω ε α) (f : α → Run ω ε β) (w : ω) :
    (x >>= f).exec w = match x.exec w with
      | (.ok a, w') => (f a).exec w'
      | (.error e, w') => (.error e, w') := by
  show (ExceptT.bindCont f (x w).1 (x w).2) = _
  rw [exec]
  rcases x w with ⟨_ | _, w'⟩ <;> rfl

theorem exec_bind_of_ok {x : Run ω ε α} {f : α → Run ω ε β} {w w' : ω} {a : α}
    (h : x.exec w = (.ok a, w')) : (x >>= f).exec w = (f a).exec w' := by
  rw [exec_bind, h]

theorem exec_bind_of_error {x : Run ω ε α} {f : α → Run ω ε β} {w w' : ω} {e : ε}
    (h : x.exec w = (.error e, w')) : (x >>= f).exec w = (.error e, w') := by
  rw [exec_bind, h]

/-- What an option gives, or this exception. -/
def orElse (x : Option α) (e : ε) : Run ω ε α :=
  match x with
  | some a => pure a
  | none => raise e

@[simp] theorem orElse_some (a : α) (e : ε) : (orElse (some a) e : Run ω ε α) = pure a := rfl

/-! ## Conditions -/

/-- `ok` holds of the result and the world left, or `err` of the exception and the world left. -/
def Meets (x : Run ω ε α) (w : ω) (ok : α → ω → Prop) (err : ε → ω → Prop) : Prop :=
  match x.exec w with
  | (.ok a, w') => ok a w'
  | (.error e, w') => err e w'

section Rules

variable {x : Run ω ε α} {f : α → Run ω ε β} {w : ω} {ok ok' : α → ω → Prop} {err err' : ε → ω → Prop}

theorem meets_of_ok {a : α} {w' : ω} (h : x.exec w = (.ok a, w')) (hok : ok a w') :
    x.Meets w ok err := by
  rw [Meets, h]
  exact hok

theorem meets_of_error {e : ε} {w' : ω} (h : x.exec w = (.error e, w')) (herr : err e w') :
    x.Meets w ok err := by
  rw [Meets, h]
  exact herr

theorem meets_pure {a : α} (h : ok a w) : (pure a : Run ω ε α).Meets w ok err :=
  meets_of_ok (exec_pure a w) h

theorem meets_raise {e : ε} (h : err e w) : (raise e : Run ω ε α).Meets w ok err :=
  meets_of_error (exec_raise e w) h

theorem Meets.mono (h : x.Meets w ok err) (hok : ∀ a w', ok a w' → ok' a w')
    (herr : ∀ e w', err e w' → err' e w') : x.Meets w ok' err' := by
  rw [Meets] at h ⊢
  split at h
  · exact hok _ _ h
  · exact herr _ _ h

/-- **One run after the other.** -/
theorem meets_bind {ok' : β → ω → Prop} (hx : x.Meets w ok err)
    (hf : ∀ a w', ok a w' → (f a).Meets w' ok' err) : (x >>= f).Meets w ok' err := by
  rw [Meets] at hx
  split at hx
  · next a w' h =>
    rw [Meets, exec_bind_of_ok h]
    exact hf a w' hx
  · next e w' h => exact meets_of_error (exec_bind_of_error h) hx

/-- A condition on the end and the world left. -/
theorem meets_iff {P : Except ε α → ω → Prop} :
    x.Meets w (fun a => P (.ok a)) (fun e => P (.error e)) ↔ P (x.exec w).1 (x.exec w).2 := by
  rw [Meets]
  rcases x.exec w with ⟨_ | _, w'⟩ <;> rfl

theorem meets_orElse {o : Option α} {e : ε} (hok : ∀ a, o = some a → ok a w)
    (herr : o = none → err e w) : (orElse o e : Run ω ε α).Meets w ok err := by
  cases o with
  | none => exact meets_raise (herr rfl)
  | some a => exact meets_pure (hok a rfl)

end Rules

end Run

/-! ## Graphs -/

/-- The nodes of a graph, and the edges; `none` is the end. -/
structure StateGraph (N S : Type) (m : Type → Type) where
  entry : N
  node : N → S → m S
  next : N → S → m (Option N)

namespace StateGraph

variable {N S : Type} {m : Type → Type} [Monad m]

/-- At most `fuel` nodes from this one on. -/
def run (G : StateGraph N S m) (limit : m S) : Nat → N → S → m S
  | 0, _, _ => limit
  | fuel + 1, n, s => do
    let s ← G.node n s
    match ← G.next n s with
    | none => pure s
    | some n => G.run limit fuel n s

/-- One node, and what its edges lead to. -/
theorem run_succ (G : StateGraph N S m) (limit : m S) (fuel : Nat) (n : N) (s : S) :
    G.run limit (fuel + 1) n s = (G.node n s >>= fun s => G.next n s >>= fun
      | none => pure s
      | some n => G.run limit fuel n s) := rfl

end StateGraph

end DocFlow
