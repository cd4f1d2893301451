import Mathlib.Logic.Basic

/-!
# Labelled machines and what holds along their runs

A `Machine` has initial states and a partial step function; an action carries
every choice the environment makes, so a run is a list of actions.

* `run` executes a list of actions, and `run_append` cuts a run in two.
* `ReachableVia ok` are the states reached by runs all of whose steps satisfy
  `ok`; `Reachable` asks nothing of the steps.
* `runWhile` executes a list of actions and checks `ok` on the way.
* `ReachableVia.invariant` is the induction rule, and `RunVia.preserves` the same
  rule for a run between two states.
* A `Simulation` maps the states of one machine to those of another so that each
  admitted step becomes an admitted run; `Simulation.reachable` carries every invariant back.
-/

namespace DocFlow

universe u v

/-- Initial states and a step function that answers `none` for an action that is
not enabled. -/
structure Machine (σ : Type u) (α : Type v) where
  init : σ → Prop
  step : σ → α → Option σ

namespace Machine

variable {σ : Type u} {α : Type v}

/-- Execute a list of actions. -/
def run (M : Machine σ α) : σ → List α → Option σ
  | s, [] => some s
  | s, a :: as => (M.step s a).bind fun s' => M.run s' as

variable {M : Machine σ α}

@[simp] theorem run_nil (s : σ) : M.run s [] = some s := rfl

theorem run_cons {s s' : σ} {a : α} {as : List α} :
    M.run s (a :: as) = some s' ↔ ∃ m, M.step s a = some m ∧ M.run m as = some s' := by
  simp [run, Option.bind_eq_some_iff]

theorem run_append {s s' : σ} {as bs : List α} :
    M.run s (as ++ bs) = some s' ↔ ∃ m, M.run s as = some m ∧ M.run m bs = some s' := by
  induction as generalizing s with
  | nil => simp
  | cons a as ih =>
    rw [List.cons_append, run_cons]
    constructor
    · rintro ⟨m, hm, h⟩
      obtain ⟨m', hm', h'⟩ := ih.mp h
      exact ⟨m', run_cons.mpr ⟨m, hm, hm'⟩, h'⟩
    · rintro ⟨m', hm', h'⟩
      obtain ⟨m, hm, h⟩ := run_cons.mp hm'
      exact ⟨m, hm, ih.mpr ⟨m', h, h'⟩⟩

/-! ## Reachable states -/

/-- The states reached from an initial one by steps that satisfy `ok`. -/
inductive ReachableVia (M : Machine σ α) (ok : σ → α → Prop) : σ → Prop
  | init {s : σ} : M.init s → ReachableVia M ok s
  | step {s s' : σ} {a : α} : ReachableVia M ok s → ok s a → M.step s a = some s' →
      ReachableVia M ok s'

/-- The states reached by any run. -/
abbrev Reachable (M : Machine σ α) : σ → Prop := M.ReachableVia fun _ _ => True

theorem ReachableVia.mono {ok ok' : σ → α → Prop} (h : ∀ s a, ok s a → ok' s a) {s : σ}
    (hs : M.ReachableVia ok s) : M.ReachableVia ok' s := by
  induction hs with
  | init hi => exact .init hi
  | step _ ha ht ih => exact .step ih (h _ _ ha) ht

theorem ReachableVia.reachable {ok : σ → α → Prop} {s : σ} (hs : M.ReachableVia ok s) :
    M.Reachable s := hs.mono fun _ _ _ => trivial

theorem Reachable.run {s s' : σ} {as : List α} (hs : M.Reachable s)
    (h : M.run s as = some s') : M.Reachable s' := by
  induction as generalizing s with
  | nil => cases h; exact hs
  | cons a as ih =>
    obtain ⟨m, hm, h⟩ := run_cons.mp h
    exact ih (.step hs trivial hm) h

/-- **The induction rule**: what holds at the start and survives every admitted
step holds in every state reached. -/
theorem ReachableVia.invariant {ok : σ → α → Prop} {P : σ → Prop}
    (init : ∀ s, M.init s → P s)
    (step : ∀ s a s', M.ReachableVia ok s → P s → ok s a → M.step s a = some s' → P s')
    {s : σ} (hs : M.ReachableVia ok s) : P s := by
  induction hs with
  | init hi => exact init _ hi
  | step hr ha ht ih => exact step _ _ _ hr ih ha ht

/-! ## Runs between two states -/

/-- A run whose steps all satisfy `ok`. -/
inductive RunVia (M : Machine σ α) (ok : σ → α → Prop) : σ → List α → σ → Prop
  | nil (s : σ) : RunVia M ok s [] s
  | cons {s m s' : σ} {a : α} {as : List α} : ok s a → M.step s a = some m →
      RunVia M ok m as s' → RunVia M ok s (a :: as) s'

theorem RunVia.of_run {s s' : σ} {as : List α} (h : M.run s as = some s') :
    M.RunVia (fun _ _ => True) s as s' := by
  induction as generalizing s with
  | nil => cases h; exact .nil _
  | cons a as ih =>
    obtain ⟨m, hm, h⟩ := run_cons.mp h
    exact .cons trivial hm (ih h)

theorem RunVia.run {ok : σ → α → Prop} {s s' : σ} {as : List α} (h : M.RunVia ok s as s') :
    M.run s as = some s' := by
  induction h with
  | nil => rfl
  | cons _ hm _ ih => exact run_cons.mpr ⟨_, hm, ih⟩

theorem RunVia.mono {ok ok' : σ → α → Prop} (h : ∀ s a, ok s a → ok' s a) {s s' : σ}
    {as : List α} (hrun : M.RunVia ok s as s') : M.RunVia ok' s as s' := by
  induction hrun with
  | nil => exact .nil _
  | cons ha hm _ ih => exact .cons (h _ _ ha) hm ih

/-- Execute a list of actions, checking each step. -/
def runWhile (M : Machine σ α) (ok : σ → α → Prop) [∀ s a, Decidable (ok s a)] :
    σ → List α → Option σ
  | s, [] => some s
  | s, a :: as => if ok s a then (M.step s a).bind fun s' => M.runWhile ok s' as else none

theorem RunVia.of_runWhile {ok : σ → α → Prop} [∀ s a, Decidable (ok s a)] {s s' : σ}
    {as : List α} (h : M.runWhile ok s as = some s') : M.RunVia ok s as s' := by
  induction as generalizing s with
  | nil => cases h; exact .nil _
  | cons a as ih =>
    simp only [runWhile] at h
    split at h
    · next hok =>
      obtain ⟨m, hm, h⟩ := Option.bind_eq_some_iff.mp h
      exact .cons hok hm (ih h)
    · cases h

theorem RunVia.reachableVia {ok : σ → α → Prop} {s s' : σ} {as : List α}
    (hs : M.ReachableVia ok s) (h : M.RunVia ok s as s') : M.ReachableVia ok s' := by
  induction h with
  | nil => exact hs
  | cons ha hm _ ih => exact ih (.step hs ha hm)

/-- **The run rule**: what every admitted step from a reachable state preserves,
a whole run preserves. -/
theorem RunVia.preserves {ok : σ → α → Prop} {P : σ → Prop}
    (step : ∀ s a s', M.ReachableVia ok s → P s → ok s a → M.step s a = some s' → P s')
    {s s' : σ} {as : List α} (hs : M.ReachableVia ok s) (h : M.RunVia ok s as s') (hP : P s) :
    P s' := by
  induction h with
  | nil => exact hP
  | cons ha hm _ ih => exact ih (.step hs ha hm) (step _ _ _ hs hP ha hm)

end Machine

/-! ## Simulations -/

universe u' v'

/-- `f` sends each state of `M` to a state of `N`, initial states to initial
states, and each admitted step taken from a state reached by admitted steps to an admitted run. -/
structure Simulation {σ : Type u} {α : Type v} {τ : Type u'} {β : Type v'}
    (M : Machine σ α) (N : Machine τ β) (f : σ → τ) (okM : σ → α → Prop) (okN : τ → β → Prop) :
    Prop where
  init : ∀ s, M.init s → N.init (f s)
  step : ∀ s a s', M.ReachableVia okM s → okM s a → M.step s a = some s' →
    ∃ bs, N.RunVia okN (f s) bs (f s')

/-- **Reachable states go to reachable states.** -/
theorem Simulation.reachable {σ : Type u} {α : Type v} {τ : Type u'} {β : Type v'}
    {M : Machine σ α} {N : Machine τ β} {f : σ → τ} {okM : σ → α → Prop} {okN : τ → β → Prop}
    (sim : Simulation M N f okM okN) {s : σ} (hs : M.ReachableVia okM s) :
    N.ReachableVia okN (f s) := by
  refine Machine.ReachableVia.invariant (P := fun s => N.ReachableVia okN (f s)) ?_ ?_ hs
  · exact fun s hi => .init (sim.init s hi)
  · intro s a s' hr hN hok hs
    obtain ⟨bs, hb⟩ := sim.step s a s' hr hok hs
    exact hb.reachableVia hN

end DocFlow
