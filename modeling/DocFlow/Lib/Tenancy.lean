import DocFlow.Lib.Machine
import Mathlib.Data.List.Infix

/-!
# Tenancies of a slot

A slot has one tenant at a time.  The tenant can be put out without being told; it learns of it when
it leaves.  `Slot.log` has the events of a slot, the last one first.

* `Orderly`: who leaves undisturbed is the one the slot was last granted to.
* `orderly_of_reachable` is the rule for a slot, `Lets.orderly` the one for a machine that lets slots.
* `Orderly.alone`: between the grant and an undisturbed leave there is no other grant.
-/

namespace DocFlow.Tenancy

universe u v w

inductive Event (T : Type u)
  | granted (t : T)
  | left (t : T) (undisturbed : Bool)
deriving DecidableEq

structure Slot (T : Type u) where
  tenant : Option T
  log : List (Event T)

inductive SlotAction (T : Type u)
  | grant (t : T)
  /-- the tenant is put out -/
  | evict
  | leave (t : T)

variable {T : Type u} [DecidableEq T]

def Slot.step (s : Slot T) : SlotAction T → Option (Slot T)
  | .grant t => if s.tenant = none then some ⟨some t, .granted t :: s.log⟩ else none
  | .evict => some { s with tenant := none }
  | .leave t => some
    { tenant := if s.tenant = some t then none else s.tenant
      log := .left t (decide (s.tenant = some t)) :: s.log }

/-- A slot that has never been let. -/
def Slot.vacant : Slot T := ⟨none, []⟩

def slots (T : Type u) [DecidableEq T] : Machine (Slot T) (SlotAction T) :=
  ⟨fun s => s = .vacant, Slot.step⟩

/-! ## The last grant -/

/-- The one that the slot was last granted to. -/
def lastGranted : List (Event T) → Option T
  | [] => none
  | .granted t :: _ => some t
  | .left _ _ :: log => lastGranted log

omit [DecidableEq T] in
/-- The last grant, and what has been logged since. -/
theorem split_lastGranted {log : List (Event T)} {t : T} (h : lastGranted log = some t) :
    ∃ between older, log = between ++ .granted t :: older ∧ ∀ u, Event.granted u ∉ between := by
  induction log with
  | nil => cases h
  | cons e log ih =>
    cases e with
    | granted u =>
      obtain rfl := Option.some.inj h
      exact ⟨[], log, rfl, fun _ => List.not_mem_nil⟩
    | left u undisturbed =>
      obtain ⟨between, older, rfl, hnone⟩ := ih h
      refine ⟨.left u undisturbed :: between, older, rfl, fun x hx => ?_⟩
      exact hnone x ((List.mem_cons.mp hx).resolve_left fun he => nomatch he)

/-- Who leaves undisturbed is the one that the slot was last granted to. -/
def Orderly (log : List (Event T)) : Prop :=
  ∀ t older, Event.left t true :: older <:+ log → lastGranted older = some t

omit [DecidableEq T] in
theorem orderly_nil : Orderly ([] : List (Event T)) := by
  intro t older h
  cases List.suffix_nil.mp h

omit [DecidableEq T] in
theorem Orderly.cons {log : List (Event T)} (h : Orderly log) {e : Event T}
    (he : ∀ t, e = .left t true → lastGranted log = some t) : Orderly (e :: log) := by
  intro t older hsuffix
  rcases List.suffix_cons_iff.mp hsuffix with heq | hsuffix
  · obtain ⟨rfl, rfl⟩ := List.cons.inj heq
    exact he t rfl
  · exact h t older hsuffix

omit [DecidableEq T] in
/-- **Between its grant and an undisturbed leave a tenant is alone.** -/
theorem Orderly.alone {log : List (Event T)} (h : Orderly log) {t : T}
    (hleft : Event.left t true ∈ log) :
    ∃ newer between older, log = newer ++ .left t true :: (between ++ .granted t :: older) ∧
      ∀ u, Event.granted u ∉ between := by
  obtain ⟨newer, rest, rfl⟩ := List.append_of_mem hleft
  obtain ⟨between, older, rfl, hnone⟩ := split_lastGranted (h t rest (List.suffix_append _ _))
  exact ⟨newer, between, older, rfl, hnone⟩

/-! ## Runs -/

/-- The tenant is the one that the slot was last granted to. -/
structure Slot.Kept (s : Slot T) : Prop where
  tenant : ∀ t, s.tenant = some t → lastGranted s.log = some t
  orderly : Orderly s.log

theorem Slot.Kept.step {s s' : Slot T} (h : s.Kept) {a : SlotAction T} (hs : s.step a = some s') :
    s'.Kept := by
  cases a with
  | grant t =>
    rw [Slot.step] at hs
    split at hs
    · obtain rfl := Option.some.inj hs
      exact ⟨fun u hu => hu, h.orderly.cons fun u hu => (nomatch hu)⟩
    · cases hs
  | evict =>
    obtain rfl := Option.some.inj hs
    exact ⟨fun t (ht : none = some t) => (nomatch ht), h.orderly⟩
  | leave t =>
    obtain rfl := Option.some.inj hs
    refine ⟨fun u hu => ?_, h.orderly.cons fun u hu => ?_⟩
    · by_cases ht : s.tenant = some t
      · rw [if_pos ht] at hu
        cases hu
      · rw [if_neg ht] at hu
        exact h.tenant u hu
    · obtain ⟨rfl, hflag⟩ := Event.left.inj hu
      exact h.tenant t (of_decide_eq_true hflag)

/-- **Every run of a slot is orderly.** -/
theorem kept_of_reachable {s : Slot T} (hs : (slots T).Reachable s) : s.Kept := by
  refine Machine.ReachableVia.invariant (P := Slot.Kept) ?_ ?_ hs
  · rintro _ rfl
    exact ⟨fun t (ht : none = some t) => (nomatch ht), orderly_nil⟩
  · exact fun s a s' _ h _ hstep => h.step hstep

/-! ## Machines that let slots -/

/-- Every step of the machine is a run of the slot. -/
structure Lets {σ : Type v} {α : Type w} (M : Machine σ α) (slot : σ → Slot T) : Prop where
  init : ∀ s, M.init s → slot s = .vacant
  step : ∀ s a s', M.Reachable s → M.step s a = some s' →
    ∃ bs, (slots T).run (slot s) bs = some (slot s')

/-- **A machine that lets a slot keeps it orderly.** -/
theorem Lets.orderly {σ : Type v} {α : Type w} {M : Machine σ α} {slot : σ → Slot T}
    (h : Lets M slot) {s : σ} (hs : M.Reachable s) : Orderly (slot s).log := by
  have hsim : Simulation M (slots T) slot (fun _ _ => True) fun _ _ => True := by
    refine ⟨h.init, fun s a s' hr _ hstep => ?_⟩
    obtain ⟨bs, hbs⟩ := h.step s a s' hr hstep
    exact ⟨bs, .of_run hbs⟩
  exact (kept_of_reachable (hsim.reachable hs)).orderly

section Steps

variable {s s' : Slot T} {t : T}

theorem slots_nil (h : s' = s) : ∃ bs, (slots T).run s bs = some s' := ⟨[], by rw [h]; rfl⟩

theorem slots_grant (hfree : s.tenant = none) (h : s' = ⟨some t, .granted t :: s.log⟩) :
    ∃ bs, (slots T).run s bs = some s' := by
  refine ⟨[.grant t], ?_⟩
  rw [Machine.run_cons]
  refine ⟨s', ?_, rfl⟩
  rw [h]
  exact if_pos hfree

theorem slots_evict (h : s' = ⟨none, s.log⟩) : ∃ bs, (slots T).run s bs = some s' :=
  ⟨[.evict], by rw [h]; rfl⟩

/-- The tenant leaves, and the slot is free. -/
theorem slots_leave (htenant : s.tenant = some t) (h : s' = ⟨none, .left t true :: s.log⟩) :
    ∃ bs, (slots T).run s bs = some s' := by
  refine ⟨[.leave t], Machine.run_cons.mpr ⟨s', ?_, rfl⟩⟩
  rw [h]
  show some _ = _
  rw [if_pos htenant, decide_eq_true htenant]

/-- One leaves that has been put out. -/
theorem slots_leave_late (htenant : s.tenant ≠ some t)
    (h : s' = ⟨s.tenant, .left t false :: s.log⟩) : ∃ bs, (slots T).run s bs = some s' := by
  refine ⟨[.leave t], Machine.run_cons.mpr ⟨s', ?_, rfl⟩⟩
  rw [h]
  show some _ = _
  rw [if_neg htenant, decide_eq_false htenant]

/-- The tenant is put out, and then leaves. -/
theorem slots_evict_leave (h : s' = ⟨none, .left t false :: s.log⟩) :
    ∃ bs, (slots T).run s bs = some s' := by
  obtain ⟨bs, hbs⟩ := slots_leave_late (s := ⟨none, s.log⟩) (t := t) nofun h
  exact ⟨.evict :: bs, Machine.run_cons.mpr ⟨_, rfl, hbs⟩⟩

end Steps

end DocFlow.Tenancy
