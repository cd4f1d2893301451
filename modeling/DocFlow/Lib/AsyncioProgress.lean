import DocFlow.Lib.AsyncioRules

/-!
# A task that awaits shields comes to its end

A task that waits has its wakeup in store (`Live`): it is ready when the outer future is done, else it
is a callback of the outer future, which the inner future will tell.

`ends_of_ranked` is the rule for the end.  Once the inner future is done, no callback is added any more;
each step takes one away or lowers the rank of the point, and until the coroutine has ended there is a
step.
-/

namespace DocFlow.Asyncio

variable {κ ν ε ω : Type} {op : κ → Op κ ν ε ω} {entry : κ} {s s' : Loop κ ν ε}

/-! ## Wakeups -/

/-- The wakeup of a task that waits for the nth outer future. -/
structure Waits (s : Loop κ ν ε) (n : Nat) (outer : Future ν ε) : Prop where
  found : s.shields[n]? = some outer
  pending : outer.outcome = none → Handle.wakeup (.shield n) ∈ outer.callbacks
  told : outer.outcome = none → s.inner.outcome = none → Handle.innerDone n ∈ s.inner.callbacks
  ready : outer.outcome = none → s.inner.outcome ≠ none → Handle.innerDone n ∈ s.ready
  done : outer.outcome ≠ none → Handle.wakeup (.shield n) ∈ s.ready

structure Live (op : κ → Op κ ν ε ω) (s : Loop κ ν ε) : Prop where
  relays : ∀ c ∈ s.inner.callbacks, ∃ n, c = .innerDone n
  callbacks : ∀ (n : Nat) (outer : Future ν ε), s.shields[n]? = some outer → ∀ c ∈ outer.callbacks,
    c = .outerDone n ∨ c = .wakeup (.shield n)
  ready : ∀ n, (Handle.outerDone n ∈ s.ready ∨ Handle.wakeup (.shield n) ∈ s.ready) →
    s.outcome? (.shield n) ≠ none
  noInner : Handle.wakeup .inner ∉ s.ready
  waits : ∀ f, s.mode = .waiting f → ∃ n outer, f = .shield n ∧ Waits s n outer
  point : ∀ f, s.mode = .waiting f → ∃ next, op s.point = .awaitShield next

theorem Live.settle (h : Live op s) {n : Nat} {o : Outcome ν ε}
    (hpending : s.outcome? (.shield n) = none) : Live op (s.settle n o) := by
  cases hn : s.shields[n]? with
  | none =>
    have hsame : s.settle n o = s := by rw [Loop.settle, hn]
    rwa [hsame]
  | some old =>
    have hlt := (List.getElem?_eq_some_iff.mp hn).1
    have hold : old.outcome = none := by
      rw [Loop.outcome?, hn] at hpending
      exact hpending
    have hstate : s.settle n o = { s with
        shields := s.shields.set n ⟨some o, []⟩, ready := s.ready ++ old.callbacks } := by
      rw [Loop.settle, hn]
    have hself : (s.shields.set n ⟨some o, []⟩)[n]? = some ⟨some o, []⟩ :=
      List.getElem?_set_self hlt
    have hother : ∀ m, m ≠ n → (s.shields.set n ⟨some o, []⟩)[m]? = s.shields[m]? :=
      fun m hm => List.getElem?_set_ne (Ne.symm hm)
    rw [hstate]
    refine ⟨h.relays, fun m outer hm c hc => ?_, fun m hm => ?_, fun hm => ?_, fun f hf => ?_,
      h.point⟩
    · by_cases hmn : m = n
      · subst hmn
        rw [hself, Option.some.injEq] at hm
        rw [← hm] at hc
        cases hc
      · rw [hother m hmn] at hm
        exact h.callbacks m outer hm c hc
    · rw [Loop.outcome?]
      by_cases hmn : m = n
      · subst hmn
        rw [hself]
        simp
      · rw [hother m hmn]
        refine h.ready m ?_
        simp only [List.mem_append] at hm
        rcases hm with (hm | hm) | (hm | hm)
        · exact .inl hm
        · rcases h.callbacks n old hn _ hm with heq | heq
          · cases heq
            exact absurd rfl hmn
          · cases heq
        · exact .inr hm
        · rcases h.callbacks n old hn _ hm with heq | heq
          · cases heq
          · cases heq
            exact absurd rfl hmn
    · rcases List.mem_append.mp hm with hm | hm
      · exact h.noInner hm
      · rcases h.callbacks n old hn _ hm with heq | heq <;> cases heq
    · obtain ⟨m, outer, rfl, hw⟩ := h.waits f hf
      by_cases hmn : m = n
      · subst hmn
        refine ⟨m, ⟨some o, []⟩, rfl, hself, ?_, ?_, ?_, fun _ => ?_⟩
        · exact fun hnone => by cases hnone
        · exact fun hnone => by cases hnone
        · exact fun hnone => by cases hnone
        · have heq : outer = old := Option.some.inj (hw.found.symm.trans hn)
          exact List.mem_append_right _ (heq ▸ hw.pending (heq ▸ hold))
      · refine ⟨m, outer, rfl, (hother m hmn).trans hw.found, hw.pending, hw.told, ?_, ?_⟩
        · exact fun hnone hdone => List.mem_append_left _ (hw.ready hnone hdone)
        · exact fun hdone => List.mem_append_left _ (hw.done hdone)

theorem Live.request (h : Live op s) {n : Nat} (hpending : s.outcome? (.shield n) = none) :
    Live op (Loop.settle { s with requested := .shield n :: s.requested } n .cancelled) := by
  have hmarked : Live op { s with requested := .shield n :: s.requested } := by
    refine ⟨h.relays, h.callbacks, h.ready, h.noInner, fun f hf => ?_, h.point⟩
    obtain ⟨m, outer, hm, hw⟩ := h.waits f hf
    exact ⟨m, outer, hm, hw.found, hw.pending, hw.told, hw.ready, hw.done⟩
  exact hmarked.settle hpending

theorem cancelFuture_pending {n : Nat} (h : s.cancelFuture (.shield n) = some s') :
    s.outcome? (.shield n) = none := by
  unfold Loop.cancelFuture at h
  split at h
  · cases h
  · next hnone => exact Option.not_isSome_iff_eq_none.mp hnone

theorem Live.cancel (h : Live op s) : Live op s.cancel := by
  have hkept : Live op { s with mustCancel := true } := by
    refine ⟨h.relays, h.callbacks, h.ready, h.noInner, fun f hf => ?_, h.point⟩
    obtain ⟨m, outer, hm, hw⟩ := h.waits f hf
    exact ⟨m, outer, hm, hw.found, hw.pending, hw.told, hw.ready, hw.done⟩
  unfold Loop.cancel
  split
  · next f hf =>
    obtain ⟨n, outer, rfl, -⟩ := h.waits f hf
    cases hc : s.cancelFuture (.shield n) with
    | none => exact hkept
    | some s' =>
      rw [Option.getD_some, cancelFuture_shield hc]
      exact h.request (cancelFuture_pending hc)
  · exact hkept

/-- A running task needs no wakeup. -/
theorem Live.running (h : Live op s) (p : κ) (mustCancel delivered : Bool) (mode : Mode)
    (hmode : ∀ f, mode ≠ .waiting f) :
    Live op { s with mode, point := p, mustCancel, delivered } :=
  ⟨h.relays, h.callbacks, h.ready, h.noInner, fun f hf => absurd hf (hmode f),
    fun f hf => absurd hf (hmode f)⟩

/-- The task waits for a new outer future. -/
theorem Live.waiting (h : Live op s) {next : Outcome ν ε → κ} (hop : op s.point = .awaitShield next)
    (hi : s.inner.outcome = none) :
    Live op { s.shield.1.addCallback (.wakeup (.shield s.shields.length)) (.shield s.shields.length) with
      mode := .waiting (.shield s.shields.length) } := by
  have hstate : s.shield.1.addCallback (.wakeup (.shield s.shields.length))
      (.shield s.shields.length) = { s with
        inner := ⟨none, s.inner.callbacks ++ [.innerDone s.shields.length]⟩
        shields := s.shields ++ [⟨none, [.outerDone s.shields.length,
          .wakeup (.shield s.shields.length)]⟩] } := by
    rw [Loop.shield, hi]
    simp [Loop.addCallback, hi]
  have hlast : (s.shields ++ [⟨none, [.outerDone s.shields.length,
      .wakeup (.shield s.shields.length)]⟩])[s.shields.length]? = some (⟨none,
        [.outerDone s.shields.length, .wakeup (.shield s.shields.length)]⟩ : Future ν ε) := by
    simp
  have hin : ∀ (m : Nat) (outer : Future ν ε), s.shields[m]? = some outer → (s.shields ++ [⟨none,
      [.outerDone s.shields.length, .wakeup (.shield s.shields.length)]⟩])[m]? = some outer := by
    intro m outer hm
    rw [List.getElem?_append_left (List.getElem?_eq_some_iff.mp hm).1, hm]
  rw [hstate]
  refine ⟨fun c hc => ?_, fun m outer hm c hc => ?_, fun m hm => ?_, h.noInner, fun f hf => ?_,
    fun _ _ => ⟨next, hop⟩⟩
  · rcases List.mem_append.mp hc with hc | hc
    · exact h.relays c hc
    · exact ⟨_, List.mem_singleton.mp hc⟩
  · by_cases hlt : m < s.shields.length
    · rw [List.getElem?_append_left hlt] at hm
      exact h.callbacks m outer hm c hc
    · rw [List.getElem?_append_right (by omega), List.getElem?_singleton] at hm
      split at hm
      · next hzero =>
        have hmn : m = s.shields.length := by omega
        cases hm
        subst hmn
        simpa using hc
      · cases hm
  · have hdone := h.ready m hm
    rw [Loop.outcome?] at hdone ⊢
    cases hm : s.shields[m]? with
    | none =>
      rw [hm] at hdone
      exact absurd rfl hdone
    | some outer =>
      rw [hin m outer hm]
      rwa [hm] at hdone
  · cases hf
    refine ⟨_, _, rfl, hlast, fun _ => ?_, fun _ _ => ?_, fun _ hdone => ?_, fun hdone => ?_⟩
    · simp
    · simp
    · exact absurd rfl hdone
    · exact absurd rfl hdone

theorem Live.execute (h : Live op s) (hmode : s.mode = .running) : Live op (s.execute op) := by
  unfold Loop.execute
  split
  · next next hop =>
    cases hi : s.inner.outcome with
    | some o =>
      have hshield : s.shield = (s, .inner) := by rw [Loop.shield, hi]; rfl
      have hstate : s.shield.1.await s.shield.2 next = { s with point := next o } := by
        rw [hshield, Loop.await, Loop.outcome?, hi]
      rw [hstate]
      have hrunning := h.running (next o) s.mustCancel s.delivered .running (by simp)
      rwa [← hmode] at hrunning
    | none =>
      have hout : s.shield.1.outcome? (.shield s.shields.length) = none := by
        rw [← shield_snd hi, outcome?_shield, hi]
      have hwaiting := h.waiting hop hi
      rw [shield_snd hi]
      rcases await_of_none next hout with heq | heq
      · rw [heq]
        exact hwaiting
      · rw [heq]
        have hpending : Loop.outcome? { s.shield.1.addCallback
            (.wakeup (.shield s.shields.length)) (.shield s.shields.length) with
              mode := .waiting (.shield s.shields.length) } (.shield s.shields.length) = none := by
          rw [Loop.outcome?, Loop.shield, hi]
          simp [Loop.addCallback]
        have hlive := hwaiting.request hpending
        refine ⟨hlive.relays, hlive.callbacks, hlive.ready, hlive.noInner, fun f hf => ?_,
          hlive.point⟩
        obtain ⟨m, outer, hm, hw⟩ := hlive.waits f hf
        exact ⟨m, outer, hm, hw.found, hw.pending, hw.told, hw.ready, hw.done⟩
  · next next hop =>
    have hrunning := h.running (next s.inner.outcome) s.mustCancel s.delivered .running (by simp)
    rwa [← hmode] at hrunning
  · exact h.running s.point s.mustCancel s.delivered .ended (by simp)

/-! ## The calls of the loop -/

/-- A call is taken from the queue that the waiting task does not need. -/
theorem Live.pop (h : Live op s) {c : Handle} {ready : List Handle} (hready : s.ready = c :: ready)
    (hc : ∀ n outer, s.mode = .waiting (.shield n) → Waits s n outer →
      (outer.outcome = none → s.inner.outcome ≠ none → c ≠ .innerDone n) ∧
        (outer.outcome ≠ none → c ≠ .wakeup (.shield n))) :
    Live op { s with ready := ready } := by
  have hold : ∀ x ∈ ready, x ∈ s.ready := fun x hx => hready ▸ List.mem_cons_of_mem _ hx
  have hleft : ∀ x ∈ s.ready, x ≠ c → x ∈ ready := by
    intro x hx hne
    rw [hready] at hx
    exact (List.mem_cons.mp hx).resolve_left hne
  refine ⟨h.relays, h.callbacks, fun n hn => h.ready n ?_, fun hn => h.noInner (hold _ hn),
    fun f hf => ?_, h.point⟩
  · exact hn.imp (hold _) (hold _)
  · obtain ⟨n, outer, rfl, hw⟩ := h.waits f hf
    obtain ⟨hinner, hwakeup⟩ := hc n outer hf hw
    refine ⟨n, outer, rfl, hw.found, hw.pending, hw.told, fun hnone hdone => ?_, fun hdone => ?_⟩
    · exact hleft _ (hw.ready hnone hdone) (hinner hnone hdone).symm
    · exact hleft _ (hw.done hdone) (hwakeup hdone).symm

theorem settle_pop {ready : List Handle} (n : Nat) (o : Outcome ν ε) (c : Handle)
    (hready : s.ready = c :: ready) : ∃ ready', (s.settle n o).ready = c :: ready' ∧
      Loop.settle { s with ready := ready } n o = { s.settle n o with ready := ready' } := by
  cases hn : s.shields[n]? with
  | some outer =>
    refine ⟨ready ++ outer.callbacks, ?_, ?_⟩
    · simp only [Loop.settle, hn, hready, List.cons_append]
    · simp only [Loop.settle, hn]
  | none =>
    refine ⟨ready, ?_, ?_⟩
    · simp only [Loop.settle, hn, hready]
    · simp only [Loop.settle, hn]

/-- An outer future that is told. -/
theorem Live.innerDone (h : Live op s) {n : Nat} {ready : List Handle}
    (hready : s.ready = .innerDone n :: ready) :
    Live op (Loop.call op { s with ready := ready } (.innerDone n)) := by
  have hkept (hdone : s.inner.outcome ≠ none → s.outcome? (.shield n) ≠ none) :
      Live op { s with ready := ready } := by
    refine h.pop hready fun m outer _ hw => ⟨fun hnone hinner heq => ?_, fun _ => by simp⟩
    cases heq
    refine hdone hinner ?_
    rw [Loop.outcome?, hw.found]
    exact hnone
  rw [Loop.call]
  split
  · next o hpending hinner =>
    have hsettled := h.settle (o := o) hpending
    obtain ⟨ready', hready', hstate⟩ := settle_pop n o _ hready
    rw [hstate]
    refine hsettled.pop hready' fun m outer _ hw => ⟨fun hnone _ heq => ?_, fun _ => by simp⟩
    cases heq
    rcases Loop.mem_settle hw.found with ⟨-, hsome⟩ | hold
    · rw [hnone] at hsome
      cases hsome
    · have hself : ∀ outer, (s.settle n o).shields[n]? = some outer → outer.outcome = some o := by
        intro outer hfound
        unfold Loop.settle at hfound
        rw [hold] at hfound
        dsimp only at hfound
        rw [List.getElem?_set_self (List.getElem?_eq_some_iff.mp hold).1] at hfound
        cases hfound
        rfl
      have hsome := hself outer hw.found
      rw [hnone] at hsome
      cases hsome
  · next hne =>
    refine hkept fun hinner hnone => ?_
    obtain ⟨o, ho⟩ := Option.ne_none_iff_exists'.mp hinner
    exact hne o hnone ho

/-- An outer future that is done is not told. -/
theorem Live.outerDone (h : Live op s) {n : Nat} {ready : List Handle}
    (hready : s.ready = .outerDone n :: ready) :
    Live op (Loop.call op { s with ready := ready } (.outerDone n)) := by
  have hdone : s.outcome? (.shield n) ≠ none := h.ready n (.inl (hready ▸ List.mem_cons_self))
  have hpopped : Live op { s with ready := ready } :=
    h.pop hready fun m outer _ _ => ⟨fun _ _ => by simp, fun _ => by simp⟩
  rw [Loop.call]
  split
  · exact hpopped
  · next hpending =>
    refine ⟨fun c hc => ?_, hpopped.callbacks, hpopped.ready, hpopped.noInner, fun f hf => ?_,
      hpopped.point⟩
    · exact hpopped.relays c (List.mem_filter.mp hc).1
    · obtain ⟨m, outer, rfl, hw⟩ := hpopped.waits f hf
      refine ⟨m, outer, rfl, hw.found, hw.pending, fun hnone hinner => ?_, hw.ready, hw.done⟩
      refine List.mem_filter.mpr ⟨hw.told hnone hinner, decide_eq_true fun heq => ?_⟩
      cases heq
      refine hdone ?_
      have hfound : s.shields[n]? = some outer := hw.found
      rw [Loop.outcome?, hfound]
      exact hnone

/-- A wakeup lets the coroutine run. -/
theorem wakeup_running (h : Live op s) {f f' : Fut} {ready : List Handle}
    (hready : s.ready = .wakeup f :: ready) (hmode : s.mode = .waiting f') :
    ∃ next o p mustCancel delivered, op s.point = .awaitShield next ∧
      (p = next o ∨ p = next .cancelled) ∧ s.outcome? f = some o ∧
      Loop.call op { s with ready := ready } (.wakeup f) = { s with
        ready := ready, mode := .running, point := p, mustCancel, delivered } := by
  obtain ⟨next, hop⟩ := h.point f' hmode
  have hdone : s.outcome? f ≠ none := by
    cases f with
    | inner => exact absurd (hready ▸ List.mem_cons_self) h.noInner
    | shield n => exact h.ready n (.inr (hready ▸ List.mem_cons_self))
  obtain ⟨o, ho⟩ := Option.ne_none_iff_exists'.mp hdone
  have hout : Loop.outcome? { s with ready := ready } f = some o := by
    cases f <;> exact ho
  refine ⟨next, o, next (if s.mustCancel then .cancelled else o), false,
    s.delivered || s.mustCancel || (o.isCancelled && decide (f ∈ s.requested)), hop, ?_, ho, ?_⟩
  · split
    · exact .inr rfl
    · exact .inl rfl
  · simp only [Loop.call, Loop.wakeup, hop, hout]

theorem Live.call (h : Live op s) {c : Handle} {f : Fut} {ready : List Handle}
    (hready : s.ready = c :: ready) (hmode : s.mode = .waiting f) :
    Live op (Loop.call op { s with ready := ready } c) := by
  cases c with
  | innerDone n => exact h.innerDone hready
  | outerDone n => exact h.outerDone hready
  | wakeup f' =>
    obtain ⟨-, -, p, mustCancel, delivered, -, -, -, hstate⟩ := wakeup_running h hready hmode
    rw [hstate]
    have hrunning := h.running p mustCancel delivered .running (by simp)
    exact hrunning.pop hready fun _ _ hf => by cases hf

theorem Live.step (h : Live op s) {a : LoopAction ν ε} (hs : step op s a = some s') : Live op s' := by
  cases a with
  | own =>
    rw [Asyncio.step] at hs
    split at hs
    · next hmode =>
      obtain rfl := Option.some.inj hs
      exact h.execute hmode
    · next f c ready hmode hready =>
      obtain rfl := Option.some.inj hs
      exact h.call hready hmode
    · cases hs
  | cancel =>
    rw [Asyncio.step] at hs
    split at hs
    · cases hs
    · obtain rfl := Option.some.inj hs
      exact h.cancel
  | finish o =>
    rw [Asyncio.step] at hs
    split at hs
    · cases hs
    · next hpending =>
      rw [Option.not_isSome_iff_eq_none] at hpending
      obtain rfl := Option.some.inj hs
      refine ⟨fun c hc => (by cases hc), h.callbacks, fun n hn => ?_, fun hn => ?_, fun f hf => ?_,
        h.point⟩
      · simp only [List.mem_append] at hn
        refine h.ready n ?_
        rcases hn with (hn | hn) | (hn | hn)
        · exact .inl hn
        · obtain ⟨m, hm⟩ := h.relays _ hn
          cases hm
        · exact .inr hn
        · obtain ⟨m, hm⟩ := h.relays _ hn
          cases hm
      · rcases List.mem_append.mp hn with hn | hn
        · exact h.noInner hn
        · obtain ⟨m, hm⟩ := h.relays _ hn
          cases hm
      · obtain ⟨n, outer, rfl, hw⟩ := h.waits f hf
        refine ⟨n, outer, rfl, hw.found, hw.pending, fun _ hnone => ?_, fun hnone _ => ?_,
          fun hdone => ?_⟩
        · cases hnone
        · exact List.mem_append_right _ (hw.told hnone hpending)
        · exact List.mem_append_left _ (hw.done hdone)

theorem live_of_reachable (h : (machine op entry).Reachable s) : Live op s := by
  refine Machine.ReachableVia.invariant ?_ (fun _ _ _ _ h _ hs => h.step hs) h
  rintro s ⟨first, mustCancel, rfl⟩
  refine ⟨fun c hc => (by cases hc), fun n outer hn => (by cases hn), fun n hn => ?_,
    List.not_mem_nil, fun f hf => (by cases hf), fun f hf => (by cases hf)⟩
  rcases hn with hn | hn <;> cases hn

/-! ## The end -/

/-- The calls that are ready, or will be. -/
def calls (s : Loop κ ν ε) : Nat :=
  s.ready.length + (s.shields.flatMap Future.callbacks).length

/-- Once the inner future is done, each operation leads to a point of a lower rank. -/
structure Ranked (op : κ → Op κ ν ε ω) (rank : κ → Nat) : Prop where
  awaits : ∀ p next o, op p = .awaitShield next → rank (next o) < rank p
  inspects : ∀ p next o, op p = .inspect next → rank (next (some o)) < rank p

/-- How many steps are left at most. -/
def remaining (rank : κ → Nat) (s : Loop κ ν ε) : Nat :=
  if s.mode = .ended then 0 else rank s.point + calls s + 1

theorem length_flatMap_set {α β : Type} (f : α → List β) {l : List α} {n : Nat} {a : α}
    (h : l[n]? = some a) (b : α) :
    ((l.set n b).flatMap f).length + (f a).length = (l.flatMap f).length + (f b).length := by
  induction l generalizing n with
  | nil => cases h
  | cons x l ih =>
    cases n with
    | zero =>
      rw [List.getElem?_cons_zero, Option.some.injEq] at h
      subst h
      rw [List.set_cons_zero, List.flatMap_cons, List.flatMap_cons, List.length_append,
        List.length_append]
      omega
    | succ n =>
      rw [List.getElem?_cons_succ] at h
      have hrest := ih h
      rw [List.set_cons_succ, List.flatMap_cons, List.flatMap_cons, List.length_append,
        List.length_append]
      omega

/-- What becomes ready has been waiting. -/
theorem calls_settle (n : Nat) (o : Outcome ν ε) : calls (s.settle n o) = calls s := by
  cases hn : s.shields[n]? with
  | none => rw [Loop.settle, hn]
  | some outer =>
    have hlength := length_flatMap_set Future.callbacks hn ⟨some o, []⟩
    simp only [calls, Loop.settle, hn, List.length_append]
    simp only [List.length_nil] at hlength
    omega

theorem calls_pop {c : Handle} {ready : List Handle} (hready : s.ready = c :: ready) :
    calls { s with ready := ready } + 1 = calls s := by
  simp only [calls, hready, List.length_cons]
  omega

theorem remaining_cancel (rank : κ → Nat) (hwaits : s.mode ≠ .waiting .inner) :
    remaining rank s.cancel = remaining rank s := by
  unfold Loop.cancel
  split
  · next f hf =>
    cases f with
    | inner => exact absurd hf hwaits
    | shield n =>
      cases hc : s.cancelFuture (.shield n) with
      | none => rfl
      | some s' =>
        rw [Option.getD_some, cancelFuture_shield hc, remaining, remaining, Loop.settle_mode,
          Loop.settle_point, calls_settle]
        rfl
  · rfl

theorem remaining_execute {rank : κ → Nat} (hrank : Ranked op rank) {o : Outcome ν ε}
    (hi : s.inner.outcome = some o) (hmode : s.mode = .running) :
    remaining rank (s.execute op) < remaining rank s := by
  have hstill : ¬ (s.mode = .ended) := by simp [hmode]
  have hlower : ∀ p, rank p < rank s.point →
      remaining rank { s with point := p } < remaining rank s := by
    intro p hp
    simp only [remaining, if_neg hstill, calls]
    omega
  unfold Loop.execute
  split
  · next next hop =>
    have hshield : s.shield = (s, .inner) := by rw [Loop.shield, hi]; rfl
    have hstate : s.shield.1.await s.shield.2 next = { s with point := next o } := by
      rw [hshield, Loop.await, Loop.outcome?, hi]
    rw [hstate]
    exact hlower _ (hrank.awaits _ _ _ hop)
  · next next hop =>
    rw [hi]
    exact hlower _ (hrank.inspects _ _ _ hop)
  · rw [remaining, remaining, if_pos rfl, if_neg hstill]
    omega

theorem remaining_call {rank : κ → Nat} (hrank : Ranked op rank) (h : Live op s) {o : Outcome ν ε}
    (hi : s.inner.outcome = some o) {c : Handle} {f : Fut} {ready : List Handle}
    (hready : s.ready = c :: ready) (hmode : s.mode = .waiting f) :
    remaining rank (Loop.call op { s with ready := ready } c) < remaining rank s := by
  have hstill : ¬ (s.mode = .ended) := by simp [hmode]
  have hpop := calls_pop hready
  have hpopped : remaining rank { s with ready := ready } < remaining rank s := by
    simp only [remaining, if_neg hstill]
    omega
  cases c with
  | innerDone n =>
    rw [Loop.call]
    split
    · next o' _ _ =>
      rw [remaining, Loop.settle_mode, Loop.settle_point, calls_settle]
      exact hpopped
    · exact hpopped
  | outerDone n =>
    rw [Loop.call, if_pos (by simp [hi])]
    exact hpopped
  | wakeup f' =>
    obtain ⟨next, o', p, mustCancel, delivered, hop, hp, -, hstate⟩ :=
      wakeup_running h hready hmode
    have hlower : rank p < rank s.point := by
      rcases hp with rfl | rfl
      · exact hrank.awaits _ _ _ hop
      · exact hrank.awaits _ _ _ hop
    rw [hstate]
    simp only [remaining, if_neg hstill, calls] at hpop ⊢
    simp only [reduceCtorEq, if_false]
    omega

theorem cancelFuture_inner {f : Fut} (h : s.cancelFuture f = some s') : s'.inner = s.inner := by
  unfold Loop.cancelFuture at h
  split at h
  · cases h
  · split at h
    · rw [← Option.some.inj h]
    · rw [← Option.some.inj h, Loop.settle_inner]

theorem cancel_inner : s.cancel.inner = s.inner := by
  unfold Loop.cancel
  split
  · next f _ =>
    cases hc : s.cancelFuture f with
    | none => rfl
    | some s' => exact cancelFuture_inner hc
  · rfl

theorem execute_inner {o : Outcome ν ε} (hi : s.inner.outcome = some o) :
    (s.execute op).inner = s.inner := by
  unfold Loop.execute
  split
  · next next _ =>
    have hshield : s.shield = (s, .inner) := by rw [Loop.shield, hi]; rfl
    rw [hshield, Loop.await, Loop.outcome?, hi]
  · rfl
  · rfl

theorem call_inner {o : Outcome ν ε} (hi : s.inner.outcome = some o) (c : Handle) :
    (s.call op c).inner = s.inner := by
  cases c with
  | innerDone n =>
    rw [Loop.call]
    split
    · rw [Loop.settle_inner]
    · rfl
  | outerDone n => rw [Loop.call, if_pos (by simp [hi])]
  | wakeup f =>
    rw [Loop.call, Loop.wakeup]
    split <;> rfl

/-- A step after the inner future is done. -/
theorem remaining_step {rank : κ → Nat} (hrank : Ranked op rank)
    (h : (machine op entry).Reachable s) {o : Outcome ν ε} (hi : s.inner.outcome = some o)
    {a : LoopAction ν ε} (hs : step op s a = some s') :
    s'.inner.outcome = some o ∧
      (if a.isOwn = true then 1 else 0) + remaining rank s' ≤ remaining rank s := by
  have hown : (LoopAction.own : LoopAction ν ε).isOwn = true := rfl
  cases a with
  | own =>
    rw [step] at hs
    split at hs
    · next hmode =>
      obtain rfl := Option.some.inj hs
      have hless := remaining_execute hrank hi hmode
      rw [execute_inner hi, if_pos hown]
      exact ⟨hi, by omega⟩
    · next f c ready hmode hready =>
      obtain rfl := Option.some.inj hs
      have hless := remaining_call hrank (live_of_reachable h) hi hready hmode
      have hinner : (Loop.call op { s with ready := ready } c).inner = s.inner :=
        call_inner (s := { s with ready := ready }) hi c
      rw [hinner, if_pos hown]
      exact ⟨hi, by omega⟩
    · cases hs
  | cancel =>
    rw [step] at hs
    split at hs
    · cases hs
    · obtain rfl := Option.some.inj hs
      have hwaits : s.mode ≠ .waiting .inner := by
        intro hmode
        obtain ⟨n, outer, hn, -⟩ := (live_of_reachable h).waits _ hmode
        cases hn
      rw [cancel_inner, remaining_cancel rank hwaits, if_neg (by simp [LoopAction.isOwn])]
      exact ⟨hi, by omega⟩
  | finish o' =>
    rw [step, hi] at hs
    cases hs

/-- Until the coroutine has ended there is a step of its own. -/
theorem exists_own_step (h : (machine op entry).Reachable s) {o : Outcome ν ε}
    (hi : s.inner.outcome = some o) (hmode : s.mode ≠ .ended) :
    (step op s .own).isSome = true := by
  cases hm : s.mode with
  | running => simp [step, hm]
  | ended => exact absurd hm hmode
  | waiting f =>
    obtain ⟨n, outer, -, hw⟩ := (live_of_reachable h).waits f hm
    have hready : s.ready ≠ [] := by
      by_cases hdone : outer.outcome = none
      · exact List.ne_nil_of_mem (hw.ready hdone (by simp [hi]))
      · exact List.ne_nil_of_mem (hw.done hdone)
    obtain ⟨c, ready, hc⟩ := List.exists_cons_of_ne_nil hready
    simp [step, hm, hc]

/-- **The rule for the end**: once the inner future is done, whatever else comes, there are only so many
steps of the task, and until the coroutine has ended there is a next one. -/
theorem ends_of_ranked {rank : κ → Nat} (hrank : Ranked op rank)
    (h : (machine op entry).Reachable s) {o : Outcome ν ε} (hi : s.inner.outcome = some o)
    {actions : List (LoopAction ν ε)} (hrun : (machine op entry).run s actions = some s') :
    actions.countP LoopAction.isOwn ≤ remaining rank s ∧
      (s'.mode ≠ .ended → (step op s' .own).isSome = true) := by
  induction actions generalizing s with
  | nil =>
    cases hrun
    exact ⟨Nat.zero_le _, exists_own_step h hi⟩
  | cons a actions ih =>
    obtain ⟨m, hs, hrun⟩ := Machine.run_cons.mp hrun
    obtain ⟨hi', hless⟩ := remaining_step hrank h hi hs
    obtain ⟨hcount, hnext⟩ := ih (.step h trivial hs) hi' hrun
    refine ⟨?_, hnext⟩
    rw [List.countP_cons]
    omega

end DocFlow.Asyncio
