import DocFlow.Lib.Asyncio

/-!
# Rules for a task that awaits shields

* `holds_of_reachable` is the rule for an assertion on the points of the coroutine: an await gives what
  the inner future has, or it gives the error of a request.
* `not_requested_inner`: no request ever goes to the inner future.
-/

namespace DocFlow.Asyncio

variable {κ ν ε ω : Type} {op : κ → Op κ ν ε ω} {entry : κ} {s s' : Loop κ ν ε}

namespace Loop

/-! ## What the operations change -/

@[simp] theorem settle_inner (n : Nat) (o : Outcome ν ε) : (s.settle n o).inner = s.inner := by
  unfold settle
  split <;> rfl

@[simp] theorem settle_mode (n : Nat) (o : Outcome ν ε) : (s.settle n o).mode = s.mode := by
  unfold settle
  split <;> rfl

@[simp] theorem settle_point (n : Nat) (o : Outcome ν ε) : (s.settle n o).point = s.point := by
  unfold settle
  split <;> rfl

@[simp] theorem settle_requested (n : Nat) (o : Outcome ν ε) :
    (s.settle n o).requested = s.requested := by
  unfold settle
  split <;> rfl

@[simp] theorem settle_delivered (n : Nat) (o : Outcome ν ε) :
    (s.settle n o).delivered = s.delivered := by
  unfold settle
  split <;> rfl

theorem mem_settle {n m : Nat} {o : Outcome ν ε} {outer : Future ν ε}
    (h : (s.settle n o).shields[m]? = some outer) :
    m = n ∧ outer.outcome = some o ∨ s.shields[m]? = some outer := by
  unfold settle at h
  split at h
  · next old hold =>
    by_cases hm : n = m
    · subst hm
      rw [List.getElem?_set_self (List.getElem?_eq_some_iff.mp hold).1, Option.some.injEq] at h
      exact .inl ⟨rfl, by rw [← h]⟩
    · rw [List.getElem?_set_ne hm] at h
      exact .inr h
  · exact .inr h

theorem addCallback_inner_outcome (h : Handle) (f : Fut) :
    (s.addCallback h f).inner.outcome = s.inner.outcome := by
  unfold addCallback
  split
  · rfl
  · split <;> rfl

theorem mem_addCallback {h : Handle} {f : Fut} {m : Nat} {outer : Future ν ε}
    (hm : (s.addCallback h f).shields[m]? = some outer) :
    ∃ old, s.shields[m]? = some old ∧ outer.outcome = old.outcome := by
  unfold addCallback at hm
  split at hm
  · exact ⟨outer, hm, rfl⟩
  · next n =>
    split at hm
    · next old hold =>
      by_cases hn : n = m
      · subst hn
        rw [List.getElem?_set_self (List.getElem?_eq_some_iff.mp hold).1, Option.some.injEq] at hm
        exact ⟨old, hold, by rw [← hm]⟩
      · rw [List.getElem?_set_ne hn] at hm
        exact ⟨outer, hm, rfl⟩
    · exact ⟨outer, hm, rfl⟩

end Loop

/-! ## What an outer future says -/

/-- An outer future that is done has the outcome of the inner one, or a request has cancelled it.  The
task never waits for the inner future itself. -/
structure Sound (s : Loop κ ν ε) : Prop where
  shields : ∀ n outer o, s.shields[n]? = some outer → outer.outcome = some o →
    s.inner.outcome = some o ∨ o = .cancelled ∧ Fut.shield n ∈ s.requested
  untouched : Fut.inner ∉ s.requested
  waits : s.mode ≠ .waiting .inner

theorem Sound.outcome? (h : Sound s) {f : Fut} {o : Outcome ν ε} (ho : s.outcome? f = some o) :
    s.inner.outcome = some o ∨ o = .cancelled ∧ f ∈ s.requested := by
  cases f with
  | inner => exact .inl ho
  | shield n =>
    obtain ⟨outer, houter, hout⟩ := Option.bind_eq_some_iff.mp ho
    exact h.shields n outer o houter hout

theorem Sound.settle (h : Sound s) {n : Nat} {o : Outcome ν ε}
    (ho : s.inner.outcome = some o ∨ o = .cancelled ∧ Fut.shield n ∈ s.requested) :
    Sound (s.settle n o) := by
  refine ⟨fun m outer o' hm ho' => ?_, ?_, ?_⟩
  · rw [Loop.settle_inner, Loop.settle_requested]
    rcases Loop.mem_settle hm with ⟨rfl, hsome⟩ | hold
    · rw [hsome, Option.some.injEq] at ho'
      exact ho' ▸ ho
    · exact h.shields m outer o' hold ho'
  · rw [Loop.settle_requested]
    exact h.untouched
  · rw [Loop.settle_mode]
    exact h.waits

/-- A request that is accepted cancels the outer future. -/
theorem cancelFuture_shield {n : Nat} (h : s.cancelFuture (.shield n) = some s') :
    s' = Loop.settle { s with requested := .shield n :: s.requested } n .cancelled := by
  unfold Loop.cancelFuture at h
  split at h
  · cases h
  · exact (Option.some.inj h).symm

theorem Sound.request (h : Sound s) (n : Nat) :
    Sound (Loop.settle { s with requested := .shield n :: s.requested } n .cancelled) := by
  have hmarked : Sound { s with requested := .shield n :: s.requested } := by
    refine ⟨fun m outer o hm ho => ?_, ?_, h.waits⟩
    · rcases h.shields m outer o hm ho with hinner | ⟨ho, hmem⟩
      · exact .inl hinner
      · exact .inr ⟨ho, List.mem_cons_of_mem _ hmem⟩
    · intro hmem
      rcases List.mem_cons.mp hmem with heq | hmem
      · cases heq
      · exact h.untouched hmem
  exact hmarked.settle (.inr ⟨rfl, List.mem_cons_self⟩)

/-- A change of the rest. -/
theorem Sound.of_eq (h : Sound s) (hshields : s'.shields = s.shields)
    (hinner : s'.inner.outcome = s.inner.outcome) (hrequested : s'.requested = s.requested)
    (hwaits : s'.mode ≠ .waiting .inner) : Sound s' := by
  refine ⟨fun n outer o hn ho => ?_, ?_, hwaits⟩
  · rw [hinner, hrequested]
    exact h.shields n outer o (hshields ▸ hn) ho
  · rw [hrequested]
    exact h.untouched

theorem Sound.cancel (h : Sound s) : Sound s.cancel := by
  have hkept : Sound { s with mustCancel := true } := h.of_eq rfl rfl rfl h.waits
  unfold Loop.cancel
  split
  · next f hf =>
    cases f with
    | inner => exact absurd hf h.waits
    | shield n =>
      cases hc : s.cancelFuture (.shield n) with
      | none => exact hkept
      | some s' =>
        rw [Option.getD_some, cancelFuture_shield hc]
        exact h.request n
  · exact hkept

/-! ## Awaiting -/

/-- The new outer future is pending. -/
theorem Sound.shield (h : Sound s) : Sound s.shield.1 := by
  unfold Loop.shield
  split
  · exact h
  · refine ⟨fun n outer o hn ho => ?_, h.untouched, h.waits⟩
    by_cases hlt : n < s.shields.length
    · rw [List.getElem?_append_left hlt] at hn
      exact h.shields n outer o hn ho
    · rw [List.getElem?_append_right (by omega), List.getElem?_singleton] at hn
      split at hn
      · cases hn
        cases ho
      · cases hn

theorem outcome?_shield : s.shield.1.outcome? s.shield.2 = s.inner.outcome := by
  unfold Loop.shield
  split
  · rfl
  · next hpending =>
    rw [Option.not_isSome_iff_eq_none] at hpending
    rw [hpending, Loop.outcome?, List.getElem?_append_right (Nat.le_refl _), Nat.sub_self]
    rfl

/-- The inner future itself is awaited only when it is done. -/
theorem shield_snd (h : s.inner.outcome = none) : s.shield.2 = .shield s.shields.length := by
  rw [Loop.shield, h]
  rfl

/-- The state of a task that waits for an outer future, after a request that was left for it. -/
theorem await_of_none {n : Nat} (next : Outcome ν ε → κ) (h : s.outcome? (.shield n) = none) :
    s.await (.shield n) next =
        { s.addCallback (.wakeup (.shield n)) (.shield n) with mode := .waiting (.shield n) } ∨
      s.await (.shield n) next = { Loop.settle
        { s.addCallback (.wakeup (.shield n)) (.shield n) with
          mode := .waiting (.shield n)
          requested := .shield n ::
            (s.addCallback (.wakeup (.shield n)) (.shield n)).requested } n .cancelled with
        mustCancel := false } := by
  unfold Loop.await
  rw [h]
  dsimp only
  split
  · split
    · next hc =>
      rw [cancelFuture_shield hc]
      exact .inr rfl
    · exact .inl rfl
  · exact .inl rfl

theorem addCallback_requested (h : Handle) (f : Fut) :
    (s.addCallback h f).requested = s.requested := by
  unfold Loop.addCallback
  split
  · rfl
  · split <;> rfl

theorem Sound.addCallback (h : Sound s) (c : Handle) (n : Nat) :
    Sound { s.addCallback c (.shield n) with mode := .waiting (.shield n) } := by
  refine ⟨fun m outer o hm ho => ?_, ?_, by simp⟩
  · obtain ⟨old, hold, heq⟩ := Loop.mem_addCallback hm
    rw [heq] at ho
    have hinner := Loop.addCallback_inner_outcome (s := s) c (.shield n)
    have hrequested := addCallback_requested (s := s) c (.shield n)
    dsimp only
    rw [hinner, hrequested]
    exact h.shields m old o hold ho
  · exact (addCallback_requested (s := s) c (.shield n)).symm ▸ h.untouched

theorem Sound.await (h : Sound s) {n : Nat} {next : Outcome ν ε → κ}
    (hnone : s.outcome? (.shield n) = none) : Sound (s.await (.shield n) next) := by
  have hwaiting := h.addCallback (.wakeup (.shield n)) n
  rcases await_of_none next hnone with heq | heq
  · rw [heq]
    exact hwaiting
  · rw [heq]
    have hrequest := hwaiting.request n
    exact hrequest.of_eq rfl rfl rfl hrequest.waits

theorem addCallback_point (h : Handle) (f : Fut) :
    (s.addCallback h f).point = s.point ∧ (s.addCallback h f).delivered = s.delivered := by
  unfold Loop.addCallback
  split
  · exact ⟨rfl, rfl⟩
  · split <;> exact ⟨rfl, rfl⟩

/-- A task that waits stays at its point. -/
theorem await_frame {n : Nat} (next : Outcome ν ε → κ) (hnone : s.outcome? (.shield n) = none) :
    (s.await (.shield n) next).mode = .waiting (.shield n) ∧
      (s.await (.shield n) next).point = s.point ∧
      (s.await (.shield n) next).delivered = s.delivered ∧
      (s.await (.shield n) next).inner.outcome = s.inner.outcome := by
  obtain ⟨hpoint, hdelivered⟩ := addCallback_point (s := s) (.wakeup (.shield n)) (.shield n)
  have hinner := Loop.addCallback_inner_outcome (s := s) (.wakeup (.shield n)) (.shield n)
  rcases await_of_none next hnone with heq | heq
  · rw [heq]
    exact ⟨rfl, hpoint, hdelivered, hinner⟩
  · rw [heq]
    simp only [Loop.settle_mode, Loop.settle_point, Loop.settle_delivered, Loop.settle_inner]
    exact ⟨trivial, hpoint, hdelivered, hinner⟩

theorem shield_frame : s.shield.1.mode = s.mode ∧ s.shield.1.point = s.point ∧
    s.shield.1.delivered = s.delivered ∧ s.shield.1.inner.outcome = s.inner.outcome := by
  unfold Loop.shield
  split <;> exact ⟨rfl, rfl, rfl, rfl⟩

/-! ## The rule for assertions -/

/-- An assertion on the points of a coroutine, the outcome of the inner future and whether a request
has been delivered. -/
structure Asserts (op : κ → Op κ ν ε ω) (A : κ → Option (Outcome ν ε) → Bool → Prop) : Prop where
  /-- the inner future may finish at any time -/
  finishes : ∀ p o d, A p none d → A p (some o) d
  /-- an await gives the outcome of the inner future -/
  awaits : ∀ p next o d, op p = .awaitShield next → A p (some o) d → A (next o) (some o) d
  /-- or the error of a request -/
  delivers : ∀ p next i d, op p = .awaitShield next → A p i d → A (next .cancelled) i true
  inspects : ∀ p next i d, op p = .inspect next → A p i d → A (next i) i d

/-- The state of a run. -/
structure Holds (op : κ → Op κ ν ε ω) (A : κ → Option (Outcome ν ε) → Bool → Prop)
    (s : Loop κ ν ε) : Prop where
  sound : Sound s
  point : A s.point s.inner.outcome s.delivered
  ended : s.mode = .ended → ∃ w, op s.point = .finish w

variable {A : κ → Option (Outcome ν ε) → Bool → Prop}

theorem Holds.execute (hA : Asserts op A) (h : Holds op A s) (hmode : s.mode = .running) :
    Holds op A (s.execute op) := by
  unfold Loop.execute
  split
  · next next hop =>
    obtain ⟨hsmode, hpoint, hdelivered, hinner⟩ := shield_frame (s := s)
    cases hi : s.inner.outcome with
    | some o =>
      have hout : s.shield.1.outcome? s.shield.2 = some o := outcome?_shield.trans hi
      have hstate : s.shield.1.await s.shield.2 next = { s.shield.1 with point := next o } := by
        rw [Loop.await, hout]
      rw [hstate]
      refine ⟨h.sound.shield.of_eq rfl rfl rfl h.sound.shield.waits, ?_, fun hended => ?_⟩
      · change A (next o) s.shield.1.inner.outcome s.shield.1.delivered
        rw [hinner, hdelivered, hi]
        exact hA.awaits _ _ _ _ hop (hi ▸ h.point)
      · rw [hsmode, hmode] at hended
        cases hended
    | none =>
      have hout : s.shield.1.outcome? (.shield s.shields.length) = none := by
        rw [← shield_snd hi, outcome?_shield, hi]
      rw [shield_snd hi]
      obtain ⟨hwaiting, hpoint', hdelivered', hinner'⟩ := await_frame next hout
      refine ⟨h.sound.shield.await hout, ?_, fun hended => ?_⟩
      · rw [hpoint', hpoint, hdelivered', hdelivered, hinner', hinner]
        exact h.point
      · rw [hwaiting] at hended
        cases hended
  · next next hop =>
    refine ⟨h.sound.of_eq rfl rfl rfl h.sound.waits, hA.inspects _ _ _ _ hop h.point, ?_⟩
    intro hended
    rw [hmode] at hended
    cases hended
  · next w hop =>
    exact ⟨h.sound.of_eq rfl rfl rfl (by simp), h.point, fun _ => ⟨w, hop⟩⟩

/-- What the coroutine goes on with: the outcome of the inner future, or the error of a request. -/
theorem Holds.wakeup (hA : Asserts op A) (h : Holds op A s) (f : Fut) :
    Holds op A (s.wakeup op f) := by
  unfold Loop.wakeup
  split
  · next next o hop hout =>
    refine ⟨h.sound.of_eq rfl rfl rfl (by simp), ?_, by simp⟩
    dsimp only
    cases hmust : s.mustCancel with
    | true =>
      rw [if_pos rfl, Bool.or_true, Bool.true_or]
      exact hA.delivers _ _ _ _ hop h.point
    | false =>
      rw [if_neg (by simp), Bool.or_false]
      rcases h.sound.outcome? hout with hinner | ⟨rfl, hmem⟩
      · cases hflag : o.isCancelled && decide (f ∈ s.requested) with
        | true =>
          have hcancelled : o = .cancelled := by
            cases o with
            | cancelled => rfl
            | result _ => simp [Outcome.isCancelled] at hflag
            | exception _ => simp [Outcome.isCancelled] at hflag
          rw [Bool.or_true, hcancelled]
          exact hA.delivers _ _ _ _ hop h.point
        | false =>
          rw [Bool.or_false, hinner]
          exact hA.awaits _ _ _ _ hop (hinner ▸ h.point)
      · rw [decide_eq_true hmem]
        change A _ _ (s.delivered || true)
        rw [Bool.or_true]
        exact hA.delivers _ _ _ _ hop h.point
  · exact h

theorem Holds.call (hA : Asserts op A) (h : Holds op A s) (c : Handle) :
    Holds op A (s.call op c) := by
  unfold Loop.call
  split
  · next n =>
    split
    · next o _ hinner =>
      refine ⟨h.sound.settle (.inl hinner), ?_, ?_⟩
      · rw [Loop.settle_point, Loop.settle_inner, Loop.settle_delivered]
        exact h.point
      · rw [Loop.settle_mode, Loop.settle_point]
        exact h.ended
    · exact h
  · split
    · exact h
    · exact ⟨h.sound.of_eq rfl rfl rfl h.sound.waits, h.point, h.ended⟩
  · exact h.wakeup hA _

theorem Holds.cancel (h : Holds op A s) : Holds op A s.cancel := by
  have hframe : s.cancel.point = s.point ∧ s.cancel.inner.outcome = s.inner.outcome ∧
      s.cancel.delivered = s.delivered ∧ s.cancel.mode = s.mode := by
    unfold Loop.cancel
    split
    · next f hf =>
      cases f with
      | inner => exact absurd hf h.sound.waits
      | shield n =>
        cases hc : s.cancelFuture (.shield n) with
        | none => exact ⟨rfl, rfl, rfl, rfl⟩
        | some s' =>
          rw [Option.getD_some, cancelFuture_shield hc]
          simp
    · exact ⟨rfl, rfl, rfl, rfl⟩
  obtain ⟨hpoint, hinner, hdelivered, hmode⟩ := hframe
  refine ⟨h.sound.cancel, ?_, ?_⟩
  · rw [hpoint, hinner, hdelivered]
    exact h.point
  · rw [hmode, hpoint]
    exact h.ended

theorem Holds.step (hA : Asserts op A) (h : Holds op A s) {a : LoopAction ν ε}
    (hs : step op s a = some s') : Holds op A s' := by
  cases a with
  | own =>
    rw [Asyncio.step] at hs
    split at hs
    · next hmode =>
      obtain rfl := Option.some.inj hs
      exact h.execute hA hmode
    · next f c ready hmode hready =>
      obtain rfl := Option.some.inj hs
      have hpopped : Holds op A { s with ready := ready } :=
        ⟨h.sound.of_eq rfl rfl rfl h.sound.waits, h.point, h.ended⟩
      exact hpopped.call hA c
    · cases hs
  | cancel =>
    rw [Asyncio.step] at hs
    split at hs
    · cases hs
    · obtain rfl := Option.some.inj hs
      exact h.cancel
  | finish o =>
    rw [Asyncio.step] at hs
    split at hs
    · cases hs
    · next hpending =>
      rw [Option.not_isSome_iff_eq_none] at hpending
      obtain rfl := Option.some.inj hs
      refine ⟨⟨fun n outer o' hn ho' => ?_, h.sound.untouched, h.sound.waits⟩, ?_, h.ended⟩
      · rcases h.sound.shields n outer o' hn ho' with hinner | hrequest
        · rw [hpending] at hinner
          cases hinner
        · exact .inr hrequest
      · exact hA.finishes _ _ _ (hpending ▸ h.point)

/-- **The rule for assertions**: what holds at the entry, and is carried on by each operation, holds at
the point where the coroutine stands. -/
theorem holds_of_reachable (hA : Asserts op A) (hentry : ∀ first, A entry first false)
    (h : (machine op entry).Reachable s) : Holds op A s := by
  refine Machine.ReachableVia.invariant ?_ ?_ h
  · rintro s ⟨first, mustCancel, rfl⟩
    refine ⟨⟨?_, List.not_mem_nil, by simp [Loop.start]⟩, hentry first, by simp [Loop.start]⟩
    intro n outer o hn
    cases hn
  · intro s a s' _ h _ hs
    exact h.step hA hs

/-- **No request goes to the inner future.** -/
theorem not_requested_inner (h : (machine op entry).Reachable s) : Fut.inner ∉ s.requested := by
  have htrue : Asserts op fun _ _ _ => True := by
    constructor <;> intros <;> trivial
  exact (holds_of_reachable htrue (fun _ => trivial) h).sound.untouched

end DocFlow.Asyncio
