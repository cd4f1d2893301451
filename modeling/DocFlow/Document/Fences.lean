import DocFlow.Document.Ownership

/-!
# The two fences

`document:process:{id}` and `document:index:{id}` are named locks.  `Attempt.inside` and
`CompensationPhase.inside` say which phases lie inside which of them; whoever is inside holds the
lock, so no two are inside at once.
-/

namespace DocFlow.Pipeline

inductive Fence
  | process | index
deriving DecidableEq, Repr

def World.fence (w : World) : Fence → Option Holder
  | .process => w.processFence
  | .index => w.indexFence

/-- The fence the phase of an attempt lies in. -/
def Attempt.fence : Attempt → Option Fence
  | processingFenced _ => some .process
  | processingOwned _ => some .process
  | prepared _ _ => some .process
  | executed _ => some .process
  | cleanedPromoted _ => some .process
  | promoted _ => some .process
  | indexingFenced _ _ => some .index
  | indexingOwned _ _ => some .index
  | _ => none

/-- The fence the phase of a compensation lies in. -/
def CompensationPhase.fence : CompensationPhase → Option Fence
  | processFenced => some .process
  | clearing _ => some .process
  | indexFenced _ => some .index
  | pointsDeleted _ => some .index
  | _ => none

/-- The holder is in a phase inside the fence. -/
def World.Inside (w : World) (f : Fence) : Holder → Prop
  | .attempt o => ∃ a, w.attempts o = some a ∧ a.fence = some f
  | .compensation i => ∃ c, w.compensations i = some c ∧ c.phase.fence = some f

/-- **Whoever is inside a fence holds it.** -/
def Fenced (w : World) : Prop := ∀ f x, w.Inside f x → w.fence f = some x

theorem Fenced.unique {w : World} (h : Fenced w) {f : Fence} {x y : Holder} (hx : w.Inside f x)
    (hy : w.Inside f y) : x = y :=
  Option.some.inj ((h f x hx).symm.trans (h f y hy))

theorem leave_of_ne {x y : Holder} {lock : Option Holder} (h : lock = some x) (hne : x ≠ y) :
    leave y lock = some x := by
  unfold leave
  rw [if_neg, h]
  rw [h]
  exact fun he => hne (Option.some.inj he)

section Step

variable {settings : Settings} {w w₁ w' : World} {act : Action}

/-! ## One holder moves -/

theorem inside_setAttempt (hattempts : w₁.attempts = w.attempts)
    (hcompensations : w₁.compensations = w.compensations) {o : String} {a : Attempt} {f : Fence}
    {x : Holder} (hne : x ≠ .attempt o) (h : (w₁.setAttempt o a).Inside f x) : w.Inside f x := by
  cases x with
  | attempt o' =>
    obtain ⟨b, hb, hf⟩ := h
    rw [World.attempts_setAttempt, if_neg (fun he => hne (by rw [he])), hattempts] at hb
    exact ⟨b, hb, hf⟩
  | compensation i =>
    obtain ⟨c, hc, hf⟩ := h
    rw [World.compensations_setAttempt, hcompensations] at hc
    exact ⟨c, hc, hf⟩

theorem inside_setCompensation (hattempts : w₁.attempts = w.attempts)
    (hcompensations : w₁.compensations = w.compensations) {i : Nat} {c : Compensation} {f : Fence}
    {x : Holder} (hne : x ≠ .compensation i) (h : (w₁.setCompensation i c).Inside f x) :
    w.Inside f x := by
  cases x with
  | attempt o =>
    obtain ⟨b, hb, hf⟩ := h
    rw [World.attempts_setCompensation, hattempts] at hb
    exact ⟨b, hb, hf⟩
  | compensation j =>
    obtain ⟨d, hd, hf⟩ := h
    rw [World.compensations_setCompensation, if_neg (fun he => hne (by rw [he])),
      hcompensations] at hd
    exact ⟨d, hd, hf⟩

theorem self_setAttempt {o : String} {a : Attempt} {f : Fence}
    (h : (w₁.setAttempt o a).Inside f (.attempt o)) : a.fence = some f := by
  obtain ⟨b, hb, hf⟩ := h
  rw [World.attempts_setAttempt, if_pos rfl] at hb
  obtain rfl := Option.some.inj hb
  exact hf

theorem self_setCompensation {i : Nat} {c : Compensation} {f : Fence}
    (h : (w₁.setCompensation i c).Inside f (.compensation i)) : c.phase.fence = some f := by
  obtain ⟨d, hd, hf⟩ := h
  rw [World.compensations_setCompensation, if_pos rfl] at hd
  obtain rfl := Option.some.inj hd
  exact hf

/-- How the fences may look after a step of a holder that is then inside `inside`. -/
inductive FencesMoved (w w' : World) (x : Holder) (inside : Option Fence) : Prop
  | kept (hfence : ∀ f, w'.fence f = w.fence f)
      (hin : ∀ f, inside = some f → w.Inside f x)
  | left (hfence : ∀ f, w'.fence f = leave x (w.fence f)) (hout : inside = none)
  | entered {f₀ : Fence} (hfree : w.fence f₀ = none) (hheld : w'.fence f₀ = some x)
      (hfence : ∀ f, f ≠ f₀ → w'.fence f = w.fence f) (hin : inside = some f₀)

theorem Fenced.of_holder (hF : Fenced w) {x : Holder} {inside : Option Fence}
    (hothers : ∀ f y, y ≠ x → w'.Inside f y → w.Inside f y)
    (hself : ∀ f, w'.Inside f x → inside = some f) (h : FencesMoved w w' x inside) :
    Fenced w' := by
  intro f y hy
  by_cases hyx : y = x
  · subst hyx
    have hin := hself f hy
    cases h with
    | kept hfence hbefore => exact (hfence f).trans (hF f y (hbefore f hin))
    | left _ hout =>
      rw [hin] at hout
      cases hout
    | entered _ hheld _ hin' =>
      obtain rfl := Option.some.inj (hin.symm.trans hin')
      exact hheld
  · have hbefore := hF f y (hothers f y hyx hy)
    cases h with
    | kept hfence _ => exact (hfence f).trans hbefore
    | left hfence _ => exact (hfence f).trans (leave_of_ne hbefore hyx)
    | @entered f₀ hfree _ hfence _ =>
      by_cases hf : f = f₀
      · subst hf
        rw [hfree] at hbefore
        cases hbefore
      · exact (hfence f hf).trans hbefore

theorem Fenced.setAttempt (hF : Fenced w) (hattempts : w₁.attempts = w.attempts)
    (hcompensations : w₁.compensations = w.compensations) {o : String} {a : Attempt}
    (h : FencesMoved w (w₁.setAttempt o a) (.attempt o) a.fence) : Fenced (w₁.setAttempt o a) :=
  hF.of_holder (fun _ _ hne => inside_setAttempt hattempts hcompensations hne)
    (fun _ => self_setAttempt) h

theorem Fenced.setCompensation (hF : Fenced w) (hattempts : w₁.attempts = w.attempts)
    (hcompensations : w₁.compensations = w.compensations) {i : Nat} {c : Compensation}
    (h : FencesMoved w (w₁.setCompensation i c) (.compensation i) c.phase.fence) :
    Fenced (w₁.setCompensation i c) :=
  hF.of_holder (fun _ _ hne => inside_setCompensation hattempts hcompensations hne)
    (fun _ => self_setCompensation) h

/-- A step outside the fences. -/
theorem FencesMoved.outside {x : Holder} {inside : Option Fence}
    (hfence : ∀ f, w'.fence f = w.fence f) (hout : inside = none) : FencesMoved w w' x inside := by
  refine .kept hfence fun f hin => ?_
  rw [hin] at hout
  cases hout

/-- A step of an attempt that stays where it was. -/
theorem FencesMoved.attempt {o : String} {a : Attempt} {inside : Option Fence}
    (hfence : ∀ f, w'.fence f = w.fence f) (ha : w.attempts o = some a)
    (hin : inside = a.fence) : FencesMoved w w' (.attempt o) inside :=
  .kept hfence fun _ h => ⟨a, ha, hin.symm.trans h⟩

theorem FencesMoved.compensation {i : Nat} {c : Compensation} {inside : Option Fence}
    (hfence : ∀ f, w'.fence f = w.fence f) (hc : w.compensations i = some c)
    (hin : inside = c.phase.fence) : FencesMoved w w' (.compensation i) inside :=
  .kept hfence fun _ h => ⟨c, hc, hin.symm.trans h⟩

/-! ## The step -/

theorem FileMove.fence {processing : ProcessingSettings} {files files' : List FilePath}
    {a a' : Attempt} (h : FileMove processing files a a' files') :
    a.fence = some .process ∧ a'.fence = some .process := by
  cases h <;> exact ⟨rfl, rfl⟩

theorem Fenced.same (hF : Fenced w) (hattempts : w'.attempts = w.attempts)
    (hcompensations : w'.compensations = w.compensations) (hfence : ∀ f, w'.fence f = w.fence f) :
    Fenced w' := by
  intro f x hx
  rw [hfence]
  refine hF f x ?_
  cases x with
  | attempt o =>
    obtain ⟨a, ha, hf⟩ := hx
    exact ⟨a, hattempts ▸ ha, hf⟩
  | compensation i =>
    obtain ⟨c, hc, hf⟩ := hx
    exact ⟨c, hcompensations ▸ hc, hf⟩

theorem Fenced.moved (hF : Fenced w) (hm : Moved settings w act w') : Fenced w' := by
  cases hm with
  | started _ =>
    refine hF.setAttempt (by rfl) (by rfl) ?_
    exact .outside (fun _ => rfl) rfl
  | halted _ _ _ =>
    refine hF.setAttempt (by rfl) (by rfl) ?_
    exact .left (by rintro (_ | _) <;> rfl) rfl
  | claimedProcess _ _ _ _ =>
    refine hF.setAttempt (by rfl) (by rfl) ?_
    exact .outside (by rintro (_ | _) <;> rfl) rfl
  | claimedChunks _ _ _ _ _ _ _ _ =>
    refine hF.setAttempt (by rfl) (by rfl) ?_
    exact .outside (by rintro (_ | _) <;> rfl) rfl
  | claimedIndex _ _ _ _ _ _ =>
    refine hF.setAttempt (by rfl) (by rfl) ?_
    exact .outside (by rintro (_ | _) <;> rfl) rfl
  | processAcquired _ hf =>
    have hfree : w.fence .process = none := hf
    refine hF.setAttempt (by rfl) (by rfl) ?_
    exact .entered hfree rfl (by rintro (_ | _) hne <;> first | rfl | exact absurd rfl hne) rfl
  | indexAcquired _ hf =>
    have hfree : w.fence .index = none := hf
    refine hF.setAttempt (by rfl) (by rfl) ?_
    exact .entered hfree rfl (by rintro (_ | _) hne <;> first | rfl | exact absurd rfl hne) rfl
  | processOwned ha _ _ =>
    refine hF.setAttempt (by rfl) (by rfl) ?_
    exact .attempt (fun _ => rfl) ha rfl
  | indexOwned ha _ _ =>
    refine hF.setAttempt (by rfl) (by rfl) ?_
    exact .attempt (fun _ => rfl) ha rfl
  | filesMoved ha _ hf =>
    obtain ⟨hbefore, hafter⟩ := hf.fence
    refine hF.setAttempt (by rfl) (by rfl) ?_
    exact .attempt (by rintro (_ | _) <;> rfl) ha (hafter.trans hbefore.symm)
  | stagingCleared _ _ =>
    refine hF.setAttempt (by rfl) (by rfl) ?_
    exact .left (by rintro (_ | _) <;> rfl) rfl
  | processCompleted _ _ =>
    refine hF.setAttempt (by rfl) (by rfl) ?_
    exact .outside (by rintro (_ | _) <;> rfl) rfl
  | chunksBuilt _ _ =>
    refine hF.setAttempt (by rfl) (by rfl) ?_
    exact .outside (fun _ => rfl) rfl
  | chunksCompleted _ _ =>
    refine hF.setAttempt (by rfl) (by rfl) ?_
    exact .outside (by rintro (_ | _) <;> rfl) rfl
  | upserted _ =>
    refine hF.setAttempt (by rfl) (by rfl) ?_
    exact .left (by rintro (_ | _) <;> rfl) rfl
  | indexCompleted _ _ _ _ _ =>
    refine hF.setAttempt (by rfl) (by rfl) ?_
    exact .outside (by rintro (_ | _) <;> rfl) rfl
  | @compensationStarted _ _ a _ _ =>
    refine hF.setCompensation (by rfl) (by rfl) ?_
    exact .outside (fun _ => rfl) (by cases a.stage <;> rfl)
  | processFailed _ _ _ =>
    refine hF.setCompensation (by rfl) (by rfl) ?_
    exact .outside (by rintro (_ | _) <;> rfl) rfl
  | processNotFailed _ _ =>
    refine hF.setCompensation (by rfl) (by rfl) ?_
    exact .outside (fun _ => rfl) rfl
  | chunksFailed _ _ _ =>
    refine hF.setCompensation (by rfl) (by rfl) ?_
    exact .left (by rintro (_ | _) <;> rfl) rfl
  | indexPrepared _ _ _ _ =>
    refine hF.setCompensation (by rfl) (by rfl) ?_
    exact .outside (by rintro (_ | _) <;> rfl) rfl
  | compensationProcessFenced _ hf =>
    have hfree : w.fence .process = none := hf
    refine hF.setCompensation (by rfl) (by rfl) ?_
    exact .entered hfree rfl (by rintro (_ | _) hne <;> first | rfl | exact absurd rfl hne) rfl
  | compensationIndexFenced _ hf =>
    have hfree : w.fence .index = none := hf
    refine hF.setCompensation (by rfl) (by rfl) ?_
    exact .entered hfree rfl (by rintro (_ | _) hne <;> first | rfl | exact absurd rfl hne) rfl
  | ownerChecked hc _ _ _ =>
    refine hF.setCompensation (by rfl) (by rfl) ?_
    exact .compensation (fun _ => rfl) hc rfl
  | dirCleared hc =>
    refine hF.setCompensation (by rfl) (by rfl) ?_
    exact .compensation (by rintro (_ | _) <;> rfl) hc rfl
  | released _ _ =>
    refine hF.setCompensation (by rfl) (by rfl) ?_
    exact .left (by rintro (_ | _) <;> rfl) rfl
  | pointsDeleted hc =>
    refine hF.setCompensation (by rfl) (by rfl) ?_
    exact .compensation (by rintro (_ | _) <;> rfl) hc rfl
  | indexFailed _ _ _ =>
    refine hF.setCompensation (by rfl) (by rfl) ?_
    exact .left (by rintro (_ | _) <;> rfl) rfl
  | ended _ _ =>
    refine hF.setCompensation (by rfl) (by rfl) ?_
    exact .left (by rintro (_ | _) <;> rfl) rfl
  | lifecycleChanged => exact hF.same rfl rfl (by rintro (_ | _) <;> rfl)

end Step

theorem Uploaded.fenced {w : World} (h : Uploaded w) : Fenced w := by
  intro f x hx
  cases x with
  | attempt o =>
    obtain ⟨a, ha, -⟩ := hx
    rw [h.attempts] at ha
    cases ha
  | compensation i =>
    obtain ⟨c, hc, -⟩ := hx
    rw [h.compensations] at hc
    cases hc

end DocFlow.Pipeline
