import DocFlow.Document.Steps

/-!
# Who owns the document

`Handover` is the part of a step that concerns the owner field and the status: a claim by an
operation that never claimed before, a completion or a compensation of the owner.  From it follow
the invariant `Roles` and, along a run, that an operation which lost the document or its working
status never gets it back.
-/

namespace DocFlow.Pipeline

/-- The claim lies behind the attempt. -/
def Attempt.Claimed : Attempt → Prop
  | claiming _ => False
  | _ => True

/-- Claimed, and not completed. -/
def Attempt.Underway : Attempt → Prop
  | claiming _ => False
  | completed _ => False
  | _ => True

/-- The compensator the phase is of. -/
def CompensationPhase.Of (stage : Stage) : CompensationPhase → Prop
  | failProcessing => stage = .process
  | processWaiting => stage = .process
  | processFenced => stage = .process
  | clearing _ => stage = .process
  | failChunking => stage = .buildChunks
  | prepareIndex => stage = .indexVectors
  | indexWaiting _ => stage = .indexVectors
  | indexFenced _ => stage = .indexVectors
  | pointsDeleted _ => stage = .indexVectors
  | ended => True

theorem Stage.compensator_of (stage : Stage) : stage.compensator.Of stage := by
  cases stage <;> rfl

abbrev World.status (w : World) : DocumentStatus := w.rows.document.status

abbrev World.owner (w : World) : Option String := w.rows.document.activeOperationId

section Moves

variable {settings : Settings} {w w' : World} {act : Action}

/-! ## Attempts go on -/

/-- Only a running attempt moves, within its stage; it completes when it gives the document back. -/
def Progress (w' : World) (a a' : Attempt) : Prop :=
  a' = a ∨ a.running = true ∧ a'.stage = a.stage ∧
    (a'.Underway ∨ a' = .completed a.stage ∧ w'.owner = none)

theorem Progress.stage {a a' : Attempt} (h : Progress w' a a') : a'.stage = a.stage := by
  rcases h with rfl | ⟨-, h, -⟩
  · rfl
  · exact h

theorem Progress.claimed {a a' : Attempt} (h : Progress w' a a') (hc : a.Claimed) :
    a'.Claimed := by
  rcases h with rfl | ⟨-, -, h | ⟨rfl, -⟩⟩
  · exact hc
  · cases a' <;> trivial
  · trivial

theorem Progress.underway {a a' : Attempt} (h : Progress w' a a') (hu : a.Underway) {o : String}
    (ho : w'.owner = some o) : a'.Underway := by
  rcases h with rfl | ⟨-, -, h | ⟨-, hnone⟩⟩
  · exact hu
  · exact h
  · rw [ho] at hnone
    cases hnone

theorem progress_setAttempt {w₁ : World} (hw : w₁.attempts = w.attempts) {o : String}
    {a a' : Attempt} (h : w.attempts o = some a) (hr : a.running = true)
    (hstage : a'.stage = a.stage)
    (hu : a'.Underway ∨ a' = .completed a.stage ∧ w₁.owner = none) :
    ∀ o' b, w.attempts o' = some b →
      ∃ b', (w₁.setAttempt o a').attempts o' = some b' ∧ Progress (w₁.setAttempt o a') b b' := by
  intro o' b hb
  rw [World.attempts_setAttempt]
  by_cases ho : o' = o
  · subst ho
    obtain rfl := Option.some.inj (h.symm.trans hb)
    rw [if_pos rfl]
    exact ⟨a', rfl, .inr ⟨hr, hstage, hu⟩⟩
  · rw [if_neg ho, hw]
    exact ⟨b, hb, .inl rfl⟩

theorem FileMove.stages {processing : ProcessingSettings} {files files' : List FilePath}
    {a a' : Attempt} (h : FileMove processing files a a' files') :
    a.running = true ∧ a'.stage = a.stage ∧ a'.Underway := by
  cases h <;> exact ⟨rfl, rfl, trivial⟩

theorem Moved.progress (hm : Moved settings w act w') :
    ∀ o a, w.attempts o = some a → ∃ a', w'.attempts o = some a' ∧ Progress w' a a' := by
  have hsame : ∀ w' : World, ∀ o a, w.attempts o = some a →
      ∃ a', w.attempts o = some a' ∧ Progress w' a a' := fun w' o a ha => ⟨a, ha, .inl rfl⟩
  cases hm with
  | @started o stage h =>
    intro o' b hb
    rw [World.attempts_setAttempt]
    have ho : o' ≠ o := by
      rintro rfl
      rw [h] at hb
      cases hb
    rw [if_neg ho]
    exact hsame _ o' b hb
  | halted h hr ha => exact progress_setAttempt (by rfl) h hr (by rfl) (.inl (by trivial))
  | claimedProcess h hc hk hsource => exact progress_setAttempt (by rfl) h rfl (by rfl) (.inl (by trivial))
  | claimedChunks h hc hnew hsource hk hid hkb hdomain =>
    exact progress_setAttempt (by rfl) h rfl (by rfl) (.inl (by trivial))
  | claimedIndex h hc hnone hsome hchunks hk =>
    exact progress_setAttempt (by rfl) h rfl (by rfl) (.inl (by trivial))
  | processAcquired h hf => exact progress_setAttempt (by rfl) h rfl (by rfl) (.inl (by trivial))
  | indexAcquired h hf => exact progress_setAttempt (by rfl) h rfl (by rfl) (.inl (by trivial))
  | processOwned h hs ho => exact progress_setAttempt (by rfl) h rfl (by rfl) (.inl (by trivial))
  | indexOwned h hs ho => exact progress_setAttempt (by rfl) h rfl (by rfl) (.inl (by trivial))
  | filesMoved h ha hf =>
    obtain ⟨hr, hstage, hunder⟩ := hf.stages
    exact progress_setAttempt (by rfl) h hr hstage (.inl hunder)
  | stagingCleared h hm => exact progress_setAttempt (by rfl) h rfl (by rfl) (.inl (by trivial))
  | processCompleted h hw =>
    exact progress_setAttempt (by rfl) h rfl (by rfl) (.inr (by exact ⟨rfl, rfl⟩))
  | chunksBuilt h he => exact progress_setAttempt (by rfl) h rfl (by rfl) (.inl (by trivial))
  | chunksCompleted h hw =>
    exact progress_setAttempt (by rfl) h rfl (by rfl) (.inr (by exact ⟨rfl, rfl⟩))
  | upserted h => exact progress_setAttempt (by rfl) h rfl (by rfl) (.inl (by trivial))
  | indexCompleted h hw hlen hindexing hcount =>
    exact progress_setAttempt (by rfl) h rfl (by rfl) (.inr (by exact ⟨rfl, rfl⟩))
  | compensationStarted h hi => exact hsame _
  | processFailed h ho hs => exact hsame _
  | processNotFailed h hne => exact hsame _
  | chunksFailed h ho hs => exact hsame _
  | indexPrepared h ho hs hids => exact hsame _
  | compensationProcessFenced h hf => exact hsame _
  | compensationIndexFenced h hf => exact hsame _
  | ownerChecked h ho hs hd => exact hsame _
  | dirCleared h => exact hsame _
  | released h ho => exact hsame _
  | pointsDeleted h => exact hsame _
  | indexFailed h ho hs => exact hsame _
  | ended h ha => exact hsame _
  | lifecycleChanged => exact hsame _

/-! ## The document changes hands -/

/-- The step is of a compensation of the operation. -/
def CompensationStep (w : World) (act : Action) (o : String) : Prop :=
  ∃ i c, act.compensation = some i ∧ w.compensations i = some c ∧ c.operationId = o

/-- What a step does to the status and the owner. -/
inductive Handover (w : World) (act : Action) (w' : World) : Prop
  | kept (hs : w'.status = w.status) (ho : w'.owner = w.owner)
  | claimed {o : String} {stage : Stage} (ha : act = .claim o)
      (h : w.attempts o = some (.claiming stage)) (hc : Claimable stage w.rows.document)
      (hnew : ∃ a, w'.attempts o = some a ∧ a.Underway ∧ a.stage = stage)
      (hs : w'.status = stage.working) (ho : w'.owner = some o)
  | completed {o : String} {stage : Stage} (ha : act = .complete o)
      (hw : AtWork stage w.rows.document o)
      (hs : w'.status = .processed ∨ w'.status = .chunked ∨ w'.status = .indexed)
      (ho : w'.owner = none)
  | failed {o : String} (hc : CompensationStep w act o) (hown : w.owner = some o)
      (hbefore : w.status = .processing ∨ w.status = .indexing ∨ w.status = .failed)
      (hs : w'.status = .failed) (ho : w'.owner = some o)
  | released {o : String} (hc : CompensationStep w act o) (hown : w.owner = some o)
      (hs : w'.status = .failed ∨ w'.status = w.status ∧ ∃ i,
        w.compensations i = some ⟨o, .clearing []⟩)
      (ho : w'.owner = none)

theorem attempts_new (o : String) (attempt : Attempt) :
    (w.setAttempt o attempt).attempts o = some attempt := by
  rw [World.attempts_setAttempt, if_pos rfl]

theorem Moved.handover (hm : Moved settings w act w') : Handover w act w' := by
  cases hm with
  | started h => exact .kept rfl rfl
  | halted h hr ha => exact .kept rfl rfl
  | claimedProcess h hc hk hsource =>
    exact .claimed rfl h hc ⟨_, attempts_new .., trivial, rfl⟩ rfl rfl
  | claimedChunks h hc hnew hsource hk hid hkb hdomain =>
    exact .claimed rfl h hc ⟨_, attempts_new .., trivial, rfl⟩ rfl rfl
  | claimedIndex h hc hnone hsome hchunks hk =>
    exact .claimed rfl h hc ⟨_, attempts_new .., trivial, rfl⟩ rfl rfl
  | processAcquired h hf => exact .kept rfl rfl
  | indexAcquired h hf => exact .kept rfl rfl
  | processOwned h hs ho => exact .kept rfl rfl
  | indexOwned h hs ho => exact .kept rfl rfl
  | filesMoved h ha hf => exact .kept rfl rfl
  | stagingCleared h hm => exact .kept rfl rfl
  | processCompleted h hw => exact .completed rfl hw (.inl rfl) rfl
  | chunksBuilt h he => exact .kept rfl rfl
  | chunksCompleted h hw => exact .completed rfl hw (.inr (.inl rfl)) rfl
  | upserted h => exact .kept rfl rfl
  | indexCompleted h hw hlen hindexing hcount =>
    exact .completed rfl hw (.inr (.inr rfl)) rfl
  | compensationStarted h hi => exact .kept rfl rfl
  | @processFailed i o h ho hs => exact .failed ⟨i, _, rfl, h, rfl⟩ ho (.inl hs) rfl ho
  | processNotFailed h hne => exact .kept rfl rfl
  | @chunksFailed i o h ho hs => exact .released ⟨i, _, rfl, h, rfl⟩ ho (.inl rfl) rfl
  | @indexPrepared i o snapshot h ho hs hids =>
    exact .failed ⟨i, _, rfl, h, rfl⟩ ho (.inr hs) rfl ho
  | compensationProcessFenced h hf => exact .kept rfl rfl
  | compensationIndexFenced h hf => exact .kept rfl rfl
  | ownerChecked h ho hs hd => exact .kept rfl rfl
  | dirCleared h => exact .kept rfl rfl
  | @released i o h ho => exact .released ⟨i, _, rfl, h, rfl⟩ ho (.inr ⟨rfl, i, h⟩) rfl
  | pointsDeleted h => exact .kept rfl rfl
  | @indexFailed i o snapshot h ho hs => exact .released ⟨i, _, rfl, h, rfl⟩ ho (.inl rfl) rfl
  | ended h ha => exact .kept rfl rfl
  | lifecycleChanged => exact .kept rfl rfl

/-! ## The invariant -/

/-- What ties the attempts and the compensations to the document. -/
structure Roles (w : World) : Prop where
  keyed : Keyed w
  /-- a compensation runs the compensator of its operation's stage -/
  matching : ∀ i c, w.compensations i = some c →
    ∃ a, w.attempts c.operationId = some a ∧ c.phase.Of a.stage
  owner : ∀ o, w.owner = some o → ∃ a, w.attempts o = some a ∧ a.Underway ∧
    (w.status = a.stage.working ∨ w.status = .failed ∧ a.stage ≠ .buildChunks)
  free : w.owner = none → ∀ stage : Stage, w.status ≠ stage.working
  /-- a compensation that clears directories knows that its operation failed -/
  clearing : ∀ i c dirs, w.compensations i = some c → c.phase = .clearing dirs →
    (∃ a, w.attempts c.operationId = some a ∧ a.Claimed) ∧
      (w.owner = some c.operationId → w.status = .failed)

theorem Attempt.Underway.claimed {a : Attempt} (h : a.Underway) : a.Claimed := by
  cases a <;> trivial

theorem Uploaded.roles (h : Uploaded w) : Roles w := by
  refine ⟨?_, ?_, ?_, ?_, ?_⟩
  · intro o a ha
    rw [h.attempts] at ha
    cases ha
  · intro i c hc
    rw [h.compensations] at hc
    cases hc
  · intro o ho
    rw [World.owner, h.owner] at ho
    cases ho
  · intro _ stage
    rw [World.status, h.status]
    cases stage <;> decide
  · intro i c dirs hc
    rw [h.compensations] at hc
    cases hc

theorem FileMove.keyed {processing : ProcessingSettings} {files files' : List FilePath}
    {a a' : Attempt} {o : String} (h : FileMove processing files a a' files') (hk : a.Keyed o) :
    a'.Keyed o := by
  cases h with
  | prepared h => exact hk
  | executed h => exact (executeProcessing_eq_ok h).1.key.trans hk
  | cleaned h =>
    show ProcessingExecutionResult.operationId _ = o
    rw [(promoteCleaned_eq_ok h).2.1]
    exact hk
  | secondary h =>
    show ProcessingExecutionResult.operationId _ = o
    rw [(promoteSecondary_eq_ok h).1]
    exact hk

theorem Keyed.moved (hk : Keyed w) (hm : Moved settings w act w') : Keyed w' := by
  cases hm with
  | started h => exact World.forall_setAttempt hk trivial
  | halted h hr ha => exact World.forall_setAttempt hk trivial
  | claimedProcess h hc hkey hsource => exact World.forall_setAttempt hk hkey
  | claimedChunks h hc hnew hsource hkey hid hkb hdomain => exact World.forall_setAttempt hk hkey
  | claimedIndex h hc hnone hsome hchunks hkey => exact World.forall_setAttempt hk hkey
  | processAcquired h hf =>
    have hkey := hk _ _ h
    exact World.forall_setAttempt hk hkey
  | indexAcquired h hf =>
    have hkey := hk _ _ h
    exact World.forall_setAttempt hk hkey
  | processOwned h hs ho =>
    have hkey := hk _ _ h
    exact World.forall_setAttempt hk hkey
  | indexOwned h hs ho =>
    have hkey := hk _ _ h
    exact World.forall_setAttempt hk hkey
  | filesMoved h ha hf => exact World.forall_setAttempt hk (hf.keyed (hk _ _ h))
  | stagingCleared h hm =>
    have hkey := hk _ _ h
    exact World.forall_setAttempt hk hkey
  | processCompleted h hw => exact World.forall_setAttempt hk trivial
  | chunksBuilt h he =>
    have hkey := hk _ _ h
    exact World.forall_setAttempt hk hkey
  | chunksCompleted h hw => exact World.forall_setAttempt hk trivial
  | upserted h =>
    have hkey := hk _ _ h
    exact World.forall_setAttempt hk hkey
  | indexCompleted h hw hlen hindexing hcount => exact World.forall_setAttempt hk trivial
  | compensationStarted h hi => exact hk
  | processFailed h ho hs => exact hk
  | processNotFailed h hne => exact hk
  | chunksFailed h ho hs => exact hk
  | indexPrepared h ho hs hids => exact hk
  | compensationProcessFenced h hf => exact hk
  | compensationIndexFenced h hf => exact hk
  | ownerChecked h ho hs hd => exact hk
  | dirCleared h => exact hk
  | released h ho => exact hk
  | pointsDeleted h => exact hk
  | indexFailed h ho hs => exact hk
  | ended h ha => exact hk
  | lifecycleChanged => exact hk

/-- What becomes of a compensation: it stays with its operation and that operation's compensator,
and begins to clear only where the operation holds the failed document. -/
structure CompensationMove (w : World) (d c : Compensation) : Prop where
  operation : d.operationId = c.operationId
  phase : ∀ stage, d.phase.Of stage → c.phase.Of stage
  clearing : ∀ dirs, c.phase = .clearing dirs →
    (∃ dirs', d.phase = .clearing dirs') ∨ w.owner = some c.operationId ∧ w.status = .failed

theorem CompensationMove.refl (c : Compensation) : CompensationMove w c c :=
  ⟨rfl, fun _ h => h, fun dirs h => .inl ⟨dirs, h⟩⟩

/-- A move to a phase that clears nothing. -/
theorem CompensationMove.of_phase {o : String} {phase phase' : CompensationPhase}
    (h : ∀ stage, phase.Of stage → phase'.Of stage) (hc : ∀ dirs, phase' ≠ .clearing dirs) :
    CompensationMove w ⟨o, phase⟩ ⟨o, phase'⟩ :=
  ⟨rfl, h, fun dirs hd => absurd hd (hc dirs)⟩

theorem CompensationMove.ended {c : Compensation} : CompensationMove w c ⟨c.operationId, .ended⟩ :=
  ⟨rfl, fun _ _ => trivial, fun _ h => CompensationPhase.noConfusion h⟩

theorem Moved.compensations (hm : Moved settings w act w') :
    ∀ i c, w'.compensations i = some c →
      (∃ a, w.attempts c.operationId = some a ∧ c.phase = a.stage.compensator) ∨
        ∃ d, w.compensations i = some d ∧ CompensationMove w d c := by
  have hsame : ∀ i c, w.compensations i = some c →
      (∃ a, w.attempts c.operationId = some a ∧ c.phase = a.stage.compensator) ∨
        ∃ d, w.compensations i = some d ∧ CompensationMove w d c :=
    fun i c hc => .inr ⟨c, hc, .refl c⟩
  cases hm with
  | started h => exact hsame
  | halted h hr ha => exact hsame
  | claimedProcess h hc hk hsource => exact hsame
  | claimedChunks h hc hnew hsource hk hid hkb hdomain => exact hsame
  | claimedIndex h hc hnone hsome hchunks hk => exact hsame
  | processAcquired h hf => exact hsame
  | indexAcquired h hf => exact hsame
  | processOwned h hs ho => exact hsame
  | indexOwned h hs ho => exact hsame
  | filesMoved h ha hf => exact hsame
  | stagingCleared h hm => exact hsame
  | processCompleted h hw => exact hsame
  | chunksBuilt h he => exact hsame
  | chunksCompleted h hw => exact hsame
  | upserted h => exact hsame
  | indexCompleted h hw hlen hindexing hcount => exact hsame
  | compensationStarted h hi =>
    exact World.forall_setCompensation hsame (.inl ⟨_, h, rfl⟩)
  | processFailed h ho hs =>
    exact World.forall_setCompensation hsame (.inr ⟨_, h, .of_phase (fun _ hof => hof) (by simp)⟩)
  | processNotFailed h hne =>
    exact World.forall_setCompensation hsame (.inr ⟨_, h, .of_phase (fun _ hof => hof) (by simp)⟩)
  | chunksFailed h ho hs =>
    exact World.forall_setCompensation hsame (.inr ⟨_, h, .ended⟩)
  | indexPrepared h ho hs hids =>
    exact World.forall_setCompensation hsame (.inr ⟨_, h, .of_phase (fun _ hof => hof) (by simp)⟩)
  | compensationProcessFenced h hf =>
    exact World.forall_setCompensation hsame (.inr ⟨_, h, .of_phase (fun _ hof => hof) (by simp)⟩)
  | compensationIndexFenced h hf =>
    exact World.forall_setCompensation hsame (.inr ⟨_, h, .of_phase (fun _ hof => hof) (by simp)⟩)
  | ownerChecked h ho hs hd =>
    exact World.forall_setCompensation hsame
      (.inr ⟨_, h, rfl, fun _ hof => hof, fun _ _ => .inr ⟨ho, hs⟩⟩)
  | dirCleared h =>
    exact World.forall_setCompensation hsame
      (.inr ⟨_, h, rfl, fun _ hof => hof, fun _ _ => .inl ⟨_, rfl⟩⟩)
  | released h ho =>
    exact World.forall_setCompensation hsame (.inr ⟨_, h, .ended⟩)
  | pointsDeleted h =>
    exact World.forall_setCompensation hsame (.inr ⟨_, h, .of_phase (fun _ hof => hof) (by simp)⟩)
  | indexFailed h ho hs =>
    exact World.forall_setCompensation hsame (.inr ⟨_, h, .ended⟩)
  | ended h ha =>
    exact World.forall_setCompensation hsame (.inr ⟨_, h, .ended⟩)
  | lifecycleChanged => exact hsame

theorem Roles.matching_moved (hr : Roles w) (hm : Moved settings w act w') {i : Nat}
    {c : Compensation} (hc : w'.compensations i = some c) :
    ∃ a, w'.attempts c.operationId = some a ∧ c.phase.Of a.stage := by
  rcases hm.compensations i c hc with ⟨a, ha, hphase⟩ | ⟨d, hd, hmove⟩
  · obtain ⟨a', ha', hp⟩ := hm.progress _ a ha
    refine ⟨a', ha', ?_⟩
    rw [hphase, hp.stage]
    exact a.stage.compensator_of
  · obtain ⟨a, ha, hof⟩ := hr.matching i d hd
    rw [hmove.operation] at ha
    obtain ⟨a', ha', hp⟩ := hm.progress _ a ha
    refine ⟨a', ha', ?_⟩
    rw [hp.stage]
    exact hmove.phase _ hof

/-- The owner after the step claimed in it, or owned the document before. -/
theorem Roles.owner_moved (hr : Roles w) (hm : Moved settings w act w') {o : String}
    (ho : w'.owner = some o) : ∃ a, w'.attempts o = some a ∧ a.Underway ∧
      (w'.status = a.stage.working ∨ w'.status = .failed ∧ a.stage ≠ .buildChunks) := by
  cases hm.handover with
  | kept hs hsame =>
    rw [hsame] at ho
    obtain ⟨a, ha, hu, hstatus⟩ := hr.owner o ho
    obtain ⟨a', ha', hp⟩ := hm.progress o a ha
    refine ⟨a', ha', hp.underway hu (hsame.trans ho), ?_⟩
    rw [hp.stage, hs]
    exact hstatus
  | @claimed o' stage ha h hc hnew hs hown =>
    obtain rfl : o' = o := Option.some.inj (hown.symm.trans ho)
    obtain ⟨a, ha, hu, hstage⟩ := hnew
    refine ⟨a, ha, hu, .inl ?_⟩
    rw [hs, hstage]
  | completed ha hw hs hown =>
    rw [ho] at hown
    cases hown
  | @failed o' hc hown hbefore hs hown' =>
    obtain rfl : o' = o := Option.some.inj (hown'.symm.trans ho)
    obtain ⟨a, ha, hu, hstatus⟩ := hr.owner o' hown
    obtain ⟨a', ha', hp⟩ := hm.progress o' a ha
    refine ⟨a', ha', hp.underway hu hown', .inr ⟨hs, ?_⟩⟩
    -- a chunking document is failed and freed in one transaction
    rw [hp.stage]
    rcases hstatus with hstatus | ⟨-, hne⟩
    · intro hstage
      rw [hstage] at hstatus
      rw [hstatus] at hbefore
      revert hbefore
      decide
    · exact hne
  | released hc hown hs hnone =>
    rw [ho] at hnone
    cases hnone

theorem Roles.free_moved (hr : Roles w) (hm : Moved settings w act w') (hnone : w'.owner = none)
    (stage : Stage) : w'.status ≠ stage.working := by
  cases hm.handover with
  | kept hs hsame =>
    rw [hs]
    exact hr.free (hsame.symm.trans hnone) stage
  | claimed ha h hc hnew hs hown =>
    rw [hnone] at hown
    cases hown
  | completed ha hw hs hown =>
    rcases hs with hs | hs | hs <;> rw [hs] <;> cases stage <;> decide
  | failed hc hown hbefore hs hown' =>
    rw [hnone] at hown'
    cases hown'
  | released hc hown hs hnone =>
    rcases hs with hs | ⟨hs, i, hi⟩
    · rw [hs]
      exact stage.working_ne_failed.symm
    · rw [hs, (hr.clearing i _ [] hi rfl).2 hown]
      exact stage.working_ne_failed.symm

/-- An operation that is past its claim does not come to own the document. -/
theorem Moved.owner_before (hm : Moved settings w act w') {o : String} {a : Attempt}
    (ha : w.attempts o = some a) (hc : a.Claimed) (ho : w'.owner = some o) : w.owner = some o := by
  cases hm.handover with
  | kept hs hsame => exact hsame.symm.trans ho
  | @claimed o' stage _ h _ hnew hs hown =>
    obtain rfl : o' = o := Option.some.inj (hown.symm.trans ho)
    obtain rfl := Option.some.inj (h.symm.trans ha)
    exact hc.elim
  | completed _ hw hs hown =>
    rw [ho] at hown
    cases hown
  | @failed o' _ hown hbefore hs hown' =>
    obtain rfl : o' = o := Option.some.inj (hown'.symm.trans ho)
    exact hown
  | released _ hown hs hnone =>
    rw [ho] at hnone
    cases hnone

/-- While it owns the document, a failed operation stays failed. -/
theorem Moved.failed_after (hm : Moved settings w act w') {o : String} (hown : w.owner = some o)
    (ho : w'.owner = some o) (hs : w.status = .failed) : w'.status = .failed := by
  cases hm.handover with
  | kept hs' hsame => exact hs'.trans hs
  | claimed _ h hc hnew hs' hown' =>
    have hfree : w.owner = none := hc.free
    rw [hown] at hfree
    cases hfree
  | completed _ hw hs' hnone =>
    rw [ho] at hnone
    cases hnone
  | failed _ _ hbefore hs' hown' => exact hs'
  | released _ _ hs' hnone =>
    rw [ho] at hnone
    cases hnone

theorem Roles.clearing_moved (hr : Roles w) (hm : Moved settings w act w') {i : Nat}
    {c : Compensation} {dirs : List OperationDir} (hc : w'.compensations i = some c)
    (hphase : c.phase = .clearing dirs) :
    (∃ a, w'.attempts c.operationId = some a ∧ a.Claimed) ∧
      (w'.owner = some c.operationId → w'.status = .failed) := by
  have hbefore : (∃ a, w.attempts c.operationId = some a ∧ a.Claimed) ∧
      (w.owner = some c.operationId → w.status = .failed) := by
    rcases hm.compensations i c hc with ⟨a, ha, hstart⟩ | ⟨d, hd, hmove⟩
    · rw [hphase] at hstart
      cases hs : a.stage <;> rw [hs] at hstart <;> cases hstart
    · rcases hmove.clearing dirs hphase with ⟨dirs', hd'⟩ | ⟨hown, hs⟩
      · rw [← hmove.operation]
        exact hr.clearing i d dirs' hd hd'
      · obtain ⟨a, ha, hu, -⟩ := hr.owner _ hown
        exact ⟨⟨a, ha, hu.claimed⟩, fun _ => hs⟩
  obtain ⟨⟨a, ha, hclaimed⟩, hfailed⟩ := hbefore
  obtain ⟨a', ha', hp⟩ := hm.progress _ a ha
  refine ⟨⟨a', ha', hp.claimed hclaimed⟩, fun ho => ?_⟩
  have hown := hm.owner_before ha hclaimed ho
  exact hm.failed_after hown ho (hfailed hown)

theorem Roles.moved (hr : Roles w) (hm : Moved settings w act w') : Roles w' where
  keyed := hr.keyed.moved hm
  matching _ _ hc := hr.matching_moved hm hc
  owner _ ho := hr.owner_moved hm ho
  free hnone := hr.free_moved hm hnone
  clearing _ _ _ hc hphase := hr.clearing_moved hm hc hphase

end Moves

/-! ## Exclusive work on the document -/

section Exclusive

variable {settings : Settings}

theorem reachable_roles {w : World} (hw : (pipeline settings).Reachable w) : Roles w := by
  refine Machine.ReachableVia.invariant (P := Roles) ?_ ?_ hw
  · intro w h
    exact Uploaded.roles h
  · intro w act w' _ hr _ hs
    exact hr.moved (step_moved hr.keyed hs)

theorem reachable_moved {w w' : World} {act : Action} (hw : (pipeline settings).Reachable w)
    (hs : step settings w act = some w') : Moved settings w act w' :=
  step_moved (reachable_roles hw).keyed hs

theorem reachable_step {w w' : World} {act : Action} (hw : (pipeline settings).Reachable w)
    (hs : step settings w act = some w') : (pipeline settings).Reachable w' :=
  Machine.ReachableVia.step (a := act) hw trivial hs

/-- The step takes the document from the operation. -/
def Releases (settings : Settings) (o : String) (w : World) (act : Action) : Prop :=
  w.owner = some o ∧ ∀ w' ∈ step settings w act, w'.owner ≠ some o

/-- The operation is at work: it owns the document, and the document stands in its stage. -/
def World.WorkedBy (w : World) (o : String) (stage : Stage) : Prop :=
  w.owner = some o ∧ w.status = stage.working

/-- The step is the completion, or a step of a compensation, of an operation that does not own the
document. -/
def Stale (w : World) (act : Action) : Prop :=
  (∃ o, act = .complete o ∧ w.owner ≠ some o) ∨
    ∃ i c, act.compensation = some i ∧ w.compensations i = some c ∧ w.owner ≠ some c.operationId

/-- Between two states of a run without a release, the owner stays. -/
theorem owner_of_runVia {o : String} {w w' : World} {as : List Action}
    (h : (pipeline settings).RunVia (fun w act => ¬ Releases settings o w act) w as w')
    (ho : w.owner = some o) : w'.owner = some o := by
  induction h with
  | nil => exact ho
  | @cons w m w' act as hok hs _ ih =>
    refine ih ?_
    by_contra hne
    refine hok ⟨ho, ?_⟩
    intro m' hm'
    obtain rfl := Option.some.inj (hs.symm.trans (Option.mem_def.mp hm'))
    exact hne

/-- While an operation owns the document, a claim changes no row and ends its attempt. -/
theorem claim_refused {w w' : World} (hw : (pipeline settings).Reachable w) {o p : String}
    (ho : w.owner = some o) (hs : step settings w (.claim p) = some w') :
    w'.rows = w.rows ∧ ∃ stage, w'.attempts p = some (.stopped stage) := by
  have hfree : ∀ stage, ¬ Claimable stage w.rows.document := by
    intro stage hc
    have hnone : w.owner = none := hc.free
    rw [ho] at hnone
    cases hnone
  cases reachable_moved hw hs with
  | halted h hr ha =>
    obtain rfl := Option.some.inj ha
    exact ⟨rfl, _, attempts_new ..⟩
  | claimedProcess h hc hk hsource => exact absurd hc (hfree _)
  | claimedChunks h hc hnew hsource hk hid hkb hdomain => exact absurd hc (hfree _)
  | claimedIndex h hc hnone hsome hchunks hk => exact absurd hc (hfree _)
  | filesMoved h ha hf => cases ha
  | ended h ha => cases ha

/-- The claim of the operation's attempt lies behind it. -/
def World.PastClaim (w : World) (o : String) (stage : Stage) : Prop :=
  ∃ a, w.attempts o = some a ∧ a.Claimed ∧ a.stage = stage

theorem Moved.pastClaim {w w' : World} {act : Action} (hm : Moved settings w act w') {o : String}
    {stage : Stage} (h : w.PastClaim o stage) : w'.PastClaim o stage := by
  obtain ⟨a, ha, hc, hstage⟩ := h
  obtain ⟨a', ha', hp⟩ := hm.progress o a ha
  exact ⟨a', ha', hp.claimed hc, hp.stage.trans hstage⟩

theorem pastClaim_of_claim {w w' : World} (hw : (pipeline settings).Reachable w) {o : String}
    {stage : Stage} (h : w.attempts o = some (.claiming stage))
    (hs : step settings w (.claim o) = some w') : w'.PastClaim o stage := by
  have hstage : ∀ {stage'}, w.attempts o = some (.claiming stage') → stage' = stage := by
    intro stage' h'
    cases h.symm.trans h'
    rfl
  cases reachable_moved hw hs with
  | halted h' hr ha =>
    obtain rfl := Option.some.inj ha
    obtain rfl := Option.some.inj (h.symm.trans h')
    exact ⟨_, attempts_new .., trivial, rfl⟩
  | claimedProcess h' hc hk hsource => exact ⟨_, attempts_new .., trivial, hstage h'⟩
  | claimedChunks h' hc hnew hsource hk hid hkb hdomain =>
    exact ⟨_, attempts_new .., trivial, hstage h'⟩
  | claimedIndex h' hc hnone hsome hchunks hk =>
    exact ⟨_, attempts_new .., trivial, hstage h'⟩
  | filesMoved h' ha hf => cases ha
  | ended h' ha => cases ha

/-- **An operation past its claim does not begin to work.** -/
theorem Moved.workedBy_before {w w' : World} {act : Action} (hm : Moved settings w act w')
    {o : String} {stage : Stage} (hpast : w.PastClaim o stage) (h : w'.WorkedBy o stage) :
    w.WorkedBy o stage := by
  obtain ⟨ho, hs⟩ := h
  obtain ⟨a, ha, hc, -⟩ := hpast
  refine ⟨hm.owner_before ha hc ho, ?_⟩
  cases hm.handover with
  | kept hs' hsame => exact hs'.symm.trans hs
  | @claimed o' stage' _ hclaiming _ _ _ hown =>
    obtain rfl : o' = o := Option.some.inj (hown.symm.trans ho)
    obtain rfl := Option.some.inj (hclaiming.symm.trans ha)
    exact hc.elim
  | completed _ _ _ hnone =>
    rw [ho] at hnone
    cases hnone
  | failed _ _ _ hs' _ => exact absurd (hs.symm.trans hs') stage.working_ne_failed
  | released _ _ _ hnone =>
    rw [ho] at hnone
    cases hnone

/-- It worked through the whole run, if it works at its end. -/
theorem workedBy_of_run {o : String} {stage : Stage} {w w' : World} {as : List Action}
    (hw : (pipeline settings).Reachable w) (hpast : w.PastClaim o stage)
    (h : (pipeline settings).run w as = some w') (hwork : w'.WorkedBy o stage) :
    w.WorkedBy o stage := by
  induction as generalizing w with
  | nil =>
    obtain rfl := Option.some.inj h
    exact hwork
  | cons act as ih =>
    obtain ⟨m, hs, h⟩ := Machine.run_cons.mp h
    have hm := reachable_moved hw hs
    exact hm.workedBy_before hpast (ih (.step hw trivial hs) (hm.pastClaim hpast) h)

theorem pastClaim_of_run {o : String} {stage : Stage} {w w' : World} {as : List Action}
    (hw : (pipeline settings).Reachable w) (hpast : w.PastClaim o stage)
    (h : (pipeline settings).run w as = some w') : w'.PastClaim o stage := by
  induction as generalizing w with
  | nil =>
    obtain rfl := Option.some.inj h
    exact hpast
  | cons act as ih =>
    obtain ⟨m, hs, h⟩ := Machine.run_cons.mp h
    exact ih (.step hw trivial hs) ((reachable_moved hw hs).pastClaim hpast) h

/-- A completion that changes a row is of the operation at work. -/
theorem workedBy_of_complete {w w' : World} (hw : (pipeline settings).Reachable w) {o : String}
    {stage : Stage} (hpast : w.PastClaim o stage) (hs : step settings w (.complete o) = some w')
    (hne : w'.rows ≠ w.rows) : w.WorkedBy o stage := by
  obtain ⟨a, ha, -, rfl⟩ := hpast
  cases reachable_moved hw hs with
  | halted h hr hact => exact absurd rfl hne
  | filesMoved h hact hf => cases hact
  | processCompleted h hwork =>
    obtain rfl := Option.some.inj (ha.symm.trans h)
    exact ⟨hwork.owner, hwork.status⟩
  | chunksCompleted h hwork =>
    obtain rfl := Option.some.inj (ha.symm.trans h)
    exact ⟨hwork.owner, hwork.status⟩
  | indexCompleted h hwork hlen hindexing hcount =>
    obtain rfl := Option.some.inj (ha.symm.trans h)
    exact ⟨hwork.owner, hwork.status⟩
  | ended h hact => cases hact

/-- A stale completion, and a stale step of a compensation, change no row. -/
theorem rows_of_stale {w w' : World} (hw : (pipeline settings).Reachable w) {act : Action}
    (hstale : Stale w act) (hs : step settings w act = some w') : w'.rows = w.rows := by
  have hcomp : ∀ {i o phase}, act.compensation = some i →
      w.compensations i = some ⟨o, phase⟩ → w.owner ≠ some o := by
    intro i o phase ha hi
    rcases hstale with ⟨o', rfl, -⟩ | ⟨j, c, hact, hj, hne⟩
    · cases ha
    · obtain rfl := Option.some.inj (ha.symm.trans hact)
      obtain rfl := Option.some.inj (hj.symm.trans hi)
      exact hne
  have hcompleted : ∀ {o stage}, act = .complete o → AtWork stage w.rows.document o → False := by
    intro o stage ha hwork
    rcases hstale with ⟨o', ha', hne⟩ | ⟨j, c, hact, -, -⟩
    · rw [ha] at ha'
      cases ha'
      exact hne hwork.owner
    · rw [ha] at hact
      cases hact
  have hkept : act.compensation = none → (∀ o, act ≠ .complete o) → False := by
    intro hnone hne
    rcases hstale with ⟨o, ha, -⟩ | ⟨j, c, hact, -, -⟩
    · exact hne o ha
    · rw [hnone] at hact
      cases hact
  cases reachable_moved hw hs with
  | claimedProcess h hc hk hsource => exact (hkept rfl (by simp)).elim
  | claimedChunks h hc hnew hsource hk hid hkb hdomain => exact (hkept rfl (by simp)).elim
  | claimedIndex h hc hnone hsome hchunks hk => exact (hkept rfl (by simp)).elim
  | processCompleted h hwork => exact (hcompleted rfl hwork).elim
  | chunksCompleted h hwork => exact (hcompleted rfl hwork).elim
  | indexCompleted h hwork hlen hindexing hcount => exact (hcompleted rfl hwork).elim
  | processFailed h ho _ => exact absurd ho (hcomp rfl h)
  | chunksFailed h ho _ => exact absurd ho (hcomp rfl h)
  | indexPrepared h ho _ _ => exact absurd ho (hcomp rfl h)
  | released h ho => exact absurd ho (hcomp rfl h)
  | indexFailed h ho _ => exact absurd ho (hcomp rfl h)
  | lifecycleChanged => exact (hkept rfl (by simp)).elim
  | _ => rfl

/-- **Exclusive document pipeline.**  From the claim of an operation to its release no claim
succeeds; a completion changes rows only if its operation owned the document, in its working status,
in every state since its claim; a stale completion or compensation changes no row. -/
theorem document_pipeline_exclusive (settings : Settings) :
    (∀ (w w₁ w₂ w₃ : World) (o p : String) (as : List Action),
      (pipeline settings).Reachable w → step settings w (.claim o) = some w₁ →
      w₁.owner = some o →
      (pipeline settings).RunVia (fun w act => ¬ Releases settings o w act) w₁ as w₂ →
      step settings w₂ (.claim p) = some w₃ →
      w₃.rows = w₂.rows ∧ ∃ stage, w₃.attempts p = some (.stopped stage)) ∧
    (∀ (w w₁ w₂ w₃ : World) (o : String) (stage : Stage) (as : List Action),
      (pipeline settings).Reachable w → w.attempts o = some (.claiming stage) →
      step settings w (.claim o) = some w₁ → (pipeline settings).run w₁ as = some w₂ →
      step settings w₂ (.complete o) = some w₃ → w₃.rows ≠ w₂.rows →
      ∀ bs cs m, as = bs ++ cs → (pipeline settings).run w₁ bs = some m → m.WorkedBy o stage) ∧
    ∀ (w w' : World) (act : Action), (pipeline settings).Reachable w → Stale w act →
      step settings w act = some w' → w'.rows = w.rows := by
  refine ⟨?_, ?_, ?_⟩
  · intro w w₁ w₂ w₃ o p as hw hs₁ ho hrun hs₃
    have hw₁ : (pipeline settings).Reachable w₁ := reachable_step hw hs₁
    have hw₂ : (pipeline settings).Reachable w₂ := Machine.Reachable.run hw₁ hrun.run
    exact claim_refused hw₂ (owner_of_runVia hrun ho) hs₃
  · intro w w₁ w₂ w₃ o stage as hw hclaiming hs₁ hrun hs₃ hne bs cs m has hbs
    have hw₁ : (pipeline settings).Reachable w₁ := reachable_step hw hs₁
    have hpast₁ := pastClaim_of_claim hw hclaiming hs₁
    have hw₂ : (pipeline settings).Reachable w₂ := Machine.Reachable.run hw₁ hrun
    have hwork := workedBy_of_complete hw₂ (pastClaim_of_run hw₁ hpast₁ hrun) hs₃ hne
    have hwm : (pipeline settings).Reachable m := Machine.Reachable.run hw₁ hbs
    rw [has, Machine.run_append] at hrun
    obtain ⟨m', hbs', hcs⟩ := hrun
    obtain rfl := Option.some.inj (hbs.symm.trans hbs')
    exact workedBy_of_run hwm (pastClaim_of_run hw₁ hpast₁ hbs) hcs hwork
  · intro w w' act hw hstale hs
    exact rows_of_stale hw hstale hs

end Exclusive

/-! ### Two attempts of the process stage -/

/-- Both have started. -/
def bothStarted : World := uploadedText.afterAll [.start "p" .process, .start "q" .process]

/-- The first attempt is about to complete, and a compensation of it takes the document from it. -/
def overtaken : List Action :=
  (processAll "p").dropLast ++ [.compensate 0 "p", .fail 0, .fence 0, .checkOwner 0, .clearDir 0,
    .clearDir 0, .clearDir 0, .release 0]


theorem document_pipeline_exclusive_started :
    (∃ stage, (bothStarted.afterAll [.claim "p", .acquire "p", .claim "q"]).attempts "q" =
        some (.stopped stage)) ∧
      (uploadedText.afterAll [.start "p" .process, .claim "p", .acquire "p"]).WorkedBy "p" .process ∧
      (uploadedText.afterAll (overtaken ++ [.complete "p"])).rows =
        (uploadedText.afterAll overtaken).rows := by
  obtain ⟨hrefused, hworked, hstale⟩ := document_pipeline_exclusive plainSettings
  have hinit : (pipeline plainSettings).Reachable uploadedText := .init uploadedText_uploaded
  refine ⟨?_, ?_, ?_⟩
  · have hrun : (pipeline plainSettings).RunVia (fun w act => ¬ Releases plainSettings "p" w act)
        (bothStarted.afterAll [.claim "p"]) [.acquire "p"]
        (bothStarted.afterAll [.claim "p", .acquire "p"]) := by
      refine .cons ?_ rfl (.nil _)
      rintro ⟨-, hno⟩
      exact hno _ rfl rfl
    exact (hrefused bothStarted _ _ _ "p" "q" _ (World.reachable_afterAll hinit _) rfl rfl hrun rfl).2
  · refine hworked (uploadedText.afterAll [.start "p" .process]) _ _ _ "p" .process
      ((processAll "p").dropLast.drop 2) (World.reachable_afterAll hinit _) rfl rfl rfl rfl ?_
      [.acquire "p"] _ _ rfl rfl
    intro h
    have hstatus := congrArg (fun rows => rows.document.status) h
    cases hstatus
  · exact hstale _ _ (.complete "p") (World.reachable_afterAll hinit overtaken)
      (.inl ⟨"p", rfl, by decide⟩) rfl

end DocFlow.Pipeline
