import DocFlow.Document.Chunks

/-!
# After a compensation the stage can be retried

An attempt claims the document, does not complete, and a compensation of its operation returns.  If
nobody else claims the document meanwhile, its rows are those of the claim up to the vector statuses,
and another attempt of the stage is admitted, with one exception by design: the chunk stage may be
claimed from `processed` with the chunks of an earlier run in place, but not from `failed`.
-/

namespace DocFlow.Pipeline

section Step

variable {settings : Settings} {w w' : World} {act : Action}

/-- Nobody else claims, the operation does not complete, and the document stays in use. -/
structure Quiet (settings : Settings) (o : String) (w : World) (act : Action) : Prop where
  claim : ∀ p, act = .claim p → ∀ w' ∈ step settings w act, w'.rows = w.rows
  complete : act = .complete o → ∀ w' ∈ step settings w act, w'.rows = w.rows
  lifecycle : ∀ lifecycle storage, act = .changeLifecycle lifecycle storage →
    lifecycle = w.rows.document.lifecycleStatus ∧ storage = w.rows.document.storageStatus

/-- The step with which a compensation of the operation returns.  It returns early where the
document is not the operation's any more; a compensation of the process stage that does so has begun
after the claim, in the state `w₁`. -/
inductive CompensatorReturns (w₁ w : World) (o : String) : Action → Prop
  | process {i : Nat} (h : w.compensations i = some ⟨o, .clearing []⟩) :
      CompensatorReturns w₁ w o (.release i)
  | processGone {i : Nat} (hnew : w₁.compensations i = none)
      (h : w.compensations i = some ⟨o, .processFenced⟩) (hgone : ownsFailed o w.rows = false) :
      CompensatorReturns w₁ w o (.checkOwner i)
  | chunks {i : Nat} (h : w.compensations i = some ⟨o, .failChunking⟩) :
      CompensatorReturns w₁ w o (.fail i)
  | index {i : Nat} {snapshot : IndexingCompensationSnapshot}
      (h : w.compensations i = some ⟨o, .pointsDeleted snapshot⟩) :
      CompensatorReturns w₁ w o (.finish i)
  | indexGone {i : Nat} (h : w.compensations i = some ⟨o, .prepareIndex⟩)
      (hgone : (prepareCompensation o w.rows).1 = none) :
      CompensatorReturns w₁ w o (.prepare i)

/-! ### A compensation that waits for the fence -/

/-- Between its first transaction and the check of the owner. -/
def CompensationPhase.waiting : CompensationPhase → Bool
  | processWaiting => true
  | processFenced => true
  | _ => false

/-- If it waits, and its operation owns the document, that operation has failed. -/
def FailedFor (o : String) (w : World) (c : Compensation) : Prop :=
  c.operationId = o → c.phase.waiting = true → w.owner = some o → w.status = .failed

theorem FailedFor.moved (hr : Roles w) (hm : Moved settings w act w') {o : String} {stage : Stage}
    (hpast : w.PastClaim o stage) {i : Nat}
    (h : ∀ c, w.compensations i = some c → FailedFor o w c) :
    ∀ c, w'.compensations i = some c → FailedFor o w' c := by
  have hafter : (w.owner = some o → w.status = .failed) →
      w'.owner = some o → w'.status = .failed := by
    intro hf ho'
    obtain ⟨a, ha, hc, -⟩ := hpast
    have ho := hm.owner_before ha hc ho'
    exact hm.failed_after ho ho' (hf ho)
  have hsame : ∀ j c, w.compensations j = some c → j = i → FailedFor o w' c := by
    rintro j c hc rfl hop hwait
    exact hafter (h c hc hop hwait)
  have hnone : ∀ {c : Compensation} {j : Nat}, c.phase.waiting = false → j = i →
      FailedFor o w' c := by
    intro c j hphase _ _ hwait
    rw [hphase] at hwait
    cases hwait
  have hall : ∀ j c, w'.compensations j = some c → j = i → FailedFor o w' c := by
    cases hm with
    | @compensationStarted j o' a _ _ =>
      exact World.forall_setCompensation hsame (hnone (by cases hs : a.stage <;> rfl))
    | processFailed _ _ _ =>
      exact World.forall_setCompensation hsame (fun _ _ _ _ => rfl)
    | @processNotFailed j o' hj hne =>
      refine World.forall_setCompensation hsame ?_
      rintro - rfl -
      refine hafter fun ho => ?_
      obtain ⟨a, ha, -, hstatus⟩ := hr.owner o' ho
      obtain ⟨b, hb, hof⟩ := hr.matching j _ hj
      obtain rfl := Option.some.inj (ha.symm.trans hb)
      have hstage : a.stage = .process := hof
      rw [hstage] at hstatus
      rcases hstatus with hstatus | ⟨hstatus, -⟩
      · exact absurd ⟨ho, hstatus⟩ hne
      · exact hstatus
    | chunksFailed _ _ _ => exact World.forall_setCompensation hsame (hnone rfl)
    | indexPrepared _ _ _ _ => exact World.forall_setCompensation hsame (hnone rfl)
    | compensationProcessFenced hj _ =>
      refine World.forall_setCompensation hsame ?_
      rintro rfl hop -
      exact hafter (h _ hj hop rfl)
    | compensationIndexFenced _ _ => exact World.forall_setCompensation hsame (hnone rfl)
    | ownerChecked _ _ _ _ => exact World.forall_setCompensation hsame (hnone rfl)
    | dirCleared _ => exact World.forall_setCompensation hsame (hnone rfl)
    | released _ _ => exact World.forall_setCompensation hsame (hnone rfl)
    | pointsDeleted _ => exact World.forall_setCompensation hsame (hnone rfl)
    | indexFailed _ _ _ => exact World.forall_setCompensation hsame (hnone rfl)
    | ended _ _ => exact World.forall_setCompensation hsame (hnone rfl)
    | _ => exact hsame
  intro c hc
  exact hall i c hc rfl

/-- **A compensation that returns leaves the document to others.** -/
theorem released_of_returns (hc : ChunkState w) {w₁ : World} {o : String}
    (hret : CompensatorReturns w₁ w o act)
    (hfailed : ∀ i, w₁.compensations i = none → ∀ c, w.compensations i = some c → FailedFor o w c)
    (hs : step settings w act = some w') : w'.owner ≠ some o := by
  cases hret with
  | process h =>
    simp only [step, h] at hs
    obtain rfl := Option.some.inj hs
    show (releaseProcessing o w.rows).document.activeOperationId ≠ some o
    rw [releaseProcessing_rows]
    split_ifs with hown
    · exact (Option.some_ne_none o).symm
    · exact hown
  | @processGone i hnew h hgone =>
    simp only [step, checkOwnerStep, h, hgone, Bool.false_eq_true, if_false] at hs
    obtain rfl := Option.some.inj hs
    intro ho
    have hstatus := hfailed i hnew _ h rfl rfl ho
    have hown : ownsFailed o w.rows = true := ownsFailed_eq_true.mpr ⟨ho, hstatus⟩
    rw [hown] at hgone
    cases hgone
  | chunks h =>
    simp only [step, failStep, h] at hs
    obtain rfl := Option.some.inj hs
    show (failChunking o w.rows).2.document.activeOperationId ≠ some o
    rw [failChunking_rows]
    split_ifs with hown
    · exact (Option.some_ne_none o).symm
    · intro ho
      obtain ⟨a, ha, hof⟩ := hc.roles.matching _ _ h
      obtain ⟨b, hb, -, hstatus⟩ := hc.roles.owner o ho
      obtain rfl := Option.some.inj (ha.symm.trans hb)
      have hstage : a.stage = .buildChunks := hof
      rw [hstage] at hstatus
      rcases hstatus with hstatus | ⟨-, hne⟩
      · exact hown ⟨ho, hstatus⟩
      · exact hne rfl
  | @index i snapshot h =>
    simp only [step, h] at hs
    obtain rfl := Option.some.inj hs
    show (completeCompensation snapshot o w.rows).2.document.activeOperationId ≠ some o
    rw [completeCompensation_rows]
    split_ifs with hown
    · exact (Option.some_ne_none o).symm
    · intro ho
      exact hown ⟨ho, ((hc.work.snapshot _ _ snapshot h rfl).2 ho).1⟩
  | indexGone h hgone =>
    simp only [step, prepareStep, h, hgone] at hs
    obtain rfl := Option.some.inj hs
    intro ho
    obtain ⟨a, ha, hof⟩ := hc.roles.matching _ _ h
    obtain ⟨b, hb, -, hstatus⟩ := hc.roles.owner o ho
    obtain rfl := Option.some.inj (ha.symm.trans hb)
    have hstage : a.stage = .indexVectors := hof
    have hstatus' : w.rows.document.status = .indexing ∨ w.rows.document.status = .failed := by
      rw [hstage] at hstatus
      exact hstatus.imp_right And.left
    have hsome : (prepareCompensation o w.rows).1 ≠ none := by
      unfold prepareCompensation
      dsimp only
      rw [if_neg]
      · exact Option.some_ne_none _
      · rintro (hne | hne)
        · exact hne ho
        · exact hne (by simpa using hstatus')
    exact hsome hgone

/-- Neither a claim, nor a completion, nor a change of the lifecycle. -/
def Action.bystander : Action → Bool
  | claim _ => false
  | complete _ => false
  | changeLifecycle _ _ => false
  | _ => true

theorem Quiet.of_bystander {o : String} (h : act.bystander = true) : Quiet settings o w act := by
  refine ⟨?_, ?_, ?_⟩
  · rintro p rfl
    cases h
  · rintro rfl
    cases h
  · rintro lifecycle storage rfl
    cases h

theorem CompensatorReturns.quiet {w₁ : World} {o : String} (h : CompensatorReturns w₁ w o act) :
    Quiet settings o w act := by
  cases h <;> exact .of_bystander rfl

/-! ## What is left of the claim -/

/-- The rows since the claim of the operation, while nobody else claims. -/
structure Retained (r : DocumentRows) (o : String) (stage : Stage) (w : World) : Prop where
  past : w.PastClaim o stage
  owner : w.owner = some o ∨ w.owner = none ∧ w.status = .failed
  source : w.rows.cleanedSource = r.cleanedSource
  lifecycle : w.rows.document.lifecycleStatus = r.document.lifecycleStatus
  storage : w.rows.document.storageStatus = r.document.storageStatus
  chunks : stage ≠ .indexVectors → w.rows.childChunks = r.childChunks
  failed : stage = .indexVectors → w.owner = none →
    ∃ c ∈ w.rows.childChunks, c.vectorStatus = .failed

variable {r : DocumentRows} {o : String} {stage : Stage}

theorem Retained.of_rows (h : Retained r o stage w) (hm : Moved settings w act w')
    (hrows : w'.rows = w.rows) : Retained r o stage w' := by
  have howner : w'.owner = w.owner := by rw [World.owner, hrows]
  have hstatus : w'.status = w.status := by rw [World.status, hrows]
  refine ⟨hm.pastClaim h.past, ?_, ?_, ?_, ?_, ?_, ?_⟩
  · rw [howner, hstatus]
    exact h.owner
  · rw [hrows]
    exact h.source
  · rw [hrows]
    exact h.lifecycle
  · rw [hrows]
    exact h.storage
  · rw [hrows]
    exact h.chunks
  · rw [howner, hrows]
    exact h.failed

/-- The operation keeps the document in status `failed`. -/
theorem Retained.failed_step (h : Retained r o stage w) (hm : Moved settings w act w')
    (ho : w.owner = some o) (hrows : w'.rows = w.rows.failed) : Retained r o stage w' := by
  have howner : w'.owner = some o := by
    rw [World.owner, hrows]
    exact ho
  refine ⟨hm.pastClaim h.past, .inl howner, ?_, ?_, ?_, ?_, ?_⟩
  · rw [hrows]
    exact h.source
  · rw [hrows]
    exact h.lifecycle
  · rw [hrows]
    exact h.storage
  · rw [hrows]
    exact h.chunks
  · intro _ hnone
    rw [howner] at hnone
    cases hnone

/-- The document is given back, with the chunk rows as they were. -/
theorem Retained.freed_step (h : Retained r o stage w) (hm : Moved settings w act w')
    (hne : stage ≠ .indexVectors) (hrows : w'.rows = w.rows.freed .failed) :
    Retained r o stage w' := by
  refine ⟨hm.pastClaim h.past, .inr ?_, ?_, ?_, ?_, ?_, ?_⟩
  · rw [World.owner, World.status, hrows]
    exact ⟨rfl, rfl⟩
  · rw [hrows]
    exact h.source
  · rw [hrows]
    exact h.lifecycle
  · rw [hrows]
    exact h.storage
  · rw [hrows]
    exact h.chunks
  · intro he
    exact absurd he hne

/-- The owner is the operation itself, so its compensator is that of the stage. -/
theorem Retained.stage_of_phase (h : Retained r o stage w) (hr : Roles w) {i : Nat} {o' : String}
    {phase : CompensationPhase} {stage' : Stage} (hi : w.compensations i = some ⟨o', phase⟩)
    (ho : w.owner = some o') (hof : ∀ stage'', phase.Of stage'' → stage'' = stage') :
    o' = o ∧ stage = stage' := by
  have howner : o' = o := by
    rcases h.owner with hown | ⟨hnone, -⟩
    · exact Option.some.inj (ho.symm.trans hown)
    · rw [ho] at hnone
      cases hnone
  subst howner
  obtain ⟨a, ha, hphase⟩ := hr.matching i _ hi
  obtain ⟨b, hb, -, rfl⟩ := h.past
  obtain rfl := Option.some.inj (ha.symm.trans hb)
  exact ⟨rfl, hof _ hphase⟩

theorem Retained.moved (h : Retained r o stage w) (hc : ChunkState w)
    (hs : step settings w act = some w') (hq : Quiet settings o w act) : Retained r o stage w' := by
  have hm : Moved settings w act w' := step_moved hc.roles.keyed hs
  have hm' := hm
  have hcompleted : ∀ {o'}, act = .complete o' → w.owner = some o' → w'.rows = w.rows := by
    intro o' ha ho
    have howner : o' = o := by
      rcases h.owner with hown | ⟨hnone, -⟩
      · exact Option.some.inj (ho.symm.trans hown)
      · rw [ho] at hnone
        cases hnone
    subst howner
    exact hq.complete ha w' (Option.mem_def.mpr hs)
  have hclaimed : ∀ {p}, act = .claim p → w'.rows = w.rows := by
    intro p ha
    exact hq.claim p ha w' (Option.mem_def.mpr hs)
  cases hm with
  | claimedProcess _ _ _ _ => exact h.of_rows hm' (hclaimed rfl)
  | claimedChunks _ _ _ _ _ _ _ _ => exact h.of_rows hm' (hclaimed rfl)
  | claimedIndex _ _ _ _ _ _ => exact h.of_rows hm' (hclaimed rfl)
  | processCompleted _ hw => exact h.of_rows hm' (hcompleted rfl hw.owner)
  | chunksCompleted _ hw => exact h.of_rows hm' (hcompleted rfl hw.owner)
  | indexCompleted _ hw _ _ _ => exact h.of_rows hm' (hcompleted rfl hw.owner)
  | processFailed hi ho _ =>
    obtain ⟨rfl, -⟩ := h.stage_of_phase hc.roles hi ho fun _ hof => hof
    exact h.failed_step hm' ho rfl
  | chunksFailed hi ho _ =>
    obtain ⟨-, hstage⟩ := h.stage_of_phase hc.roles hi ho fun _ hof => hof
    exact h.freed_step hm' (by rw [hstage]; decide) rfl
  | indexPrepared hi ho _ _ =>
    obtain ⟨rfl, -⟩ := h.stage_of_phase hc.roles hi ho fun _ hof => hof
    exact h.failed_step hm' ho rfl
  | released hi ho =>
    obtain ⟨-, hstage⟩ := h.stage_of_phase hc.roles hi ho fun _ hof => hof
    have hfailed : w.rows.document.status = .failed := (hc.roles.clearing _ _ [] hi rfl).2 ho
    refine h.freed_step hm' (by rw [hstage]; decide) ?_
    rw [← hfailed]
    rfl
  | @indexFailed i o' snapshot hi ho _ =>
    obtain ⟨rfl, hstage⟩ := h.stage_of_phase hc.roles hi ho fun _ hof => hof
    refine ⟨hm'.pastClaim h.past, .inr ⟨rfl, rfl⟩, h.source, h.lifecycle, h.storage, ?_, ?_⟩
    · exact fun hne => absurd hstage hne
    · intro _ _
      -- one of the chunks the claim marked
      obtain ⟨a, ha, -, rfl⟩ := h.past
      obtain ⟨c, hmem, hind⟩ := hc.rows.claimed ⟨o', a, ho, ha, hstage⟩
      have hid := (((hc.work.snapshot i _ snapshot hi rfl).2 ho).2 c hmem).mp hind
      refine ⟨{ c with vectorStatus := .failed }, ?_, rfl⟩
      exact mem_markFailed.mpr ⟨c, hmem, by rw [if_pos ⟨hid, hind⟩]⟩
  | lifecycleChanged =>
    obtain ⟨hl, hst⟩ := hq.lifecycle _ _ rfl
    refine h.of_rows hm' ?_
    rw [hl, hst]
  | _ => exact h.of_rows hm' rfl

end Step

/-! ## The next claim -/

section Claims

variable {settings : Settings} {w w' : World} {p : String}

theorem claimProcessing_of_claimable (hc : Claimable .process w.rows.document) :
    ∃ context, claimProcessing p w.rows = .ok (context, w.rows.claimed .process p) := by
  have hcheck := checkClaim_eq_ok.mpr hc
  simp only [claimProcessing, hcheck]
  exact ⟨_, rfl⟩

theorem cleanedInput_of_source {path : FilePath} {rows : DocumentRows}
    (h : rows.cleanedSource = some path) : ∃ rest, cleanedInput rows = .ok (path, rest) := by
  unfold DocumentRows.cleanedSource at h
  unfold cleanedInput
  cases hartifact : rows.getLatestActive .cleanedText .processOutput with
  | some artifact =>
    rw [hartifact] at h
    obtain rfl := Option.some.inj h
    exact ⟨_, rfl⟩
  | none =>
    simp only [hartifact] at h
    simp only [h]
    exact ⟨_, rfl⟩

theorem claimChunking_of_claimable (hc : Claimable .buildChunks w.rows.document)
    (hnew : w.rows.existsByDocId = false) {path : FilePath}
    (hsource : w.rows.cleanedSource = some path) :
    ∃ context, claimChunking p w.rows = .ok (context, w.rows.claimed .buildChunks p) := by
  have hcheck := checkClaim_eq_ok.mpr hc
  obtain ⟨⟨chunkSourceType, metadata⟩, hinput⟩ := cleanedInput_of_source hsource
  have hguard : ¬ (w.rows.document.status = .failed ∧ w.rows.existsByDocId = true) := by
    rw [hnew]
    exact fun h => Bool.noConfusion h.2
  simp only [claimChunking, hcheck, if_neg hguard, hinput]
  exact ⟨_, rfl⟩

theorem claimChunking_refused (hs : w.rows.document.status = .failed)
    (hold : w.rows.existsByDocId = true) : ∃ e, claimChunking p w.rows = .error e := by
  cases hcheck : checkClaim .buildChunks w.rows.document with
  | error e =>
    simp only [claimChunking, hcheck]
    exact ⟨_, rfl⟩
  | ok u =>
    simp only [claimChunking, hcheck, if_pos (And.intro hs hold)]
    exact ⟨_, rfl⟩

theorem validateIndexingChunkOwnership_eq_ok {document : Document} {chunks : List ChildChunk}
    (h : ∀ c ∈ chunks,
      c.docId = document.id ∧ c.kbId = document.kbId ∧ c.domainCode = document.domainCode) :
    validateIndexingChunkOwnership document chunks = .ok () := by
  unfold validateIndexingChunkOwnership
  rw [if_neg, if_neg, if_neg]
  · rintro ⟨c, hc, hne⟩
    exact hne (h c hc).2.2
  · rintro ⟨c, hc, hne⟩
    exact hne (h c hc).2.1
  · rintro ⟨c, hc, hne⟩
    exact hne (h c hc).1

theorem claimIndexing_of_claimable (hc : Claimable .indexVectors w.rows.document)
    (hnone : w.rows.existsByVectorStatus .indexing = false)
    (hsome : w.rows.listIndexable indexableVectorStatuses ≠ [])
    (hown : ∀ c ∈ w.rows.childChunks, w.rows.Own c.docId c.kbId c.domainCode) :
    ∃ context, claimIndexing p w.rows =
      .ok (context, (w.rows.markIndexing (w.rows.listIndexable indexableVectorStatuses)).claimed
        .indexVectors p) := by
  have hcheck := checkClaim_eq_ok.mpr hc
  have hguard : ¬ w.rows.existsByVectorStatus .indexing = true := by
    rw [hnone]
    exact Bool.false_ne_true
  have hvalid : validateIndexingChunkOwnership w.rows.document
      (w.rows.listIndexable indexableVectorStatuses) = .ok () := by
    refine validateIndexingChunkOwnership_eq_ok fun c hmem => ?_
    exact hown c (DocumentRows.mem_listIndexable.mp hmem).1
  simp only [claimIndexing, hcheck, if_neg hguard, if_neg hsome, hvalid]
  exact ⟨_, rfl⟩

/-- A failed document that nobody owns and that is in use may be claimed by each stage. -/
theorem claimable_of_failed {stage : Stage} {document : Document}
    (hfree : document.activeOperationId = none) (hs : document.status = .failed)
    (hl : document.lifecycleStatus ∈ processableLifecycleStatuses)
    (hst : document.storageStatus = .active) : Claimable stage document := by
  refine ⟨hfree, ?_, ?_, hst⟩
  · rw [hs]
    cases stage <;> decide
  · cases stage <;> exact hl

/-- The claim of an attempt that has only been started. -/
theorem retained_of_claim (hr : Roles w) {o : String} {stage : Stage}
    (h : w.attempts o = some (.claiming stage)) (hm : Moved settings w (.claim o) w')
    (ho : w'.owner = some o) :
    Retained w.rows o stage w' ∧ Claimable stage w.rows.document ∧
      (stage = .buildChunks → ∃ path, w.rows.cleanedSource = some path) := by
  have hstage : ∀ {stage'}, w.attempts o = some (.claiming stage') → stage' = stage := by
    intro stage' h'
    cases h.symm.trans h'
    rfl
  cases hm with
  | halted _ _ _ =>
    -- an operation that owns the document is past its claim
    obtain ⟨a, ha, hu, -⟩ := hr.owner o ho
    obtain rfl := Option.some.inj (h.symm.trans ha)
    exact hu.elim
  | claimedProcess h' hc _ _ =>
    obtain rfl := hstage h'
    refine ⟨⟨⟨_, attempts_new .., trivial, rfl⟩, .inl ho, rfl, rfl, rfl, fun _ => rfl, ?_⟩, hc, ?_⟩
    · intro he
      cases he
    · intro he
      cases he
  | claimedChunks h' hc _ hsource _ _ _ _ =>
    obtain rfl := hstage h'
    refine ⟨⟨⟨_, attempts_new .., trivial, rfl⟩, .inl ho, rfl, rfl, rfl, fun _ => rfl, ?_⟩, hc, ?_⟩
    · intro he
      cases he
    · intro _
      exact ⟨_, hsource⟩
  | claimedIndex h' hc _ _ _ _ =>
    obtain rfl := hstage h'
    refine ⟨⟨⟨_, attempts_new .., trivial, rfl⟩, .inl ho, rfl, rfl, rfl, ?_, ?_⟩, hc, ?_⟩
    · intro hne
      exact absurd rfl hne
    · intro _ hnone
      rw [ho] at hnone
      cases hnone
    · intro he
      cases he
  | filesMoved _ ha _ => cases ha
  | ended _ ha => cases ha

/-- What a quiet run keeps. -/
theorem Retained.of_runVia {r : DocumentRows} {o : String} {stage : Stage} {as : List Action}
    (hw : (pipeline settings).Reachable w) (h : Retained r o stage w)
    (hrun : (pipeline settings).RunVia (Quiet settings o) w as w') : Retained r o stage w' := by
  induction hrun with
  | nil => exact h
  | cons hq hs _ ih =>
    have hnext := h.moved (reachable_chunks hw) hs hq
    exact ih (reachable_step hw hs) hnext

/-- Nobody comes to own a document that the operation has lost. -/
theorem Retained.free_of_runVia {r : DocumentRows} {o : String} {stage : Stage} {as : List Action}
    (hw : (pipeline settings).Reachable w) (h : Retained r o stage w) (hne : w.owner ≠ some o)
    (hrun : (pipeline settings).RunVia (Quiet settings o) w as w') : w'.owner ≠ some o := by
  induction hrun with
  | nil => exact hne
  | cons hq hs _ ih =>
    have hnext := h.moved (reachable_chunks hw) hs hq
    refine ih (reachable_step hw hs) hnext ?_
    intro ho
    obtain ⟨a, ha, hc, -⟩ := h.past
    exact hne ((reachable_moved hw hs).owner_before ha hc ho)

theorem failedFor_of_runVia {o : String} {stage : Stage} {as : List Action}
    (hw : (pipeline settings).Reachable w) (hpast : w.PastClaim o stage)
    (hrun : (pipeline settings).RunVia (Quiet settings o) w as w') {i : Nat}
    (h : ∀ c, w.compensations i = some c → FailedFor o w c) :
    ∀ c, w'.compensations i = some c → FailedFor o w' c := by
  induction hrun with
  | nil => exact h
  | cons _ hs _ ih =>
    have hm := reachable_moved hw hs
    exact ih (reachable_step hw hs) (hm.pastClaim hpast)
      (FailedFor.moved (reachable_roles hw) hm hpast h)

/-- **The claim after the compensation.** -/
theorem claim_of_retained (hc : ChunkState w) {r : DocumentRows} {o : String} {stage : Stage}
    (h : Retained r o stage w) (hne : w.owner ≠ some o)
    (hl : r.document.lifecycleStatus ∈ processableLifecycleStatuses)
    (hst : r.document.storageStatus = .active)
    (hsource : stage = .buildChunks → ∃ path, r.cleanedSource = some path)
    (hp : w.attempts p = some (.claiming stage)) (hs : step settings w (.claim p) = some w') :
    w'.owner = some p ↔ (stage = .buildChunks → r.existsByDocId = false) := by
  obtain ⟨hfree, hfailed⟩ : w.owner = none ∧ w.status = .failed := by
    rcases h.owner with hown | hrest
    · exact absurd hown hne
    · exact hrest
  have hclaim : Claimable stage w.rows.document :=
    claimable_of_failed hfree hfailed (h.lifecycle ▸ hl) (h.storage ▸ hst)
  cases stage with
  | process =>
    obtain ⟨context, hok⟩ := claimProcessing_of_claimable (p := p) hclaim
    simp only [step, claimStep, hp, World.proceed, hok] at hs
    obtain rfl := Option.some.inj hs
    exact iff_of_true rfl (fun he => Stage.noConfusion he)
  | buildChunks =>
    have hchunks : w.rows.existsByDocId = r.existsByDocId := by
      unfold DocumentRows.existsByDocId
      rw [h.chunks (by decide)]
    cases hold : r.existsByDocId with
    | false =>
      obtain ⟨path, hpath⟩ := hsource rfl
      obtain ⟨context, hok⟩ := claimChunking_of_claimable (p := p) hclaim (hchunks.trans hold)
        (h.source.trans hpath)
      simp only [step, claimStep, hp, World.proceed, hok] at hs
      obtain rfl := Option.some.inj hs
      exact iff_of_true rfl (fun _ => rfl)
    | true =>
      obtain ⟨e, herror⟩ := claimChunking_refused (p := p) hfailed (hchunks.trans hold)
      simp only [step, claimStep, hp, World.proceed, herror] at hs
      obtain rfl := Option.some.inj hs
      refine iff_of_false ?_ (fun hnew => Bool.noConfusion (hnew rfl))
      intro ho
      rw [World.owner, World.rows_stop] at ho
      exact Option.some_ne_none p (ho.symm.trans hfree)
  | indexVectors =>
    have hnone : w.rows.existsByVectorStatus .indexing = false := by
      rw [Bool.eq_false_iff]
      intro hex
      obtain ⟨c, hmem, -, hind⟩ := DocumentRows.existsByVectorStatus_eq_true.mp hex
      exact not_ownedBy_of_free hfree (hc.rows.indexing c hmem hind)
    have hsome : w.rows.listIndexable indexableVectorStatuses ≠ [] := by
      obtain ⟨c, hmem, hcfailed⟩ := h.failed rfl hfree
      have hc' : c ∈ w.rows.listIndexable indexableVectorStatuses := by
        refine DocumentRows.mem_listIndexable.mpr ⟨hmem, (hc.rows.rows c hmem).1, ?_⟩
        rw [hcfailed]
        decide
      exact List.ne_nil_of_mem hc'
    obtain ⟨context, hok⟩ := claimIndexing_of_claimable (p := p) hclaim hnone hsome
      fun c hmem => (hc.rows.rows c hmem).2
    simp only [step, claimStep, hp, World.proceed, hok] at hs
    obtain rfl := Option.some.inj hs
    exact iff_of_true rfl (fun he => Stage.noConfusion he)

/-- **A compensated stage can be retried**, the chunk stage if it was claimed without chunks. -/
theorem stage_retryable (settings : Settings) (w w₁ m w₂ w₃ w₄ : World) (o p : String)
    (stage : Stage) (act : Action) (as bs : List Action)
    (hw : (pipeline settings).Reachable w) (ho : w.attempts o = some (.claiming stage))
    (hclaim : step settings w (.claim o) = some w₁) (hown : w₁.owner = some o)
    (has : (pipeline settings).RunVia (Quiet settings o) w₁ as m)
    (hreturns : CompensatorReturns w₁ m o act) (hact : step settings m act = some w₂)
    (hbs : (pipeline settings).RunVia (Quiet settings o) w₂ bs w₃)
    (hp : w₃.attempts p = some (.claiming stage)) (hs : step settings w₃ (.claim p) = some w₄) :
    w₄.owner = some p ↔ (stage = .buildChunks → w.rows.existsByDocId = false) := by
  have hw₁ : (pipeline settings).Reachable w₁ := reachable_step hw hclaim
  have hm : (pipeline settings).Reachable m := hw₁.run has.run
  have hw₂ : (pipeline settings).Reachable w₂ := reachable_step hm hact
  have hw₃ : (pipeline settings).Reachable w₃ := hw₂.run hbs.run
  obtain ⟨h₁, hclaimable, hsource⟩ :=
    retained_of_claim (reachable_roles hw) ho (reachable_moved hw hclaim) hown
  -- through the attempt, the return of the compensator, and the run after it
  have hretained := h₁.of_runVia hw₁ has
  have hfailed : ∀ i, w₁.compensations i = none → ∀ c, m.compensations i = some c →
      FailedFor o m c := by
    intro i hnone
    refine failedFor_of_runVia hw₁ h₁.past has fun c hc => ?_
    rw [hnone] at hc
    cases hc
  have hreleased := released_of_returns (reachable_chunks hm) hreturns hfailed hact
  have h₂ := hretained.moved (reachable_chunks hm) hact hreturns.quiet
  have hlifecycle : w.rows.document.lifecycleStatus ∈ processableLifecycleStatuses := by
    cases stage <;> exact hclaimable.lifecycle
  exact claim_of_retained (reachable_chunks hw₃) (h₂.of_runVia hw₂ hbs)
    (h₂.free_of_runVia hw₂ hreleased hbs) hlifecycle hclaimable.storage hsource hp hs

/-! ### A document with chunks is processed again -/

/-- The index stage fails and is compensated, and the document is processed again. -/
def processedAgain : World :=
  uploadedText.afterAll (processAll "p" ++ chunkAll "c" ++
    [.start "i" .indexVectors, .claim "i", .stop "i"] ++ compensateIndex 0 "i" ++
    processAll "q" ++ [.start "d" .buildChunks])

theorem processedAgain_reachable : (pipeline plainSettings).Reachable processedAgain :=
  World.reachable_afterAll (.init uploadedText_uploaded) _

/-- The chunk stage is claimed from `processed`, and after its compensation no longer. -/
theorem chunk_stage_not_retryable :
    ¬ ∀ (settings : Settings) (w w₁ m w₂ w₃ w₄ : World) (o p : String) (stage : Stage)
      (act : Action) (as bs : List Action), (pipeline settings).Reachable w →
      w.attempts o = some (.claiming stage) → step settings w (.claim o) = some w₁ →
      w₁.owner = some o → (pipeline settings).RunVia (Quiet settings o) w₁ as m →
      CompensatorReturns w₁ m o act → step settings m act = some w₂ →
      (pipeline settings).RunVia (Quiet settings o) w₂ bs w₃ →
      w₃.attempts p = some (.claiming stage) → step settings w₃ (.claim p) = some w₄ →
      w₄.owner = some p := by
  intro h
  have has : (pipeline plainSettings).RunVia (fun _ act => act.bystander = true)
      (processedAgain.afterAll [.claim "d"]) [.stop "d", .compensate 1 "d"] _ := .of_runWhile rfl
  have hbs : (pipeline plainSettings).RunVia (fun _ act => act.bystander = true)
      (processedAgain.afterAll [.claim "d", .stop "d", .compensate 1 "d", .fail 1])
      [.start "e" .buildChunks] _ := .of_runWhile rfl
  have howner := h plainSettings processedAgain _ _ _ _ _ "d" "e" .buildChunks (.fail 1) _ _
    processedAgain_reachable rfl rfl rfl (has.mono fun _ _ => .of_bystander) (.chunks rfl) rfl
    (hbs.mono fun _ _ => .of_bystander) rfl rfl
  revert howner
  decide

/-- The index stage of a chunked document may be claimed after its compensation. -/
theorem stage_retryable_indexed :
    ((uploadedText.afterAll (processAll "p" ++ chunkAll "c" ++
      [.start "i" .indexVectors, .claim "i", .stop "i"] ++ compensateIndex 0 "i" ++
      [.start "j" .indexVectors, .claim "j"])).owner = some "j") := by
  have has : (pipeline plainSettings).RunVia (fun _ act => act.bystander = true)
      (uploadedText.afterAll (processAll "p" ++ chunkAll "c" ++
        [.start "i" .indexVectors, .claim "i"]))
      [.stop "i", .compensate 0 "i", .prepare 0, .fence 0, .deletePoints 0] _ := .of_runWhile rfl
  have hbs : (pipeline plainSettings).RunVia (fun _ act => act.bystander = true)
      (uploadedText.afterAll (processAll "p" ++ chunkAll "c" ++
        [.start "i" .indexVectors, .claim "i", .stop "i"] ++ compensateIndex 0 "i"))
      [.start "j" .indexVectors] _ := .of_runWhile rfl
  exact (stage_retryable plainSettings
    (uploadedText.afterAll (processAll "p" ++ chunkAll "c" ++ [.start "i" .indexVectors]))
    _ _ _ _ _ "i" "j" .indexVectors (.finish 0) _ _
    (World.reachable_afterAll (.init uploadedText_uploaded) _) rfl rfl rfl
    (has.mono fun _ _ => .of_bystander) (.index rfl) rfl
    (hbs.mono fun _ _ => .of_bystander) rfl rfl).mpr (by decide)

end Claims

end DocFlow.Pipeline
