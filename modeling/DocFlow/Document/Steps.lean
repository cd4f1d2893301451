import DocFlow.Document.Pipeline

/-!
# What one step of the pipeline does

`Moved` lists what a step may do, with the guards it passed, and `step_moved` says that there is
nothing else.  Every invariant of the pipeline is proved by cases on it.
-/

namespace DocFlow.Pipeline

/-! ## The transactions -/

namespace DocumentRows

variable (rows : DocumentRows)

/-- The stage has the document. -/
def claimed (stage : Stage) (operationId : String) : DocumentRows :=
  { rows with
    document :=
      { rows.document with status := stage.working, activeOperationId := some operationId } }

/-- The document is free again, in the given status. -/
def freed (status : DocumentStatus) : DocumentRows :=
  { rows with document := { rows.document with status := status, activeOperationId := none } }

/-- The operation failed, and keeps the document. -/
def failed : DocumentRows := { rows with document := { rows.document with status := .failed } }

/-- The file the chunk stage reads: the active cleaned artifact, else `cleaned_uri`. -/
def cleanedSource : Option FilePath :=
  match rows.getLatestActive .cleanedText .processOutput with
  | some artifact => some artifact.artifactUri
  | none => rows.document.cleanedUri

end DocumentRows

section Transactions

variable {operationId : String} {rows rows' : DocumentRows}

theorem bind_eq_ok {ε α β : Type} {x : Except ε α} {f : α → Except ε β} {b : β}
    (h : (x >>= f) = .ok b) : ∃ a, x = .ok a ∧ f a = .ok b := by
  cases x with
  | error e => cases h
  | ok a => exact ⟨a, rfl, h⟩

theorem claimProcessing_eq_ok {context : ProcessingContext}
    (h : claimProcessing operationId rows = .ok (context, rows')) :
    Claimable .process rows.document ∧ context.operationId = operationId ∧
      context.sourceType = rows.document.sourceType ∧ rows' = rows.claimed .process operationId := by
  obtain ⟨_, hcheck, h⟩ := bind_eq_ok h
  cases h
  exact ⟨checkClaim_eq_ok.mp hcheck, rfl, rfl, rfl⟩

theorem cleanedInput_eq_ok {cleanedPath : FilePath} {rest : String × Metadata}
    (h : cleanedInput rows = .ok (cleanedPath, rest)) : rows.cleanedSource = some cleanedPath := by
  unfold cleanedInput at h
  unfold DocumentRows.cleanedSource
  cases hartifact : rows.getLatestActive .cleanedText .processOutput with
  | some artifact =>
    rw [hartifact] at h
    cases h
    rfl
  | none =>
    rw [hartifact] at h
    cases huri : rows.document.cleanedUri with
    | none =>
      simp only [huri] at h
      cases h
    | some uri =>
      simp only [huri] at h
      cases h
      rfl

theorem claimChunking_eq_ok {context : ChunkingContext}
    (h : claimChunking operationId rows = .ok (context, rows')) :
    Claimable .buildChunks rows.document ∧
      (rows.document.status = .failed → rows.existsByDocId = false) ∧
      rows.cleanedSource = some context.cleanedPath ∧ context.operationId = operationId ∧
      context.documentId = rows.document.id ∧ context.kbId = rows.document.kbId ∧
      context.domainCode = rows.document.domainCode ∧
      rows' = rows.claimed .buildChunks operationId := by
  obtain ⟨_, hcheck, h⟩ := bind_eq_ok h
  dsimp only at h
  split at h
  · cases h
  · next hchunks =>
    obtain ⟨⟨cleanedPath, chunkSourceType, metadata⟩, hsource, h⟩ := bind_eq_ok h
    cases h
    refine ⟨checkClaim_eq_ok.mp hcheck, ?_, ?_, rfl, rfl, rfl, rfl, rfl⟩
    · intro hfailed
      cases hex : rows.existsByDocId with
      | false => rfl
      | true => exact absurd ⟨hfailed, hex⟩ hchunks
    · exact cleanedInput_eq_ok hsource

theorem claimIndexing_eq_ok {context : IndexingContext}
    (h : claimIndexing operationId rows = .ok (context, rows')) :
    Claimable .indexVectors rows.document ∧ rows.existsByVectorStatus .indexing = false ∧
      rows.listIndexable indexableVectorStatuses ≠ [] ∧
      context.chunks = (rows.listIndexable indexableVectorStatuses).map toChunkInput ∧
      context.operationId = operationId ∧
      rows' = (rows.markIndexing (rows.listIndexable indexableVectorStatuses)).claimed
        .indexVectors operationId := by
  obtain ⟨_, hcheck, h⟩ := bind_eq_ok h
  dsimp only at h
  split at h
  · cases h
  · next hnone =>
    split at h
    · cases h
    · next hne =>
      obtain ⟨_, hown, h⟩ := bind_eq_ok h
      cases h
      exact ⟨checkClaim_eq_ok.mp hcheck, by simpa using hnone, hne, rfl, rfl, rfl⟩

theorem assertProcessingOwned_eq_ok {context : ProcessingContext}
    (h : assertProcessingOwned context rows = .ok ()) :
    rows.document.status = .processing ∧
      rows.document.activeOperationId = some context.operationId := by
  unfold assertProcessingOwned at h
  dsimp only at h
  split_ifs at h with h₁
  rw [not_or, not_not, not_not] at h₁
  exact h₁

theorem assertIndexingOwned_eq_ok {context : IndexingContext}
    (h : assertIndexingOwned context rows = .ok ()) :
    rows.document.status = .indexing ∧
      rows.document.activeOperationId = some context.operationId := by
  unfold assertIndexingOwned at h
  split_ifs at h with h₁
  rw [not_or, not_not, not_not] at h₁
  exact h₁

/-- The rows with the artifacts of a processing result registered. -/
def persistResult (rows : DocumentRows) (result : ProcessingExecutionResult) : DocumentRows :=
  persistArtifact (persistSecondary rows result.secondaryArtifact) result.cleanedArtifact

theorem document_persistResult (result : ProcessingExecutionResult) :
    (persistResult rows result).document = rows.document := by
  unfold persistResult persistSecondary
  cases result.secondaryArtifact <;> rfl

/-- The rows after the completion of a processing attempt. -/
def processedRows (rows : DocumentRows) (result : ProcessingExecutionResult) : DocumentRows :=
  { persistResult rows result with
    document :=
      { rows.document with
        cleanedUri := some result.cleanedPath
        status := .processed
        activeOperationId := none } }

theorem completeProcessing_eq_ok {result : ProcessingExecutionResult}
    {response : ProcessDocumentResult}
    (h : completeProcessing result rows = .ok (response, rows')) :
    AtWork .process rows.document result.operationId ∧ rows' = processedRows rows result := by
  obtain ⟨_, hcheck, h⟩ := bind_eq_ok h
  cases h
  refine ⟨checkComplete_eq_ok.mp hcheck, ?_⟩
  have hdoc : (persistResult rows result).document = rows.document := document_persistResult result
  unfold persistResult at hdoc
  unfold processedRows persistResult
  rw [← hdoc]

/-- The rows after the completion of a chunk attempt. -/
def chunkedRows (rows : DocumentRows) (context : ChunkingContext) (chunks : ChunkBuildResult) :
    DocumentRows :=
  let parents := createParents context chunks rows.nextParentId
  let children := createChildren context chunks parents rows.nextChunkId
  { document := { rows.document with status := .chunked, activeOperationId := none }
    artifacts := rows.artifacts
    parentBlocks := parents
    childChunks := children
    nextParentId := rows.nextParentId + parents.length
    nextChunkId := rows.nextChunkId + children.length }

theorem completeChunking_eq_ok {context : ChunkingContext} {chunks : ChunkBuildResult}
    {response : BuildChunksResult}
    (h : completeChunking context chunks rows = .ok (response, rows')) :
    AtWork .buildChunks rows.document context.operationId ∧
      rows' = chunkedRows rows context chunks := by
  obtain ⟨_, hcheck, h⟩ := bind_eq_ok h
  cases h
  exact ⟨checkComplete_eq_ok.mp hcheck, rfl⟩

theorem completeIndexing_eq_ok {context : IndexingContext} {response : IndexVectorsResult}
    (h : completeIndexing context rows = .ok (response, rows')) :
    AtWork .indexVectors rows.document context.operationId ∧
      (rows.listByIds context.chunkIds).length = context.chunkIds.length ∧
      (∀ c ∈ rows.listByIds context.chunkIds, c.vectorStatus = .indexing) ∧
      (rows.markIndexedMany (rows.listByIds context.chunkIds)).countActiveNotIndexed = 0 ∧
      rows' = (rows.markIndexedMany (rows.listByIds context.chunkIds)).freed .indexed := by
  obtain ⟨_, hcheck, h⟩ := bind_eq_ok h
  dsimp only at h
  split at h
  · cases h
  · next hsame =>
    split at h
    · cases h
    · next hcount =>
      cases h
      rw [not_or, not_not] at hsame
      refine ⟨checkComplete_eq_ok.mp hcheck, hsame.1, ?_, by omega, rfl⟩
      intro c hc
      by_contra hne
      exact hsame.2 ⟨c, hc, hne⟩

theorem failProcessing_rows (operationId : String) (rows : DocumentRows) :
    (failProcessing operationId rows).2 =
      if rows.document.activeOperationId = some operationId ∧ rows.document.status = .processing then
        rows.failed
      else rows := by
  unfold failProcessing
  dsimp only
  by_cases ho : rows.document.activeOperationId = some operationId
  · by_cases hs : rows.document.status = .processing
    · simp [ho, hs, DocumentRows.failed]
    · simp [ho, hs]
  · simp [ho]

theorem failChunking_rows (operationId : String) (rows : DocumentRows) :
    (failChunking operationId rows).2 =
      if rows.document.activeOperationId = some operationId ∧ rows.document.status = .chunking then
        rows.freed .failed
      else rows := by
  unfold failChunking
  dsimp only
  by_cases ho : rows.document.activeOperationId = some operationId
  · by_cases hs : rows.document.status = .chunking
    · simp [ho, hs, DocumentRows.freed]
    · simp [ho, hs]
  · simp [ho]

theorem ownsFailed_eq_true :
    ownsFailed operationId rows = true ↔
      rows.document.activeOperationId = some operationId ∧ rows.document.status = .failed := by
  simp [ownsFailed]

theorem releaseProcessing_rows (operationId : String) (rows : DocumentRows) :
    releaseProcessing operationId rows =
      if rows.document.activeOperationId = some operationId then
        rows.freed rows.document.status
      else rows := by
  unfold releaseProcessing
  by_cases ho : rows.document.activeOperationId = some operationId
  · simp [ho, DocumentRows.freed]
  · simp [ho]

theorem prepareCompensation_some {snapshot : IndexingCompensationSnapshot}
    (h : (prepareCompensation operationId rows).1 = some snapshot) :
    rows.document.activeOperationId = some operationId ∧
      (rows.document.status = .indexing ∨ rows.document.status = .failed) ∧
      snapshot.chunkIds = (rows.listIndexable [.indexing]).map (·.id) ∧
      (prepareCompensation operationId rows).2 = rows.failed := by
  unfold prepareCompensation at h ⊢
  dsimp only at h ⊢
  split at h
  · cases h
  · next hguard =>
    rw [if_neg hguard]
    rw [not_or, not_not, not_not] at hguard
    obtain ⟨howner, hstatus⟩ := hguard
    obtain rfl := Option.some.inj h
    have hstatus' : rows.document.status = .indexing ∨ rows.document.status = .failed := by
      simpa using hstatus
    refine ⟨howner, hstatus', rfl, ?_⟩
    rcases hstatus' with hs | hs
    · simp [hs, DocumentRows.failed]
    · simp only [hs]
      rw [if_neg (by decide)]
      show rows = { rows with document := { rows.document with status := .failed } }
      rw [← hs]

theorem completeCompensation_rows (snapshot : IndexingCompensationSnapshot) (operationId : String)
    (rows : DocumentRows) :
    (completeCompensation snapshot operationId rows).2 =
      if rows.document.activeOperationId = some operationId ∧ rows.document.status = .failed then
        (rows.markFailed (rows.listByIds snapshot.chunkIds)).freed .failed
      else rows := by
  unfold completeCompensation
  dsimp only
  by_cases ho : rows.document.activeOperationId = some operationId
  · by_cases hs : rows.document.status = .failed
    · simp [ho, hs, DocumentRows.freed, DocumentRows.markFailed, DocumentRows.updateChunks]
    · simp [ho, hs]
  · simp [ho]

end Transactions

/-! ## The step -/

/-- The data of an attempt is of its operation. -/
def Attempt.Keyed (operationId : String) : Attempt → Prop
  | processing context => context.operationId = operationId
  | processingFenced context => context.operationId = operationId
  | processingOwned context => context.operationId = operationId
  | prepared context _ => context.operationId = operationId
  | executed result => result.operationId = operationId
  | cleanedPromoted result => result.operationId = operationId
  | promoted result => result.operationId = operationId
  | finalizing result => result.operationId = operationId
  | chunking context => context.operationId = operationId
  | chunksBuilt context _ => context.operationId = operationId
  | indexing context _ => context.operationId = operationId
  | indexingFenced context _ => context.operationId = operationId
  | indexingOwned context _ => context.operationId = operationId
  | _ => True

def Keyed (w : World) : Prop :=
  ∀ operationId attempt, w.attempts operationId = some attempt → attempt.Keyed operationId

/-- The steps of an attempt inside the fence that touch the files only. -/
inductive FileMove (settings : ProcessingSettings) (files : List FilePath) :
    Attempt → Attempt → List FilePath → Prop
  | prepared {context : ProcessingContext} {conversion : Conversion}
      {source : PreparedProcessSource} {files' : List FilePath}
      (h : prepareProcessSource settings context conversion files = .ok (source, files')) :
      FileMove settings files (.processingOwned context) (.prepared context source) files'
  | executed {context : ProcessingContext} {source : PreparedProcessSource} {metadata : Metadata}
      {result : ProcessingExecutionResult} {files' : List FilePath}
      (h : executeProcessing settings context source metadata files = .ok (result, files')) :
      FileMove settings files (.prepared context source) (.executed result) files'
  | cleaned {result result' : ProcessingExecutionResult} {files' : List FilePath}
      (h : promoteCleaned settings result files = .ok (result', files')) :
      FileMove settings files (.executed result) (.cleanedPromoted result') files'
  | secondary {result result' : ProcessingExecutionResult} {files' : List FilePath}
      (h : promoteSecondary settings result files = .ok (result', files')) :
      FileMove settings files (.cleanedPromoted result) (.promoted result') files'

/-- **What a step may do**, by whom and under which guards. -/
inductive Moved (settings : Settings) (w : World) : Action → World → Prop
  | started {o : String} {stage : Stage} (h : w.attempts o = none) :
      Moved settings w (.start o stage) (w.setAttempt o (.claiming stage))
  | halted {act : Action} {o : String} {attempt : Attempt} (h : w.attempts o = some attempt)
      (hr : attempt.running = true) (ha : act.attempt = some o) :
      Moved settings w act (w.stop o attempt.stage)
  | claimedProcess {o : String} {context : ProcessingContext}
      (h : w.attempts o = some (.claiming .process)) (hc : Claimable .process w.rows.document)
      (hk : context.operationId = o) (hsource : context.sourceType = w.rows.document.sourceType) :
      Moved settings w (.claim o)
        ({ w with rows := w.rows.claimed .process o }.setAttempt o (.processing context))
  | claimedChunks {o : String} {context : ChunkingContext}
      (h : w.attempts o = some (.claiming .buildChunks))
      (hc : Claimable .buildChunks w.rows.document)
      (hnew : w.rows.document.status = .failed → w.rows.existsByDocId = false)
      (hsource : w.rows.cleanedSource = some context.cleanedPath) (hk : context.operationId = o)
      (hid : context.documentId = w.rows.document.id) (hkb : context.kbId = w.rows.document.kbId)
      (hdomain : context.domainCode = w.rows.document.domainCode) :
      Moved settings w (.claim o)
        ({ w with rows := w.rows.claimed .buildChunks o }.setAttempt o (.chunking context))
  | claimedIndex {o : String} {context : IndexingContext}
      (h : w.attempts o = some (.claiming .indexVectors))
      (hc : Claimable .indexVectors w.rows.document)
      (hnone : w.rows.existsByVectorStatus .indexing = false)
      (hsome : w.rows.listIndexable indexableVectorStatuses ≠ [])
      (hchunks : context.chunks = (w.rows.listIndexable indexableVectorStatuses).map toChunkInput)
      (hk : context.operationId = o) :
      Moved settings w (.claim o)
        ({ w with
            rows := (w.rows.markIndexing
              (w.rows.listIndexable indexableVectorStatuses)).claimed .indexVectors o }.setAttempt o
          (.indexing context context.chunks))
  | processAcquired {o : String} {context : ProcessingContext}
      (h : w.attempts o = some (.processing context)) (hf : w.processFence = none) :
      Moved settings w (.acquire o)
        ({ w with processFence := some (.attempt o) }.setAttempt o (.processingFenced context))
  | indexAcquired {o : String} {context : IndexingContext} {rest : List IndexingChunkInput}
      (h : w.attempts o = some (.indexing context rest)) (hf : w.indexFence = none) :
      Moved settings w (.acquire o)
        ({ w with indexFence := some (.attempt o) }.setAttempt o (.indexingFenced context rest))
  | processOwned {o : String} {context : ProcessingContext}
      (h : w.attempts o = some (.processingFenced context))
      (hs : w.rows.document.status = .processing)
      (ho : w.rows.document.activeOperationId = some o) :
      Moved settings w (.assertOwned o) (w.setAttempt o (.processingOwned context))
  | indexOwned {o : String} {context : IndexingContext} {rest : List IndexingChunkInput}
      (h : w.attempts o = some (.indexingFenced context rest))
      (hs : w.rows.document.status = .indexing)
      (ho : w.rows.document.activeOperationId = some o) :
      Moved settings w (.assertOwned o) (w.setAttempt o (.indexingOwned context rest))
  | filesMoved {act : Action} {o : String} {attempt attempt' : Attempt} {files : List FilePath}
      (h : w.attempts o = some attempt) (ha : act.onFiles = some o)
      (hm : FileMove settings.processing w.files attempt attempt' files) :
      Moved settings w act ({ w with files := files }.setAttempt o attempt')
  | stagingCleared {o : String} {result : ProcessingExecutionResult} {files : List FilePath}
      (h : w.attempts o = some (.promoted result))
      (hm : clearStaging settings.processing result w.files = .ok files) :
      Moved settings w (.clearStaging o)
        ({ w.leaveFences (.attempt o) with files := files }.setAttempt o (.finalizing result))
  | processCompleted {o : String} {result : ProcessingExecutionResult}
      (h : w.attempts o = some (.finalizing result)) (hw : AtWork .process w.rows.document o) :
      Moved settings w (.complete o)
        ({ w with rows := processedRows w.rows result }.setAttempt o (.completed .process))
  | chunksBuilt {o : String} {context : ChunkingContext} {chunks chunks' : ChunkBuildResult}
      (h : w.attempts o = some (.chunking context))
      (he : executeChunking context w.files chunks = .ok chunks') :
      Moved settings w (.buildChunks o chunks) (w.setAttempt o (.chunksBuilt context chunks'))
  | chunksCompleted {o : String} {context : ChunkingContext} {chunks : ChunkBuildResult}
      (h : w.attempts o = some (.chunksBuilt context chunks))
      (hw : AtWork .buildChunks w.rows.document o) :
      Moved settings w (.complete o)
        ({ w with rows := chunkedRows w.rows context chunks }.setAttempt o
          (.completed .buildChunks))
  | upserted {o : String} {context : IndexingContext} {rest : List IndexingChunkInput}
      (h : w.attempts o = some (.indexingOwned context rest)) :
      Moved settings w (.upsert o)
        ({ w.leaveFences (.attempt o) with
            points := upsertPoints w.points
              ((rest.take settings.embeddingBatchSize).map (buildPoint context)) }.setAttempt o
          (.indexing context (rest.drop settings.embeddingBatchSize)))
  | indexCompleted {o : String} {context : IndexingContext}
      (h : w.attempts o = some (.indexing context [])) (hw : AtWork .indexVectors w.rows.document o)
      (hlen : (w.rows.listByIds context.chunkIds).length = context.chunkIds.length)
      (hindexing : ∀ c ∈ w.rows.listByIds context.chunkIds, c.vectorStatus = .indexing)
      (hcount :
        (w.rows.markIndexedMany (w.rows.listByIds context.chunkIds)).countActiveNotIndexed = 0) :
      Moved settings w (.complete o)
        ({ w with
            rows := (w.rows.markIndexedMany (w.rows.listByIds context.chunkIds)).freed
              .indexed }.setAttempt o (.completed .indexVectors))
  | compensationStarted {i : Nat} {o : String} {attempt : Attempt}
      (h : w.attempts o = some attempt) (hi : w.compensations i = none) :
      Moved settings w (.compensate i o) (w.setCompensation i ⟨o, attempt.stage.compensator⟩)
  | processFailed {i : Nat} {o : String} (h : w.compensations i = some ⟨o, .failProcessing⟩)
      (ho : w.rows.document.activeOperationId = some o)
      (hs : w.rows.document.status = .processing) :
      Moved settings w (.fail i)
        ({ w with rows := w.rows.failed }.setCompensation i ⟨o, .processWaiting⟩)
  | processNotFailed {i : Nat} {o : String} (h : w.compensations i = some ⟨o, .failProcessing⟩)
      (hne : ¬ (w.rows.document.activeOperationId = some o ∧
        w.rows.document.status = .processing)) :
      Moved settings w (.fail i) (w.setCompensation i ⟨o, .processWaiting⟩)
  | chunksFailed {i : Nat} {o : String} (h : w.compensations i = some ⟨o, .failChunking⟩)
      (ho : w.rows.document.activeOperationId = some o)
      (hs : w.rows.document.status = .chunking) :
      Moved settings w (.fail i) ({ w with rows := w.rows.freed .failed }.finish i o)
  | indexPrepared {i : Nat} {o : String} {snapshot : IndexingCompensationSnapshot}
      (h : w.compensations i = some ⟨o, .prepareIndex⟩)
      (ho : w.rows.document.activeOperationId = some o)
      (hs : w.rows.document.status = .indexing ∨ w.rows.document.status = .failed)
      (hids : snapshot.chunkIds = (w.rows.listIndexable [.indexing]).map (·.id)) :
      Moved settings w (.prepare i)
        ({ w with rows := w.rows.failed }.setCompensation i ⟨o, .indexWaiting snapshot⟩)
  | compensationProcessFenced {i : Nat} {o : String}
      (h : w.compensations i = some ⟨o, .processWaiting⟩) (hf : w.processFence = none) :
      Moved settings w (.fence i)
        ({ w with processFence := some (.compensation i) }.setCompensation i ⟨o, .processFenced⟩)
  | compensationIndexFenced {i : Nat} {o : String} {snapshot : IndexingCompensationSnapshot}
      (h : w.compensations i = some ⟨o, .indexWaiting snapshot⟩) (hf : w.indexFence = none) :
      Moved settings w (.fence i)
        ({ w with indexFence := some (.compensation i) }.setCompensation i
          ⟨o, .indexFenced snapshot⟩)
  | ownerChecked {i : Nat} {o : String} {dirs : List OperationDir}
      (h : w.compensations i = some ⟨o, .processFenced⟩)
      (ho : w.rows.document.activeOperationId = some o) (hs : w.rows.document.status = .failed)
      (hd : operationDirs settings.processing o = .ok dirs) :
      Moved settings w (.checkOwner i) (w.setCompensation i ⟨o, .clearing dirs⟩)
  | dirCleared {i : Nat} {o : String} {dir : OperationDir} {dirs : List OperationDir}
      (h : w.compensations i = some ⟨o, .clearing (dir :: dirs)⟩) :
      Moved settings w (.clearDir i)
        ({ w with files := rmtree w.files dir }.setCompensation i ⟨o, .clearing dirs⟩)
  | released {i : Nat} {o : String} (h : w.compensations i = some ⟨o, .clearing []⟩)
      (ho : w.rows.document.activeOperationId = some o) :
      Moved settings w (.release i)
        ({ w with rows := w.rows.freed w.rows.document.status }.finish i o)
  | pointsDeleted {i : Nat} {o : String} {snapshot : IndexingCompensationSnapshot}
      (h : w.compensations i = some ⟨o, .indexFenced snapshot⟩) :
      Moved settings w (.deletePoints i)
        ({ w with points := deletePoints w.points snapshot.chunkIds }.setCompensation i
          ⟨o, .pointsDeleted snapshot⟩)
  | indexFailed {i : Nat} {o : String} {snapshot : IndexingCompensationSnapshot}
      (h : w.compensations i = some ⟨o, .pointsDeleted snapshot⟩)
      (ho : w.rows.document.activeOperationId = some o) (hs : w.rows.document.status = .failed) :
      Moved settings w (.finish i)
        ({ w with
            rows := (w.rows.markFailed (w.rows.listByIds snapshot.chunkIds)).freed .failed }.finish
          i o)
  | ended {act : Action} {i : Nat} {compensation : Compensation}
      (h : w.compensations i = some compensation) (ha : act.compensation = some i) :
      Moved settings w act (w.finish i compensation.operationId)
  | lifecycleChanged {lifecycle : DocumentLifecycleStatus} {storage : DocumentStorageStatus} :
      Moved settings w (.changeLifecycle lifecycle storage)
        { w with
          rows :=
            { w.rows with
              document :=
                { w.rows.document with lifecycleStatus := lifecycle, storageStatus := storage } } }

/-! ### The file operations -/

section FileOperations

variable {settings : ProcessingSettings} {files files' : List FilePath}

theorem operationScopedDir_eq_ok {root operationId : String} {dir : OperationDir}
    (h : operationScopedDir root operationId = .ok dir) : dir = ⟨root, operationId⟩ := by
  unfold operationScopedDir at h
  split_ifs at h
  cases h
  rfl

/-- A secondary artifact lies in the directory of its operation below `root`. -/
def SecondaryIn (root operationId : String) (secondary : Option PendingArtifact) : Prop :=
  ∀ artifact ∈ secondary, artifact.artifactType = .secondaryText ∧
    artifact.artifactUri.root = root ∧ artifact.artifactUri.operationId = operationId

theorem mem_writeFile {path f : FilePath} : f ∈ writeFile files path ↔ f ∈ files ∨ f = path := by
  unfold writeFile
  split
  · next h =>
    constructor
    · exact .inl
    · rintro (hf | rfl)
      · exact hf
      · exact h
  · rw [List.mem_append, List.mem_singleton]

theorem prepareProcessSource_eq_ok {context : ProcessingContext} {conversion : Conversion}
    {source : PreparedProcessSource}
    (h : prepareProcessSource settings context conversion files = .ok (source, files')) :
    SecondaryIn settings.stagingStorageDir context.operationId source.secondaryArtifact ∧
      source.sourceType = getExpectedProcessOutputType context.sourceType ∧
      ∀ f ∈ files, f ∈ files' := by
  obtain ⟨_, -, h⟩ := bind_eq_ok h
  obtain ⟨dir, hdir, h⟩ := bind_eq_ok h
  obtain rfl := operationScopedDir_eq_ok hdir
  unfold getExpectedProcessOutputType
  dsimp only at h
  split at h
  · next hexternal =>
    obtain ⟨rfl, rfl⟩ := Prod.mk.inj (Except.ok.inj h)
    refine ⟨?_, ?_, ?_⟩
    · intro artifact ha
      obtain rfl := Option.mem_some.mp ha
      exact ⟨rfl, rfl, rfl⟩
    · rw [if_pos hexternal]
    · intro f hf
      exact mem_writeFile.mpr (.inl hf)
  · next hlocal =>
    obtain ⟨rfl, rfl⟩ := Prod.mk.inj (Except.ok.inj h)
    refine ⟨?_, ?_, fun f hf => hf⟩
    · intro artifact ha
      cases ha
    · rw [if_neg hlocal]

/-- What a cleaned result says of itself while its file lies below `root`. -/
structure CleanedIn (root operationId : String) (result : ProcessingExecutionResult) : Prop where
  key : result.operationId = operationId
  root : result.cleanedPath.root = root
  directory : result.cleanedPath.operationId = operationId
  uri : result.cleanedArtifact.artifactUri = result.cleanedPath
  type : result.cleanedArtifact.artifactType = .cleanedText
  role : result.cleanedArtifact.artifactRole = .processOutput

theorem executeProcessing_eq_ok {context : ProcessingContext} {source : PreparedProcessSource}
    {metadata : Metadata} {result : ProcessingExecutionResult}
    (h : executeProcessing settings context source metadata files = .ok (result, files')) :
    CleanedIn settings.stagingStorageDir context.operationId result ∧
      result.secondaryArtifact = source.secondaryArtifact ∧
      getProcessor source.sourceType = .ok result.cleanedArtifact.artifactFormat ∧
      files' = writeFile files result.cleanedPath := by
  unfold executeProcessing at h
  obtain ⟨dir, hdir, h⟩ := bind_eq_ok h
  obtain rfl := operationScopedDir_eq_ok hdir
  obtain ⟨processed, hprocessed, h⟩ := bind_eq_ok h
  cases h
  exact ⟨⟨rfl, rfl, rfl, rfl, rfl, rfl⟩, rfl, hprocessed, rfl⟩

theorem promoteFile_eq_ok {source destination : FilePath} {dir : OperationDir}
    (h : promoteFile files source dir = .ok (destination, files')) :
    destination = dir.file source.name ∧ destination ∉ files ∧ source ∈ files ∧
      files' = files.filter (· ≠ source) ++ [destination] := by
  unfold promoteFile at h
  dsimp only at h
  split_ifs at h with h₁ h₂
  cases h
  exact ⟨rfl, h₁, h₂, rfl⟩

theorem promoteCleaned_eq_ok {result result' : ProcessingExecutionResult}
    (h : promoteCleaned settings result files = .ok (result', files')) :
    result'.cleanedPath =
        ⟨settings.cleanedStorageDir, result.operationId, result.cleanedPath.name⟩ ∧
      result' = { result with
        cleanedPath := result'.cleanedPath
        cleanedArtifact := { result.cleanedArtifact with artifactUri := result'.cleanedPath } } ∧
      result'.cleanedPath ∉ files ∧ result.cleanedPath ∈ files ∧
      files' = files.filter (· ≠ result.cleanedPath) ++ [result'.cleanedPath] := by
  unfold promoteCleaned at h
  obtain ⟨dir, hdir, h⟩ := bind_eq_ok h
  obtain rfl := operationScopedDir_eq_ok hdir
  obtain ⟨⟨destination, _⟩, hmove, h⟩ := bind_eq_ok h
  cases h
  obtain ⟨hdest, hnew, hold, hfiles⟩ := promoteFile_eq_ok hmove
  exact ⟨hdest, rfl, hnew, hold, hfiles⟩

theorem promoteSecondary_eq_ok {result result' : ProcessingExecutionResult}
    (h : promoteSecondary settings result files = .ok (result', files')) :
    result' = { result with secondaryArtifact := result'.secondaryArtifact } ∧
      (result'.secondaryArtifact = none ∧ files' = files ∨
        ∃ secondary destination, result.secondaryArtifact = some secondary ∧
          result'.secondaryArtifact = some { secondary with artifactUri := destination } ∧
          destination = ⟨settings.secondaryTextStorageDir, result.operationId,
            secondary.artifactUri.name⟩ ∧
          files' = files.filter (· ≠ secondary.artifactUri) ++ [destination]) := by
  unfold promoteSecondary at h
  cases hsecondary : result.secondaryArtifact with
  | none =>
    rw [hsecondary] at h
    cases h
    exact ⟨rfl, .inl ⟨hsecondary, rfl⟩⟩
  | some secondary =>
    rw [hsecondary] at h
    obtain ⟨dir, hdir, h⟩ := bind_eq_ok h
    obtain rfl := operationScopedDir_eq_ok hdir
    obtain ⟨⟨destination, _⟩, hmove, h⟩ := bind_eq_ok h
    cases h
    obtain ⟨hdest, -, -, hfiles⟩ := promoteFile_eq_ok hmove
    exact ⟨rfl, .inr ⟨secondary, destination, rfl, rfl, hdest, hfiles⟩⟩

theorem clearStaging_eq_ok {result : ProcessingExecutionResult}
    (h : clearStaging settings result files = .ok files') :
    files' = rmtree files ⟨settings.stagingStorageDir, result.operationId⟩ := by
  unfold clearStaging at h
  obtain ⟨dir, hdir, h⟩ := bind_eq_ok h
  obtain rfl := operationScopedDir_eq_ok hdir
  cases h
  rfl

end FileOperations

/-! ### There is nothing else -/

section Inversion

variable {settings : Settings} {w w' : World}

theorem proceed_cases {α : Type} {operationId : String} {stage : Stage}
    {result : Except StageError α} {next : α → World}
    (h : w.proceed operationId stage result next = w') :
    (∃ a, result = .ok a ∧ next a = w') ∨ w.stop operationId stage = w' := by
  cases result with
  | ok a => exact .inl ⟨a, rfl, h⟩
  | error e => exact .inr h

theorem fileStep_cases {operationId : String} {files : Except StageError (Attempt × List FilePath)}
    (h : fileStep w operationId files = w') :
    (∃ attempt files', files = .ok (attempt, files') ∧
      { w with files := files' }.setAttempt operationId attempt = w') ∨
      w.stop operationId .process = w' := by
  rcases proceed_cases h with ⟨⟨attempt, files'⟩, hok, h⟩ | h
  · exact .inl ⟨attempt, files', hok, h⟩
  · exact .inr h

theorem map_eq_ok {ε α β : Type} {x : Except ε α} {f : α → β} {b : β}
    (h : x.map f = .ok b) : ∃ a, x = .ok a ∧ f a = b := by
  cases x with
  | error e => cases h
  | ok a => exact ⟨a, rfl, Except.ok.inj h⟩

theorem claimStep_moved {o : String} (h : claimStep w o = some w') :
    Moved settings w (.claim o) w' := by
  unfold claimStep at h
  split at h
  · next hw =>
    rcases proceed_cases (Option.some.inj h) with ⟨⟨context, rows⟩, hclaim, rfl⟩ | rfl
    · obtain ⟨hc, hk, hsource, rfl⟩ := claimProcessing_eq_ok hclaim
      exact .claimedProcess hw hc hk hsource
    · exact .halted hw rfl rfl
  · next hw =>
    rcases proceed_cases (Option.some.inj h) with ⟨⟨context, rows⟩, hclaim, rfl⟩ | rfl
    · obtain ⟨hc, hnew, hsource, hk, hid, hkb, hdomain, rfl⟩ := claimChunking_eq_ok hclaim
      exact .claimedChunks hw hc hnew hsource hk hid hkb hdomain
    · exact .halted hw rfl rfl
  · next hw =>
    rcases proceed_cases (Option.some.inj h) with ⟨⟨context, rows⟩, hclaim, rfl⟩ | rfl
    · obtain ⟨hc, hnone, hsome, hchunks, hk, rfl⟩ := claimIndexing_eq_ok hclaim
      exact .claimedIndex hw hc hnone hsome hchunks hk
    · exact .halted hw rfl rfl
  · cases h

theorem acquireStep_moved {o : String} (h : acquireStep settings w o = some w') :
    Moved settings w (.acquire o) w' := by
  unfold acquireStep at h
  split at h
  · next hw =>
    split_ifs at h with hf
    obtain rfl := Option.some.inj h
    exact .processAcquired hw hf
  · next hw =>
    split_ifs at h with hsize hf
    · obtain rfl := Option.some.inj h
      exact .halted hw rfl rfl
    · obtain rfl := Option.some.inj h
      exact .indexAcquired hw hf.1
  · cases h

theorem assertStep_moved (hk : Keyed w) {o : String} (h : assertStep w o = some w') :
    Moved settings w (.assertOwned o) w' := by
  unfold assertStep at h
  split at h
  · next hw =>
    rcases proceed_cases (Option.some.inj h) with ⟨_, hown, rfl⟩ | rfl
    · obtain ⟨hs, ho⟩ := assertProcessingOwned_eq_ok hown
      have hkey := hk _ _ hw
      exact .processOwned hw hs (hkey ▸ ho)
    · exact .halted hw rfl rfl
  · next hw =>
    rcases proceed_cases (Option.some.inj h) with ⟨_, hown, rfl⟩ | rfl
    · obtain ⟨hs, ho⟩ := assertIndexingOwned_eq_ok hown
      have hkey := hk _ _ hw
      exact .indexOwned hw hs (hkey ▸ ho)
    · exact .halted hw rfl rfl
  · cases h

theorem completeStep_moved (hk : Keyed w) {o : String} (h : completeStep w o = some w') :
    Moved settings w (.complete o) w' := by
  unfold completeStep at h
  split at h
  · next hw =>
    rcases proceed_cases (Option.some.inj h) with ⟨⟨_, rows⟩, hdone, rfl⟩ | rfl
    · obtain ⟨hwork, rfl⟩ := completeProcessing_eq_ok hdone
      have hkey := hk _ _ hw
      exact .processCompleted hw (hkey ▸ hwork)
    · exact .halted hw rfl rfl
  · next hw =>
    rcases proceed_cases (Option.some.inj h) with ⟨⟨_, rows⟩, hdone, rfl⟩ | rfl
    · obtain ⟨hwork, rfl⟩ := completeChunking_eq_ok hdone
      have hkey := hk _ _ hw
      exact .chunksCompleted hw (hkey ▸ hwork)
    · exact .halted hw rfl rfl
  · next hw =>
    rcases proceed_cases (Option.some.inj h) with ⟨⟨_, rows⟩, hdone, rfl⟩ | rfl
    · obtain ⟨hwork, hlen, hindexing, hcount, rfl⟩ := completeIndexing_eq_ok hdone
      have hkey := hk _ _ hw
      exact .indexCompleted hw (hkey ▸ hwork) hlen hindexing hcount
    · exact .halted hw rfl rfl
  · cases h

theorem failStep_moved {i : Nat} (h : failStep w i = some w') : Moved settings w (.fail i) w' := by
  unfold failStep at h
  split at h
  · next o hw =>
    obtain rfl := Option.some.inj h
    rw [failProcessing_rows]
    split_ifs with hown
    · exact .processFailed hw hown.1 hown.2
    · exact .processNotFailed hw hown
  · next o hw =>
    obtain rfl := Option.some.inj h
    rw [failChunking_rows]
    split_ifs with hown
    · exact .chunksFailed hw hown.1 hown.2
    · exact .ended hw rfl
  · cases h

theorem prepareStep_moved {i : Nat} (h : prepareStep w i = some w') :
    Moved settings w (.prepare i) w' := by
  unfold prepareStep at h
  split at h
  · next o hw =>
    dsimp only at h
    cases hsnap : (prepareCompensation o w.rows).1 with
    | none =>
      rw [hsnap] at h
      obtain rfl := Option.some.inj h
      exact .ended hw rfl
    | some snapshot =>
      rw [hsnap] at h
      obtain rfl := Option.some.inj h
      obtain ⟨ho, hs, hids, hrows⟩ := prepareCompensation_some hsnap
      rw [hrows]
      exact .indexPrepared hw ho hs hids
  · cases h

theorem fenceStep_moved {i : Nat} (h : fenceStep w i = some w') :
    Moved settings w (.fence i) w' := by
  unfold fenceStep at h
  split at h
  · next o hw =>
    split_ifs at h with hf
    obtain rfl := Option.some.inj h
    exact .compensationProcessFenced hw hf
  · next o snapshot hw =>
    split_ifs at h with hf
    obtain rfl := Option.some.inj h
    exact .compensationIndexFenced hw hf
  · cases h

theorem checkOwnerStep_moved {i : Nat} (h : checkOwnerStep settings w i = some w') :
    Moved settings w (.checkOwner i) w' := by
  unfold checkOwnerStep at h
  split at h
  · next o hw =>
    obtain rfl := Option.some.inj h
    split_ifs with hown
    · obtain ⟨ho, hs⟩ := ownsFailed_eq_true.mp hown
      cases hdirs : operationDirs settings.processing o with
      | ok dirs => exact .ownerChecked hw ho hs hdirs
      | error e => exact .ended hw rfl
    · exact .ended hw rfl
  · cases h

/-- A step that runs a file operation of the attempt's phase. -/
theorem fileStep_moved {act : Action} {o : String} {attempt : Attempt}
    {files : Except StageError (Attempt × List FilePath)} (hw : w.attempts o = some attempt)
    (hr : attempt.running = true) (hstage : attempt.stage = .process) (ha : act.attempt = some o)
    (hact : act.onFiles = some o)
    (hfiles : ∀ attempt' files', files = .ok (attempt', files') →
      FileMove settings.processing w.files attempt attempt' files')
    (h : some (fileStep w o files) = some w') : Moved settings w act w' := by
  rcases fileStep_cases (Option.some.inj h) with ⟨attempt', files', hok, rfl⟩ | rfl
  · exact .filesMoved hw hact (hfiles attempt' files' hok)
  · rw [← hstage]
    exact .halted hw hr ha

/-- **A step is one of those listed.** -/
theorem step_moved (hk : Keyed w) {act : Action} (h : step settings w act = some w') :
    Moved settings w act w' := by
  cases act with
  | start o stage =>
    simp only [step] at h
    split_ifs at h with hnone
    obtain rfl := Option.some.inj h
    exact .started (Option.isNone_iff_eq_none.mp hnone)
  | claim o => exact claimStep_moved h
  | acquire o => exact acquireStep_moved h
  | assertOwned o => exact assertStep_moved hk h
  | prepareSource o conversion =>
    simp only [step] at h
    split at h
    · next context hw =>
      refine fileStep_moved hw rfl rfl rfl rfl ?_ h
      intro attempt' files' hok
      obtain ⟨⟨source, files''⟩, hprepared, he⟩ := map_eq_ok hok
      cases he
      exact .prepared hprepared
    · cases h
  | execute o metadata =>
    simp only [step] at h
    split at h
    · next context source hw =>
      refine fileStep_moved hw rfl rfl rfl rfl ?_ h
      intro attempt' files' hok
      obtain ⟨⟨result, files''⟩, hexecuted, he⟩ := map_eq_ok hok
      cases he
      exact .executed hexecuted
    · cases h
  | promoteCleaned o =>
    simp only [step] at h
    split at h
    · next result hw =>
      refine fileStep_moved hw rfl rfl rfl rfl ?_ h
      intro attempt' files' hok
      obtain ⟨⟨result', files''⟩, hmoved, he⟩ := map_eq_ok hok
      cases he
      exact .cleaned hmoved
    · cases h
  | promoteSecondary o =>
    simp only [step] at h
    split at h
    · next result hw =>
      refine fileStep_moved hw rfl rfl rfl rfl ?_ h
      intro attempt' files' hok
      obtain ⟨⟨result', files''⟩, hmoved, he⟩ := map_eq_ok hok
      cases he
      exact .secondary hmoved
    · cases h
  | clearStaging o =>
    simp only [step] at h
    split at h
    · next result hw =>
      rcases proceed_cases (Option.some.inj h) with ⟨files, hcleared, rfl⟩ | rfl
      · exact .stagingCleared hw hcleared
      · exact .halted hw rfl rfl
    · cases h
  | buildChunks o chunks =>
    simp only [step] at h
    split at h
    · next context hw =>
      rcases proceed_cases (Option.some.inj h) with ⟨chunks', hbuilt, rfl⟩ | rfl
      · exact .chunksBuilt hw hbuilt
      · exact .halted hw rfl rfl
    · cases h
  | upsert o =>
    simp only [step] at h
    split at h
    · next context rest hw =>
      obtain rfl := Option.some.inj h
      exact .upserted hw
    · cases h
  | complete o => exact completeStep_moved hk h
  | stop o =>
    simp only [step] at h
    split at h
    · next attempt hw =>
      split_ifs at h with hr
      obtain rfl := Option.some.inj h
      exact .halted hw hr rfl
    · cases h
  | compensate i o =>
    simp only [step] at h
    split at h
    · next attempt hw hi =>
      obtain rfl := Option.some.inj h
      exact .compensationStarted hw hi
    · cases h
  | fail i => exact failStep_moved h
  | prepare i => exact prepareStep_moved h
  | fence i => exact fenceStep_moved h
  | checkOwner i => exact checkOwnerStep_moved h
  | clearDir i =>
    simp only [step] at h
    split at h
    · next o dir dirs hw =>
      obtain rfl := Option.some.inj h
      exact .dirCleared hw
    · cases h
  | release i =>
    simp only [step] at h
    split at h
    · next o hw =>
      obtain rfl := Option.some.inj h
      rw [releaseProcessing_rows]
      split_ifs with ho
      · exact .released hw ho
      · exact .ended hw rfl
    · cases h
  | deletePoints i =>
    simp only [step] at h
    split at h
    · next o snapshot hw =>
      obtain rfl := Option.some.inj h
      exact .pointsDeleted hw
    · cases h
  | finish i =>
    simp only [step] at h
    split at h
    · next o snapshot hw =>
      obtain rfl := Option.some.inj h
      rw [completeCompensation_rows]
      split_ifs with hown
      · exact .indexFailed hw hown.1 hown.2
      · exact .ended hw rfl
    · cases h
  | abandon i =>
    simp only [step] at h
    split at h
    · next compensation hw =>
      obtain rfl := Option.some.inj h
      exact .ended hw rfl
    · cases h
  | changeLifecycle lifecycle storage =>
    obtain rfl := Option.some.inj h
    exact .lifecycleChanged

end Inversion

end DocFlow.Pipeline
