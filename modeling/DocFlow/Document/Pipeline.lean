import DocFlow.Document.Process
import DocFlow.Document.Chunking
import DocFlow.Document.Indexing
import DocFlow.Lib.Machine
import Mathlib.Logic.Function.Basic

/-!
# The pipeline of one document

Any number of attempts of the three stages, and of compensations of their operations, work on one
document.  A transaction is one step; between two transactions every other actor may take steps.
An attempt or a compensation may stop at any point: by an exception, or because its process dies.
Then its session is gone, and with it a named lock it held.

Leaving a fence is part of the last step inside it.  The operation ids of the attempts are
different, and a compensation is of an operation whose attempt has started; it uses the compensator
of that operation's stage.
-/

namespace DocFlow.Pipeline

structure Settings where
  processing : ProcessingSettings
  embeddingBatchSize : Nat

/-- Where an attempt stands. -/
inductive Attempt
  | claiming (stage : Stage)
  /-- claimed, outside the fence -/
  | processing (context : ProcessingContext)
  /-- in the fence, ownership not checked yet -/
  | processingFenced (context : ProcessingContext)
  | processingOwned (context : ProcessingContext)
  | prepared (context : ProcessingContext) (source : PreparedProcessSource)
  | executed (result : ProcessingExecutionResult)
  | cleanedPromoted (result : ProcessingExecutionResult)
  | promoted (result : ProcessingExecutionResult)
  /-- out of the fence, before the completion -/
  | finalizing (result : ProcessingExecutionResult)
  | chunking (context : ChunkingContext)
  | chunksBuilt (context : ChunkingContext) (chunks : ChunkBuildResult)
  /-- claimed, with the chunks that are not upserted yet -/
  | indexing (context : IndexingContext) (rest : List IndexingChunkInput)
  | indexingFenced (context : IndexingContext) (rest : List IndexingChunkInput)
  | indexingOwned (context : IndexingContext) (rest : List IndexingChunkInput)
  | completed (stage : Stage)
  | stopped (stage : Stage)

def Attempt.stage : Attempt → Stage
  | claiming stage => stage
  | processing _ => .process
  | processingFenced _ => .process
  | processingOwned _ => .process
  | prepared _ _ => .process
  | executed _ => .process
  | cleanedPromoted _ => .process
  | promoted _ => .process
  | finalizing _ => .process
  | chunking _ => .buildChunks
  | chunksBuilt _ _ => .buildChunks
  | indexing _ _ => .indexVectors
  | indexingFenced _ _ => .indexVectors
  | indexingOwned _ _ => .indexVectors
  | completed stage => stage
  | stopped stage => stage

/-- The attempt is between its claim and its end. -/
def Attempt.running : Attempt → Bool
  | completed _ => false
  | stopped _ => false
  | _ => true

/-- Where a compensation stands. -/
inductive CompensationPhase
  /-- before `_fail_processing` -/
  | failProcessing
  | processWaiting
  /-- in the fence, ownership not checked yet -/
  | processFenced
  /-- the directories still to be removed -/
  | clearing (dirs : List OperationDir)
  /-- before `_fail_chunking` -/
  | failChunking
  /-- before `_prepare` -/
  | prepareIndex
  | indexWaiting (snapshot : IndexingCompensationSnapshot)
  | indexFenced (snapshot : IndexingCompensationSnapshot)
  /-- the points are deleted, before `_complete` -/
  | pointsDeleted (snapshot : IndexingCompensationSnapshot)
  | ended

structure Compensation where
  operationId : String
  phase : CompensationPhase

/-- The first thing the compensator of a stage does. -/
def Stage.compensator : Stage → CompensationPhase
  | .process => .failProcessing
  | .buildChunks => .failChunking
  | .indexVectors => .prepareIndex

/-- Who holds a named lock. -/
inductive Holder
  | attempt (operationId : String)
  | compensation (index : Nat)
deriving DecidableEq, Repr

structure World where
  rows : DocumentRows
  files : List FilePath
  points : List Point
  attempts : String → Option Attempt
  compensations : Nat → Option Compensation
  /-- the holder of `document:process:{document_id}` -/
  processFence : Option Holder
  /-- the holder of `document:index:{document_id}` -/
  indexFence : Option Holder

/-- The lock after its session is gone. -/
def leave (holder : Holder) (fence : Option Holder) : Option Holder :=
  if fence = some holder then none else fence

namespace World

variable (w : World)

def setAttempt (operationId : String) (attempt : Attempt) : World :=
  { w with attempts := Function.update w.attempts operationId (some attempt) }

def setCompensation (i : Nat) (compensation : Compensation) : World :=
  { w with compensations := Function.update w.compensations i (some compensation) }

/-- The end of a session: its locks are free. -/
def leaveFences (holder : Holder) : World :=
  { w with
    processFence := leave holder w.processFence
    indexFence := leave holder w.indexFence }

def stop (operationId : String) (stage : Stage) : World :=
  (w.leaveFences (.attempt operationId)).setAttempt operationId (.stopped stage)

/-- A compensation ends, with an exception or without. -/
def finish (i : Nat) (operationId : String) : World :=
  (w.leaveFences (.compensation i)).setCompensation i ⟨operationId, .ended⟩

section Projections

variable (o : String) (attempt : Attempt) (i : Nat) (c : Compensation) (stage : Stage)

@[simp] theorem rows_setAttempt : (w.setAttempt o attempt).rows = w.rows := rfl

@[simp] theorem files_setAttempt : (w.setAttempt o attempt).files = w.files := rfl

@[simp] theorem points_setAttempt : (w.setAttempt o attempt).points = w.points := rfl

@[simp] theorem compensations_setAttempt :
    (w.setAttempt o attempt).compensations = w.compensations := rfl

@[simp] theorem processFence_setAttempt :
    (w.setAttempt o attempt).processFence = w.processFence := rfl

@[simp] theorem indexFence_setAttempt : (w.setAttempt o attempt).indexFence = w.indexFence := rfl

@[simp] theorem rows_setCompensation : (w.setCompensation i c).rows = w.rows := rfl

@[simp] theorem files_setCompensation : (w.setCompensation i c).files = w.files := rfl

@[simp] theorem points_setCompensation : (w.setCompensation i c).points = w.points := rfl

@[simp] theorem attempts_setCompensation : (w.setCompensation i c).attempts = w.attempts := rfl

@[simp] theorem processFence_setCompensation :
    (w.setCompensation i c).processFence = w.processFence := rfl

@[simp] theorem indexFence_setCompensation :
    (w.setCompensation i c).indexFence = w.indexFence := rfl

@[simp] theorem rows_stop : (w.stop o stage).rows = w.rows := rfl

@[simp] theorem files_stop : (w.stop o stage).files = w.files := rfl

@[simp] theorem points_stop : (w.stop o stage).points = w.points := rfl

@[simp] theorem compensations_stop : (w.stop o stage).compensations = w.compensations := rfl

@[simp] theorem processFence_stop :
    (w.stop o stage).processFence = leave (.attempt o) w.processFence := rfl

@[simp] theorem indexFence_stop :
    (w.stop o stage).indexFence = leave (.attempt o) w.indexFence := rfl

@[simp] theorem rows_finish : (w.finish i o).rows = w.rows := rfl

@[simp] theorem files_finish : (w.finish i o).files = w.files := rfl

@[simp] theorem points_finish : (w.finish i o).points = w.points := rfl

@[simp] theorem attempts_finish : (w.finish i o).attempts = w.attempts := rfl

@[simp] theorem processFence_finish :
    (w.finish i o).processFence = leave (.compensation i) w.processFence := rfl

@[simp] theorem indexFence_finish :
    (w.finish i o).indexFence = leave (.compensation i) w.indexFence := rfl

theorem attempts_setAttempt (o' : String) :
    (w.setAttempt o attempt).attempts o' = if o' = o then some attempt else w.attempts o' :=
  Function.update_apply ..

theorem compensations_setCompensation (j : Nat) :
    (w.setCompensation i c).compensations j = if j = i then some c else w.compensations j :=
  Function.update_apply ..

end Projections

/-! What holds of every attempt, or of every compensation, is checked for the new one only. -/

variable {w}

theorem forall_setAttempt {P : String → Attempt → Prop} {o : String} {attempt : Attempt}
    (h : ∀ o' a, w.attempts o' = some a → P o' a) (hnew : P o attempt) :
    ∀ o' a, (w.setAttempt o attempt).attempts o' = some a → P o' a := by
  intro o' a ha
  rw [attempts_setAttempt] at ha
  split_ifs at ha with ho
  · obtain rfl := Option.some.inj ha
    rw [ho]
    exact hnew
  · exact h o' a ha

theorem forall_setCompensation {P : Nat → Compensation → Prop} {i : Nat} {c : Compensation}
    (h : ∀ j d, w.compensations j = some d → P j d) (hnew : P i c) :
    ∀ j d, (w.setCompensation i c).compensations j = some d → P j d := by
  intro j d hd
  rw [compensations_setCompensation] at hd
  split_ifs at hd with hj
  · obtain rfl := Option.some.inj hd
    rw [hj]
    exact hnew
  · exact h j d hd

end World

inductive Action
  | start (operationId : String) (stage : Stage)
  | claim (operationId : String)
  | acquire (operationId : String)
  | assertOwned (operationId : String)
  | prepareSource (operationId : String) (conversion : Conversion)
  | execute (operationId : String) (metadata : Metadata)
  | promoteCleaned (operationId : String)
  | promoteSecondary (operationId : String)
  | clearStaging (operationId : String)
  | buildChunks (operationId : String) (chunks : ChunkBuildResult)
  | upsert (operationId : String)
  | complete (operationId : String)
  | stop (operationId : String)
  | compensate (i : Nat) (operationId : String)
  | fail (i : Nat)
  | prepare (i : Nat)
  | fence (i : Nat)
  | checkOwner (i : Nat)
  | clearDir (i : Nat)
  | release (i : Nat)
  | deletePoints (i : Nat)
  | finish (i : Nat)
  | abandon (i : Nat)
  | changeLifecycle (lifecycle : DocumentLifecycleStatus) (storage : DocumentStorageStatus)

/-- The operation whose attempt takes the step. -/
def Action.attempt : Action → Option String
  | claim operationId => some operationId
  | acquire operationId => some operationId
  | assertOwned operationId => some operationId
  | prepareSource operationId _ => some operationId
  | execute operationId _ => some operationId
  | promoteCleaned operationId => some operationId
  | promoteSecondary operationId => some operationId
  | clearStaging operationId => some operationId
  | buildChunks operationId _ => some operationId
  | upsert operationId => some operationId
  | complete operationId => some operationId
  | stop operationId => some operationId
  | _ => none

/-- The operation whose files the step moves. -/
def Action.onFiles : Action → Option String
  | prepareSource operationId _ => some operationId
  | execute operationId _ => some operationId
  | promoteCleaned operationId => some operationId
  | promoteSecondary operationId => some operationId
  | _ => none

/-- The compensation that takes the step. -/
def Action.compensation : Action → Option Nat
  | fail i => some i
  | prepare i => some i
  | fence i => some i
  | checkOwner i => some i
  | clearDir i => some i
  | release i => some i
  | deletePoints i => some i
  | finish i => some i
  | abandon i => some i
  | _ => none

section Step

variable (settings : Settings) (w : World)

/-- Go on with the result, or stop on the exception. -/
def World.proceed {α : Type} (operationId : String) (stage : Stage) (result : Except StageError α)
    (next : α → World) : World :=
  match result with
  | .ok a => next a
  | .error _ => w.stop operationId stage

def claimStep (operationId : String) : Option World :=
  match w.attempts operationId with
  | some (.claiming .process) =>
    some <| w.proceed operationId .process (claimProcessing operationId w.rows)
      fun (context, rows) => { w with rows := rows }.setAttempt operationId (.processing context)
  | some (.claiming .buildChunks) =>
    some <| w.proceed operationId .buildChunks (claimChunking operationId w.rows)
      fun (context, rows) => { w with rows := rows }.setAttempt operationId (.chunking context)
  | some (.claiming .indexVectors) =>
    some <| w.proceed operationId .indexVectors (claimIndexing operationId w.rows)
      fun (context, rows) =>
        { w with rows := rows }.setAttempt operationId (.indexing context context.chunks)
  | _ => none

def acquireStep (operationId : String) : Option World :=
  match w.attempts operationId with
  | some (.processing context) =>
    if w.processFence = none then
      some <| { w with processFence := some (.attempt operationId) }.setAttempt operationId
        (.processingFenced context)
    else none
  | some (.indexing context rest) =>
    -- `range` refuses a batch size of zero before anything is embedded
    if settings.embeddingBatchSize = 0 then some (w.stop operationId .indexVectors)
    else if w.indexFence = none ∧ rest ≠ [] then
      some <| { w with indexFence := some (.attempt operationId) }.setAttempt operationId
        (.indexingFenced context rest)
    else none
  | _ => none

def assertStep (operationId : String) : Option World :=
  match w.attempts operationId with
  | some (.processingFenced context) =>
    some <| w.proceed operationId .process (assertProcessingOwned context w.rows)
      fun _ => w.setAttempt operationId (.processingOwned context)
  | some (.indexingFenced context rest) =>
    some <| w.proceed operationId .indexVectors (assertIndexingOwned context w.rows)
      fun _ => w.setAttempt operationId (.indexingOwned context rest)
  | _ => none

/-- A step of an attempt that only touches the files. -/
def fileStep (operationId : String) (files : Except StageError (Attempt × List FilePath)) :
    World :=
  w.proceed operationId .process files
    fun (attempt, files) => { w with files := files }.setAttempt operationId attempt

def completeStep (operationId : String) : Option World :=
  match w.attempts operationId with
  | some (.finalizing result) =>
    some <| w.proceed operationId .process (completeProcessing result w.rows)
      fun (_, rows) => { w with rows := rows }.setAttempt operationId (.completed .process)
  | some (.chunksBuilt context chunks) =>
    some <| w.proceed operationId .buildChunks (completeChunking context chunks w.rows)
      fun (_, rows) => { w with rows := rows }.setAttempt operationId (.completed .buildChunks)
  | some (.indexing context []) =>
    some <| w.proceed operationId .indexVectors (completeIndexing context w.rows)
      fun (_, rows) => { w with rows := rows }.setAttempt operationId (.completed .indexVectors)
  | _ => none

/-- The first transaction of the process and the chunk compensators. -/
def failStep (i : Nat) : Option World :=
  match w.compensations i with
  | some ⟨operationId, .failProcessing⟩ =>
    some <| { w with rows := (failProcessing operationId w.rows).2 }.setCompensation i
      ⟨operationId, .processWaiting⟩
  | some ⟨operationId, .failChunking⟩ =>
    some <| { w with rows := (failChunking operationId w.rows).2 }.finish i operationId
  | _ => none

def prepareStep (i : Nat) : Option World :=
  match w.compensations i with
  | some ⟨operationId, .prepareIndex⟩ =>
    let prepared := prepareCompensation operationId w.rows
    some <| match prepared.1 with
      | none => w.finish i operationId
      | some snapshot =>
        { w with rows := prepared.2 }.setCompensation i ⟨operationId, .indexWaiting snapshot⟩
  | _ => none

def fenceStep (i : Nat) : Option World :=
  match w.compensations i with
  | some ⟨operationId, .processWaiting⟩ =>
    if w.processFence = none then
      some <| { w with processFence := some (.compensation i) }.setCompensation i
        ⟨operationId, .processFenced⟩
    else none
  | some ⟨operationId, .indexWaiting snapshot⟩ =>
    if w.indexFence = none then
      some <| { w with indexFence := some (.compensation i) }.setCompensation i
        ⟨operationId, .indexFenced snapshot⟩
    else none
  | _ => none

def checkOwnerStep (i : Nat) : Option World :=
  match w.compensations i with
  | some ⟨operationId, .processFenced⟩ =>
    some <|
      if ownsFailed operationId w.rows = true then
        match operationDirs settings.processing operationId with
        | .ok dirs => w.setCompensation i ⟨operationId, .clearing dirs⟩
        | .error _ => w.finish i operationId
      else w.finish i operationId
  | _ => none

/-- **One step.** -/
def step : Action → Option World
  | .start operationId stage =>
    if (w.attempts operationId).isNone then some (w.setAttempt operationId (.claiming stage))
    else none
  | .claim operationId => claimStep w operationId
  | .acquire operationId => acquireStep settings w operationId
  | .assertOwned operationId => assertStep w operationId
  | .prepareSource operationId conversion =>
    match w.attempts operationId with
    | some (.processingOwned context) =>
      some <| fileStep w operationId <|
        (prepareProcessSource settings.processing context conversion w.files).map
          fun (source, files) => (.prepared context source, files)
    | _ => none
  | .execute operationId metadata =>
    match w.attempts operationId with
    | some (.prepared context source) =>
      some <| fileStep w operationId <|
        (executeProcessing settings.processing context source metadata w.files).map
          fun (result, files) => (.executed result, files)
    | _ => none
  | .promoteCleaned operationId =>
    match w.attempts operationId with
    | some (.executed result) =>
      some <| fileStep w operationId <|
        (promoteCleaned settings.processing result w.files).map
          fun (result, files) => (.cleanedPromoted result, files)
    | _ => none
  | .promoteSecondary operationId =>
    match w.attempts operationId with
    | some (.cleanedPromoted result) =>
      some <| fileStep w operationId <|
        (promoteSecondary settings.processing result w.files).map
          fun (result, files) => (.promoted result, files)
    | _ => none
  | .clearStaging operationId =>
    match w.attempts operationId with
    | some (.promoted result) =>
      some <| w.proceed operationId .process (clearStaging settings.processing result w.files)
        fun files =>
          { w.leaveFences (.attempt operationId) with files := files }.setAttempt operationId
            (.finalizing result)
    | _ => none
  | .buildChunks operationId chunks =>
    match w.attempts operationId with
    | some (.chunking context) =>
      some <| w.proceed operationId .buildChunks (executeChunking context w.files chunks)
        fun chunks => w.setAttempt operationId (.chunksBuilt context chunks)
    | _ => none
  | .upsert operationId =>
    match w.attempts operationId with
    | some (.indexingOwned context rest) =>
      let batch := rest.take settings.embeddingBatchSize
      some <|
        { w.leaveFences (.attempt operationId) with
          points := upsertPoints w.points (batch.map (buildPoint context)) }.setAttempt
          operationId (.indexing context (rest.drop settings.embeddingBatchSize))
    | _ => none
  | .complete operationId => completeStep w operationId
  | .stop operationId =>
    match w.attempts operationId with
    | some attempt => if attempt.running then some (w.stop operationId attempt.stage) else none
    | none => none
  | .compensate i operationId =>
    match w.attempts operationId, w.compensations i with
    | some attempt, none =>
      some (w.setCompensation i ⟨operationId, attempt.stage.compensator⟩)
    | _, _ => none
  | .fail i => failStep w i
  | .prepare i => prepareStep w i
  | .fence i => fenceStep w i
  | .checkOwner i => checkOwnerStep settings w i
  | .clearDir i =>
    match w.compensations i with
    | some ⟨operationId, .clearing (dir :: dirs)⟩ =>
      some <| { w with files := rmtree w.files dir }.setCompensation i
        ⟨operationId, .clearing dirs⟩
    | _ => none
  | .release i =>
    match w.compensations i with
    | some ⟨operationId, .clearing []⟩ =>
      some <| { w with rows := releaseProcessing operationId w.rows }.finish i operationId
    | _ => none
  | .deletePoints i =>
    match w.compensations i with
    | some ⟨operationId, .indexFenced snapshot⟩ =>
      some <| { w with points := deletePoints w.points snapshot.chunkIds }.setCompensation i
        ⟨operationId, .pointsDeleted snapshot⟩
    | _ => none
  | .finish i =>
    match w.compensations i with
    | some ⟨operationId, .pointsDeleted snapshot⟩ =>
      some <| { w with rows := (completeCompensation snapshot operationId w.rows).2 }.finish i
        operationId
    | _ => none
  | .abandon i =>
    match w.compensations i with
    | some compensation => some (w.finish i compensation.operationId)
    | none => none
  | .changeLifecycle lifecycle storage =>
    some
      { w with
        rows :=
          { w.rows with
            document :=
              { w.rows.document with lifecycleStatus := lifecycle, storageStatus := storage } } }

end Step

/-- A document as its upload leaves it. -/
structure Uploaded (w : World) : Prop where
  status : w.rows.document.status = .uploaded
  owner : w.rows.document.activeOperationId = none
  cleanedUri : w.rows.document.cleanedUri = none
  artifacts : w.rows.artifacts = []
  parentBlocks : w.rows.parentBlocks = []
  childChunks : w.rows.childChunks = []
  files : w.files = []
  points : w.points = []
  attempts : ∀ operationId, w.attempts operationId = none
  compensations : ∀ i, w.compensations i = none
  processFence : w.processFence = none
  indexFence : w.indexFence = none

/-- **The pipeline of one document.** -/
def pipeline (settings : Settings) : Machine World Action := ⟨Uploaded, step settings⟩

/-! ## One document after its upload -/

def plainSettings : Settings := ⟨⟨"cleaned", "secondary", "staging"⟩, 8⟩

/-- A text file has just been uploaded. -/
def uploadedText : World :=
  { rows :=
      { document :=
          { id := 1
            docCode := "D"
            kbId := 1
            domainCode := "general"
            businessScene := none
            title := "notes"
            sourceType := "txt"
            sourceUri := "raw/notes.txt"
            cleanedUri := none
            contentHash := "h"
            activeContentHash := some "h"
            lifecycleStatus := .active
            storageStatus := .active
            version := 1
            status := .uploaded
            activeOperationId := none
            replacedBy := none
            effectiveAt := none
            expiredAt := none
            createdByActorCode := none
            originalFilename := none }
        artifacts := []
        parentBlocks := []
        childChunks := []
        nextParentId := 1
        nextChunkId := 1 }
    files := []
    points := []
    attempts := fun _ => none
    compensations := fun _ => none
    processFence := none
    indexFence := none }

theorem uploadedText_uploaded : Uploaded uploadedText :=
  ⟨rfl, rfl, rfl, rfl, rfl, rfl, rfl, rfl, fun _ => rfl, fun _ => rfl, rfl, rfl⟩

/-- One block with one chunk. -/
def oneChunk : ChunkBuildResult :=
  ⟨[⟨"text", 0⟩], [(0, [⟨"text", 0, none, none⟩])], by decide⟩

def processAll (operationId : String) : List Action :=
  [.start operationId .process, .claim operationId, .acquire operationId, .assertOwned operationId,
    .prepareSource operationId ⟨.file, "c", []⟩, .execute operationId [],
    .promoteCleaned operationId, .promoteSecondary operationId, .clearStaging operationId,
    .complete operationId]

def chunkAll (operationId : String) : List Action :=
  [.start operationId .buildChunks, .claim operationId, .buildChunks operationId oneChunk,
    .complete operationId]

def indexAll (operationId : String) : List Action :=
  [.start operationId .indexVectors, .claim operationId, .acquire operationId,
    .assertOwned operationId, .upsert operationId, .complete operationId]

/-- The index compensator, from its start to its return. -/
def compensateIndex (i : Nat) (operationId : String) : List Action :=
  [.compensate i operationId, .prepare i, .fence i, .deletePoints i, .finish i]

def World.afterAll (w : World) (acts : List Action) : World :=
  ((pipeline plainSettings).run w acts).getD w

theorem World.reachable_afterAll {w : World} (hw : (pipeline plainSettings).Reachable w)
    (acts : List Action) : (pipeline plainSettings).Reachable (w.afterAll acts) := by
  unfold afterAll
  cases h : (pipeline plainSettings).run w acts with
  | none => exact hw
  | some w' => exact Machine.Reachable.run hw h

end DocFlow.Pipeline
