import DocFlow.Document.Domain

/-!
# The guards the three stages share

Each stage claims the document in one transaction and completes it in another.  Both lock the
document row and check its status, its owner and the two other status axes, with the words of the
stage; `checkClaim_eq_ok` and `checkComplete_eq_ok` say what a document passes.
-/

namespace DocFlow.Pipeline

inductive Stage
  | process | buildChunks | indexVectors
deriving DecidableEq, Repr

structure DocumentApplicationError where
  statusCode : Nat
  detail : String
deriving DecidableEq, Repr

/-- The exceptions inside a use case: `DocumentApplicationError`, the stage's aborted error and
any other one. -/
inductive StageError
  | application (error : DocumentApplicationError)
  | aborted (message : String)
  | runtime (message : String)
deriving DecidableEq, Repr

def processableLifecycleStatuses : List DocumentLifecycleStatus := [.active, .scheduled]

def chunkableLifecycleStatuses : List DocumentLifecycleStatus := [.active, .scheduled]

def indexableLifecycleStatuses : List DocumentLifecycleStatus := [.active, .scheduled]

/-- What a stage says in its errors. -/
structure StageWords where
  busy : String
  refused : String
  inactive : String
  changed : String
  takenOver : String
  expired : String
  failed : String

namespace Stage

def words : Stage → StageWords
  | .process =>
    { busy := "文档已有未释放的处理 Operation"
      refused := "当前文档状态不允许处理: "
      inactive := "失效文档不能处理"
      changed := "文档处理状态已经变化: "
      takenOver := "当前处理 Operation 已被其他执行接管"
      expired := "文档处理期间已经失效"
      failed := "文档处理失败，请稍后重试或联系管理员" }
  | .buildChunks =>
    { busy := "文档已有未释放的切块 Operation"
      refused := "当前文档状态不允许切块: "
      inactive := "失效文档不能切块"
      changed := "文档切块状态已经变化: "
      takenOver := "当前切块 Operation 已被其他执行接管"
      expired := "文档切块期间已经失效"
      failed := "构建 chunks 失败，请稍后重试或联系管理员" }
  | .indexVectors =>
    { busy := "文档已有未释放的索引 Operation"
      refused := "当前文档状态不允许索引: "
      inactive := "失效文档不能索引"
      changed := "文档索引状态已经变化: "
      takenOver := "当前索引 Operation 已被其他执行接管"
      expired := "文档索引期间已经失效"
      failed := "向量索引失败，请稍后重试或联系管理员" }

/-- The statuses a stage may be claimed from. -/
def claimableStatuses : Stage → List DocumentStatus
  | .process => [.uploaded, .failed]
  | .buildChunks => [.processed, .failed]
  | .indexVectors => [.chunked, .failed]

def lifecycleStatuses : Stage → List DocumentLifecycleStatus
  | .process => processableLifecycleStatuses
  | .buildChunks => chunkableLifecycleStatuses
  | .indexVectors => indexableLifecycleStatuses

/-- The status while the stage is at work. -/
def working : Stage → DocumentStatus
  | .process => .processing
  | .buildChunks => .chunking
  | .indexVectors => .indexing

end Stage

/-- The response to a caller whose use case left with the error. -/
def StageError.response (stage : Stage) : StageError → DocumentApplicationError
  | .application error => error
  | .aborted message => ⟨409, message⟩
  | .runtime _ => ⟨500, stage.words.failed⟩

structure FailureStateResult where
  stateUpdated : Bool
  statusBefore : Option DocumentStatus
  statusAfter : Option DocumentStatus
deriving DecidableEq, Repr

section Guards

variable (stage : Stage) (document : Document)

/-- The checks of a claim. -/
def checkClaim : Except StageError Unit :=
  if document.activeOperationId ≠ none then .error (.application ⟨409, stage.words.busy⟩)
  else if document.status ∉ stage.claimableStatuses then
    .error (.application ⟨409, stage.words.refused ++ document.status.value⟩)
  else if document.lifecycleStatus ∉ stage.lifecycleStatuses then
    .error (.application ⟨409, stage.words.inactive⟩)
  else if document.storageStatus ≠ .active then .error (.application ⟨409, "文档不在活跃存储区"⟩)
  else .ok ()

/-- The checks of a completion. -/
def checkComplete (operationId : String) : Except StageError Unit :=
  if document.status ≠ stage.working then
    .error (.aborted (stage.words.changed ++ document.status.value))
  else if document.activeOperationId ≠ some operationId then .error (.aborted stage.words.takenOver)
  else if document.lifecycleStatus ∉ stage.lifecycleStatuses then
    .error (.aborted stage.words.expired)
  else if document.storageStatus ≠ .active then .error (.aborted "文档已进入归档流程")
  else .ok ()

/-- The document is free and stands where the stage may take it up. -/
structure Claimable : Prop where
  free : document.activeOperationId = none
  status : document.status ∈ stage.claimableStatuses
  lifecycle : document.lifecycleStatus ∈ stage.lifecycleStatuses
  storage : document.storageStatus = .active

/-- The operation is at work on the document, and the document is still in use. -/
structure AtWork (operationId : String) : Prop where
  status : document.status = stage.working
  owner : document.activeOperationId = some operationId
  lifecycle : document.lifecycleStatus ∈ stage.lifecycleStatuses
  storage : document.storageStatus = .active

variable {stage document}

theorem checkClaim_eq_ok : checkClaim stage document = .ok () ↔ Claimable stage document := by
  unfold checkClaim
  constructor
  · intro h
    split_ifs at h with h₁ h₂ h₃ h₄
    exact ⟨not_not.mp h₁, h₂, h₃, not_not.mp h₄⟩
  · rintro ⟨h₁, h₂, h₃, h₄⟩
    simp [h₁, h₂, h₃, h₄]

theorem checkComplete_eq_ok {operationId : String} :
    checkComplete stage document operationId = .ok () ↔ AtWork stage document operationId := by
  unfold checkComplete
  constructor
  · intro h
    split_ifs at h with h₁ h₂ h₃ h₄
    exact ⟨not_not.mp h₁, not_not.mp h₂, h₃, not_not.mp h₄⟩
  · rintro ⟨h₁, h₂, h₃, h₄⟩
    simp [h₁, h₂, h₃, h₄]

end Guards

theorem Stage.working_ne_failed (stage : Stage) : stage.working ≠ .failed := by
  cases stage <;> decide

end DocFlow.Pipeline
