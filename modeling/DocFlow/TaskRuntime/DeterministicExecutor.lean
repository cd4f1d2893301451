import DocFlow.Lib.Chains
import DocFlow.TaskRuntime.AgentExecutor
import DocFlow.TaskRuntime.Workers

/-!
# The deterministic executors

Without an agent provider, the executor of a document capability calls its use case itself.  Both
executors tell the task runtime whether to try again (`retryable`) and whether the task is blocked,
and each has a table of its own: the deterministic one reads the status of a
`DocumentApplicationError`, the agent's is told by its tool, which looks at the attributes of any
exception and at the chain behind it.

An exception is given with the objects it leads to.  The chain may come back to where it has been;
the walk of `_is_retryable` sees all of it, and no object twice.
-/

namespace DocFlow.TaskRuntime.Executors

open DocFlow.AgentRuntime DocFlow.TaskRuntime.Agent

/-! ## Exceptions -/

/-- An exception among the objects `ι`: what `isinstance` says of it, the attributes that are looked
at, where they have the type that is asked for, and its links. -/
structure ExceptionObject (ι : Type) where
  typeName : String
  message : String
  isDocumentApplicationError : Bool
  /-- the exception as a `TaskExecutionError` -/
  taskExecutionError : Option TaskExecutionError
  isAgentToolPermissionError : Bool
  isAgentToolScopeError : Bool
  isTimeoutError : Bool
  /-- from Python 3.11 on the same as `isTimeoutError` -/
  isAsyncioTimeoutError : Bool
  isConnectionError : Bool
  statusCode : Option Int
  detail : Option String
  resultCode : Option String
  cause : Option ι
  context : Option ι
  statusCode_isSome : isDocumentApplicationError = true → statusCode.isSome = true

/-- An exception with all objects it leads to. -/
structure Raised where
  size : Nat
  objects : Fin size → ExceptionObject (Fin size)
  error : Fin size

namespace Raised

variable (error : Raised)

def object : ExceptionObject (Fin error.size) := error.objects error.error

/-- `__cause__ or __context__`. -/
def next (i : Fin error.size) : Option (Fin error.size) :=
  (error.objects i).cause <|> (error.objects i).context

def isTransientObject (i : Fin error.size) : Bool :=
  (error.objects i).isTimeoutError || (error.objects i).isConnectionError

/-- The exception as the tools see it; the loop of `_is_retryable` is the walk. -/
def toolException : ToolException where
  kind :=
    if error.object.isAgentToolPermissionError then .permission
    else if error.object.isAgentToolScopeError then .scope
    else .other
  statusCode := error.object.statusCode
  detail := error.object.detail
  resultCode := error.object.resultCode
  transient := Chains.meets error.next error.isTransientObject error.error

end Raised

/-- An object without attributes and links. -/
def plainObject (typeName message : String) : ExceptionObject (Fin 1) where
  typeName := typeName
  message := message
  isDocumentApplicationError := false
  taskExecutionError := none
  isAgentToolPermissionError := false
  isAgentToolScopeError := false
  isTimeoutError := false
  isAsyncioTimeoutError := false
  isConnectionError := false
  statusCode := none
  detail := none
  resultCode := none
  cause := none
  context := none
  statusCode_isSome := by simp

/-- `ValueError(message)`. -/
def valueError (message : String) : Raised :=
  ⟨1, fun _ => plainObject "ValueError" message, 0⟩

/-- `DocumentApplicationError(status_code, detail)`, raised from nothing. -/
def documentApplicationError (statusCode : Int) (detail : String) : Raised :=
  ⟨1, fun _ =>
    { plainObject "DocumentApplicationError" detail with
      isDocumentApplicationError := true
      statusCode := some statusCode
      detail := some detail
      statusCode_isSome := by simp }, 0⟩

/-! ## The deterministic executors -/

/-- A use case, as it answers in a run. -/
abbrev RaisingUseCase (ρ : Type) := Int → DocumentOperationContext → Except Raised ρ

/-- How an executor ends without a result. -/
inductive ExecutorError
  | task (error : TaskExecutionError)
  | raised (error : Raised)
  | cancelled

/-- `_operation_context`. -/
def operationContext (context : TaskRuntimeContext) : Except Raised DocumentOperationContext :=
  if context.attempt < 1 then .error (valueError "attempt 必须大于等于 1")
  else .ok ⟨context.workflowId, context.operationId, context.attempt⟩

/-- What `_execute_document_use_case` makes of an exception. -/
def documentOperationError (error : Raised) : ExecutorError :=
  match error.object.isDocumentApplicationError, error.object.statusCode with
  | true, some statusCode =>
    .task ⟨"document_operation_rejected", error.object.message, decide (500 ≤ statusCode),
      statusCode = 400 || statusCode = 404 || statusCode = 409⟩
  | _, _ => .raised error

/-- `_execute_document_use_case`. -/
def executeDocumentUseCase {ρ : Type} (call : Except Raised ρ) : Except ExecutorError ρ :=
  call.mapError documentOperationError

/-- The call of the use case. -/
def callUseCase {ρ : Type} (useCase : RaisingUseCase ρ) (documentId : Int)
    (context : TaskRuntimeContext) : Except Raised ρ := do
  let operationContext ← operationContext context
  useCase documentId operationContext

/-- The executors differ in the output they make of the result. -/
def executeDeterministic {ρ : Type} (output : ρ → TaskExecutorResult)
    (useCase : RaisingUseCase ρ) (documentId : Int) (context : TaskRuntimeContext) :
    Except ExecutorError TaskExecutorResult :=
  (executeDocumentUseCase (callUseCase useCase documentId context)).map output

/-- `DeterministicProcessDocumentExecutor.execute`. -/
def deterministicProcessDocument : RaisingUseCase ProcessDocumentResult → Int →
    TaskRuntimeContext → Except ExecutorError TaskExecutorResult :=
  executeDeterministic fun result =>
    ⟨[("document_id", .int result.documentId), ("status", .str result.status),
        ("cleaned_uri", .str result.cleanedUri)],
      ["document:" ++ toString result.documentId]⟩

/-- `DeterministicBuildDocumentChunksExecutor.execute`. -/
def deterministicBuildDocumentChunks : RaisingUseCase BuildChunksResult → Int →
    TaskRuntimeContext → Except ExecutorError TaskExecutorResult :=
  executeDeterministic fun result =>
    ⟨[("document_id", .int result.documentId), ("status", .str result.status),
        ("parent_count", .int result.parentCount), ("child_count", .int result.childCount)],
      ["document:" ++ toString result.documentId]⟩

/-- `DeterministicIndexDocumentVectorsExecutor.execute`. -/
def deterministicIndexDocumentVectors : RaisingUseCase IndexVectorsResult → Int →
    TaskRuntimeContext → Except ExecutorError TaskExecutorResult :=
  executeDeterministic fun result =>
    ⟨[("document_id", .int result.documentId), ("status", .str result.status),
        ("indexed_chunks", .int result.indexedChunks),
        ("failed_chunks", .int result.failedChunks)],
      ["document:" ++ toString result.documentId]⟩

/-! ## The executors of a capability -/

inductive DocumentCapability
  | processDocument | buildDocumentChunks | indexDocumentVectors
deriving DecidableEq, Repr

namespace DocumentCapability

/-- What the use case returns. -/
abbrev Result : DocumentCapability → Type
  | processDocument => ProcessDocumentResult
  | buildDocumentChunks => BuildChunksResult
  | indexDocumentVectors => IndexVectorsResult

/-- The fields of the command tool's output. -/
abbrev Detail : DocumentCapability → Type
  | processDocument => ProcessDocumentDetail
  | buildDocumentChunks => BuildDocumentChunksDetail
  | indexDocumentVectors => IndexDocumentVectorsDetail

def deterministicExecutor : (c : DocumentCapability) → RaisingUseCase c.Result → Int →
    TaskRuntimeContext → Except ExecutorError TaskExecutorResult
  | processDocument => deterministicProcessDocument
  | buildDocumentChunks => deterministicBuildDocumentChunks
  | indexDocumentVectors => deterministicIndexDocumentVectors

def agentTaskExecutor : (c : DocumentCapability) → Readers c.Detail →
    AgentTaskExecutor c.Result c.Detail
  | processDocument => processExecutor
  | buildDocumentChunks => buildChunksExecutor
  | indexDocumentVectors => indexVectorsExecutor

end DocumentCapability

/-- The use case as the tools see it. -/
def toolUseCase {ρ : Type} (useCase : RaisingUseCase ρ) : UseCase ρ := fun documentId context =>
  (useCase documentId context).mapError Raised.toolException

/-- `AgentTaskExecutor.execute`, with a use case that raises. -/
def executeAgent {ρ δ : Type} (e : AgentTaskExecutor ρ δ) (turns : List Turn)
    (useCase : RaisingUseCase ρ) (documentId : Int) (context : TaskRuntimeContext) :
    Except ExecutorError TaskExecutorResult :=
  (e.execute (some documentId) context ⟨turns, toolUseCase useCase⟩).mapError fun error =>
    match error with
    | some error => .task error
    | none => .cancelled

/-! ## What the task runtime makes of it -/

/-- What `execute_next` goes on with: `_complete` or `_handle_failure`. -/
inductive Decision
  | complete (outputJson : List (String × OutputValue)) (resourceRefs : List String)
  | handleFailure (error : TaskExecutionError)
  | cancelled
deriving DecidableEq, Repr

def executorTimeout : TaskExecutionError where
  errorCode := "executor_timeout"
  message := "Task Executor 执行超时"
  retryable := true
  blocked := false

def executorSystemError (typeName : String) : TaskExecutionError where
  errorCode := "executor_system_error"
  message := "Task Executor 系统异常: " ++ typeName
  retryable := false
  blocked := false

/-- The `except` clauses of `execute_next`, in their order. -/
def failureOf (error : Raised) : TaskExecutionError :=
  if error.object.isAsyncioTimeoutError then executorTimeout
  else error.object.taskExecutionError.getD (executorSystemError error.object.typeName)

/-- `execute_next` behind its executor.  A result is one of the capability's output model. -/
def executeNext : Except ExecutorError TaskExecutorResult → Decision
  | .ok result => .complete result.outputJson result.resourceRefs
  | .error (.task error) => .handleFailure error
  | .error (.raised error) => .handleFailure (failureOf error)
  | .error .cancelled => .cancelled

/-- The same output and references, or a failure with the same flags. -/
def Decision.Same : Decision → Decision → Prop
  | .complete outputJson resourceRefs, .complete outputJson' resourceRefs' =>
    outputJson = outputJson' ∧ resourceRefs = resourceRefs'
  | .handleFailure error, .handleFailure error' =>
    error.retryable = error'.retryable ∧ error.blocked = error'.blocked
  | .cancelled, .cancelled => True
  | _, _ => False

/-! ## Which exceptions they classify alike -/

namespace Raised

variable (error : Raised)

/-- There is a `TimeoutError` or a `ConnectionError` in the chain. -/
def Transient : Prop :=
  ∃ i, Relation.ReflTransGen (Chains.Leads error.next) error.error i ∧
    error.isTransientObject i = true

/-- The tool rejects it: an error of the tools themselves, or a status between 400 and 499. -/
def Rejected : Prop :=
  error.object.isAgentToolPermissionError = true ∨ error.object.isAgentToolScopeError = true ∨
    ∃ statusCode, error.object.statusCode = some statusCode ∧ 400 ≤ statusCode ∧ statusCode < 500

/-- It is worth another try to the tool. -/
def Retried : Prop :=
  error.object.statusCode = some 502 ∨ error.object.statusCode = some 503 ∨
    error.object.statusCode = some 504 ∨ error.Transient

/-- Both executors give it the same flags. -/
def Alike : Prop :=
  if error.object.isDocumentApplicationError then
    -- a permission or scope error of the tools that has such a status is rejected as well
    ∃ statusCode, error.object.statusCode = some statusCode ∧
      (statusCode = 400 ∨ statusCode = 404 ∨ statusCode = 409 ∨
        ¬ error.Rejected ∧ (500 ≤ statusCode ↔ error.Retried))
  else if error.object.isAsyncioTimeoutError then
    ¬ error.Rejected ∧ error.Retried
  else
    match error.object.taskExecutionError with
    | some raised =>
      error.Rejected ∧ raised.retryable = false ∧ raised.blocked = true ∨
        ¬ error.Rejected ∧ (raised.retryable = true ↔ error.Retried) ∧ raised.blocked = false
    | none => ¬ error.Rejected ∧ ¬ error.Retried

variable {error}

theorem transient_iff : error.toolException.transient = true ↔ error.Transient :=
  Chains.meets_iff error.error

theorem isRetryable_iff : isRetryable error.toolException = true ↔ error.Retried := by
  simp only [isRetryable, Bool.or_eq_true, decide_eq_true_eq, transient_iff, Retried, or_assoc]
  exact Iff.rfl

/-- A rejection is never retryable. -/
theorem classifyToolError_of_rejected (h : error.Rejected) (resourceRefs : List String) :
    (classifyToolError error.toolException resourceRefs).outcome = .rejected ∧
      (classifyToolError error.toolException resourceRefs).retryable = false := by
  by_cases hpermission : error.object.isAgentToolPermissionError = true
  · simp [classifyToolError, toolException, hpermission]
  · by_cases hscope : error.object.isAgentToolScopeError = true
    · simp [classifyToolError, toolException, hpermission, hscope]
    · rcases h with h | h | ⟨statusCode, hstatus, hrange⟩
      · exact absurd h hpermission
      · exact absurd h hscope
      · simp [classifyToolError, toolException, hpermission, hscope, hstatus, hrange]

theorem classifyToolError_of_not_rejected (h : ¬ error.Rejected) (resourceRefs : List String) :
    (classifyToolError error.toolException resourceRefs).outcome = .failed ∧
      (classifyToolError error.toolException resourceRefs).retryable =
        isRetryable error.toolException := by
  have hpermission : ¬ error.object.isAgentToolPermissionError = true := fun hp => h (.inl hp)
  have hscope : ¬ error.object.isAgentToolScopeError = true := fun hs => h (.inr (.inl hs))
  have hkind : error.toolException.kind = .other := by
    simp [toolException, hpermission, hscope]
  cases hstatus : error.object.statusCode with
  | none =>
    have hattribute : error.toolException.statusCode = none := hstatus
    simp [classifyToolError, hkind, hattribute]
  | some statusCode =>
    have hattribute : error.toolException.statusCode = some statusCode := hstatus
    have hrange : ¬ (400 ≤ statusCode ∧ statusCode < 500) := by
      intro hrange
      exact h (.inr (.inr ⟨statusCode, hstatus, hrange⟩))
    simp [classifyToolError, hkind, hattribute, hrange]

end Raised

/-! ## How the agent ends -/

section Agent

variable {ρ δ : Type} {e : AgentTaskExecutor ρ δ} {turns : List Turn} {arguments : String}
  {useCase : RaisingUseCase ρ} {documentId : Int} {context : TaskRuntimeContext}

theorem executeInTaskScope_toolUseCase (permissions : Finset String) :
    executeInTaskScope ⟨permissions, context, some documentId⟩ (toolUseCase useCase) documentId =
      (callUseCase useCase documentId context).mapError Raised.toolException := by
  by_cases hattempt : context.attempt < 1
  · simp only [executeInTaskScope, requireTaskDocumentScope, DocumentOperationContext.create,
      callUseCase, operationContext, hattempt, ne_eq, not_true_eq_false, if_false, if_true, bind,
      Except.bind, Except.mapError]
    exact congrArg _ (by rfl)
  · simp only [executeInTaskScope, requireTaskDocumentScope, DocumentOperationContext.create,
      callUseCase, operationContext, hattempt, ne_eq, not_true_eq_false, if_false, bind,
      Except.bind, toolUseCase]

/-- The agent's run comes down to the answer of the tool's handler. -/
theorem executeAgent_eq (hinvokes : Invokes e turns e.maxTurns arguments)
    (hinput : e.readers.toolInput arguments = some documentId) :
    executeAgent e turns useCase documentId context =
      (mapOutput e documentId (.output (e.tool.handler ⟨e.permissions, context, some documentId⟩
        (toolUseCase useCase) documentId))).mapError .task := by
  have hrun := runAgent_of_invokes ⟨e.permissions, context, some documentId⟩
    (toolUseCase useCase) hinvokes
  rw [callCommand, hinput] at hrun
  rw [executeAgent, execute_of_final hrun]
  generalize mapOutput e documentId _ = ending
  cases ending <;> rfl

/-- The output for a call that has failed. -/
def errorOutput (tool : CommandTool ρ δ) (documentId : Int) (details : ToolErrorDetails) :
    CommandToolOutput δ where
  outcome := .ofError details.outcome
  resultCode := details.resultCode
  message := details.message
  retryable := details.retryable
  resourceRefs := details.resourceRefs
  documentId := documentId
  documentStatus := none
  detail := tool.noDetail

/-- The handler of a tool that it is allowed to call reports what the use case has raised. -/
theorem handler_of_error (hgranted : e.tool.permission ∈ e.permissions) {error : Raised}
    (h : callUseCase useCase documentId context = .error error) :
    e.tool.handler ⟨e.permissions, context, some documentId⟩ (toolUseCase useCase) documentId =
      errorOutput e.tool documentId
        (classifyToolError error.toolException ["document:" ++ toString documentId]) := by
  have hcall := executeAuditedToolCall_granted (List.forall_mem_singleton.mpr hgranted)
    ["document:" ++ toString documentId]
    (executeInTaskScope ⟨e.permissions, context, some documentId⟩ (toolUseCase useCase) documentId)
  rw [executeInTaskScope_toolUseCase, h] at hcall
  rw [CommandTool.handler, executeInTaskScope_toolUseCase, h, hcall]
  rfl

theorem handler_of_ok (hgranted : e.tool.permission ∈ e.permissions) {value : ρ}
    (h : callUseCase useCase documentId context = .ok value) :
    e.tool.handler ⟨e.permissions, context, some documentId⟩ (toolUseCase useCase) documentId =
      { outcome := .succeeded
        resultCode := e.tool.resultCode
        message := e.tool.message
        retryable := false
        resourceRefs := ["document:" ++ toString documentId]
        documentId := e.tool.documentId value
        documentStatus := some (e.tool.status value)
        detail := e.tool.detail value } := by
  have hcall := executeAuditedToolCall_granted (List.forall_mem_singleton.mpr hgranted)
    ["document:" ++ toString documentId]
    (executeInTaskScope ⟨e.permissions, context, some documentId⟩ (toolUseCase useCase) documentId)
  rw [executeInTaskScope_toolUseCase, h] at hcall
  rw [CommandTool.handler, executeInTaskScope_toolUseCase, h, hcall]
  rfl

theorem mapOutput_rejected {details : ToolErrorDetails} (h : details.outcome = .rejected) :
    mapOutput e documentId (.output (errorOutput e.tool documentId details)) =
      .error ⟨details.resultCode, details.message, false, true⟩ := by
  simp [mapOutput, validateToolOutput, errorOutput, h, ToolResultOutcome.ofError]

theorem mapOutput_failed {details : ToolErrorDetails} (h : details.outcome = .failed) :
    mapOutput e documentId (.output (errorOutput e.tool documentId details)) =
      .error ⟨details.resultCode, details.message, details.retryable, false⟩ := by
  simp [mapOutput, validateToolOutput, errorOutput, h, ToolResultOutcome.ofError]

/-- The flags of the failure that the agent makes of an exception. -/
theorem executeAgent_of_error (hgranted : e.tool.permission ∈ e.permissions)
    (hinvokes : Invokes e turns e.maxTurns arguments)
    (hinput : e.readers.toolInput arguments = some documentId) {error : Raised}
    (h : callUseCase useCase documentId context = .error error) :
    ∃ failure, executeAgent e turns useCase documentId context = .error (.task failure) ∧
      (failure.retryable = true ↔ ¬ error.Rejected ∧ error.Retried) ∧
      (failure.blocked = true ↔ error.Rejected) := by
  rw [executeAgent_eq hinvokes hinput, handler_of_error hgranted h]
  by_cases hrejected : error.Rejected
  · obtain ⟨houtcome, -⟩ :=
      Raised.classifyToolError_of_rejected hrejected ["document:" ++ toString documentId]
    rw [mapOutput_rejected houtcome]
    exact ⟨_, rfl, by simp [hrejected], by simp [hrejected]⟩
  · obtain ⟨houtcome, hretryable⟩ :=
      Raised.classifyToolError_of_not_rejected hrejected ["document:" ++ toString documentId]
    rw [mapOutput_failed houtcome]
    refine ⟨_, rfl, ?_, by simp [hrejected]⟩
    rw [hretryable, Raised.isRetryable_iff, and_iff_right hrejected]

/-- The result of the task's document comes out of the agent as it is. -/
theorem executeAgent_of_ok (hgranted : e.tool.permission ∈ e.permissions)
    (hinvokes : Invokes e turns e.maxTurns arguments)
    (hinput : e.readers.toolInput arguments = some documentId) {value : ρ}
    (h : callUseCase useCase documentId context = .ok value)
    (hdocument : e.tool.documentId value = documentId) :
    executeAgent e turns useCase documentId context = .ok (reportOf e documentId value) := by
  rw [executeAgent_eq hinvokes hinput, handler_of_ok hgranted h]
  simp only [mapOutput, validateToolOutput, hdocument, ne_eq, not_true_eq_false, if_false,
    CommandTool.adaptOutput, e.tool.taskFields_detail, Option.bind_eq_bind, Option.bind_some,
    Option.pure_def, Except.mapError, reportOf]

/-- A result of another document is out of the task's scope. -/
theorem executeAgent_of_other (hgranted : e.tool.permission ∈ e.permissions)
    (hinvokes : Invokes e turns e.maxTurns arguments)
    (hinput : e.readers.toolInput arguments = some documentId) {value : ρ}
    (h : callUseCase useCase documentId context = .ok value)
    (hdocument : e.tool.documentId value ≠ documentId) :
    ∃ failure, executeAgent e turns useCase documentId context = .error (.task failure) := by
  rw [executeAgent_eq hinvokes hinput, handler_of_ok hgranted h]
  simp only [mapOutput, validateToolOutput, hdocument, ne_eq, not_false_eq_true, if_true,
    Except.mapError]
  exact ⟨_, rfl⟩

end Agent

/-! ## How the deterministic executor ends -/

variable {ρ : Type} (output : ρ → TaskExecutorResult) {useCase : RaisingUseCase ρ}
  {documentId : Int} {context : TaskRuntimeContext}

theorem executeNext_of_ok {value : ρ} (h : callUseCase useCase documentId context = .ok value) :
    executeNext (executeDeterministic output useCase documentId context) =
      .complete (output value).outputJson (output value).resourceRefs := by
  rw [executeDeterministic, h]
  rfl

/-- A status that makes the deterministic executor say blocked is one that the tools reject. -/
theorem rejected_of_status {error : Raised} {statusCode : Int}
    (hstatus : error.object.statusCode = some statusCode) (h400 : 400 ≤ statusCode)
    (h500 : statusCode < 500) : error.Rejected :=
  .inr (.inr ⟨statusCode, hstatus, h400, h500⟩)

theorem executeNext_of_error {error : Raised}
    (h : callUseCase useCase documentId context = .error error) :
    ∃ failure, executeNext (executeDeterministic output useCase documentId context) =
        .handleFailure failure ∧
      ((failure.retryable = true ↔ ¬ error.Rejected ∧ error.Retried) ∧
        (failure.blocked = true ↔ error.Rejected) ↔ error.Alike) := by
  rw [executeDeterministic, h]
  show ∃ failure, executeNext (.error (documentOperationError error)) = .handleFailure failure ∧ _
  by_cases happlication : error.object.isDocumentApplicationError = true
  · obtain ⟨statusCode, hstatus⟩ :=
      Option.isSome_iff_exists.mp (error.object.statusCode_isSome happlication)
    rw [documentOperationError, happlication, hstatus]
    refine ⟨_, rfl, ?_⟩
    simp only [Raised.Alike, happlication, if_true, hstatus, Option.some.injEq, exists_eq_left',
      Bool.or_eq_true, decide_eq_true_eq, or_assoc]
    by_cases hrejected : error.Rejected
    · simp only [hrejected, not_true_eq_false, false_and, iff_true, iff_false, or_false]
      omega
    · have hrange : ¬ (400 ≤ statusCode ∧ statusCode < 500) := fun hr =>
        hrejected (rejected_of_status hstatus hr.1 hr.2)
      simp only [hrejected, not_false_eq_true, true_and, iff_false]
      rw [and_iff_left (by omega)]
      constructor
      · exact fun h => .inr (.inr (.inr h))
      · rintro (hs | hs | hs | h)
        · omega
        · omega
        · omega
        · exact h
  · have hraised : documentOperationError error = .raised error := by
      simp [documentOperationError, happlication]
    rw [hraised]
    refine ⟨_, rfl, ?_⟩
    rw [Raised.Alike, if_neg happlication, failureOf]
    by_cases htimeout : error.object.isAsyncioTimeoutError = true
    · rw [if_pos htimeout, if_pos htimeout, executorTimeout]
      simp only [true_iff, Bool.false_eq_true, false_iff]
      tauto
    · rw [if_neg htimeout, if_neg htimeout]
      cases htask : error.object.taskExecutionError with
      | none =>
        simp only [Option.getD_none, executorSystemError, Bool.false_eq_true, false_iff]
        tauto
      | some raised =>
        simp only [Option.getD_some]
        by_cases hrejected : error.Rejected <;> simp [hrejected]

/-! ## Both executors -/

namespace DocumentCapability

/-- The outcomes of the use case that the executors of the capability take alike: an exception of
those above, or a result of the document of the task. -/
def Alike (c : DocumentCapability) (readers : Readers c.Detail) (documentId : Int) :
    Except Raised c.Result → Prop
  | .ok value => (c.agentTaskExecutor readers).tool.documentId value = documentId
  | .error error => error.Alike

theorem permission_mem (c : DocumentCapability) (readers : Readers c.Detail) :
    (c.agentTaskExecutor readers).tool.permission ∈ (c.agentTaskExecutor readers).permissions := by
  cases c <;> simp [agentTaskExecutor, processExecutor, buildChunksExecutor, indexVectorsExecutor,
    Agent.processDocument, Agent.buildDocumentChunks, Agent.indexDocumentVectors]

/-- The output of the deterministic executor is the report of the agent's tool, under the id that
the use case has returned. -/
theorem exists_output (c : DocumentCapability) (readers : Readers c.Detail) :
    ∃ output, c.deterministicExecutor = executeDeterministic output ∧ ∀ value,
      output value = reportOf (c.agentTaskExecutor readers)
        ((c.agentTaskExecutor readers).tool.documentId value) value := by
  cases c <;> exact ⟨_, rfl, fun value => rfl⟩

end DocumentCapability

/-- **The executors come to the same decision exactly for the outcomes they take alike.** -/
theorem executors_agree_iff (c : DocumentCapability) (readers : Readers c.Detail)
    (turns : List Turn) (arguments : String) (useCase : RaisingUseCase c.Result) (documentId : Int)
    (context : TaskRuntimeContext)
    (hinvokes : Invokes (c.agentTaskExecutor readers) turns (c.agentTaskExecutor readers).maxTurns
      arguments)
    (hinput : (c.agentTaskExecutor readers).readers.toolInput arguments = some documentId) :
    (executeNext (executeAgent (c.agentTaskExecutor readers) turns useCase documentId
        context)).Same (executeNext (c.deterministicExecutor useCase documentId context)) ↔
      c.Alike readers documentId (callUseCase useCase documentId context) := by
  have hgranted := c.permission_mem readers
  obtain ⟨output, hexecutor, houtput⟩ := c.exists_output readers
  rw [hexecutor]
  cases hcall : callUseCase useCase documentId context with
  | error error =>
    obtain ⟨failure, hagent, hretryable, hblocked⟩ :=
      executeAgent_of_error hgranted hinvokes hinput hcall
    obtain ⟨failure', hdeterministic, halike⟩ := executeNext_of_error output hcall
    rw [hagent, hdeterministic, DocumentCapability.Alike, ← halike, ← hretryable, ← hblocked]
    exact and_congr (eq_comm.trans Bool.eq_iff_iff) (eq_comm.trans Bool.eq_iff_iff)
  | ok value =>
    rw [executeNext_of_ok output hcall, houtput, DocumentCapability.Alike]
    by_cases hdocument : (c.agentTaskExecutor readers).tool.documentId value = documentId
    · rw [executeAgent_of_ok hgranted hinvokes hinput hcall hdocument]
      exact iff_of_true ⟨by rw [hdocument], by rw [hdocument]⟩ hdocument
    · obtain ⟨failure, hagent⟩ := executeAgent_of_other hgranted hinvokes hinput hcall hdocument
      rw [hagent]
      exact iff_of_false (fun h => h.elim) hdocument

/-! ## A run of the agent -/

def sampleArguments : String := "\x7b\"document_id\": 7\x7d"

/-- What the library reads in them. -/
def sampleReaders : Readers BuildDocumentChunksDetail where
  toolInput := fun text => if text = sampleArguments then some 7 else none
  toolOutput := fun _ => none
  toolOutput_safe := rfl

/-- The model calls the command tool at once. -/
def sampleTurns : List Turn := [.call "" "build_document_chunks" sampleArguments ""]

theorem invokes_sampleTurns :
    Invokes (DocumentCapability.buildDocumentChunks.agentTaskExecutor sampleReaders) sampleTurns
      (DocumentCapability.buildDocumentChunks.agentTaskExecutor sampleReaders).maxTurns
      sampleArguments :=
  ⟨[], "", "", [], rfl, by decide, List.forall_mem_nil _⟩

theorem toolInput_sampleArguments :
    (DocumentCapability.buildDocumentChunks.agentTaskExecutor sampleReaders).readers.toolInput
      sampleArguments = some 7 := by
  show (if sampleArguments = sampleArguments then some (7 : Int) else none) = some 7
  exact if_pos rfl

/-- The chunks of document 7. -/
def sampleUseCase : RaisingUseCase BuildChunksResult := fun _ _ => .ok ⟨7, 1, 2, "chunked"⟩

/-- A result of the document comes out the same. -/
theorem executors_agree_sampleUseCase :
    (executeNext (executeAgent (DocumentCapability.buildDocumentChunks.agentTaskExecutor
        sampleReaders) sampleTurns sampleUseCase 7 ⟨1, 1, 1⟩)).Same
      (executeNext (DocumentCapability.buildDocumentChunks.deterministicExecutor sampleUseCase 7
        ⟨1, 1, 1⟩)) :=
  (executors_agree_iff .buildDocumentChunks sampleReaders sampleTurns sampleArguments sampleUseCase
    7 ⟨1, 1, 1⟩ invokes_sampleTurns toolInput_sampleArguments).mpr rfl

/-- A check of the chunks that fails. -/
def failingUseCase : RaisingUseCase BuildChunksResult := fun _ _ =>
  .error (documentApplicationError 500 "切块结果包含重复的 parent block_index")

/-- A status of 500 is tried again by the deterministic executor only. -/
theorem executors_disagree_on_500 :
    executeNext (executeAgent (DocumentCapability.buildDocumentChunks.agentTaskExecutor
        sampleReaders) sampleTurns failingUseCase 7 ⟨1, 1, 1⟩) =
      .handleFailure ⟨"tool_execution_failed", "工具执行失败，请根据 retryable 决定是否重试", false,
        false⟩ ∧
    executeNext (DocumentCapability.buildDocumentChunks.deterministicExecutor failingUseCase 7
        ⟨1, 1, 1⟩) =
      .handleFailure ⟨"document_operation_rejected", "切块结果包含重复的 parent block_index", true,
        false⟩ ∧
    ¬ ∀ (c : DocumentCapability) (readers : Readers c.Detail) (turns : List Turn)
      (arguments : String) (useCase : RaisingUseCase c.Result) (documentId : Int)
      (context : TaskRuntimeContext),
      Invokes (c.agentTaskExecutor readers) turns (c.agentTaskExecutor readers).maxTurns
        arguments →
      (c.agentTaskExecutor readers).readers.toolInput arguments = some documentId →
      (executeNext (executeAgent (c.agentTaskExecutor readers) turns useCase documentId
        context)).Same (executeNext (c.deterministicExecutor useCase documentId context)) := by
  have hagent : executeNext (executeAgent
      (DocumentCapability.buildDocumentChunks.agentTaskExecutor sampleReaders) sampleTurns
      failingUseCase 7 ⟨1, 1, 1⟩) =
      .handleFailure ⟨"tool_execution_failed", "工具执行失败，请根据 retryable 决定是否重试", false,
        false⟩ := by
    decide +kernel
  have hdeterministic : executeNext
      (DocumentCapability.buildDocumentChunks.deterministicExecutor failingUseCase 7 ⟨1, 1, 1⟩) =
      .handleFailure ⟨"document_operation_rejected", "切块结果包含重复的 parent block_index", true,
        false⟩ := by
    decide +kernel
  refine ⟨hagent, hdeterministic, fun hall => ?_⟩
  have hsame := hall .buildDocumentChunks sampleReaders sampleTurns sampleArguments failingUseCase 7
    ⟨1, 1, 1⟩ invokes_sampleTurns toolInput_sampleArguments
  rw [hagent, hdeterministic] at hsame
  cases hsame.1

end DocFlow.TaskRuntime.Executors
