import DocFlow.AgentRuntime.ToolCalls
import DocFlow.Domain
import Mathlib.Data.List.Forall2

/-!
# The executor agents

`AgentTaskExecutor` lets an agent carry out a task: the agent may ask its query tools, and its run
ends with the first call of the command tool of its capability, whose output becomes the result of
the task.  The run also ends with a text of the model, or with an exception.

The SDK is the loop `runAgent` here, over the turns of the model.  What reads a JSON text, the
arguments of a tool call or the final output, is the library's (`Readers`).

A text of the model decides nothing exactly when no text that the model may end with is read as a
tool output.  The one exception is an output that tells the executor what it says anyway of a text
that it cannot read (`Mute`).
-/

namespace DocFlow.TaskRuntime.Agent

open DocFlow.AgentRuntime

/-! ## The tool results -/

inductive ToolResultOutcome
  | succeeded | rejected | failed
deriving DecidableEq, Repr

def ToolResultOutcome.ofError : ToolOutcome → ToolResultOutcome
  | .rejected => .rejected
  | .failed => .failed

theorem ToolResultOutcome.ofError_ne (outcome : ToolOutcome) : ofError outcome ≠ .succeeded := by
  cases outcome <;> simp [ofError]

structure ToolResult where
  outcome : ToolResultOutcome
  resultCode : String
  message : String
  retryable : Bool
  resourceRefs : List String
deriving DecidableEq, Repr

/-- The output of a command tool; `δ` are the fields of its capability. -/
structure CommandToolOutput (δ : Type) extends ToolResult where
  documentId : Int
  documentStatus : Option String
  detail : δ
deriving DecidableEq, Repr

structure ProcessDocumentDetail where
  cleanedUri : Option String
deriving DecidableEq, Repr

structure BuildDocumentChunksDetail where
  parentCount : Option Int
  childCount : Option Int
deriving DecidableEq, Repr

structure IndexDocumentVectorsDetail where
  totalChunks : Option Int
  indexedChunks : Option Int
  failedChunks : Option Int
deriving DecidableEq, Repr

abbrev ProcessDocumentToolOutput := CommandToolOutput ProcessDocumentDetail
abbrev BuildDocumentChunksToolOutput := CommandToolOutput BuildDocumentChunksDetail
abbrev IndexDocumentVectorsToolOutput := CommandToolOutput IndexDocumentVectorsDetail

/-! ## The results of the use cases -/

structure ProcessDocumentResult where
  documentId : Int
  cleanedUri : String
  status : String
deriving DecidableEq, Repr

structure BuildChunksResult where
  documentId : Int
  parentCount : Int
  childCount : Int
  status : String
deriving DecidableEq, Repr

structure IndexVectorsResult where
  documentId : Int
  totalChunks : Int
  indexedChunks : Int
  failedChunks : Int
  status : String
deriving DecidableEq, Repr

inductive OutputValue
  | int (n : Int)
  | str (s : String)
deriving DecidableEq, Repr

structure TaskExecutorResult where
  outputJson : List (String × OutputValue)
  resourceRefs : List String
deriving DecidableEq, Repr

/-! ## The command tools -/

/-- A command tool: what it is called, what it asks for, how it reports what its use case returned
(`ρ`), and how its output becomes the output of the task. -/
structure CommandTool (ρ δ : Type) where
  name : String
  permission : String
  resultCode : String
  message : String
  documentId : ρ → Int
  status : ρ → String
  detail : ρ → δ
  /-- the fields of an output that is no success -/
  noDetail : δ
  /-- the further fields of the task's output; `none` where one is missing -/
  taskFields : δ → Option (List (String × OutputValue))
  /-- the further fields, from what the use case returned -/
  reported : ρ → List (String × OutputValue)
  taskFields_detail : ∀ value, taskFields (detail value) = some (reported value)

def processDocument : CommandTool ProcessDocumentResult ProcessDocumentDetail where
  name := "process_document"
  permission := "document:process"
  resultCode := "document_processed"
  message := "文档处理完成"
  documentId := ProcessDocumentResult.documentId
  status := ProcessDocumentResult.status
  detail := fun value => ⟨some value.cleanedUri⟩
  noDetail := ⟨none⟩
  taskFields := fun d => do
    let cleanedUri ← d.cleanedUri
    return [("cleaned_uri", .str cleanedUri)]
  reported := fun value => [("cleaned_uri", .str value.cleanedUri)]
  taskFields_detail := fun _ => rfl

def buildDocumentChunks : CommandTool BuildChunksResult BuildDocumentChunksDetail where
  name := "build_document_chunks"
  permission := "document:chunks:build"
  resultCode := "document_chunks_built"
  message := "文档切块完成"
  documentId := BuildChunksResult.documentId
  status := BuildChunksResult.status
  detail := fun value => ⟨some value.parentCount, some value.childCount⟩
  noDetail := ⟨none, none⟩
  taskFields := fun d => do
    let parentCount ← d.parentCount
    let childCount ← d.childCount
    return [("parent_count", .int parentCount), ("child_count", .int childCount)]
  reported := fun value =>
    [("parent_count", .int value.parentCount), ("child_count", .int value.childCount)]
  taskFields_detail := fun _ => rfl

/-- The total of the chunks is not part of the task's output. -/
def indexDocumentVectors : CommandTool IndexVectorsResult IndexDocumentVectorsDetail where
  name := "index_document_vectors"
  permission := "document:vectors:index"
  resultCode := "document_vectors_indexed"
  message := "文档向量索引完成"
  documentId := IndexVectorsResult.documentId
  status := IndexVectorsResult.status
  detail := fun value => ⟨some value.totalChunks, some value.indexedChunks, some value.failedChunks⟩
  noDetail := ⟨none, none, none⟩
  taskFields := fun d => do
    let indexedChunks ← d.indexedChunks
    let failedChunks ← d.failedChunks
    return [("indexed_chunks", .int indexedChunks), ("failed_chunks", .int failedChunks)]
  reported := fun value =>
    [("indexed_chunks", .int value.indexedChunks), ("failed_chunks", .int value.failedChunks)]
  taskFields_detail := fun _ => rfl

structure TaskRuntimeContext where
  workflowId : WorkflowId
  operationId : OperationId
  attempt : Nat
deriving DecidableEq, Repr

structure DocumentOperationContext where
  workflowId : WorkflowId
  operationId : OperationId
  attempt : Nat
deriving DecidableEq, Repr

/-- `DocumentOperationContext.create`; ids are generated, so none is blank. -/
def DocumentOperationContext.create (context : TaskRuntimeContext) :
    Except ToolException DocumentOperationContext :=
  if context.attempt < 1 then .error ⟨.other, none, none, none, false⟩
  else .ok ⟨context.workflowId, context.operationId, context.attempt⟩

/-- `AgentToolContext`, as `execute` makes it. -/
structure AgentToolContext where
  permissions : Finset String
  context : TaskRuntimeContext
  taskDocumentId : Option Int

/-- `_require_task_document_scope`. -/
def requireTaskDocumentScope (ctx : AgentToolContext) (documentId : Int) :
    Except ToolException Unit :=
  match ctx.taskDocumentId with
  | none => .ok ()
  | some taskDocumentId =>
    if taskDocumentId ≠ documentId then .error agentToolScopeError else .ok ()

/-- A use case, as it answers in a run. -/
abbrev UseCase (ρ : Type) := Int → DocumentOperationContext → Except ToolException ρ

/-- `_execute_in_task_scope` around the use case. -/
def executeInTaskScope {ρ : Type} (ctx : AgentToolContext) (useCase : UseCase ρ)
    (documentId : Int) : Except ToolException ρ := do
  requireTaskDocumentScope ctx documentId
  let operationContext ← DocumentOperationContext.create ctx.context
  useCase documentId operationContext

/-- The handler of a command tool. -/
def CommandTool.handler {ρ δ : Type} (tool : CommandTool ρ δ) (ctx : AgentToolContext)
    (useCase : UseCase ρ) (documentId : Int) : CommandToolOutput δ :=
  let resourceRefs := ["document:" ++ toString documentId]
  match executeAuditedToolCall ctx.permissions [tool.permission] resourceRefs
      (executeInTaskScope ctx useCase documentId) with
  | .error error =>
    { outcome := .ofError error.outcome
      resultCode := error.resultCode
      message := error.message
      retryable := error.retryable
      resourceRefs := error.resourceRefs
      documentId := documentId
      documentStatus := none
      detail := tool.noDetail }
  | .ok value =>
    { outcome := .succeeded
      resultCode := tool.resultCode
      message := tool.message
      retryable := false
      resourceRefs := resourceRefs
      documentId := tool.documentId value
      documentStatus := some (tool.status value)
      detail := tool.detail value }

/-- What `adapt_process_document_output` and its siblings do; `none` is a `ValidationError`. -/
def CommandTool.adaptOutput {ρ δ : Type} (tool : CommandTool ρ δ) (output : CommandToolOutput δ) :
    Option TaskExecutorResult := do
  let status ← output.documentStatus
  let fields ← tool.taskFields output.detail
  return ⟨("document_id", .int output.documentId) :: ("status", .str status) :: fields,
    output.resourceRefs⟩

/-! ## The run of an agent -/

/-- `safe_tool_error_function`. -/
def safeToolErrorText : String :=
  "\x7b\"outcome\": \"rejected\", \"result_code\": \"invalid_tool_arguments\", " ++
    "\"message\": \"工具参数无效或无法解析\", \"retryable\": false, \"resource_refs\": []\x7d"

/-- What the library reads out of a JSON text. -/
structure Readers (δ : Type) where
  /-- the arguments of the command tool; `none` is a `ValidationError` -/
  toolInput : String → Option Int
  /-- `model_validate_json` -/
  toolOutput : String → Option (CommandToolOutput δ)
  /-- a text without a `document_id` is no output -/
  toolOutput_safe : toolOutput safeToolErrorText = none

/-- A turn of the model.  A tool call carries the text beside it and, for a query, the answer. -/
inductive Turn
  | call (text toolName arguments answer : String)
  | final (text : String)
  | raisesTask (error : TaskExecutionError)
  | raises
  | cancelled
deriving DecidableEq, Repr

/-- `final_output`. -/
inductive FinalOutput (δ : Type)
  | output (output : CommandToolOutput δ)
  | text (text : String)
deriving DecidableEq, Repr

/-- How a run ends without an output. -/
inductive RunError
  | task (error : TaskExecutionError)
  | other
  | cancelled
deriving DecidableEq, Repr

structure AgentTaskExecutor (ρ δ : Type) where
  tool : CommandTool ρ δ
  /-- the tools of the agent -/
  tools : List String
  permissions : Finset String
  maxTurns : Nat
  readers : Readers δ
  /-- the check of the constructor -/
  tool_mem : tool.name ∈ tools

/-- The executors of the application. -/
def processExecutor (readers : Readers ProcessDocumentDetail) :
    AgentTaskExecutor ProcessDocumentResult ProcessDocumentDetail where
  tool := processDocument
  tools := ["get_document", "get_document_pipeline_state", "process_document"]
  permissions := {"document:read", "document:process"}
  maxTurns := 8
  readers := readers
  tool_mem := by simp [processDocument]

def buildChunksExecutor (readers : Readers BuildDocumentChunksDetail) :
    AgentTaskExecutor BuildChunksResult BuildDocumentChunksDetail where
  tool := buildDocumentChunks
  tools := ["get_document", "get_document_pipeline_state", "get_document_chunk_statistics",
    "build_document_chunks"]
  permissions := {"document:read", "document:chunks:build"}
  maxTurns := 8
  readers := readers
  tool_mem := by simp [buildDocumentChunks]

def indexVectorsExecutor (readers : Readers IndexDocumentVectorsDetail) :
    AgentTaskExecutor IndexVectorsResult IndexDocumentVectorsDetail where
  tool := indexDocumentVectors
  tools := ["get_document", "get_document_pipeline_state", "get_document_chunk_statistics",
    "index_document_vectors"]
  permissions := {"document:read", "document:vectors:index"}
  maxTurns := 8
  readers := readers
  tool_mem := by simp [indexDocumentVectors]

/-- A run: the turns of the model, and how the use case answers. -/
structure AgentRun (ρ : Type) where
  turns : List Turn
  useCase : UseCase ρ

section Executor

variable {ρ δ : Type} (e : AgentTaskExecutor ρ δ)

/-- A call of the command tool. -/
def callCommand (ctx : AgentToolContext) (useCase : UseCase ρ) (arguments : String) :
    FinalOutput δ :=
  match e.readers.toolInput arguments with
  | none => .text safeToolErrorText
  | some documentId => .output (e.tool.handler ctx useCase documentId)

/-- The loop of the SDK, with the turns that are left.  The command tool stops it; a query goes on;
an unknown tool and a turn too many are exceptions. -/
def runAgent (ctx : AgentToolContext) (useCase : UseCase ρ) :
    Nat → List Turn → Except RunError (FinalOutput δ)
  | 0, _ => .error .other
  | _ + 1, [] => .error .other
  | n + 1, .call _ toolName arguments _ :: turns =>
    if toolName = e.tool.name then .ok (callCommand e ctx useCase arguments)
    else if toolName ∈ e.tools then runAgent ctx useCase n turns
    else .error .other
  | _ + 1, .final text :: _ => .ok (.text text)
  | _ + 1, .raisesTask error :: _ => .error (.task error)
  | _ + 1, .raises :: _ => .error .other
  | _ + 1, .cancelled :: _ => .error .cancelled

/-- `_validate_tool_output`. -/
def validateToolOutput : FinalOutput δ → Option (CommandToolOutput δ)
  | .text text => e.readers.toolOutput text
  | .output output => some output

def commandNotCompleted : TaskExecutionError where
  errorCode := "executor_command_not_completed"
  message := "Executor Agent 未返回有效的 Command Tool Output"
  retryable := true
  blocked := false

/-- The second half of `execute`: what becomes of the final output. -/
def mapOutput (documentId : Int) (finalOutput : FinalOutput δ) :
    Except TaskExecutionError TaskExecutorResult :=
  match validateToolOutput e finalOutput with
  | none => .error commandNotCompleted
  | some output =>
    if output.documentId ≠ documentId then
      .error ⟨"task_scope_violation", "Command Tool Output 与 Task 资源范围不一致", false, true⟩
    else
      match output.outcome with
      | .rejected => .error ⟨output.resultCode, output.message, false, true⟩
      | .failed => .error ⟨output.resultCode, output.message, output.retryable, false⟩
      | .succeeded =>
        match e.tool.adaptOutput output with
        | none => .error ⟨"executor_invalid_command_output",
            "Command Tool 成功输出不符合 Task Result 契约", false, false⟩
        | some result => .ok result

/-- `AgentTaskExecutor.execute`; a payload may lack a document id.  An error that is no
`TaskExecutionError` is a cancellation. -/
def AgentTaskExecutor.execute (payload : Option Int) (context : TaskRuntimeContext)
    (run : AgentRun ρ) : Except (Option TaskExecutionError) TaskExecutorResult :=
  match payload with
  | none => .error (some ⟨"executor_invalid_task_payload",
      "Document Executor Task Payload 缺少 document_id", false, true⟩)
  | some documentId =>
    match runAgent e ⟨e.permissions, context, some documentId⟩ run.useCase e.maxTurns run.turns with
    | .error (.task error) => .error (some error)
    | .error .other =>
      .error (some ⟨"executor_agent_run_failed", "Executor Agent 运行失败", true, false⟩)
    | .error .cancelled => .error none
    | .ok finalOutput => (mapOutput e documentId finalOutput).mapError some

/-! ## The promise -/

/-- The turns agree up to the texts of the model. -/
def SameTurn : Turn → Turn → Prop
  | .call _ toolName arguments answer, .call _ toolName' arguments' answer' =>
    toolName = toolName' ∧ arguments = arguments' ∧ answer = answer'
  | .final _, .final _ => True
  | .raisesTask error, .raisesTask error' => error = error'
  | .raises, .raises => True
  | .cancelled, .cancelled => True
  | _, _ => False

/-- The same calls with the same outcomes. -/
def SameCalls (run run' : AgentRun ρ) : Prop :=
  List.Forall₂ SameTurn run.turns run'.turns ∧ run.useCase = run'.useCase

/-- The run can only end with one of these texts. -/
def Speaks (texts : Set String) (run : AgentRun ρ) : Prop :=
  ∀ text, .final text ∈ run.turns → text ∈ texts

/-- A call of a tool that does not end the run. -/
def IsQuery (turn : Turn) : Prop :=
  ∃ text toolName arguments answer, turn = .call text toolName arguments answer ∧
    toolName ≠ e.tool.name ∧ toolName ∈ e.tools

/-- The run ends with a call of the command tool. -/
def Invokes (turns : List Turn) (maxTurns : Nat) (arguments : String) : Prop :=
  ∃ queries text answer rest,
    turns = queries ++ .call text e.tool.name arguments answer :: rest ∧
    queries.length < maxTurns ∧ ∀ q ∈ queries, IsQuery e q

/-- The command tool has been called for the document, and its use case has returned this under the
operation of the task. -/
def CommandReturned (documentId : Int) (context : TaskRuntimeContext) (run : AgentRun ρ)
    (value : ρ) : Prop :=
  (∃ arguments, Invokes e run.turns e.maxTurns arguments ∧
    e.readers.toolInput arguments = some documentId) ∧
  run.useCase documentId ⟨context.workflowId, context.operationId, context.attempt⟩ = .ok value

/-- The task's result, from what the use case returned. -/
def reportOf (documentId : Int) (value : ρ) : TaskExecutorResult :=
  ⟨("document_id", .int documentId) :: ("status", .str (e.tool.status value)) ::
    e.tool.reported value, ["document:" ++ toString documentId]⟩

/-- A success is what the use case returned to the command tool, and the texts of the model make no
difference. -/
def TextNeverDecides (documentId : Int) (context : TaskRuntimeContext) (texts : Set String) :
    Prop :=
  (∀ run result, Speaks texts run → e.execute (some documentId) context run = .ok result →
    ∃ value, CommandReturned e documentId context run value ∧
      result = reportOf e documentId value) ∧
  ∀ run run', Speaks texts run → Speaks texts run' → SameCalls run run' →
    e.execute (some documentId) context run = e.execute (some documentId) context run'

/-- The text is not read as a tool output, unless it is one that reports just this failure. -/
def Mute (documentId : Int) (text : String) : Prop :=
  ∀ output, e.readers.toolOutput text = some output →
    output.documentId = documentId ∧ output.outcome = .failed ∧
      output.resultCode = commandNotCompleted.errorCode ∧
      output.message = commandNotCompleted.message ∧
      output.retryable = commandNotCompleted.retryable

/-! ## The final output -/

variable {e}

theorem mapOutput_text {documentId : Int} {text : String} :
    mapOutput e documentId (.text text) = .error commandNotCompleted ↔ Mute e documentId text := by
  unfold Mute mapOutput
  rw [show validateToolOutput e (.text text) = e.readers.toolOutput text from rfl]
  cases hread : e.readers.toolOutput text with
  | none => simp
  | some output =>
    by_cases hdoc : output.documentId = documentId
    · cases houtcome : output.outcome with
      | succeeded =>
        cases hadapt : e.tool.adaptOutput output with
        | none => simp [hdoc, houtcome, hadapt, commandNotCompleted]
        | some result => simp [hdoc, houtcome, hadapt]
      | rejected => simp [hdoc, houtcome, commandNotCompleted]
      | failed => simp [hdoc, houtcome, commandNotCompleted]
    · simp [hdoc, commandNotCompleted]

theorem mapOutput_safeToolErrorText {documentId : Int} :
    mapOutput e documentId (.text safeToolErrorText) = .error commandNotCompleted := by
  rw [mapOutput_text]
  intro output hread
  rw [e.readers.toolOutput_safe] at hread
  cases hread

theorem executeInTaskScope_eq_ok {permissions : Finset String} {context : TaskRuntimeContext}
    {useCase : UseCase ρ} {documentId taskDocumentId : Int} {value : ρ}
    (h : executeInTaskScope ⟨permissions, context, some taskDocumentId⟩ useCase documentId =
      .ok value) :
    documentId = taskDocumentId ∧ useCase taskDocumentId
      ⟨context.workflowId, context.operationId, context.attempt⟩ = .ok value := by
  by_cases hscope : taskDocumentId = documentId
  · by_cases hattempt : context.attempt < 1
    · simp [executeInTaskScope, requireTaskDocumentScope, DocumentOperationContext.create, hscope,
        hattempt, bind, Except.bind] at h
    · subst hscope
      simp only [executeInTaskScope, requireTaskDocumentScope, DocumentOperationContext.create,
        hattempt, ne_eq, not_true_eq_false, if_false, bind, Except.bind] at h
      exact ⟨rfl, h⟩
  · simp [executeInTaskScope, requireTaskDocumentScope, hscope, bind, Except.bind] at h

/-- A task succeeds with an output for its document that says so and is complete. -/
theorem mapOutput_output {documentId : Int} {output : CommandToolOutput δ}
    {result : TaskExecutorResult} (h : mapOutput e documentId (.output output) = .ok result) :
    output.documentId = documentId ∧ output.outcome = .succeeded ∧
      e.tool.adaptOutput output = some result := by
  by_cases hdoc : output.documentId = documentId
  · cases houtcome : output.outcome with
    | rejected => simp [mapOutput, validateToolOutput, hdoc, houtcome] at h
    | failed => simp [mapOutput, validateToolOutput, hdoc, houtcome] at h
    | succeeded =>
      cases hadapt : e.tool.adaptOutput output with
      | none => simp [mapOutput, validateToolOutput, hdoc, houtcome, hadapt] at h
      | some r =>
        simp only [mapOutput, validateToolOutput, hdoc, houtcome, hadapt, ne_eq,
          not_true_eq_false, if_false, Except.ok.injEq] at h
        exact ⟨hdoc, rfl, congrArg some h⟩
  · simp [mapOutput, validateToolOutput, hdoc] at h

/-- A handler that says it has succeeded says what its use case returned. -/
theorem handler_succeeded {ctx : AgentToolContext} {useCase : UseCase ρ} {documentId : Int}
    (h : (e.tool.handler ctx useCase documentId).outcome = .succeeded) :
    ∃ value, executeInTaskScope ctx useCase documentId = .ok value ∧
      e.tool.handler ctx useCase documentId =
        { outcome := .succeeded
          resultCode := e.tool.resultCode
          message := e.tool.message
          retryable := false
          resourceRefs := ["document:" ++ toString documentId]
          documentId := e.tool.documentId value
          documentStatus := some (e.tool.status value)
          detail := e.tool.detail value } := by
  unfold CommandTool.handler at h ⊢
  cases hcall : executeAuditedToolCall ctx.permissions [e.tool.permission]
      ["document:" ++ toString documentId] (executeInTaskScope ctx useCase documentId) with
  | error error =>
    simp only [hcall] at h
    exact absurd h (ToolResultOutcome.ofError_ne error.outcome)
  | ok value =>
    refine ⟨value, executeAuditedToolCall_eq_ok hcall, ?_⟩
    simp only [hcall]

theorem mapOutput_handler {permissions : Finset String} {context : TaskRuntimeContext}
    {useCase : UseCase ρ} {documentId taskDocumentId : Int} {result : TaskExecutorResult}
    (h : mapOutput e taskDocumentId (.output (e.tool.handler
      ⟨permissions, context, some taskDocumentId⟩ useCase documentId)) = .ok result) :
    documentId = taskDocumentId ∧ ∃ value, useCase taskDocumentId
      ⟨context.workflowId, context.operationId, context.attempt⟩ = .ok value ∧
        result = reportOf e taskDocumentId value := by
  obtain ⟨hdoc, houtcome, hadapt⟩ := mapOutput_output h
  obtain ⟨value, hscope, hhandler⟩ := handler_succeeded houtcome
  obtain ⟨rfl, hvalue⟩ := executeInTaskScope_eq_ok hscope
  refine ⟨rfl, value, hvalue, ?_⟩
  rw [hhandler] at hdoc hadapt
  simp only [CommandTool.adaptOutput, e.tool.taskFields_detail, Option.bind_eq_bind,
    Option.bind_some, Option.pure_def, Option.some.injEq] at hdoc hadapt
  rw [← hadapt, hdoc, reportOf]

/-! ## The run -/

theorem runAgent_output {ctx : AgentToolContext} {useCase : UseCase ρ} {turns : List Turn}
    {n : Nat} {output : CommandToolOutput δ}
    (h : runAgent e ctx useCase n turns = .ok (.output output)) :
    ∃ arguments documentId, Invokes e turns n arguments ∧
      e.readers.toolInput arguments = some documentId ∧
      output = e.tool.handler ctx useCase documentId := by
  induction turns generalizing n with
  | nil => cases n <;> cases h
  | cons turn turns ih =>
    cases n with
    | zero => cases h
    | succ n =>
      cases turn with
      | call text toolName arguments answer =>
        by_cases hname : toolName = e.tool.name
        · subst hname
          simp only [runAgent, if_true, Except.ok.injEq] at h
          unfold callCommand at h
          cases hinput : e.readers.toolInput arguments with
          | none => simp [hinput] at h
          | some documentId =>
            simp only [hinput, FinalOutput.output.injEq] at h
            exact ⟨arguments, documentId, ⟨[], text, answer, turns, rfl, by simp, by simp⟩, hinput,
              h.symm⟩
        · by_cases htool : toolName ∈ e.tools
          · simp only [runAgent, hname, htool, if_true, if_false] at h
            obtain ⟨arguments', documentId, hinvokes, hrest⟩ := ih h
            obtain ⟨queries, text', answer', rest, rfl, hlen, hqueries⟩ := hinvokes
            refine ⟨arguments', documentId, ⟨.call text toolName arguments answer :: queries, text',
              answer', rest, rfl, by simpa using hlen, ?_⟩, hrest⟩
            rw [List.forall_mem_cons]
            exact ⟨⟨text, toolName, arguments, answer, rfl, hname, htool⟩, hqueries⟩
          · simp [runAgent, hname, htool] at h
      | final text => cases h
      | raisesTask error => cases h
      | raises => cases h
      | cancelled => cases h

/-- A run that calls the command tool ends with its answer. -/
theorem runAgent_of_invokes (ctx : AgentToolContext) (useCase : UseCase ρ) {turns : List Turn}
    {n : Nat} {arguments : String} (h : Invokes e turns n arguments) :
    runAgent e ctx useCase n turns = .ok (callCommand e ctx useCase arguments) := by
  obtain ⟨queries, text, answer, rest, rfl, hlen, hqueries⟩ := h
  induction queries generalizing n with
  | nil =>
    obtain ⟨n, rfl⟩ := Nat.exists_eq_succ_of_ne_zero (show n ≠ 0 by simp at hlen; omega)
    rw [List.nil_append, runAgent, if_pos rfl]
  | cons query queries ih =>
    obtain ⟨n, rfl⟩ := Nat.exists_eq_succ_of_ne_zero (show n ≠ 0 by simp at hlen; omega)
    obtain ⟨⟨text', toolName, arguments', answer', rfl, hname, htool⟩, hrest⟩ :=
      List.forall_mem_cons.mp hqueries
    rw [List.cons_append, runAgent, if_neg hname, if_pos htool]
    apply ih ?_ hrest
    rw [List.length_cons] at hlen
    omega

/-- A run that ends with a text ends with one of the model, or with that of a bad call. -/
theorem runAgent_text {ctx : AgentToolContext} {useCase : UseCase ρ} {turns : List Turn}
    {n : Nat} {text : String} (h : runAgent e ctx useCase n turns = .ok (.text text)) :
    text = safeToolErrorText ∨ .final text ∈ turns := by
  induction turns generalizing n with
  | nil => cases n <;> cases h
  | cons turn turns ih =>
    cases n with
    | zero => cases h
    | succ n =>
      cases turn with
      | call text' toolName arguments answer =>
        by_cases hname : toolName = e.tool.name
        · simp only [runAgent, hname, if_true, Except.ok.injEq] at h
          unfold callCommand at h
          cases hinput : e.readers.toolInput arguments with
          | none =>
            simp only [hinput, FinalOutput.text.injEq] at h
            exact .inl h.symm
          | some documentId => simp [hinput] at h
        · by_cases htool : toolName ∈ e.tools
          · simp only [runAgent, hname, htool, if_true, if_false] at h
            exact (ih h).imp_right (List.mem_cons_of_mem _)
          · simp [runAgent, hname, htool] at h
      | final text' =>
        simp only [runAgent, Except.ok.injEq, FinalOutput.text.injEq] at h
        exact .inr (h ▸ List.mem_cons_self)
      | raisesTask error => cases h
      | raises => cases h
      | cancelled => cases h

/-- Runs with the same calls end in the same way, or each with a text of the model. -/
theorem runAgent_same (ctx : AgentToolContext) (useCase : UseCase ρ) {turns turns' : List Turn}
    (h : List.Forall₂ SameTurn turns turns') (n : Nat) :
    runAgent e ctx useCase n turns = runAgent e ctx useCase n turns' ∨
      ∃ text text', .final text ∈ turns ∧ .final text' ∈ turns' ∧
        runAgent e ctx useCase n turns = .ok (.text text) ∧
        runAgent e ctx useCase n turns' = .ok (.text text') := by
  induction h generalizing n with
  | nil => exact .inl rfl
  | @cons turn turn' turns turns' hsame _ ih =>
    cases n with
    | zero => exact .inl rfl
    | succ n =>
      cases turn <;> cases turn' <;> try exact hsame.elim
      case call text toolName arguments answer text' toolName' arguments' answer' =>
        obtain ⟨rfl, rfl, rfl⟩ := hsame
        by_cases hname : toolName = e.tool.name
        · simp [runAgent, hname]
        · by_cases htool : toolName ∈ e.tools
          · simp only [runAgent, hname, htool, if_true, if_false]
            obtain heq | ⟨s, s', hs, hs', hrun, hrun'⟩ := ih n
            · exact .inl heq
            · exact .inr ⟨s, s', List.mem_cons_of_mem _ hs, List.mem_cons_of_mem _ hs', hrun, hrun'⟩
          · simp [runAgent, hname, htool]
      case final text text' =>
        exact .inr ⟨text, text', List.mem_cons_self, List.mem_cons_self, rfl, rfl⟩
      case raisesTask error error' =>
        obtain rfl : error = error' := hsame
        exact .inl rfl
      case raises => exact .inl rfl
      case cancelled => exact .inl rfl

/-! ## The call -/

variable {documentId : Int} {context : TaskRuntimeContext} {run run' : AgentRun ρ}
  {texts : Set String}

/-- What `execute` makes of the end of a run. -/
theorem execute_of_final {finalOutput : FinalOutput δ}
    (h : runAgent e ⟨e.permissions, context, some documentId⟩ run.useCase e.maxTurns run.turns =
      .ok finalOutput) :
    e.execute (some documentId) context run =
      (mapOutput e documentId finalOutput).mapError some := by
  simp only [AgentTaskExecutor.execute, h]

theorem execute_of_mute {text : String} (hmute : Mute e documentId text)
    (h : runAgent e ⟨e.permissions, context, some documentId⟩ run.useCase e.maxTurns run.turns =
      .ok (.text text)) :
    e.execute (some documentId) context run = .error (some commandNotCompleted) := by
  rw [execute_of_final h, mapOutput_text.mpr hmute]
  rfl

/-- The texts in play, that of a bad call among them, are mute. -/
theorem mute_of_runAgent {text : String} (hmute : ∀ text ∈ texts, Mute e documentId text)
    (hspeaks : Speaks texts run)
    (h : runAgent e ⟨e.permissions, context, some documentId⟩ run.useCase e.maxTurns run.turns =
      .ok (.text text)) : Mute e documentId text := by
  obtain rfl | hmem := runAgent_text h
  · exact mapOutput_text.mp mapOutput_safeToolErrorText
  · exact hmute text (hspeaks text hmem)

/-- A success comes from the command tool. -/
theorem commandReturned_of_ok {result : TaskExecutorResult}
    (hmute : ∀ text ∈ texts, Mute e documentId text) (hspeaks : Speaks texts run)
    (h : e.execute (some documentId) context run = .ok result) :
    ∃ value, CommandReturned e documentId context run value ∧
      result = reportOf e documentId value := by
  cases hrun : runAgent e ⟨e.permissions, context, some documentId⟩ run.useCase e.maxTurns
      run.turns with
  | error error => cases error <;> simp [AgentTaskExecutor.execute, hrun] at h
  | ok finalOutput =>
    cases finalOutput with
    | text text =>
      rw [execute_of_mute (mute_of_runAgent hmute hspeaks hrun) hrun] at h
      cases h
    | output output =>
      obtain ⟨arguments, id, hinvokes, hinput, rfl⟩ := runAgent_output hrun
      rw [execute_of_final hrun] at h
      cases hmap : mapOutput e documentId (.output (e.tool.handler
          ⟨e.permissions, context, some documentId⟩ run.useCase id)) with
      | error error =>
        rw [hmap] at h
        cases h
      | ok r =>
        rw [hmap] at h
        obtain rfl : r = result := Except.ok.inj h
        obtain ⟨rfl, value, hvalue, rfl⟩ := mapOutput_handler hmap
        exact ⟨value, ⟨⟨arguments, hinvokes, hinput⟩, hvalue⟩, rfl⟩

theorem execute_same (hmute : ∀ text ∈ texts, Mute e documentId text)
    (hspeaks : Speaks texts run) (hspeaks' : Speaks texts run') (hsame : SameCalls run run') :
    e.execute (some documentId) context run = e.execute (some documentId) context run' := by
  obtain ⟨hturns, huse⟩ := hsame
  obtain heq | ⟨text, text', -, -, hrun, hrun'⟩ := runAgent_same (e := e)
    ⟨e.permissions, context, some documentId⟩ run.useCase hturns e.maxTurns
  · rw [huse] at heq
    simp only [AgentTaskExecutor.execute, heq, huse]
  · rw [huse] at hrun'
    rw [execute_of_mute (mute_of_runAgent hmute hspeaks hrun) hrun,
      execute_of_mute (mute_of_runAgent hmute hspeaks' hrun') hrun']

/-- A run of which the model makes nothing but a text. -/
def onlyText (text : String) : AgentRun ρ where
  turns := [.final text]
  useCase := fun _ _ => .error toolNotAvailableError

theorem speaks_onlyText {text : String} (h : text ∈ texts) :
    Speaks texts (onlyText text : AgentRun ρ) := by
  intro s hs
  simp only [onlyText, List.mem_singleton, Turn.final.injEq] at hs
  exact hs ▸ h

theorem execute_onlyText (hturns : 0 < e.maxTurns) (text : String) :
    e.execute (some documentId) context (onlyText text) =
      (mapOutput e documentId (.text text)).mapError some := by
  apply execute_of_final
  obtain ⟨n, hn⟩ := Nat.exists_eq_succ_of_ne_zero hturns.ne'
  rw [hn]
  rfl

/-- For a model that may say something that is no tool output, its texts decide nothing exactly
when all of them are mute. -/
theorem text_never_decides_iff (e : AgentTaskExecutor ρ δ) (documentId : Int)
    (context : TaskRuntimeContext) (texts : Set String)
    (hprose : ∃ text ∈ texts, e.readers.toolOutput text = none) :
    TextNeverDecides e documentId context texts ↔
      ∀ text ∈ texts, 0 < e.maxTurns → Mute e documentId text := by
  constructor
  · rintro ⟨-, hsame⟩ text htext hturns
    obtain ⟨prose, hin, hnone⟩ := hprose
    have hcalls : SameCalls (onlyText text : AgentRun ρ) (onlyText prose) :=
      ⟨.cons trivial .nil, rfl⟩
    have hend := hsame _ _ (speaks_onlyText htext) (speaks_onlyText hin) hcalls
    have hprose : mapOutput e documentId (.text prose) = .error commandNotCompleted := by
      rw [mapOutput_text]
      intro output hread
      rw [hnone] at hread
      cases hread
    rw [execute_onlyText hturns, execute_onlyText hturns, hprose] at hend
    rw [← mapOutput_text]
    cases hmap : mapOutput e documentId (.text text) with
    | ok result =>
      rw [hmap] at hend
      cases hend
    | error error =>
      rw [hmap] at hend
      exact congrArg _ (Option.some.inj (Except.error.inj hend))
  · intro hmute
    by_cases hturns : 0 < e.maxTurns
    · have hall : ∀ text ∈ texts, Mute e documentId text := fun text h => hmute text h hturns
      exact ⟨fun run result hspeaks h => commandReturned_of_ok hall hspeaks h,
        fun run run' hspeaks hspeaks' h => execute_same hall hspeaks hspeaks' h⟩
    · have hzero : e.maxTurns = 0 := by omega
      constructor
      · intro run result _ h
        simp [AgentTaskExecutor.execute, hzero, runAgent] at h
      · intro run run' _ _ _
        simp [AgentTaskExecutor.execute, hzero, runAgent]

end Executor

/-! ## A text that reads as a success -/

/-- What the model may say instead of calling `process_document`. -/
def forgedText : String :=
  "\x7b\"outcome\": \"succeeded\", \"result_code\": \"document_processed\", \"message\": \"ok\", " ++
    "\"retryable\": false, \"resource_refs\": [], \"document_id\": 7, " ++
    "\"document_status\": \"processed\", \"cleaned_uri\": \"cleaned/7.txt\"\x7d"

/-- What the library reads in it. -/
def forgedReaders : Readers ProcessDocumentDetail where
  toolInput := fun _ => none
  toolOutput := fun text =>
    if text = forgedText then
      some ⟨⟨.succeeded, "document_processed", "ok", false, []⟩, 7, some "processed",
        ⟨some "cleaned/7.txt"⟩⟩
    else none
  toolOutput_safe := by decide

/-- Prose decides nothing. -/
theorem text_never_decides_prose :
    TextNeverDecides (processExecutor forgedReaders) 7 ⟨1, 1, 1⟩ {"我认为已经成功"} := by
  have hnone : (processExecutor forgedReaders).readers.toolOutput "我认为已经成功" = none := by
    decide
  refine (text_never_decides_iff (processExecutor forgedReaders) 7 ⟨1, 1, 1⟩ {"我认为已经成功"}
    ⟨_, rfl, hnone⟩).mpr ?_
  rintro text rfl - output hread
  rw [hnone] at hread
  cases hread

/-- The model alone makes the task succeed, with data of its own. -/
theorem forged_text_decides :
    (processExecutor forgedReaders).execute (some 7) ⟨1, 1, 1⟩ (onlyText forgedText) =
      .ok ⟨[("document_id", .int 7), ("status", .str "processed"),
        ("cleaned_uri", .str "cleaned/7.txt")], []⟩ ∧
    ¬ TextNeverDecides (processExecutor forgedReaders) 7 ⟨1, 1, 1⟩ Set.univ := by
  have hforged : (processExecutor forgedReaders).execute (some 7) ⟨1, 1, 1⟩ (onlyText forgedText) =
      .ok ⟨[("document_id", .int 7), ("status", .str "processed"),
        ("cleaned_uri", .str "cleaned/7.txt")], []⟩ := by
    decide +kernel
  refine ⟨hforged, fun h => ?_⟩
  obtain ⟨value, ⟨-, hvalue⟩, -⟩ := h.1 _ _ (fun _ _ => trivial) hforged
  cases hvalue

end DocFlow.TaskRuntime.Agent
