import Mathlib.Data.Finset.Basic

/-!
# Tool calls and the errors they report

Every handler runs its operation through `execute_audited_tool_call`, which checks the permissions
first and turns an exception into the details that the model may see.  The audit trail is left out:
a failing writer does not disturb the call, and no answer depends on it.
-/

namespace DocFlow.AgentRuntime

inductive ToolOutcome
  | rejected | failed
deriving DecidableEq, Repr

structure ToolErrorDetails where
  outcome : ToolOutcome
  resultCode : String
  message : String
  retryable : Bool
  resourceRefs : List String
deriving DecidableEq, Repr

/-- The exceptions that are classified by their class. -/
inductive ToolExceptionKind
  /-- `AgentToolPermissionError` -/
  | permission
  /-- `AgentToolScopeError` -/
  | scope
  | other
deriving DecidableEq, Repr

/-- An exception, with the attributes that are looked at; `transient` says that there is a
`TimeoutError` or a `ConnectionError` in its chain. -/
structure ToolException where
  kind : ToolExceptionKind
  statusCode : Option Int
  detail : Option String
  resultCode : Option String
  transient : Bool
deriving DecidableEq, Repr

def agentToolPermissionError : ToolException := ⟨.permission, none, none, none, false⟩

def agentToolScopeError : ToolException := ⟨.scope, none, none, none, false⟩

def toolNotAvailableError : ToolException := ⟨.other, none, none, none, false⟩

/-- `_is_retryable`. -/
def isRetryable (error : ToolException) : Bool :=
  error.statusCode = some 502 || error.statusCode = some 503 || error.statusCode = some 504 ||
    error.transient

/-- The result codes of the statuses. -/
def statusResultCode : Int → String
  | 400 => "invalid_request"
  | 401 => "authentication_required"
  | 403 => "permission_denied"
  | 404 => "document_not_found"
  | 409 => "document_state_conflict"
  | _ => "business_rejected"

def classifyToolError (error : ToolException) (resourceRefs : List String) : ToolErrorDetails :=
  match error.kind, error.statusCode with
  | .permission, _ =>
    ⟨.rejected, "permission_denied", "当前 Agent 没有调用该工具的权限", false, resourceRefs⟩
  | .scope, _ =>
    ⟨.rejected, "task_scope_violation", "工具请求超出当前 Agent Run 的授权资源范围", false,
      resourceRefs⟩
  | .other, some statusCode =>
    if 400 ≤ statusCode ∧ statusCode < 500 then
      ⟨.rejected, error.resultCode.getD (statusResultCode statusCode),
        error.detail.getD "业务规则拒绝了该操作", false, resourceRefs⟩
    else
      ⟨.failed, "tool_execution_failed", "工具执行失败，请根据 retryable 决定是否重试",
        isRetryable error, resourceRefs⟩
  | .other, none =>
    ⟨.failed, "tool_execution_failed", "工具执行失败，请根据 retryable 决定是否重试",
      isRetryable error, resourceRefs⟩

/-- `require_permissions`. -/
def requirePermissions (granted : Finset String) (required : List String) :
    Except ToolException Unit :=
  if ∀ p ∈ required, p ∈ granted then .ok () else .error agentToolPermissionError

/-- `execute_audited_tool_call`. -/
def executeAuditedToolCall {α : Type} (granted : Finset String) (required resourceRefs : List String)
    (operation : Except ToolException α) : Except ToolErrorDetails α :=
  match requirePermissions granted required >>= fun _ => operation with
  | .error error => .error (classifyToolError error resourceRefs)
  | .ok value => .ok value

/-- A call that lacks a permission does not run its operation. -/
theorem executeAuditedToolCall_denied {α : Type} {granted : Finset String} {p : String}
    {required : List String} (hp : p ∈ required) (hmissing : p ∉ granted)
    (resourceRefs : List String) (operation : Except ToolException α) :
    executeAuditedToolCall granted required resourceRefs operation =
      .error (classifyToolError agentToolPermissionError resourceRefs) := by
  have hnot : ¬ ∀ q ∈ required, q ∈ granted := fun hall => hmissing (hall p hp)
  rw [executeAuditedToolCall, requirePermissions, if_neg hnot]
  rfl

/-- A call with all permissions answers with its operation. -/
theorem executeAuditedToolCall_granted {α : Type} {granted : Finset String}
    {required : List String} (hgranted : ∀ p ∈ required, p ∈ granted) (resourceRefs : List String)
    (operation : Except ToolException α) :
    executeAuditedToolCall granted required resourceRefs operation =
      operation.mapError fun error => classifyToolError error resourceRefs := by
  rw [executeAuditedToolCall, requirePermissions, if_pos hgranted]
  cases operation <;> rfl

/-- A value of a call is that of its operation. -/
theorem executeAuditedToolCall_eq_ok {α : Type} {granted : Finset String}
    {required resourceRefs : List String} {operation : Except ToolException α} {value : α}
    (h : executeAuditedToolCall granted required resourceRefs operation = .ok value) :
    operation = .ok value := by
  by_cases hgranted : ∀ p ∈ required, p ∈ granted
  · rw [executeAuditedToolCall_granted hgranted] at h
    cases operation with
    | error error => cases h
    | ok v => exact congrArg _ (Except.ok.inj h)
  · rw [executeAuditedToolCall, requirePermissions, if_neg hgranted] at h
    cases h

end DocFlow.AgentRuntime
