import DocFlow.AgentRuntime.ToolCalls
import DocFlow.Operations.LogWriting
import DocFlow.Operations.ToolTimeline

/-!
# The audit trail of the tool calls

`execute_audited_tool_call` writes an event when a call starts and another one when it has ended.  The
calls run beside each other; an event may be lost, and a process that dies writes no more.

`faithful_of_reachable`: in every run, the log has of each call what it has written, and nothing else.
-/

namespace DocFlow.Operations

open Text Calendar AgentRuntime

namespace Audit

/-! ## The events -/

/-- The fields of `AgentToolContext` that a call reads. -/
structure AgentToolContext where
  traceId : Str
  agentRunId : Str
  conversationId : Option Str
  turnId : Option Str
  taskId : Option Str
  workflowId : Option Str
  executionId : Option Str
  operationId : Option Str
  attempt : Int
  agentName : Str
  actorCode : Str
  permissions : Finset String

structure AgentToolInvocationAudit where
  context : AgentToolContext
  toolName : Str
  resourceRefs : List String
  invocationId : Str

/-- What the writing of an event draws and reads, and whether it gets to the log. -/
structure Stamp where
  eventId : Str
  durationMs : Int
  createdAt : DateTime
  written : Bool

def ofText (t : String) : Json := .str (str t.toList)

def nullable : Option Str → Json
  | none => .null
  | some s => .str s

namespace AgentToolInvocationAudit

variable (audit : AgentToolInvocationAudit)

/-- `_write`; the writer adds the time. -/
def payload (event : String) (stamp : Stamp) (fields : Event) : Event :=
  [(str "schema_version".toList, .int 1),
    (str "event_id".toList, .str stamp.eventId),
    (str "invocation_id".toList, .str audit.invocationId),
    (str "event".toList, ofText event),
    (str "trace_id".toList, .str audit.context.traceId),
    (str "agent_run_id".toList, .str audit.context.agentRunId),
    (str "conversation_id".toList, nullable audit.context.conversationId),
    (str "turn_id".toList, nullable audit.context.turnId),
    (str "task_id".toList, nullable audit.context.taskId),
    (str "workflow_id".toList, nullable audit.context.workflowId),
    (str "execution_id".toList, nullable audit.context.executionId),
    (str "operation_id".toList, nullable audit.context.operationId),
    (str "attempt".toList, .int audit.context.attempt),
    (str "agent_name".toList, .str audit.context.agentName),
    (str "tool_name".toList, .str audit.toolName),
    (str "actor_code".toList, .str audit.context.actorCode),
    (str "resource_refs".toList, .arr (audit.resourceRefs.map ofText)),
    (str "duration_ms".toList, .int stamp.durationMs)] ++ fields ++
  [(str "created_at".toList, .str (str (isoformat stamp.createdAt)))]

def started (stamp : Stamp) : Event := audit.payload "agent_tool_invocation_started" stamp []

def endFields (resultCode : String) (retryable : Bool) : Event :=
  [(str "result_code".toList, ofText resultCode), (str "retryable".toList, .bool retryable)]

def succeeded (resultCode : String) (stamp : Stamp) : Event :=
  audit.payload "agent_tool_invocation_succeeded" stamp (endFields resultCode false)

def rejected (details : ToolErrorDetails) (stamp : Stamp) : Event :=
  audit.payload "agent_tool_invocation_rejected" stamp (endFields details.resultCode details.retryable)

def failed (details : ToolErrorDetails) (stamp : Stamp) : Event :=
  audit.payload "agent_tool_invocation_failed" stamp (endFields details.resultCode details.retryable)

end AgentToolInvocationAudit

/-! ## The calls -/

/-- What a call has answered: its success, with a code, or its error. -/
abbrev CallResult := Except ToolErrorDetails String

structure AuditedCall where
  audit : AgentToolInvocationAudit
  requiredPermissions : List String
  successResultCode : String
  started : Stamp
  /-- none, as long as it runs -/
  ended : Option (CallResult × Stamp)

def endEvent (audit : AgentToolInvocationAudit) (result : CallResult) (stamp : Stamp) : Event :=
  match result with
  | .ok resultCode => audit.succeeded resultCode stamp
  | .error details =>
    match details.outcome with
    | .rejected => audit.rejected details stamp
    | .failed => audit.failed details stamp

def Stamp.keep (stamp : Stamp) (event : Event) : List Event :=
  if stamp.written = true then [event] else []

/-- The start of a call, if the log has it. -/
def AuditedCall.loggedStart (call : AuditedCall) : Option Stamp :=
  (some call.started).filter fun stamp => stamp.written

/-- The end of a call, if the log has it. -/
def AuditedCall.loggedEnd (call : AuditedCall) : Option (CallResult × Stamp) :=
  call.ended.filter fun ending => ending.2.written

/-- What a call has left in the log. -/
def AuditedCall.written (call : AuditedCall) : List Event :=
  (call.loggedStart.map call.audit.started).toList ++
    (call.loggedEnd.map fun ending => endEvent call.audit ending.1 ending.2).toList

structure Trail where
  log : List Event
  calls : Nat → Option AuditedCall

/-- A call does a step, and writes. -/
def Trail.put (s : Trail) (i : Nat) (call : AuditedCall) (events : List Event) : Trail where
  log := s.log ++ events
  calls := Function.update s.calls i (some call)

inductive TrailAction
  | start (call : Nat) (context : AgentToolContext) (toolName : Str)
      (requiredPermissions resourceRefs : List String) (successResultCode : String) (stamp : Stamp)
  | finish (call : Nat) (operation : Except ToolException Unit) (stamp : Stamp)

/-- What a call answers when its operation does this. -/
def AuditedCall.result (call : AuditedCall) (operation : Except ToolException Unit) : CallResult :=
  (executeAuditedToolCall call.audit.context.permissions call.requiredPermissions
    call.audit.resourceRefs operation).map fun _ => call.successResultCode

/-- The steps of `execute_audited_tool_call`; `uuid4` draws the ids of the invocations. -/
def step (invocationId : Nat → Str) (s : Trail) : TrailAction → Option Trail
  | .start call context toolName requiredPermissions resourceRefs successResultCode stamp =>
    match s.calls call with
    | some _ => none
    | none =>
      let audit : AgentToolInvocationAudit := ⟨context, toolName, resourceRefs, invocationId call⟩
      some (s.put call ⟨audit, requiredPermissions, successResultCode, stamp, none⟩
        (stamp.keep (audit.started stamp)))
  | .finish call operation stamp =>
    match s.calls call with
    | none => none
    | some running =>
      if running.ended.isSome = true then none
      else
        let result := running.result operation
        some (s.put call { running with ended := some (result, stamp) }
          (stamp.keep (endEvent running.audit result stamp)))

def machine (invocationId : Nat → Str) : Machine Trail TrailAction :=
  ⟨fun s => s.log = [] ∧ ∀ call, s.calls call = none, step invocationId⟩

/-! ## Fields of the events -/

section Fields

variable (audit : AgentToolInvocationAudit) (stamp : Stamp)

/-- What all the events of a call have in common. -/
structure Speaks (event : Event) : Prop where
  name : ∃ name, event.get "event" = some (.str name)
  invocationId : event.get "invocation_id" = some (.str audit.invocationId)
  traceId : event.get "trace_id" = some (.str audit.context.traceId)
  agentRunId : event.get "agent_run_id" = some (.str audit.context.agentRunId)
  conversationId : event.get "conversation_id" = some (nullable audit.context.conversationId)
  turnId : event.get "turn_id" = some (nullable audit.context.turnId)
  taskId : event.get "task_id" = some (nullable audit.context.taskId)
  agentName : event.get "agent_name" = some (.str audit.context.agentName)
  toolName : event.get "tool_name" = some (.str audit.toolName)
  actorCode : event.get "actor_code" = some (.str audit.context.actorCode)
  resourceRefs : event.get "resource_refs" = some (.arr (audit.resourceRefs.map ofText))
  durationMs : event.get "duration_ms" = some (.int stamp.durationMs)
  createdAt : event.get "created_at" = some (.str (str (isoformat stamp.createdAt)))

theorem speaks_started : Speaks audit stamp (audit.started stamp) := by
  constructor
  case name => exact ⟨_, rfl⟩
  all_goals rfl

/-- The name that an ending has in the log. -/
def CallResult.outcome : CallResult → String
  | .ok _ => "succeeded"
  | .error details =>
    match details.outcome with
    | .rejected => "rejected"
    | .failed => "failed"

def CallResult.resultCode : CallResult → String
  | .ok resultCode => resultCode
  | .error details => details.resultCode

def CallResult.retryable : CallResult → Bool
  | .ok _ => false
  | .error details => details.retryable

/-- What the event of an ending says beside. -/
structure Tells (result : CallResult) (event : Event) : Prop where
  terminal : Timeline.isTerminal event = true
  outcome : Timeline.outcomeOf event = str (CallResult.outcome result).toList
  resultCode : event.get "result_code" = some (ofText (CallResult.resultCode result))
  retryable : event.get "retryable" = some (.bool (CallResult.retryable result))

variable (result : CallResult)

theorem endEvent_eq : endEvent audit result stamp =
    audit.payload ("agent_tool_invocation_" ++ CallResult.outcome result) stamp
      (AgentToolInvocationAudit.endFields (CallResult.resultCode result)
        (CallResult.retryable result)) := by
  cases result with
  | ok resultCode => rfl
  | error details =>
    rw [endEvent, CallResult.outcome]
    cases details.outcome <;> rfl

theorem speaks_endEvent : Speaks audit stamp (endEvent audit result stamp) := by
  rw [endEvent_eq]
  constructor
  case name => exact ⟨_, rfl⟩
  all_goals rfl

theorem outcome_mem : CallResult.outcome result ∈ ["succeeded", "rejected", "failed"] := by
  cases result with
  | ok resultCode => exact List.mem_cons_self ..
  | error details =>
    rw [CallResult.outcome]
    cases details.outcome
    · exact List.mem_cons_of_mem _ (List.mem_cons_self ..)
    · exact List.mem_cons_of_mem _ (List.mem_cons_of_mem _ (List.mem_cons_self ..))

/-- The names of the endings, as the timeline reads them. -/
theorem terminal_names : ∀ outcome ∈ ["succeeded", "rejected", "failed"], ∀ event : Event,
    event.get "event" = some (ofText ("agent_tool_invocation_" ++ outcome)) →
      Timeline.isTerminal event = true ∧ Timeline.outcomeOf event = str outcome.toList := by
  intro outcome houtcome event hevent
  have hname : Timeline.eventName event = str ("agent_tool_invocation_" ++ outcome).toList := by
    rw [Timeline.eventName, hevent]
    rfl
  rw [Timeline.isTerminal, Timeline.outcomeOf, hname]
  simp only [List.mem_cons, List.not_mem_nil, or_false] at houtcome
  obtain rfl | rfl | rfl := houtcome <;> exact ⟨by decide, rfl⟩

theorem tells_endEvent : Tells result (endEvent audit result stamp) := by
  have hevent : (endEvent audit result stamp).get "event" =
      some (ofText ("agent_tool_invocation_" ++ CallResult.outcome result)) := by
    rw [endEvent_eq]
    rfl
  obtain ⟨hterminal, houtcome⟩ := terminal_names _ (outcome_mem result) _ hevent
  refine ⟨hterminal, houtcome, ?_, ?_⟩ <;> rw [endEvent_eq] <;> rfl

theorem isStarted_started : Timeline.isStarted (audit.started stamp) = true := by
  have hname : Timeline.eventName (audit.started stamp) =
      str "agent_tool_invocation_started".toList := rfl
  rw [Timeline.isStarted, hname]
  exact decide_eq_true rfl

end Fields

/-! ## The log of a run -/

section Runs

variable {py : Python} {invocationId : Nat → Str}

/-- What is kept is in the log if it has been written. -/
theorem keep_eq {α : Type} (stampOf : α → Stamp) (event : α → Event) (a : α) :
    (((some a).filter fun a => (stampOf a).written).map event).toList =
      (stampOf a).keep (event a) := by
  rw [Option.filter_some]
  unfold Stamp.keep
  cases (stampOf a).written <;> rfl

/-- An event of a call speaks of it. -/
theorem speaks_of_written {call : AuditedCall} {e : Event} (he : e ∈ call.written) :
    ∃ stamp, Speaks call.audit stamp e := by
  rcases List.mem_append.mp he with he | he
  · obtain ⟨stamp, -, rfl⟩ := Option.map_eq_some_iff.mp (Option.mem_toList.mp he)
    exact ⟨stamp, speaks_started call.audit stamp⟩
  · obtain ⟨ending, -, rfl⟩ := Option.map_eq_some_iff.mp (Option.mem_toList.mp he)
    exact ⟨ending.2, speaks_endEvent call.audit ending.2 ending.1⟩

theorem textField_of_get {event : Event} {key : String} {s : Str}
    (h : event.get key = some (.str s)) : Timeline.textField py event key = s := by
  rw [Timeline.textField, h]

theorem textField_written {call : AuditedCall} {e : Event} (he : e ∈ call.written) :
    Timeline.textField py e "invocation_id" = call.audit.invocationId := by
  obtain ⟨stamp, hspeaks⟩ := speaks_of_written he
  exact textField_of_get hspeaks.invocationId

/-- **The log has of each call what it has written**, and nothing else. -/
structure Faithful (py : Python) (invocationId : Nat → Str) (s : Trail) : Prop where
  owner : ∀ e ∈ s.log, ∃ i call, s.calls i = some call ∧ e ∈ call.written
  id : ∀ i call, s.calls i = some call → call.audit.invocationId = invocationId i
  written : ∀ i call, s.calls i = some call →
    Timeline.eventsOf py s.log (invocationId i) = call.written

theorem eventsOf_append (events events' : List Event) (id : Str) :
    Timeline.eventsOf py (events ++ events') id =
      Timeline.eventsOf py events id ++ Timeline.eventsOf py events' id :=
  List.filter_append ..

theorem eventsOf_self {events : List Event} {id : Str}
    (h : ∀ e ∈ events, Timeline.textField py e "invocation_id" = id) :
    Timeline.eventsOf py events id = events :=
  List.filter_eq_self.mpr fun e he => decide_eq_true (h e he)

theorem eventsOf_other {events : List Event} {id : Str}
    (h : ∀ e ∈ events, Timeline.textField py e "invocation_id" ≠ id) :
    Timeline.eventsOf py events id = [] :=
  List.filter_eq_nil_iff.mpr fun e he heq => h e he (of_decide_eq_true heq)

theorem calls_put (s : Trail) (i : Nat) (call : AuditedCall) (events : List Event) (j : Nat) :
    (s.put i call events).calls j = if j = i then some call else s.calls j :=
  Function.update_apply ..

/-- A call writes some more. -/
theorem Faithful.put (hids : Function.Injective invocationId) {s : Trail}
    (h : Faithful py invocationId s) {i : Nat} {call : AuditedCall} {more : List Event}
    (hid : call.audit.invocationId = invocationId i)
    (hold : call.written = Timeline.eventsOf py s.log (invocationId i) ++ more)
    (hkept : ∀ running, s.calls i = some running → ∀ e ∈ running.written, e ∈ call.written) :
    Faithful py invocationId (s.put i call more) where
  owner e he := by
    rcases List.mem_append.mp he with he | he
    · obtain ⟨j, other, hj, hmem⟩ := h.owner e he
      by_cases hji : j = i
      · rw [hji] at hj
        exact ⟨i, call, by rw [calls_put, if_pos rfl], hkept other hj e hmem⟩
      · exact ⟨j, other, by rw [calls_put, if_neg hji, hj], hmem⟩
    · exact ⟨i, call, by rw [calls_put, if_pos rfl], by rw [hold]; exact List.mem_append_right _ he⟩
  id j other hj := by
    rw [calls_put] at hj
    split at hj
    · next hji =>
      obtain rfl := Option.some.inj hj
      rw [hji, hid]
    · exact h.id j other hj
  written j other hj := by
    have hmore : ∀ e ∈ more, Timeline.textField py e "invocation_id" = invocationId i := by
      intro e he
      rw [← hid]
      exact textField_written (by rw [hold]; exact List.mem_append_right _ he)
    show Timeline.eventsOf py (s.log ++ more) (invocationId j) = other.written
    rw [eventsOf_append]
    rw [calls_put] at hj
    split at hj
    · next hji =>
      obtain rfl := Option.some.inj hj
      rw [hji, eventsOf_self hmore, hold]
    · next hji =>
      rw [h.written j other hj, eventsOf_other, List.append_nil]
      intro e he heq
      exact hji (hids (heq.symm.trans (hmore e he)))

theorem Faithful.step (hids : Function.Injective invocationId) {s s' : Trail}
    (h : Faithful py invocationId s) {a : TrailAction} (hs : Audit.step invocationId s a = some s') :
    Faithful py invocationId s' := by
  cases a with
  | start i context toolName requiredPermissions resourceRefs successResultCode stamp =>
    simp only [Audit.step] at hs
    split at hs
    · cases hs
    · next hnone =>
      obtain rfl := Option.some.inj hs
      have hnew : Timeline.eventsOf py s.log (invocationId i) = [] := by
        refine eventsOf_other fun e he heq => ?_
        obtain ⟨j, other, hj, hmem⟩ := h.owner e he
        rw [textField_written hmem, h.id j other hj] at heq
        rw [← hids heq, hj] at hnone
        cases hnone
      refine h.put hids rfl ?_ fun running hrunning => ?_
      · rw [hnew]
        exact (List.append_nil _).trans (keep_eq (fun stamp : Stamp => stamp)
          (AgentToolInvocationAudit.started ⟨context, toolName, resourceRefs, invocationId i⟩) stamp)
      · rw [hnone] at hrunning
        cases hrunning
  | finish i operation stamp =>
    simp only [Audit.step] at hs
    split at hs
    · cases hs
    · next running hrunning =>
      split at hs
      · cases hs
      · next hnot =>
        obtain rfl := Option.some.inj hs
        have hended : running.ended = none := Option.not_isSome_iff_eq_none.mp hnot
        have hwritten : running.written =
            (running.loggedStart.map running.audit.started).toList := by
          rw [AuditedCall.written, AuditedCall.loggedEnd, hended]
          exact List.append_nil _
        refine h.put hids (h.id i running hrunning) ?_ fun other hother e he => ?_
        · rw [h.written i running hrunning, hwritten]
          exact congrArg _ (keep_eq (fun ending : CallResult × Stamp => ending.2)
            (fun ending => endEvent running.audit ending.1 ending.2)
            (running.result operation, stamp))
        · rw [hrunning] at hother
          obtain rfl := Option.some.inj hother
          rw [hwritten] at he
          exact List.mem_append_left _ he

theorem faithful_of_reachable (hids : Function.Injective invocationId) {s : Trail}
    (hs : (machine invocationId).Reachable s) : Faithful py invocationId s := by
  refine Machine.ReachableVia.invariant (P := Faithful py invocationId) (fun s hinit => ?_)
    (fun _ _ _ _ h _ hstep => h.step hids hstep) hs
  obtain ⟨hlog, hcalls⟩ := hinit
  refine ⟨fun e he => ?_, fun i call hcall => ?_, fun i call hcall => ?_⟩
  · rw [hlog] at he
    cases he
  · rw [hcalls] at hcall
    cases hcall
  · rw [hcalls] at hcall
    cases hcall

end Runs

end Audit

end DocFlow.Operations
