import DocFlow.Agents.PlannerWorkflow
import DocFlow.Workflow.PlannerRun

/-!
# The planner's graph in the workflow

`runExistingPlanGraph` is `_run_existing_plan` with the graph of the planner as its runner.  To the
database such a run is a list of tool calls and an ending (`Executed`), and a question comes only after
a clarification that was accepted; so every plan is settled whatever the agents answer, unless the gap
handler gives a blank reason for a retry (`graph_run_settles`).
-/

namespace DocFlow.Workflow

open Planning TaskRuntime Agents

/-- `_run_existing_plan`, after the runner. -/
def finishRun (draw : RetryDraw) (context : AgentToolContext) :
    Except PlannerError PlannerResult → Db → Except Failure RunPlanningResult × Db
  | .error (.retryRequested reason), db =>
    finishFromDatabase draw context.planId context.turnId reason db
  | .error _, db => finishFromDatabase draw context.planId context.turnId systemExceptionReason db
  | .ok result, db =>
    match writeQuestion context.planId result.question db with
    | .error failure => (.error failure, db)
    | .ok db => finishFromDatabase draw context.planId context.turnId notCalledReason db

/-- `_run_existing_plan`; the runner is the graph. -/
def runExistingPlanGraph (agents : PlannerAgents) (recursionLimit : Nat) (input : PlannerContextInput)
    (draw : RetryDraw) (context : AgentToolContext) (db : Db) :
    Except Failure RunPlanningResult × Db :=
  let (x, w) := (runPlannerGraph agents context recursionLimit input).exec ⟨db, []⟩
  finishRun draw context x w.db

/-! ## Lists of calls -/

section Calls

variable {context : AgentToolContext}

theorem runTools_append (calls calls' : List ToolCall) (db : Db) :
    runTools context (calls ++ calls') db = runTools context calls' (runTools context calls db) := by
  induction calls generalizing db with
  | nil => rfl
  | cons call calls ih => exact ih _

theorem clarificationAccepted_append (calls calls' : List ToolCall) (db : Db) :
    clarificationAccepted context (calls ++ calls') db = (clarificationAccepted context calls db ||
      clarificationAccepted context calls' (runTools context calls db)) := by
  induction calls generalizing db with
  | nil => rfl
  | cons call calls ih =>
    rw [List.cons_append, clarificationAccepted, ih, clarificationAccepted, runTools, Bool.or_assoc]

/-- The call that a handoff to the clarification agent makes. -/
def handoffCall (newClarificationId : ClarificationId) (data : ClarificationHandoffInput) : ToolCall :=
  .markPlanNeedsClarification newClarificationId data.clarificationKind data.reason
    data.requiredInformation data.knownResourceRefs

theorem runTools_accepted {calls : List ToolCall} {call : ToolCall} {db db' : Db}
    (h : call.execute context (runTools context calls db) = .ok db') :
    runTools context (calls ++ [call]) db = db' := by
  rw [runTools_append]
  show call.attempt context _ = db'
  rw [attempt_eq, h]
  rfl

theorem clarificationAccepted_accepted {calls : List ToolCall} {call : ToolCall} {db db' : Db}
    (hcall : call.isClarification = true)
    (h : call.execute context (runTools context calls db) = .ok db') :
    clarificationAccepted context (calls ++ [call]) db = true := by
  rw [clarificationAccepted_append, clarificationAccepted, hcall, h]
  exact Bool.or_true _

end Calls

/-! ## What the graph has called -/

/-- A run has left what a list of tool calls leaves. -/
structure Executed (context : AgentToolContext) (db : Db) (x : Except PlannerError PlannerResult)
    (w : PlannerWorld) (calls : List ToolCall) : Prop where
  left : runTools context calls db = w.db
  questioned : ∀ result question, x = .ok result → result.question = some question →
    clarificationAccepted context calls db = true
  retried : ∀ reason, x = .error (.retryRequested reason) → calls = []

section Stages

open Run

variable {agents : PlannerAgents} {context : AgentToolContext} {w : PlannerWorld} {db : Db}

def IsExecuted (context : AgentToolContext) (db : Db) (x : Except PlannerError PlannerResult)
    (w : PlannerWorld) : Prop :=
  ∃ calls, Executed context db x w calls

theorem executed_of_error (calls : List ToolCall) {e : PlannerError}
    (hretried : ∀ reason, e = .retryRequested reason → calls = [])
    (hleft : runTools context calls db = w.db) : IsExecuted context db (.error e) w := by
  refine ⟨calls, hleft, fun result question heq => ?_, fun reason heq => ?_⟩
  · cases heq
  · exact hretried reason (Except.error.inj heq)

theorem executed_of_fault (calls : List ToolCall) {e : PlannerError} (he : IsFault e)
    (hleft : runTools context calls db = w.db) : IsExecuted context db (.error e) w :=
  executed_of_error calls (fun reason heq => (he.notRetry reason heq).elim) hleft

theorem executed_of_quiet {result : PlannerResult} {calls : List ToolCall}
    (hquestion : result.question = none) (hleft : runTools context calls db = w.db) :
    IsExecuted context db (.ok result) w := by
  refine ⟨calls, hleft, ?_, fun reason heq => ?_⟩
  · rintro _ question ⟨⟩ hsome
    rw [hquestion] at hsome
    cases hsome
  · cases heq

theorem executed_of_question {result : PlannerResult} {calls : List ToolCall}
    (hleft : runTools context calls db = w.db)
    (hasked : clarificationAccepted context calls db = true) :
    IsExecuted context db (.ok result) w := by
  refine ⟨calls, hleft, fun _ _ _ _ => hasked, fun reason heq => ?_⟩
  cases heq

theorem runCommit_executed (history : List HistoryItem) : (runCommit agents context history).Meets w
    (fun r => IsExecuted context w.db (.ok r)) (fun e => IsExecuted context w.db (.error e)) := by
  refine meets_bind (meets_note rfl : (note (.commit history)).Meets w
    (fun _ w' => w' = w.after (.commit history)) _) ?_
  rintro - _ rfl
  generalize hrun : agents.commit history = run
  have htools : (transact fun db => .ok (runTools context run.calls db)).Meets
      (w.after (.commit history)) (fun _ w' => runTools context run.calls w.db = w'.db)
      (fun e => IsExecuted context w.db (.error e)) := rfl
  refine meets_bind htools ?_
  intro _ w' hw'
  cases run.ending with
  | returned => exact executed_of_quiet rfl hw'
  | raised => exact executed_of_fault _ isFault_agent hw'
  | handoff newClarificationId data question =>
    have hmark : (markGapClarification context newClarificationId data).Meets w'
        (fun _ w'' => (handoffCall newClarificationId data).execute context
          (runTools context run.calls w.db) = .ok w''.db)
        (fun e => IsExecuted context w.db (.error e)) := by
      rw [hw']
      exact meets_transact (fun w'' h _ => h) fun e he => executed_of_fault _ he hw'
    refine meets_bind hmark ?_
    intro _ w'' hcall
    have hleft := runTools_accepted hcall
    cases question with
    | none => exact executed_of_fault _ isFault_agent hleft
    | some question =>
      exact executed_of_question hleft (clarificationAccepted_accepted rfl hcall)

theorem resolve_executed {decision : GapDecision} {output : GapOutput} {history : List HistoryItem} :
    (resolveGapDecision agents context decision output history).Meets w
      (fun r => IsExecuted context w.db (.ok r)) (fun e => IsExecuted context w.db (.error e)) := by
  rw [resolveGapDecision]
  cases decision.action with
  | commit => exact runCommit_executed _
  | retry => exact executed_of_error [] (fun _ _ => rfl) rfl
  | systemFailure => exact executed_of_error [] (fun _ _ => rfl) rfl
  | collectMore => exact executed_of_error [] (fun _ _ => rfl) rfl
  | unsupported =>
    have hmark : (transact (markPlanUnsupported context.planId decision.reason)).Meets w
        (fun _ w' => (ToolCall.markPlanUnsupported decision.reason).execute context
          (runTools context [] w.db) = .ok w'.db)
        (fun e => IsExecuted context w.db (.error e)) :=
      meets_transact (fun w' h _ => h) fun e he => executed_of_fault [] he rfl
    refine meets_bind hmark ?_
    intro _ w' hcall
    exact meets_pure (executed_of_quiet rfl (runTools_accepted hcall))
  | clarification =>
    refine meets_bind (meets_orElse (fun data _ => rfl) fun _ => ?_ :
      (orElse _ _ : PlannerM ClarificationHandoffInput).Meets w (fun _ w' => w = w') _) ?_
    · exact executed_of_error [] (fun _ _ => rfl) rfl
    rintro data _ rfl
    have hmark : (markGapClarification context agents.newClarificationId data).Meets w
        (fun _ w' => (handoffCall agents.newClarificationId data).execute context
          (runTools context [] w.db) = .ok w'.db)
        (fun e => IsExecuted context w.db (.error e)) :=
      meets_transact (fun w' h _ => h) fun e he => executed_of_fault [] he rfl
    refine meets_bind hmark ?_
    intro _ w' hcall
    have hleft := runTools_accepted hcall
    refine meets_bind (meets_note rfl : (note (.clarification data)).Meets w'
      (fun _ w'' => w'' = w'.after (.clarification data)) _) ?_
    rintro - _ rfl
    cases agents.clarification data with
    | none => exact executed_of_fault _ isFault_agent hleft
    | some question =>
      exact executed_of_question hleft (clarificationAccepted_accepted rfl hcall)

theorem plan_executed (input : PlannerContextInput) : (plan agents context input).Meets ⟨db, []⟩
    (fun r => IsExecuted context db (.ok r)) (fun e => IsExecuted context db (.error e)) := by
  -- up to the last call, the run has only read
  have hcollect (input : EvidenceInput) {w : PlannerWorld} (hw : w.db = db) :
      (collect agents input).Meets w (fun _ w' => w'.db = db)
        (fun e => IsExecuted context db (.error e)) := by
    refine (collect_meets input).mono (fun _ w' h => ?_) fun e w' h => ?_
    · rw [h.1]
      exact hw
    · rw [h.1]
      exact executed_of_fault [] h.2 hw.symm
  have hjudge (rounds : List EvidenceRound) (hrounds : 1 ≤ rounds.length ∧ rounds.length ≤ 2)
      (collectMoreAllowed : Bool) {w : PlannerWorld} (hw : w.db = db) :
      (runGapHandler agents input rounds collectMoreAllowed).Meets w (fun _ w' => w'.db = db)
        (fun e => IsExecuted context db (.error e)) := by
    obtain ⟨handlerInput, -, -, h⟩ := runGapHandler_meets agents w input rounds hrounds collectMoreAllowed
    refine h.mono (fun _ w' h => ?_) fun e w' h => ?_
    · rw [h.1]
      exact hw
    · rw [h.1]
      exact executed_of_fault [] h.2 hw.symm
  have hcommit (history : List HistoryItem) {w : PlannerWorld} (hw : w.db = db) :
      (runCommit agents context history).Meets w (fun r => IsExecuted context db (.ok r))
        (fun e => IsExecuted context db (.error e)) := hw ▸ runCommit_executed history
  have hresolve (decision : GapDecision) (output : GapOutput) (history : List HistoryItem)
      {w : PlannerWorld} (hw : w.db = db) :
      (resolveGapDecision agents context decision output history).Meets w
        (fun r => IsExecuted context db (.ok r)) (fun e => IsExecuted context db (.error e)) :=
    hw ▸ resolve_executed
  refine meets_bind (hcollect (.planner input) rfl) ?_
  rintro ⟨first, results⟩ w hw
  show (if evidenceIsReadyForCommit results = true then _ else _ : PlannerM PlannerResult).Meets _ _ _
  by_cases hready : evidenceIsReadyForCommit results = true
  · rw [if_pos hready]
    exact hcommit first.inputList hw
  rw [if_neg hready]
  refine meets_bind (hjudge [firstRound results] ⟨le_rfl, Nat.le_succ 1⟩ true hw) ?_
  rintro ⟨output, decision⟩ w hw
  show (if decision.action = .collectMore then _ else _ : PlannerM PlannerResult).Meets _ _ _
  by_cases hmore : decision.action = .collectMore
  · rw [if_pos hmore]
    refine meets_bind (hcollect _ hw) ?_
    rintro ⟨second, results'⟩ w hw
    refine meets_bind (hjudge [firstRound results, secondRound results'] ⟨Nat.le_succ 1, le_rfl⟩ false
      hw) ?_
    rintro ⟨output', decision'⟩ w hw
    exact hresolve decision' output' second.inputList hw
  · rw [if_neg hmore]
    exact hresolve decision output first.inputList hw

end Stages

/-! ## Settling -/

variable {config : RuntimeConfig} {s : WorkflowState}

section Finish

variable {p p₁ : Plan} {db : Db} {accepted : Bool} {draw : RetryDraw} {reason : BoundedText}

theorem finish_left (hs : (workflows config).Reachable s)
    (hleft : ToolsLeft p p₁ db s.runtime.db accepted) (hblank : PyString.isBlank reason.text = false)
    (hfresh : ∀ ev ∈ db.outbox, ev.eventId ≠ draw.newEventId) :
    Settled p (finishFromDatabase draw p.planId p.turnId reason s.runtime.db) := by
  rcases hleft.status with ⟨-, hst | hst⟩ | ⟨-, hst⟩
  · exact finish_retry hs hleft (.inl hst) hblank hfresh
  · exact finish_settled hs hleft hst
  · exact finish_retry hs hleft (.inr hst) hblank hfresh

theorem finishRun_of_error {context : AgentToolContext} {e : PlannerError}
    (he : ∀ reason, e ≠ .retryRequested reason) : finishRun draw context (.error e) db =
      finishFromDatabase draw context.planId context.turnId systemExceptionReason db := by
  cases e with
  | retryRequested reason => exact (he reason rfl).elim
  | _ => rfl

/-- A question is written when it may be. -/
theorem finish_returned (hs : (workflows config).Reachable s)
    (hleft : ToolsLeft p p₁ db s.runtime.db accepted)
    (hfresh : ∀ ev ∈ db.outbox, ev.eventId ≠ draw.newEventId) (conversationId : ConversationId)
    (result : PlannerResult) (hquestion : ∀ question, result.question = some question → accepted = true) :
    Settled p (finishRun draw ⟨p.planId, p.turnId, conversationId⟩ (.ok result) s.runtime.db) := by
  have hfinish : Settled p (finishFromDatabase draw p.planId p.turnId notCalledReason s.runtime.db) :=
    finish_left hs hleft (by decide) hfresh
  cases hresult : result.question with
  | none =>
    simp only [finishRun, writeQuestion, hresult]
    exact hfinish
  | some question =>
    by_cases hblank : PyString.isBlank question.text = true
    · simp only [finishRun, writeQuestion, hresult, hblank, if_true]
      exact hfinish
    · have hst : p₁.status = .needsClarification := by
        rcases hleft.status with ⟨hnot, -⟩ | ⟨-, hst⟩
        · rw [hquestion question hresult] at hnot
          cases hnot
        · exact hst
      obtain ⟨db', hset, hsettled⟩ := finish_questioned draw notCalledReason hs hleft hst question
      simp only [finishRun, writeQuestion, hresult, if_neg hblank, hset]
      exact hsettled

/-- A blank reason is refused. -/
theorem not_settled_of_blank (hs : (workflows config).Reachable s) (hp : p ∈ s.runtime.db.plans)
    (hst : p.status = .planning) (hblank : PyString.isBlank reason.text = true) :
    ¬ Settled p (finishFromDatabase draw p.planId p.turnId reason s.runtime.db) := by
  rintro ⟨p', -, -, hok, -⟩
  have hretry : (planResult p s.runtime.db).needsRetry = true := needsRetry_iff.mpr (.inl hst)
  obtain ⟨failure, hmark⟩ := markPlanRetryPending_blank draw.newEventId draw.resolvedAt
    draw.availableAt p.planId s.runtime.db hblank
  rw [finishFromDatabase_of_retry (readResult_reachable hs hp) hretry, hmark] at hok
  cases hok

end Finish

/-- **Every run of the planner's graph settles its plan**, whatever its agents answer, unless the gap
handler asks for a retry and gives a blank reason. -/
theorem graph_run_settles (hs : (workflows config).Reachable s) {p : Plan}
    (hp : p ∈ s.runtime.db.plans) (hst : p.status = .planning) (conversationId : ConversationId)
    (agents : PlannerAgents) (fuel : Nat) (input : PlannerContextInput) (draw : RetryDraw)
    (hfresh : ∀ ev ∈ s.runtime.db.outbox, ev.eventId ≠ draw.newEventId) :
    Settled p (runExistingPlanGraph agents (fuel + 5) input draw ⟨p.planId, p.turnId, conversationId⟩
        s.runtime.db) ↔
      ∀ reason, ((runPlannerGraph agents ⟨p.planId, p.turnId, conversationId⟩ (fuel + 5) input).exec
        ⟨s.runtime.db, []⟩).1 = .error (.retryRequested reason) →
          PyString.isBlank reason.text = false := by
  obtain ⟨x, w, hexec, calls, hcalls⟩ : ∃ x w,
      (runPlannerGraph agents ⟨p.planId, p.turnId, conversationId⟩ (fuel + 5) input).exec
        ⟨s.runtime.db, []⟩ = (x, w) ∧
      IsExecuted ⟨p.planId, p.turnId, conversationId⟩ s.runtime.db x w := by
    rw [run_eq_plan]
    exact ⟨_, _, rfl, Run.meets_iff.mp (plan_executed input)⟩
  obtain ⟨p₁, hleft⟩ := tools_left ⟨p.planId, p.turnId, conversationId⟩ hs hp hst rfl calls
  obtain ⟨s₁, hs₁, hdb₁⟩ := runTools_reachable ⟨p.planId, p.turnId, conversationId⟩ hs calls
  rw [← hdb₁] at hleft
  rw [runExistingPlanGraph, hexec]
  show Settled p (finishRun draw ⟨p.planId, p.turnId, conversationId⟩ x w.db) ↔ ∀ reason,
    x = .error (.retryRequested reason) → PyString.isBlank reason.text = false
  rw [← hcalls.left, ← hdb₁]
  cases x with
  | ok result =>
    refine ⟨fun _ _ => nofun, fun _ => ?_⟩
    exact finish_returned hs₁ hleft hfresh conversationId result (hcalls.questioned result · rfl)
  | error e =>
    by_cases hretry : ∃ reason, e = .retryRequested reason
    · obtain ⟨reason, rfl⟩ := hretry
      show Settled p (finishFromDatabase draw p.planId p.turnId reason s₁.runtime.db) ↔ _
      constructor
      · rintro hsettled _ ⟨⟩
        by_contra hblank
        have hp₁ : p ∈ s₁.runtime.db.plans := by
          rw [hdb₁, hcalls.retried reason rfl]
          exact hp
        exact not_settled_of_blank hs₁ hp₁ hst (eq_true_of_ne_false hblank) hsettled
      · exact fun hnot => finish_left hs₁ hleft (hnot reason rfl) hfresh
    · refine ⟨fun _ reason heq => (hretry ⟨reason, Except.error.inj heq⟩).elim, fun _ => ?_⟩
      rw [finishRun_of_error fun reason heq => hretry ⟨reason, heq⟩]
      exact finish_left hs₁ hleft (by decide) hfresh

/-- Nothing is found, and the gap handler asks which file is meant. -/
def askingAgents : PlannerAgents where
  py := samplePython
  evidence _ := some ⟨[], []⟩
  gapHandler _ := some (.model ⟨⟨.clarification, ⟨"two contracts match", by decide⟩, none, some .resource,
    ["contract"], []⟩, by decide, by decide, rfl⟩)
  commit _ := ⟨[], .returned, nofun⟩
  clarification _ := some ⟨"Which contract?", by decide⟩
  newClarificationId := 1

theorem graph_run_settles_asked :
    ∃ p ∈ planningStarted.runtime.db.plans, p.status = .planning ∧
      Settled p (runExistingPlanGraph askingAgents 5 ⟨"index it", [], by decide⟩ ⟨1, 0, 0⟩
        ⟨p.planId, p.turnId, 1⟩ planningStarted.runtime.db) := by
  refine ⟨_, .head _, rfl, ?_⟩
  refine (graph_run_settles planningStarted_reachable (.head _) rfl 1 askingAgents 0
    ⟨"index it", [], by decide⟩ ⟨1, 0, 0⟩ nofun).mpr ?_
  rintro reason ⟨⟩

end DocFlow.Workflow
