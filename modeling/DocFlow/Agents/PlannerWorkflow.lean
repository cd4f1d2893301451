import DocFlow.Agents.GapHandler
import DocFlow.Lib.StateGraph
import DocFlow.Planning.RunPlanning

/-!
# The graph of a planner run

`PlannerAgentRunner` collects evidence, has the gap handler judge it, may collect once more, and then
commits a plan or resolves the gap.  The nodes and edges are those that `_build_workflow` adds; the
agents answer anything (`PlannerAgents`), and the calls of them are noted in the world beside the
database.  The scope of a run is complete, as `_build_agent_context` makes it: the exception
of `_planning_scope` for one without services, plan or conversation is left out.

* `run_eq_plan`: the graph runs to its end within five nodes, and does what `plan` says in one piece.
* `planner_run_disciplined`: what a run calls, and what must have been found for it to end as it does.
-/

namespace DocFlow.Agents

open Planning

/-! ## The agents -/

/-- An item of an input list: one of the SDK's, or a message that the workflow appends. -/
inductive HistoryItem
  | item (raw : Json)
  /-- the content is the label and the payload, as JSON -/
  | internal (label : String) (payload : Json)

/-- `_append_internal_message`. -/
def appendInternalMessage (history : List HistoryItem) (label : String) (payload : Json) :
    List HistoryItem :=
  history ++ [.internal label payload]

/-- What the evidence agent is given. -/
inductive EvidenceInput
  | planner (input : PlannerContextInput)
  | history (items : List HistoryItem)

structure EvidenceResult where
  newItems : List RunItem
  inputList : List HistoryItem

/-- How a run of the commit agent ends. -/
inductive CommitEnding
  /-- with an output that has no question -/
  | returned
  | raised
  /-- with `clarification_handoff`; the clarification agent may raise -/
  | handoff (newClarificationId : ClarificationId) (data : ClarificationHandoffInput)
      (question : Option BoundedText)

structure CommitRun where
  calls : List ToolCall
  ending : CommitEnding
  functionTools : ∀ call ∈ calls, call.isClarification = false

/-- What the agents answer; none is an exception. -/
structure PlannerAgents where
  py : Python
  evidence : EvidenceInput → Option EvidenceResult
  gapHandler : GapHandlerInput → Option GapOutput
  commit : List HistoryItem → CommitRun
  clarification : ClarificationHandoffInput → Option BoundedText
  newClarificationId : ClarificationId

inductive AgentCall
  | evidence (input : EvidenceInput)
  | gapHandler (input : GapHandlerInput)
  | commit (history : List HistoryItem)
  | clarification (input : ClarificationHandoffInput)

structure PlannerWorld where
  db : Db
  called : List AgentCall

inductive PlannerError
  /-- an exception of `Runner.run` -/
  | agent
  | collector (e : CollectorError)
  /-- a `ValidationError` of this model -/
  | validation (model : String)
  | gapDecision (message : String)
  | keyError (key : String)
  | indexError
  /-- `PlanningRetryRequested` -/
  | retryRequested (reason : BoundedText)
  | runtime (message : String)
  /-- an exception of a use case -/
  | failure (f : Failure)
  /-- `GraphRecursionError` -/
  | recursionLimit
deriving DecidableEq

abbrev PlannerM := Run PlannerWorld PlannerError

def note (call : AgentCall) : PlannerM Unit := fun w =>
  (.ok (), { w with called := w.called ++ [call] })

/-- A use case. -/
def transact (f : Db → Except Failure Db) : PlannerM Unit := fun w =>
  match f w.db with
  | .ok db => (.ok (), { w with db := db })
  | .error failure => (.error (.failure failure), w)

def ofExcept {ε α : Type} (wrap : ε → PlannerError) : Except ε α → PlannerM α
  | .ok a => pure a
  | .error e => Run.raise (wrap e)

section Workflow

variable (agents : PlannerAgents) (context : AgentToolContext)

def runEvidence (input : EvidenceInput) : PlannerM EvidenceResult := do
  note (.evidence input)
  Run.orElse (agents.evidence input) .agent

/-- An evidence run, and the results of its collectors. -/
def collect (input : EvidenceInput) : PlannerM (EvidenceResult × List CollectorResult) := do
  let result ← runEvidence agents input
  let collectorResults ← ofExcept .collector (extractCollectorResults agents.py result.newItems)
  return (result, collectorResults)

/-- `_run_gap_handler`. -/
def runGapHandler (input : PlannerContextInput) (evidenceRounds : List EvidenceRound)
    (collectMoreAllowed : Bool) : PlannerM (GapOutput × GapDecision) := do
  let handlerInput ← Run.orElse (GapHandlerInput.validate input.currentUserInput input.contextChains
    evidenceRounds collectMoreAllowed) (.validation "GapHandlerInput")
  note (.gapHandler handlerInput)
  let output ← Run.orElse (agents.gapHandler handlerInput) .agent
  let decision ← Run.orElse (parseGapDecision output) (.validation "GapDecision")
  ofExcept .gapDecision (validateGapDecision decision handlerInput)
  return (output, decision)

/-- A final result; only the question of its output is read. -/
inductive PlannerResult
  | gap (output : GapOutput)
  | agent (question : Option BoundedText)

def PlannerResult.question : PlannerResult → Option BoundedText
  | gap _ => none
  | agent question => question

/-- `_mark_gap_clarification`. -/
def markGapClarification (newClarificationId : ClarificationId) (data : ClarificationHandoffInput) :
    PlannerM Unit :=
  transact (markPlanNeedsClarification newClarificationId
    ⟨context.planId, context.conversationId, data.clarificationKind, data.reason,
      data.requiredInformation, data.knownResourceRefs⟩)

/-- `_run_commit`: the tools are called one after the other, and a handoff is the last call. -/
def runCommit (history : List HistoryItem) : PlannerM PlannerResult := do
  note (.commit history)
  let run := agents.commit history
  transact fun db => .ok (runTools context run.calls db)
  match run.ending with
  | .returned => return .agent none
  | .raised => Run.raise .agent
  | .handoff newClarificationId data question => do
    markGapClarification context newClarificationId data
    let question ← Run.orElse question .agent
    return .agent (some question)

def unhandledMessage : String := "COLLECT_MORE 未在 Evidence 补查边界内处理"

/-- `_resolve_gap_decision`. -/
def resolveGapDecision (decision : GapDecision) (gapResult : GapOutput) (history : List HistoryItem) :
    PlannerM PlannerResult :=
  match decision.action with
  | .commit => runCommit agents context
      (appendInternalMessage history "Gap Decision" decision.modelDump)
  | .retry => Run.raise (.retryRequested decision.reason)
  | .systemFailure =>
    Run.raise (.runtime ("Planning 前置取证发生系统故障: " ++ decision.reason.text))
  | .unsupported => do
    transact (markPlanUnsupported context.planId decision.reason)
    return .gap gapResult
  | .clarification => do
    let clarification ← Run.orElse (ClarificationHandoffInput.validate decision.clarificationKind
      decision.reason decision.requiredInformation decision.knownResourceRefs)
      (.validation "ClarificationHandoffInput")
    markGapClarification context agents.newClarificationId clarification
    note (.clarification clarification)
    let question ← Run.orElse (agents.clarification clarification) .agent
    return .agent (some question)
  | .collectMore => Run.raise (.gapDecision unhandledMessage)

/-! ## The graph -/

structure PlannerWorkflowState where
  plannerInput : PlannerContextInput
  evidenceRounds : Option (List EvidenceRound)
  evidenceHistory : Option (List HistoryItem)
  gapResult : Option GapOutput
  gapDecision : Option GapDecision
  finalResult : Option PlannerResult

/-- `state[key]`. -/
def field {α : Type} (key : String) (x : Option α) : PlannerM α := Run.orElse x (.keyError key)

inductive PlannerNode
  | collectInitialEvidence | assessInitialGap | collectFollowUpEvidence | assessFinalGap
  | commitPlan | resolveGap
deriving DecidableEq, Repr

def isBlankStr (s : Str) : Bool := s.codes.all fun c => PyString.isSpace (Char.ofNat c)

/-- `_evidence_is_ready_for_commit`. -/
def evidenceIsReadyForCommit (results : List CollectorResult) : Bool :=
  let evidenceItems := results.flatMap CollectorResult.evidenceItems
  !evidenceItems.isEmpty && evidenceItems.all (fun item => item.outcome = .succeeded) &&
    !(results.any fun result => result.gaps.any fun gap => !isBlankStr gap)

def firstRound (results : List CollectorResult) : EvidenceRound := ⟨1, results, .inl rfl⟩

def secondRound (results : List CollectorResult) : EvidenceRound := ⟨2, results, .inr rfl⟩

/-- The payload of the follow-up message. -/
def followUpPayload (decision : GapDecision) : Json :=
  .obj [(strOf "instruction", (decision.followUp.map fun t => Json.str (strOf t.text)).getD .null),
    (strOf "constraint", .str (strOf "只补充该未知事实；不得重复已经成功完成且与该未知无关的查询。"))]

/-- The nodes. -/
def plannerNode (s : PlannerWorkflowState) : PlannerNode → PlannerM PlannerWorkflowState
  | .collectInitialEvidence => do
    let (first, results) ← collect agents (.planner s.plannerInput)
    return { s with evidenceRounds := some [firstRound results], evidenceHistory := some first.inputList }
  | .assessInitialGap => do
    let rounds ← field "evidence_rounds" s.evidenceRounds
    let (output, decision) ← runGapHandler agents s.plannerInput rounds true
    return { s with gapResult := some output, gapDecision := some decision }
  | .collectFollowUpEvidence => do
    let decision ← field "gap_decision" s.gapDecision
    let history ← field "evidence_history" s.evidenceHistory
    let (second, results) ← collect agents
      (.history (appendInternalMessage history "Evidence Follow-up" (followUpPayload decision)))
    let rounds ← field "evidence_rounds" s.evidenceRounds
    return { s with
      evidenceRounds := some (rounds ++ [secondRound results])
      evidenceHistory := some second.inputList }
  | .assessFinalGap => do
    let rounds ← field "evidence_rounds" s.evidenceRounds
    let (output, decision) ← runGapHandler agents s.plannerInput rounds false
    return { s with gapResult := some output, gapDecision := some decision }
  | .commitPlan => do
    let history ← field "evidence_history" s.evidenceHistory
    let result ← runCommit agents context history
    return { s with finalResult := some result }
  | .resolveGap => do
    let decision ← field "gap_decision" s.gapDecision
    let gapResult ← field "gap_result" s.gapResult
    let history ← field "evidence_history" s.evidenceHistory
    let result ← resolveGapDecision agents context decision gapResult history
    return { s with finalResult := some result }

/-- The edges, with `_route_initial_evidence` and `_route_initial_gap`. -/
def plannerEdge (s : PlannerWorkflowState) : PlannerNode → PlannerM (Option PlannerNode)
  | .collectInitialEvidence => do
    let rounds ← field "evidence_rounds" s.evidenceRounds
    let first ← Run.orElse rounds.head? .indexError
    return some (if evidenceIsReadyForCommit first.collectorResults then .commitPlan
      else .assessInitialGap)
  | .assessInitialGap => do
    let decision ← field "gap_decision" s.gapDecision
    return some (if decision.action = .collectMore then .collectFollowUpEvidence else .resolveGap)
  | .collectFollowUpEvidence => return some .assessFinalGap
  | .assessFinalGap => return some .resolveGap
  | .commitPlan => return none
  | .resolveGap => return none

/-- `_build_workflow`. -/
def plannerGraph : StateGraph PlannerNode PlannerWorkflowState PlannerM where
  entry := .collectInitialEvidence
  node n s := plannerNode agents context s n
  next n s := plannerEdge s n

/-- `PlannerAgentRunner.run`, under this recursion limit. -/
def runPlannerGraph (recursionLimit : Nat) (input : PlannerContextInput) : PlannerM PlannerResult := do
  let s ← (plannerGraph agents context).run (Run.raise .recursionLimit) recursionLimit
    (plannerGraph agents context).entry ⟨input, none, none, none, none, none⟩
  field "final_result" s.finalResult

/-! ## In one piece -/

/-- A planner run, without its graph. -/
def plan (input : PlannerContextInput) : PlannerM PlannerResult := do
  let (first, results) ← collect agents (.planner input)
  if evidenceIsReadyForCommit results then runCommit agents context first.inputList
  else do
    let (output, decision) ← runGapHandler agents input [firstRound results] true
    if decision.action = .collectMore then do
      let (second, results') ← collect agents (.history
        (appendInternalMessage first.inputList "Evidence Follow-up" (followUpPayload decision)))
      let (output', decision') ← runGapHandler agents input
        [firstRound results, secondRound results'] false
      resolveGapDecision agents context decision' output' second.inputList
    else resolveGapDecision agents context decision output first.inputList

variable {agents context}

/-! ## The graph does what `plan` says -/

section Stages

variable {limit : PlannerM PlannerWorkflowState} {input : PlannerContextInput}

/-- What follows from a node on, up to the final result. -/
def outcome (agents : PlannerAgents) (context : AgentToolContext) (limit : PlannerM PlannerWorkflowState)
    (fuel : Nat) (n : PlannerNode) (s : PlannerWorkflowState) : PlannerM PlannerResult := do
  let s ← (plannerGraph agents context).run limit fuel n s
  field "final_result" s.finalResult

theorem outcome_succ (fuel : Nat) (n : PlannerNode) (s : PlannerWorkflowState) :
    outcome agents context limit (fuel + 1) n s =
      (plannerNode agents context s n >>= fun s => plannerEdge s n >>= fun
        | none => field "final_result" s.finalResult
        | some n => outcome agents context limit fuel n s) := by
  rw [outcome, StateGraph.run_succ, bind_assoc]
  congr 1
  funext s
  rw [bind_assoc]
  congr 1
  funext n'
  cases n' with
  | none => exact pure_bind ..
  | some n' => rfl

theorem outcome_commitPlan (fuel : Nat) {s : PlannerWorkflowState} {history : List HistoryItem}
    (hhistory : s.evidenceHistory = some history) :
    outcome agents context limit (fuel + 1) .commitPlan s = runCommit agents context history := by
  rw [outcome_succ, plannerNode, hhistory]
  simp only [field, Run.orElse, plannerEdge, pure_bind, bind_assoc, bind_pure]

theorem outcome_resolveGap (fuel : Nat) {s : PlannerWorkflowState} {history : List HistoryItem}
    {decision : GapDecision} {output : GapOutput} (hhistory : s.evidenceHistory = some history)
    (hdecision : s.gapDecision = some decision) (houtput : s.gapResult = some output) :
    outcome agents context limit (fuel + 1) .resolveGap s =
      resolveGapDecision agents context decision output history := by
  rw [outcome_succ, plannerNode, hhistory, hdecision, houtput]
  simp only [field, Run.orElse, plannerEdge, pure_bind, bind_assoc, bind_pure]

theorem outcome_assessFinalGap (fuel : Nat) {s : PlannerWorkflowState} {history : List HistoryItem}
    {rounds : List EvidenceRound} (hhistory : s.evidenceHistory = some history)
    (hrounds : s.evidenceRounds = some rounds) :
    outcome agents context limit (fuel + 2) .assessFinalGap s =
      (runGapHandler agents s.plannerInput rounds false >>= fun judged =>
        resolveGapDecision agents context judged.2 judged.1 history) := by
  rw [outcome_succ, plannerNode, hrounds]
  simp only [field, Run.orElse, plannerEdge, pure_bind, bind_assoc]
  congr 1
  funext judged
  exact outcome_resolveGap fuel hhistory rfl rfl

theorem outcome_collectFollowUpEvidence (fuel : Nat) {s : PlannerWorkflowState}
    {history : List HistoryItem} {rounds : List EvidenceRound} {decision : GapDecision}
    (hhistory : s.evidenceHistory = some history) (hrounds : s.evidenceRounds = some rounds)
    (hdecision : s.gapDecision = some decision) :
    outcome agents context limit (fuel + 3) .collectFollowUpEvidence s =
      (collect agents (.history (appendInternalMessage history "Evidence Follow-up"
        (followUpPayload decision))) >>= fun second =>
          runGapHandler agents s.plannerInput (rounds ++ [secondRound second.2]) false >>= fun judged =>
            resolveGapDecision agents context judged.2 judged.1 second.1.inputList) := by
  rw [outcome_succ, plannerNode, hrounds, hdecision, hhistory]
  simp only [field, Run.orElse, plannerEdge, pure_bind, bind_assoc]
  congr 1
  funext second
  exact outcome_assessFinalGap fuel rfl rfl

theorem outcome_assessInitialGap (fuel : Nat) {s : PlannerWorkflowState} {history : List HistoryItem}
    {rounds : List EvidenceRound} (hhistory : s.evidenceHistory = some history)
    (hrounds : s.evidenceRounds = some rounds) :
    outcome agents context limit (fuel + 4) .assessInitialGap s =
      (runGapHandler agents s.plannerInput rounds true >>= fun judged =>
        if judged.2.action = .collectMore then
          collect agents (.history (appendInternalMessage history "Evidence Follow-up"
            (followUpPayload judged.2))) >>= fun second =>
              runGapHandler agents s.plannerInput (rounds ++ [secondRound second.2]) false >>=
                fun judged' => resolveGapDecision agents context judged'.2 judged'.1 second.1.inputList
        else resolveGapDecision agents context judged.2 judged.1 history) := by
  rw [outcome_succ, plannerNode, hrounds]
  simp only [field, Run.orElse, plannerEdge, pure_bind, bind_assoc]
  congr 1
  funext judged
  by_cases hmore : judged.2.action = .collectMore
  · simp only [if_pos hmore]
    exact outcome_collectFollowUpEvidence fuel hhistory rfl rfl
  · simp only [if_neg hmore]
    exact outcome_resolveGap (fuel + 2) hhistory rfl rfl

/-- **The graph does what `plan` says**, within five nodes. -/
theorem run_eq_plan (fuel : Nat) (input : PlannerContextInput) :
    runPlannerGraph agents context (fuel + 5) input = plan agents context input := by
  show outcome agents context _ (fuel + 5) .collectInitialEvidence _ = _
  rw [outcome_succ, plannerNode, plan]
  simp only [field, Run.orElse, plannerEdge, pure_bind, bind_assoc, List.head?_cons]
  congr 1
  funext first
  by_cases hready : evidenceIsReadyForCommit first.2 = true
  · simp only [firstRound, hready, if_true]
    exact outcome_commitPlan (fuel + 3) rfl
  · simp only [firstRound, hready]
    exact outcome_assessInitialGap fuel rfl rfl

end Stages

end Workflow

/-! ## What a run has done -/

def AgentCall.isEvidence : AgentCall → Bool
  | evidence _ => true
  | _ => false

def AgentCall.isGapHandler : AgentCall → Bool
  | gapHandler _ => true
  | _ => false

/-- The call is the last one of its run. -/
def AgentCall.isLast : AgentCall → Bool
  | commit _ | clarification _ => true
  | _ => false

/-- An error of the graph itself, and no answer of an agent. -/
def PlannerError.isInternal : PlannerError → Bool
  | recursionLimit | keyError _ | indexError => true
  | validation model => model ≠ "GapDecision"
  | gapDecision message => message = unhandledMessage
  | _ => false

/-- The evidence agent was called, and has answered with the results of the round. -/
def Collected (agents : PlannerAgents) (called : List AgentCall) (round : EvidenceRound) : Prop :=
  ∃ input result, .evidence input ∈ called ∧ agents.evidence input = some result ∧
    extractCollectorResults agents.py result.newItems = .ok round.collectorResults

/-- What the gap handler was given, and what it has decided. -/
structure Decided (agents : PlannerAgents) (called : List AgentCall) (handlerInput : GapHandlerInput)
    (decision : GapDecision) : Prop where
  collected : ∀ round ∈ handlerInput.evidenceRounds, Collected agents called round
  called : .gapHandler handlerInput ∈ called
  answered : ∃ output, agents.gapHandler handlerInput = some output ∧
    parseGapDecision output = some decision
  valid : validateGapDecision decision handlerInput = .ok ()

/-- The gap handler has asked for more evidence, with one round given. -/
def Followed (agents : PlannerAgents) (called : List AgentCall) : Prop :=
  ∃ handlerInput decision, Decided agents called handlerInput decision ∧
    decision.action = .collectMore ∧ handlerInput.evidenceRounds.length = 1

/-- Evidence that a plan can be committed on at once. -/
def FoundReady (agents : PlannerAgents) (called : List AgentCall) (history : List HistoryItem) : Prop :=
  ∃ input result results, .evidence input ∈ called ∧ agents.evidence input = some result ∧
    extractCollectorResults agents.py result.newItems = .ok results ∧
    evidenceIsReadyForCommit results = true ∧ history = result.inputList

/-- What the commit agent may be given: ready evidence, or the decision to commit. -/
def Committable (agents : PlannerAgents) (called : List AgentCall) (history : List HistoryItem) : Prop :=
  FoundReady agents called history ∨
    ∃ handlerInput decision older, Decided agents called handlerInput decision ∧
      decision.action = .commit ∧ history = older ++ [.internal "Gap Decision" decision.modelDump]

/-- What the clarification agent may be given. -/
def Askable (agents : PlannerAgents) (called : List AgentCall) (data : ClarificationHandoffInput) : Prop :=
  ∃ handlerInput decision, Decided agents called handlerInput decision ∧
    decision.action = .clarification ∧ ClarificationHandoffInput.validate decision.clarificationKind
      decision.reason decision.requiredInformation decision.knownResourceRefs = some data

/-- A run may have changed the database. -/
def MayChange (agents : PlannerAgents) (called : List AgentCall) : Prop :=
  (∃ history, .commit history ∈ called) ∨ ∃ handlerInput decision,
    Decided agents called handlerInput decision ∧
      (decision.action = .unsupported ∨ decision.action = .clarification)

/-- How a run ends, and what must have been found for it. -/
structure Disciplined (agents : PlannerAgents) (db : Db) (x : Except PlannerError PlannerResult)
    (w : PlannerWorld) : Prop where
  evidence_le : w.called.countP AgentCall.isEvidence ≤ 2
  judged_le : w.called.countP AgentCall.isGapHandler ≤ w.called.countP AgentCall.isEvidence
  last_le : w.called.countP AgentCall.isLast ≤ 1
  /-- nothing is called behind a commit or a question -/
  last : ∀ call ∈ w.called.dropLast, call.isLast = false
  followed : w.called.countP AgentCall.isEvidence = 2 → Followed agents w.called
  committed : ∀ history, .commit history ∈ w.called → Committable agents w.called history
  asked : ∀ data, .clarification data ∈ w.called → Askable agents w.called data
  changed : w.db = db ∨ MayChange agents w.called
  external : ∀ e, x = .error e → e.isInternal = false
  retried : ∀ reason, x = .error (.retryRequested reason) →
    ∃ handlerInput decision, Decided agents w.called handlerInput decision ∧
      decision.action = .retry ∧ decision.reason = reason ∧
      hasFailure handlerInput.evidenceRounds true = true
  broken : ∀ message, x = .error (.runtime message) →
    ∃ handlerInput decision, Decided agents w.called handlerInput decision ∧
      decision.action = .systemFailure ∧ hasFailure handlerInput.evidenceRounds false = true

/-! ## The stages -/

/-- An exception of an agent, of what reads its answer, or of a use case. -/
structure IsFault (e : PlannerError) : Prop where
  external : e.isInternal = false
  notRetry : ∀ reason, e ≠ .retryRequested reason
  notRuntime : ∀ message, e ≠ .runtime message

theorem isFault_agent : IsFault .agent := ⟨rfl, nofun, nofun⟩

theorem isFault_failure (f : Failure) : IsFault (.failure f) := ⟨rfl, nofun, nofun⟩

theorem isFault_collector (e : CollectorError) : IsFault (.collector e) := ⟨rfl, nofun, nofun⟩

def PlannerWorld.after (w : PlannerWorld) (call : AgentCall) : PlannerWorld :=
  { w with called := w.called ++ [call] }

section Stages

open Run

variable {agents : PlannerAgents} {context : AgentToolContext} {w : PlannerWorld}

theorem meets_note {call : AgentCall} {ok : Unit → PlannerWorld → Prop}
    {err : PlannerError → PlannerWorld → Prop} (h : ok () (w.after call)) :
    (note call).Meets w ok err :=
  h

theorem meets_agent {α : Type} {x : Option α} {ok : α → PlannerWorld → Prop}
    {err : PlannerError → PlannerWorld → Prop} (hok : ∀ a, x = some a → ok a w)
    (herr : ∀ e, IsFault e → err e w) : (orElse x .agent : PlannerM α).Meets w ok err :=
  meets_orElse hok fun _ => herr _ isFault_agent

theorem collect_meets (input : EvidenceInput) : (collect agents input).Meets w
    (fun x w' => w' = w.after (.evidence input) ∧ agents.evidence input = some x.1 ∧
      extractCollectorResults agents.py x.1.newItems = .ok x.2)
    (fun e w' => w' = w.after (.evidence input) ∧ IsFault e) := by
  have hrun : (runEvidence agents input).Meets w
      (fun result w' => w' = w.after (.evidence input) ∧ agents.evidence input = some result)
      (fun e w' => w' = w.after (.evidence input) ∧ IsFault e) :=
    meets_bind (meets_note rfl : (note (.evidence input)).Meets w
      (fun _ w' => w' = w.after (.evidence input)) _)
      fun _ w' hw' => meets_agent (fun result h => ⟨hw', h⟩) fun e he => ⟨hw', he⟩
  refine meets_bind hrun ?_
  rintro result _ ⟨rfl, hresult⟩
  cases hx : extractCollectorResults agents.py result.newItems with
  | error e => exact ⟨rfl, isFault_collector e⟩
  | ok results => exact ⟨rfl, hresult, hx⟩

theorem Collected.mono {called called' : List AgentCall} {round : EvidenceRound}
    (h : Collected agents called round) (hsub : called ⊆ called') : Collected agents called' round := by
  obtain ⟨input, result, hcall, hanswered⟩ := h
  exact ⟨input, result, hsub hcall, hanswered⟩

theorem validateGapDecision_error {decision : GapDecision} {handlerInput : GapHandlerInput}
    {message : String} (h : validateGapDecision decision handlerInput = .error message) :
    message ≠ unhandledMessage := by
  rw [validateGapDecision] at h
  split at h
  · obtain rfl := Except.error.inj h
    decide
  · split at h
    · next haction =>
      by_cases hfailure : hasFailure handlerInput.evidenceRounds (decision.action = .retry) = true
      · rw [if_pos hfailure] at h
        cases h
      · rw [if_neg hfailure] at h
        obtain rfl := Except.error.inj h
        rcases haction with haction | haction <;> rw [haction] <;> decide
    · cases h

theorem validateGapDecision_ok {decision : GapDecision} {handlerInput : GapHandlerInput}
    (h : validateGapDecision decision handlerInput = .ok ()) :
    (decision.action = .collectMore → handlerInput.collectMoreAllowed = true) ∧
      (decision.action = .retry → hasFailure handlerInput.evidenceRounds true = true) ∧
      (decision.action = .systemFailure → hasFailure handlerInput.evidenceRounds false = true) := by
  rw [validateGapDecision] at h
  split at h
  · cases h
  · next hlimit =>
    refine ⟨fun haction => ?_, fun haction => ?_, fun haction => ?_⟩
    · by_contra hallowed
      exact hlimit ⟨haction, Bool.eq_false_iff.mpr hallowed⟩
    · by_contra hfailure
      simp [haction, hfailure] at h
    · by_contra hfailure
      simp [haction, hfailure] at h

theorem runGapHandler_meets (agents : PlannerAgents) (w : PlannerWorld) (input : PlannerContextInput)
    (rounds : List EvidenceRound) (hrounds : 1 ≤ rounds.length ∧ rounds.length ≤ 2)
    (collectMoreAllowed : Bool) :
    ∃ handlerInput : GapHandlerInput, handlerInput.evidenceRounds = rounds ∧
      handlerInput.collectMoreAllowed = collectMoreAllowed ∧
      (runGapHandler agents input rounds collectMoreAllowed).Meets w
        (fun x w' => w' = w.after (.gapHandler handlerInput) ∧
          ((∀ round ∈ rounds, Collected agents w.called round) →
            Decided agents w'.called handlerInput x.2))
        (fun e w' => w' = w.after (.gapHandler handlerInput) ∧ IsFault e) := by
  let handlerInput : GapHandlerInput := ⟨input.currentUserInput, input.contextChains, rounds,
    collectMoreAllowed, input.valid, hrounds⟩
  have hinput : GapHandlerInput.validate input.currentUserInput input.contextChains rounds
      collectMoreAllowed = some handlerInput := dif_pos ⟨input.valid, hrounds⟩
  refine ⟨handlerInput, rfl, rfl, ?_⟩
  rw [runGapHandler, hinput, orElse_some, pure_bind]
  refine meets_bind (meets_note rfl : (note (.gapHandler handlerInput)).Meets w
    (fun _ w' => w' = w.after (.gapHandler handlerInput)) _) ?_
  rintro - _ rfl
  have hanswer : (orElse (agents.gapHandler handlerInput) .agent : PlannerM GapOutput).Meets
      (w.after (.gapHandler handlerInput))
      (fun output w' => w' = w.after (.gapHandler handlerInput) ∧
        agents.gapHandler handlerInput = some output)
      (fun e w' => w' = w.after (.gapHandler handlerInput) ∧ IsFault e) :=
    meets_agent (fun output h => ⟨rfl, h⟩) fun e he => ⟨rfl, he⟩
  refine meets_bind hanswer ?_
  rintro output _ ⟨rfl, houtput⟩
  cases hdecision : parseGapDecision output with
  | none => exact ⟨rfl, rfl, nofun, nofun⟩
  | some decision =>
    rw [orElse_some, pure_bind]
    cases hvalid : validateGapDecision decision handlerInput with
    | error message =>
      exact ⟨rfl, decide_eq_false (validateGapDecision_error hvalid), nofun, nofun⟩
    | ok u =>
      have hmem : AgentCall.gapHandler handlerInput ∈ (w.after (.gapHandler handlerInput)).called :=
        List.mem_append_right _ (List.mem_singleton.mpr rfl)
      refine ⟨rfl, fun hcollected => ⟨fun round hround => ?_, hmem, ⟨output, houtput, hdecision⟩, hvalid⟩⟩
      exact (hcollected round hround).mono (List.subset_append_left _ _)

/-- A use case leaves what it commits, or the world as it was. -/
theorem meets_transact {f : Db → Except Failure Db} {ok : Unit → PlannerWorld → Prop}
    {err : PlannerError → PlannerWorld → Prop}
    (hok : ∀ w', f w.db = .ok w'.db → w'.called = w.called → ok () w')
    (herr : ∀ e, IsFault e → err e w) : (transact f).Meets w ok err := by
  cases hf : f w.db with
  | ok db =>
    have hexec : (transact f).exec w = (.ok (), { w with db := db }) := by
      show (match f w.db with | .ok db => _ | .error failure => _) = _
      rw [hf]
    exact meets_of_ok hexec (hok _ hf rfl)
  | error failure =>
    have hexec : (transact f).exec w = (.error (.failure failure), w) := by
      show (match f w.db with | .ok db => _ | .error failure => _) = _
      rw [hf]
    exact meets_of_error hexec (herr _ (isFault_failure failure))

theorem runCommit_meets (history : List HistoryItem) : (runCommit agents context history).Meets w
    (fun _ w' => w'.called = w.called ++ [.commit history])
    (fun e w' => w'.called = w.called ++ [.commit history] ∧ IsFault e) := by
  refine meets_bind (meets_note rfl : (note (.commit history)).Meets w
    (fun _ w' => w' = w.after (.commit history)) _) ?_
  rintro - _ rfl
  have htools : (transact fun db => .ok (runTools context (agents.commit history).calls db)).Meets
      (w.after (.commit history)) (fun _ w' => w'.called = w.called ++ [.commit history])
      (fun e w' => w'.called = w.called ++ [.commit history] ∧ IsFault e) := rfl
  refine meets_bind htools ?_
  intro _ w' hw'
  cases (agents.commit history).ending with
  | returned => exact hw'
  | raised => exact ⟨hw', isFault_agent⟩
  | handoff newClarificationId data question =>
    have hmark : (markGapClarification context newClarificationId data).Meets w'
        (fun _ w'' => w''.called = w.called ++ [.commit history])
        (fun e w'' => w''.called = w.called ++ [.commit history] ∧ IsFault e) :=
      meets_transact (fun w'' _ h => h.trans hw') fun e he => ⟨hw', he⟩
    refine meets_bind hmark ?_
    intro _ w'' hw''
    cases question with
    | none => exact ⟨hw'', isFault_agent⟩
    | some question => exact hw''

/-! ## The whole run -/

/-- What a run has called before its last call. -/
structure Asked (agents : PlannerAgents) (db : Db) (evidence judged : Nat) (w : PlannerWorld) : Prop where
  same : w.db = db
  evidence_eq : w.called.countP AgentCall.isEvidence = evidence
  judged_eq : w.called.countP AgentCall.isGapHandler = judged
  notLast : ∀ call ∈ w.called, call.isLast = false
  evidence_le : evidence ≤ 2
  judged_le : judged ≤ evidence
  followed : evidence = 2 → Followed agents w.called

theorem Decided.mono {called called' : List AgentCall} {handlerInput : GapHandlerInput}
    {decision : GapDecision} (h : Decided agents called handlerInput decision)
    (hsub : called ⊆ called') : Decided agents called' handlerInput decision :=
  ⟨fun round hround => (h.collected round hround).mono hsub, hsub h.called, h.answered, h.valid⟩

theorem Followed.mono {called called' : List AgentCall} (h : Followed agents called)
    (hsub : called ⊆ called') : Followed agents called' := by
  obtain ⟨handlerInput, decision, hdecided, haction, hrounds⟩ := h
  exact ⟨handlerInput, decision, hdecided.mono hsub, haction, hrounds⟩

theorem Committable.mono {called called' : List AgentCall} {history : List HistoryItem}
    (h : Committable agents called history) (hsub : called ⊆ called') :
    Committable agents called' history := by
  rcases h with ⟨input, result, results, hcall, hfound⟩ |
    ⟨handlerInput, decision, older, hdecided, hcommit⟩
  · exact .inl ⟨input, result, results, hsub hcall, hfound⟩
  · exact .inr ⟨handlerInput, decision, older, hdecided.mono hsub, hcommit⟩

section Asked

variable {db : Db} {evidence judged : Nat}

theorem asked_nil (db : Db) : Asked agents db 0 0 ⟨db, []⟩ :=
  ⟨rfl, rfl, rfl, nofun, Nat.zero_le _, le_rfl, nofun⟩

theorem countP_after (p : AgentCall → Bool) (w : PlannerWorld) (call : AgentCall) :
    (w.after call).called.countP p = w.called.countP p + if p call = true then 1 else 0 := by
  show (w.called ++ [call]).countP p = _
  rw [List.countP_append, List.countP_singleton]

theorem notLast_after {last : AgentCall} (h : ∀ call ∈ w.called, call.isLast = false)
    (hlast : last.isLast = false) : ∀ call ∈ (w.after last).called, call.isLast = false := by
  intro call hmem
  rcases List.mem_append.mp hmem with hmem | hmem
  · exact h call hmem
  · rw [List.mem_singleton.mp hmem]
    exact hlast

theorem Asked.after_evidence (input : EvidenceInput) (h : Asked agents db evidence judged w)
    (hle : evidence + 1 ≤ 2) (hfollowed : evidence + 1 = 2 → Followed agents w.called) :
    Asked agents db (evidence + 1) judged (w.after (.evidence input)) where
  same := h.same
  evidence_eq := by
    rw [countP_after, h.evidence_eq]
    rfl
  judged_eq := by
    rw [countP_after, h.judged_eq]
    rfl
  notLast := notLast_after h.notLast rfl
  evidence_le := hle
  judged_le := Nat.le_succ_of_le h.judged_le
  followed htwo := (hfollowed htwo).mono (List.subset_append_left _ _)

theorem Asked.after_gapHandler (handlerInput : GapHandlerInput)
    (h : Asked agents db evidence judged w) (hle : judged + 1 ≤ evidence) :
    Asked agents db evidence (judged + 1) (w.after (.gapHandler handlerInput)) where
  same := h.same
  evidence_eq := by
    rw [countP_after, h.evidence_eq]
    rfl
  judged_eq := by
    rw [countP_after, h.judged_eq]
    rfl
  notLast := notLast_after h.notLast rfl
  evidence_le := h.evidence_le
  judged_le := hle
  followed htwo := (h.followed htwo).mono (List.subset_append_left _ _)

/-- A run that ends before its last call. -/
theorem Asked.disciplined {x : Except PlannerError PlannerResult} {w' : PlannerWorld}
    (h : Asked agents db evidence judged w) (hcalled : w'.called = w.called)
    (hchanged : w'.db = w.db ∨ MayChange agents w.called)
    (hexternal : ∀ e, x = .error e → e.isInternal = false)
    (hretried : ∀ reason, x = .error (.retryRequested reason) →
      ∃ handlerInput decision, Decided agents w.called handlerInput decision ∧
        decision.action = .retry ∧ decision.reason = reason ∧
        hasFailure handlerInput.evidenceRounds true = true)
    (hbroken : ∀ message, x = .error (.runtime message) →
      ∃ handlerInput decision, Decided agents w.called handlerInput decision ∧
        decision.action = .systemFailure ∧ hasFailure handlerInput.evidenceRounds false = true) :
    Disciplined agents db x w' where
  evidence_le := by
    rw [hcalled, h.evidence_eq]
    exact h.evidence_le
  judged_le := by
    rw [hcalled, h.evidence_eq, h.judged_eq]
    exact h.judged_le
  last_le := by
    rw [hcalled, List.countP_eq_zero.mpr fun call hcall => Bool.eq_false_iff.mp (h.notLast call hcall)]
    exact Nat.zero_le _
  last call hmem := by
    rw [hcalled] at hmem
    exact h.notLast call (List.mem_of_mem_dropLast hmem)
  followed := by
    rw [hcalled, h.evidence_eq]
    exact h.followed
  committed history hmem := by
    rw [hcalled] at hmem
    cases h.notLast _ hmem
  asked data hmem := by
    rw [hcalled] at hmem
    cases h.notLast _ hmem
  changed := by
    rw [hcalled, ← h.same]
    exact hchanged
  external := hexternal
  retried := by
    rw [hcalled]
    exact hretried
  broken := by
    rw [hcalled]
    exact hbroken

theorem Asked.disciplined_of_fault {e : PlannerError} (h : Asked agents db evidence judged w)
    (he : IsFault e) : Disciplined agents db (.error e) w :=
  h.disciplined rfl (.inl rfl) (fun _ heq => Except.error.inj heq ▸ he.external)
    (fun reason heq => (he.notRetry reason (Except.error.inj heq)).elim)
    fun message heq => (he.notRuntime message (Except.error.inj heq)).elim

theorem AgentCall.of_isLast {call : AgentCall} (h : call.isLast = true) :
    call.isEvidence = false ∧ call.isGapHandler = false := by
  cases call with
  | evidence | gapHandler => cases h
  | commit | clarification => exact ⟨rfl, rfl⟩

/-- The last call is the only one of its kind. -/
theorem Asked.eq_last {w' : PlannerWorld} {last call : AgentCall}
    (h : Asked agents db evidence judged w) (hcalled : w'.called = (w.after last).called)
    (hmem : call ∈ w'.called) (hcall : call.isLast = true) : last = call := by
  rw [hcalled] at hmem
  rcases List.mem_append.mp hmem with hmem | hmem
  · rw [h.notLast call hmem] at hcall
    cases hcall
  · exact (List.mem_singleton.mp hmem).symm

/-- A run that ends with its last call. -/
theorem Asked.disciplined_of_last {x : Except PlannerError PlannerResult} {w' : PlannerWorld}
    {last : AgentCall} (h : Asked agents db evidence judged w)
    (hcalled : w'.called = (w.after last).called) (hlast : last.isLast = true)
    (hcommitted : ∀ history, last = .commit history → Committable agents w'.called history)
    (hasked : ∀ data, last = .clarification data → Askable agents w'.called data)
    (hx : ∀ e, x = .error e → IsFault e) : Disciplined agents db x w' where
  evidence_le := by
    rw [hcalled, countP_after, h.evidence_eq, (AgentCall.of_isLast hlast).1]
    exact h.evidence_le
  judged_le := by
    obtain ⟨hevidence, hjudged⟩ := AgentCall.of_isLast hlast
    rw [hcalled, countP_after, countP_after, h.evidence_eq, h.judged_eq, hevidence, hjudged]
    exact h.judged_le
  last_le := by
    rw [hcalled, countP_after,
      List.countP_eq_zero.mpr fun call hcall => Bool.eq_false_iff.mp (h.notLast call hcall), hlast]
    exact le_rfl
  last call hmem := by
    have hdrop : w'.called.dropLast = w.called := by
      rw [hcalled]
      exact List.dropLast_concat
    rw [hdrop] at hmem
    exact h.notLast call hmem
  followed := by
    rw [hcalled, countP_after, h.evidence_eq, (AgentCall.of_isLast hlast).1]
    exact fun htwo => (h.followed htwo).mono (List.subset_append_left _ _)
  committed history hmem := hcommitted history (h.eq_last hcalled hmem rfl)
  asked data hmem := hasked data (h.eq_last hcalled hmem rfl)
  changed := by
    refine .inr ?_
    cases hlast' : last with
    | commit history =>
      refine .inl ⟨history, ?_⟩
      rw [hcalled, hlast']
      exact List.mem_append_right _ (List.mem_singleton.mpr rfl)
    | clarification data =>
      obtain ⟨handlerInput, decision, hdecided, haction, -⟩ := hasked data hlast'
      exact .inr ⟨handlerInput, decision, hdecided, .inr haction⟩
    | evidence _ => rw [hlast'] at hlast; cases hlast
    | gapHandler _ => rw [hlast'] at hlast; cases hlast
  external e heq := (hx e heq).external
  retried reason heq := ((hx _ heq).notRetry reason rfl).elim
  broken message heq := ((hx _ heq).notRuntime message rfl).elim

/-- The commit agent, on what a plan can be committed on. -/
theorem Asked.runCommit_disciplined {history : List HistoryItem} (h : Asked agents db evidence judged w)
    (hhistory : Committable agents w.called history) :
    (runCommit agents context history).Meets w (fun r => Disciplined agents db (.ok r))
      (fun e => Disciplined agents db (.error e)) := by
  have hcommittable {w' : PlannerWorld} (hw' : w'.called = w.called ++ [.commit history]) :
      ∀ history', AgentCall.commit history = .commit history' → Committable agents w'.called history' := by
    rintro _ ⟨⟩
    rw [hw']
    exact hhistory.mono (List.subset_append_left _ _)
  refine (runCommit_meets history).mono (fun r w' hw' => ?_) fun e w' hfault => ?_
  · exact h.disciplined_of_last hw' rfl (hcommittable hw') nofun nofun
  · exact h.disciplined_of_last hfault.1 rfl (hcommittable hfault.1) nofun fun e' heq =>
      Except.error.inj heq ▸ hfault.2

/-- A decision to ask carries all that a question needs. -/
theorem clarification_validate {decision : GapDecision} (haction : decision.action = .clarification) :
    ∃ data, ClarificationHandoffInput.validate decision.clarificationKind decision.reason
      decision.requiredInformation decision.knownResourceRefs = some data := by
  have hvalid := decision.valid
  rw [GapDecisionFields.validateActionFields] at hvalid
  split at hvalid
  · cases hvalid
  split at hvalid
  · cases hvalid
  split at hvalid
  · cases hvalid
  · next hkind =>
    split at hvalid
    · cases hvalid
    · next hrequired =>
      obtain ⟨kind, hsome⟩ := Option.ne_none_iff_exists'.mp hkind
      rw [hsome, ClarificationHandoffInput.validate]
      exact ⟨_, dif_pos ⟨⟨List.length_pos_iff.mpr hrequired, decision.required_le⟩, decision.known_le⟩⟩

/-- What is done about a decision. -/
theorem Asked.resolve_disciplined {decision : GapDecision} {output : GapOutput}
    {history : List HistoryItem} {handlerInput : GapHandlerInput}
    (h : Asked agents db evidence judged w) (hdecided : Decided agents w.called handlerInput decision)
    (hmore : decision.action ≠ .collectMore) :
    (resolveGapDecision agents context decision output history).Meets w
      (fun r => Disciplined agents db (.ok r)) (fun e => Disciplined agents db (.error e)) := by
  obtain ⟨-, hretry, hbroken⟩ := validateGapDecision_ok hdecided.valid
  rw [resolveGapDecision]
  cases haction : decision.action with
  | commit =>
    exact h.runCommit_disciplined (.inr ⟨handlerInput, decision, history, hdecided, haction, rfl⟩)
  | retry =>
    refine meets_raise (h.disciplined rfl (.inl rfl) (fun _ heq => Except.error.inj heq ▸ rfl)
      (fun reason heq => ?_) nofun)
    exact ⟨handlerInput, decision, hdecided, haction,
      PlannerError.retryRequested.inj (Except.error.inj heq), hretry haction⟩
  | systemFailure =>
    refine meets_raise (h.disciplined rfl (.inl rfl) (fun _ heq => Except.error.inj heq ▸ rfl) nofun
      fun message heq => ?_)
    exact ⟨handlerInput, decision, hdecided, haction, hbroken haction⟩
  | unsupported =>
    have hmark : (transact (markPlanUnsupported context.planId decision.reason)).Meets w
        (fun _ w' => w'.called = w.called) (fun e => Disciplined agents db (.error e)) :=
      meets_transact (fun w' _ h => h) fun e he => h.disciplined_of_fault he
    refine meets_bind hmark ?_
    intro _ w' hw'
    exact meets_pure (h.disciplined hw' (.inr (.inr ⟨handlerInput, decision, hdecided, .inl haction⟩))
      nofun nofun nofun)
  | clarification =>
    obtain ⟨data, hdata⟩ := clarification_validate haction
    rw [hdata, orElse_some]
    show (pure data >>= fun _ => _ : PlannerM _).Meets _ _ _
    rw [pure_bind]
    have hmark : (markGapClarification context agents.newClarificationId data).Meets w
        (fun _ w' => w'.called = w.called) (fun e => Disciplined agents db (.error e)) :=
      meets_transact (fun w' _ h => h) fun e he => h.disciplined_of_fault he
    refine meets_bind hmark ?_
    intro _ w' hw'
    have haskable : ∀ data', AgentCall.clarification data = .clarification data' →
        Askable agents (w'.after (.clarification data)).called data' := by
      rintro _ ⟨⟩
      refine ⟨handlerInput, decision, hdecided.mono ?_, haction, hdata⟩
      rw [← hw']
      exact List.subset_append_left _ _
    have hcalled : (w'.after (.clarification data)).called = (w.after (.clarification data)).called := by
      show w'.called ++ _ = w.called ++ _
      rw [hw']
    refine meets_bind (meets_note rfl : (note (.clarification data)).Meets w'
      (fun _ w'' => w'' = w'.after (.clarification data)) _) ?_
    rintro - _ rfl
    refine meets_bind (meets_agent (fun question _ => ?_) fun e he => ?_ :
      (orElse (agents.clarification data) .agent : PlannerM BoundedText).Meets _
        (fun question w'' => Disciplined agents db (.ok (.agent (some question))) w'') _) ?_
    · exact h.disciplined_of_last hcalled rfl nofun haskable nofun
    · exact h.disciplined_of_last hcalled rfl nofun haskable fun e' heq => Except.error.inj heq ▸ he
    · intro question w'' hw''
      exact meets_pure hw''
  | collectMore => exact (hmore haction).elim

/-- **A planner run keeps its discipline**, whatever its agents answer. -/
theorem plan_disciplined (input : PlannerContextInput) :
    (plan agents context input).Meets ⟨db, []⟩ (fun r => Disciplined agents db (.ok r))
      (fun e => Disciplined agents db (.error e)) := by
  refine meets_bind ((collect_meets _).mono (fun _ _ h => h) ?_) ?_
  · rintro e _ ⟨rfl, he⟩
    exact ((asked_nil db).after_evidence _ (by decide) nofun).disciplined_of_fault he
  rintro ⟨first, results⟩ _ ⟨rfl, hfirst, hresults⟩
  have hasked : Asked agents db 1 0 _ :=
    (asked_nil db).after_evidence (.planner input) (by decide) nofun
  show (if evidenceIsReadyForCommit results = true then _ else _ : PlannerM PlannerResult).Meets _ _ _
  by_cases hready : evidenceIsReadyForCommit results = true
  · rw [if_pos hready]
    exact hasked.runCommit_disciplined (.inl ⟨.planner input, first, results,
      List.mem_singleton.mpr rfl, hfirst, hresults, hready, rfl⟩)
  rw [if_neg hready]
  have hcollected : Collected agents ((⟨db, []⟩ : PlannerWorld).after (.evidence (.planner input))).called
      (firstRound results) := ⟨.planner input, first, List.mem_singleton.mpr rfl, hfirst, hresults⟩
  obtain ⟨handlerInput, hrounds, -, hjudged⟩ := runGapHandler_meets agents
    ((⟨db, []⟩ : PlannerWorld).after (.evidence (.planner input))) input [firstRound results]
    ⟨le_rfl, Nat.le_succ 1⟩ true
  refine meets_bind (hjudged.mono (fun _ _ h => h) ?_) ?_
  · rintro e _ ⟨rfl, he⟩
    exact (hasked.after_gapHandler handlerInput (by decide)).disciplined_of_fault he
  rintro ⟨output, decision⟩ _ ⟨rfl, hdecided⟩
  replace hdecided := hdecided (List.forall_mem_singleton.mpr hcollected)
  have hasked' := hasked.after_gapHandler handlerInput (by decide)
  show (if decision.action = .collectMore then _ else _ : PlannerM PlannerResult).Meets _ _ _
  by_cases hmore : decision.action = .collectMore
  · rw [if_pos hmore]
    have hfollowed : Followed agents _ := ⟨handlerInput, decision, hdecided, hmore, by rw [hrounds]; rfl⟩
    refine meets_bind ((collect_meets _).mono (fun _ _ h => h) ?_) ?_
    · rintro e _ ⟨rfl, he⟩
      exact (hasked'.after_evidence _ (by decide) fun _ => hfollowed).disciplined_of_fault he
    rintro ⟨second, results'⟩ w'' ⟨hw'', hsecond, hresults'⟩
    have hasked'' : Asked agents db 2 1 w'' := by
      rw [hw'']
      exact hasked'.after_evidence _ (by decide) fun _ => hfollowed
    have hcollected' : ∀ round ∈ [firstRound results, secondRound results'],
        Collected agents w''.called round := by
      rw [hw'', List.forall_mem_cons, List.forall_mem_singleton]
      exact ⟨(hcollected.mono (List.subset_append_left _ _)).mono (List.subset_append_left _ _),
        _, second, List.mem_append_right _ (List.mem_singleton.mpr rfl), hsecond, hresults'⟩
    obtain ⟨handlerInput', -, hallowed, hjudged'⟩ := runGapHandler_meets agents w'' input
      [firstRound results, secondRound results'] ⟨Nat.le_succ 1, le_rfl⟩ false
    refine meets_bind (hjudged'.mono (fun _ _ h => h) ?_) ?_
    · rintro e _ ⟨rfl, he⟩
      exact (hasked''.after_gapHandler handlerInput' (by decide)).disciplined_of_fault he
    rintro ⟨output', decision'⟩ _ ⟨rfl, hdecided'⟩
    replace hdecided' := hdecided' hcollected'
    -- the second decision cannot ask for more
    refine (hasked''.after_gapHandler handlerInput' (by decide)).resolve_disciplined hdecided' fun hmore' => ?_
    have := (validateGapDecision_ok hdecided'.valid).1 hmore'
    rw [hallowed] at this
    cases this
  · rw [if_neg hmore]
    exact hasked'.resolve_disciplined hdecided hmore

end Asked

end Stages

/-- **A planner run is disciplined**, whatever its agents answer: at most two evidence runs, the second
one because the gap handler has asked for it; a commit or a question at the end, on evidence that is
ready or on a decision; no error of the graph's own. -/
theorem planner_run_disciplined (agents : PlannerAgents) (context : AgentToolContext) (fuel : Nat)
    (input : PlannerContextInput) (db : Db) :
    Disciplined agents db ((runPlannerGraph agents context (fuel + 5) input).exec ⟨db, []⟩).1
      ((runPlannerGraph agents context (fuel + 5) input).exec ⟨db, []⟩).2 := by
  rw [run_eq_plan]
  exact Run.meets_iff.mp (plan_disciplined input)

end DocFlow.Agents
