import DocFlow.Agents.Collectors
import DocFlow.Context.SelectContext
import DocFlow.Planning.Marks

/-!
# The gap handler

Between the evidence and the commit of a planner run stands an agent that says what is to be done about
what is still unknown.  Its answer is a `GapDecision`: pydantic checks its fields
(`validateActionFields`), and `validateGapDecision` what a prompt cannot promise, the limit on further
evidence and the failure that a retry or a system failure must point to.
-/

namespace DocFlow.Agents

open Planning

/-! ## Texts -/

def strOf (t : String) : Str := Text.str t.toList

/-- The text of a string that has no surrogates. -/
def textOf (s : Str) : String := String.ofList (s.codes.map Char.ofNat)

/-! ## The models -/

inductive GapAction
  | commit | collectMore | retry | systemFailure | clarification | unsupported
deriving DecidableEq, Repr

def GapAction.value : GapAction → String
  | .commit => "COMMIT"
  | .collectMore => "COLLECT_MORE"
  | .retry => "RETRY"
  | .systemFailure => "SYSTEM_FAILURE"
  | .clarification => "CLARIFICATION"
  | .unsupported => "UNSUPPORTED"

structure EvidenceRound where
  roundNumber : Nat
  collectorResults : List CollectorResult
  valid : roundNumber = 1 ∨ roundNumber = 2

/-- `PlannerContextInput`. -/
structure PlannerContextInput where
  currentUserInput : String
  contextChains : List Context.LoadedChain
  valid : 1 ≤ currentUserInput.length

structure GapHandlerInput where
  currentUserInput : String
  selectedContext : List Context.LoadedChain
  evidenceRounds : List EvidenceRound
  collectMoreAllowed : Bool
  valid : 1 ≤ currentUserInput.length
  bounded : 1 ≤ evidenceRounds.length ∧ evidenceRounds.length ≤ 2

/-- The constructor of `GapHandlerInput`; none is a `ValidationError`. -/
def GapHandlerInput.validate (currentUserInput : String) (selectedContext : List Context.LoadedChain)
    (evidenceRounds : List EvidenceRound) (collectMoreAllowed : Bool) : Option GapHandlerInput :=
  if h : 1 ≤ currentUserInput.length ∧ 1 ≤ evidenceRounds.length ∧ evidenceRounds.length ≤ 2 then
    some ⟨currentUserInput, selectedContext, evidenceRounds, collectMoreAllowed, h.1, h.2⟩
  else none

/-- The fields of `GapDecision`, before `validate_action_fields`. -/
structure GapDecisionFields where
  action : GapAction
  reason : BoundedText
  followUp : Option BoundedText
  clarificationKind : Option ClarificationKind
  requiredInformation : List String
  knownResourceRefs : List String
deriving DecidableEq, Repr

/-- `validate_action_fields`. -/
def GapDecisionFields.validateActionFields (d : GapDecisionFields) : Except String Unit :=
  if d.action = .collectMore ∧ d.followUp = none then
    .error "COLLECT_MORE 必须提供 follow_up"
  else if d.action ≠ .collectMore ∧ d.followUp ≠ none then
    .error "只有 COLLECT_MORE 可以提供 follow_up"
  else if d.action = .clarification then
    if d.clarificationKind = none then .error "CLARIFICATION 必须提供 clarification_kind"
    else if d.requiredInformation = [] then .error "CLARIFICATION 必须提供 required_information"
    else .ok ()
  else if d.clarificationKind ≠ none ∨ d.requiredInformation ≠ [] ∨ d.knownResourceRefs ≠ [] then
    .error "只有 CLARIFICATION 可以提供澄清分类、所需信息和已知资源"
  else .ok ()

structure GapDecision extends GapDecisionFields where
  required_le : requiredInformation.length ≤ 10
  known_le : knownResourceRefs.length ≤ 50
  valid : toGapDecisionFields.validateActionFields = .ok ()

/-- What a decision asks the user. -/
structure ClarificationHandoffInput where
  clarificationKind : ClarificationKind
  reason : BoundedText
  requiredInformation : List String
  knownResourceRefs : List String
  required : 1 ≤ requiredInformation.length ∧ requiredInformation.length ≤ 10
  known : knownResourceRefs.length ≤ 50

/-- The constructor of `ClarificationHandoffInput`; none is a `ValidationError`. -/
def ClarificationHandoffInput.validate (clarificationKind : Option ClarificationKind)
    (reason : BoundedText) (requiredInformation knownResourceRefs : List String) :
    Option ClarificationHandoffInput :=
  match clarificationKind with
  | none => none
  | some kind =>
    if h : (1 ≤ requiredInformation.length ∧ requiredInformation.length ≤ 10) ∧
        knownResourceRefs.length ≤ 50 then
      some ⟨kind, reason, requiredInformation, knownResourceRefs, h.1, h.2⟩
    else none

/-! ## Parsing -/

/-- A text with `min_length=1, max_length=4000`. -/
def parseBounded (v : Json) : Option BoundedText := do
  let text := textOf (← parseStr v)
  if h : 1 ≤ text.length ∧ text.length ≤ 4000 then some ⟨text, h⟩ else none

def parseAction : Json → Option GapAction
  | .str s => [.commit, .collectMore, .retry, .systemFailure, .clarification, .unsupported].find?
      fun a : GapAction => s = strOf a.value
  | _ => none

def kindValue : ClarificationKind → String
  | .resource => "resource"
  | .intent => "intent"
  | .missingParameter => "missing_parameter"

def parseKind : Json → Option ClarificationKind
  | .str s => [.resource, .intent, .missingParameter].find? fun k : ClarificationKind =>
      s = strOf (kindValue k)
  | _ => none

/-- A field that may be `None`, with its default. -/
def parseNullable {α : Type} (parse : Json → Option α) : Option Json → Option (Option α)
  | none | some .null => some none
  | some v => (parse v).map some

/-- A list of texts, with its default. -/
def parseTexts : Option Json → Option (List String)
  | none => some []
  | some v => (parseStrs v).map (List.map textOf)

def gapDecisionFields : List String :=
  ["action", "reason", "follow_up", "clarification_kind", "required_information",
    "known_resource_refs"]

/-- The parsing of the fields. -/
def GapDecisionFields.ofDict (data : Dict) : Option GapDecisionFields := do
  let action ← parseAction (← Dict.get data "action")
  let reason ← parseBounded (← Dict.get data "reason")
  let followUp ← parseNullable parseBounded (Dict.get data "follow_up")
  let clarificationKind ← parseNullable parseKind (Dict.get data "clarification_kind")
  let requiredInformation ← parseTexts (Dict.get data "required_information")
  let knownResourceRefs ← parseTexts (Dict.get data "known_resource_refs")
  return ⟨action, reason, followUp, clarificationKind, requiredInformation, knownResourceRefs⟩

/-- The checks on all fields together. -/
def GapDecisionFields.validate (d : GapDecisionFields) : Option GapDecision :=
  if h : d.requiredInformation.length ≤ 10 ∧ d.knownResourceRefs.length ≤ 50 ∧
      d.validateActionFields = .ok () then
    some ⟨d, h.1, h.2.1, h.2.2⟩
  else none

/-- `GapDecision.model_validate`; other fields are forbidden. -/
def GapDecision.ofJson : Json → Option GapDecision
  | .obj data =>
    if data.all (fun m => m.1 ∈ gapDecisionFields.map strOf) then do
      (← GapDecisionFields.ofDict data).validate
    else none
  | _ => none

/-- `decision.model_dump(mode="json")`. -/
def GapDecision.modelDump (d : GapDecision) : Json :=
  .obj [(strOf "action", .str (strOf d.action.value)),
    (strOf "reason", .str (strOf d.reason.text)),
    (strOf "follow_up", (d.followUp.map fun t => Json.str (strOf t.text)).getD .null),
    (strOf "clarification_kind", (d.clarificationKind.map fun k => Json.str (strOf (kindValue k))).getD
      .null),
    (strOf "required_information", .arr (d.requiredInformation.map fun t => .str (strOf t))),
    (strOf "known_resource_refs", .arr (d.knownResourceRefs.map fun t => .str (strOf t)))]

/-- The final output of the gap handler. -/
inductive GapOutput
  /-- a text; none when it is not JSON -/
  | text (parsed : Option Json)
  | data (v : Json)
  | model (d : GapDecision)

/-- `parse_gap_decision`; none is a `ValidationError`. -/
def parseGapDecision : GapOutput → Option GapDecision
  | .text parsed => parsed.bind GapDecision.ofJson
  | .data v => GapDecision.ofJson v
  | .model d => some d

/-! ## What a prompt cannot promise -/

def evidenceOf (rounds : List EvidenceRound) : List EvidenceItem :=
  rounds.flatMap fun round => round.collectorResults.flatMap CollectorResult.evidenceItems

def hasFailure (rounds : List EvidenceRound) (retryable : Bool) : Bool :=
  (evidenceOf rounds).any fun item => item.outcome = .failed && item.retryable == retryable

/-- `validate_gap_decision`; the text is that of the `GapDecisionError`. -/
def validateGapDecision (decision : GapDecision) (handlerInput : GapHandlerInput) :
    Except String Unit :=
  if decision.action = .collectMore ∧ handlerInput.collectMoreAllowed = false then
    .error "第二轮 Evidence 后禁止再次 COLLECT_MORE"
  else if decision.action = .retry ∨ decision.action = .systemFailure then
    let expectedRetryable : Bool := decision.action = .retry
    if hasFailure handlerInput.evidenceRounds expectedRetryable then .ok ()
    else .error (decision.action.value ++ " 必须由 outcome=failed 且 retryable=" ++
      (if expectedRetryable then "true" else "false") ++ " 的 Evidence 支持")
  else .ok ()

end DocFlow.Agents
