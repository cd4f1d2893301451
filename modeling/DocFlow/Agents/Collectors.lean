import DocFlow.Lib.JsonLoads
import DocFlow.Lib.Matching

/-!
# The evidence of the collectors

A collector run leaves the items of its tool calls and of their outputs.
`_extract_evidence_items` pairs them by their call ids and builds one `EvidenceItem` for each pair;
`extract_collector_results` does the same with the calls of the collectors themselves.  Both are a
`Matching`, each with its own errors and its own way to read a call and an output.

The models are validated the way pydantic does it: a text has no single surrogates, and a boolean may
be written in other ways (`Python.parseBool`).
-/

namespace DocFlow.Agents

open Text

/-! ## Python and pydantic -/

/-- How `json.loads` ends. -/
inductive Loaded
  | value (v : Json)
  | jsonDecodeError
  /-- the nesting is too deep, or an integer has too many digits -/
  | limits

structure Python where
  loads : Codes → Loaded
  exceeds : Text → Bool
  /-- the booleans of a lax field -/
  parseBool : Json → Option Bool
  loads_text : ∀ s : Text, loads (codes s) = if exceeds s = true then .limits else
    match Json.loads s with
    | some v => .value v
    | none => .jsonDecodeError
  parseBool_bool : ∀ b, parseBool (.bool b) = some b

/-- An object, as its members; of equal keys the last one counts. -/
abbrev Dict := List (Str × Json)

def Dict.get (data : Dict) (key : String) : Option Json := data.reverse.lookup (str key.toList)

def isText (s : Str) : Bool := s.codes.all fun c => !isHigh c && !isLow c

def parseStr : Json → Option Str
  | .str s => if isText s = true then some s else none
  | _ => none

/-- A text field with `min_length=1`. -/
def parseName (v : Json) : Option Str := (parseStr v).filter fun s => s ≠ str []

def parseStrs : Json → Option (List Str)
  | .arr items => items.mapM parseStr
  | _ => none

def parseDict : Json → Option Dict
  | .obj members => if members.all (fun m => isText m.1) = true then some members else none
  | _ => none

/-! ## The models -/

inductive ToolOutcome
  | succeeded | rejected | failed
deriving DecidableEq, Repr

def ToolOutcome.value : ToolOutcome → String
  | .succeeded => "succeeded"
  | .rejected => "rejected"
  | .failed => "failed"

def parseOutcome : Json → Option ToolOutcome
  | .str s => [.succeeded, .rejected, .failed].find? fun o : ToolOutcome => s = str o.value.toList
  | _ => none

structure EvidenceItem where
  toolName : Str
  toolCallId : Str
  arguments : Dict
  outcome : ToolOutcome
  resultCode : Str
  message : Str
  retryable : Bool
  resourceRefs : List Str
  payload : Dict

def EvidenceItem.validate (py : Python) (toolName toolCallId arguments outcome resultCode message
    retryable resourceRefs payload : Json) : Option EvidenceItem := do
  let toolName ← parseName toolName
  let toolCallId ← parseName toolCallId
  let arguments ← parseDict arguments
  let outcome ← parseOutcome outcome
  let resultCode ← parseName resultCode
  let message ← parseStr message
  let retryable ← py.parseBool retryable
  let resourceRefs ← parseStrs resourceRefs
  let payload ← parseDict payload
  return ⟨toolName, toolCallId, arguments, outcome, resultCode, message, retryable, resourceRefs,
    payload⟩

/-! ## The items of a run -/

/-- `arguments` is none when the raw item has no text there. -/
structure ToolCallItem where
  callId : Option Str
  toolName : Option Str
  arguments : Option Codes
deriving DecidableEq

inductive ToolOutput
  /-- a `BaseModel`, as `model_dump(mode="json")` -/
  | model (dump : Json)
  | dict (data : Dict)
  | text (s : Codes)
  | other

structure ToolCallOutputItem where
  callId : Option Str
  output : ToolOutput

inductive RunItem
  | toolCall (item : ToolCallItem)
  | toolCallOutput (item : ToolCallOutputItem)
  | other

def RunItem.toolCall? : RunItem → Option ToolCallItem
  | .toolCall item => some item
  | _ => none

def RunItem.toolCallOutput? : RunItem → Option ToolCallOutputItem
  | .toolCallOutput item => some item
  | _ => none

inductive CollectorError
  | valueError (message : String)
  /-- a `ValueError` whose message ends with a call id or a list -/
  | valueErrorAt (message : String) (callId : Str)
  | valueErrorOf (message : String) (listed : List Str)
  | jsonDecodeError
  | limits
  | typeError
  | attributeError
  | validationError
deriving DecidableEq

/-! ## Reading a call and an output -/

/-- `_normalize_tool_output`. -/
def normalizeToolOutput (py : Python) : ToolOutput → Except CollectorError Json
  | .model dump => .ok dump
  | .dict data => .ok (.obj data)
  | .text s =>
    match py.loads s with
    | .value (.obj parsed) => .ok (.obj parsed)
    | .value _ => .error (.valueError "Collector Tool output 必须是 JSON object")
    | .jsonDecodeError => .error .jsonDecodeError
    | .limits => .error .limits
  | .other => .error .typeError

def isHashable : Json → Bool
  | .arr _ | .obj _ => false
  | _ => true

/-- The check on `call_id` and `tool_name`, with its error. -/
def requireCall (message : String) (item : ToolCallItem) : Except CollectorError Str :=
  match item.callId, item.toolName with
  | some callId, some toolName =>
    if callId = str [] ∨ toolName = str [] then .error (.valueError message) else .ok callId
  | _, _ => .error (.valueError message)

def requireCallId (message : String) (item : ToolCallOutputItem) : Except CollectorError Str :=
  match item.callId with
  | some callId => if callId = str [] then .error (.valueError message) else .ok callId
  | none => .error (.valueError message)

def callsOf (newItems : List RunItem) : List ToolCallItem := newItems.filterMap RunItem.toolCall?

def outputsOf (newItems : List RunItem) : List ToolCallOutputItem :=
  newItems.filterMap RunItem.toolCallOutput?

section Reading

variable {py : Python}

end Reading

/-! ## Calls and outputs are paired -/

section Pairing

variable {py : Python} {newItems : List RunItem}

end Pairing

/-! ## Two calls, answered in the other order -/

/-- A lax field also takes the numbers 0 and 1. -/
def sampleBool : Json → Option Bool
  | .bool b => some b
  | .int n => if n = 0 then some false else if n = 1 then some true else none
  | _ => none

def samplePython : Python where
  loads s := match Json.loads (s.map Char.ofNat) with
    | some v => .value v
    | none => .jsonDecodeError
  exceeds _ := false
  parseBool := sampleBool
  loads_text s := by
    have hchars : (codes s).map Char.ofNat = s := by
      rw [codes, List.map_map]
      exact List.map_id'' Char.ofNat_toNat s
    rw [hchars, if_neg Bool.false_ne_true]
  parseBool_bool _ := rfl

inductive CollectorCode
  | documentCollector | contextCollector | operationsCollector
deriving DecidableEq, Repr

def CollectorCode.value : CollectorCode → String
  | .documentCollector => "document_collector"
  | .contextCollector => "context_collector"
  | .operationsCollector => "operations_collector"

/-- `COLLECTOR_TOOL_CODES.get`. -/
def collectorToolCode (toolName : Str) : Option CollectorCode :=
  [(str "collect_document_information".toList, .documentCollector),
    (str "collect_context_information".toList, .contextCollector),
    (str "collect_operation_information".toList, CollectorCode.operationsCollector)].lookup toolName

structure CollectorResult where
  collectorCode : CollectorCode
  summary : Str
  gaps : List Str
  resourceRefs : List Str
  evidenceItems : List EvidenceItem

def parseCollectorCode : Json → Option CollectorCode
  | .str s => [.documentCollector, .contextCollector, .operationsCollector].find?
      fun c : CollectorCode => s = str c.value.toList
  | _ => none

/-- `EvidenceItem.model_validate`, with the defaults of the fields. -/
def EvidenceItem.ofJson (py : Python) : Json → Option EvidenceItem
  | .obj data => do
    EvidenceItem.validate py (← Dict.get data "tool_name") (← Dict.get data "tool_call_id")
      ((Dict.get data "arguments").getD (.obj [])) (← Dict.get data "outcome")
      (← Dict.get data "result_code") (← Dict.get data "message") (← Dict.get data "retryable")
      ((Dict.get data "resource_refs").getD (.arr [])) ((Dict.get data "payload").getD (.obj []))
  | _ => none

def parseEvidenceItems (py : Python) : Json → Option (List EvidenceItem)
  | .arr items => items.mapM (EvidenceItem.ofJson py)
  | _ => none

/-- `CollectorResult.model_validate`. -/
def CollectorResult.ofJson (py : Python) : Json → Option CollectorResult
  | .obj data => do
    let collectorCode ← parseCollectorCode (← Dict.get data "collector_code")
    let summary ← parseName (← Dict.get data "summary")
    let gaps ← parseStrs ((Dict.get data "gaps").getD (.arr []))
    let resourceRefs ← parseStrs ((Dict.get data "resource_refs").getD (.arr []))
    let evidenceItems ← parseEvidenceItems py ((Dict.get data "evidence_items").getD (.arr []))
    return ⟨collectorCode, summary, gaps, resourceRefs, evidenceItems⟩
  | _ => none

def readResult (py : Python) (_callId : Str) (expectedCode : CollectorCode)
    (item : ToolCallOutputItem) : Except CollectorError CollectorResult := do
  match CollectorResult.ofJson py (← normalizeToolOutput py item.output) with
  | none => .error .validationError
  | some result =>
    if result.collectorCode ≠ expectedCode then
      .error (.valueError ("CollectorResult 来源与调用 Tool 不一致: expected=" ++
        expectedCode.value ++ ", actual=" ++ result.collectorCode.value))
    else .ok result

def expectedCode (item : ToolCallItem) : Except CollectorError CollectorCode :=
  let toolName := item.toolName.getD (str [])
  match collectorToolCode toolName with
  | some code => .ok code
  | none => .error (.valueErrorAt "Evidence Run 包含非 Collector Tool: " toolName)

def resultMatching (py : Python) : Matching ToolCallItem ToolCallOutputItem Str CollectorCode
    CollectorResult CollectorError where
  callKey := requireCall "Evidence Collector ToolCall 缺少 call_id 或 tool_name"
  callValue := expectedCode
  answerKey := requireCallId "Evidence Collector ToolCallOutput 缺少 call_id"
  read := readResult py
  repeated := .valueErrorAt "重复 Evidence Tool call_id: "
  unknown := .valueErrorAt "找不到 Evidence Collector ToolCallOutput 对应的 ToolCall: "
  again := .valueErrorAt "同一 Evidence Collector ToolCall 出现多个 Output: "
  unanswered missing := .valueErrorOf "Evidence Collector ToolCall 缺少 Output: "
    (missing.insertionSort (· ≤ ·))

def extractCollectorResults (py : Python) (newItems : List RunItem) :
    Except CollectorError (List CollectorResult) :=
  (resultMatching py).pair (callsOf newItems) (outputsOf newItems)

end DocFlow.Agents
