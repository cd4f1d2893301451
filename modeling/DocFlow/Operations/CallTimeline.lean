import DocFlow.Operations.AuditTrail

/-!
# The timeline of the calls

`_tool_timeline` scans the log for the events of a task or of a run of an agent, and pairs them.  The
log has the events in no order that the calls would know of; some may be missing, or out of the range.

`timeline_tells` joins both ends: what the calls of a run have done is what the timeline answers.  The
proof runs on three facts.  `matching_perm` says what a scan finds, `filter_written` which of the events
of a call that is, and `pairs_shown` that pairing them gives back the call.
-/

namespace DocFlow.Operations

open Text Calendar AgentRuntime

/-! ## What a scan finds -/

/-- A scan shows the event, if it is in a file. -/
def LogQuery.shows (py : Python) (q : LogQuery) (event : Event) : Bool :=
  (Event.time py event).any fun t => q.Matches event t

section

variable {py : Python} {q : LogQuery} {source : JsonlLogSource}

theorem lineEvent_shown (py : Python) (q : LogQuery) (source : JsonlLogSource) (filename : Str)
    (lineNumber : Nat) (line : Text) :
    (lineEvent py q source filename lineNumber line).map (·.event) =
      (eventOfLine py line).filter (q.shows py) := by
  unfold lineEvent eventOfLine
  cases Json.loads line with
  | none => rfl
  | some v =>
    cases v with
    | obj event =>
      simp only
      cases ht : Event.time py event with
      | none => rfl
      | some t =>
        have hshows : q.shows py event = decide (q.Matches event t) := by
          rw [LogQuery.shows, ht, Option.any_some]
        simp only [Option.isSome_some, if_true, Option.filter_some, hshows, decide_eq_true_eq]
        split <;> rfl
    | _ => rfl

theorem fileEvents_shown (py : Python) (q : LogQuery) (source : JsonlLogSource) (file : LogFile) :
    (fileEvents py q source file).map (·.event) =
      (contentEvents py file).filter (q.shows py) := by
  unfold fileEvents contentEvents
  cases file.content.bind ofUtf8 with
  | none => rfl
  | some s =>
    have hline : ∀ line : Text × Nat,
        (lineEvent py q source file.name line.2 line.1).map (·.event) =
          (eventOfLine py line.1).filter (q.shows py) :=
      fun line => lineEvent_shown py q source file.name line.2 line.1
    simp only [List.map_filterMap, hline, Option.map_some, Option.getD_some, textEvents]
    rw [List.filter_filterMap]
    conv_rhs => rw [← List.zipIdx_map_fst 1 (textLines s), List.filterMap_map]
    rfl

/-- **A scan finds the events of the files that the query shows.** -/
theorem matching_perm (py : Python) (q : LogQuery) (source : JsonlLogSource) (fs : FileSystem) :
    ((matching py [source] fs q).map (·.event)).Perm
      ((directoryEvents py source (fs source.directory)).filter (q.shows py)) := by
  have hfiles : (fun file => (fileEvents py q source file).map (·.event)) =
      fun file => (contentEvents py file).filter (q.shows py) :=
    funext fun file => fileEvents_shown py q source file
  rw [matching, List.flatMap_singleton, List.map_flatMap, hfiles, sourceFiles]
  cases fs source.directory with
  | entries e =>
    simp only [directoryEvents, List.filter_flatMap]
    exact ((sortedBy_perm LogFile.name e.files).filter _).flatMap_right _
  | _ => exact List.Perm.refl _

/-- The first page of a scan has all that it finds, unless that is more than the limit. -/
theorem scan_first (hlimit : 1 ≤ q.limit) {fs : FileSystem} (hread : Readable py [source] fs q) :
    ∃ page, scan py [source] fs q none = .ok page ∧
      page.events ⊆ (matching py [source] fs q).map (·.event) ∧
      (page.nextCursor = none → page.events.Perm ((matching py [source] fs q).map (·.event))) ∧
      (page.nextCursor.isSome ↔ q.limit < (matching py [source] fs q).length) := by
  have hscan : scan py [source] fs q none = .ok (scanPage [source] q.ascending
      (pageOf q.ascending q.limit (matching py [source] fs q) none)) := by
    have hposition : positionOf [source] q.ascending none = .ok none := rfl
    rw [scan_eq py [source] fs hlimit hposition, (yields_readSources py [source] fs q).1 hread]
    rfl
  have hordered := inOrder_perm q.ascending (matching py [source] fs q)
  have hlength : ((inOrder q.ascending (matching py [source] fs q)).take (q.limit + 1)).length =
      min (q.limit + 1) (matching py [source] fs q).length := by
    rw [List.length_take, hordered.length_eq]
  refine ⟨_, hscan, fun event hevent => ?_, ?_⟩
  · obtain ⟨indexed, hmem, rfl⟩ := mem_pageOf hevent
    exact List.mem_map_of_mem hmem
  rw [scanPage_pageOf]
  simp only [behindCursor, hlength]
  by_cases hmore : q.limit < (matching py [source] fs q).length
  · have hlast : ∃ last, (((inOrder q.ascending (matching py [source] fs q)).take
        (q.limit + 1)).take q.limit).getLast? = some last := by
      refine Option.isSome_iff_exists.mp (List.getLast?_isSome.mpr (List.length_pos_iff.mp ?_))
      rw [List.length_take, hlength]
      omega
    obtain ⟨last, hlast⟩ := hlast
    rw [if_pos (by omega), hlast]
    refine ⟨fun h => ?_, fun _ => hmore, fun _ => rfl⟩
    cases h
  · rw [if_neg (by omega)]
    refine ⟨fun _ => ?_, fun h => absurd h Bool.false_ne_true, fun h => absurd h hmore⟩
    rw [List.take_of_length_le, List.take_of_length_le]
    · exact hordered.map _
    · rw [hordered.length_eq]; omega
    · rw [hlength]; omega

end

/-! ## The query -/

namespace Audit

open Timeline

/-- The `identifier_field` of `get_task_tool_timeline` and of `get_agent_run_tool_timeline`. -/
inductive TimelineField
  | taskId
  | agentRunId

def TimelineField.key : TimelineField → String
  | .taskId => "task_id"
  | .agentRunId => "agent_run_id"

structure ToolTimelineQuery where
  identifier : Str
  agentNames : List Str
  toolNames : List Str
  createdFrom : Option ParsedTime
  createdTo : Option ParsedTime
  limit : Nat

structure ToolTimelineResult where
  identifier : Str
  invocations : List ToolInvocationTimelineItem
  truncated : Bool

/-- The test of one of the lists of names; an empty list takes every value. -/
def among (names : List Str) (value : Option Json) : Option Bool :=
  if names.isEmpty then some true
  else if value.all isHashable = true then some ((value.bind readStr).any names.contains)
  else none

def ToolTimelineQuery.logQuery (query : ToolTimelineQuery) (field : TimelineField) : LogQuery where
  predicate event := do
    if (event.get field.key).any (isStr query.identifier) = false then return false
    if (← among query.agentNames (event.get "agent_name")) = false then return false
    among query.toolNames (event.get "tool_name")
  createdFrom := query.createdFrom
  createdTo := query.createdTo
  limit := query.limit
  ascending := true

inductive ToolTimelineError
  | scan (e : ScanError)
  | timeline (e : TimelineError)

/-- `_tool_timeline`. -/
def toolTimeline (py : Python) (va : Validation) (sources : List JsonlLogSource) (fs : FileSystem)
    (query : ToolTimelineQuery) (field : TimelineField) :
    Except ToolTimelineError ToolTimelineResult := do
  let page ← (scan py sources fs (query.logQuery field) none).mapError .scan
  let invocations ← (aggregateInvocations py va page.events).mapError .timeline
  return ⟨query.identifier, invocations, page.nextCursor.isSome⟩

/-! ## What it shows of a call -/

/-- The value that the query compares. -/
def TimelineField.of (audit : AgentToolInvocationAudit) : TimelineField → Option Str
  | .taskId => audit.context.taskId
  | .agentRunId => some audit.context.agentRunId

/-- The query asks for the call. -/
def ToolTimelineQuery.Asks (query : ToolTimelineQuery) (field : TimelineField)
    (audit : AgentToolInvocationAudit) : Prop :=
  field.of audit = some query.identifier ∧
    (query.agentNames = [] ∨ audit.context.agentName ∈ query.agentNames) ∧
    (query.toolNames = [] ∨ audit.toolName ∈ query.toolNames)

instance (query : ToolTimelineQuery) (field : TimelineField) (audit : AgentToolInvocationAudit) :
    Decidable (query.Asks field audit) := inferInstanceAs (Decidable (_ ∧ _ ∧ _))

def ToolTimelineQuery.InRange (query : ToolTimelineQuery) (t : DateTime) : Prop :=
  (∀ b ∈ query.createdFrom, b.instant ≤ t.micros) ∧ ∀ b ∈ query.createdTo, t.micros ≤ b.instant

instance (query : ToolTimelineQuery) (t : DateTime) : Decidable (query.InRange t) :=
  inferInstanceAs (Decidable (_ ∧ _))

variable (query : ToolTimelineQuery) (field : TimelineField)

/-- The start of the call, if the log has it and it is in the range. -/
def AuditedCall.shownStart (call : AuditedCall) : Option Stamp :=
  call.loggedStart.filter fun stamp => decide (query.InRange stamp.createdAt)

/-- Its end, if the log has it and it is in the range. -/
def AuditedCall.shownEnd (call : AuditedCall) : Option (CallResult × Stamp) :=
  call.loggedEnd.filter fun ending => decide (query.InRange ending.2.createdAt)

def AuditedCall.shown (call : AuditedCall) : List Event :=
  ((call.shownStart query).map call.audit.started).toList ++
    ((call.shownEnd query).map fun ending => endEvent call.audit ending.1 ending.2).toList

section

variable {py : Python} {audit : AgentToolInvocationAudit} {stamp : Stamp} {event : Event}

theorem among_eq (names : List Str) (name : Str) :
    among names (some (.str name)) = some (decide (names = [] ∨ name ∈ names)) := by
  have hhashable : (some (Json.str name)).all isHashable = true := rfl
  rw [among, if_pos hhashable, Option.bind_some, readStr, Option.any_some, List.contains_eq_mem]
  cases names with
  | nil => rfl
  | cons first names => simp

theorem isStr_nullable (s : Str) (v : Option Str) : isStr s (nullable v) = decide (v = some s) := by
  cases v with
  | none => rfl
  | some t =>
    rw [nullable, isStr]
    exact decide_eq_decide.mpr Option.some_inj.symm

theorem Speaks.identifier (h : Speaks audit stamp event) :
    event.get field.key = some (nullable (field.of audit)) := by
  cases field with
  | taskId => exact h.taskId
  | agentRunId => exact h.agentRunId

theorem Speaks.predicate (h : Speaks audit stamp event) :
    (query.logQuery field).predicate event = some (decide (query.Asks field audit)) := by
  unfold ToolTimelineQuery.logQuery ToolTimelineQuery.Asks
  simp only [h.identifier field, h.agentName, h.toolName, among_eq, Option.any_some, isStr_nullable,
    decide_eq_false_iff_not]
  by_cases hid : field.of audit = some query.identifier
  · by_cases hagent : query.agentNames = [] ∨ audit.context.agentName ∈ query.agentNames
    · simp [hid, hagent]
    · simp [hid, hagent]
  · simp [hid]

/-- The time that an event has in the log is the one at which it was written. -/
theorem Speaks.time (h : Speaks audit stamp event) (hclock : ReadsTime py stamp.createdAt) :
    Event.time py event = some stamp.createdAt := by
  have hread : py.fromisoformat (replaceZ (str (isoformat stamp.createdAt)).codes) =
      some ⟨stamp.createdAt, some 0⟩ := by
    rw [str_codes, replaceZ_of_not_mem (not_mem_isoformat _)]
    exact hclock
  rw [time_of_get h.createdAt hread]
  exact utc_eq_some.mpr (instant_utc stamp.createdAt).symm

theorem Speaks.shows (h : Speaks audit stamp event) (hclock : ReadsTime py stamp.createdAt) :
    (query.logQuery field).shows py event =
      (decide (query.Asks field audit) && decide (query.InRange stamp.createdAt)) := by
  rw [LogQuery.shows, h.time hclock, Option.any_some, ← Bool.decide_and]
  refine decide_eq_decide.mpr ?_
  unfold LogQuery.Matches
  rw [h.predicate, Option.some_inj, decide_eq_true_eq]
  constructor
  · rintro ⟨hfrom, hto, hasks⟩
    exact ⟨hasks, hfrom, hto⟩
  · rintro ⟨hasks, hfrom, hto⟩
    exact ⟨hfrom, hto, hasks⟩

/-- `fromisoformat` and pydantic read the time that the writer writes. -/
structure Timed (py : Python) (va : Validation) (t : DateTime) : Prop where
  scanned : ReadsTime py t
  validated : va.datetime (.str (str (isoformat t))) = some ⟨t, some 0⟩

/-- The times of a call are read as they were written. -/
structure AuditedCall.Timed (py : Python) (va : Validation) (call : AuditedCall) : Prop where
  started : Audit.Timed py va call.started.createdAt
  ended : ∀ ending ∈ call.ended, Audit.Timed py va ending.2.createdAt

variable {va : Validation} {call : AuditedCall}

theorem AuditedCall.Timed.loggedStart (h : call.Timed py va) {stamp : Stamp}
    (hstamp : call.loggedStart = some stamp) : Audit.Timed py va stamp.createdAt := by
  rw [← Option.some.inj (Option.filter_eq_some_iff.mp hstamp).1]
  exact h.started

theorem AuditedCall.Timed.loggedEnd (h : call.Timed py va) {ending : CallResult × Stamp}
    (hending : call.loggedEnd = some ending) : Audit.Timed py va ending.2.createdAt :=
  h.ended ending (Option.filter_eq_some_iff.mp hending).1

/-- The events that are asked for and in the range. -/
theorem filter_events {α : Type} {o : Option α} {event : α → Event} {shows : Event → Bool}
    {asks : Prop} [Decidable asks] {range : α → Bool}
    (h : ∀ a, o = some a → shows (event a) = (decide asks && range a)) :
    (o.map event).toList.filter shows = if asks then ((o.filter range).map event).toList else [] := by
  cases o with
  | none => exact (ite_self _).symm
  | some a =>
    simp only [Option.map_some, Option.toList_some, List.filter_singleton, h a rfl,
      Option.filter_some]
    by_cases hasks : asks
    · simp only [hasks, decide_true, Bool.true_and, if_true]
      cases range a <;> rfl
    · simp only [hasks, decide_false, Bool.false_and, if_false]
      rfl

/-- **A call that is not asked for is not shown**, and of one that is, the events in the range. -/
theorem filter_written (hclock : call.Timed py va) :
    call.written.filter ((query.logQuery field).shows py) =
      if query.Asks field call.audit then call.shown query else [] := by
  have hstart : (call.loggedStart.map call.audit.started).toList.filter
      ((query.logQuery field).shows py) = if query.Asks field call.audit then
        ((call.shownStart query).map call.audit.started).toList else [] := by
    refine filter_events fun stamp hstamp => ?_
    exact (speaks_started call.audit stamp).shows query field
      (hclock.loggedStart hstamp).scanned
  have hend : (call.loggedEnd.map fun ending => endEvent call.audit ending.1 ending.2).toList.filter
      ((query.logQuery field).shows py) = if query.Asks field call.audit then
        ((call.shownEnd query).map fun ending => endEvent call.audit ending.1 ending.2).toList
      else [] :=
    filter_events fun ending hending => (speaks_endEvent call.audit ending.2 ending.1).shows query
      field (hclock.loggedEnd hending).scanned
  rw [AuditedCall.written, List.filter_append, hstart, hend, AuditedCall.shown]
  split
  · rfl
  · rfl

/-! ## Pairing the events of a call -/

/-- What stands first of a call: its start, or its end if the start is not there. -/
def AuditedCall.firstStamp (call : AuditedCall) : Option Stamp :=
  (call.shownStart query).or ((call.shownEnd query).map fun ending => ending.2)

/-- **The item says of the call what is so**: what was called, by whom and when, how it ended and with
what answer, and nothing of an end that is not shown. -/
structure Reports (call : AuditedCall) (item : ToolInvocationTimelineItem) : Prop where
  invocationId : item.invocationId = call.audit.invocationId
  traceId : item.traceId = call.audit.context.traceId
  agentRunId : item.agentRunId = call.audit.context.agentRunId
  conversationId : item.conversationId = call.audit.context.conversationId
  turnId : item.turnId = call.audit.context.turnId
  taskId : item.taskId = call.audit.context.taskId
  agentName : item.agentName = call.audit.context.agentName
  toolName : item.toolName = call.audit.toolName
  actorCode : item.actorCode = call.audit.context.actorCode
  resourceRefs : item.resourceRefs = call.audit.resourceRefs.map fun ref => str ref.toList
  startedAt : some item.startedAt =
    (call.firstStamp query).map fun stamp => ⟨stamp.createdAt, some 0⟩
  completedAt : item.completedAt =
    (call.shownEnd query).map fun ending => ⟨ending.2.createdAt, some 0⟩
  outcome : item.outcome =
    (call.shownEnd query).map fun ending => str (CallResult.outcome ending.1).toList
  resultCode : item.resultCode =
    (call.shownEnd query).map fun ending => str (CallResult.resultCode ending.1).toList
  retryable : item.retryable = (call.shownEnd query).map fun ending => CallResult.retryable ending.1
  durationMs : item.durationMs = (call.shownEnd query).map fun ending => ending.2.durationMs

theorem eq_toList_of_perm {α : Type} {l : List α} {o : Option α} (h : l.Perm o.toList) :
    l = o.toList := by
  cases o with
  | none => exact List.perm_nil.mp h
  | some a => exact List.perm_singleton.mp h

theorem getLast?_toList {α : Type} (o : Option α) : o.toList.getLast? = o := by
  cases o <;> rfl

/-- What is shown of a call is its start and its end. -/
theorem filter_shown (call : AuditedCall) :
    (call.shown query).filter isStarted =
        ((call.shownStart query).map call.audit.started).toList ∧
      (call.shown query).filter isTerminal = ((call.shownEnd query).map fun ending =>
        endEvent call.audit ending.1 ending.2).toList := by
  have hstart : ∀ event ∈ ((call.shownStart query).map call.audit.started).toList,
      isStarted event = true := by
    intro event hevent
    obtain ⟨stamp, -, rfl⟩ := Option.map_eq_some_iff.mp (Option.mem_toList.mp hevent)
    exact isStarted_started call.audit stamp
  have hend : ∀ event ∈ ((call.shownEnd query).map fun ending =>
      endEvent call.audit ending.1 ending.2).toList, isTerminal event = true := by
    intro event hevent
    obtain ⟨ending, -, rfl⟩ := Option.map_eq_some_iff.mp (Option.mem_toList.mp hevent)
    exact (tells_endEvent call.audit ending.2 ending.1).terminal
  unfold AuditedCall.shown
  rw [List.filter_append, List.filter_append, List.filter_eq_self.mpr hstart,
    List.filter_eq_self.mpr hend]
  constructor
  · rw [List.filter_eq_nil_iff.mpr fun event hevent => ?_, List.append_nil]
    rw [not_started_of_terminal (hend event hevent)]
    exact Bool.false_ne_true
  · rw [List.filter_eq_nil_iff.mpr fun event hevent hterminal => ?_, List.nil_append]
    have hnot := hstart event hevent
    rw [not_started_of_terminal hterminal] at hnot
    cases hnot

/-- **Pairing the events gives back the call**, in whatever order they are found. -/
theorem pairs_shown {events : List Event} {call : AuditedCall}
    (h : (eventsOf py events call.audit.invocationId).Perm (call.shown query)) :
    identityEvent py events call.audit.invocationId = (call.shown query).head? ∧
      terminalEvent py events call.audit.invocationId =
        (call.shownEnd query).map fun ending => endEvent call.audit ending.1 ending.2 := by
  obtain ⟨hstart, hend⟩ := filter_shown query call
  have hstarted := eq_toList_of_perm ((h.filter isStarted).trans (List.Perm.of_eq hstart))
  have hended := eq_toList_of_perm ((h.filter isTerminal).trans (List.Perm.of_eq hend))
  constructor
  · unfold identityEvent
    rw [hstarted, getLast?_toList]
    cases hshown : call.shownStart query with
    | some stamp =>
      rw [AuditedCall.shown, hshown]
      rfl
    | none =>
      have hall : eventsOf py events call.audit.invocationId = call.shown query := by
        rw [AuditedCall.shown, hshown] at h ⊢
        exact eq_toList_of_perm h
      rw [hall]
      rfl
  · unfold terminalEvent
    rw [hended, getLast?_toList]

/-- The first event that is shown. -/
theorem head?_shown {call : AuditedCall} {first : Event} (h : (call.shown query).head? = some first) :
    ∃ stamp, call.firstStamp query = some stamp ∧ Speaks call.audit stamp first := by
  unfold AuditedCall.shown at h
  rw [AuditedCall.firstStamp]
  cases hstart : call.shownStart query with
  | some stamp =>
    rw [hstart] at h
    obtain rfl := Option.some.inj h
    exact ⟨stamp, rfl, speaks_started call.audit stamp⟩
  | none =>
    rw [hstart] at h
    cases hend : call.shownEnd query with
    | none =>
      rw [hend] at h
      cases h
    | some ending =>
      rw [hend] at h
      obtain rfl := Option.some.inj h
      exact ⟨ending.2, rfl, speaks_endEvent call.audit ending.2 ending.1⟩

theorem readStr_nullable (v : Option Str) : (some (nullable v)).bind readStr = v := by
  cases v <;> rfl

theorem nullable_nullable (v : Option Str) : Nullable readStr (some (nullable v)) := by
  cases v with
  | none => exact .inr (.inl rfl)
  | some s => exact .inr (.inr ⟨_, rfl, s, rfl⟩)

theorem strsOf_refs (refs : List String) :
    strsOf (.arr (refs.map ofText)) = some (refs.map fun ref => str ref.toList) := by
  rw [strsOf]
  induction refs with
  | nil => rfl
  | cons ref refs ih =>
    rw [List.map_cons, List.mapM_cons, ih]
    rfl

/-- The time that pydantic reads is the one at which the event was written. -/
theorem Speaks.timeOf (h : Speaks audit stamp event) (hclock : Audit.Timed py va stamp.createdAt) :
    Timeline.timeOf va event = some ⟨stamp.createdAt, some 0⟩ := by
  rw [Timeline.timeOf, h.createdAt]
  exact hclock.validated

theorem Speaks.wellTyped (h : Speaks audit stamp event)
    (hcode : Nullable readStr (event.get "result_code"))
    (hretryable : Nullable boolOf (event.get "retryable")) : WellTyped event where
  name := by
    obtain ⟨name, hname⟩ := h.name
    exact .inr (.inr ⟨_, hname, name, rfl⟩)
  conversationId := by
    rw [h.conversationId]
    exact nullable_nullable _
  turnId := by
    rw [h.turnId]
    exact nullable_nullable _
  taskId := by
    rw [h.taskId]
    exact nullable_nullable _
  resultCode := hcode
  retryable := hretryable
  durationMs := by
    rw [h.durationMs]
    exact .inr (.inr ⟨_, rfl, stamp.durationMs, rfl⟩)
  resourceRefs := by
    rw [h.resourceRefs]
    exact .inr (.inr ⟨_, rfl, _, strsOf_refs audit.resourceRefs⟩)

theorem wellTyped_started (audit : AgentToolInvocationAudit) (stamp : Stamp) :
    WellTyped (audit.started stamp) :=
  (speaks_started audit stamp).wellTyped (.inl rfl) (.inl rfl)

theorem wellTyped_endEvent (audit : AgentToolInvocationAudit) (stamp : Stamp) (result : CallResult) :
    WellTyped (endEvent audit result stamp) := by
  have htells := tells_endEvent audit stamp result
  refine (speaks_endEvent audit stamp result).wellTyped ?_ ?_
  · rw [htells.resultCode]
    exact .inr (.inr ⟨_, rfl, _, rfl⟩)
  · rw [htells.retryable]
    exact .inr (.inr ⟨_, rfl, _, rfl⟩)

theorem shownStart_eq_some {stamp : Stamp} (h : call.shownStart query = some stamp) :
    call.loggedStart = some stamp := (Option.filter_eq_some_iff.mp h).1

theorem shownEnd_eq_some {ending : CallResult × Stamp} (h : call.shownEnd query = some ending) :
    call.loggedEnd = some ending := (Option.filter_eq_some_iff.mp h).1

theorem AuditedCall.Timed.firstStamp (h : call.Timed py va) {stamp : Stamp}
    (hstamp : call.firstStamp query = some stamp) : Audit.Timed py va stamp.createdAt := by
  rw [AuditedCall.firstStamp] at hstamp
  obtain hstart | ⟨-, hend⟩ := Option.or_eq_some_iff.mp hstamp
  · exact h.loggedStart (shownStart_eq_some query hstart)
  · obtain ⟨ending, hending, rfl⟩ := Option.map_eq_some_iff.mp hend
    exact h.loggedEnd (shownEnd_eq_some query hending)

/-- What is read from the event of an end, if there is one. -/
theorem told {α β : Type} {o : Option α} {event : α → Event} {read : Event → Option β} {value : α → β}
    (h : ∀ a, o = some a → read (event a) = some (value a)) :
    (o.map event).bind read = o.map value := by
  cases o with
  | none => rfl
  | some a => exact h a rfl

/-- An item that describes the events of a call reports the call. -/
theorem reports_of_describes (hclock : call.Timed py va) {first : Event}
    (hfirst : (call.shown query).head? = some first) {item : ToolInvocationTimelineItem}
    (hid : item.invocationId = call.audit.invocationId)
    (h : Describes py va first ((call.shownEnd query).map fun ending =>
      endEvent call.audit ending.1 ending.2) item) : Reports query call item := by
  obtain ⟨stamp, hstamp, hspeaks⟩ := head?_shown query hfirst
  have hstarted := h.startedAt
  rw [hspeaks.timeOf (hclock.firstStamp query hstamp)] at hstarted
  refine ⟨hid, ?_, ?_, ?_, ?_, ?_, ?_, ?_, ?_, ?_, ?_, ?_, ?_, ?_, ?_, ?_⟩
  · rw [h.traceId, textField_of_get hspeaks.traceId]
  · rw [h.agentRunId, textField_of_get hspeaks.agentRunId]
  · rw [h.conversationId, hspeaks.conversationId, readStr_nullable]
  · rw [h.turnId, hspeaks.turnId, readStr_nullable]
  · rw [h.taskId, hspeaks.taskId, readStr_nullable]
  · rw [h.agentName, textField_of_get hspeaks.agentName]
  · rw [h.toolName, textField_of_get hspeaks.toolName]
  · rw [h.actorCode, textField_of_get hspeaks.actorCode]
  · rw [h.resourceRefs, hspeaks.resourceRefs, Option.bind_some, strsOf_refs, Option.getD_some]
  · rw [hstamp, Option.map_some, ← Option.some.inj hstarted]
  · have hcompleted := h.completedAt
    cases hend : call.shownEnd query with
    | none =>
      rw [hend] at hcompleted
      exact Option.map_eq_none_iff.mp hcompleted.symm
    | some ending =>
      have htime := (speaks_endEvent call.audit ending.2 ending.1).timeOf
        (hclock.loggedEnd (shownEnd_eq_some query hend))
      rw [hend, Option.map_some, Option.map_some, htime] at hcompleted
      obtain ⟨t, ht, heq⟩ := Option.map_eq_some_iff.mp hcompleted.symm
      rw [ht, heq, Option.map_some]
  · rw [h.outcome, Option.map_map]
    exact Option.map_congr fun ending _ => (tells_endEvent call.audit ending.2 ending.1).outcome
  · rw [h.resultCode]
    refine told fun ending _ => ?_
    rw [(tells_endEvent call.audit ending.2 ending.1).resultCode]
    rfl
  · rw [h.retryable]
    refine told fun ending _ => ?_
    rw [(tells_endEvent call.audit ending.2 ending.1).retryable]
    rfl
  · rw [h.durationMs]
    refine told fun ending _ => ?_
    rw [(speaks_endEvent call.audit ending.2 ending.1).durationMs]
    rfl

/-! ## The whole way -/

/-- **The items tell of the calls**: each item reports a call that is asked for, and each of these has
one, if anything is shown of it. -/
structure TimelineOf (s : Trail) (items : List ToolInvocationTimelineItem) : Prop where
  nodup : (items.map (·.invocationId)).Nodup
  chronological : Chronological items
  reported : ∀ item ∈ items, ∃ i call, s.calls i = some call ∧ query.Asks field call.audit ∧
    Reports query call item
  complete : ∀ i call, s.calls i = some call → query.Asks field call.audit →
    call.shown query ≠ [] → ∃ item ∈ items, Reports query call item

variable {invocationId : Nat → Str} {s : Trail} {events : List Event}

/-- The events that the query shows of a call, in the order in which they are found. -/
theorem eventsOf_shown (hfaithful : Faithful py invocationId s)
    (hperm : events.Perm (s.log.filter ((query.logQuery field).shows py))) {i : Nat}
    (hcall : s.calls i = some call) (hclock : call.Timed py va) :
    (eventsOf py events call.audit.invocationId).Perm
      (if query.Asks field call.audit then call.shown query else []) := by
  have hfilter : eventsOf py (s.log.filter ((query.logQuery field).shows py))
      call.audit.invocationId = call.written.filter ((query.logQuery field).shows py) := by
    rw [← hfaithful.written i call hcall, hfaithful.id i call hcall]
    exact List.filter_comm ..
  rw [← filter_written query field hclock, ← hfilter]
  exact hperm.filter _

/-- An item of a call is asked for, and reports it. -/
theorem reports_of_paired (hfaithful : Faithful py invocationId s)
    (hperm : events.Perm (s.log.filter ((query.logQuery field).shows py)))
    {items : List ToolInvocationTimelineItem} (hpaired : Paired py va events items) {i : Nat}
    (hcall : s.calls i = some call) (hclock : call.Timed py va) {item : ToolInvocationTimelineItem}
    (hitem : item ∈ items) (hid : item.invocationId = call.audit.invocationId) :
    query.Asks field call.audit ∧ Reports query call item := by
  have hshown := eventsOf_shown query field hfaithful hperm hcall hclock
  obtain ⟨first, hfirst, hdescribes⟩ := hpaired.described item hitem
  rw [hid] at hfirst hdescribes
  split at hshown
  · next hasks =>
    obtain ⟨hidentity, hterminal⟩ := pairs_shown query hshown
    rw [hidentity] at hfirst
    rw [hterminal] at hdescribes
    exact ⟨hasks, reports_of_describes query hclock hfirst hid hdescribes⟩
  · obtain ⟨hmem, htext⟩ := mem_of_identityEvent hfirst
    have hin : first ∈ eventsOf py events call.audit.invocationId :=
      List.mem_filter.mpr ⟨hmem, decide_eq_true htext⟩
    rw [List.perm_nil.mp hshown] at hin
    cases hin

/-- An event of a call is one that the timeline can take. -/
theorem takes_of_written (hclock : call.Timed py va) (hevent : event ∈ call.written) :
    WellTyped event ∧ ∃ t, Timeline.timeOf va event = some t ∧ t.offset.isSome = true := by
  rcases List.mem_append.mp hevent with hevent | hevent
  · obtain ⟨stamp, hstamp, rfl⟩ := Option.map_eq_some_iff.mp (Option.mem_toList.mp hevent)
    have hspeaks := speaks_started call.audit stamp
    have htimed := hclock.loggedStart hstamp
    exact ⟨wellTyped_started call.audit stamp, ⟨_, hspeaks.timeOf htimed, rfl⟩⟩
  · obtain ⟨ending, hending, rfl⟩ := Option.map_eq_some_iff.mp (Option.mem_toList.mp hevent)
    have hspeaks := speaks_endEvent call.audit ending.2 ending.1
    have htimed := hclock.loggedEnd hending
    exact ⟨wellTyped_endEvent call.audit ending.2 ending.1, ⟨_, hspeaks.timeOf htimed, rfl⟩⟩

/-- **The timeline of a page has the calls**, if the page has all the events. -/
theorem timelineOf_paired (hids : ∀ i, invocationId i ≠ str [])
    (hfaithful : Faithful py invocationId s)
    (hclock : ∀ i call, s.calls i = some call → call.Timed py va)
    (hperm : events.Perm (s.log.filter ((query.logQuery field).shows py)))
    {items : List ToolInvocationTimelineItem} (hpaired : Paired py va events items) :
    TimelineOf query field s items where
  nodup := hpaired.nodup
  chronological := hpaired.chronological
  reported item hitem := by
    obtain ⟨-, event, hevent, htext⟩ := (hpaired.ids item.invocationId).mp (List.mem_map_of_mem hitem)
    obtain ⟨i, call, hcall, hwritten⟩ :=
      hfaithful.owner event (List.mem_filter.mp (hperm.mem_iff.mp hevent)).1
    have hid : item.invocationId = call.audit.invocationId := by
      rw [← htext, textField_written hwritten]
    obtain ⟨hasks, hreports⟩ := reports_of_paired query field hfaithful hperm hpaired hcall
      (hclock i call hcall) hitem hid
    exact ⟨i, call, hcall, hasks, hreports⟩
  complete i call hcall hasks hne := by
    have hshown := eventsOf_shown query field hfaithful hperm hcall (hclock i call hcall)
    rw [if_pos hasks] at hshown
    obtain ⟨event, hevent⟩ := List.exists_mem_of_ne_nil _ hne
    obtain ⟨hmem, htext⟩ := List.mem_filter.mp (hshown.mem_iff.mpr hevent)
    have hid : call.audit.invocationId ∈ items.map (·.invocationId) := by
      refine (hpaired.ids call.audit.invocationId).mpr ⟨?_, event, hmem, of_decide_eq_true htext⟩
      rw [hfaithful.id i call hcall]
      exact hids i
    obtain ⟨item, hitem, hsame⟩ := List.mem_map.mp hid
    exact ⟨item, hitem, (reports_of_paired query field hfaithful hperm hpaired hcall
      (hclock i call hcall) hitem hsame).2⟩

end

/-- **What the calls of a run have done is what the timeline answers.**  It always answers; it says
whether there is more than the limit, and if there is not, its items are the calls. -/
theorem timeline_tells {py : Python} {va : Validation} {invocationId : Nat → Str} {s : Trail}
    {source : JsonlLogSource} {fs : FileSystem} {query : ToolTimelineQuery} {field : TimelineField}
    (hinjective : Function.Injective invocationId) (hids : ∀ i, invocationId i ≠ str [])
    (hs : (machine invocationId).Reachable s)
    (hclock : ∀ i call, s.calls i = some call → call.Timed py va)
    (hfiles : (directoryEvents py source (fs source.directory)).Perm s.log)
    (hread : Readable py [source] fs (query.logQuery field)) (hlimit : 1 ≤ query.limit) :
    ∃ result, toolTimeline py va [source] fs query field = .ok result ∧
      result.identifier = query.identifier ∧
      (result.truncated = true ↔
        query.limit < (s.log.filter ((query.logQuery field).shows py)).length) ∧
      (result.truncated = false → TimelineOf query field s result.invocations) := by
  have hfaithful : Faithful py invocationId s := faithful_of_reachable hinjective hs
  have hfound := (matching_perm py (query.logQuery field) source fs).trans
    (hfiles.filter ((query.logQuery field).shows py))
  obtain ⟨page, hscan, hsubset, hall, hmore⟩ :=
    scan_first (q := query.logQuery field) hlimit hread
  have htakes : ∀ event ∈ page.events, WellTyped event ∧
      ∃ t, Timeline.timeOf va event = some t ∧ t.offset.isSome = true := by
    intro event hevent
    have hlog := (List.mem_filter.mp (hfound.mem_iff.mp (hsubset hevent))).1
    obtain ⟨i, call, hcall, hwritten⟩ := hfaithful.owner event hlog
    exact takes_of_written (hclock i call hcall) hwritten
  obtain ⟨items, hitems, hpaired⟩ :=
    (timeline_of_scan hscan fun event hevent => (htakes event hevent).1).mpr
      (comparable_of_all true fun event hevent => (htakes event hevent).2)
  refine ⟨⟨query.identifier, items, page.nextCursor.isSome⟩, ?_, rfl, ?_, fun hnot => ?_⟩
  · unfold toolTimeline
    rw [hscan]
    show ((aggregateInvocations py va page.events).mapError ToolTimelineError.timeline).bind
      (fun invocations => .ok (⟨query.identifier, invocations, page.nextCursor.isSome⟩ :
        ToolTimelineResult)) = _
    rw [hitems]
    rfl
  · rw [← hfound.length_eq, List.length_map]
    exact hmore
  · have hlast := hall (Option.not_isSome_iff_eq_none.mp (Bool.eq_false_iff.mp hnot))
    exact timelineOf_paired query field hids hfaithful hclock (hlast.trans hfound) hpaired

/-! ## A call that ends -/

def sampleContext : AgentToolContext where
  traceId := str "trace".toList
  agentRunId := str "run".toList
  conversationId := none
  turnId := none
  taskId := some (str "task".toList)
  workflowId := none
  executionId := none
  operationId := none
  attempt := 1
  agentName := str "agent".toList
  actorCode := str "user".toList
  permissions := ∅

/-- The ids of the invocations have different lengths. -/
def sampleId (i : Nat) : Str := str (List.replicate (i + 1) 'i')

def sampleStamp : Stamp := ⟨str "event".toList, 0, newYear, true⟩

def sampleAudit : AgentToolInvocationAudit :=
  ⟨sampleContext, str "search".toList, ["doc_1"], sampleId 0⟩

/-- The call lacks a permission. -/
def rejectedCall : AuditedCall where
  audit := sampleAudit
  requiredPermissions := ["document.read"]
  successResultCode := "found"
  started := sampleStamp
  ended := some (.error (classifyToolError agentToolPermissionError ["doc_1"]), sampleStamp)

def rejectedTrail : Trail where
  log := rejectedCall.written
  calls := Function.update (Function.update (fun _ => none) 0
    (some { rejectedCall with ended := none })) 0 (some rejectedCall)

theorem reachable_rejectedTrail : (machine sampleId).Reachable rejectedTrail := by
  have hstart : (machine sampleId).step ⟨[], fun _ => none⟩
      (.start 0 sampleContext (str "search".toList) ["document.read"] ["doc_1"] "found" sampleStamp) =
      some ⟨[sampleAudit.started sampleStamp], Function.update (fun _ => none) 0
        (some { rejectedCall with ended := none })⟩ := rfl
  have hfinish : (machine sampleId).step ⟨[sampleAudit.started sampleStamp],
      Function.update (fun _ => none) 0 (some { rejectedCall with ended := none })⟩
      (.finish 0 (.ok ()) sampleStamp) = some rejectedTrail := rfl
  exact .step (.step (.init ⟨rfl, fun _ => rfl⟩) trivial hstart) trivial hfinish

def toolSource : JsonlLogSource := ⟨str "agent_tools".toList, "agent_tools", str "agent-tool".toList⟩

/-- The writing of an event of the call. -/
def writeCall (event : Event) : WriteCall :=
  ⟨str "agent-tool".toList, newYear, newYear, event, none⟩

def rejectedFile : LogFile where
  name := str "agent-tool-2026-01-01.jsonl".toList
  isSymlink := false
  isFile := true
  inDirectory := true
  content := some (toUtf8 (rejectedCall.written.flatMap fun event => (writeCall event).line))

def rejectedFiles : FileSystem := fun _ => .entries ⟨[rejectedFile], List.nodup_singleton _⟩

def taskQuery : ToolTimelineQuery := ⟨str "task".toList, [], [], none, none, 500⟩

theorem timed_newYear : Audit.Timed timelinePython timelineValidation newYear :=
  ⟨by unfold ReadsTime; rfl, rfl⟩

theorem calls_rejectedTrail {i : Nat} {call : AuditedCall}
    (h : rejectedTrail.calls i = some call) : call = rejectedCall := by
  have hcalls : rejectedTrail.calls i = if i = 0 then some rejectedCall else if i = 0 then
      some { rejectedCall with ended := none } else none := by
    show Function.update _ 0 _ i = _
    rw [Function.update_apply, Function.update_apply]
  rw [hcalls] at h
  split at h
  · exact (Option.some.inj h).symm
  · cases h

theorem timed_rejectedTrail : ∀ i call, rejectedTrail.calls i = some call →
    call.Timed timelinePython timelineValidation := by
  intro i call hcall
  rw [calls_rejectedTrail hcall]
  refine ⟨timed_newYear, fun ending hending => ?_⟩
  obtain rfl := Option.some.inj hending
  exact timed_newYear

/-- The events of the call can be written on a line and read back. -/
theorem sound_rejected : ∀ event ∈ rejectedCall.written, Json.Sound (.obj event) := by
  have hstr : ∀ s : Text, Json.Encodable (str s) := by
    intro s c hc
    obtain ⟨ch, -, rfl⟩ := List.mem_map.mp hc
    exact (toNat_valid ch).2
  have hwritten : rejectedCall.written = [sampleAudit.started sampleStamp,
      endEvent sampleAudit (.error (classifyToolError agentToolPermissionError ["doc_1"]))
        sampleStamp] := rfl
  rw [hwritten, List.forall_mem_cons, List.forall_mem_singleton]
  constructor <;> repeat' first | exact hstr _ | exact trivial | refine ⟨?_, ?_⟩

theorem time_rejected : ∀ event ∈ rejectedCall.written,
    Event.time timelinePython event = some newYear := by
  intro event hevent
  rcases List.mem_append.mp hevent with hevent | hevent
  · obtain rfl := List.mem_singleton.mp hevent
    exact (speaks_started sampleAudit sampleStamp).time timed_newYear.scanned
  · obtain rfl := List.mem_singleton.mp hevent
    exact (speaks_endEvent sampleAudit sampleStamp _).time timed_newYear.scanned

/-- The lines of a file that was written. -/
theorem textLines_written {events : List Event}
    (h : ∀ event ∈ events, Json.Sound (.obj event)) :
    textLines (events.flatMap fun event => (writeCall event).line) =
      events.map fun event => (writeCall event).line := by
  induction events with
  | nil => rfl
  | cons event events ih =>
    rw [List.forall_mem_cons] at h
    have hline : textLines (writeCall event).line = [(writeCall event).line] :=
      WriteCall.textLines_line h.1
    have hclosed : Closed (writeCall event).line := closed_append_newline _
    rw [List.flatMap_cons, textLines_append hclosed, hline, ih h.2]
    rfl

theorem payload_writeCall {call : AuditedCall} {event : Event} (h : event ∈ call.written) :
    (writeCall event).payload = event := by
  obtain ⟨stamp, hspeaks⟩ := speaks_of_written h
  exact WriteCall.payload_of_some hspeaks.createdAt

theorem loads_rejected {event : Event} (h : event ∈ rejectedCall.written) :
    Json.loads (writeCall event).line = some (.obj event) := by
  have hloads : Json.loads (writeCall event).line = some (.obj (writeCall event).payload) :=
    WriteCall.loads_line (sound_rejected event h)
  rw [hloads, payload_writeCall h]

theorem isRead_rejectedFile : isRead toolSource rejectedFile = true := by decide +kernel

theorem textLines_rejectedFile :
    textLines (rejectedCall.written.flatMap fun event => (writeCall event).line) =
      rejectedCall.written.map fun event => (writeCall event).line :=
  textLines_written sound_rejected

/-- The file has the events of the log. -/
theorem events_rejectedFiles :
    directoryEvents timelinePython toolSource (rejectedFiles toolSource.directory) =
      rejectedTrail.log := by
  have hline : ∀ event ∈ rejectedCall.written,
      eventOfLine timelinePython (writeCall event).line = some event := by
    intro event hevent
    rw [eventOfLine, loads_rejected hevent]
    simp only [time_rejected event hevent, Option.isSome_some, if_true]
  have hcontent : contentEvents timelinePython rejectedFile = rejectedCall.written := by
    rw [contentEvents, rejectedFile, Option.bind_some, ofUtf8_toUtf8, Option.map_some,
      Option.getD_some, textEvents, textLines_rejectedFile, List.filterMap_map]
    exact (List.filterMap_congr hline).trans (List.filterMap_some ..)
  show ([rejectedFile].filter (isRead toolSource)).flatMap (contentEvents timelinePython) = _
  rw [List.filter_cons_of_pos isRead_rejectedFile, List.filter_nil, List.flatMap_singleton, hcontent]
  rfl

theorem readable_rejectedFiles :
    Readable timelinePython [toolSource] rejectedFiles (taskQuery.logQuery .taskId) := by
  refine readable_entries_iff.mpr fun file hfile _ => ?_
  obtain rfl := List.mem_singleton.mp hfile
  refine ⟨_, _, rfl, ofUtf8_toUtf8 _, fun line hline => ?_⟩
  rw [textLines_rejectedFile] at hline
  obtain ⟨event, hevent, rfl⟩ := List.mem_map.mp hline
  refine (lineReadable_iff rfl (loads_rejected hevent) (time_rejected event hevent)).mp ?_
  obtain ⟨stamp, hspeaks⟩ := speaks_of_written hevent
  refine ⟨⟨?_, ?_⟩, fun _ _ => ?_⟩
  · intro b hb
    cases hb
  · intro _ b hb
    cases hb
  · rw [hspeaks.predicate taskQuery .taskId]
    exact Option.some_ne_none _

theorem timeline_tells_rejected :
    ∃ result, toolTimeline timelinePython timelineValidation [toolSource] rejectedFiles taskQuery
        .taskId = .ok result ∧ result.identifier = taskQuery.identifier ∧
      (result.truncated = true ↔ taskQuery.limit < (rejectedTrail.log.filter
        ((taskQuery.logQuery .taskId).shows timelinePython)).length) ∧
      (result.truncated = false →
        TimelineOf taskQuery .taskId rejectedTrail result.invocations) := by
  have hinjective : Function.Injective sampleId := by
    intro i j h
    have hlength := congrArg (fun s => s.codes.length) h
    simp only [sampleId, str, codes, List.length_map, List.length_replicate] at hlength
    omega
  have hids : ∀ i, sampleId i ≠ str [] := by
    intro i h
    have hlength := congrArg (fun s => s.codes.length) h
    simp only [sampleId, str, codes, List.length_map, List.length_replicate] at hlength
    cases hlength
  have hfiles := List.Perm.of_eq events_rejectedFiles
  exact timeline_tells hinjective hids reachable_rejectedTrail timed_rejectedTrail hfiles
    readable_rejectedFiles (by decide)

end Audit

end DocFlow.Operations
