import DocFlow.Lib.Table
import DocFlow.Operations.LogPages

/-!
# The timeline of the tool calls

`_aggregate_invocations`: the started and the terminal events of the tool calls, paired by their
invocation ids.

What pydantic makes of a value is an argument (`Validation`).  It need not take every time that a scan
takes, and two times can be compared only if both have an offset or both have none.

* `Grouped.addEvent`: what one event does to the record of its invocation.
* `sortItems_eq_ok`: what the sort gives, and when it does.
* `aggregateInvocations_paired_iff`: the items pair the events exactly when the times are accepted and
  can be compared.
-/

namespace DocFlow.Operations

open Text Calendar

namespace Timeline

/-! ## Fields -/

/-- `str(event.get(key) or "")`. -/
def textField (py : Python) (event : Event) (key : String) : Str :=
  match event.get key with
  | none => str []
  | some .null => str []
  | some (.str s) => s
  | some v => py.textOf v

structure Validation where
  /-- a `datetime`; `none` is a `ValidationError` -/
  datetime : Json → Option ParsedTime
  /-- a `bool`, of a value that is none -/
  bool : Json → Option Bool
  /-- an `int`, of a value that is none -/
  int : Json → Option Int
  /-- `list(value or [])`, of a value that is no list; `none` is a `TypeError` -/
  listOf : Json → Option (List Json)

inductive TimelineError
  /-- `KeyError` -/
  | key
  /-- `TypeError` -/
  | type
  /-- `ValidationError` -/
  | validation
deriving DecidableEq, Repr

def readStr : Json → Option Str
  | .str s => some s
  | _ => none

def Validation.readBool (va : Validation) : Json → Option Bool
  | .bool b => some b
  | v => va.bool v

def Validation.readInt (va : Validation) : Json → Option Int
  | .int n => some n
  | v => va.int v

/-- A field that is there. -/
def required {α : Type} (read : Json → Option α) (v : Json) : Except TimelineError α :=
  match read v with
  | none => .error .validation
  | some a => .ok a

/-- A field that may be `None`. -/
def optional {α : Type} (read : Json → Option α) : Option Json → Except TimelineError (Option α)
  | none => .ok none
  | some .null => .ok none
  | some v => some <$> required read v

/-- `list(value or [])`. -/
def Validation.readList (va : Validation) : Option Json → Except TimelineError (List Json)
  | none => .ok []
  | some .null => .ok []
  | some (.arr items) => .ok items
  | some v =>
    match va.listOf v with
    | none => .error .type
    | some items => .ok items

/-- `s.removeprefix(start)`. -/
def removePrefix (start : Codes) (s : Str) : Str :=
  if start.isPrefixOf s.codes then
    { codes := s.codes.drop start.length
      bound := fun c hc => s.bound c (List.mem_of_mem_drop hc)
      unpaired := List.IsChain.drop s.unpaired _ }
  else s

/-! ## Invocations -/

/-- `event.get("event")`, if it is a string. -/
def eventName (event : Event) : Str :=
  match event.get "event" with
  | some (.str s) => s
  | _ => str []

def isStarted (event : Event) : Bool :=
  eventName event = str "agent_tool_invocation_started".toList

def isTerminal (event : Event) : Bool :=
  [str "agent_tool_invocation_succeeded".toList, str "agent_tool_invocation_rejected".toList,
    str "agent_tool_invocation_failed".toList].contains (eventName event)

/-- `str(terminal["event"]).removeprefix("agent_tool_invocation_")`. -/
def outcomeOf (terminal : Event) : Str :=
  removePrefix (codes "agent_tool_invocation_".toList) (eventName terminal)

structure Invocation where
  invocationId : Str
  first : Event
  /-- `event["created_at"]` -/
  startedAt : Json
  terminal : Option Event

/-- The record of an invocation, after one more of its events. -/
def Invocation.see (current : Invocation) (event : Event) (createdAt : Json) : Invocation :=
  if isStarted event = true then { current with first := event, startedAt := createdAt }
  else if isTerminal event = true then { current with terminal := some event }
  else current

/-- The records, in the order of their first events. -/
abbrev Invocations := Table Invocation.invocationId

/-- The loop over the events, at one of them. -/
def addEvent (py : Python) (grouped : Invocations) (event : Event) :
    Except TimelineError Invocations :=
  let invocationId := textField py event "invocation_id"
  if invocationId = str [] then .ok grouped
  else
    match event.get "created_at" with
    | none => .error .key
    | some createdAt =>
      let current := (grouped.get? invocationId).getD ⟨invocationId, event, createdAt, none⟩
      if (event.get "event").all isHashable = true then
        .ok (grouped.put (current.see event createdAt))
      else .error .type

/-! ## Items -/

structure ToolInvocationTimelineItem where
  invocationId : Str
  traceId : Str
  agentRunId : Str
  conversationId : Option Str
  turnId : Option Str
  taskId : Option Str
  agentName : Str
  toolName : Str
  actorCode : Str
  resourceRefs : List Str
  startedAt : ParsedTime
  completedAt : Option ParsedTime
  outcome : Option Str
  resultCode : Option Str
  retryable : Option Bool
  durationMs : Option Int
deriving DecidableEq

/-- The item of an invocation. -/
def toItem (py : Python) (va : Validation) (current : Invocation) :
    Except TimelineError ToolInvocationTimelineItem := do
  let first := current.first
  let terminal (key : String) : Option Json := current.terminal.bind fun event => event.get key
  let resourceRefs ← va.readList (first.get "resource_refs")
  return {
    invocationId := current.invocationId
    traceId := textField py first "trace_id"
    agentRunId := textField py first "agent_run_id"
    conversationId := ← optional readStr (first.get "conversation_id")
    turnId := ← optional readStr (first.get "turn_id")
    taskId := ← optional readStr (first.get "task_id")
    agentName := textField py first "agent_name"
    toolName := textField py first "tool_name"
    actorCode := textField py first "actor_code"
    resourceRefs := ← resourceRefs.mapM (required readStr)
    startedAt := ← required va.datetime current.startedAt
    completedAt := ← optional va.datetime (terminal "created_at")
    outcome := current.terminal.map outcomeOf
    resultCode := ← optional readStr (terminal "result_code")
    retryable := ← optional va.readBool (terminal "retryable")
    durationMs := ← optional va.readInt (terminal "duration_ms") }

/-- `a.started_at < b.started_at`; a time with an offset is not compared with one without. -/
def startsBefore (a b : ToolInvocationTimelineItem) : Except TimelineError Bool :=
  if a.startedAt.offset.isSome = b.startedAt.offset.isSome then
    .ok (a.startedAt.instant < b.startedAt.instant)
  else .error .type

def insertItem (item : ToolInvocationTimelineItem) :
    List ToolInvocationTimelineItem → Except TimelineError (List ToolInvocationTimelineItem)
  | [] => .ok [item]
  | other :: items => do
    if ← startsBefore item other then return item :: other :: items
    else return other :: (← insertItem item items)

/-- `sorted(items, key=lambda item: item.started_at)`. -/
def sortItems (items : List ToolInvocationTimelineItem) :
    Except TimelineError (List ToolInvocationTimelineItem) :=
  items.foldlM (fun sorted item => insertItem item sorted) []

/-- `_aggregate_invocations`. -/
def aggregateInvocations (py : Python) (va : Validation) (events : List Event) :
    Except TimelineError (List ToolInvocationTimelineItem) := do
  let grouped ← events.foldlM (addEvent py) Table.empty
  let items ← grouped.rows.mapM (toItem py va)
  sortItems items

/-! ## The events of an invocation -/

def eventsOf (py : Python) (events : List Event) (invocationId : Str) : List Event :=
  events.filter fun event => textField py event "invocation_id" = invocationId

/-- The last started event, or the first event if there is none. -/
def identityEvent (py : Python) (events : List Event) (invocationId : Str) : Option Event :=
  ((eventsOf py events invocationId).filter isStarted).getLast?.or
    (eventsOf py events invocationId).head?

/-- The last terminal event. -/
def terminalEvent (py : Python) (events : List Event) (invocationId : Str) : Option Event :=
  ((eventsOf py events invocationId).filter isTerminal).getLast?

theorem eventsOf_concat (py : Python) (events : List Event) (event : Event) (invocationId : Str) :
    eventsOf py (events ++ [event]) invocationId =
      if textField py event "invocation_id" = invocationId then eventsOf py events invocationId ++ [event]
      else eventsOf py events invocationId := by
  unfold eventsOf
  rw [List.filter_append, List.filter_singleton]
  split <;> simp_all

theorem identityEvent_concat (py : Python) (events : List Event) (event : Event) :
    identityEvent py (events ++ [event]) (textField py event "invocation_id") =
      if isStarted event = true then some event
      else (identityEvent py events (textField py event "invocation_id")).or (some event) := by
  unfold identityEvent
  rw [eventsOf_concat, if_pos rfl, List.filter_append, List.head?_append]
  by_cases hstarted : isStarted event = true
  · rw [if_pos hstarted, List.filter_cons_of_pos hstarted, List.filter_nil, List.getLast?_concat,
      Option.some_or]
  · rw [if_neg hstarted, List.filter_cons_of_neg hstarted, List.filter_nil, List.append_nil,
      Option.or_assoc]
    rfl

theorem terminalEvent_concat (py : Python) (events : List Event) (event : Event) :
    terminalEvent py (events ++ [event]) (textField py event "invocation_id") =
      if isTerminal event = true then some event
      else terminalEvent py events (textField py event "invocation_id") := by
  unfold terminalEvent
  rw [eventsOf_concat, if_pos rfl, List.filter_append]
  by_cases hterminal : isTerminal event = true
  · rw [if_pos hterminal, List.filter_cons_of_pos hterminal, List.filter_nil, List.getLast?_concat]
  · rw [if_neg hterminal, List.filter_cons_of_neg hterminal, List.filter_nil, List.append_nil]

theorem events_concat_ne {py : Python} {event : Event} {invocationId : Str}
    (hne : textField py event "invocation_id" ≠ invocationId) (events : List Event) :
    identityEvent py (events ++ [event]) invocationId = identityEvent py events invocationId ∧
      terminalEvent py (events ++ [event]) invocationId = terminalEvent py events invocationId := by
  unfold identityEvent terminalEvent
  rw [eventsOf_concat, if_neg hne]
  exact ⟨rfl, rfl⟩

theorem mem_of_identityEvent {py : Python} {events : List Event} {invocationId : Str} {event : Event}
    (h : identityEvent py events invocationId = some event) :
    event ∈ events ∧ textField py event "invocation_id" = invocationId := by
  have hmem : event ∈ eventsOf py events invocationId := by
    obtain hlast | ⟨-, hhead⟩ := Option.or_eq_some_iff.mp h
    · exact (List.mem_filter.mp (List.mem_of_getLast? hlast)).1
    · exact List.mem_of_head? hhead
  have hfilter := List.mem_filter.mp hmem
  exact ⟨hfilter.1, of_decide_eq_true hfilter.2⟩

theorem mem_of_terminalEvent {py : Python} {events : List Event} {invocationId : Str} {event : Event}
    (h : terminalEvent py events invocationId = some event) : event ∈ events :=
  (List.mem_filter.mp (List.mem_filter.mp (List.mem_of_getLast? h)).1).1

theorem eventsOf_eq_nil {py : Python} {events : List Event} {invocationId : Str}
    (h : identityEvent py events invocationId = none) : eventsOf py events invocationId = [] :=
  List.head?_eq_none_iff.mp (Option.or_eq_none_iff.mp h).2

theorem exists_identityEvent {py : Python} {events : List Event} {invocationId : Str} :
    (∃ event, identityEvent py events invocationId = some event) ↔
      ∃ event ∈ events, textField py event "invocation_id" = invocationId := by
  constructor
  · rintro ⟨event, h⟩
    exact ⟨event, mem_of_identityEvent h⟩
  · rintro ⟨event, hmem, hid⟩
    cases h : identityEvent py events invocationId with
    | some first => exact ⟨first, rfl⟩
    | none =>
      have hin : event ∈ eventsOf py events invocationId :=
        List.mem_filter.mpr ⟨hmem, decide_eq_true hid⟩
      rw [eventsOf_eq_nil h] at hin
      cases hin

theorem exists_identityEvent_of_terminal {py : Python} {events : List Event} {invocationId : Str}
    {event : Event} (h : terminalEvent py events invocationId = some event) :
    ∃ first, identityEvent py events invocationId = some first := by
  have hmem := (List.mem_filter.mp (List.mem_of_getLast? h)).1
  cases hfirst : identityEvent py events invocationId with
  | some first => exact ⟨first, rfl⟩
  | none =>
    rw [eventsOf_eq_nil hfirst] at hmem
    cases hmem

/-! ## The records -/

/-- The record that the events of an invocation should leave. -/
def invocationOf (py : Python) (events : List Event) (invocationId : Str) : Option Invocation :=
  if invocationId = str [] then none
  else
    (identityEvent py events invocationId).bind fun first =>
      (first.get "created_at").map fun startedAt =>
        ⟨invocationId, first, startedAt, terminalEvent py events invocationId⟩

/-- Every record is the one of its invocation. -/
def Grouped (py : Python) (events : List Event) (grouped : Invocations) : Prop :=
  ∀ current, current ∈ grouped ↔ invocationOf py events current.invocationId = some current

variable {py : Python} {events : List Event} {grouped : Invocations} {event : Event}

theorem not_started_of_terminal (h : isTerminal event = true) : isStarted event = false := by
  rw [isTerminal, List.contains_iff_mem] at h
  simp only [List.mem_cons, List.not_mem_nil, or_false] at h
  unfold isStarted
  obtain h | h | h := h <;> rw [h] <;> decide +kernel

theorem invocationId_see (current : Invocation) (event : Event) (createdAt : Json) :
    (current.see event createdAt).invocationId = current.invocationId := by
  unfold Invocation.see
  split
  · rfl
  · split <;> rfl

theorem invocationOf_eq_some {invocationId : Str} {current : Invocation}
    (h : invocationOf py events invocationId = some current) :
    invocationId ≠ str [] ∧ current.invocationId = invocationId ∧
      identityEvent py events invocationId = some current.first ∧
      Event.get current.first "created_at" = some current.startedAt ∧
      current.terminal = terminalEvent py events invocationId := by
  unfold invocationOf at h
  by_cases hid : invocationId = str []
  · rw [if_pos hid] at h
    cases h
  · rw [if_neg hid] at h
    obtain ⟨first, hfirst, hmap⟩ := Option.bind_eq_some_iff.mp h
    obtain ⟨startedAt, hat, rfl⟩ := Option.map_eq_some_iff.mp hmap
    exact ⟨hid, rfl, hfirst, hat, rfl⟩

theorem Grouped.get? (h : Grouped py events grouped) (invocationId : Str) :
    grouped.get? invocationId = invocationOf py events invocationId := by
  ext current
  rw [Table.get?_eq_some, h current]
  constructor
  · rintro ⟨hcurrent, rfl⟩
    exact hcurrent
  · intro hcurrent
    rw [(invocationOf_eq_some hcurrent).2.1]
    exact ⟨hcurrent, rfl⟩

/-- What the events of an invocation leave, after one more. -/
theorem invocationOf_concat {createdAt : Json}
    (hdated : ∀ e ∈ events, ∃ v, e.get "created_at" = some v)
    (hid : textField py event "invocation_id" ≠ str []) (hat : event.get "created_at" = some createdAt) :
    invocationOf py (events ++ [event]) (textField py event "invocation_id") =
      some (((invocationOf py events (textField py event "invocation_id")).getD
        ⟨textField py event "invocation_id", event, createdAt, none⟩).see event createdAt) := by
  unfold invocationOf
  rw [if_neg hid, if_neg hid, identityEvent_concat, terminalEvent_concat]
  cases hfirst : identityEvent py events (textField py event "invocation_id") with
  | none =>
    have hnone : terminalEvent py events (textField py event "invocation_id") = none := by
      rw [terminalEvent, eventsOf_eq_nil hfirst]
      rfl
    rw [Option.bind_none, Option.getD_none, Option.none_or, ite_self, Option.bind_some, hat, hnone]
    unfold Invocation.see
    by_cases hstarted : isStarted event = true
    · have hterminal : ¬ isTerminal event = true := fun h => by
        rw [not_started_of_terminal h] at hstarted
        cases hstarted
      rw [if_pos hstarted, if_neg hterminal]
      rfl
    · rw [if_neg hstarted]
      split <;> rfl
  | some first =>
    obtain ⟨startedAt, hstartedAt⟩ := hdated first (mem_of_identityEvent hfirst).1
    rw [Option.bind_some, hstartedAt, Option.map_some, Option.getD_some, Option.some_or]
    unfold Invocation.see
    by_cases hstarted : isStarted event = true
    · have hterminal : ¬ isTerminal event = true := fun h => by
        rw [not_started_of_terminal h] at hstarted
        cases hstarted
      rw [if_pos hstarted, if_pos hstarted, if_neg hterminal, Option.bind_some, hat]
      rfl
    · rw [if_neg hstarted, if_neg hstarted, Option.bind_some, hstartedAt]
      split <;> rfl

/-- **One event changes the record of its invocation**, and no other. -/
theorem Grouped.addEvent (h : Grouped py events grouped)
    (hdated : ∀ e ∈ events ++ [event], ∃ v, e.get "created_at" = some v)
    (hhashable : (event.get "event").all isHashable = true) :
    ∃ grouped', addEvent py grouped event = .ok grouped' ∧ Grouped py (events ++ [event]) grouped' := by
  obtain ⟨createdAt, hat⟩ := hdated event (List.mem_append_right _ (List.mem_singleton.mpr rfl))
  have hframe : ∀ {invocationId : Str}, textField py event "invocation_id" ≠ invocationId →
      invocationOf py (events ++ [event]) invocationId = invocationOf py events invocationId := by
    intro invocationId hne
    obtain ⟨hfirst, hterminal⟩ := events_concat_ne hne events
    unfold invocationOf
    rw [hfirst, hterminal]
  unfold Timeline.addEvent
  by_cases hid : textField py event "invocation_id" = str []
  · refine ⟨grouped, if_pos hid, fun current => ?_⟩
    rw [h current]
    by_cases hcurrent : current.invocationId = str []
    · unfold invocationOf
      rw [if_pos hcurrent, if_pos hcurrent]
    · rw [hframe fun heq => hcurrent (heq.symm.trans hid)]
  · simp only [if_neg hid, hat, if_pos hhashable]
    refine ⟨_, rfl, fun current => ?_⟩
    have hnew := invocationOf_concat (fun e he => hdated e (List.mem_append_left _ he)) hid hat
    rw [← h.get?] at hnew
    have hkey : (((grouped.get? (textField py event "invocation_id")).getD
        ⟨textField py event "invocation_id", event, createdAt, none⟩).see event createdAt).invocationId =
        textField py event "invocation_id" := by
      rw [invocationId_see]
      cases hget : grouped.get? (textField py event "invocation_id") with
      | none => rfl
      | some found => exact Table.key_of_get? hget
    rw [Table.mem_put, hkey]
    constructor
    · rintro (rfl | ⟨hmem, hne⟩)
      · rw [hkey]
        exact hnew
      · rw [hframe (Ne.symm hne)]
        exact (h current).mp hmem
    · intro hcurrent
      by_cases hsame : current.invocationId = textField py event "invocation_id"
      · rw [hsame, hnew] at hcurrent
        exact .inl (Option.some.inj hcurrent).symm
      · rw [hframe (Ne.symm hsame)] at hcurrent
        exact .inr ⟨(h current).mpr hcurrent, hsame⟩

/-- The loop leaves the record of every invocation. -/
theorem exists_grouped (py : Python) (hdated : ∀ e ∈ events, ∃ v, e.get "created_at" = some v)
    (hhashable : ∀ e ∈ events, (Event.get e "event").all isHashable = true) :
    ∃ grouped, events.foldlM (Timeline.addEvent py) Table.empty = .ok grouped ∧
      Grouped py events grouped := by
  induction events using List.reverseRecOn with
  | nil =>
    refine ⟨Table.empty, rfl, fun current => ?_⟩
    refine iff_of_false (Table.not_mem_empty current) fun h => ?_
    unfold invocationOf at h
    split at h
    · cases h
    · cases h
  | append_singleton events event ih =>
    obtain ⟨grouped, hok, hgrouped⟩ := ih (fun e he => hdated e (List.mem_append_left _ he))
      fun e he => hhashable e (List.mem_append_left _ he)
    obtain ⟨grouped', hadd, hgrouped'⟩ := hgrouped.addEvent hdated
      (hhashable event (List.mem_append_right _ (List.mem_singleton.mpr rfl)))
    refine ⟨grouped', ?_, hgrouped'⟩
    simp only [List.foldlM_append, List.foldlM_cons, List.foldlM_nil, bind_pure, hok]
    exact hadd

/-! ## The sort -/

variable {item : ToolInvocationTimelineItem} {items sorted : List ToolInvocationTimelineItem}

/-- All the times have an offset, or none has. -/
def Alike (items : List ToolInvocationTimelineItem) : Prop :=
  ∀ a ∈ items, ∀ b ∈ items, a.startedAt.offset.isSome = b.startedAt.offset.isSome

/-- The items are in the order of their times. -/
def Chronological (items : List ToolInvocationTimelineItem) : Prop :=
  items.Pairwise fun a b => a.startedAt.instant ≤ b.startedAt.instant

/-- The sort compares an item with the first one at least. -/
theorem insertItem_eq_ok (h : insertItem item items = .ok sorted) (hitems : Chronological items) :
    sorted.Perm (item :: items) ∧ Chronological sorted ∧
      ∀ first ∈ items.head?, item.startedAt.offset.isSome = first.startedAt.offset.isSome := by
  induction items generalizing sorted with
  | nil =>
    cases h
    exact ⟨List.Perm.refl _, List.pairwise_singleton _ _, fun first hfirst => by cases hfirst⟩
  | cons other items ih =>
    unfold Chronological at hitems
    rw [List.pairwise_cons] at hitems
    rw [insertItem, startsBefore] at h
    by_cases hsame : item.startedAt.offset.isSome = other.startedAt.offset.isSome
    · have hhead : ∀ first ∈ (other :: items).head?,
          item.startedAt.offset.isSome = first.startedAt.offset.isSome := by
        rintro _ ⟨⟩
        exact hsame
      rw [if_pos hsame] at h
      by_cases hlt : item.startedAt.instant < other.startedAt.instant
      · rw [decide_eq_true hlt] at h
        cases h
        refine ⟨List.Perm.refl _, List.Pairwise.cons ?_ (List.Pairwise.cons hitems.1 hitems.2), hhead⟩
        intro later hlater
        obtain rfl | hlater := List.mem_cons.mp hlater
        · exact hlt.le
        · exact hlt.le.trans (hitems.1 later hlater)
      · rw [decide_eq_false hlt] at h
        cases hrest : insertItem item items with
        | error e =>
          rw [hrest] at h
          cases h
        | ok rest =>
          rw [hrest] at h
          cases h
          obtain ⟨hperm, hchronological, -⟩ := ih hrest hitems.2
          refine ⟨(hperm.cons other).trans (List.Perm.swap item other items),
            List.Pairwise.cons ?_ hchronological, hhead⟩
          intro later hlater
          obtain rfl | hlater := List.mem_cons.mp (hperm.mem_iff.mp hlater)
          · exact not_lt.mp hlt
          · exact hitems.1 later hlater
    · rw [if_neg hsame] at h
      cases h

theorem exists_insertItem
    (h : ∀ other ∈ items, item.startedAt.offset.isSome = other.startedAt.offset.isSome) :
    ∃ sorted, insertItem item items = .ok sorted := by
  induction items with
  | nil => exact ⟨[item], rfl⟩
  | cons other items ih =>
    rw [List.forall_mem_cons] at h
    obtain ⟨rest, hrest⟩ := ih h.2
    rw [insertItem, startsBefore, if_pos h.1, hrest]
    by_cases hlt : item.startedAt.instant < other.startedAt.instant
    · rw [decide_eq_true hlt]
      exact ⟨_, rfl⟩
    · rw [decide_eq_false hlt]
      exact ⟨_, rfl⟩

theorem sortItems_concat (items : List ToolInvocationTimelineItem)
    (item : ToolInvocationTimelineItem) :
    sortItems (items ++ [item]) = (do insertItem item (← sortItems items)) := by
  unfold sortItems
  simp only [List.foldlM_append, List.foldlM_cons, List.foldlM_nil, bind_pure]

/-- **The sort puts the items in order**, and they can be compared. -/
theorem sortItems_eq_ok (h : sortItems items = .ok sorted) :
    sorted.Perm items ∧ Chronological sorted ∧ Alike items := by
  induction items using List.reverseRecOn generalizing sorted with
  | nil =>
    cases h
    exact ⟨List.Perm.refl _, List.Pairwise.nil, fun a ha => by cases ha⟩
  | append_singleton items item ih =>
    rw [sortItems_concat] at h
    cases hsort : sortItems items with
    | error e =>
      rw [hsort] at h
      cases h
    | ok middle =>
      rw [hsort] at h
      obtain ⟨hperm, hchronological, halike⟩ := ih hsort
      obtain ⟨hinsert, hsorted, hhead⟩ := insertItem_eq_ok h hchronological
      refine ⟨hinsert.trans ((hperm.cons item).trans (List.perm_append_singleton item items).symm),
        hsorted, ?_⟩
      -- the new item is like the first one, and that one is like the others
      have hall : ∀ other ∈ items,
          item.startedAt.offset.isSome = other.startedAt.offset.isSome := by
        intro other hother
        obtain ⟨first, rest, rfl⟩ := List.exists_cons_of_ne_nil
          (List.ne_nil_of_mem (hperm.mem_iff.mpr hother))
        rw [hhead first rfl]
        exact halike first (hperm.mem_iff.mp (List.mem_cons_self ..)) other hother
      intro a ha b hb
      rw [List.mem_append, List.mem_singleton] at ha hb
      obtain ha | rfl := ha
      · obtain hb | rfl := hb
        · exact halike a ha b hb
        · exact (hall a ha).symm
      · obtain hb | rfl := hb
        · exact hall b hb
        · rfl

theorem exists_sortItems (h : Alike items) : ∃ sorted, sortItems items = .ok sorted := by
  induction items using List.reverseRecOn with
  | nil => exact ⟨[], rfl⟩
  | append_singleton items item ih =>
    obtain ⟨middle, hmiddle⟩ := ih fun a ha b hb =>
      h a (List.mem_append_left _ ha) b (List.mem_append_left _ hb)
    rw [sortItems_concat, hmiddle]
    apply exists_insertItem
    intro other hother
    have hmem := (sortItems_eq_ok hmiddle).1.mem_iff.mp hother
    exact h item (List.mem_append_right _ (List.mem_singleton.mpr rfl)) other
      (List.mem_append_left _ hmem)

/-! ## Well typed events -/

def boolOf : Json → Option Bool
  | .bool b => some b
  | _ => none

def intOf : Json → Option Int
  | .int n => some n
  | _ => none

/-- The strings of a list of strings. -/
def strsOf : Json → Option (List Str)
  | .arr items => items.mapM readStr
  | _ => none

/-- A value of the right type, `null` or none. -/
def Nullable {α : Type} (read : Json → Option α) (v : Option Json) : Prop :=
  v = none ∨ v = some .null ∨ ∃ w, v = some w ∧ ∃ a, read w = some a

/-- The name of the event and the fields that pydantic checks, apart from the time, have values of
their types. -/
structure WellTyped (event : Event) : Prop where
  name : Nullable readStr (event.get "event")
  conversationId : Nullable readStr (event.get "conversation_id")
  turnId : Nullable readStr (event.get "turn_id")
  taskId : Nullable readStr (event.get "task_id")
  resultCode : Nullable readStr (event.get "result_code")
  retryable : Nullable boolOf (event.get "retryable")
  durationMs : Nullable intOf (event.get "duration_ms")
  resourceRefs : Nullable strsOf (event.get "resource_refs")

/-- The name can be looked up among the names of terminal events. -/
theorem WellTyped.hashable {event : Event} (h : WellTyped event) :
    (event.get "event").all isHashable = true := by
  obtain hnone | hnull | ⟨v, hv, s, hs⟩ := h.name
  · rw [hnone]
    rfl
  · rw [hnull]
    rfl
  · rw [hv]
    cases v with
    | str _ => rfl
    | _ => cases hs

/-- The time of an event, as pydantic takes it. -/
def timeOf (va : Validation) (event : Event) : Option ParsedTime :=
  (event.get "created_at").bind va.datetime

/-- The item says what these events say: who was called and when comes from the one, how it ended from
the other, and nothing is said of an end that there is not. -/
structure Describes (py : Python) (va : Validation) (first : Event) (terminal : Option Event)
    (item : ToolInvocationTimelineItem) : Prop where
  traceId : item.traceId = textField py first "trace_id"
  agentRunId : item.agentRunId = textField py first "agent_run_id"
  conversationId : item.conversationId = (first.get "conversation_id").bind readStr
  turnId : item.turnId = (first.get "turn_id").bind readStr
  taskId : item.taskId = (first.get "task_id").bind readStr
  agentName : item.agentName = textField py first "agent_name"
  toolName : item.toolName = textField py first "tool_name"
  actorCode : item.actorCode = textField py first "actor_code"
  resourceRefs : item.resourceRefs = ((first.get "resource_refs").bind strsOf).getD []
  startedAt : timeOf va first = some item.startedAt
  completedAt : terminal.map (timeOf va) = item.completedAt.map some
  outcome : item.outcome = terminal.map outcomeOf
  resultCode : item.resultCode = terminal.bind fun event => (event.get "result_code").bind readStr
  retryable : item.retryable = terminal.bind fun event => (event.get "retryable").bind boolOf
  durationMs : item.durationMs = terminal.bind fun event => (event.get "duration_ms").bind intOf

theorem optional_eq {α : Type} {read base : Json → Option α} (hnull : base .null = none)
    (hread : ∀ v a, base v = some a → read v = some a) {v : Option Json} (h : Nullable base v) :
    optional read v = .ok (v.bind base) := by
  obtain rfl | rfl | ⟨w, rfl, a, ha⟩ := h
  · rfl
  · rw [Option.bind_some, hnull]
    rfl
  · have hne : w ≠ .null := by
      rintro rfl
      rw [hnull] at ha
      cases ha
    have hrequired : required read w = .ok a := by rw [required, hread w a ha]
    rw [Option.bind_some, ha, optional, hrequired]
    · rfl
    · exact fun heq => hne heq

theorem optional_readStr {v : Option Json} (h : Nullable readStr v) :
    optional readStr v = .ok (v.bind readStr) := optional_eq rfl (fun _ _ ha => ha) h

theorem optional_readBool (va : Validation) {v : Option Json} (h : Nullable boolOf v) :
    optional va.readBool v = .ok (v.bind boolOf) := by
  refine optional_eq rfl (fun w b hw => ?_) h
  cases w with
  | bool b' => exact hw
  | _ => cases hw

theorem optional_readInt (va : Validation) {v : Option Json} (h : Nullable intOf v) :
    optional va.readInt v = .ok (v.bind intOf) := by
  refine optional_eq rfl (fun w n hw => ?_) h
  cases w with
  | int n' => exact hw
  | _ => cases hw

theorem eq_of_strsOf {items : List Json} {refs : List Str} (h : strsOf (.arr items) = some refs) :
    items = refs.map .str := by
  induction items generalizing refs with
  | nil =>
    cases h
    rfl
  | cons item items ih =>
    rw [strsOf, List.mapM_cons, Option.bind_eq_bind, Option.bind_eq_some_iff] at h
    obtain ⟨ref, href, h⟩ := h
    obtain ⟨rest, hrest, h⟩ := Option.bind_eq_some_iff.mp h
    cases h
    cases item with
    | str s =>
      cases href
      rw [List.map_cons, ← ih hrest]
    | _ => cases href

/-- The two steps that read the list of resources. -/
theorem readList_refs (va : Validation) {v : Option Json} (h : Nullable strsOf v) :
    ∃ items, va.readList v = .ok items ∧
      items.mapM (required readStr) = .ok ((v.bind strsOf).getD []) := by
  obtain rfl | rfl | ⟨w, rfl, refs, hrefs⟩ := h
  · exact ⟨[], rfl, rfl⟩
  · exact ⟨[], rfl, rfl⟩
  · cases w with
    | arr items =>
      refine ⟨items, rfl, ?_⟩
      rw [Option.bind_some, hrefs, Option.getD_some, eq_of_strsOf hrefs, mapM_eq_ok,
        List.forall₂_map_left_iff, List.forall₂_same]
      exact fun ref _ => rfl
    | _ => cases hrefs

theorem Nullable.of_terminal {α : Type} {read : Json → Option α} {key : String}
    {terminal : Option Event} (h : ∀ event ∈ terminal, Nullable read (Event.get event key)) :
    Nullable read (terminal.bind fun event => event.get key) := by
  cases terminal with
  | none => exact .inl rfl
  | some event => exact h event rfl

theorem optional_datetime_iff {va : Validation} {terminal : Option Event}
    {completedAt : Option ParsedTime}
    (hdated : ∀ event ∈ terminal, ∃ s, Event.get event "created_at" = some (.str s)) :
    optional va.datetime (terminal.bind fun event => event.get "created_at") = .ok completedAt ↔
      terminal.map (timeOf va) = completedAt.map some := by
  cases terminal with
  | none =>
    cases completedAt with
    | none => exact iff_of_true rfl rfl
    | some t => exact iff_of_false (fun h => by cases h) (fun h => by cases h)
  | some event =>
    obtain ⟨s, hs⟩ := hdated event rfl
    rw [Option.bind_some, Option.map_some, timeOf, hs, Option.bind_some, optional, required]
    · cases va.datetime (.str s) with
      | none => cases completedAt <;> exact iff_of_false (fun h => by cases h) (fun h => by cases h)
      | some t =>
        cases completedAt with
        | none => exact iff_of_false (fun h => by cases h) (fun h => by cases h)
        | some t' =>
          constructor
          · intro h
            cases h
            rfl
          · intro h
            cases h
            rfl
    · exact fun h => by cases h

theorem exists_describes (py : Python) {va : Validation} {first : Event} {terminal : Option Event}
    {startedAt : ParsedTime} {completedAt : Option ParsedTime} (invocationId : Str)
    (hstarted : timeOf va first = some startedAt)
    (hcompleted : terminal.map (timeOf va) = completedAt.map some) :
    ∃ item : ToolInvocationTimelineItem, item.invocationId = invocationId ∧
      Describes py va first terminal item := by
  refine ⟨{
    invocationId := invocationId
    traceId := textField py first "trace_id"
    agentRunId := textField py first "agent_run_id"
    conversationId := (first.get "conversation_id").bind readStr
    turnId := (first.get "turn_id").bind readStr
    taskId := (first.get "task_id").bind readStr
    agentName := textField py first "agent_name"
    toolName := textField py first "tool_name"
    actorCode := textField py first "actor_code"
    resourceRefs := ((first.get "resource_refs").bind strsOf).getD []
    startedAt := startedAt
    completedAt := completedAt
    outcome := terminal.map outcomeOf
    resultCode := terminal.bind fun event => (event.get "result_code").bind readStr
    retryable := terminal.bind fun event => (event.get "retryable").bind boolOf
    durationMs := terminal.bind fun event => (event.get "duration_ms").bind intOf }, rfl, ?_⟩
  constructor
  case startedAt => exact hstarted
  case completedAt => exact hcompleted
  all_goals rfl

/-- **The item of an invocation describes its events**, when their times are accepted. -/
theorem toItem_eq_ok_iff {va : Validation} {current : Invocation}
    (hfirst : WellTyped current.first) (hterminal : ∀ event ∈ current.terminal, WellTyped event)
    (hdated : ∀ event ∈ current.terminal, ∃ s, Event.get event "created_at" = some (.str s))
    (hat : Event.get current.first "created_at" = some current.startedAt) :
    toItem py va current = .ok item ↔ item.invocationId = current.invocationId ∧
      Describes py va current.first current.terminal item := by
  obtain ⟨refs, hlist, hrefs⟩ := readList_refs va hfirst.resourceRefs
  unfold toItem
  simp only [hlist, bind, Except.bind, hrefs, optional_readStr hfirst.conversationId, optional_readStr hfirst.turnId,
    optional_readStr hfirst.taskId,
    optional_readStr (.of_terminal fun event h => (hterminal event h).resultCode),
    optional_readBool va (.of_terminal fun event h => (hterminal event h).retryable),
    optional_readInt va (.of_terminal fun event h => (hterminal event h).durationMs)]
  have hcompleted : ∀ o, optional va.datetime (current.terminal.bind fun event =>
      event.get "created_at") = .ok o ↔ current.terminal.map (timeOf va) = o.map some :=
    fun o => optional_datetime_iff hdated
  have hstarted : timeOf va current.first = va.datetime current.startedAt := by
    rw [timeOf, hat, Option.bind_some]
  rw [required, ← hstarted]
  cases htime : timeOf va current.first with
  | none =>
    refine ⟨fun h => (by cases h), fun h => ?_⟩
    rw [h.2.startedAt] at htime
    cases htime
  | some startedAt =>
    cases hopt : optional va.datetime (current.terminal.bind fun event => event.get "created_at") with
    | error e =>
      refine ⟨fun h => (by cases h), fun h => ?_⟩
      rw [(hcompleted _).mpr h.2.completedAt] at hopt
      cases hopt
    | ok completedAt =>
      constructor
      · intro h
        cases h
        exact ⟨rfl,
          { traceId := rfl, agentRunId := rfl, conversationId := rfl, turnId := rfl, taskId := rfl
            agentName := rfl, toolName := rfl, actorCode := rfl, resourceRefs := rfl
            startedAt := htime
            completedAt := (hcompleted completedAt).mp hopt
            outcome := rfl
            resultCode := Option.bind_assoc ..
            retryable := Option.bind_assoc ..
            durationMs := Option.bind_assoc .. }⟩
      · rintro ⟨hid, h⟩
        have hstart := h.startedAt
        rw [htime] at hstart
        have hcomplete := (hcompleted _).mpr h.completedAt
        rw [hopt] at hcomplete
        refine congrArg Except.ok ?_
        cases item
        obtain rfl := Option.some.inj hstart
        obtain rfl := Except.ok.inj hcomplete
        simp only [ToolInvocationTimelineItem.mk.injEq, Option.bind_assoc]
        exact ⟨hid.symm, h.traceId.symm, h.agentRunId.symm, h.conversationId.symm, h.turnId.symm,
          h.taskId.symm, h.agentName.symm, h.toolName.symm, h.actorCode.symm, h.resourceRefs.symm,
          trivial, trivial, h.outcome.symm, h.resultCode.symm, h.retryable.symm, h.durationMs.symm⟩

/-! ## Pairs -/

/-- **The items pair the events**: there is one item for each invocation id, it describes the identity
event and the terminal event of the invocation, and the items are in the order of their times. -/
structure Paired (py : Python) (va : Validation) (events : List Event)
    (items : List ToolInvocationTimelineItem) : Prop where
  nodup : (items.map (·.invocationId)).Nodup
  ids : ∀ invocationId, invocationId ∈ items.map (·.invocationId) ↔
    invocationId ≠ str [] ∧ ∃ event ∈ events, textField py event "invocation_id" = invocationId
  described : ∀ item ∈ items, ∃ first, identityEvent py events item.invocationId = some first ∧
    Describes py va first (terminalEvent py events item.invocationId) item
  chronological : Chronological items

/-- **The times of the invocations are accepted**, and those that they start at are all with an offset
or all without. -/
structure Comparable (py : Python) (va : Validation) (events : List Event) : Prop where
  identity : ∀ invocationId first, invocationId ≠ str [] →
    identityEvent py events invocationId = some first → (timeOf va first).isSome
  terminal : ∀ invocationId event, invocationId ≠ str [] →
    terminalEvent py events invocationId = some event → (timeOf va event).isSome
  alike : ∀ invocationId invocationId' first first' t t', invocationId ≠ str [] →
    invocationId' ≠ str [] → identityEvent py events invocationId = some first →
    identityEvent py events invocationId' = some first' → timeOf va first = some t →
    timeOf va first' = some t' → t.offset.isSome = t'.offset.isSome

section

variable {va : Validation} (hscanned : ∀ e ∈ events, ∃ t, Event.time py e = some t)
  (htyped : ∀ e ∈ events, WellTyped e)

include hscanned

theorem createdAt_of_scanned (he : event ∈ events) :
    ∃ s, Event.get event "created_at" = some (.str s) := by
  obtain ⟨t, ht⟩ := hscanned event he
  unfold Event.time at ht
  split at ht
  · next s hget => exact ⟨s, hget⟩
  · cases ht

include htyped

/-- The item of a record describes the events that left it. -/
theorem toItem_eq_ok_of_grouped (hgrouped : Grouped py events grouped) {current : Invocation}
    (hcurrent : current ∈ grouped) :
    toItem py va current = .ok item ↔ item.invocationId = current.invocationId ∧
      Describes py va current.first (terminalEvent py events current.invocationId) item := by
  obtain ⟨-, -, hfirst, hat, hterminal⟩ := invocationOf_eq_some ((hgrouped current).mp hcurrent)
  have hmem : ∀ e ∈ current.terminal, e ∈ events := fun e he =>
    mem_of_terminalEvent (hterminal ▸ he)
  rw [← hterminal]
  exact toItem_eq_ok_iff (htyped _ (mem_of_identityEvent hfirst).1) (fun e he => htyped e (hmem e he))
    (fun e he => createdAt_of_scanned hscanned (hmem e he)) hat

omit htyped in
theorem exists_record (hgrouped : Grouped py events grouped) {invocationId : Str} {first : Event}
    (hid : invocationId ≠ str []) (hfirst : identityEvent py events invocationId = some first) :
    ∃ current ∈ grouped, current.invocationId = invocationId ∧ current.first = first := by
  obtain ⟨s, hs⟩ := createdAt_of_scanned hscanned (mem_of_identityEvent hfirst).1
  refine ⟨⟨invocationId, first, .str s, terminalEvent py events invocationId⟩,
    (hgrouped _).mpr ?_, rfl, rfl⟩
  unfold invocationOf
  rw [if_neg hid, hfirst, Option.bind_some, hs]
  rfl

/-- What the code answers, from the records that the loop leaves. -/
theorem paired_of_items (hgrouped : Grouped py events grouped)
    (hitems : List.Forall₂ (fun current item => toItem py va current = .ok item) grouped.rows items)
    (hsort : sortItems items = .ok sorted) :
    Paired py va events sorted ∧ Comparable py va events := by
  obtain ⟨hperm, hchronological, halike⟩ := sortItems_eq_ok hsort
  have hrel : List.Forall₂ (fun current item => item.invocationId = current.invocationId ∧
      Describes py va current.first (terminalEvent py events current.invocationId) item)
      grouped.rows items := by
    rw [List.forall₂_iff_zip] at hitems ⊢
    refine ⟨hitems.1, fun {current item} hmem => ?_⟩
    have hcurrent : current ∈ grouped := (List.of_mem_zip hmem).1
    exact (toItem_eq_ok_of_grouped hscanned htyped hgrouped hcurrent).mp (hitems.2 hmem)
  obtain ⟨hforth, hback⟩ := exists_of_forall₂ hrel
  have hids : grouped.rows.map (·.invocationId) = items.map (·.invocationId) := by
    rw [← List.forall₂_eq_eq_eq, List.forall₂_map_left_iff, List.forall₂_map_right_iff]
    exact hrel.imp fun current item h => h.1.symm
  have hmemIds : ∀ invocationId, invocationId ∈ sorted.map (·.invocationId) ↔
      ∃ current ∈ grouped, current.invocationId = invocationId := fun invocationId => by
    rw [(hperm.map _).mem_iff, ← hids]
    exact List.mem_map
  -- an identity event has an item
  have hitem : ∀ {invocationId first}, invocationId ≠ str [] →
      identityEvent py events invocationId = some first →
      ∃ item ∈ items, Describes py va first (terminalEvent py events invocationId) item := by
    intro invocationId first hid hfirst
    obtain ⟨current, hcurrent, rfl, rfl⟩ := exists_record hscanned hgrouped hid hfirst
    obtain ⟨item, hmem, -, hdescribed⟩ := hforth current hcurrent
    exact ⟨item, hmem, hdescribed⟩
  constructor
  · refine ⟨?_, fun invocationId => ?_, fun item hmem => ?_, hchronological⟩
    · rw [(hperm.map _).nodup_iff, ← hids]
      exact grouped.nodup
    · rw [hmemIds, ← exists_identityEvent]
      constructor
      · rintro ⟨current, hcurrent, rfl⟩
        obtain ⟨hid, -, hfirst, -⟩ := invocationOf_eq_some ((hgrouped current).mp hcurrent)
        exact ⟨hid, current.first, hfirst⟩
      · rintro ⟨hid, first, hfirst⟩
        obtain ⟨current, hcurrent, hsame, -⟩ := exists_record hscanned hgrouped hid hfirst
        exact ⟨current, hcurrent, hsame⟩
    · obtain ⟨current, hcurrent, hsame, hdescribed⟩ := hback item (hperm.mem_iff.mp hmem)
      obtain ⟨-, -, hfirst, -⟩ := invocationOf_eq_some ((hgrouped current).mp hcurrent)
      rw [hsame]
      exact ⟨current.first, hfirst, hdescribed⟩
  · refine ⟨fun invocationId first hid hfirst => ?_, fun invocationId event hid hterminal => ?_, ?_⟩
    · obtain ⟨item, -, hdescribed⟩ := hitem hid hfirst
      rw [hdescribed.startedAt]
      rfl
    · obtain ⟨first, hfirst⟩ := exists_identityEvent_of_terminal hterminal
      obtain ⟨item, -, hdescribed⟩ := hitem hid hfirst
      have hcompleted := hdescribed.completedAt
      rw [hterminal, Option.map_some] at hcompleted
      obtain ⟨t, -, ht⟩ := Option.map_eq_some_iff.mp hcompleted.symm
      rw [← ht]
      rfl
    · intro invocationId invocationId' first first' t t' hid hid' hfirst hfirst' ht ht'
      obtain ⟨item, hmem, hdescribed⟩ := hitem hid hfirst
      obtain ⟨item', hmem', hdescribed'⟩ := hitem hid' hfirst'
      rw [hdescribed.startedAt] at ht
      rw [hdescribed'.startedAt] at ht'
      obtain rfl := Option.some.inj ht
      obtain rfl := Option.some.inj ht'
      exact halike item hmem item' hmem'

/-- **When the times can be compared, the code answers.** -/
theorem exists_items (hgrouped : Grouped py events grouped) (h : Comparable py va events) :
    ∃ items, List.Forall₂ (fun current item => toItem py va current = .ok item) grouped.rows items ∧
      Alike items := by
  have hexists : ∀ current ∈ grouped, ∃ item, toItem py va current = .ok item := by
    intro current hcurrent
    obtain ⟨hid, -, hfirst, -⟩ := invocationOf_eq_some ((hgrouped current).mp hcurrent)
    obtain ⟨startedAt, hstarted⟩ := Option.isSome_iff_exists.mp (h.identity _ _ hid hfirst)
    have hcompleted : ∃ completedAt : Option ParsedTime,
        (terminalEvent py events current.invocationId).map (timeOf va) = completedAt.map some := by
      cases hterminal : terminalEvent py events current.invocationId with
      | none => exact ⟨none, rfl⟩
      | some event =>
        obtain ⟨t, ht⟩ := Option.isSome_iff_exists.mp (h.terminal _ _ hid hterminal)
        exact ⟨some t, congrArg some ht⟩
    obtain ⟨completedAt, hcompleted⟩ := hcompleted
    obtain ⟨item, hitem⟩ := exists_describes py current.invocationId hstarted hcompleted
    exact ⟨item, (toItem_eq_ok_of_grouped hscanned htyped hgrouped hcurrent).mpr hitem⟩
  obtain ⟨items, hitems⟩ := exists_forall₂ hexists
  refine ⟨items, hitems, fun a ha b hb => ?_⟩
  obtain ⟨current, hcurrent, hitem⟩ := (exists_of_forall₂ hitems).2 a ha
  obtain ⟨current', hcurrent', hitem'⟩ := (exists_of_forall₂ hitems).2 b hb
  obtain ⟨hid, -, hfirst, -⟩ := invocationOf_eq_some ((hgrouped current).mp hcurrent)
  obtain ⟨hid', -, hfirst', -⟩ := invocationOf_eq_some ((hgrouped current').mp hcurrent')
  have hdescribed := (toItem_eq_ok_of_grouped hscanned htyped hgrouped hcurrent).mp hitem
  have hdescribed' := (toItem_eq_ok_of_grouped hscanned htyped hgrouped hcurrent').mp hitem'
  exact h.alike _ _ _ _ _ _ hid hid' hfirst hfirst' hdescribed.2.startedAt hdescribed'.2.startedAt

/-- **The timeline pairs the events if and only if their times can be compared.** -/
theorem aggregate_iff :
    (∃ items, aggregateInvocations py va events = .ok items ∧ Paired py va events items) ↔
      Comparable py va events := by
  have hdated : ∀ e ∈ events, ∃ v, Event.get e "created_at" = some v := by
    intro e he
    obtain ⟨s, hs⟩ := createdAt_of_scanned hscanned he
    exact ⟨_, hs⟩
  obtain ⟨grouped, hloop, hgrouped⟩ := exists_grouped py hdated fun e he => (htyped e he).hashable
  have haggregate : aggregateInvocations py va events =
      (grouped.rows.mapM (toItem py va)).bind sortItems := by
    unfold aggregateInvocations
    rw [hloop]
    rfl
  rw [haggregate]
  constructor
  · rintro ⟨sorted, hok, -⟩
    cases hitems : grouped.rows.mapM (toItem py va) with
    | error e =>
      rw [hitems] at hok
      cases hok
    | ok items =>
      rw [hitems] at hok
      exact (paired_of_items hscanned htyped hgrouped (mapM_eq_ok.mp hitems) hok).2
  · intro h
    obtain ⟨items, hitems, halike⟩ := exists_items hscanned htyped hgrouped h
    obtain ⟨sorted, hsort⟩ := exists_sortItems halike
    refine ⟨sorted, ?_, (paired_of_items hscanned htyped hgrouped hitems hsort).1⟩
    rw [mapM_eq_ok.mpr hitems]
    exact hsort

end

/-- Times that are all accepted, and alike, can be compared. -/
theorem comparable_of_all {va : Validation} (zoned : Bool)
    (h : ∀ e ∈ events, ∃ t, timeOf va e = some t ∧ t.offset.isSome = zoned) :
    Comparable py va events := by
  refine ⟨fun id first _ hfirst => ?_, fun id event _ hterminal => ?_, ?_⟩
  · obtain ⟨t, ht, -⟩ := h first (mem_of_identityEvent hfirst).1
    rw [ht]
    rfl
  · obtain ⟨t, ht, -⟩ := h event (mem_of_terminalEvent hterminal)
    rw [ht]
    rfl
  · intro id id' first first' t t' _ _ hfirst hfirst' ht ht'
    obtain ⟨u, hu, hzoned⟩ := h first (mem_of_identityEvent hfirst).1
    obtain ⟨u', hu', hzoned'⟩ := h first' (mem_of_identityEvent hfirst').1
    rw [hu] at ht
    rw [hu'] at ht'
    obtain rfl := Option.some.inj ht
    obtain rfl := Option.some.inj ht'
    rw [hzoned, hzoned']

end Timeline

open Timeline

/-! ## The timeline of a scan -/

theorem time_of_lineEvent {py : Python} {q : LogQuery} {source : JsonlLogSource} {filename : Str}
    {lineNumber : Nat} {line : Text} {indexed : IndexedEvent}
    (h : lineEvent py q source filename lineNumber line = some indexed) :
    ∃ t, Event.time py indexed.event = some t := by
  unfold lineEvent at h
  split at h
  · split at h
    · next event _ t ht =>
      split at h
      · obtain rfl := Option.some.inj h
        exact ⟨t, ht⟩
      · cases h
    · cases h
  · cases h

theorem matching_times {py : Python} {sources : List JsonlLogSource} {fs : FileSystem} {q : LogQuery}
    {indexed : IndexedEvent} (h : indexed ∈ matching py sources fs q) :
    ∃ t, Event.time py indexed.event = some t := by
  obtain ⟨source, -, h⟩ := List.mem_flatMap.mp h
  obtain ⟨file, -, h⟩ := List.mem_flatMap.mp h
  unfold fileEvents at h
  split at h
  · cases h
  · obtain ⟨line, -, hline⟩ := List.mem_filterMap.mp h
    exact time_of_lineEvent hline

/-- A page has only events that were read. -/
theorem mem_pageOf {ascending : Bool} {limit : Nat} {l : List IndexedEvent} {after : Option SortKey}
    {sources : List JsonlLogSource} {event : Event}
    (h : event ∈ (scanPage sources ascending (pageOf ascending limit l after)).events) :
    ∃ indexed ∈ l, indexed.event = event := by
  rw [scanPage_pageOf] at h
  obtain ⟨indexed, hmem, rfl⟩ := List.mem_map.mp h
  refine ⟨indexed, ?_, rfl⟩
  have hbehind : indexed ∈ behindCursor ascending after (inOrder ascending l) :=
    List.mem_of_mem_take (List.mem_of_mem_take hmem)
  have hordered : indexed ∈ inOrder ascending l := by
    unfold behindCursor at hbehind
    split at hbehind
    · exact hbehind
    · split at hbehind
      · exact (List.mem_filter.mp hbehind).1
      · exact (List.mem_filter.mp hbehind).1
  exact (inOrder_perm ascending l).mem_iff.mp hordered

/-- The events of a page have times. -/
theorem scanned_times {py : Python} {sources : List JsonlLogSource} {fs : FileSystem} {q : LogQuery}
    {cursor : Option Text} {page : JsonlScanPage} (h : scan py sources fs q cursor = .ok page) :
    ∀ event ∈ page.events, ∃ t, Event.time py event = some t := by
  have hlimit : 1 ≤ q.limit := by
    by_contra hlt
    unfold scan at h
    rw [if_pos (by omega)] at h
    cases h
  have hpos : ∃ after, positionOf sources q.ascending cursor = .ok after := by
    cases cursor with
    | none => exact ⟨none, rfl⟩
    | some cursor =>
      rw [positionOf]
      cases hdecode : decodeCursor sources q.ascending cursor with
      | ok key => exact ⟨some key, rfl⟩
      | error e =>
        unfold scan at h
        rw [if_neg (by omega)] at h
        simp only [hdecode] at h
        cases h
  obtain ⟨after, hafter⟩ := hpos
  rw [scan_eq py sources fs hlimit hafter] at h
  intro event hevent
  by_cases hreadable : Readable py sources fs q
  · rw [(yields_readSources py sources fs q).1 hreadable] at h
    cases h
    obtain ⟨indexed, hmem, rfl⟩ := mem_pageOf hevent
    exact matching_times hmem
  · obtain ⟨e, he⟩ := (yields_readSources py sources fs q).2 hreadable
    rw [he] at h
    cases h

/-- **The timeline of a page pairs its events if and only if their times can be compared.** -/
theorem timeline_of_scan {py : Python} {va : Validation} {sources : List JsonlLogSource}
    {fs : FileSystem} {q : LogQuery} {cursor : Option Text} {page : JsonlScanPage}
    (h : scan py sources fs q cursor = .ok page) (htyped : ∀ e ∈ page.events, WellTyped e) :
    (∃ items, aggregateInvocations py va page.events = .ok items ∧
        Paired py va page.events items) ↔ Comparable py va page.events :=
  aggregate_iff (scanned_times h) htyped

/-- **The code pairs the events, and puts the items in order, if and only if pydantic takes the times
of the invocations and they can be compared.** -/
theorem aggregateInvocations_paired_iff (py : Python) (va : Validation) (events : List Event)
    (hscanned : ∀ e ∈ events, ∃ t, Event.time py e = some t) (htyped : ∀ e ∈ events, WellTyped e) :
    (∃ items, aggregateInvocations py va events = .ok items ∧ Paired py va events items) ↔
      Comparable py va events :=
  aggregate_iff hscanned htyped

/-! ## Times with an offset and without -/

/-- One time, with its offset and without. -/
def timelinePython : Python where
  fromisoformat s :=
    if s = codes "2026-01-01T00:00:00+00:00".toList then
      some ⟨newYear, some 0⟩
    else if s = codes "2026-01-01T00:00:00".toList then
      some ⟨newYear, none⟩
    else none
  exceeds _ := false
  textOf _ := str []

def timelineValidation : Validation where
  datetime v := (readStr v).bind fun s => timelinePython.fromisoformat s.codes
  bool _ := none
  int _ := none
  listOf _ := none

def toolEvent (invocationId event createdAt : String) : Event :=
  [(str "invocation_id".toList, .str (str invocationId.toList)),
    (str "event".toList, .str (str event.toList)),
    (str "created_at".toList, .str (str createdAt.toList))]

theorem wellTyped_toolEvent (invocationId event createdAt : String) :
    WellTyped (toolEvent invocationId event createdAt) :=
  ⟨.inr (.inr ⟨_, rfl, _, rfl⟩), .inl rfl, .inl rfl, .inl rfl, .inl rfl, .inl rfl, .inl rfl, .inl rfl⟩

/-- A call that ended. -/
def pairedEvents : List Event :=
  [toolEvent "a" "agent_tool_invocation_started" "2026-01-01T00:00:00+00:00",
    toolEvent "a" "agent_tool_invocation_succeeded" "2026-01-01T00:00:00+00:00"]

theorem aggregateInvocations_paired_iff_pairedEvents :
    ∃ items, aggregateInvocations timelinePython timelineValidation pairedEvents = .ok items ∧
      Paired timelinePython timelineValidation pairedEvents items := by
  have hscanned : ∀ e ∈ pairedEvents, ∃ t, Event.time timelinePython e = some t := by
    simp only [pairedEvents, List.forall_mem_cons]
    refine ⟨⟨⟨⟨2026, 1, 1, by decide⟩, 0, 0, 0, 0, by decide⟩, ?_⟩,
      ⟨⟨⟨2026, 1, 1, by decide⟩, 0, 0, 0, 0, by decide⟩, ?_⟩, List.forall_mem_nil _⟩
    · decide +kernel
    · decide +kernel
  have htyped : ∀ e ∈ pairedEvents, WellTyped e := by
    simp only [pairedEvents, List.forall_mem_cons]
    exact ⟨wellTyped_toolEvent .., wellTyped_toolEvent .., List.forall_mem_nil _⟩
  apply (aggregateInvocations_paired_iff timelinePython timelineValidation pairedEvents hscanned
    htyped).mpr
  refine comparable_of_all true ?_
  simp only [pairedEvents, List.forall_mem_cons]
  refine ⟨⟨⟨⟨⟨2026, 1, 1, by decide⟩, 0, 0, 0, 0, by decide⟩, some 0⟩, ?_, rfl⟩,
    ⟨⟨⟨⟨2026, 1, 1, by decide⟩, 0, 0, 0, 0, by decide⟩, some 0⟩, ?_, rfl⟩, List.forall_mem_nil _⟩
  · decide +kernel
  · decide +kernel

/-- The first time has no offset. -/
def mixedEvents : List Event :=
  [toolEvent "a" "agent_tool_invocation_started" "2026-01-01T00:00:00",
    toolEvent "b" "agent_tool_invocation_started" "2026-01-01T00:00:00+00:00"]

/-- **Two times that the scan reads, and that cannot be compared.** -/
theorem mixed_times_raise :
    (∀ e ∈ mixedEvents, ∃ t, Event.time timelinePython e = some t) ∧
      (∀ e ∈ mixedEvents, WellTyped e) ∧
      aggregateInvocations timelinePython timelineValidation mixedEvents = .error .type := by
  refine ⟨?_, ?_, ?_⟩
  · simp only [mixedEvents, List.forall_mem_cons]
    refine ⟨⟨⟨⟨2026, 1, 1, by decide⟩, 0, 0, 0, 0, by decide⟩, ?_⟩,
      ⟨⟨⟨2026, 1, 1, by decide⟩, 0, 0, 0, 0, by decide⟩, ?_⟩, List.forall_mem_nil _⟩
    · decide +kernel
    · decide +kernel
  · simp only [mixedEvents, List.forall_mem_cons]
    exact ⟨wellTyped_toolEvent .., wellTyped_toolEvent .., List.forall_mem_nil _⟩
  · decide +kernel

end DocFlow.Operations
