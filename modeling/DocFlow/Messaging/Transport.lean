import DocFlow.Lib.ConsumerGroup
import DocFlow.Lib.JsonLines
import DocFlow.Messaging.Bookkeeping

/-!
# The way of an event

An event is a row of the outbox, then the fields of an entry of the stream, and then an event again that
a worker hands to the dispatcher.  Publishers, the server and workers do their steps in any order.  A
command may be done although its answer is lost, an `XADD` also long after; handlers fail, processes die.

* `parseEvent_publishFields`: the worker reads what the publisher wrote.
* `delivered_at_least_once`: a published event has an entry, which is acknowledged only after a handler
  has returned on that event; and a handler is given no event but those of the outbox.
-/

namespace DocFlow.Messaging

open Text

namespace Transport

/-! ## Fields -/

/-- The fields of an entry. -/
structure StreamFields where
  eventId : Str
  eventType : Str
  payload : Text

structure RuntimeEvent where
  eventId : Str
  eventType : Str
  payload : List (Str × Json)

def text (s : String) : Json := .str (str s.toList)

def textOrNull : Option String → Json
  | none => .null
  | some s => text s

def typeValue : RuntimeEventType → String
  | .planWakeup => "runtime.plan_wakeup"
  | .replanRequested => "planning.replan_requested"
  | .aggregationRequested => "aggregation.requested"

section

variable (name : Nat → String)

/-- `payload_json`, where the ids have names. -/
def payloadMembers : EventPayload → List (Str × Json)
  | .plan workflowId planId =>
    [(str "workflow_id".toList, text (name workflowId)), (str "plan_id".toList, text (name planId))]
  | .compensation workflowId planId executionId operationId =>
    [(str "workflow_id".toList, text (name workflowId)), (str "plan_id".toList, text (name planId)),
      (str "execution_id".toList, text (name executionId)),
      (str "operation_id".toList, text (name operationId))]
  | .replan payload =>
    [(str "workflow_id".toList, text (name payload.workflowId)),
      (str "conversation_id".toList, text (name payload.conversationId)),
      (str "root_turn_id".toList, text (name payload.rootTurnId)),
      (str "previous_plan_id".toList, text (name payload.previousPlanId)),
      (str "next_revision".toList, .int payload.nextRevision),
      (str "trigger_type".toList, text payload.triggerType),
      (str "source_task_id".toList, textOrNull (payload.sourceTaskId.map name)),
      (str "error_code".toList, textOrNull payload.errorCode),
      (str "error_message".toList, textOrNull payload.errorMessage)]

/-- `json.dumps(payload, ensure_ascii=False, separators=(",", ":"))`. -/
def tight : Json.Format :=
  { Json.compact with
    body := Json.spaced.body
    float := Json.spaced.float }

/-- `RedisStreamPublisher.publish`: the fields of the `XADD`. -/
def publishFields (event : EventSnapshot) : StreamFields where
  eventId := str (name event.eventId).toList
  eventType := str (typeValue event.eventType).toList
  payload := Json.write tight (.obj (payloadMembers name event.payload))

/-- `_parse_event`; `none` is an exception. -/
def parseEvent (fields : StreamFields) : Option RuntimeEvent :=
  match Json.loads fields.payload with
  | some (.obj payload) => some ⟨fields.eventId, fields.eventType, payload⟩
  | _ => none

/-- The event of a row, as a handler should get it. -/
def eventOf (event : EventSnapshot) : RuntimeEvent where
  eventId := str (name event.eventId).toList
  eventType := str (typeValue event.eventType).toList
  payload := payloadMembers name event.payload

theorem encodable_str (s : Text) : Json.Encodable (str s) := by
  intro c hc
  obtain ⟨ch, -, rfl⟩ := List.mem_map.mp hc
  exact (toNat_valid ch).2

theorem sound_textOrNull (s : Option String) : Json.Sound (textOrNull s) := by
  cases s with
  | none => trivial
  | some s => exact encodable_str s.toList

theorem sound_payloadMembers (payload : EventPayload) :
    Json.Sound (.obj (payloadMembers name payload)) := by
  have hstr := encodable_str
  cases payload with
  | plan workflowId planId => exact ⟨hstr _, hstr _, hstr _, hstr _, trivial⟩
  | compensation workflowId planId executionId operationId =>
    exact ⟨hstr _, hstr _, hstr _, hstr _, hstr _, hstr _, hstr _, hstr _, trivial⟩
  | replan payload =>
    exact ⟨hstr _, hstr _, hstr _, hstr _, hstr _, hstr _, hstr _, hstr _, hstr _, trivial, hstr _,
      hstr _, hstr _, sound_textOrNull _, hstr _, sound_textOrNull _, hstr _, sound_textOrNull _,
      trivial⟩

theorem reads_tight {v : Json} (h : v.Sound) : Json.Reads tight v := by
  refine Json.All.imp (fun _ => Json.readString_raw) (fun negative mantissa exponent hwritten => ?_) v h
  have hfloat := Json.readsFloat_spaced negative hwritten
  exact ⟨hfloat.head, hfloat.read⟩

/-- **The worker reads what the publisher wrote.** -/
theorem parseEvent_publishFields (event : EventSnapshot) :
    parseEvent (publishFields name event) = some (eventOf name event) := by
  have hloads : Json.loads (publishFields name event).payload =
      some (.obj (payloadMembers name event.payload)) := by
    have hread := Json.loads_write (reads_tight (sound_payloadMembers name event.payload)) [] rfl
      fun c hc => by cases hc
    rw [List.append_nil] at hread
    exact hread
  rw [parseEvent, hloads]
  rfl

end

/-! ## Workers -/

/-- Where `run_once` reads from, one after the other. -/
inductive Origin
  /-- `XAUTOCLAIM` -/
  | claimed
  /-- `XREADGROUP` with the id `0` -/
  | history
  /-- `XREADGROUP` with `>` -/
  | new
deriving DecidableEq, Repr

inductive WorkerPhase
  | idle
  /-- so many messages of this reading are done, and these are to come -/
  | dispatching (origin : Origin) (handled : Nat) (rest : List (Nat × StreamFields))
  | handling (origin : Origin) (handled : Nat) (position : Nat) (event : RuntimeEvent)
      (rest : List (Nat × StreamFields))
  /-- the handler has returned -/
  | acking (origin : Origin) (handled : Nat) (position : Nat) (rest : List (Nat × StreamFields))
  | dead

inductive WorkerCommand
  /-- the next reading; its answer may be lost -/
  | read (answered : Bool)
  | parse
  | returned
  | ack (answered : Bool)
  | finish
  /-- an exception: of Redis, of the handler, or a cancellation -/
  | fail
  | crash
deriving DecidableEq, Repr

structure TransportState where
  outbox : OutboxState
  /-- the entry of the call of this publisher is in the stream -/
  sent : Nat → Bool
  /-- the events of all calls; their `XADD` may also be done later -/
  offered : List EventSnapshot
  stream : Stream StreamFields Nat
  workers : Nat → WorkerPhase
  /-- the calls of the dispatcher that have returned, with the positions of the entries -/
  handled : List (Nat × RuntimeEvent)

inductive TransportAction
  /-- a transaction of the application, which adds an event -/
  | commit (row : OutboxRow)
  | publisher (action : OutboxAction)
  /-- the server does the `XADD` of the call of a publisher -/
  | added (publisher : Nat)
  /-- the server does an `XADD` that nobody waits for any more -/
  | late (event : EventSnapshot)
  | worker (worker : Nat) (now : Nat) (command : WorkerCommand)

/-- What is read next in `run_once`; it goes on only after a reading without messages. -/
def WorkerPhase.next : WorkerPhase → Option Origin
  | .idle => some .claimed
  | .dispatching .claimed 0 [] => some .history
  | .dispatching .history 0 [] => some .new
  | _ => none

namespace TransportState

def goto (s : TransportState) (w : Nat) (phase : WorkerPhase) : TransportState :=
  { s with workers := Function.update s.workers w phase }

/-- The commands that read. -/
def readFrom (minIdle count : Nat) (stream : Stream StreamFields Nat) (w now : Nat) :
    Origin → List (Nat × StreamFields) × Stream StreamFields Nat
  | .claimed => stream.claim w now minIdle count
  | .history => stream.own w now count
  | .new => stream.fresh w now count

/-- One step of `run_once`. -/
def work (minIdle count : Nat) (s : TransportState) (w now : Nat) :
    WorkerCommand → Option TransportState
  | .read answered =>
    (s.workers w).next.map fun origin =>
      let answer := readFrom minIdle count s.stream w now origin
      { s.goto w (if answered then .dispatching origin 0 answer.1 else .idle) with
        stream := answer.2 }
  | .parse =>
    match s.workers w with
    | .dispatching origin handled ((position, fields) :: rest) =>
      match parseEvent fields with
      | none => some (s.goto w .idle)
      | some event => some (s.goto w (.handling origin handled position event rest))
    | _ => none
  | .returned =>
    match s.workers w with
    | .handling origin handled position event rest =>
      some { s.goto w (.acking origin handled position rest) with
        handled := s.handled ++ [(position, event)] }
    | _ => none
  | .ack answered =>
    match s.workers w with
    | .acking origin handled position rest =>
      some { s.goto w (if answered then .dispatching origin (handled + 1) rest else .idle) with
        stream := s.stream.ack position }
    | _ => none
  | .finish =>
    match s.workers w with
    | .dispatching origin handled [] =>
      if 0 < handled ∨ origin = .new then some (s.goto w .idle) else none
    | _ => none
  | .fail =>
    match s.workers w with
    | .dead => none
    | _ => some (s.goto w .idle)
  | .crash => some (s.goto w .dead)

end TransportState

/-- The event of the call that a publisher makes. -/
def callOf (o : OutboxState) (i : Nat) : Option EventSnapshot :=
  o.publishers[i]?.bind fun p =>
    match p.phase with
    | .calling event _ => some event
    | _ => none

namespace TransportState

/-- A step of a publisher.  Its call begins with nothing sent, and returns once the entry is there. -/
def publish (maxAttempts : Int) (s : TransportState) (a : OutboxAction) : Option TransportState :=
  match a.command with
  | .publish =>
    (s.outbox.step maxAttempts a).map fun o =>
      { s with
        outbox := o
        sent := Function.update s.sent a.publisher false
        offered := s.offered ++ (callOf o a.publisher).toList }
  | .returned =>
    if s.sent a.publisher = true then
      (s.outbox.step maxAttempts a).map fun o => { s with outbox := o }
    else none
  | _ => (s.outbox.step maxAttempts a).map fun o => { s with outbox := o }

def step (name : Nat → String) (maxAttempts : Int) (minIdle count : Nat) (s : TransportState) :
    TransportAction → Option TransportState
  | .commit row =>
    if row.status = .pending then
      (s.outbox.events.insert row).map fun events =>
        { s with outbox := { s.outbox with events := events } }
    else none
  | .publisher a => s.publish maxAttempts a
  | .added i =>
    (callOf s.outbox i).map fun event =>
      { s with
        sent := Function.update s.sent i true
        stream := s.stream.add (publishFields name event) }
  | .late event =>
    if event ∈ s.offered then some { s with stream := s.stream.add (publishFields name event) }
    else none
  | .worker w now command => s.work minIdle count w now command

/-- Rows that are to be published, and processes that have not begun. -/
def Starts (s : TransportState) : Prop :=
  ∃ t processes clock, (∀ r ∈ t, r.status = .pending) ∧
    s = ⟨.start t processes clock, fun _ => false, [], .empty, fun _ => .idle, []⟩

end TransportState

def machine (name : Nat → String) (maxAttempts : Int) (minIdle count : Nat) :
    Machine TransportState TransportAction :=
  ⟨TransportState.Starts, TransportState.step name maxAttempts minIdle count⟩

/-! ## The publishers -/

section Publishers

variable {maxAttempts : Int} {o o' : OutboxState} {i : Nat} {p : Publisher} {command : Command}

/-- The events that a process has in hand. -/
def snapshotsOf : Phase → List EventSnapshot
  | .idle => []
  | .loading snapshots | .publishing snapshots => snapshots
  | .calling event rest | .marking event _ rest | .marked event _ rest => event :: rest

/-- The event is that of a row. -/
def Backed (t : OutboxTable) (event : EventSnapshot) : Prop := ∃ r ∈ t, r.snapshot = event

theorem snapshot_markRow (maxAttempts : Int) (now : Time) (succeeded : Bool) (r : OutboxRow) :
    (markRow maxAttempts now succeeded r).snapshot = r.snapshot := by
  cases succeeded <;> rfl

/-- No step takes a row away, or changes what is published of it. -/
theorem Backed.step (h : OutboxStep maxAttempts o i p command o') {event : EventSnapshot}
    (hevent : Backed o.events event) : Backed o'.events event := by
  obtain ⟨r, hr, rfl⟩ := hevent
  cases h with
  | committed event succeeded rest r₀ hphase hmem hid =>
    by_cases hr₀ : r = r₀
    · refine ⟨_, (mem_save_markRow hmem).mpr (.inl rfl), ?_⟩
      rw [snapshot_markRow, hr₀]
    · exact ⟨r, (mem_save_markRow hmem).mpr (.inr ⟨hr, hr₀⟩), rfl⟩
  | _ => exact ⟨r, hr, rfl⟩

/-- What a process has in hand it had before, or it is that of a row. -/
theorem snapshots_step (h : OutboxStep maxAttempts o i p command o') {p' : Publisher}
    (hp' : o'.publishers[i]? = some p') {event : EventSnapshot}
    (hevent : event ∈ snapshotsOf p'.phase) :
    event ∈ snapshotsOf p.phase ∨ Backed o.events event := by
  cases h with
  | scanned limit hphase =>
    rcases get?_set hp' with ⟨-, rfl⟩ | ⟨hne, -⟩
    · obtain ⟨r, hr, rfl⟩ := List.mem_map.mp hevent
      exact .inr ⟨r, (mem_of_mem_listAvailable hr).1, rfl⟩
    · exact absurd rfl hne
  | finished hphase | crashed =>
    rcases get?_set hp' with ⟨-, rfl⟩ | ⟨hne, -⟩
    · cases hevent
    · exact absurd rfl hne
  | passed _ _ _ hphase | committed _ _ _ _ hphase =>
    rcases get?_set hp' with ⟨-, rfl⟩ | ⟨hne, -⟩
    · left
      rw [hphase]
      exact List.mem_cons_of_mem _ hevent
    · exact absurd rfl hne
  | loaded _ hphase | handed _ _ hphase | returned _ _ hphase | raised _ _ hphase
  | locked _ _ _ _ hphase =>
    rcases get?_set hp' with ⟨-, rfl⟩ | ⟨hne, -⟩
    · left
      rw [hphase]
      exact hevent
    · exact absurd rfl hne

/-- A call that is under way was so before, or has just begun. -/
theorem callOf_step (hp : o.publishers[i]? = some p) (h : OutboxStep maxAttempts o i p command o')
    {j : Nat} {event : EventSnapshot} (hcall : callOf o' j = some event) :
    (j ≠ i ∧ callOf o j = some event) ∨ (j = i ∧ command = .publish) := by
  obtain ⟨q, hq, hphase⟩ := Option.bind_eq_some_iff.mp hcall
  by_cases hji : j = i
  · subst hji
    cases h with
    | handed event rest hphase => exact .inr ⟨rfl, rfl⟩
    | _ =>
      rcases get?_set hq with ⟨-, rfl⟩ | ⟨hne, -⟩
      · cases hphase
      · exact absurd rfl hne
  · obtain ⟨p', hset⟩ := publishers_step h
    rw [hset] at hq
    rcases get?_set hq with ⟨heq, -⟩ | ⟨-, hq⟩
    · exact absurd heq hji
    · refine .inl ⟨hji, ?_⟩
      rw [callOf, hq]
      exact hphase

/-- A call that has returned is one that was under way. -/
theorem returned_step (hp : o.publishers[i]? = some p) (h : OutboxStep maxAttempts o i p command o')
    {id : EventId} (hid : id ∈ o'.succeeded) : id ∈ o.succeeded ∨
      ∃ event, command = .returned ∧ callOf o i = some event ∧ event.eventId = id := by
  cases h with
  | returned event rest hphase =>
    rcases List.mem_append.mp hid with hold | hnew
    · exact .inl hold
    · refine .inr ⟨event, rfl, ?_, (List.mem_singleton.mp hnew).symm⟩
      rw [callOf, hp, Option.bind_some, hphase]
  | _ => exact .inl hid

end Publishers

/-! ## What has been published -/

/-- **Everything comes from the outbox**: what the publishers have in hand, what is in the stream.  A
call that has returned has left its entry. -/
structure Traced (name : Nat → String) (s : TransportState) : Prop where
  confirmed : Confirmed s.outbox
  inHand : ∀ (i : Nat) (p : Publisher) (event : EventSnapshot), s.outbox.publishers[i]? = some p →
    event ∈ snapshotsOf p.phase → Backed s.outbox.events event
  offered : ∀ event ∈ s.offered, Backed s.outbox.events event
  entries : ∀ fields ∈ s.stream.entries, ∃ event, Backed s.outbox.events event ∧
    fields = publishFields name event
  sent : ∀ i event, callOf s.outbox i = some event → s.sent i = true →
    publishFields name event ∈ s.stream.entries
  succeeded : ∀ id ∈ s.outbox.succeeded, ∃ event, Backed s.outbox.events event ∧
    event.eventId = id ∧ publishFields name event ∈ s.stream.entries

section Tracing

variable {name : Nat → String} {maxAttempts : Int} {s s' : TransportState}

theorem Backed.mono {t t' : OutboxTable} (h : ∀ r ∈ t, r ∈ t') {event : EventSnapshot}
    (hevent : Backed t event) : Backed t' event := by
  obtain ⟨r, hr, hsnapshot⟩ := hevent
  exact ⟨r, h r hr, hsnapshot⟩

/-- The event of a call is in hand. -/
theorem mem_snapshotsOf_callOf {o : OutboxState} {i : Nat} {event : EventSnapshot}
    (h : callOf o i = some event) :
    ∃ p, o.publishers[i]? = some p ∧ event ∈ snapshotsOf p.phase := by
  obtain ⟨p, hp, hphase⟩ := Option.bind_eq_some_iff.mp h
  refine ⟨p, hp, ?_⟩
  split at hphase
  · next event' rest heq =>
    obtain rfl := Option.some.inj hphase
    rw [heq]
    exact List.mem_cons_self
  · cases hphase

theorem Traced.calling (h : Traced name s) {i : Nat} {event : EventSnapshot}
    (hcall : callOf s.outbox i = some event) : Backed s.outbox.events event := by
  obtain ⟨p, hp, hmem⟩ := mem_snapshotsOf_callOf hcall
  exact h.inHand i p event hp hmem

/-- A new row. -/
theorem Traced.commit (h : Traced name s) {row : OutboxRow} {events : OutboxTable}
    (hpending : row.status = .pending) (hinsert : s.outbox.events.insert row = some events) :
    Traced name { s with outbox := { s.outbox with events := events } } := by
  have hmono : ∀ r ∈ s.outbox.events, r ∈ events :=
    fun r hr => (Table.mem_insert hinsert).mpr (.inl hr)
  refine ⟨⟨h.confirmed.phases, fun r hr hst => ?_⟩, fun i p event hp hevent => ?_,
    fun event hevent => ?_, fun fields hfields => ?_, h.sent, fun id hid => ?_⟩
  · rcases (Table.mem_insert hinsert).mp hr with hold | rfl
    · exact h.confirmed.rows r hold hst
    · rw [hpending] at hst
      cases hst
  · exact (h.inHand i p event hp hevent).mono hmono
  · exact (h.offered event hevent).mono hmono
  · obtain ⟨event, hbacked, heq⟩ := h.entries fields hfields
    exact ⟨event, hbacked.mono hmono, heq⟩
  · obtain ⟨event, hbacked, heq, hin⟩ := h.succeeded id hid
    exact ⟨event, hbacked.mono hmono, heq, hin⟩

/-- A new entry. -/
theorem Traced.add (h : Traced name s) {event : EventSnapshot} (hevent : Backed s.outbox.events event)
    {sent : Nat → Bool} (hsent : ∀ i, sent i = true → s.sent i = true ∨
      callOf s.outbox i = some event) :
    Traced name { s with
      sent := sent, stream := s.stream.add (publishFields name event) } := by
  have hgrows : ∀ fields ∈ s.stream.entries,
      fields ∈ (s.stream.add (publishFields name event)).entries :=
    fun fields hfields => List.mem_append_left _ hfields
  refine ⟨h.confirmed, h.inHand, h.offered, fun fields hfields => ?_, fun i e hcall hi => ?_,
    fun id hid => ?_⟩
  · rcases List.mem_append.mp hfields with hold | hnew
    · exact h.entries fields hold
    · exact ⟨event, hevent, List.mem_singleton.mp hnew⟩
  · rcases hsent i hi with hold | hnow
    · exact hgrows _ (h.sent i e hcall hold)
    · rw [hnow] at hcall
      obtain rfl := Option.some.inj hcall
      exact List.mem_append_right _ (List.mem_singleton_self _)
  · obtain ⟨e, hbacked, heq, hin⟩ := h.succeeded id hid
    exact ⟨e, hbacked, heq, hgrows _ hin⟩

/-- What the step of a process keeps, whatever becomes of the calls. -/
theorem Traced.step (h : Traced name s) {i : Nat} {p : Publisher} {command : Command}
    {o : OutboxState} (hp : s.outbox.publishers[i]? = some p)
    (hstep : OutboxStep maxAttempts s.outbox i p command o) {sent : Nat → Bool}
    {offered : List EventSnapshot}
    (hoffered : ∀ event ∈ offered, event ∈ s.offered ∨ callOf o i = some event)
    (hsent : ∀ j, sent j = true → s.sent j = true ∧ ¬ (j = i ∧ command = .publish))
    (hreturned : command = .returned → s.sent i = true) :
    Traced name { s with outbox := o, sent := sent, offered := offered } := by
  have hinHand : ∀ (j : Nat) (q : Publisher) (event : EventSnapshot), o.publishers[j]? = some q →
      event ∈ snapshotsOf q.phase → Backed o.events event := by
    intro j q event hq hevent
    by_cases hji : j = i
    · subst hji
      rcases snapshots_step hstep hq hevent with hold | hrow
      · exact (h.inHand j p event hp hold).step hstep
      · exact hrow.step hstep
    · obtain ⟨p', hset⟩ := publishers_step hstep
      rw [hset] at hq
      rcases get?_set hq with ⟨heq, -⟩ | ⟨-, hq⟩
      · exact absurd heq hji
      · exact (h.inHand j q event hq hevent).step hstep
  refine ⟨h.confirmed.step hp hstep, hinHand, fun event hevent => ?_, fun fields hfields => ?_,
    fun j event hcall hj => ?_, fun id hid => ?_⟩
  · rcases hoffered event hevent with hold | hcall
    · exact (h.offered event hold).step hstep
    · obtain ⟨q, hq, hmem⟩ := mem_snapshotsOf_callOf hcall
      exact hinHand i q event hq hmem
  · obtain ⟨event, hbacked, heq⟩ := h.entries fields hfields
    exact ⟨event, hbacked.step hstep, heq⟩
  · obtain ⟨hold, hnot⟩ := hsent j hj
    rcases callOf_step hp hstep hcall with ⟨-, hcallOld⟩ | hbegun
    · exact h.sent j event hcallOld hold
    · exact absurd hbegun hnot
  · rcases returned_step hp hstep hid with hold | ⟨event, hcommand, hcall, heq⟩
    · obtain ⟨event, hbacked, heq, hin⟩ := h.succeeded id hold
      exact ⟨event, hbacked.step hstep, heq, hin⟩
    · exact ⟨event, (h.calling hcall).step hstep, heq, h.sent i event hcall (hreturned hcommand)⟩

/-- The clock of the publishers does not matter. -/
theorem Traced.tick (h : Traced name s) (now : Time) :
    Traced name { s with outbox := { s.outbox with clock := now } } :=
  ⟨⟨h.confirmed.phases, h.confirmed.rows⟩, h.inHand, h.offered, h.entries, h.sent, h.succeeded⟩

theorem Traced.publish (h : Traced name s) {a : OutboxAction}
    (hs : s.publish maxAttempts a = some s') : Traced name s' := by
  have hplain : a.command ≠ .publish → a.command ≠ .returned ∨ s.sent a.publisher = true →
      ∀ o, s.outbox.step maxAttempts a = some o → Traced name { s with outbox := o } := by
    intro hpublish hreturned o ho
    obtain ⟨p, hp, -, hstep⟩ := step_cases ho
    exact (h.tick a.now).step hp hstep (fun event hevent => .inl hevent)
      (fun j hj => ⟨hj, fun hboth => hpublish hboth.2⟩)
      fun hcommand => hreturned.resolve_left fun hne => hne hcommand
  unfold TransportState.publish at hs
  split at hs
  · next hcommand =>
    obtain ⟨o, ho, rfl⟩ := Option.map_eq_some_iff.mp hs
    obtain ⟨p, hp, -, hstep⟩ := step_cases ho
    refine (h.tick a.now).step hp hstep (fun event hevent => ?_) (fun j hj => ?_) fun hreturned => ?_
    · rcases List.mem_append.mp hevent with hold | hnew
      · exact .inl hold
      · exact .inr (Option.mem_toList.mp hnew)
    · rw [Function.update_apply] at hj
      split at hj
      · cases hj
      · next hne => exact ⟨hj, fun hboth => hne hboth.1⟩
    · rw [hcommand] at hreturned
      cases hreturned
  · next hcommand =>
    split at hs
    · next hsent =>
      obtain ⟨o, ho, rfl⟩ := Option.map_eq_some_iff.mp hs
      exact hplain (fun hne => by rw [hcommand] at hne; cases hne) (.inr hsent) o ho
    · cases hs
  · next hpublish hreturned =>
    obtain ⟨o, ho, rfl⟩ := Option.map_eq_some_iff.mp hs
    exact hplain hpublish (.inl hreturned) o ho

end Tracing

/-! ## What the workers do -/

/-- The ways a worker can go on. -/
inductive WorkStep (s : TransportState) (w : Nat) : TransportState → Prop
  | reads (origin : Origin) (batch : List (Nat × StreamFields)) (stream : Stream StreamFields Nat)
      (phase : WorkerPhase) : s.stream.HandsOver stream batch →
      phase = .idle ∨ phase = .dispatching origin 0 batch →
      WorkStep s w { s.goto w phase with stream := stream }
  | parses (origin : Origin) (handled position : Nat) (fields : StreamFields)
      (rest : List (Nat × StreamFields)) (event : RuntimeEvent) :
      s.workers w = .dispatching origin handled ((position, fields) :: rest) →
      parseEvent fields = some event →
      WorkStep s w (s.goto w (.handling origin handled position event rest))
  | returns (origin : Origin) (handled position : Nat) (event : RuntimeEvent)
      (rest : List (Nat × StreamFields)) :
      s.workers w = .handling origin handled position event rest →
      WorkStep s w { s.goto w (.acking origin handled position rest) with
        handled := s.handled ++ [(position, event)] }
  | acks (origin : Origin) (handled position : Nat) (rest : List (Nat × StreamFields))
      (phase : WorkerPhase) : s.workers w = .acking origin handled position rest →
      phase = .idle ∨ phase = .dispatching origin (handled + 1) rest →
      WorkStep s w { s.goto w phase with stream := s.stream.ack position }
  | leaves (phase : WorkerPhase) : phase = .idle ∨ phase = .dead → WorkStep s w (s.goto w phase)

section Working

variable {minIdle count : Nat} {s s' : TransportState} {w now : Nat}

theorem handsOver_readFrom (minIdle count : Nat) (stream : Stream StreamFields Nat) (w now : Nat)
    (origin : Origin) :
    stream.HandsOver (TransportState.readFrom minIdle count stream w now origin).2
      (TransportState.readFrom minIdle count stream w now origin).1 := by
  cases origin with
  | claimed => exact Stream.handsOver_claim stream w now minIdle count
  | history => exact Stream.handsOver_own stream w now count
  | new => exact Stream.handsOver_fresh stream w now count

theorem work_cases {command : WorkerCommand} (h : s.work minIdle count w now command = some s') :
    WorkStep s w s' := by
  cases command with
  | read answered =>
    obtain ⟨origin, -, rfl⟩ := Option.map_eq_some_iff.mp h
    refine .reads origin _ _ _ (handsOver_readFrom minIdle count s.stream w now origin) ?_
    cases answered
    · exact .inl rfl
    · exact .inr rfl
  | parse =>
    simp only [TransportState.work] at h
    split at h
    · next origin handled position fields rest hphase =>
      split at h
      · obtain rfl := Option.some.inj h
        exact .leaves .idle (.inl rfl)
      · next event hevent =>
        obtain rfl := Option.some.inj h
        exact .parses origin handled position fields rest event hphase hevent
    · cases h
  | returned =>
    simp only [TransportState.work] at h
    split at h
    · next origin handled position event rest hphase =>
      obtain rfl := Option.some.inj h
      exact .returns origin handled position event rest hphase
    · cases h
  | ack answered =>
    simp only [TransportState.work] at h
    split at h
    · next origin handled position rest hphase =>
      obtain rfl := Option.some.inj h
      refine .acks origin handled position rest _ hphase ?_
      cases answered
      · exact .inl rfl
      · exact .inr rfl
    · cases h
  | finish =>
    simp only [TransportState.work] at h
    split at h
    · split at h
      · obtain rfl := Option.some.inj h
        exact .leaves .idle (.inl rfl)
      · cases h
    · cases h
  | fail =>
    simp only [TransportState.work] at h
    split at h
    · cases h
    · obtain rfl := Option.some.inj h
      exact .leaves .idle (.inl rfl)
  | crash =>
    obtain rfl := Option.some.inj h
    exact .leaves .dead (.inr rfl)

end Working

/-- An entry that has been delivered. -/
def IsDelivered (stream : Stream StreamFields Nat) (e : Nat × StreamFields) : Prop :=
  stream.entries[e.1]? = some e.2 ∧ e.1 < stream.delivered

/-- What a worker has in hand: entries that have been delivered, the event of one of them, one that a
handler has returned on. -/
def WorkerPhase.Holds (stream : Stream StreamFields Nat) (handled : List (Nat × RuntimeEvent)) :
    WorkerPhase → Prop
  | .idle | .dead => True
  | .dispatching _ _ rest => ∀ e ∈ rest, IsDelivered stream e
  | .handling _ _ position event rest =>
    (∃ fields, IsDelivered stream (position, fields) ∧ parseEvent fields = some event) ∧
      ∀ e ∈ rest, IsDelivered stream e
  | .acking _ _ position rest =>
    position < stream.delivered ∧ (∃ event, (position, event) ∈ handled) ∧
      ∀ e ∈ rest, IsDelivered stream e

/-- **Handlers get what is in the stream**, and an entry is settled only after one has returned. -/
structure Worked (s : TransportState) : Prop where
  workers : ∀ w, (s.workers w).Holds s.stream s.handled
  handled : ∀ e ∈ s.handled, ∃ fields, s.stream.entries[e.1]? = some fields ∧
    parseEvent fields = some e.2
  settled : ∀ i, s.stream.Settled i → ∃ event, (i, event) ∈ s.handled

section Steps

variable {s s' : TransportState} {w : Nat}

theorem IsDelivered.mono {stream stream' : Stream StreamFields Nat} (h : stream.Grows stream')
    {e : Nat × StreamFields} (he : IsDelivered stream e) : IsDelivered stream' e :=
  ⟨h.entries _ _ he.1, lt_of_lt_of_le he.2 h.delivered⟩

theorem WorkerPhase.Holds.mono {stream stream' : Stream StreamFields Nat}
    (hgrows : stream.Grows stream') {handled handled' : List (Nat × RuntimeEvent)}
    (hsubset : ∀ e ∈ handled, e ∈ handled') {phase : WorkerPhase} (h : phase.Holds stream handled) :
    phase.Holds stream' handled' := by
  cases phase with
  | idle | dead => trivial
  | dispatching origin n rest => exact fun e he => (h e he).mono hgrows
  | handling origin n position event rest =>
    obtain ⟨⟨fields, hdelivered, hparse⟩, hrest⟩ := h
    exact ⟨⟨fields, hdelivered.mono hgrows, hparse⟩, fun e he => (hrest e he).mono hgrows⟩
  | acking origin n position rest =>
    obtain ⟨hlt, ⟨event, hevent⟩, hrest⟩ := h
    exact ⟨lt_of_lt_of_le hlt hgrows.delivered, ⟨event, hsubset _ hevent⟩,
      fun e he => (hrest e he).mono hgrows⟩

/-- Only what one worker has in hand is new. -/
theorem holds_goto (h : ∀ v, (s.workers v).Holds s.stream s.handled)
    {stream : Stream StreamFields Nat} (hgrows : s.stream.Grows stream)
    {handled : List (Nat × RuntimeEvent)} (hsubset : ∀ e ∈ s.handled, e ∈ handled)
    {phase : WorkerPhase} (hphase : phase.Holds stream handled) (v : Nat) :
    ((s.goto w phase).workers v).Holds stream handled := by
  show (Function.update s.workers w phase v).Holds stream handled
  rw [Function.update_apply]
  split
  · exact hphase
  · exact (h v).mono hgrows hsubset

theorem Worked.grow (h : Worked s) {stream : Stream StreamFields Nat}
    (hgrows : s.stream.Grows stream) (hsettled : ∀ i, stream.Settled i ↔ s.stream.Settled i)
    {phase : WorkerPhase} (hphase : phase.Holds stream s.handled) :
    Worked { s.goto w phase with stream := stream } := by
  refine ⟨holds_goto h.workers hgrows (fun e he => he) hphase, fun e he => ?_, fun i hi => ?_⟩
  · obtain ⟨fields, hentry, hparse⟩ := h.handled e he
    exact ⟨fields, hgrows.entries _ _ hentry, hparse⟩
  · exact h.settled i ((hsettled i).mp hi)

theorem Worked.step (h : Worked s) (hstep : WorkStep s w s') : Worked s' := by
  cases hstep with
  | reads origin batch stream phase hhands hphase =>
    refine h.grow hhands.grows hhands.settled ?_
    rcases hphase with rfl | rfl
    · trivial
    · intro e he
      obtain ⟨hentry, hlt, -⟩ := hhands.new e he
      refine ⟨?_, hlt⟩
      rw [hhands.entries]
      exact hentry
  | parses origin n position fields rest event hphase hparse =>
    have hholds := h.workers w
    rw [hphase] at hholds
    refine h.grow (Stream.grows_refl s.stream) (fun i => Iff.rfl) ⟨?_, fun e he => ?_⟩
    · exact ⟨fields, hholds _ List.mem_cons_self, hparse⟩
    · exact hholds e (List.mem_cons_of_mem _ he)
  | returns origin n position event rest hphase =>
    have hholds := h.workers w
    rw [hphase] at hholds
    obtain ⟨⟨fields, hdelivered, hparse⟩, hrest⟩ := hholds
    have hin : (position, event) ∈ s.handled ++ [(position, event)] :=
      List.mem_append_right _ (List.mem_singleton_self _)
    refine ⟨holds_goto h.workers (Stream.grows_refl s.stream)
      (fun e he => List.mem_append_left _ he) ⟨hdelivered.2, ⟨event, hin⟩, hrest⟩,
      fun e he => ?_, fun i hi => ?_⟩
    · rcases List.mem_append.mp he with hold | hnew
      · exact h.handled e hold
      · obtain rfl := List.mem_singleton.mp hnew
        exact ⟨fields, hdelivered.1, hparse⟩
    · obtain ⟨event', hevent'⟩ := h.settled i hi
      exact ⟨event', List.mem_append_left _ hevent'⟩
  | acks origin n position rest phase hphase hnext =>
    have hholds := h.workers w
    rw [hphase] at hholds
    obtain ⟨hlt, hevent, hrest⟩ := hholds
    have hgrows := Stream.grows_ack s.stream position
    refine ⟨holds_goto h.workers hgrows (fun e he => he) ?_, h.handled, fun i hi => ?_⟩
    · rcases hnext with rfl | rfl
      · trivial
      · exact fun e he => (hrest e he).mono hgrows
    · rcases (Stream.settled_ack hlt i).mp hi with rfl | hold
      · exact hevent
      · exact h.settled i hold
  | leaves phase hphase =>
    refine h.grow (Stream.grows_refl s.stream) (fun i => Iff.rfl) ?_
    rcases hphase with rfl | rfl <;> trivial

theorem Worked.add (h : Worked s) (fields : StreamFields) {outbox : OutboxState} {sent : Nat → Bool}
    {offered : List EventSnapshot} :
    Worked { s with
      outbox := outbox, sent := sent, offered := offered, stream := s.stream.add fields } := by
  have hgrows := Stream.grows_add s.stream fields
  refine ⟨fun v => (h.workers v).mono hgrows fun e he => he, fun e he => ?_, h.settled⟩
  obtain ⟨fields', hentry, hparse⟩ := h.handled e he
  exact ⟨fields', hgrows.entries _ _ hentry, hparse⟩

end Steps

/-! ## Runs -/

section Runs

variable {name : Nat → String} {maxAttempts : Int} {minIdle count : Nat} {s s' : TransportState}

theorem publish_frame {a : OutboxAction} (h : s.publish maxAttempts a = some s') :
    s'.stream = s.stream ∧ s'.workers = s.workers ∧ s'.handled = s.handled := by
  unfold TransportState.publish at h
  split at h
  · obtain ⟨o, -, rfl⟩ := Option.map_eq_some_iff.mp h
    exact ⟨rfl, rfl, rfl⟩
  · split at h
    · obtain ⟨o, -, rfl⟩ := Option.map_eq_some_iff.mp h
      exact ⟨rfl, rfl, rfl⟩
    · cases h
  · obtain ⟨o, -, rfl⟩ := Option.map_eq_some_iff.mp h
    exact ⟨rfl, rfl, rfl⟩

theorem Worked.congr (h : Worked s) (hstream : s'.stream = s.stream) (hworkers : s'.workers = s.workers)
    (hhandled : s'.handled = s.handled) : Worked s' := by
  refine ⟨fun w => ?_, fun e he => ?_, fun i hi => ?_⟩
  · rw [hstream, hworkers, hhandled]
    exact h.workers w
  · rw [hstream]
    rw [hhandled] at he
    exact h.handled e he
  · rw [hhandled]
    rw [hstream] at hi
    exact h.settled i hi

/-- A worker leaves the outbox alone, and the entries. -/
theorem Traced.work (h : Traced name s) {w : Nat} (hstep : WorkStep s w s') : Traced name s' := by
  have hframe : s'.outbox = s.outbox ∧ s'.sent = s.sent ∧ s'.offered = s.offered ∧
      s'.stream.entries = s.stream.entries := by
    cases hstep with
    | reads origin batch stream phase hhands hphase => exact ⟨rfl, rfl, rfl, hhands.entries⟩
    | _ => exact ⟨rfl, rfl, rfl, rfl⟩
  obtain ⟨houtbox, hsent, hoffered, hentries⟩ := hframe
  refine ⟨?_, ?_, ?_, ?_, ?_, ?_⟩
  · rw [houtbox]
    exact h.confirmed
  · rw [houtbox]
    exact h.inHand
  · rw [houtbox, hoffered]
    exact h.offered
  · rw [houtbox, hentries]
    exact h.entries
  · rw [houtbox, hsent, hentries]
    exact h.sent
  · rw [houtbox, hentries]
    exact h.succeeded

theorem sound_step {a : TransportAction} (h : Traced name s ∧ Worked s)
    (hs : s.step name maxAttempts minIdle count a = some s') : Traced name s' ∧ Worked s' := by
  obtain ⟨htraced, hworked⟩ := h
  cases a with
  | commit row =>
    simp only [TransportState.step] at hs
    split at hs
    · next hpending =>
      obtain ⟨events, hinsert, rfl⟩ := Option.map_eq_some_iff.mp hs
      exact ⟨htraced.commit hpending hinsert, hworked.congr rfl rfl rfl⟩
    · cases hs
  | publisher a =>
    obtain ⟨hstream, hworkers, hhandled⟩ := publish_frame hs
    exact ⟨htraced.publish hs, hworked.congr hstream hworkers hhandled⟩
  | added i =>
    obtain ⟨event, hcall, rfl⟩ := Option.map_eq_some_iff.mp hs
    refine ⟨htraced.add (htraced.calling hcall) fun j hj => ?_, hworked.add _⟩
    rw [Function.update_apply] at hj
    split at hj
    · next hji => exact .inr (hji ▸ hcall)
    · exact .inl hj
  | late event =>
    simp only [TransportState.step] at hs
    split at hs
    · next hoffered =>
      obtain rfl := Option.some.inj hs
      exact ⟨htraced.add (htraced.offered event hoffered) fun j hj => .inl hj, hworked.add _⟩
    · cases hs
  | worker w now command =>
    have hstep := work_cases hs
    exact ⟨htraced.work hstep, hworked.step hstep⟩

theorem sound_of_reachable (hs : (machine name maxAttempts minIdle count).Reachable s) :
    Traced name s ∧ Worked s := by
  refine Machine.ReachableVia.invariant (P := fun s => Traced name s ∧ Worked s) (fun s hinit => ?_)
    (fun _ _ _ _ h _ hstep => sound_step h hstep) hs
  obtain ⟨t, processes, clock, hpending, rfl⟩ := hinit
  refine ⟨⟨⟨fun i p e hp he => ?_, fun r hr hst => ?_⟩, fun i p event hp hevent => ?_,
    fun event hevent => (by cases hevent), fun fields hfields => (by cases hfields),
    fun i event hcall hi => (by cases hi), fun id hid => (by cases hid)⟩,
    ⟨fun w => trivial, fun e he => (by cases he), fun i hi => ?_⟩⟩
  · rw [phase_start hp] at he
    cases he
  · rw [hpending r hr] at hst
    cases hst
  · rw [phase_start hp] at hevent
    cases hevent
  · exact absurd hi.1 (Nat.not_lt_zero i)

/-- The entry of a position is that of a row. -/
theorem row_of_entry (h : Traced name s) {i : Nat} {fields : StreamFields}
    (hi : s.stream.entries[i]? = some fields) :
    ∃ r ∈ s.outbox.events, fields = publishFields name r.snapshot := by
  obtain ⟨event, ⟨r, hr, rfl⟩, hfields⟩ := h.entries fields (List.mem_of_getElem? hi)
  exact ⟨r, hr, hfields⟩

/-- A handler has returned on the event of the entry. -/
theorem eventOf_handled (hworked : Worked s) {i : Nat} {e : EventSnapshot} {event : RuntimeEvent}
    (hi : s.stream.entries[i]? = some (publishFields name e)) (hevent : (i, event) ∈ s.handled) :
    event = eventOf name e := by
  obtain ⟨fields, hentry, hparse⟩ := hworked.handled _ hevent
  rw [hi] at hentry
  obtain rfl := Option.some.inj hentry
  rw [parseEvent_publishFields] at hparse
  exact (Option.some.inj hparse).symm

end Runs

/-- **At least once, and nothing else.**  A row is published only if its event is in the stream, and is
acknowledged there only after a handler has returned on it; and the handlers get the events of rows, as
they were written. -/
theorem delivered_at_least_once {name : Nat → String} {maxAttempts : Int} {minIdle count : Nat}
    {s : TransportState} (hs : (machine name maxAttempts minIdle count).Reachable s) :
    (∀ r ∈ s.outbox.events, r.status = .published →
      ∃ i, s.stream.entries[i]? = some (publishFields name r.snapshot) ∧
        (s.stream.Settled i → (i, eventOf name r.snapshot) ∈ s.handled)) ∧
      ∀ i event, (i, event) ∈ s.handled → ∃ r ∈ s.outbox.events,
        s.stream.entries[i]? = some (publishFields name r.snapshot) ∧
          event = eventOf name r.snapshot := by
  obtain ⟨htraced, hworked⟩ := sound_of_reachable hs
  constructor
  · intro r hr hpublished
    obtain ⟨e, ⟨r', hr', rfl⟩, hid, hin⟩ :=
      htraced.succeeded r.eventId (htraced.confirmed.rows r hr hpublished)
    obtain rfl : r' = r := Table.eq_of_key hr' hr hid
    obtain ⟨i, hi⟩ := List.mem_iff_getElem?.mp hin
    refine ⟨i, hi, fun hsettled => ?_⟩
    obtain ⟨event, hevent⟩ := hworked.settled i hsettled
    rw [← eventOf_handled hworked hi hevent]
    exact hevent
  · intro i event hevent
    obtain ⟨fields, hi, -⟩ := hworked.handled _ hevent
    obtain ⟨r, hr, rfl⟩ := row_of_entry htraced hi
    exact ⟨r, hr, hi, eventOf_handled hworked hi hevent⟩

def wakeupRow : OutboxRow where
  eventId := 1
  eventType := .planWakeup
  aggregateId := 0
  payload := .plan 0 0
  status := .pending
  attempts := 0
  availableAt := 0
  publishedAt := none
  createdAt := 0

/-- An event that is published and handled, while its `XADD` is done a second time. -/
def wholeWay : List TransportAction :=
  .commit wakeupRow :: ((actionsOf 0 [.scan 1, .loaded, .publish]).map .publisher ++
    .added 0 :: ((actionsOf 0 [.returned, .lock, .commit]).map .publisher ++
    .late wakeupRow.snapshot ::
      [.read true, .read true, .read true, .parse, .returned, .ack true, .parse].map (.worker 0 1)))

def sampleName (id : Nat) : String := if id = 0 then "plan_0" else "event_1"

def emptyState : TransportState :=
  ⟨.start .empty 1 0, fun _ => false, [], .empty, fun _ => .idle, []⟩

theorem delivered_at_least_once_wholeWay :
    ∃ s, (machine sampleName 10 60000 10).run emptyState wholeWay = some s ∧
      s.handled.length = 1 ∧ s.stream.Settled 0 ∧ ¬ s.stream.Settled 1 ∧
      (∀ r ∈ s.outbox.events, r.status = .published →
        ∃ i, s.stream.entries[i]? = some (publishFields sampleName r.snapshot) ∧
          (s.stream.Settled i → (i, eventOf sampleName r.snapshot) ∈ s.handled)) ∧
        ∀ i event, (i, event) ∈ s.handled → ∃ r ∈ s.outbox.events,
          s.stream.entries[i]? = some (publishFields sampleName r.snapshot) ∧
            event = eventOf sampleName r.snapshot := by
  have hrun : ((machine sampleName 10 60000 10).run emptyState wholeWay).any (fun s =>
      s.handled.length = 1 && decide (s.stream.Settled 0) && !decide (s.stream.Settled 1)) = true := by
    decide +kernel
  obtain ⟨s, hs, hends⟩ := (Option.any_eq_true _ _).mp hrun
  rw [Bool.and_eq_true, Bool.and_eq_true, Bool.not_eq_true', decide_eq_true_eq, decide_eq_true_eq,
    decide_eq_false_iff_not] at hends
  have hstart : (machine sampleName 10 60000 10).Reachable emptyState :=
    .init ⟨.empty, 1, 0, fun r hr => absurd hr (Table.not_mem_empty r), rfl⟩
  exact ⟨s, hs, hends.1.1, hends.1.2, hends.2, delivered_at_least_once (hstart.run hs)⟩

end Transport

end DocFlow.Messaging
