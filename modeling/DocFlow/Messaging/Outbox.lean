import DocFlow.Domain
import DocFlow.Lib.Machine
import DocFlow.Lib.Tokens

/-!
# The publishers of the outbox

`OutboxPublisher.publish_batch` loads a batch in one transaction, hands its events to the transport
one by one, and marks each event in a transaction of its own.  Any number of processes do so on one
table; a step of the machine is a step of one of them.

The row locks are part of the state.  A scan locks the rows it selects and passes over the rows that
are locked, and the end of a transaction gives its locks back: those of a scan are gone before the
first event of the batch is published.

`handed`, `succeeded` and `failed` record the calls of `publish`, which the processes do not see of
each other.  An identifier stands for its string, and its order for the order of the strings.
-/

namespace DocFlow.Messaging

/-- A row of `outbox_events`, with the column the scan is ordered by. -/
structure OutboxRow extends OutboxEvent where
  createdAt : Time
deriving DecidableEq, Repr

def OutboxRow.id (r : OutboxRow) : EventId := r.eventId

abbrev OutboxTable := Table OutboxRow.id

/-- `_EventSnapshot`. -/
structure EventSnapshot where
  eventId : EventId
  eventType : RuntimeEventType
  payload : EventPayload
deriving DecidableEq, Repr

def OutboxRow.snapshot (r : OutboxRow) : EventSnapshot := ⟨r.eventId, r.eventType, r.payload⟩

/-! ## The repository -/

/-- `order_by(created_at, event_id)`. -/
def ScanOrder (a b : OutboxRow) : Prop :=
  a.createdAt < b.createdAt ∨ a.createdAt = b.createdAt ∧ a.eventId ≤ b.eventId

instance : DecidableRel ScanOrder := fun _ _ => inferInstanceAs (Decidable (_ ∨ _))

/-- The rows a scan may select: pending, due, and not locked. -/
def availableRows (now : Time) (locks : EventId → Option Nat) (t : OutboxTable) : List OutboxRow :=
  t.rows.filter fun r => r.status = .pending ∧ r.availableAt ≤ now ∧ locks r.eventId = none

/-- `list_available_for_update`, with `skip_locked`. -/
def listAvailableForUpdate (now : Time) (limit : Nat) (locks : EventId → Option Nat)
    (t : OutboxTable) : List OutboxRow :=
  ((availableRows now locks t).insertionSort ScanOrder).take limit

theorem mem_of_mem_listAvailable {now : Time} {limit : Nat} {locks : EventId → Option Nat}
    {t : OutboxTable} {r : OutboxRow} (h : r ∈ listAvailableForUpdate now limit locks t) :
    r ∈ t ∧ r.status = .pending ∧ r.availableAt ≤ now ∧ locks r.eventId = none := by
  have hsorted := List.mem_of_mem_take h
  rw [List.mem_insertionSort, availableRows, List.mem_filter, decide_eq_true_eq] at hsorted
  exact hsorted

/-- **A scan with a large enough limit selects every row that it may select.** -/
theorem mem_listAvailable {now : Time} {limit : Nat} {locks : EventId → Option Nat}
    {t : OutboxTable} (hlimit : (availableRows now locks t).length ≤ limit) {r : OutboxRow} :
    r ∈ listAvailableForUpdate now limit locks t ↔
      r ∈ t ∧ r.status = .pending ∧ r.availableAt ≤ now ∧ locks r.eventId = none := by
  refine ⟨mem_of_mem_listAvailable, fun h => ?_⟩
  rw [listAvailableForUpdate, List.take_of_length_le, List.mem_insertionSort, availableRows,
    List.mem_filter, decide_eq_true_eq]
  · exact h
  · rw [List.length_insertionSort]
    exact hlimit

theorem nodup_listAvailable (now : Time) (limit : Nat) (locks : EventId → Option Nat)
    (t : OutboxTable) : ((listAvailableForUpdate now limit locks t).map OutboxRow.id).Nodup := by
  have hperm := (List.perm_insertionSort ScanOrder (availableRows now locks t)).map OutboxRow.id
  have hrows : ((availableRows now locks t).map OutboxRow.id).Nodup :=
    t.nodup.sublist (List.filter_sublist.map _)
  exact (hperm.nodup_iff.mpr hrows).sublist ((List.take_sublist _ _).map _)

/-! ## The publisher -/

/-- Where a process is in `publish_batch`. -/
inductive Phase
  | idle
  /-- the transaction of `_load_batch` is open -/
  | loading (snapshots : List EventSnapshot)
  | publishing (snapshots : List EventSnapshot)
  | calling (event : EventSnapshot) (rest : List EventSnapshot)
  /-- `publish` has come back, and the event is to be marked -/
  | marking (event : EventSnapshot) (succeeded : Bool) (rest : List EventSnapshot)
  /-- the row of the event is locked and written, but not committed -/
  | marked (event : EventSnapshot) (succeeded : Bool) (rest : List EventSnapshot)
deriving DecidableEq, Repr

/-- A process, with the number of events its batch has published. -/
structure Publisher where
  phase : Phase
  published : Nat
deriving DecidableEq, Repr

def Publisher.goto (p : Publisher) (phase : Phase) : Publisher := { p with phase := phase }

/-- The event has been dealt with, and the loop goes on. -/
def Publisher.next (p : Publisher) (succeeded : Bool) (rest : List EventSnapshot) : Publisher :=
  ⟨.publishing rest, if succeeded then p.published + 1 else p.published⟩

inductive Command
  | scan (limit : Nat)
  | loaded
  | publish
  | returned
  | raised
  | lock
  | commit
  | finish
  /-- the process dies, or the batch is given up on an exception of the database -/
  | crash
deriving DecidableEq, Repr

structure OutboxAction where
  publisher : Nat
  now : Time
  command : Command
deriving DecidableEq, Repr

structure OutboxState where
  events : OutboxTable
  publishers : List Publisher
  /-- who holds the lock on a row -/
  locks : EventId → Option Nat
  clock : Time
  /-- the calls of `publish`, each with its time -/
  handed : List (EventId × Time)
  /-- the calls that have returned, and those that have raised -/
  succeeded : List EventId
  failed : List EventId

/-- The write of `_mark_published`. -/
def markPublished (now : Time) (r : OutboxRow) : OutboxRow :=
  { r with status := .published, publishedAt := some now }

/-- The write of `_mark_failed`. -/
def markFailed (maxAttempts : Int) (r : OutboxRow) : OutboxRow :=
  { r with
    attempts := r.attempts + 1
    status := if maxAttempts ≤ r.attempts + 1 then .deadLetter else r.status }

def markRow (maxAttempts : Int) (now : Time) (succeeded : Bool) (r : OutboxRow) : OutboxRow :=
  if succeeded then markPublished now r else markFailed maxAttempts r

namespace OutboxState

@[simps] def setPublisher (s : OutboxState) (i : Nat) (p : Publisher) : OutboxState :=
  { s with publishers := s.publishers.set i p }

/-- The rows of a scan are locked. -/
@[simps] def lockRows (s : OutboxState) (i : Nat) (rows : List OutboxRow) : OutboxState :=
  { s with locks := fun e => if e ∈ rows.map OutboxRow.id then some i else s.locks e }

/-- A transaction has ended. -/
@[simps] def unlock (s : OutboxState) (i : Nat) : OutboxState :=
  { s with locks := fun e => if s.locks e = some i then none else s.locks e }

@[simps] def lockRow (s : OutboxState) (i : Nat) (eventId : EventId) : OutboxState :=
  { s with locks := fun e => if e = eventId then some i else s.locks e }

@[simps] def save (s : OutboxState) (r : OutboxRow) : OutboxState :=
  { s with events := s.events.save r }

/-- `_load_batch`, up to the end of its transaction. -/
def load (s : OutboxState) (i : Nat) (limit : Nat) : OutboxState :=
  let rows := listAvailableForUpdate s.clock limit s.locks s.events
  (s.lockRows i rows).setPublisher i ⟨.loading (rows.map OutboxRow.snapshot), 0⟩

/-- `get_by_id_for_update`, once nobody holds the row, and the check of its status. -/
def lockEvent (s : OutboxState) (i : Nat) (p : Publisher) (event : EventSnapshot) (succeeded : Bool)
    (rest : List EventSnapshot) : Option OutboxState :=
  if s.locks event.eventId ≠ none then none
  else
    match s.events.get? event.eventId with
    | none => some (s.setPublisher i (p.next succeeded rest))
    | some row =>
      if row.status ≠ .pending then some (s.setPublisher i (p.next succeeded rest))
      else some ((s.lockRow i event.eventId).setPublisher i (p.goto (.marked event succeeded rest)))

/-- The mark is committed, and the lock on the row is given back. -/
def commitMark (maxAttempts : Int) (s : OutboxState) (i : Nat) (p : Publisher)
    (event : EventSnapshot) (succeeded : Bool) (rest : List EventSnapshot) : Option OutboxState :=
  match s.events.get? event.eventId with
  | none => none
  | some row =>
    some (((s.save (markRow maxAttempts s.clock succeeded row)).unlock i).setPublisher i
      (p.next succeeded rest))

/-- One step of a process. -/
def perform (maxAttempts : Int) (s : OutboxState) (i : Nat) (p : Publisher) :
    Command → Option OutboxState
  | .scan limit =>
    match p.phase with
    | .idle => some (s.load i limit)
    | _ => none
  | .loaded =>
    match p.phase with
    | .loading snapshots => some ((s.unlock i).setPublisher i (p.goto (.publishing snapshots)))
    | _ => none
  | .publish =>
    match p.phase with
    | .publishing (event :: rest) =>
      some { s.setPublisher i (p.goto (.calling event rest)) with
        handed := s.handed ++ [(event.eventId, s.clock)] }
    | _ => none
  | .returned =>
    match p.phase with
    | .calling event rest =>
      some { s.setPublisher i (p.goto (.marking event true rest)) with
        succeeded := s.succeeded ++ [event.eventId] }
    | _ => none
  | .raised =>
    match p.phase with
    | .calling event rest =>
      some { s.setPublisher i (p.goto (.marking event false rest)) with
        failed := s.failed ++ [event.eventId] }
    | _ => none
  | .lock =>
    match p.phase with
    | .marking event succeeded rest => s.lockEvent i p event succeeded rest
    | _ => none
  | .commit =>
    match p.phase with
    | .marked event succeeded rest => s.commitMark maxAttempts i p event succeeded rest
    | _ => none
  | .finish =>
    match p.phase with
    | .publishing [] => some (s.setPublisher i (p.goto .idle))
    | _ => none
  | .crash => some ((s.unlock i).setPublisher i (p.goto .idle))

/-- The clock does not go back. -/
def step (maxAttempts : Int) (s : OutboxState) (a : OutboxAction) : Option OutboxState := do
  let p ← s.publishers[a.publisher]?
  if s.clock ≤ a.now then perform maxAttempts { s with clock := a.now } a.publisher p a.command
  else none

/-- A table, and so many processes that have not begun. -/
def start (t : OutboxTable) (processes : Nat) (clock : Time) : OutboxState :=
  ⟨t, List.replicate processes ⟨.idle, 0⟩, fun _ => none, clock, [], [], []⟩

end OutboxState

/-! ## What one step does -/

/-- The events of a batch that are not marked yet. -/
def Phase.ids : Phase → List EventId
  | .idle => []
  | .loading snapshots | .publishing snapshots => snapshots.map EventSnapshot.eventId
  | .calling event rest | .marking event _ rest | .marked event _ rest =>
    event.eventId :: rest.map EventSnapshot.eventId

/-- The ways a process can go on. -/
inductive OutboxStep (maxAttempts : Int) (s : OutboxState) (i : Nat) (p : Publisher) :
    Command → OutboxState → Prop
  | scanned (limit : Nat) : p.phase = .idle → OutboxStep maxAttempts s i p (.scan limit) (s.load i limit)
  | loaded (snapshots : List EventSnapshot) : p.phase = .loading snapshots →
      OutboxStep maxAttempts s i p .loaded ((s.unlock i).setPublisher i (p.goto (.publishing snapshots)))
  | handed (event : EventSnapshot) (rest : List EventSnapshot) :
      p.phase = .publishing (event :: rest) →
      OutboxStep maxAttempts s i p .publish { s.setPublisher i (p.goto (.calling event rest)) with
        handed := s.handed ++ [(event.eventId, s.clock)] }
  | returned (event : EventSnapshot) (rest : List EventSnapshot) : p.phase = .calling event rest →
      OutboxStep maxAttempts s i p .returned { s.setPublisher i (p.goto (.marking event true rest)) with
        succeeded := s.succeeded ++ [event.eventId] }
  | raised (event : EventSnapshot) (rest : List EventSnapshot) : p.phase = .calling event rest →
      OutboxStep maxAttempts s i p .raised { s.setPublisher i (p.goto (.marking event false rest)) with
        failed := s.failed ++ [event.eventId] }
  | passed (event : EventSnapshot) (succeeded : Bool) (rest : List EventSnapshot) :
      p.phase = .marking event succeeded rest →
      (∀ r ∈ s.events, r.eventId = event.eventId → r.status ≠ .pending) →
      OutboxStep maxAttempts s i p .lock (s.setPublisher i (p.next succeeded rest))
  | locked (event : EventSnapshot) (succeeded : Bool) (rest : List EventSnapshot) (r : OutboxRow) :
      p.phase = .marking event succeeded rest → s.locks event.eventId = none → r ∈ s.events →
      r.eventId = event.eventId → r.status = .pending →
      OutboxStep maxAttempts s i p .lock
        ((s.lockRow i event.eventId).setPublisher i (p.goto (.marked event succeeded rest)))
  | committed (event : EventSnapshot) (succeeded : Bool) (rest : List EventSnapshot) (r : OutboxRow) :
      p.phase = .marked event succeeded rest → r ∈ s.events → r.eventId = event.eventId →
      OutboxStep maxAttempts s i p .commit
        (((s.save (markRow maxAttempts s.clock succeeded r)).unlock i).setPublisher i
          (p.next succeeded rest))
  | finished : p.phase = .publishing [] →
      OutboxStep maxAttempts s i p .finish (s.setPublisher i (p.goto .idle))
  | crashed : OutboxStep maxAttempts s i p .crash ((s.unlock i).setPublisher i (p.goto .idle))

section Steps

variable {maxAttempts : Int} {s s' : OutboxState} {i : Nat} {p : Publisher}

theorem lockEvent_cases {event : EventSnapshot} {succeeded : Bool} {rest : List EventSnapshot}
    (hphase : p.phase = .marking event succeeded rest)
    (h : s.lockEvent i p event succeeded rest = some s') :
    OutboxStep maxAttempts s i p .lock s' := by
  unfold OutboxState.lockEvent at h
  split at h
  · cases h
  next hfree =>
    rw [not_not] at hfree
    split at h
    · next hnone =>
      obtain rfl := Option.some.inj h
      refine .passed event succeeded rest hphase fun r hr hid => ?_
      exact absurd hid (Table.get?_eq_none.mp hnone r hr)
    · next row hrow =>
      obtain ⟨hmem, hkey⟩ := Table.get?_eq_some.mp hrow
      split at h
      · next hst =>
        obtain rfl := Option.some.inj h
        refine .passed event succeeded rest hphase fun r hr hid => ?_
        rw [Table.eq_of_key hr hmem (hid.trans hkey.symm)]
        exact hst
      · next hst =>
        obtain rfl := Option.some.inj h
        exact .locked event succeeded rest row hphase hfree hmem hkey (not_not.mp hst)

theorem perform_cases {command : Command} (h : s.perform maxAttempts i p command = some s') :
    OutboxStep maxAttempts s i p command s' := by
  cases command with
  | crash =>
    obtain rfl := Option.some.inj h
    exact .crashed
  | scan limit =>
    simp only [OutboxState.perform] at h
    split at h
    · next hphase =>
      obtain rfl := Option.some.inj h
      exact .scanned limit hphase
    · cases h
  | loaded =>
    simp only [OutboxState.perform] at h
    split at h
    · next snapshots hphase =>
      obtain rfl := Option.some.inj h
      exact .loaded snapshots hphase
    · cases h
  | publish =>
    simp only [OutboxState.perform] at h
    split at h
    · next event rest hphase =>
      obtain rfl := Option.some.inj h
      exact .handed event rest hphase
    · cases h
  | returned =>
    simp only [OutboxState.perform] at h
    split at h
    · next event rest hphase =>
      obtain rfl := Option.some.inj h
      exact .returned event rest hphase
    · cases h
  | raised =>
    simp only [OutboxState.perform] at h
    split at h
    · next event rest hphase =>
      obtain rfl := Option.some.inj h
      exact .raised event rest hphase
    · cases h
  | lock =>
    simp only [OutboxState.perform] at h
    split at h
    · next event succeeded rest hphase => exact lockEvent_cases hphase h
    · cases h
  | commit =>
    simp only [OutboxState.perform, OutboxState.commitMark] at h
    split at h
    · next event succeeded rest hphase =>
      split at h
      · cases h
      · next row hrow =>
        obtain rfl := Option.some.inj h
        obtain ⟨hmem, hkey⟩ := Table.get?_eq_some.mp hrow
        exact .committed event succeeded rest row hphase hmem hkey
    · cases h
  | finish =>
    simp only [OutboxState.perform] at h
    split at h
    · next hphase =>
      obtain rfl := Option.some.inj h
      exact .finished hphase
    · cases h

/-- **A process goes on in one of the listed ways.** -/
theorem step_cases {a : OutboxAction} (h : s.step maxAttempts a = some s') :
    ∃ p, s.publishers[a.publisher]? = some p ∧ s.clock ≤ a.now ∧
      OutboxStep maxAttempts { s with clock := a.now } a.publisher p a.command s' := by
  simp only [OutboxState.step, Option.bind_eq_bind, Option.bind_eq_some_iff] at h
  obtain ⟨p, hp, h⟩ := h
  split at h
  · next hclock => exact ⟨p, hp, hclock, perform_cases h⟩
  · cases h

end Steps

/-- The processes on a table of events. -/
def outbox (maxAttempts : Int) (t : OutboxTable) : Machine OutboxState OutboxAction :=
  ⟨fun s => ∃ processes clock, s = .start t processes clock, OutboxState.step maxAttempts⟩

end DocFlow.Messaging
