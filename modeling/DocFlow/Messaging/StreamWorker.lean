import DocFlow.Domain
import Mathlib.Data.List.Induction
import Mathlib.Data.List.TakeWhile

/-!
# The consumer of a Redis stream

`RedisStreamWorker.run_once` takes messages from three sources, the first of which that has any is
handled: entries that have been pending for long (`XAUTOCLAIM`), the consumer's own pending entries
(`XREADGROUP` with the id `0`), new messages (`XREADGROUP` with `>`).  A batch is dispatched in
order, each message is acknowledged after its handler has returned, and the first exception ends the
call.

One consumer reads the group.  Then a batch of new messages is read only when nothing is pending, so
the entries pending at any time are the rest of one batch, delivered together: they are claimed
together or not at all, and read together.  Hence each call begins with the oldest of them
(`Blocked`), and the messages behind one that fails are never reached.

The same worker is a part of `Transport`, where the group is a `Stream` with any number of consumers and
the fields are those the publisher writes.  Here the messages are anybody's: a field may be missing, the
payload is whatever `json.loads` makes of it, and what counts is the order of the pending entries.
`StreamGroup` relates the two groups.
-/

namespace DocFlow.Messaging

/-- What `json.loads` makes of a payload, as far as the worker looks at it. -/
inductive Loaded
  | dict (entries : List (String × String))
  | other
deriving DecidableEq, Repr

/-- A message of the stream.  Identifiers grow along the stream. -/
structure StreamMessage where
  messageId : Nat
  fields : List (String × String)
deriving DecidableEq, Repr

structure RuntimeEvent where
  eventId : String
  eventType : String
  payload : List (String × String)
deriving DecidableEq, Repr

/-- `_parse_event`; `none` is an exception. -/
def parseEvent (loads : String → Option Loaded) (fields : List (String × String)) :
    Option RuntimeEvent := do
  let text ← fields.lookup "payload"
  match ← loads text with
  | .other => none
  | .dict payload => some ⟨← fields.lookup "event_id", ← fields.lookup "event_type", payload⟩

/-! ## The consumer group -/

/-- An entry of the list of pending entries, with the time of its last delivery. -/
structure PendingEntry where
  message : StreamMessage
  deliveredAt : Time
deriving DecidableEq, Repr

/-- The group and its only consumer: the pending entries in the order of the stream, and the
messages after the last one delivered. -/
structure ConsumerGroup where
  pending : List PendingEntry
  undelivered : List StreamMessage
deriving DecidableEq, Repr

namespace ConsumerGroup

/-- The entries of some messages have been delivered again. -/
def redeliver (g : ConsumerGroup) (now : Time) (messages : List StreamMessage) : ConsumerGroup :=
  { g with pending := g.pending.map fun e =>
      if e.message ∈ messages then { e with deliveredAt := now } else e }

/-- `XAUTOCLAIM` from the start: at most `count` entries that have been idle for long enough, among
the first `10 * count`. -/
def xautoclaim (g : ConsumerGroup) (now minIdle : Time) (count : Nat) :
    List StreamMessage × ConsumerGroup :=
  let idle := (g.pending.take (10 * count)).filter fun e => minIdle ≤ now - e.deliveredAt
  let messages := (idle.take count).map PendingEntry.message
  (messages, g.redeliver now messages)

/-- `XREADGROUP` with the id `0`. -/
def xreadgroupHistory (g : ConsumerGroup) (now : Time) (count : Nat) :
    List StreamMessage × ConsumerGroup :=
  let messages := (g.pending.take count).map PendingEntry.message
  (messages, g.redeliver now messages)

/-- `XREADGROUP` with the id `>`. -/
def xreadgroupNew (g : ConsumerGroup) (now : Time) (count : Nat) :
    List StreamMessage × ConsumerGroup :=
  let messages := g.undelivered.take count
  (messages, ⟨g.pending ++ messages.map (⟨·, now⟩), g.undelivered.drop count⟩)

def xack (g : ConsumerGroup) (messageId : Nat) : ConsumerGroup :=
  { g with pending := g.pending.filter fun e => e.message.messageId ≠ messageId }

end ConsumerGroup

/-! ## The worker -/

/-- The group, with the messages whose events have been given to the dispatcher and those that have
been acknowledged. -/
structure StreamState where
  group : ConsumerGroup
  dispatched : List StreamMessage
  acked : List StreamMessage
deriving DecidableEq, Repr

/-- The times of the three commands of a call. -/
structure CallTimes where
  claim : Time
  history : Time
  new : Time
deriving DecidableEq, Repr

section Worker

variable (loads : String → Option Loaded) (handle : RuntimeEvent → Bool)

/-- `_dispatch_messages`; `none` is an exception. -/
def dispatchMessages : List StreamMessage → StreamState → StreamState × Option Nat
  | [], s => (s, some 0)
  | m :: rest, s =>
    match parseEvent loads m.fields with
    | none => (s, none)
    | some event =>
      let s := { s with dispatched := s.dispatched ++ [m] }
      if handle event then
        let (s, handled) := dispatchMessages rest
          { s with group := s.group.xack m.messageId, acked := s.acked ++ [m] }
        (s, handled.map (· + 1))
      else (s, none)

/-- The messages that a command has answered with are dispatched. -/
def dispatchAnswer (s : StreamState) (answer : List StreamMessage × ConsumerGroup) :
    StreamState × Option Nat :=
  dispatchMessages loads handle answer.1 { s with group := answer.2 }

/-- `run_once`. -/
def runOnce (minIdle : Time) (count : Nat) (s : StreamState) (times : CallTimes) :
    StreamState × Option Nat :=
  match dispatchAnswer loads handle s (s.group.xautoclaim times.claim minIdle count) with
  | (s, none) => (s, none)
  | (s, some (handled + 1)) => (s, some (handled + 1))
  | (s, some 0) =>
    match dispatchAnswer loads handle s (s.group.xreadgroupHistory times.history count) with
    | (s, none) => (s, none)
    | (s, some (handled + 1)) => (s, some (handled + 1))
    | (s, some 0) => dispatchAnswer loads handle s (s.group.xreadgroupNew times.new count)

/-- `run_stream_loop`: an exception ends the call, and the loop goes on. -/
def streamLoop (minIdle : Time) (count : Nat) (s : StreamState) (calls : List CallTimes) :
    StreamState :=
  calls.foldl (fun s times => (runOnce loads handle minIdle count s times).1) s

/-- The message parses, and its handler returns. -/
def Succeeds (m : StreamMessage) : Bool :=
  match parseEvent loads m.fields with
  | none => false
  | some event => handle event

end Worker

/-- A new group on a stream. -/
def StreamState.start (messages : List StreamMessage) : StreamState := ⟨⟨[], messages⟩, [], []⟩

/-! ## One batch -/

section Batch

variable {loads : String → Option Loaded} {handle : RuntimeEvent → Bool}

/-- What dispatching the pending entries `ps` leaves: those before the first failure are dispatched
and acknowledged, the others stay pending, and nothing behind the first failure is dispatched. -/
structure Dispatches (loads : String → Option Loaded) (handle : RuntimeEvent → Bool)
    (s : StreamState) (ps : List PendingEntry) (r : StreamState × Option Nat) : Prop where
  pending : r.1.group.pending = ps.dropWhile fun e => Succeeds loads handle e.message
  undelivered : r.1.group.undelivered = s.group.undelivered
  acked : r.1.acked = s.acked ++ (ps.map PendingEntry.message).takeWhile (Succeeds loads handle)
  handled : r.2 = if ∀ e ∈ ps, Succeeds loads handle e.message then some ps.length else none
  dispatched : ∃ tried, r.1.dispatched = s.dispatched ++ tried ∧
    (ps.map PendingEntry.message).takeWhile (Succeeds loads handle) <+: tried ∧
    tried <+: ps.map PendingEntry.message ∧
    tried.length ≤ ((ps.map PendingEntry.message).takeWhile (Succeeds loads handle)).length + 1

theorem dispatchMessages_eq (ps : List PendingEntry) (s : StreamState)
    (hpending : s.group.pending = ps) (hnodup : (ps.map fun e => e.message.messageId).Nodup) :
    Dispatches loads handle s ps
      (dispatchMessages loads handle (ps.map PendingEntry.message) s) := by
  induction ps generalizing s with
  | nil => exact ⟨hpending, rfl, (List.append_nil _).symm, by simp [dispatchMessages],
      [], (List.append_nil _).symm, List.nil_prefix, List.nil_prefix, Nat.zero_le _⟩
  | cons e ps ih =>
    obtain ⟨hnew, hrest⟩ := List.nodup_cons.mp hnodup
    simp only [List.map_cons, dispatchMessages]
    cases hparse : parseEvent loads e.message.fields with
    | none =>
      have hfails : Succeeds loads handle e.message = false := by
        rw [Succeeds, hparse]
      refine ⟨?_, rfl, ?_, ?_, [], (List.append_nil _).symm, ?_, List.nil_prefix, Nat.zero_le _⟩
      · simp [hpending, hfails]
      · simp [hfails]
      · simp [hfails]
      · simp [hfails]
    | some event =>
      cases hhandle : handle event with
      | false =>
        have hfails : Succeeds loads handle e.message = false := by
          simp only [Succeeds, hparse, hhandle]
        simp only [hhandle, Bool.false_eq_true, if_false]
        refine ⟨?_, rfl, ?_, ?_, [e.message], rfl, ?_, ?_, ?_⟩
        · simp [hpending, hfails]
        · simp [hfails]
        · simp [hfails]
        · simp [hfails]
        · exact List.cons_prefix_cons.mpr ⟨rfl, List.nil_prefix⟩
        · simp
      | true =>
        have hsucceeds : Succeeds loads handle e.message = true := by
          simp only [Succeeds, hparse, hhandle]
        simp only [hhandle, if_true]
        -- the acknowledged entry is the only one of its message
        have hkept : (e :: ps).filter (fun x => x.message.messageId ≠ e.message.messageId) = ps := by
          rw [List.filter_cons_of_neg (by simp), List.filter_eq_self]
          intro x hx
          rw [decide_eq_true_eq]
          intro heq
          exact hnew (List.mem_map.mpr ⟨x, hx, heq⟩)
        have hnext := ih { s with
          group := s.group.xack e.message.messageId
          dispatched := s.dispatched ++ [e.message]
          acked := s.acked ++ [e.message] } (by rw [← hkept, ← hpending]; rfl) hrest
        obtain ⟨tried, htried, hacked, hinitial, hlength⟩ := hnext.dispatched
        refine ⟨?_, hnext.undelivered, ?_, ?_, e.message :: tried, ?_, ?_, ?_, ?_⟩
        · simpa [hsucceeds] using hnext.pending
        · simpa [hsucceeds] using hnext.acked
        · rw [hnext.handled]
          by_cases hall : ∀ x ∈ ps, Succeeds loads handle x.message
          · simp [hsucceeds]
          · rw [if_neg hall, if_neg fun h => hall fun x hx => h x (List.mem_cons_of_mem _ hx)]
            rfl
        · simpa using htried
        · simpa [hsucceeds] using hacked
        · exact List.cons_prefix_cons.mpr ⟨rfl, hinitial⟩
        · simpa [hsucceeds] using hlength

/-! ## One call -/

/-- The pending entries were delivered together and fit into one batch, and the oldest fails. -/
structure Blocked (loads : String → Option Loaded) (handle : RuntimeEvent → Bool) (count : Nat)
    (g : ConsumerGroup) : Prop where
  together : ∃ τ, ∀ e ∈ g.pending, e.deliveredAt = τ
  few : g.pending.length ≤ count
  failing : ∀ e ∈ g.pending.head?, Succeeds loads handle e.message = false

/-- The entries after another delivery. -/
def redelivered (now : Time) (ps : List PendingEntry) : List PendingEntry :=
  ps.map fun e => { e with deliveredAt := now }

theorem map_message_redelivered (now : Time) (ps : List PendingEntry) :
    (redelivered now ps).map PendingEntry.message = ps.map PendingEntry.message := by
  rw [redelivered, List.map_map]
  rfl

theorem deliveredAt_redelivered {now : Time} {ps : List PendingEntry} :
    ∀ e ∈ redelivered now ps, e.deliveredAt = now := by
  intro e he
  obtain ⟨x, -, rfl⟩ := List.mem_map.mp he
  rfl

theorem length_redelivered (now : Time) (ps : List PendingEntry) :
    (redelivered now ps).length = ps.length := List.length_map _

theorem redeliver_nil (g : ConsumerGroup) (now : Time) : g.redeliver now [] = g := by
  simp [ConsumerGroup.redeliver]

theorem redeliver_all (g : ConsumerGroup) (now : Time) :
    g.redeliver now (g.pending.map PendingEntry.message) =
      ⟨redelivered now g.pending, g.undelivered⟩ := by
  have hmap : (g.pending.map fun e => if e.message ∈ g.pending.map PendingEntry.message then
      ({ e with deliveredAt := now } : PendingEntry) else e) = redelivered now g.pending := by
    apply List.map_congr_left
    intro e he
    rw [if_pos (List.mem_map_of_mem he)]
  rw [ConsumerGroup.redeliver, hmap]

/-- Entries that were delivered together are claimed together, or not at all. -/
theorem xautoclaim_cases {count : Nat} {g : ConsumerGroup} (hb : Blocked loads handle count g)
    (now minIdle : Time) :
    g.xautoclaim now minIdle count = ([], g) ∨
      g.xautoclaim now minIdle count = (g.pending.map PendingEntry.message,
        ⟨redelivered now g.pending, g.undelivered⟩) := by
  obtain ⟨τ, hτ⟩ := hb.together
  have hfew := hb.few
  have htake : g.pending.take (10 * count) = g.pending := List.take_of_length_le (by omega)
  by_cases hidle : minIdle ≤ now - τ
  · right
    have hall : (g.pending.filter fun e => minIdle ≤ now - e.deliveredAt) = g.pending := by
      rw [List.filter_eq_self]
      intro e he
      rw [hτ e he, decide_eq_true_eq]
      exact hidle
    rw [ConsumerGroup.xautoclaim]
    simp only [htake, hall]
    rw [List.take_of_length_le hfew, redeliver_all]
  · left
    have hnone : (g.pending.filter fun e => minIdle ≤ now - e.deliveredAt) = [] := by
      rw [List.filter_eq_nil_iff]
      intro e he
      rw [hτ e he, decide_eq_true_eq]
      exact hidle
    rw [ConsumerGroup.xautoclaim]
    simp only [htake, hnone, List.take_nil, List.map_nil, redeliver_nil]

/-- The consumer's own entries are read together. -/
theorem xreadgroupHistory_eq {count : Nat} {g : ConsumerGroup} (hb : Blocked loads handle count g)
    (now : Time) :
    g.xreadgroupHistory now count = (g.pending.map PendingEntry.message,
      ⟨redelivered now g.pending, g.undelivered⟩) := by
  rw [ConsumerGroup.xreadgroupHistory]
  simp only [List.take_of_length_le hb.few, redeliver_all]

variable (loads handle) in
theorem dispatchAnswer_nil (s : StreamState) :
    dispatchAnswer loads handle s ([], s.group) = (s, some 0) := rfl

variable (loads handle) in
/-- A batch is dispatched. -/
theorem dispatchAnswer_eq (s : StreamState) (ps : List PendingEntry) (rest : List StreamMessage)
    (hnodup : ((ps.map PendingEntry.message).map StreamMessage.messageId).Nodup) :
    Dispatches loads handle ⟨⟨ps, rest⟩, s.dispatched, s.acked⟩ ps
      (dispatchAnswer loads handle s (ps.map PendingEntry.message, ⟨ps, rest⟩)) := by
  rw [List.map_map] at hnodup
  exact dispatchMessages_eq ps _ rfl hnodup

/-- Entries that are delivered again: the oldest fails again. -/
theorem dispatchAnswer_again {count : Nat} {s : StreamState}
    (hb : Blocked loads handle count s.group) (hne : s.group.pending ≠ [])
    (hnodup : ((s.group.pending.map PendingEntry.message).map StreamMessage.messageId).Nodup)
    (now : Time) :
    ∃ r, dispatchAnswer loads handle s (s.group.pending.map PendingEntry.message,
        ⟨redelivered now s.group.pending, s.group.undelivered⟩) = (r, none) ∧
      Dispatches loads handle ⟨⟨redelivered now s.group.pending, s.group.undelivered⟩, s.dispatched,
        s.acked⟩ (redelivered now s.group.pending) (r, none) := by
  have hdispatches := dispatchAnswer_eq loads handle s (redelivered now s.group.pending)
    s.group.undelivered (by rw [map_message_redelivered]; exact hnodup)
  rw [map_message_redelivered] at hdispatches
  have hnone := hdispatches.handled
  cases hpending : s.group.pending with
  | nil => exact absurd hpending hne
  | cons e ps =>
    have hfails := hb.failing e (by rw [hpending]; rfl)
    rw [if_neg (by simp [hpending, redelivered, hfails])] at hnone
    rw [← hpending]
    exact ⟨_, Prod.ext rfl hnone, by rw [← hnone]; exact hdispatches⟩

/-- **What a call does.**  It dispatches the pending entries if there are any, and else the next
messages. -/
theorem runOnce_round {count : Nat} {s : StreamState} (hcount : 0 < count)
    (hb : Blocked loads handle count s.group)
    (hnodup : ((s.group.pending.map PendingEntry.message ++ s.group.undelivered).map
      StreamMessage.messageId).Nodup) (minIdle : Time) (times : CallTimes) :
    ∃ ps rest, Dispatches loads handle ⟨⟨ps, rest⟩, s.dispatched, s.acked⟩ ps
        (runOnce loads handle minIdle count s times) ∧
      ps.map PendingEntry.message ++ rest =
        s.group.pending.map PendingEntry.message ++ s.group.undelivered ∧
      (∃ τ, ∀ e ∈ ps, e.deliveredAt = τ) ∧ ps.length ≤ count ∧ (ps = [] → rest = []) := by
  have hids : ((s.group.pending.map PendingEntry.message).map StreamMessage.messageId).Nodup :=
    hnodup.sublist ((List.sublist_append_left _ _).map _)
  by_cases hne : s.group.pending = []
  · -- nothing is pending, and the next messages are read
    have hclaim : s.group.xautoclaim times.claim minIdle count = ([], s.group) := by
      simp [ConsumerGroup.xautoclaim, hne, redeliver_nil]
    have hhistory : s.group.xreadgroupHistory times.history count = ([], s.group) := by
      simp [ConsumerGroup.xreadgroupHistory, hne, redeliver_nil]
    have hrun : runOnce loads handle minIdle count s times =
        dispatchAnswer loads handle s (s.group.xreadgroupNew times.new count) := by
      simp only [runOnce, hclaim, dispatchAnswer_nil, hhistory]
    have hmessages : ((s.group.undelivered.take count).map fun m =>
        (⟨m, times.new⟩ : PendingEntry)).map PendingEntry.message =
        s.group.undelivered.take count := by
      rw [List.map_map]
      exact List.map_id _
    have hnew : s.group.xreadgroupNew times.new count =
        (((s.group.undelivered.take count).map fun m => ⟨m, times.new⟩).map PendingEntry.message,
          ⟨(s.group.undelivered.take count).map fun m => ⟨m, times.new⟩,
            s.group.undelivered.drop count⟩) := by
      rw [hmessages]
      simp only [ConsumerGroup.xreadgroupNew, hne, List.nil_append]
    refine ⟨(s.group.undelivered.take count).map fun m => ⟨m, times.new⟩,
      s.group.undelivered.drop count, ?_, ?_, ⟨times.new, ?_⟩, ?_, ?_⟩
    · rw [hrun, hnew]
      apply dispatchAnswer_eq
      rw [hmessages]
      refine List.Nodup.sublist (List.Sublist.map _ ?_) hnodup
      rw [hne]
      exact List.take_sublist _ _
    · rw [hmessages, List.take_append_drop, hne]
      rfl
    · intro e he
      obtain ⟨m, -, rfl⟩ := List.mem_map.mp he
      rfl
    · rw [List.length_map, List.length_take]
      exact Nat.min_le_left _ _
    · intro hnil
      rw [List.map_eq_nil_iff, List.take_eq_nil_iff] at hnil
      rcases hnil with hzero | hnil
      · omega
      · rw [hnil, List.drop_nil]
  · have hsome : ∀ now, redelivered now s.group.pending = [] → s.group.undelivered = [] := by
      intro now hnil
      exact absurd (List.map_eq_nil_iff.mp hnil) hne
    rcases xautoclaim_cases hb times.claim minIdle with hnone | hall
    · -- nothing is claimed, and the entries are read
      obtain ⟨r, hr, hdispatches⟩ := dispatchAnswer_again hb hne hids times.history
      have hrun : runOnce loads handle minIdle count s times = (r, none) := by
        simp only [runOnce, hnone, dispatchAnswer_nil, xreadgroupHistory_eq hb, hr]
      refine ⟨redelivered times.history s.group.pending, s.group.undelivered, ?_, ?_,
        ⟨_, deliveredAt_redelivered⟩, (length_redelivered _ _).trans_le hb.few, hsome _⟩
      · rw [hrun]
        exact hdispatches
      · rw [map_message_redelivered]
    · obtain ⟨r, hr, hdispatches⟩ := dispatchAnswer_again hb hne hids times.claim
      have hrun : runOnce loads handle minIdle count s times = (r, none) := by
        simp only [runOnce, hall, hr]
      refine ⟨redelivered times.claim s.group.pending, s.group.undelivered, ?_, ?_,
        ⟨_, deliveredAt_redelivered⟩, (length_redelivered _ _).trans_le hb.few, hsome _⟩
      · rw [hrun]
        exact hdispatches
      · rw [map_message_redelivered]

/-! ## The loop -/

theorem takeWhile_append_initial {α : Type} (p : α → Bool) (l l' : List α) :
    l.takeWhile p <+: (l ++ l').takeWhile p := by
  rw [List.takeWhile_append]
  split
  · exact (List.takeWhile_prefix p).trans (List.prefix_append _ _)
  · exact List.prefix_refl _

/-- After `n` calls: the messages before the first failing one are acknowledged in order, at least
one in each call, and nothing behind the first failing one has been dispatched. -/
structure Worked (loads : String → Option Loaded) (handle : RuntimeEvent → Bool) (count : Nat)
    (messages : List StreamMessage) (n : Nat) (s : StreamState) : Prop where
  blocked : Blocked loads handle count s.group
  whole : s.acked ++ (s.group.pending.map PendingEntry.message ++ s.group.undelivered) = messages
  acked : ∀ m ∈ s.acked, Succeeds loads handle m = true ∧ m ∈ s.dispatched
  progress : min n (messages.takeWhile (Succeeds loads handle)).length ≤ s.acked.length
  reached : (messages.takeWhile (Succeeds loads handle)).length < n → s.group.pending = [] →
    s.group.undelivered = []
  dispatched : ∀ m ∈ s.dispatched,
    m ∈ messages.take ((messages.takeWhile (Succeeds loads handle)).length + 1)

variable {count n : Nat} {messages : List StreamMessage} {s : StreamState}

theorem Worked.takeWhile_eq (h : Worked loads handle count messages n s) :
    messages.takeWhile (Succeeds loads handle) = s.acked ++
      (s.group.pending.map PendingEntry.message ++ s.group.undelivered).takeWhile
        (Succeeds loads handle) := by
  conv_lhs => rw [← h.whole]
  exact List.takeWhile_append_of_pos fun m hm => (h.acked m hm).1

theorem Worked.start (messages : List StreamMessage) :
    Worked loads handle count messages 0 (.start messages) where
  blocked := ⟨⟨0, by simp [StreamState.start]⟩, Nat.zero_le _, by simp [StreamState.start]⟩
  whole := rfl
  acked := by simp [StreamState.start]
  progress := by simp
  reached := by simp
  dispatched := by simp [StreamState.start]

theorem Worked.step (h : Worked loads handle count messages n s) (hcount : 0 < count)
    (hnodup : (messages.map StreamMessage.messageId).Nodup) (minIdle : Time) (times : CallTimes) :
    Worked loads handle count messages (n + 1) (runOnce loads handle minIdle count s times).1 := by
  have hids : ((s.group.pending.map PendingEntry.message ++ s.group.undelivered).map
      StreamMessage.messageId).Nodup := by
    refine List.Nodup.sublist (List.Sublist.map _ ?_) hnodup
    rw [← h.whole]
    exact List.sublist_append_right _ _
  obtain ⟨ps, rest, hd, hbatch, ⟨τ, hτ⟩, hfew, hsome⟩ :=
    runOnce_round hcount h.blocked hids minIdle times
  have hpre := h.takeWhile_eq
  have hwhole := h.whole
  rw [← hbatch] at hpre hwhole
  have hdrop : (ps.dropWhile fun e => Succeeds loads handle e.message).map PendingEntry.message =
      (ps.map PendingEntry.message).dropWhile (Succeeds loads handle) := by
    rw [List.dropWhile_map]
    rfl
  have hacked : (runOnce loads handle minIdle count s times).1.acked =
      s.acked ++ (ps.map PendingEntry.message).takeWhile (Succeeds loads handle) := hd.acked
  -- what this call acknowledges is among the messages before the first failing one
  have hmore : (s.acked ++ (ps.map PendingEntry.message).takeWhile (Succeeds loads handle)).length ≤
      (messages.takeWhile (Succeeds loads handle)).length := by
    rw [hpre, List.length_append, List.length_append]
    have hle := (takeWhile_append_initial (Succeeds loads handle) (ps.map PendingEntry.message)
      rest).length_le
    omega
  refine ⟨⟨⟨τ, fun e he => ?_⟩, ?_, ?_⟩, ?_, ?_, ?_, ?_, ?_⟩
  · rw [hd.pending] at he
    exact hτ e ((List.dropWhile_sublist _).subset he)
  · rw [hd.pending]
    exact (List.dropWhile_sublist _).length_le.trans hfew
  · intro e he
    have hnot := List.head?_dropWhile_not (fun e => Succeeds loads handle e.message) ps
    rw [hd.pending] at he
    rw [he] at hnot
    simpa using hnot
  · rw [hacked, hd.pending, hd.undelivered, hdrop, List.append_assoc, ← List.append_assoc _ _ rest,
      List.takeWhile_append_dropWhile]
    exact hwhole
  · intro m hm
    rw [hacked] at hm
    obtain ⟨tried, htried, hincluded, -⟩ := hd.dispatched
    rw [htried]
    rcases List.mem_append.mp hm with hold | hnew
    · exact ⟨(h.acked m hold).1, List.mem_append_left _ (h.acked m hold).2⟩
    · exact ⟨List.mem_takeWhile_imp hnew, List.mem_append_right _ (hincluded.subset hnew)⟩
  · -- if messages before the first failing one are left, then the batch begins with one
    rw [hacked]
    have hprogress := h.progress
    by_cases hdone : (messages.takeWhile (Succeeds loads handle)).length ≤ s.acked.length
    · rw [List.length_append]
      omega
    · cases ps with
      | nil =>
        rw [hsome rfl] at hpre
        rw [hpre] at hdone
        simp at hdone
      | cons e ps =>
        cases hok : Succeeds loads handle e.message with
        | true =>
          simp only [List.map_cons, List.takeWhile_cons, hok, if_true, List.length_append,
            List.length_cons]
          omega
        | false =>
          rw [hpre] at hdone
          simp [hok] at hdone
  · intro hlt hnil
    rw [hd.undelivered]
    rw [hd.pending, List.dropWhile_eq_nil_iff] at hnil
    apply hsome
    have hprogress := h.progress
    cases ps with
    | nil => rfl
    | cons e ps =>
      have hok := hnil e List.mem_cons_self
      have hlength := congrArg List.length hpre
      simp only [List.map_cons, List.cons_append, List.takeWhile_cons, hok, if_true,
        List.length_append, List.length_cons] at hlength
      omega
  · intro m hm
    obtain ⟨tried, htried, -, hinitial, hlength⟩ := hd.dispatched
    rw [htried] at hm
    rcases List.mem_append.mp hm with hold | hnew
    · exact h.dispatched m hold
    · have hwithin : s.acked ++ tried <+:
          messages.take ((messages.takeWhile (Succeeds loads handle)).length + 1) := by
        rw [List.prefix_take_iff]
        constructor
        · rw [← hwhole]
          exact (List.prefix_append_right_inj _).mpr (hinitial.trans (List.prefix_append _ _))
        · rw [List.length_append] at hmore ⊢
          omega
      exact hwithin.subset (List.mem_append_right _ hnew)

theorem streamLoop_concat (minIdle : Time) (calls : List CallTimes) (times : CallTimes) :
    streamLoop loads handle minIdle count s (calls ++ [times]) =
      (runOnce loads handle minIdle count (streamLoop loads handle minIdle count s calls) times).1 :=
  List.foldl_concat ..

/-- **What the calls have done.** -/
theorem worked_loop (hcount : 0 < count) (hnodup : (messages.map StreamMessage.messageId).Nodup)
    (minIdle : Time) (calls : List CallTimes) :
    Worked loads handle count messages calls.length
      (streamLoop loads handle minIdle count (.start messages) calls) := by
  induction calls using List.reverseRecOn with
  | nil => exact .start messages
  | append_singleton calls times ih =>
    rw [streamLoop_concat, List.length_append]
    exact ih.step hcount hnodup minIdle times

/-- **How far a stream is worked off.**  The messages before the first failing one are dispatched and
acknowledged in order, within as many calls; the first failing one stays pending, and those behind
it are never dispatched. -/
theorem stream_worked_off (hcount : 0 < count)
    (hnodup : (messages.map StreamMessage.messageId).Nodup) (minIdle : Time)
    (calls : List CallTimes) :
    let s := streamLoop loads handle minIdle count (.start messages) calls
    let before := messages.takeWhile (Succeeds loads handle)
    s.acked <+: before ∧ (before.length ≤ calls.length → s.acked = before) ∧
    (∀ m ∈ s.acked, m ∈ s.dispatched) ∧
    (∀ m ∈ s.dispatched, m ∈ messages.take (before.length + 1)) ∧
    s.acked ++ (s.group.pending.map PendingEntry.message ++ s.group.undelivered) = messages ∧
    (before.length < calls.length →
      (s.group.pending.map PendingEntry.message).head? = (messages.drop before.length).head?) := by
  intro s before
  have h : Worked loads handle count messages calls.length s :=
    worked_loop hcount hnodup minIdle calls
  have hbefore : before = s.acked ++ _ := h.takeWhile_eq
  have hinitial : s.acked <+: before := by
    rw [hbefore]
    exact List.prefix_append _ _
  have hdone : before.length ≤ calls.length → s.acked = before := by
    intro hle
    apply hinitial.eq_of_length_le
    have hprogress := h.progress
    exact (le_min hle (Nat.le_refl before.length)).trans hprogress
  refine ⟨hinitial, hdone, fun m hm => (h.acked m hm).2, h.dispatched, h.whole, fun hlt => ?_⟩
  have hdrop : messages.drop before.length =
      s.group.pending.map PendingEntry.message ++ s.group.undelivered := by
    rw [← hdone hlt.le, ← h.whole, List.drop_left]
  rw [hdrop]
  cases hpending : s.group.pending with
  | nil =>
    rw [h.reached hlt hpending]
    rfl
  | cons e ps => rfl

end Batch

/-! A stream on which the handler raises for every event named `poison`. -/

def eventFields (eventId : String) : List (String × String) :=
  [("event_id", eventId), ("event_type", "plan.wakeup"), ("payload", "x")]

def poisonedStream : List StreamMessage := [⟨1, eventFields "poison"⟩, ⟨2, eventFields "good"⟩]

def loadsDict : String → Option Loaded := fun _ => some (.dict [])

def raisesOnPoison (event : RuntimeEvent) : Bool := event.eventId ≠ "poison"

def everyMinute (i : Nat) : CallTimes := ⟨i * 60000000, i * 60000000, i * 60000000⟩

theorem stream_worked_off_twoCalls :
    (streamLoop loadsDict raisesOnPoison 60000000 10
      (.start (⟨0, eventFields "first"⟩ :: poisonedStream)) [⟨0, 0, 0⟩, ⟨1, 1, 1⟩]).acked =
      [⟨0, eventFields "first"⟩] :=
  (stream_worked_off (by decide) (by decide) 60000000 [⟨0, 0, 0⟩, ⟨1, 1, 1⟩]).2.1 (by decide)

/-- **A message behind one that always fails is never acknowledged.** -/
theorem poison_blocks :
    ¬ ∀ (loads : String → Option Loaded) (handle : RuntimeEvent → Bool) (minIdle : Time) (count : Nat)
      (messages : List StreamMessage), 0 < count → (messages.map StreamMessage.messageId).Nodup →
      ∀ times : Nat → CallTimes, ∃ n, ∀ m ∈ messages, Succeeds loads handle m = true →
        m ∈ (streamLoop loads handle minIdle count (.start messages)
          ((List.range n).map times)).acked := by
  intro hall
  obtain ⟨n, hn⟩ := hall loadsDict raisesOnPoison 60000000 10 poisonedStream (by decide) (by decide)
    everyMinute
  have hgood := hn ⟨2, eventFields "good"⟩ (by decide) (by decide)
  have h : Worked loadsDict raisesOnPoison 10 poisonedStream _ (streamLoop loadsDict raisesOnPoison
      60000000 10 (.start poisonedStream) ((List.range n).map everyMinute)) :=
    worked_loop (by decide) (by decide) 60000000 _
  have hbefore := h.takeWhile_eq
  have hnone : poisonedStream.takeWhile (Succeeds loadsDict raisesOnPoison) = [] := by decide
  rw [hnone] at hbefore
  rw [(List.append_eq_nil_iff.mp hbefore.symm).1] at hgood
  cases hgood

end DocFlow.Messaging
