import DocFlow.Messaging.Outbox

/-!
# Locked rows and the batches of the publishers

A row that a process has written and not committed is locked by it and pending (`Holding`), so no
other process writes it meanwhile and a settled row is never written again (`settled_run`).  The
events of a batch are due (`Due`).

The batches are `Apart` when no two of them hold the same event and all their rows are pending.
Scans do not keep them apart: a scan passes over locked rows only, and the events of a batch are
locked while they are loaded and while they are marked, not while they are published.  `Exclusive`
is the condition on a scan under which they stay apart.
-/

namespace DocFlow.Messaging

@[simp] theorem Publisher.phase_goto (p : Publisher) (phase : Phase) : (p.goto phase).phase = phase :=
  rfl

@[simp] theorem Publisher.phase_next (p : Publisher) (succeeded : Bool) (rest : List EventSnapshot) :
    (p.next succeeded rest).phase = .publishing rest := rfl

/-- The event whose row is written and not committed. -/
def Phase.held : Phase → Option EventId
  | .marked event _ _ => some event.eventId
  | _ => none

section Steps

variable {maxAttempts : Int} {s s' : OutboxState} {i : Nat} {p : Publisher} {command : Command}

theorem markRow_eventId (maxAttempts : Int) (now : Time) (succeeded : Bool) (r : OutboxRow) :
    (markRow maxAttempts now succeeded r).eventId = r.eventId := by
  cases succeeded <;> rfl

theorem markRow_availableAt (maxAttempts : Int) (now : Time) (succeeded : Bool) (r : OutboxRow) :
    (markRow maxAttempts now succeeded r).availableAt = r.availableAt := by
  cases succeeded <;> rfl

/-- The rows after a commit. -/
theorem mem_save_markRow {t : OutboxTable} {r x : OutboxRow} {now : Time} {succeeded : Bool}
    (hr : r ∈ t) :
    x ∈ t.save (markRow maxAttempts now succeeded r) ↔
      x = markRow maxAttempts now succeeded r ∨ (x ∈ t ∧ x ≠ r) :=
  Table.mem_save_of_mem hr (markRow_eventId maxAttempts now succeeded r)

/-- A row that the process does not hold stays as it is. -/
theorem row_stays (h : OutboxStep maxAttempts s i p command s') {r : OutboxRow} (hr : r ∈ s.events)
    (hheld : p.phase.held ≠ some r.eventId) : r ∈ s'.events := by
  cases h with
  | committed event succeeded rest r₀ hphase hmem hid =>
    have hne : r ≠ r₀ := by
      intro heq
      apply hheld
      rw [hphase, Phase.held, heq, hid]
    exact (mem_save_markRow hmem).mpr (.inr ⟨hr, hne⟩)
  | _ => exact hr

/-- A row after the step is one from before, or the one the process has marked. -/
theorem row_before (h : OutboxStep maxAttempts s i p command s') {r : OutboxRow}
    (hr : r ∈ s'.events) :
    r ∈ s.events ∨ ∃ event succeeded rest, ∃ r₀ ∈ s.events, command = .commit ∧
      p.phase = .marked event succeeded rest ∧ r₀.eventId = event.eventId ∧
      r = markRow maxAttempts s.clock succeeded r₀ := by
  cases h with
  | committed event succeeded rest r₀ hphase hmem hid =>
    rcases (mem_save_markRow hmem).mp hr with heq | ⟨hold, -⟩
    · exact .inr ⟨event, succeeded, rest, r₀, hmem, rfl, hphase, hid, heq⟩
    · exact .inl hold
  | _ => exact .inl hr

/-- The columns that no process writes. -/
theorem row_origin (h : OutboxStep maxAttempts s i p command s') {r : OutboxRow}
    (hr : r ∈ s'.events) :
    ∃ r₀ ∈ s.events, r₀.eventId = r.eventId ∧ r₀.availableAt = r.availableAt := by
  rcases row_before h hr with hold | ⟨event, succeeded, rest, r₀, hmem, -, -, -, rfl⟩
  · exact ⟨r, hold, rfl, rfl⟩
  · exact ⟨r₀, hmem, (markRow_eventId ..).symm, (markRow_availableAt ..).symm⟩

/-- A lock of another process is not touched. -/
theorem locks_of_ne (h : OutboxStep maxAttempts s i p command s') {j : Nat} (hne : j ≠ i)
    {e : EventId} (hlock : s.locks e = some j) : s'.locks e = some j := by
  cases h with
  | scanned limit hphase =>
    have hnot : e ∉ (listAvailableForUpdate s.clock limit s.locks s.events).map OutboxRow.id := by
      intro hmem
      obtain ⟨r, hr, rfl⟩ := List.mem_map.mp hmem
      have hfree := (mem_of_mem_listAvailable hr).2.2.2
      rw [OutboxRow.id, hfree] at hlock
      cases hlock
    simp [OutboxState.load, hnot, hlock]
  | locked event succeeded rest r hphase hfree hmem hid hst =>
    have hev : e ≠ event.eventId := by
      rintro rfl
      rw [hfree] at hlock
      cases hlock
    simp [hev, hlock]
  | loaded | committed | crashed => simp [hlock, hne]
  | handed | returned | raised | passed | finished => exact hlock

theorem publishers_step (h : OutboxStep maxAttempts s i p command s') :
    ∃ p', s'.publishers = s.publishers.set i p' := by
  cases h <;> exact ⟨_, rfl⟩

/-! ## Rows that are written and not committed -/

/-- The row a process holds is locked by it, and pending. -/
def Holding (s : OutboxState) : Prop :=
  ∀ (i : Nat) (p : Publisher) (e : EventId), s.publishers[i]? = some p → p.phase.held = some e →
    s.locks e = some i ∧ ∃ r ∈ s.events, r.eventId = e ∧ r.status = .pending

/-- No two processes hold one row. -/
theorem Holding.held_ne (hold : Holding s) {j : Nat} {q : Publisher} (hp : s.publishers[i]? = some p)
    (hq : s.publishers[j]? = some q) (hne : j ≠ i) {e : EventId} (he : q.phase.held = some e) :
    p.phase.held ≠ some e := by
  intro hi
  have hlocks := (hold i p e hp hi).1
  rw [(hold j q e hq he).1, Option.some.injEq] at hlocks
  exact hne hlocks

/-- What the process that moves holds afterwards. -/
theorem held_step (h : OutboxStep maxAttempts s i p command s') {p' : Publisher}
    (hp' : s'.publishers[i]? = some p') {e : EventId} (he : p'.phase.held = some e) :
    s'.locks e = some i ∧ ∃ r ∈ s'.events, r.eventId = e ∧ r.status = .pending := by
  cases h with
  | locked event succeeded rest r hphase hfree hmem hid hst =>
    rcases get?_set hp' with ⟨-, rfl⟩ | ⟨hne, -⟩
    · obtain rfl := Option.some.inj he
      exact ⟨by simp, r, hmem, hid, hst⟩
    · exact absurd rfl hne
  | _ =>
    rcases get?_set hp' with ⟨-, rfl⟩ | ⟨hne, -⟩
    · cases he
    · exact absurd rfl hne

theorem Holding.step (hold : Holding s) (hp : s.publishers[i]? = some p)
    (h : OutboxStep maxAttempts s i p command s') : Holding s' := by
  intro j q e hq he
  by_cases hji : j = i
  · subst hji
    exact held_step h hq he
  · obtain ⟨p', hset⟩ := publishers_step h
    rw [hset] at hq
    rcases get?_set hq with ⟨rfl, -⟩ | ⟨-, hq⟩
    · exact absurd rfl hji
    obtain ⟨hlock, r, hr, hid, hst⟩ := hold j q e hq he
    have hheld : p.phase.held ≠ some r.eventId := hid ▸ hold.held_ne hp hq hji he
    exact ⟨locks_of_ne h hji hlock, r, row_stays h hr hheld, hid, hst⟩

/-- **A settled row is not written.** -/
theorem Holding.settled_step (hold : Holding s) (hp : s.publishers[i]? = some p)
    (h : OutboxStep maxAttempts s i p command s') {r : OutboxRow} (hr : r ∈ s.events)
    (hst : r.status ≠ .pending) : r ∈ s'.events := by
  apply row_stays h hr
  intro hheld
  obtain ⟨-, r₀, hmem, hid, hpending⟩ := hold i p r.eventId hp hheld
  rw [Table.eq_of_key hr hmem hid.symm] at hst
  exact hst hpending

end Steps

section Batches

variable {maxAttempts : Int} {s s' : OutboxState} {i : Nat} {p : Publisher} {command : Command}

/-! ## The events of a batch -/

/-- A batch is that of a scan, or gets no new events. -/
theorem ids_step (h : OutboxStep maxAttempts s i p command s') {p' : Publisher}
    (hp' : s'.publishers[i]? = some p') :
    (∃ limit, command = .scan limit ∧ p'.phase.ids =
      (listAvailableForUpdate s.clock limit s.locks s.events).map OutboxRow.id) ∨
    p'.phase.ids.Sublist p.phase.ids := by
  cases h with
  | scanned limit hphase =>
    rcases get?_set hp' with ⟨-, rfl⟩ | ⟨hne, -⟩
    · left
      refine ⟨limit, rfl, ?_⟩
      simp only [Phase.ids, List.map_map]
      rfl
    · exact absurd rfl hne
  | finished hphase | crashed =>
    rcases get?_set hp' with ⟨-, rfl⟩ | ⟨hne, -⟩
    · exact .inr (List.nil_sublist _)
    · exact absurd rfl hne
  | passed event succeeded rest hphase | committed event succeeded rest r hphase =>
    rcases get?_set hp' with ⟨-, rfl⟩ | ⟨hne, -⟩
    · right
      rw [hphase]
      exact List.sublist_cons_self _ _
    · exact absurd rfl hne
  | loaded _ hphase | handed _ _ hphase | returned _ _ hphase | raised _ _ hphase
  | locked _ _ _ _ hphase =>
    rcases get?_set hp' with ⟨-, rfl⟩ | ⟨hne, -⟩
    · right
      rw [hphase]
      exact List.Sublist.refl _
    · exact absurd rfl hne

/-- An event of a batch was in it before, or has just been selected. -/
theorem mem_ids_step (h : OutboxStep maxAttempts s i p command s') {j : Nat} {q : Publisher}
    (hq : s'.publishers[j]? = some q) (hp : s.publishers[i]? = some p) {e : EventId}
    (he : e ∈ q.phase.ids) :
    (∃ q₀, s.publishers[j]? = some q₀ ∧ e ∈ q₀.phase.ids) ∨
    (j = i ∧ ∃ limit, command = .scan limit ∧
      ∃ r ∈ listAvailableForUpdate s.clock limit s.locks s.events, r.eventId = e) := by
  by_cases hji : j = i
  · subst hji
    rcases ids_step h hq with ⟨limit, hcommand, hids⟩ | hsub
    · rw [hids] at he
      obtain ⟨r, hr, hid⟩ := List.mem_map.mp he
      exact .inr ⟨rfl, limit, hcommand, r, hr, hid⟩
    · exact .inl ⟨p, hp, hsub.subset he⟩
  · obtain ⟨p', hset⟩ := publishers_step h
    rw [hset] at hq
    rcases get?_set hq with ⟨rfl, -⟩ | ⟨-, hq⟩
    · exact absurd rfl hji
    · exact .inl ⟨q, hq, he⟩

/-- The events of the batches are due. -/
def Due (s : OutboxState) : Prop :=
  ∀ (i : Nat) (p : Publisher) (e : EventId), s.publishers[i]? = some p → e ∈ p.phase.ids →
    ∀ r ∈ s.events, r.eventId = e → r.availableAt ≤ s.clock

theorem clock_step (h : OutboxStep maxAttempts s i p command s') : s'.clock = s.clock := by
  cases h <;> rfl

theorem Due.step (due : Due s) (hp : s.publishers[i]? = some p)
    (h : OutboxStep maxAttempts s i p command s') : Due s' := by
  intro j q e hq he r hr hid
  obtain ⟨r₀, hr₀, hid₀, hat⟩ := row_origin h hr
  rw [clock_step h, ← hat]
  rcases mem_ids_step h hq hp he with ⟨q₀, hq₀, he₀⟩ | ⟨-, limit, -, x, hx, hxid⟩
  · exact due j q₀ e hq₀ he₀ r₀ hr₀ (hid₀.trans hid)
  · obtain ⟨hmem, -, hdue, -⟩ := mem_of_mem_listAvailable hx
    rw [Table.eq_of_key hr₀ hmem ((hid₀.trans hid).trans hxid.symm)]
    exact hdue

/-! ## Batches without a common event -/

/-- A scan selects no event of a batch that is under way. -/
def Exclusive (s : OutboxState) (a : OutboxAction) : Prop :=
  match a.command with
  | .scan limit => ∀ r ∈ listAvailableForUpdate a.now limit s.locks s.events,
      ∀ q ∈ s.publishers, r.eventId ∉ q.phase.ids
  | _ => True

instance (s : OutboxState) (a : OutboxAction) : Decidable (Exclusive s a) :=
  match h : a.command with
  | .scan limit => decidable_of_iff
      (∀ r ∈ listAvailableForUpdate a.now limit s.locks s.events,
        ∀ q ∈ s.publishers, r.eventId ∉ q.phase.ids) (by simp [Exclusive, h])
  | .loaded | .publish | .returned | .raised | .lock | .commit | .finish | .crash =>
    .isTrue (by simp [Exclusive, h])

/-- No event is in two batches, or twice in one, and the events of a batch are pending. -/
structure Apart (s : OutboxState) : Prop where
  nodup : ∀ (i : Nat) (p : Publisher), s.publishers[i]? = some p → p.phase.ids.Nodup
  apart : ∀ (i j : Nat) (p q : Publisher), s.publishers[i]? = some p → s.publishers[j]? = some q →
    ∀ e ∈ p.phase.ids, e ∈ q.phase.ids → i = j
  pending : ∀ (i : Nat) (p : Publisher), s.publishers[i]? = some p → ∀ e ∈ p.phase.ids,
    ∀ r ∈ s.events, r.eventId = e → r.status = .pending

namespace Apart

/-- The event that is marked leaves its batch, and is in no other. -/
theorem not_mem_of_marked (apart : Apart s) (hp : s.publishers[i]? = some p)
    (h : OutboxStep maxAttempts s i p command s') {event : EventSnapshot} {succeeded : Bool}
    {rest : List EventSnapshot} (hphase : p.phase = .marked event succeeded rest)
    (hcommand : command = .commit) {j : Nat} {q : Publisher} (hq : s'.publishers[j]? = some q) :
    event.eventId ∉ q.phase.ids := by
  have hids : p.phase.ids = event.eventId :: rest.map EventSnapshot.eventId := by
    rw [hphase, Phase.ids]
  intro he
  by_cases hji : j = i
  · subst hji
    have hnodup := apart.nodup j p hp
    rw [hids, List.nodup_cons] at hnodup
    cases h with
    | committed event' succeeded' rest' r hphase' =>
      rw [hphase] at hphase'
      cases hphase'
      rcases get?_set hq with ⟨-, rfl⟩ | ⟨hne, -⟩
      · exact hnodup.1 he
      · exact absurd rfl hne
    | _ => cases hcommand
  · obtain ⟨p', hset⟩ := publishers_step h
    rw [hset] at hq
    rcases get?_set hq with ⟨rfl, -⟩ | ⟨-, hq⟩
    · exact absurd rfl hji
    · exact hji (apart.apart j i q p hq hp _ he (hids ▸ List.mem_cons_self))

theorem step (apart : Apart s) (hp : s.publishers[i]? = some p)
    (hex : Exclusive s ⟨i, s.clock, command⟩) (h : OutboxStep maxAttempts s i p command s') :
    Apart s' := by
  -- an event that has just been selected is in no batch from before
  have hnew : ∀ limit, command = .scan limit →
      ∀ r ∈ listAvailableForUpdate s.clock limit s.locks s.events, ∀ (j : Nat) (q : Publisher),
        s.publishers[j]? = some q → r.eventId ∉ q.phase.ids := by
    rintro limit rfl r hr j q hq
    exact hex r hr q (List.mem_of_getElem? hq)
  refine ⟨fun j q hq => ?_, fun j k q u hq hu e he he' => ?_, fun j q hq e he r hr hid => ?_⟩
  · by_cases hji : j = i
    · subst hji
      rcases ids_step h hq with ⟨limit, -, hids⟩ | hsub
      · rw [hids]
        exact nodup_listAvailable ..
      · exact (apart.nodup j p hp).sublist hsub
    · obtain ⟨p', hset⟩ := publishers_step h
      rw [hset] at hq
      rcases get?_set hq with ⟨rfl, -⟩ | ⟨-, hq⟩
      · exact absurd rfl hji
      · exact apart.nodup j q hq
  · rcases mem_ids_step h hq hp he with ⟨q₀, hq₀, hold⟩ | ⟨rfl, limit, hc, r, hr, rfl⟩
    · rcases mem_ids_step h hu hp he' with ⟨u₀, hu₀, hold'⟩ | ⟨rfl, limit, hc, r, hr, rfl⟩
      · exact apart.apart j k q₀ u₀ hq₀ hu₀ e hold hold'
      · exact absurd hold (hnew limit hc r hr j q₀ hq₀)
    · rcases mem_ids_step h hu hp he' with ⟨u₀, hu₀, hold'⟩ | ⟨rfl, -⟩
      · exact absurd hold' (hnew limit hc r hr k u₀ hu₀)
      · rfl
  · rcases row_before h hr with hr₀ | ⟨event, succeeded, rest, r₀, hmem, hc, hphase, hev, rfl⟩
    · rcases mem_ids_step h hq hp he with ⟨q₀, hq₀, hold⟩ | ⟨-, limit, -, x, hx, hxid⟩
      · exact apart.pending j q₀ hq₀ e hold r hr₀ hid
      · obtain ⟨hmem, hst, -⟩ := mem_of_mem_listAvailable hx
        rw [Table.eq_of_key hr₀ hmem (hid.trans hxid.symm)]
        exact hst
    · rw [markRow_eventId, hev] at hid
      exact absurd (hid ▸ he) (apart.not_mem_of_marked hp h hphase hc hq)

end Apart

end Batches

/-! ## Over runs -/

section Runs

variable {maxAttempts : Int} {t : OutboxTable} {s s' : OutboxState}

/-- What a start has and every step and the clock keep, every reachable state has. -/
theorem outbox_invariant {ok : OutboxState → OutboxAction → Prop} {P : OutboxState → Prop}
    (start : ∀ processes clock, P (.start t processes clock))
    (tick : ∀ s now, P s → s.clock ≤ now → P { s with clock := now })
    (step : ∀ s i p command s', P s → s.publishers[i]? = some p → ok s ⟨i, s.clock, command⟩ →
      OutboxStep maxAttempts s i p command s' → P s')
    (hok : ∀ s a, ok s a → ok { s with clock := a.now } a)
    (hs : (outbox maxAttempts t).ReachableVia ok s) : P s := by
  refine Machine.ReachableVia.invariant ?_ ?_ hs
  · rintro _ ⟨processes, clock, rfl⟩
    exact start processes clock
  · intro s a s' _ hP ha ht
    obtain ⟨p, hp, hclock, h⟩ := step_cases ht
    exact step _ _ p _ _ (tick s a.now hP hclock) hp (hok s a ha) h

theorem phase_start {processes : Nat} {clock : Time} {i : Nat} {p : Publisher}
    (hp : (OutboxState.start t processes clock).publishers[i]? = some p) : p.phase = .idle := by
  have hmem : p ∈ List.replicate processes (⟨.idle, 0⟩ : Publisher) := List.mem_of_getElem? hp
  rw [List.eq_of_mem_replicate hmem]

theorem reachable_holding (hs : (outbox maxAttempts t).Reachable s) : Holding s := by
  refine outbox_invariant ?_ (fun s now h _ => h) (fun s i p c s' h hp _ hstep => h.step hp hstep)
    (fun _ _ _ => trivial) hs
  intro processes clock i p e hp he
  rw [phase_start hp] at he
  cases he

theorem due_start (t : OutboxTable) (processes : Nat) (clock : Time) :
    Due (.start t processes clock) := by
  intro i p e hp he
  rw [phase_start hp] at he
  cases he

theorem Due.tick (h : Due s) {now : Time} (hle : s.clock ≤ now) : Due { s with clock := now } :=
  fun i p e hp he r hr hid => le_trans (h i p e hp he r hr hid) hle

theorem apart_start (t : OutboxTable) (processes : Nat) (clock : Time) :
    Apart (.start t processes clock) := by
  refine ⟨fun i p hp => ?_, fun i j p q hp hq e he => ?_, fun i p hp e he => ?_⟩
  · rw [phase_start hp]
    exact List.nodup_nil
  · rw [phase_start hp] at he
    cases he
  · rw [phase_start hp] at he
    cases he

theorem reachable_apart (hs : (outbox maxAttempts t).ReachableVia Exclusive s) : Apart s :=
  outbox_invariant (apart_start t) (fun _ _ h _ => ⟨h.nodup, h.apart, h.pending⟩)
    (fun _ _ _ _ _ h hp hex hstep => h.step hp hex hstep) (fun _ _ h => h) hs

/-- **A settled row stays as it is in every run.** -/
theorem settled_run (hs : (outbox maxAttempts t).Reachable s) {as : List OutboxAction}
    (hrun : (outbox maxAttempts t).run s as = some s') {r : OutboxRow} (hr : r ∈ s.events)
    (hst : r.status ≠ .pending) : r ∈ s'.events := by
  refine Machine.RunVia.preserves (P := fun s => r ∈ s.events) ?_ hs (.of_run hrun) hr
  intro s a s' hs hr _ hstep
  obtain ⟨p, hp, -, h⟩ := step_cases hstep
  have hold := reachable_holding hs
  have htick : Holding { s with clock := a.now } := hold
  exact htick.settled_step hp h hr hst

end Runs

end DocFlow.Messaging
