import DocFlow.Messaging.Bookkeeping

/-!
# How often an event is handed over

While no process dies and no call raises, a row that is not pending and an event whose call is under
way have been handed over once, and the others not at all, as long as the batches stay apart
(`Counted`).  Two processes that have loaded the same event both hand it over.
-/

namespace DocFlow.Messaging

/-- The event of the batch that has been handed over last, until it is dealt with. -/
def Phase.called : Phase → Option EventId
  | .calling event _ | .marking event _ _ | .marked event _ _ => some event.eventId
  | _ => none

theorem Phase.mem_ids_of_called {phase : Phase} {e : EventId} (h : phase.called = some e) :
    e ∈ phase.ids := by
  cases phase with
  | calling event rest | marking event succeeded rest | marked event succeeded rest =>
    obtain rfl := Option.some.inj h
    exact List.mem_cons_self
  | _ => cases h

/-- No process dies, and no call raises. -/
def Undisturbed (a : OutboxAction) : Prop := a.command ≠ .crash ∧ a.command ≠ .raised

instance (a : OutboxAction) : Decidable (Undisturbed a) := inferInstanceAs (Decidable (_ ∧ _))

/-- How often an event has been handed to the transport. -/
def handedCount (s : OutboxState) (e : EventId) : Nat := (s.handed.map Prod.fst).count e

/-- The call for the event is under way. -/
def Calling (s : OutboxState) (e : EventId) : Prop :=
  ∃ (i : Nat) (p : Publisher), s.publishers[i]? = some p ∧ p.phase.called = some e

/-- The row is settled, or the call for it is under way. -/
def Handled (s : OutboxState) (r : OutboxRow) : Prop :=
  r.status ≠ .pending ∨ Calling s r.eventId

/-- The events that are handled have been handed over once, and the others not at all.  No failure
is to be marked. -/
structure Counted (s : OutboxState) : Prop where
  once : ∀ r ∈ s.events, Handled s r → handedCount s r.eventId = 1
  never : ∀ r ∈ s.events, ¬ Handled s r → handedCount s r.eventId = 0
  succeeding : ∀ (i : Nat) (p : Publisher), s.publishers[i]? = some p → p.phase.failing = none

section Steps

variable {maxAttempts : Int} {s s' : OutboxState} {i : Nat} {p p' : Publisher} {command : Command}

/-- The calls under way, when the process that moves begins and ends none for the event. -/
theorem calling_congr (hp : s.publishers[i]? = some p) (hset : s'.publishers = s.publishers.set i p')
    {e : EventId} (hcalled : p'.phase.called = some e ↔ p.phase.called = some e) :
    Calling s' e ↔ Calling s e := by
  obtain ⟨hi, -⟩ := List.getElem?_eq_some_iff.mp hp
  constructor
  · rintro ⟨j, q, hq, he⟩
    rw [hset] at hq
    rcases get?_set hq with ⟨rfl, rfl⟩ | ⟨-, hq⟩
    · exact ⟨j, p, hp, hcalled.mp he⟩
    · exact ⟨j, q, hq, he⟩
  · rintro ⟨j, q, hq, he⟩
    by_cases hji : j = i
    · subst hji
      obtain rfl : q = p := by
        rw [hq] at hp
        exact Option.some.inj hp
      refine ⟨j, p', ?_, hcalled.mpr he⟩
      rw [hset, List.getElem?_set_self hi]
    · refine ⟨j, q, ?_, he⟩
      rw [hset, List.getElem?_set_ne (Ne.symm hji)]
      exact hq

/-- While the batches are apart, the call for an event of a batch is that of its process. -/
theorem Apart.not_calling (apart : Apart s) (hp : s.publishers[i]? = some p) {e : EventId}
    (he : e ∈ p.phase.ids) (hcalled : p.phase.called ≠ some e) : ¬ Calling s e := by
  rintro ⟨j, q, hq, hqe⟩
  obtain rfl := apart.apart j i q p hq hp e (Phase.mem_ids_of_called hqe) he
  obtain rfl : q = p := by
    rw [hq] at hp
    exact Option.some.inj hp
  exact hcalled hqe

/-- A step after which the same events are handled, and the same have been handed over. -/
theorem Counted.of_same (hc : Counted s) (hevents : s'.events = s.events)
    (hhanded : s'.handed = s.handed)
    (hcalling : ∀ r ∈ s.events, Calling s' r.eventId ↔ Calling s r.eventId)
    (hfailing : ∀ (i : Nat) (p : Publisher), s'.publishers[i]? = some p → p.phase.failing = none) :
    Counted s' := by
  have hcount : ∀ e, handedCount s' e = handedCount s e := by
    intro e
    rw [handedCount, hhanded, handedCount]
  refine ⟨fun r hr hh => ?_, fun r hr hh => ?_, hfailing⟩
  · rw [hevents] at hr
    rw [hcount]
    exact hc.once r hr (hh.imp_right (hcalling r hr).mp)
  · rw [hevents] at hr
    rw [hcount]
    exact hc.never r hr fun hold => hh (hold.imp_right (hcalling r hr).mpr)

/-- No failure is to be marked as long as no call raises. -/
theorem Counted.failing_step (hc : Counted s) (hp : s.publishers[i]? = some p)
    (h : OutboxStep maxAttempts s i p command s') (hraised : command ≠ .raised) (j : Nat)
    (q : Publisher) (hq : s'.publishers[j]? = some q) : q.phase.failing = none := by
  obtain ⟨p', hset, horigin⟩ := failing_origin h
  rw [hset] at hq
  rcases get?_set hq with ⟨-, rfl⟩ | ⟨-, hq⟩
  · cases hfailing : q.phase.failing with
    | none => rfl
    | some e =>
      rcases horigin e hfailing with hold | hfailed
      · rw [hc.succeeding i p hp] at hold
        cases hold
      · have hsame : s'.failed = s.failed := by
          cases h with
          | raised event rest hphase => exact absurd rfl hraised
          | _ => rfl
        rw [hsame] at hfailed
        exact absurd hfailed (by simp)
  · exact hc.succeeding j q hq

theorem Counted.step (hc : Counted s) (apart : Apart s) (hp : s.publishers[i]? = some p)
    (hquiet : Undisturbed ⟨i, s.clock, command⟩) (h : OutboxStep maxAttempts s i p command s') :
    Counted s' := by
  have hfailing := hc.failing_step hp h hquiet.2
  obtain ⟨hi, -⟩ := List.getElem?_eq_some_iff.mp hp
  cases h with
  | crashed => exact absurd rfl hquiet.1
  | raised event rest hphase => exact absurd rfl hquiet.2
  | scanned _ hphase | loaded _ hphase | finished hphase | returned _ _ hphase
  | locked _ _ _ _ hphase =>
    refine hc.of_same rfl rfl (fun r _ => calling_congr hp rfl ?_) hfailing
    rw [hphase]
    rfl
  | passed event succeeded rest hphase hnot =>
    refine hc.of_same rfl rfl (fun r hr => calling_congr hp rfl ?_) hfailing
    have hne : r.eventId ≠ event.eventId := by
      intro hid
      apply hnot r hr hid
      apply apart.pending i p hp event.eventId _ r hr hid
      rw [hphase]
      exact List.mem_cons_self
    rw [hphase]
    simp [Phase.called, hne.symm]
  | handed event rest hphase =>
    have hmine : event.eventId ∈ p.phase.ids := by
      rw [hphase]
      exact List.mem_cons_self
    have hcalled : p.phase.called ≠ some event.eventId := by simp [hphase, Phase.called]
    have hcount : ∀ e, ((s.handed ++ [(event.eventId, s.clock)]).map Prod.fst).count e =
        handedCount s e + if event.eventId = e then 1 else 0 := by
      intro e
      rw [List.map_append, List.count_append, handedCount, List.map_singleton,
        List.count_singleton]
      simp only [beq_iff_eq]
    have hcalling : Calling { s.setPublisher i (p.goto (.calling event rest)) with
        handed := s.handed ++ [(event.eventId, s.clock)] } event.eventId :=
      ⟨i, _, List.getElem?_set_self hi, rfl⟩
    have hother : ∀ r : OutboxRow, r.eventId ≠ event.eventId →
        (Calling { s.setPublisher i (p.goto (.calling event rest)) with
          handed := s.handed ++ [(event.eventId, s.clock)] } r.eventId ↔ Calling s r.eventId) := by
      intro r hid
      apply calling_congr hp rfl
      rw [hphase]
      simp [Phase.called, hid.symm]
    refine ⟨fun r hr hh => ?_, fun r hr hh => ?_, hfailing⟩
    · rw [handedCount, hcount]
      by_cases hid : r.eventId = event.eventId
      · have hnot : ¬ Handled s r := by
          rintro (hst | hcalls)
          · exact hst (apart.pending i p hp event.eventId hmine r hr hid)
          · exact apart.not_calling hp hmine hcalled (hid ▸ hcalls)
        rw [hc.never r hr hnot, if_pos hid.symm]
      · rw [hc.once r hr (hh.imp_right (hother r hid).mp), if_neg (Ne.symm hid)]
    · rw [handedCount, hcount]
      have hid : r.eventId ≠ event.eventId := fun hid => hh (.inr (hid ▸ hcalling))
      rw [hc.never r hr fun hold => hh (hold.imp_right (hother r hid).mpr), if_neg hid.symm]
  | committed event succeeded rest r₀ hphase hmem hid =>
    have hsucceeded : succeeded = true := by
      cases succeeded with
      | true => rfl
      | false =>
        have hnone := hc.succeeding i p hp
        rw [hphase] at hnone
        cases hnone
    have hother : ∀ r ∈ s.events, r ≠ r₀ →
        (Calling (((s.save (markRow maxAttempts s.clock succeeded r₀)).unlock i).setPublisher i
          (p.next succeeded rest)) r.eventId ↔ Calling s r.eventId) := by
      intro r hr hne
      have hev : event.eventId ≠ r.eventId := fun hev =>
        hne (Table.eq_of_key hr hmem (hev.symm.trans hid.symm))
      apply calling_congr hp rfl
      rw [hphase]
      simp [Phase.called, hev]
    refine ⟨fun r hr hh => ?_, fun r hr hh => ?_, hfailing⟩
    · rcases (mem_save_markRow hmem).mp hr with rfl | ⟨hold, hne⟩
      · rw [markRow_eventId]
        apply hc.once r₀ hmem
        refine .inr ⟨i, p, hp, ?_⟩
        rw [hphase, Phase.called, hid]
      · exact hc.once r hold (hh.imp_right (hother r hold hne).mp)
    · rcases (mem_save_markRow hmem).mp hr with rfl | ⟨hold, hne⟩
      · refine absurd (.inl ?_) hh
        rw [hsucceeded]
        exact OutboxEventStatus.noConfusion
      · exact hc.never r hold fun hh₀ => hh (hh₀.imp_right (hother r hold hne).mpr)

end Steps

/-! ## Over runs -/

section Runs

variable {maxAttempts : Int} {t : OutboxTable} {s : OutboxState}

/-- Nothing goes wrong, and the batches stay apart. -/
def Smooth (s : OutboxState) (a : OutboxAction) : Prop := Undisturbed a ∧ Exclusive s a

instance (s : OutboxState) (a : OutboxAction) : Decidable (Smooth s a) :=
  inferInstanceAs (Decidable (_ ∧ _))

theorem reachable_counted (ht : ∀ r ∈ t, r.status = .pending)
    (hs : (outbox maxAttempts t).ReachableVia Smooth s) : Counted s := by
  have hboth : Counted s ∧ Apart s := by
    refine outbox_invariant (P := fun s => Counted s ∧ Apart s)
      (fun processes clock => ⟨?_, apart_start t processes clock⟩)
      (fun s now h _ => ⟨⟨h.1.once, h.1.never, h.1.succeeding⟩, h.2.nodup, h.2.apart, h.2.pending⟩)
      (fun s i p c s' h hp hok hstep => ⟨h.1.step h.2 hp hok.1 hstep, h.2.step hp hok.2 hstep⟩)
      (fun _ _ h => h) hs
    refine ⟨fun r hr hh => ?_, fun r hr hh => rfl, fun i p hp => ?_⟩
    · rcases hh with hst | ⟨i, p, hp, he⟩
      · exact absurd (ht r hr) hst
      · rw [phase_start hp] at he
        cases he
    · rw [phase_start hp]
      rfl
  exact hboth.1

/-- The events of the table stay in it. -/
theorem reachable_ids (hs : (outbox maxAttempts t).Reachable s) :
    s.events.rows.map OutboxRow.id = t.rows.map OutboxRow.id := by
  refine outbox_invariant (P := fun s => s.events.rows.map OutboxRow.id = t.rows.map OutboxRow.id)
    (fun _ _ => rfl) (fun _ _ h _ => h) (fun s i p c s' h hp _ hstep => ?_) (fun _ _ _ => trivial) hs
  rw [← h]
  cases hstep with
  | committed event succeeded rest r hphase hmem hid =>
    rw [OutboxState.setPublisher_events, OutboxState.unlock_events, OutboxState.save_events,
      Table.rows_save, List.map_map]
    apply List.map_congr_left
    intro x _
    simp only [Function.comp_apply]
    split
    · next hkey => exact hkey.symm
    · rfl
  | _ => rfl

/-- **In a run in which nothing goes wrong and the batches stay apart, each event is handed over
once.**  When the processes are idle, the events that have been handed over are those whose rows are
settled. -/
theorem handed_once_of_smooth (ht : ∀ r ∈ t, r.status = .pending)
    (hs : (outbox maxAttempts t).ReachableVia Smooth s) :
    s.events.rows.map OutboxRow.id = t.rows.map OutboxRow.id ∧
    (∀ r ∈ s.events, handedCount s r.eventId ≤ 1) ∧
    ((∀ p ∈ s.publishers, p.phase = .idle) →
      ∀ r ∈ s.events, handedCount s r.eventId = if r.status = .pending then 0 else 1) := by
  have hcounted := reachable_counted ht hs
  refine ⟨reachable_ids hs.reachable, fun r hr => ?_, fun hidle r hr => ?_⟩
  · by_cases hh : Handled s r
    · exact (hcounted.once r hr hh).le
    · rw [hcounted.never r hr hh]
      exact Nat.zero_le 1
  · split
    · next hst =>
      apply hcounted.never r hr
      rintro (hne | ⟨i, p, hp, he⟩)
      · exact hne hst
      · rw [hidle p (List.mem_of_getElem? hp)] at he
        cases he
    · next hst => exact hcounted.once r hr (.inl hst)

end Runs

/-! Two processes and one event. -/

def newEvent : OutboxRow := { failingEvent with attempts := 0 }

/-- A batch that delivers its event. -/
def batchOf (i : Nat) : List OutboxAction :=
  actionsOf i [.scan 100, .loaded, .publish, .returned, .lock, .commit, .finish]

/-- The process `0` loads the event, and the process `1` runs a whole batch before it goes on. -/
def overlappingBatches : List OutboxAction :=
  actionsOf 0 [.scan 100, .loaded] ++ batchOf 1 ++ actionsOf 0 [.publish, .returned, .lock, .finish]

theorem batchOf_handed_once :
    ∃ s, (outbox 10 (Table.single newEvent)).ReachableVia Smooth s ∧
      s.events.rows.map (·.status) = [.published] ∧
      ∀ r ∈ s.events, handedCount s r.eventId = 1 := by
  have hrun : ((outbox 10 (Table.single newEvent)).runWhile Smooth
      (.start (Table.single newEvent) 2 0)
        (batchOf 0 ++ actionsOf 1 [.scan 100, .loaded, .finish])).map
        (fun s => (s.events.rows.map (·.status), s.publishers.map (·.phase))) =
      some ([.published], [.idle, .idle]) := by decide
  obtain ⟨s, hs, hstate⟩ := Option.map_eq_some_iff.mp hrun
  obtain ⟨hrows, hphases⟩ := Prod.mk.inj hstate
  have hreach : (outbox 10 (Table.single newEvent)).ReachableVia Smooth s :=
    (Machine.RunVia.of_runWhile hs).reachableVia (.init ⟨2, 0, rfl⟩)
  refine ⟨s, hreach, hrows, fun r hr => ?_⟩
  have hidle : ∀ p ∈ s.publishers, p.phase = .idle := by
    intro p hp
    have hmem : p.phase ∈ [Phase.idle, Phase.idle] := hphases ▸ List.mem_map_of_mem hp
    simpa using hmem
  have hst : r.status = .published := by
    have hmem : r.status ∈ [OutboxEventStatus.published] := hrows ▸ List.mem_map_of_mem hr
    simpa using hmem
  have hcount := (handed_once_of_smooth (by decide) hreach).2.2 hidle r hr
  rw [hcount, hst]
  rfl

/-- **Two processes hand over the same event, although nothing goes wrong.** -/
theorem handed_twice :
    ¬ ∀ (maxAttempts : Int) (t : OutboxTable), (∀ r ∈ t, r.status = .pending) →
      ∀ s, (outbox maxAttempts t).ReachableVia (fun _ a => Undisturbed a) s →
        (∀ p ∈ s.publishers, p.phase = .idle) → ∀ r ∈ s.events, r.status = .published →
          handedCount s r.eventId = 1 := by
  intro hall
  have hrun : ((outbox 10 (Table.single newEvent)).runWhile (fun _ a => Undisturbed a)
      (.start (Table.single newEvent) 2 0) overlappingBatches).map
        (fun s => (s.events.rows.map (fun r => (r.eventId, r.status)), s.publishers.map (·.phase),
          handedCount s 1)) =
      some ([(1, .published)], [.idle, .idle], 2) := by decide
  obtain ⟨s, hs, hstate⟩ := Option.map_eq_some_iff.mp hrun
  obtain ⟨hrows, hrest⟩ := Prod.mk.inj hstate
  obtain ⟨hphases, hcount⟩ := Prod.mk.inj hrest
  have hidle : ∀ p ∈ s.publishers, p.phase = .idle := by
    intro p hp
    have hmem : p.phase ∈ [Phase.idle, Phase.idle] := hphases ▸ List.mem_map_of_mem hp
    simpa using hmem
  obtain ⟨r, hr, hpair⟩ := List.mem_map.mp
    (hrows ▸ List.mem_singleton_self ((1, .published) : EventId × OutboxEventStatus))
  obtain ⟨hid, hst⟩ := Prod.mk.inj hpair
  have honce := hall 10 _ (by decide) s
    ((Machine.RunVia.of_runWhile hs).reachableVia (.init ⟨2, 0, rfl⟩)) hidle r hr hst
  rw [hid, hcount] at honce
  exact absurd honce (by decide)

end DocFlow.Messaging
