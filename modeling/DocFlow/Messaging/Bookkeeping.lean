import DocFlow.Messaging.Batches

/-!
# What the marks of the outbox say

A row is `PUBLISHED` only after a call for it has returned, its attempts never exceed the calls that
have raised, and no event is handed over before it is due: this holds of every run
(`reachable_confirmed`, `reachable_accounted`, `reachable_handed`).

A row can become `DEAD_LETTER` although a call for it has returned: when its event is in a second
batch, or when the process dies before the success is marked and the event is loaded again.  If
neither happens (`Fresh`), then every call that has returned is vouched for: its row is published,
or a process is about to mark it, or the process has died and the row is never looked at again
(`Vouched`).
-/

namespace DocFlow.Messaging

/-- The event that has been published and whose success is to be marked. -/
def Phase.confirmed : Phase → Option EventId
  | .marking event true _ | .marked event true _ => some event.eventId
  | _ => none

/-- The event whose failure is to be marked. -/
def Phase.failing : Phase → Option EventId
  | .marking event false _ | .marked event false _ => some event.eventId
  | _ => none

theorem Phase.mem_ids_of_confirmed {phase : Phase} {e : EventId} (h : phase.confirmed = some e) :
    e ∈ phase.ids := by
  cases phase with
  | marking event succeeded rest | marked event succeeded rest =>
    cases succeeded
    · cases h
    · obtain rfl := Option.some.inj h
      exact List.mem_cons_self
  | _ => cases h

/-- A scan selects no event that is in a batch, and none for which a call has returned. -/
def Fresh (s : OutboxState) (a : OutboxAction) : Prop :=
  match a.command with
  | .scan limit => ∀ r ∈ listAvailableForUpdate a.now limit s.locks s.events,
      r.eventId ∉ s.succeeded ∧ ∀ q ∈ s.publishers, r.eventId ∉ q.phase.ids
  | _ => True

instance (s : OutboxState) (a : OutboxAction) : Decidable (Fresh s a) :=
  match h : a.command with
  | .scan limit => decidable_of_iff
      (∀ r ∈ listAvailableForUpdate a.now limit s.locks s.events,
        r.eventId ∉ s.succeeded ∧ ∀ q ∈ s.publishers, r.eventId ∉ q.phase.ids) (by simp [Fresh, h])
  | .loaded | .publish | .returned | .raised | .lock | .commit | .finish | .crash =>
    .isTrue (by simp [Fresh, h])

theorem Fresh.exclusive {s : OutboxState} {a : OutboxAction} (h : Fresh s a) : Exclusive s a := by
  unfold Fresh at h
  unfold Exclusive
  split
  · next limit hcommand =>
    rw [hcommand] at h
    exact fun r hr => (h r hr).2
  · trivial

section Steps

variable {maxAttempts : Int} {s s' : OutboxState} {i : Nat} {p : Publisher} {command : Command}

/-- What every call that has returned leaves behind, the steps keep. -/
theorem succeeded_subset (h : OutboxStep maxAttempts s i p command s') {e : EventId}
    (he : e ∈ s.succeeded) : e ∈ s'.succeeded := by
  cases h with
  | returned event rest hphase => exact List.mem_append_left _ he
  | _ => exact he

/-! ## Published rows -/

/-- The calls of the successes to be marked, and of the published rows, have returned. -/
structure Confirmed (s : OutboxState) : Prop where
  phases : ∀ (i : Nat) (p : Publisher) (e : EventId), s.publishers[i]? = some p →
    p.phase.confirmed = some e → e ∈ s.succeeded
  rows : ∀ r ∈ s.events, r.status = .published → r.eventId ∈ s.succeeded

/-- A success is to be marked once the call has returned. -/
theorem confirmed_step (h : OutboxStep maxAttempts s i p command s') {p' : Publisher}
    (hp' : s'.publishers[i]? = some p') {e : EventId} (he : p'.phase.confirmed = some e) :
    p.phase.confirmed = some e ∨ e ∈ s'.succeeded := by
  cases h with
  | returned event rest hphase =>
    rcases get?_set hp' with ⟨-, rfl⟩ | ⟨hne, -⟩
    · obtain rfl := Option.some.inj he
      exact .inr (List.mem_append_right _ (List.mem_singleton_self _))
    · exact absurd rfl hne
  | locked event succeeded rest r hphase =>
    rcases get?_set hp' with ⟨-, rfl⟩ | ⟨hne, -⟩
    · left
      rw [hphase]
      cases succeeded
      · cases he
      · exact he
    · exact absurd rfl hne
  | _ =>
    rcases get?_set hp' with ⟨-, rfl⟩ | ⟨hne, -⟩
    · cases he
    · exact absurd rfl hne

theorem status_markRow {now : Time} {succeeded : Bool} {r : OutboxRow}
    (h : (markRow maxAttempts now succeeded r).status = .published) :
    succeeded = true ∨ r.status = .published := by
  cases succeeded with
  | true => exact .inl rfl
  | false =>
    simp only [markRow, markFailed, Bool.false_eq_true, if_false] at h
    split at h
    · cases h
    · exact .inr h

theorem Confirmed.step (hc : Confirmed s) (hp : s.publishers[i]? = some p)
    (h : OutboxStep maxAttempts s i p command s') : Confirmed s' := by
  refine ⟨fun j q e hq he => ?_, fun r hr hst => ?_⟩
  · by_cases hji : j = i
    · subst hji
      rcases confirmed_step h hq he with hold | hin
      · exact succeeded_subset h (hc.phases j p e hp hold)
      · exact hin
    · obtain ⟨p', hset⟩ := publishers_step h
      rw [hset] at hq
      rcases get?_set hq with ⟨rfl, -⟩ | ⟨-, hq⟩
      · exact absurd rfl hji
      · exact succeeded_subset h (hc.phases j q e hq he)
  · apply succeeded_subset h
    rcases row_before h hr with hold | ⟨event, succeeded, rest, r₀, hmem, -, hphase, hid, rfl⟩
    · exact hc.rows r hold hst
    · rw [markRow_eventId]
      rcases status_markRow hst with rfl | hst₀
      · apply hc.phases i p _ hp
        rw [hphase, Phase.confirmed, hid]
      · exact hc.rows r₀ hmem hst₀

/-! ## Events that are handed over -/

/-- No event is handed over before it is due. -/
def HandedDue (s : OutboxState) : Prop :=
  ∀ c ∈ s.handed, ∀ r ∈ s.events, r.eventId = c.1 → r.availableAt ≤ c.2

theorem HandedDue.step (hd : HandedDue s) (due : Due s) (hp : s.publishers[i]? = some p)
    (h : OutboxStep maxAttempts s i p command s') : HandedDue s' := by
  intro c hc r hr hid
  obtain ⟨r₀, hr₀, hid₀, hat⟩ := row_origin h hr
  rw [← hat]
  have hold : c ∈ s.handed → r₀.availableAt ≤ c.2 := fun hc => hd c hc r₀ hr₀ (hid₀.trans hid)
  cases h with
  | handed event rest hphase =>
    rcases List.mem_append.mp hc with hc | hc
    · exact hold hc
    · obtain rfl := List.mem_singleton.mp hc
      apply due i p event.eventId hp _ r₀ hr₀ (hid₀.trans hid)
      rw [hphase]
      exact List.mem_cons_self
  | _ => exact hold hc

/-! ## Attempts -/

/-- The processes that are to mark a failure of the event. -/
def failingCount (s : OutboxState) (e : EventId) : Nat :=
  s.publishers.countP fun p => p.phase.failing = some e

/-- Every attempt beyond those of the table at the start, and every failure still to be marked, is
a call that has raised.  A dead letter has had its attempts. -/
structure Accounted (maxAttempts : Int) (t : OutboxTable) (s : OutboxState) : Prop where
  attempts : ∀ r ∈ s.events, ∃ r₀ ∈ t, r₀.eventId = r.eventId ∧
    r.attempts + failingCount s r.eventId ≤ r₀.attempts + s.failed.count r.eventId
  dead : ∀ r ∈ s.events, r.status = .deadLetter → maxAttempts ≤ r.attempts

/-- A process has a failure to mark once the call has raised. -/
theorem failing_origin (h : OutboxStep maxAttempts s i p command s') :
    ∃ p', s'.publishers = s.publishers.set i p' ∧ ∀ e, p'.phase.failing = some e →
      p.phase.failing = some e ∨ s'.failed = s.failed ++ [e] := by
  cases h with
  | raised event rest hphase =>
    refine ⟨_, rfl, fun e he => .inr ?_⟩
    obtain rfl := Option.some.inj he
    rfl
  | locked event succeeded rest r hphase =>
    refine ⟨_, rfl, fun e he => .inl ?_⟩
    rw [hphase]
    cases succeeded
    · exact he
    · cases he
  | _ =>
    refine ⟨_, rfl, fun e he => ?_⟩
    cases he

theorem failed_grows (h : OutboxStep maxAttempts s i p command s') : s.failed <+: s'.failed := by
  cases h with
  | raised event rest hphase => exact List.prefix_append _ _
  | _ => exact List.prefix_refl _

/-- Each further failure to be marked is a further call that has raised. -/
theorem failing_step (hp : s.publishers[i]? = some p)
    (h : OutboxStep maxAttempts s i p command s') (e : EventId) :
    failingCount s' e + s.failed.count e ≤ failingCount s e + s'.failed.count e := by
  obtain ⟨p', hset, horigin⟩ := failing_origin h
  have hfailed : s.failed.count e ≤ s'.failed.count e := (failed_grows h).sublist.count_le e
  rw [failingCount, hset]
  by_cases hnew : p'.phase.failing = some e → p.phase.failing = some e
  · have hle : (s.publishers.set i p').countP (fun p => p.phase.failing = some e) ≤
        failingCount s e := countP_set_le hp (by simpa using hnew)
    omega
  · obtain ⟨hp', hold⟩ := Classical.not_imp.mp hnew
    have hle : (s.publishers.set i p').countP (fun p => p.phase.failing = some e) ≤
        failingCount s e + 1 := countP_set_le_succ ..
    rcases horigin e hp' with hfailing | hraised
    · exact absurd hfailing hold
    · rw [hraised, List.count_append, List.count_singleton_self]
      omega

/-- The failure that is marked is one less to be marked. -/
theorem failing_commit (hp : s.publishers[i]? = some p)
    (h : OutboxStep maxAttempts s i p .commit s') {event : EventSnapshot} {rest : List EventSnapshot}
    (hphase : p.phase = .marked event false rest) :
    failingCount s' event.eventId + 1 ≤ failingCount s event.eventId := by
  obtain ⟨hi, hget⟩ := List.getElem?_eq_some_iff.mp hp
  have hpos : 0 < failingCount s event.eventId := by
    apply List.countP_pos_iff.mpr
    exact ⟨p, List.mem_of_getElem? hp, by simp [hphase, Phase.failing]⟩
  cases h with
  | committed event' succeeded rest' r hphase' =>
    simp only [failingCount, OutboxState.setPublisher_publishers, OutboxState.unlock_publishers,
      OutboxState.save_publishers] at hpos ⊢
    have hbefore : p.phase.failing = some event.eventId := by rw [hphase, Phase.failing]
    have hafter : (p.next succeeded rest').phase.failing ≠ some event.eventId := by
      simp [Phase.failing]
    rw [List.countP_set hi, hget]
    simp only [hbefore, hafter, decide_true, if_true, decide_false, Bool.false_eq_true, if_false]
    omega

theorem Accounted.step {t : OutboxTable} (ha : Accounted maxAttempts t s)
    (hp : s.publishers[i]? = some p) (h : OutboxStep maxAttempts s i p command s') :
    Accounted maxAttempts t s' := by
  refine ⟨fun r hr => ?_, fun r hr hst => ?_⟩
  · have hcount := failing_step hp h r.eventId
    rcases row_before h hr with hold | ⟨event, succeeded, rest, r₀, hmem, rfl, hphase, hid, rfl⟩
    · obtain ⟨r₁, hr₁, hid₁, hle⟩ := ha.attempts r hold
      exact ⟨r₁, hr₁, hid₁, by omega⟩
    · rw [markRow_eventId] at hcount ⊢
      obtain ⟨r₁, hr₁, hid₁, hle⟩ := ha.attempts r₀ hmem
      refine ⟨r₁, hr₁, hid₁, ?_⟩
      cases succeeded with
      | true =>
        simp only [markRow, markPublished, if_true]
        omega
      | false =>
        have hfewer := failing_commit hp h hphase
        rw [← hid] at hfewer
        have hfailed : s'.failed = s.failed := by
          cases h
          rfl
        simp only [markRow, markFailed, Bool.false_eq_true, if_false]
        rw [hfailed]
        omega
  · rcases row_before h hr with hold | ⟨event, succeeded, rest, r₀, hmem, -, -, -, rfl⟩
    · exact ha.dead r hold hst
    · cases succeeded with
      | true => cases hst
      | false =>
        simp only [markRow, markFailed, Bool.false_eq_true, if_false] at hst ⊢
        split at hst
        · next hle => exact_mod_cast hle
        · have hold := ha.dead r₀ hmem hst
          omega

/-! ## Calls that have returned -/

/-- No batch has the event. -/
def Dropped (s : OutboxState) (e : EventId) : Prop :=
  ∀ (i : Nat) (p : Publisher), s.publishers[i]? = some p → e ∉ p.phase.ids

/-- A call that has returned has left a published row, or a process that is about to mark it, or a
row that nobody looks at. -/
def Vouched (s : OutboxState) : Prop :=
  ∀ e ∈ s.succeeded, ∀ r ∈ s.events, r.eventId = e →
    r.status = .published ∨
    (∃ (i : Nat) (p : Publisher), s.publishers[i]? = some p ∧ p.phase.confirmed = some e) ∨
    (r.status = .pending ∧ Dropped s e)

theorem Dropped.step {e : EventId} (hdropped : Dropped s e) (hp : s.publishers[i]? = some p)
    (hfresh : Fresh s ⟨i, s.clock, command⟩) (h : OutboxStep maxAttempts s i p command s')
    (he : e ∈ s.succeeded) : Dropped s' e := by
  intro j q hq hmem
  rcases mem_ids_step h hq hp hmem with ⟨q₀, hq₀, hold⟩ | ⟨-, limit, rfl, r, hr, rfl⟩
  · exact hdropped j q₀ hq₀ hold
  · exact (hfresh r hr).1 he

/-- The process that is about to mark a success goes on to mark it, or dies. -/
theorem confirmed_stays (hp : s.publishers[i]? = some p) (apart : Apart s)
    (h : OutboxStep maxAttempts s i p command s') {e : EventId} (he : p.phase.confirmed = some e)
    {r : OutboxRow} (hr : r ∈ s.events) (hid : r.eventId = e) :
    (∃ p', s'.publishers[i]? = some p' ∧ p'.phase.confirmed = some e) ∨
      (∃ rest event, p.phase = .marked event true rest ∧ command = .commit) ∨ Dropped s' e := by
  obtain ⟨hi, -⟩ := List.getElem?_eq_some_iff.mp hp
  have hmine := Phase.mem_ids_of_confirmed he
  cases h with
  | passed event succeeded rest hphase hnot =>
    have hpending := apart.pending i p hp e hmine r hr hid
    rw [hphase] at he
    cases succeeded with
    | false => cases he
    | true =>
      obtain rfl := Option.some.inj he
      exact absurd hpending (hnot r hr hid)
  | locked event succeeded rest r₀ hphase =>
    left
    rw [hphase] at he
    refine ⟨_, List.getElem?_set_self hi, ?_⟩
    cases succeeded with
    | false => cases he
    | true => exact he
  | committed event succeeded rest r₀ hphase =>
    right; left
    rw [hphase] at he
    cases succeeded with
    | false => cases he
    | true => exact ⟨rest, event, hphase, rfl⟩
  | crashed =>
    right; right
    intro j q hq hin
    rcases get?_set hq with ⟨-, rfl⟩ | ⟨hne, hq⟩
    · cases hin
    · exact hne (apart.apart j i q p hq hp e hin hmine)
  | scanned _ hphase | loaded _ hphase | handed _ _ hphase | returned _ _ hphase
  | raised _ _ hphase | finished hphase =>
    rw [hphase] at he
    cases he

/-- A call that returns leaves a success to be marked. -/
theorem succeeded_step (hp : s.publishers[i]? = some p)
    (h : OutboxStep maxAttempts s i p command s') {e : EventId} (he : e ∈ s'.succeeded) :
    e ∈ s.succeeded ∨ ∃ p', s'.publishers[i]? = some p' ∧ p'.phase.confirmed = some e := by
  obtain ⟨hi, -⟩ := List.getElem?_eq_some_iff.mp hp
  cases h with
  | returned event rest hphase =>
    rcases List.mem_append.mp he with hold | hnew
    · exact .inl hold
    · obtain rfl := List.mem_singleton.mp hnew
      exact .inr ⟨_, List.getElem?_set_self hi, rfl⟩
  | _ => exact .inl he

theorem Vouched.step (hv : Vouched s) (apart : Apart s) (hp : s.publishers[i]? = some p)
    (hfresh : Fresh s ⟨i, s.clock, command⟩) (h : OutboxStep maxAttempts s i p command s') :
    Vouched s' := by
  intro e he r hr hid
  rcases succeeded_step hp h he with he | ⟨p', hp', hconfirmed⟩
  · rcases row_before h hr with hold | ⟨event, succeeded, rest, r₀, hmem, -, hphase, hev, rfl⟩
    · rcases hv e he r hold hid with hst | ⟨j, q, hq, hconfirmed⟩ | ⟨hst, hdropped⟩
      · exact .inl hst
      · by_cases hji : j = i
        · subst hji
          obtain rfl : q = p := by
            rw [hq] at hp
            exact Option.some.inj hp
          have hpending :=
            apart.pending j q hp e (Phase.mem_ids_of_confirmed hconfirmed) r hold hid
          rcases confirmed_stays hp apart h hconfirmed hold hid with
            ⟨p', hp', hconfirmed'⟩ | ⟨rest, event, hphase, rfl⟩ | hdropped
          · exact .inr (.inl ⟨j, p', hp', hconfirmed'⟩)
          · left
            rw [hphase] at hconfirmed
            obtain rfl := Option.some.inj hconfirmed
            cases h with
            | committed event' succeeded' rest' r₀ hphase' hmem hev =>
              rw [hphase] at hphase'
              cases hphase'
              rcases (mem_save_markRow hmem).mp hr with rfl | ⟨-, hne⟩
              · rfl
              · exact absurd (Table.eq_of_key hold hmem (hid.trans hev.symm)) hne
          · exact .inr (.inr ⟨hpending, hdropped⟩)
        · obtain ⟨p', hset⟩ := publishers_step h
          refine .inr (.inl ⟨j, q, ?_, hconfirmed⟩)
          rw [hset, List.getElem?_set_ne (Ne.symm hji)]
          exact hq
      · exact .inr (.inr ⟨hst, hdropped.step hp hfresh h he⟩)
    · -- the row has just been marked
      rw [markRow_eventId] at hid
      cases succeeded with
      | true => exact .inl rfl
      | false =>
        have hmine : e ∈ p.phase.ids := by
          rw [hphase, ← hid, hev]
          exact List.mem_cons_self
        have hpending := apart.pending i p hp e hmine r₀ hmem hid
        rcases hv e he r₀ hmem hid with hst | ⟨j, q, hq, hconfirmed⟩ | ⟨-, hdropped⟩
        · rw [hpending] at hst
          cases hst
        · obtain rfl := apart.apart j i q p hq hp e (Phase.mem_ids_of_confirmed hconfirmed) hmine
          obtain rfl : q = p := by
            rw [hq] at hp
            exact Option.some.inj hp
          rw [hphase] at hconfirmed
          cases hconfirmed
        · exact absurd hmine (hdropped i p hp)
  · exact .inr (.inl ⟨i, p', hp', hconfirmed⟩)

end Steps

/-! ## Over runs -/

section Runs

variable {maxAttempts : Int} {t : OutboxTable} {s : OutboxState}

theorem reachable_confirmed (ht : ∀ r ∈ t, r.status = .pending)
    (hs : (outbox maxAttempts t).Reachable s) : Confirmed s := by
  refine outbox_invariant (fun processes clock => ⟨fun i p e hp he => ?_, fun r hr hst => ?_⟩)
    (fun s now h _ => ⟨h.phases, h.rows⟩) (fun s i p c s' h hp _ hstep => h.step hp hstep)
    (fun _ _ _ => trivial) hs
  · rw [phase_start hp] at he
    cases he
  · rw [ht r hr] at hst
    cases hst

theorem reachable_handed (hs : (outbox maxAttempts t).Reachable s) : HandedDue s := by
  have hboth : HandedDue s ∧ Due s := by
    refine outbox_invariant (P := fun s => HandedDue s ∧ Due s)
      (fun processes clock => ⟨?_, due_start t processes clock⟩)
      (fun s now h hle => ⟨h.1, h.2.tick hle⟩)
      (fun s i p c s' h hp _ hstep => ⟨h.1.step h.2 hp hstep, h.2.step hp hstep⟩)
      (fun _ _ _ => trivial) hs
    intro c hc
    cases hc
  exact hboth.1

theorem reachable_accounted (ht : ∀ r ∈ t, r.status = .pending)
    (hs : (outbox maxAttempts t).Reachable s) : Accounted maxAttempts t s := by
  refine outbox_invariant (fun processes clock => ⟨fun r hr => ⟨r, hr, rfl, ?_⟩, fun r hr hst => ?_⟩)
    (fun s now h _ => ⟨h.attempts, h.dead⟩) (fun s i p c s' h hp _ hstep => h.step hp hstep)
    (fun _ _ _ => trivial) hs
  · have hnone : failingCount (.start t processes clock) r.eventId = 0 := by
      apply List.countP_eq_zero.mpr
      intro p hp
      rw [List.eq_of_mem_replicate hp]
      simp [Phase.failing]
    rw [hnone]
    exact Nat.le_add_right _ _
  · rw [ht r hr] at hst
    cases hst

theorem reachable_vouched (hs : (outbox maxAttempts t).ReachableVia Fresh s) : Vouched s := by
  have hboth : Vouched s ∧ Apart s := by
    refine outbox_invariant (P := fun s => Vouched s ∧ Apart s)
      (fun processes clock => ⟨?_, apart_start t processes clock⟩)
      (fun s now h _ => ⟨h.1, h.2.nodup, h.2.apart, h.2.pending⟩)
      (fun s i p c s' h hp hok hstep => ⟨h.1.step h.2 hp hok hstep, h.2.step hp hok.exclusive hstep⟩)
      (fun _ _ h => h) hs
    intro e he
    cases he
  exact hboth.1

/-- **No dead letter has been delivered, if the scans select fresh events only.** -/
theorem not_succeeded_of_dead (hs : (outbox maxAttempts t).ReachableVia Fresh s) {r : OutboxRow}
    (hr : r ∈ s.events) (hst : r.status = .deadLetter) : r.eventId ∉ s.succeeded := by
  intro he
  have apart := reachable_apart (hs.mono fun _ _ h => h.exclusive)
  rcases reachable_vouched hs r.eventId he r hr rfl with hpub | ⟨i, p, hp, hconfirmed⟩ | ⟨hpending, -⟩
  · rw [hst] at hpub
    cases hpub
  · have hpending := apart.pending i p hp _ (Phase.mem_ids_of_confirmed hconfirmed) r hr rfl
    rw [hst] at hpending
    cases hpending
  · rw [hst] at hpending
    cases hpending

/-- A scan with a large enough limit selects every pending row that is due and not locked. -/
theorem scan_selects {a : OutboxAction} {limit : Nat} {s' : OutboxState}
    (hcommand : a.command = .scan limit) (hstep : (outbox maxAttempts t).step s a = some s')
    (hlimit : (availableRows a.now s.locks s.events).length ≤ limit) {r : OutboxRow}
    (hr : r ∈ s.events) (hst : r.status = .pending) (hdue : r.availableAt ≤ a.now)
    (hfree : s.locks r.eventId = none) :
    ∃ p', s'.publishers[a.publisher]? = some p' ∧ r.eventId ∈ p'.phase.ids := by
  obtain ⟨p, hp, -, h⟩ := step_cases hstep
  obtain ⟨hi, -⟩ := List.getElem?_eq_some_iff.mp hp
  rw [hcommand] at h
  cases h with
  | scanned _ hphase =>
    refine ⟨_, List.getElem?_set_self hi, ?_⟩
    simp only [Phase.ids, List.map_map]
    exact List.mem_map.mpr ⟨r, (mem_listAvailable hlimit).mpr ⟨hr, hst, hdue, hfree⟩, rfl⟩

/-- **The marks tell the truth in every run whose scans select fresh events only.** -/
theorem bookkeeping_of_fresh (ht : ∀ r ∈ t, r.status = .pending)
    (hs : (outbox maxAttempts t).ReachableVia Fresh s) :
    (∀ r ∈ s.events, r.status = .published → r.eventId ∈ s.succeeded) ∧
    (∀ r ∈ s.events, r.status = .deadLetter → r.eventId ∉ s.succeeded ∧
      ∃ r₀ ∈ t, r₀.eventId = r.eventId ∧
        maxAttempts ≤ r₀.attempts + s.failed.count r.eventId) ∧
    (∀ c ∈ s.handed, ∀ r ∈ s.events, r.eventId = c.1 → r.availableAt ≤ c.2) ∧
    (∀ as s', (outbox maxAttempts t).run s as = some s' →
      ∀ r ∈ s.events, r.status ≠ .pending → r ∈ s'.events) ∧
    (∀ a limit s', a.command = .scan limit → (outbox maxAttempts t).step s a = some s' →
      (availableRows a.now s.locks s.events).length ≤ limit →
      ∀ r ∈ s.events, r.status = .pending → r.availableAt ≤ a.now → s.locks r.eventId = none →
        ∃ p', s'.publishers[a.publisher]? = some p' ∧ r.eventId ∈ p'.phase.ids) := by
  have hreach := hs.reachable
  have haccounted := reachable_accounted ht hreach
  refine ⟨(reachable_confirmed ht hreach).rows, fun r hr hst => ⟨?_, ?_⟩, reachable_handed hreach,
    fun as s' hrun r hr hst => settled_run hreach hrun hr hst,
    fun a limit s' hcommand hstep hlimit r hr hst hdue hfree =>
      scan_selects hcommand hstep hlimit hr hst hdue hfree⟩
  · exact not_succeeded_of_dead hs hr hst
  · obtain ⟨r₀, hr₀, hid, hle⟩ := haccounted.attempts r hr
    have hdead := haccounted.dead r hr hst
    exact ⟨r₀, hr₀, hid, by omega⟩

end Runs

/-! An event that has failed nine times, and two processes. -/

def failingEvent : OutboxRow :=
  { eventId := 1, eventType := .planWakeup, aggregateId := 7, payload := .plan 1 7,
    status := .pending, attempts := 9, availableAt := 0, publishedAt := none, createdAt := 0 }

/-- The process `i` does one thing after the other, at the time `1`. -/
def actionsOf (i : Nat) (commands : List Command) : List OutboxAction := commands.map (⟨i, 1, ·⟩)

/-- A batch that fails. -/
def failedBatch : List OutboxAction :=
  actionsOf 0 [.scan 100, .loaded, .publish, .raised, .lock, .commit, .finish]

/-- Both load the event; the call of one returns, that of the other raises, and the failure is
marked first. -/
def successThenFailure : List OutboxAction :=
  actionsOf 0 [.scan 100, .loaded] ++ actionsOf 1 [.scan 100, .loaded, .publish, .returned] ++
    actionsOf 0 [.publish, .raised, .lock, .commit]

theorem failedBatch_bookkeeping :
    ∃ s, (outbox 10 (Table.single failingEvent)).ReachableVia Fresh s ∧
      s.events.rows.map (·.status) = [.deadLetter] ∧
      ∀ r ∈ s.events, r.status = .deadLetter → r.eventId ∉ s.succeeded := by
  have hrun : ((outbox 10 (Table.single failingEvent)).runWhile Fresh
      (.start (Table.single failingEvent) 2 0) failedBatch).map
        (fun s => s.events.rows.map (·.status)) = some [.deadLetter] := by decide
  obtain ⟨s, hs, hrows⟩ := Option.map_eq_some_iff.mp hrun
  have hreach : (outbox 10 (Table.single failingEvent)).ReachableVia Fresh s :=
    (Machine.RunVia.of_runWhile hs).reachableVia (.init ⟨2, 0, rfl⟩)
  refine ⟨s, hreach, hrows, fun r hr hst => ?_⟩
  exact ((bookkeeping_of_fresh (by decide) hreach).2.1 r hr hst).1

/-- **A dead letter can be an event whose delivery has succeeded.** -/
theorem dead_letter_delivered :
    ¬ ∀ (maxAttempts : Int) (t : OutboxTable), (∀ r ∈ t, r.status = .pending) →
      ∀ s, (outbox maxAttempts t).Reachable s → ∀ r ∈ s.events, r.status = .deadLetter →
        r.eventId ∉ s.succeeded := by
  intro hall
  have hrun : ((outbox 10 (Table.single failingEvent)).run
      (.start (Table.single failingEvent) 2 0) successThenFailure).map
        (fun s => (s.events.rows.map fun r => (r.eventId, r.status), s.succeeded)) =
      some ([(1, .deadLetter)], [1]) := by decide
  obtain ⟨s, hs, hstate⟩ := Option.map_eq_some_iff.mp hrun
  obtain ⟨hrows, hsucceeded⟩ := Prod.mk.inj hstate
  obtain ⟨r, hr, hpair⟩ := List.mem_map.mp
    (hrows ▸ List.mem_singleton_self ((1, .deadLetter) : EventId × OutboxEventStatus))
  obtain ⟨hid, hst⟩ := Prod.mk.inj hpair
  have hreach : (outbox 10 (Table.single failingEvent)).Reachable s :=
    Machine.Reachable.run (.init ⟨2, 0, rfl⟩) hs
  apply hall 10 _ (by decide) s hreach r hr hst
  rw [hid, hsucceeded]
  exact List.mem_singleton_self 1

end DocFlow.Messaging
