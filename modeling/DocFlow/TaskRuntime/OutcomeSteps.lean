import DocFlow.TaskRuntime.ClaimSteps

/-!
# What the outcome transactions can do

One inversion lemma for each transaction that closes an attempt or a compensation:
the rows its guard has admitted, the ways it can go on and the database it commits.
-/

namespace DocFlow.TaskRuntime

/-! ## The guards -/

theorem lockExecution_eq_ok {snapshot : Snapshot} {db : Db} {p : Plan} {t : Task}
    {e : TaskExecution} :
    lockExecution snapshot db = .ok (p, t, e) ↔
      db.plans.get? snapshot.planId = some p ∧ db.tasks.get? snapshot.taskId = some t ∧
      db.taskExecutions.get? snapshot.executionId = some e ∧
      p.currentTaskId = some t.taskId ∧ t.status = .running ∧ e.status = .running ∧
      e.attempt = snapshot.attempt ∧ e.operationId = snapshot.operationId ∧
      e.agentRunId = some snapshot.agentRunId := by
  simp only [lockExecution, bind_eq_ok, orRaise_eq_ok, ensure_eq_ok, pure_eq_ok, Prod.mk.injEq]
  constructor
  · rintro ⟨_, hp, _, ht, _, he, _, hg, rfl, rfl, rfl⟩
    exact ⟨hp, ht, he, hg⟩
  · rintro ⟨hp, ht, he, hg⟩
    exact ⟨p, hp, t, ht, e, he, (), hg, rfl, rfl, rfl⟩

theorem lockCompensationToken_eq_ok {snapshot : Snapshot} {db : Db} {p : Plan} {t : Task}
    {e : TaskExecution} :
    lockCompensationToken snapshot db = .ok (p, t, e) ↔
      db.plans.get? snapshot.planId = some p ∧ db.tasks.get? snapshot.taskId = some t ∧
      db.taskExecutions.get? snapshot.executionId = some e ∧
      p.currentTaskId = some t.taskId ∧ t.status = .running ∧ e.status = .compensationRequired ∧
      e.attempt = snapshot.attempt ∧ e.operationId = snapshot.operationId := by
  simp only [lockCompensationToken, bind_eq_ok, orRaise_eq_ok, ensure_eq_ok, pure_eq_ok,
    Prod.mk.injEq]
  constructor
  · rintro ⟨_, hp, _, ht, _, he, _, hg, rfl, rfl, rfl⟩
    exact ⟨hp, ht, he, hg⟩
  · rintro ⟨hp, ht, he, hg⟩
    exact ⟨p, hp, t, ht, e, he, (), hg, rfl, rfl, rfl⟩

/-! ## Recording an event -/

/-- Recording an event touches the inbox alone. -/
structure InboxOnly (db db' : Db) : Prop where
  conversationTurns : db'.conversationTurns = db.conversationTurns
  plans : db'.plans = db.plans
  tasks : db'.tasks = db.tasks
  taskDependencies : db'.taskDependencies = db.taskDependencies
  taskExecutions : db'.taskExecutions = db.taskExecutions
  outbox : db'.outbox = db.outbox
  clarifications : db'.clarifications = db.clarifications
  context : db'.context = db.context

theorem InboxOnly.refl (db : Db) : InboxOnly db db := ⟨rfl, rfl, rfl, rfl, rfl, rfl, rfl, rfl⟩

theorem addInbox_inboxOnly {db db' : Db} {c : String} {i : EventId}
    (h : db.addInbox c i = .ok db') : InboxOnly db db' := by
  obtain ⟨table, -, rfl⟩ := Db.addInbox_eq_ok.mp h
  exact ⟨rfl, rfl, rfl, rfl, rfl, rfl, rfl, rfl⟩

theorem db_recordInboxOnce_inboxOnly {db db' : Db} {c : String} {i : EventId}
    (h : db.recordInboxOnce c i = .ok db') : InboxOnly db db' := by
  unfold Db.recordInboxOnce at h
  split at h
  · cases h
    exact .refl db
  · exact addInbox_inboxOnly h

theorem recordInbox_inboxOnly {i : Option EventId} {db db' : Db}
    (h : recordInbox i db = .ok db') : InboxOnly db db' := by
  cases i with
  | none => cases h; exact .refl db
  | some i => exact addInbox_inboxOnly h

/-- An event is recorded at most once. -/
theorem recordInbox_fresh {i : Option EventId} {db db' : Db} (h : recordInbox i db = .ok db') :
    ∀ x ∈ i, db.inboxExists consumerName x = false := by
  rintro x rfl
  obtain ⟨table, htable, -⟩ := Db.addInbox_eq_ok.mp h
  rw [← Bool.not_eq_true, Db.inboxExists_iff]
  intro hx
  exact Table.key_not_mem_of_insert htable hx rfl

theorem recordInboxOnce_inboxOnly {i : Option EventId} {db db' : Db}
    (h : recordInboxOnce i db = .ok db') : InboxOnly db db' := by
  cases i with
  | none => cases h; exact .refl db
  | some i => exact db_recordInboxOnce_inboxOnly h

/-! ## The transactions -/

theorem complete_cases {newEventId : EventId} {clock : Clock} {snapshot : Snapshot}
    {outputJson : OutputJson} {resourceRefs : List String} {db db' : Db}
    (h : complete newEventId clock snapshot outputJson resourceRefs db = .ok db') :
    ∃ p t e base, lockExecution snapshot db = .ok (p, t, e) ∧
      base = db.saveRows (releasePlan p) (succeedTask (clock.read 0) outputJson t)
        (succeedExecution (clock.read 0) outputJson resourceRefs e) ∧
      (((∃ x ∈ base.tasks, x.planId = p.planId ∧ (x.status = .pending ∨ x.status = .retryWait)) ∧
        base.addOutbox (event newEventId p .planWakeup none (clock.read 1)) = .ok db') ∨
      ((∀ x ∈ base.tasks, x.planId = p.planId → x.status = .succeeded) ∧
        (base.savePlan (completePlan (clock.read 0) p)).addOutbox
          (event newEventId p .aggregationRequested none (clock.read 1)) = .ok db') ∨
      ((∃ x ∈ base.tasks, x.planId = p.planId ∧ x.status ≠ .succeeded ∧ x.status ≠ .pending ∧
        x.status ≠ .retryWait) ∧ db' = base)) := by
  simp only [complete, bind_eq_ok, Prod.exists] at h
  obtain ⟨p, t, e, hlock, h⟩ := h
  refine ⟨p, t, e, _, hlock, rfl, ?_⟩
  split at h
  · next hcount =>
    refine .inl ⟨?_, h⟩
    rcases hcount with hc | hc
    · rw [ne_eq, Db.countByPlanAndStatus_eq_zero] at hc
      push Not at hc
      obtain ⟨x, hx, hplan, hst⟩ := hc
      exact ⟨x, hx, hplan, .inl hst⟩
    · rw [ne_eq, Db.countByPlanAndStatus_eq_zero] at hc
      push Not at hc
      obtain ⟨x, hx, hplan, hst⟩ := hc
      exact ⟨x, hx, hplan, .inr hst⟩
  · next hcount =>
    rw [not_or, not_ne_iff, not_ne_iff, Db.countByPlanAndStatus_eq_zero,
      Db.countByPlanAndStatus_eq_zero] at hcount
    split at h
    · next hall =>
      refine .inr (.inl ⟨?_, h⟩)
      intro x hx hplan
      exact hall x (Db.mem_listByPlanId.mpr ⟨hx, hplan⟩)
    · next hall =>
      refine .inr (.inr ⟨?_, (pure_eq_ok.mp h)⟩)
      push Not at hall
      obtain ⟨x, hx, hst⟩ := hall
      obtain ⟨hx, hplan⟩ := Db.mem_listByPlanId.mp hx
      exact ⟨x, hx, hplan, hst, hcount.1 x hx hplan, hcount.2 x hx hplan⟩

theorem fail_cases {settings : RuntimeSettings} {newEventId : EventId} {clock : Clock}
    {snapshot : Snapshot} {error : TaskExecutionError} {db db' : Db}
    (h : fail settings newEventId clock snapshot error db = .ok db') :
    ∃ p t e, lockExecution snapshot db = .ok (p, t, e) ∧
      ((error.retryable = true ∧ (t.attemptCount : Int) < t.maxAttempts ∧
        (db.saveRows (releasePlan p)
          (failTask (clock.read 0) .retryWait (some error.errorCode) (some error.message) t)
          (recordError .failed (some (clock.read 0)) error e)).addOutbox
            (event newEventId p .planWakeup none
              (clock.read 0 + timedelta settings.retryDelaySeconds)) = .ok db') ∨
      (¬ (error.retryable = true ∧ (t.attemptCount : Int) < t.maxAttempts) ∧ ∃ c,
        (db.saveRows (requestReplan (some error.errorCode) (some error.message) p)
          (failTask (clock.read 0) (if error.blocked then .blocked else .failed)
            (some error.errorCode) (some error.message) t)
          (recordError .failed (some (clock.read 0)) error e)).addOutbox
            (event newEventId p .replanRequested
              (some (replanPayload c p t error.blocked (some error.errorCode)
                (some error.message)))
              (clock.read 1)) = .ok db')) := by
  simp only [fail, bind_eq_ok, Prod.exists] at h
  obtain ⟨p, t, e, hlock, h⟩ := h
  refine ⟨p, t, e, hlock, ?_⟩
  split at h
  · next hretry => exact .inl ⟨hretry.1, hretry.2, h⟩
  · next hretry =>
    rw [bind_eq_ok] at h
    obtain ⟨c, -, h⟩ := h
    exact .inr ⟨hretry, c, h⟩

theorem requireCompensation_cases {snapshot : Snapshot} {error : TaskExecutionError} {db db' : Db}
    (h : requireCompensation snapshot error db = .ok db') :
    ∃ p t e, lockExecution snapshot db = .ok (p, t, e) ∧
      db' = db.saveExecution (recordError .compensationRequired none error e) := by
  simp only [requireCompensation, bind_eq_ok, Prod.exists, pure_eq_ok] at h
  exact h

theorem beginCompensationAttempt_cases {clock : Clock} {snapshot : Snapshot} {db db' : Db} {n : Nat}
    (h : beginCompensationAttempt clock snapshot db = .ok (n, db')) :
    ∃ p t e, lockCompensationToken snapshot db = .ok (p, t, e) ∧
      n = e.compensationAttemptCount + 1 ∧
      db' = db.saveExecution (countAttempt (clock.read 0) e) := by
  simp only [beginCompensationAttempt, bind_eq_ok, Prod.exists, pure_eq_ok, Prod.mk.injEq] at h
  exact h

theorem handleCompensationFailure_cases {settings : RuntimeSettings} {newEventId : EventId}
    {clock : Clock} {snapshot : Snapshot} {eventId : Option EventId} {error : String}
    {attempt : Nat} {db db' : Db} {o : ExecuteOutcome}
    (h : handleCompensationFailure settings newEventId clock snapshot eventId error attempt db =
      .ok (o, db')) :
    ∃ p t e, lockCompensationToken snapshot db = .ok (p, t, e) ∧
      e.compensationAttemptCount = attempt ∧
      ((settings.maxCompensationAttempts ≤ attempt ∧ o = .compensationLocked ∧
        recordInboxOnce eventId (db.saveExecution
          (lockExhausted (clock.read 0) (recordCompensationError error e))) = .ok db') ∨
      (attempt < settings.maxCompensationAttempts ∧ o = .compensationRetryScheduled ∧ ∃ mid,
        (db.saveExecution (recordCompensationError error e)).addOutbox
          (compensationWakeup settings newEventId (clock.read 0) snapshot attempt p) = .ok mid ∧
        recordInboxOnce eventId mid = .ok db')) := by
  simp only [handleCompensationFailure, bind_eq_ok, Prod.exists, ensure_eq_ok] at h
  obtain ⟨p, t, e, hlock, -, hcount, h⟩ := h
  refine ⟨p, t, e, hlock, hcount, ?_⟩
  split at h
  · next hmax =>
    simp only [lockCompensation, bind_eq_ok, pure_eq_ok, Prod.mk.injEq] at h
    obtain ⟨_, hdb, rfl, rfl⟩ := h
    exact .inl ⟨hmax, rfl, hdb⟩
  · next hmax =>
    simp only [bind_eq_ok, pure_eq_ok, Prod.mk.injEq] at h
    obtain ⟨mid, hmid, _, hdb, rfl, rfl⟩ := h
    exact .inr ⟨Nat.lt_of_not_le hmax, rfl, mid, hmid, hdb⟩

theorem completeCompensation_cases {settings : RuntimeSettings} {newEventId : EventId}
    {clock : Clock} {snapshot : Snapshot} {eventId : Option EventId} {db db' : Db}
    {o : ExecuteOutcome}
    (h : completeCompensation settings newEventId clock snapshot eventId db = .ok (o, db')) :
    ∃ p t e mid, lockCompensationToken snapshot db = .ok (p, t, e) ∧
      recordInbox eventId mid = .ok db' ∧
      ((e.retryable = some true ∧ (t.attemptCount : Int) < t.maxAttempts ∧ o = .retryScheduled ∧
        (db.saveRows (releasePlan p)
          (failTask (clock.read 0)
            (if e.errorCode = some leaseExpiredCode then .pending else .retryWait) e.errorCode
            e.errorMessage t)
          (compensateExecution (clock.read 0) e)).addOutbox
            (event newEventId p .planWakeup none
              (if e.errorCode = some leaseExpiredCode then clock.read 0
                else clock.read 0 + timedelta settings.retryDelaySeconds)) = .ok mid) ∨
      (¬ (e.retryable = some true ∧ (t.attemptCount : Int) < t.maxAttempts) ∧
        o = .replanRequested ∧
        (db.saveRows (requestReplan e.errorCode e.errorMessage p)
          (failTask (clock.read 0) (if e.blocked then .blocked else .failed) e.errorCode
            e.errorMessage t)
          (compensateExecution (clock.read 0) e)).addOutbox
            (event newEventId p .replanRequested
              (some (replanPayload snapshot.conversationId p t e.blocked e.errorCode
                e.errorMessage))
              (clock.read 1)) = .ok mid)) := by
  simp only [completeCompensation, bind_eq_ok, Prod.exists] at h
  obtain ⟨p, t, e, hlock, h⟩ := h
  split at h
  · next hretry =>
    simp only [bind_eq_ok, pure_eq_ok, Prod.mk.injEq] at h
    obtain ⟨mid, hmid, _, hdb, rfl, rfl⟩ := h
    exact ⟨p, t, e, mid, hlock, hdb, .inl ⟨hretry.1, hretry.2, rfl, hmid⟩⟩
  · next hretry =>
    simp only [bind_eq_ok, pure_eq_ok, Prod.mk.injEq] at h
    obtain ⟨mid, hmid, _, hdb, rfl, rfl⟩ := h
    exact ⟨p, t, e, mid, hlock, hdb, .inr ⟨hretry, rfl, hmid⟩⟩

end DocFlow.TaskRuntime
