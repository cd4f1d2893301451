import DocFlow.TaskRuntime.Ownership

/-!
# Stale attempts are fenced

A snapshot denotes the current ownership when the plan's current task, that task's
latest execution and the columns of the token agree with it.  The guards of the
outcome transactions look up the execution by its own identifier instead;
`guard_denotes` says that this comes to the same, because only the latest execution of
the current task is active.
-/

namespace DocFlow.TaskRuntime

/-! ## Current ownership -/

/-- The snapshot is of the live attempt of the plan, in the given status. -/
def Denotes (db : Db) (s : Snapshot) (status : TaskExecutionStatus) : Prop :=
  (∃ p ∈ db.plans.rows, p.planId = s.planId ∧ p.currentTaskId = some s.taskId) ∧
  (∃ t ∈ db.tasks.rows, t.taskId = s.taskId ∧ t.status = .running) ∧
  (∃ e ∈ db.getLatestByTask s.taskId, e.status = status ∧ e.attempt = s.attempt ∧
    e.operationId = s.operationId)

/-- The live attempt was started under the snapshot's agent run. -/
def DenotesRun (db : Db) (s : Snapshot) : Prop :=
  ∃ e ∈ db.getLatestByTask s.taskId, e.agentRunId = some s.agentRunId

instance (db : Db) (s : Snapshot) (status : TaskExecutionStatus) :
    Decidable (Denotes db s status) := by
  unfold Denotes; infer_instance

instance (db : Db) (s : Snapshot) : Decidable (DenotesRun db s) := by
  unfold DenotesRun; infer_instance

/-- What a call needs its snapshot to denote: an executor's outcome needs the
running attempt and its agent run, a compensation the attempt to compensate. -/
def RuntimeAction.Current (db : Db) (s : Snapshot) : RuntimeAction → Prop
  | complete .. | fail .. | requireCompensation .. => Denotes db s .running ∧ DenotesRun db s
  | _ => Denotes db s .compensationRequired

section Guards

variable {registry : CapabilityRegistry} {db : Db} {s : Snapshot}

/-- Rows that pass a guard are the rows the plan owns. -/
theorem guard_denotes (h : Consistent registry db) (hs : Coherent db s) {p : Plan} {t : Task}
    {e : TaskExecution} (hp : db.plans.get? s.planId = some p) (ht : db.tasks.get? s.taskId = some t)
    (he : db.taskExecutions.get? s.executionId = some e) (hcur : p.currentTaskId = some t.taskId)
    (hrun : t.status = .running) (hact : isActive e.status = true) (hatt : e.attempt = s.attempt)
    (hop : e.operationId = s.operationId) :
    Denotes db s e.status ∧ db.getLatestByTask s.taskId = some e := by
  obtain ⟨hpm, hpid⟩ := Table.get?_eq_some.mp hp
  obtain ⟨htm, htid⟩ := Table.get?_eq_some.mp ht
  have hem := Table.mem_of_get? he
  have hte := hs.taskId_eq ht he
  have hk := ((h.active t htm e hem hte).mp hact).2
  have hlatest := h.latest htm hem hte hk
  rw [htid] at hlatest hcur
  exact ⟨⟨⟨p, hpm, hpid, hcur⟩, ⟨t, htm, htid, hrun⟩, e, hlatest, rfl, hatt, hop⟩, hlatest⟩

theorem lockExecution_denotes (h : Consistent registry db) (hs : Coherent db s)
    {rows : Plan × Task × TaskExecution} (hlock : lockExecution s db = .ok rows) :
    Denotes db s .running ∧ DenotesRun db s := by
  obtain ⟨p, t, e⟩ := rows
  obtain ⟨hp, ht, he, hcur, hrun, hst, hatt, hop, hagent⟩ := lockExecution_eq_ok.mp hlock
  obtain ⟨hden, hlatest⟩ :=
    guard_denotes h hs hp ht he hcur hrun (by rw [hst]; rfl) hatt hop
  rw [hst] at hden
  exact ⟨hden, e, hlatest, hagent⟩

theorem lockCompensationToken_denotes (h : Consistent registry db) (hs : Coherent db s)
    {rows : Plan × Task × TaskExecution} (hlock : lockCompensationToken s db = .ok rows) :
    Denotes db s .compensationRequired := by
  obtain ⟨p, t, e⟩ := rows
  obtain ⟨hp, ht, he, hcur, hrun, hst, hatt, hop⟩ := lockCompensationToken_eq_ok.mp hlock
  obtain ⟨hden, -⟩ := guard_denotes h hs hp ht he hcur hrun (by rw [hst]; rfl) hatt hop
  rw [hst] at hden
  exact hden

/-- A call that commits was made with a snapshot that denotes the current ownership. -/
theorem transaction_current {config : RuntimeConfig} {a : RuntimeAction} {x : Option Snapshot × Db}
    (h : Consistent registry db) (hs : Coherent db s) (ha : a.snapshot? = some s)
    (hx : a.transaction config db = .ok x) : a.Current db s := by
  cases a with
  | complete _ _ s' =>
    obtain rfl := Option.some.inj ha
    obtain ⟨_, hx, -⟩ := map_eq_ok.mp hx
    obtain ⟨_, _, _, _, hlock, -⟩ := complete_cases hx
    exact lockExecution_denotes h hs hlock
  | fail _ _ s' =>
    obtain rfl := Option.some.inj ha
    obtain ⟨_, hx, -⟩ := map_eq_ok.mp hx
    obtain ⟨_, _, _, hlock, -⟩ := fail_cases hx
    exact lockExecution_denotes h hs hlock
  | requireCompensation s' =>
    obtain rfl := Option.some.inj ha
    obtain ⟨_, hx, -⟩ := map_eq_ok.mp hx
    obtain ⟨_, _, _, hlock, -⟩ := requireCompensation_cases hx
    exact lockExecution_denotes h hs hlock
  | beginCompensation _ s' =>
    obtain rfl := Option.some.inj ha
    obtain ⟨_, hx, -⟩ := bind_eq_ok.mp hx
    obtain ⟨_, _, _, hlock, -⟩ := beginCompensationAttempt_cases hx
    exact lockCompensationToken_denotes h hs hlock
  | handleCompensationFailure _ _ s' =>
    obtain rfl := Option.some.inj ha
    obtain ⟨_, hx, -⟩ := bind_eq_ok.mp hx
    obtain ⟨_, _, _, hlock, -⟩ := handleCompensationFailure_cases hx
    exact lockCompensationToken_denotes h hs hlock
  | completeCompensation _ _ s' =>
    obtain rfl := Option.some.inj ha
    obtain ⟨_, hx, -⟩ := bind_eq_ok.mp hx
    obtain ⟨_, _, _, _, hlock, -⟩ := completeCompensation_cases hx
    exact lockCompensationToken_denotes h hs hlock
  | createPlan | createTask | finalizePlan | prepareRevision | claim => cases ha

end Guards

/-! ## Outcomes -/

/-- The statuses in which an execution has received its outcome. -/
def isOutcome : TaskExecutionStatus → Bool
  | .succeeded | .failed | .compensated | .compensationLocked => true
  | _ => false

/-- How a status may have moved in the meantime. -/
structure Follows (s s' : TaskExecutionStatus) : Prop where
  outcome : isOutcome s = true → s' = s
  required : s = .compensationRequired → s' ≠ .succeeded ∧ s' ≠ .failed ∧ s' ≠ .running

theorem Follows.refl (s : TaskExecutionStatus) : Follows s s := by
  refine ⟨fun _ => rfl, fun h => ?_⟩
  subst h
  decide

theorem StatusStep.follows {s s' : TaskExecutionStatus} (h : StatusStep s s') : Follows s s' := by
  cases h with
  | same => exact .refl s
  | advances h => cases h <;> exact ⟨by decide, by decide⟩
  | fails h => cases h <;> exact ⟨by decide, by decide⟩
  | succeeds => exact ⟨by decide, by decide⟩

theorem Follows.trans {a b c : TaskExecutionStatus} (h : Follows a b) (g : Follows b c) :
    Follows a c := by
  refine ⟨fun ha => ?_, fun ha => ?_⟩
  · have hb := h.outcome ha
    rw [← hb] at ha ⊢
    exact g.outcome ha
  · obtain ⟨h₁, h₂, h₃⟩ := h.required ha
    cases b with
    | compensationRequired => exact g.required rfl
    | compensated => rw [g.outcome rfl]; decide
    | compensationLocked => rw [g.outcome rfl]; decide
    | succeeded => exact absurd rfl h₁
    | failed => exact absurd rfl h₂
    | running => exact absurd rfl h₃

/-- Executions stay and only follow their status. -/
def ExecutionsFollow (db db' : Db) : Prop :=
  ∀ e ∈ db.taskExecutions, ∃ e' ∈ db'.taskExecutions, SameAttempt e e' ∧ Follows e.status e'.status

theorem ExecutionsFollow.refl (db : Db) : ExecutionsFollow db db :=
  fun e he => ⟨e, he, .refl e, .refl e.status⟩

theorem SameAttempt.trans {a b c : TaskExecution} (h : SameAttempt a b) (g : SameAttempt b c) :
    SameAttempt a c :=
  ⟨g.executionId.trans h.executionId, g.taskId.trans h.taskId, g.planId.trans h.planId,
    g.attempt.trans h.attempt, g.operationId.trans h.operationId, g.agentRunId.trans h.agentRunId,
    g.startedAt.trans h.startedAt⟩

theorem ExecutionsFollow.trans {a b c : Db} (h : ExecutionsFollow a b) (g : ExecutionsFollow b c) :
    ExecutionsFollow a c := by
  intro e he
  obtain ⟨e', he', hsame, hf⟩ := h e he
  obtain ⟨e'', he'', hsame', hf'⟩ := g e' he'
  exact ⟨e'', he'', hsame.trans hsame', hf.trans hf'⟩

theorem Effects.executionsFollow {registry : CapabilityRegistry} {db db' : Db}
    (h : Effects registry claiming db db') : ExecutionsFollow db db' := by
  induction h with
  | refl => exact .refl db
  | tail _ hstep ih =>
    refine ih.trans fun e he => ?_
    obtain ⟨e', he', hsame, hst⟩ := hstep.execution he
    exact ⟨e', he', hsame, hst.follows⟩

/-- Along a run, the executions of its first state follow their status. -/
theorem run_executionsFollow {config : RuntimeConfig} {st st' : RuntimeState}
    {as : List RuntimeAction} (h : (runtime config).Reachable st)
    (hrun : (runtime config).run st as = some st') : ExecutionsFollow st.db st'.db := by
  refine Machine.RunVia.preserves (P := fun x => ExecutionsFollow st.db x.db) ?_ h
    (.of_run hrun) (.refl st.db)
  intro x a y hx hfollow _ hstep
  exact hfollow.trans (runtime_step_effects (reachable_owned hx) hstep).executionsFollow

/-- **Stale attempts are fenced**: a call whose snapshot no longer denotes the current
ownership raises and changes no table, and over every run an execution
receives at most one outcome, which is never `succeeded` once it needed compensation. -/
theorem fencing (config : RuntimeConfig) (st : RuntimeState) (h : (runtime config).Reachable st) :
    (∀ s ∈ st.handedOut, ∀ a : RuntimeAction, a.snapshot? = some s → ¬ a.Current st.db s →
      (∃ f, a.transaction config st.db = .error f) ∧
      ∃ st', (runtime config).step st a = some st' ∧ st'.db = st.db) ∧
    (∀ as st', (runtime config).run st as = some st' → ∀ e ∈ st.db.taskExecutions,
      ∃ e' ∈ st'.db.taskExecutions, e'.executionId = e.executionId ∧
        (isOutcome e.status = true → e'.status = e.status) ∧
        (e.status = .compensationRequired → e'.status ≠ .succeeded)) := by
  have howned := reachable_owned h
  constructor
  · intro s hs a ha hstale
    have herr : ∃ f, a.transaction config st.db = .error f := by
      cases hx : a.transaction config st.db with
      | error f => exact ⟨f, rfl⟩
      | ok x =>
        exact absurd (transaction_current howned.consistent (howned.coherent s hs) ha hx) hstale
    obtain ⟨f, hf⟩ := herr
    have hen : a.Enabled st := by
      refine ⟨fun x hx => ?_, ?_⟩
      · obtain rfl := Option.some.inj (ha.symm.trans hx)
        exact hs
      · rintro ids clock seen call rfl
        cases ha
    refine ⟨⟨f, hf⟩, st.after a (.error f), ?_, rfl⟩
    simp only [runtime, hen, if_true, hf]
  · intro as st' hrun e he
    obtain ⟨e', he', hsame, hfollows⟩ := run_executionsFollow h hrun e he
    exact ⟨e', he', hsame.executionId, hfollows.outcome, fun hreq => (hfollows.required hreq).1⟩

/-- The first task has succeeded. -/
def firstTaskSucceeded : RuntimeState :=
  ((runtime defaultConfig).run firstTaskRunning
    [.complete 3 (.at 1) firstSnapshot [] []]).getD firstTurn

theorem firstTaskSucceeded_reachable : (runtime defaultConfig).Reachable firstTaskSucceeded :=
  firstTaskRunning_reachable.run
    (rfl : (runtime defaultConfig).run firstTaskRunning
      [.complete 3 (.at 1) firstSnapshot [] []] = some firstTaskSucceeded)

/-- Its worker reports a second time. -/
theorem firstTaskSucceeded_fenced :
    ∃ f, (RuntimeAction.complete 4 (.at 2) firstSnapshot [] []).transaction defaultConfig
      firstTaskSucceeded.db = .error f := by
  have hstale : ¬ (Denotes firstTaskSucceeded.db firstSnapshot .running ∧
      DenotesRun firstTaskSucceeded.db firstSnapshot) := by decide
  exact ((fencing defaultConfig firstTaskSucceeded firstTaskSucceeded_reachable).1 firstSnapshot
    (by decide) (.complete 4 (.at 2) firstSnapshot [] []) rfl hstale).1

end DocFlow.TaskRuntime
